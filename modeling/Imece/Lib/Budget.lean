import Mathlib.Data.List.Basic
import Mathlib.Data.Nat.Notation
import Mathlib.Tactic.Common
import Imece.Lib.PathTree
import Mathlib.Algebra.GroupWithZero.Nat

/-!
# Texts within a budget

Texts cut at a bound on their length, with a marker where something was cut off, and how
long a text of several parts is.
-/
namespace Imece.Lib

/-- The first characters of a text. -/
def firstChars (count : ℕ) (text : String) : String := String.ofList (text.toList.take count)

/-- A text cut to a limit. The marker stands at the end of what is left, if it fits there. -/
def clipText (marker text : String) (limit : ℕ) : String :=
  if limit = 0 then ""
  else if text.length ≤ limit then text
  else if limit ≤ marker.length then firstChars limit text
  else firstChars (limit - marker.length) text ++ marker

section Clipping

variable {marker text : String} {limit : ℕ}

lemma length_firstChars (count : ℕ) (text : String) :
    (firstChars count text).length = min count text.length := by
  rw [firstChars, String.length_ofList, List.length_take, String.length_toList]

theorem length_clipText_le : (clipText marker text limit).length ≤ limit := by
  unfold clipText
  split_ifs with hzero hfits hmarker
  · simp
  · exact hfits
  · rw [length_firstChars]
    omega
  · rw [String.length_append, length_firstChars]
    omega

lemma clipText_of_le (h : text.length ≤ limit) : clipText marker text limit = text := by
  unfold clipText
  split_ifs with hzero
  · rw [hzero, Nat.le_zero, String.length_eq_zero_iff] at h
    exact h.symm
  · rfl

end Clipping

/-- A text as it stands somewhere in another one. -/
def Quoted (part text : String) : Prop := ∃ before after, text = before ++ part ++ after

section Parts

variable {part text sep : String} {parts : List String}

lemma Quoted.refl (text : String) : Quoted text text := ⟨"", "", by simp⟩

lemma Quoted.append_left (h : Quoted part text) (before : String) :
    Quoted part (before ++ text) := by
  obtain ⟨front, after, rfl⟩ := h
  exact ⟨before ++ front, after, by simp only [String.append_assoc]⟩

lemma Quoted.append_right (h : Quoted part text) (after : String) :
    Quoted part (text ++ after) := by
  obtain ⟨before, back, rfl⟩ := h
  exact ⟨before, back ++ after, by simp only [String.append_assoc]⟩

/-- A part of a section is quoted wherever the sections are joined. -/
theorem Quoted.intercalate {inner : String} (h : Quoted part inner)
    (hmem : inner ∈ parts) : Quoted part (sep.intercalate parts) := by
  induction parts with
  | nil => cases hmem
  | cons first rest ih =>
      cases rest with
      | nil =>
          rw [List.mem_singleton] at hmem
          rw [String.intercalate_singleton, ← hmem]
          exact h
      | cons next rest =>
          rw [String.intercalate_cons_cons]
          rcases List.mem_cons.mp hmem with rfl | hrest
          · rw [String.append_assoc]
            exact h.append_right _
          · exact (ih hrest).append_left _

theorem length_intercalate (sep first : String) (rest : List String) :
    (sep.intercalate (first :: rest)).length =
      ((first :: rest).map String.length).sum + rest.length * sep.length := by
  induction rest generalizing first with
  | nil => simp
  | cons next rest ih =>
      rw [String.intercalate_cons_cons, String.length_append, String.length_append, ih,
        List.map_cons, List.map_cons, List.sum_cons, List.sum_cons, List.length_cons,
        Nat.succ_mul]
      simp only [List.map_cons, List.sum_cons]
      omega

end Parts

section Lines

/-- Where a cut falls in a text of several parts: the parts before it stay as they are, and
of the part it falls in a beginning is left. -/
theorem take_intercalate (sep : Char) (first : List Char) (rest : List (List Char)) (n : ℕ) :
    ∃ k line part, (first :: rest)[k]? = some line ∧ part <+: line ∧
      (k = 0 → part = line.take n) ∧ (n ≤ first.length → k = 0) ∧
      ([sep].intercalate (first :: rest)).take n =
        [sep].intercalate ((first :: rest).take k ++ [part]) := by
  induction rest generalizing first n with
  | nil =>
      exact ⟨0, first, first.take n, rfl, List.take_prefix n first, fun _ => rfl, fun _ => rfl,
        by simp⟩
  | cons next rest ih =>
      by_cases hn : n ≤ first.length
      · refine ⟨0, first, first.take n, rfl, List.take_prefix n first, fun _ => rfl,
          fun _ => rfl, ?_⟩
        rw [List.intercalate_cons_cons, List.append_assoc, List.take_append_of_le_length hn]
        simp
      · obtain ⟨k, line, part, hline, hpart, -, -, htake⟩ := ih next (n - (first.length + 1))
        refine ⟨k + 1, line, part, by simpa using hline, hpart, by simp, fun h => absurd h hn, ?_⟩
        have hsplit : n = (first ++ [sep]).length + (n - (first.length + 1)) := by
          rw [List.length_append, List.length_singleton]
          omega
        rw [List.intercalate_cons_cons, hsplit, List.take_length_add_append, htake,
          List.take_succ_cons, List.cons_append]
        obtain ⟨other, others, hcons⟩ : ∃ other others,
            (next :: rest).take k ++ [part] = other :: others :=
          List.exists_cons_of_ne_nil (by simp)
        rw [hcons, List.intercalate_cons_cons]

/-- The lines of a text of several lines that is cut: those before the cut, what is left of
one more, and the line of the marker if there is room for it. -/
theorem clipText_lines {marker : String} {mark : List Char} (hmarker : marker.toList = '\n' :: mark)
    (hmark : '\n' ∉ mark) {first : String} {rest : List String}
    (hlines : ∀ line ∈ first :: rest, '\n' ∉ line.toList) {limit : ℕ}
    (hcut : limit < ("\n".intercalate (first :: rest)).length) :
    ∃ (k : ℕ) (line : String) (part : List Char), (first :: rest)[k]? = some line ∧
      part <+: line.toList ∧
      (k = 0 → part = line.toList.take
        (if marker.length < limit then limit - marker.length else limit)) ∧
      ((if marker.length < limit then limit - marker.length else limit) ≤ first.length → k = 0) ∧
      (clipText marker ("\n".intercalate (first :: rest)) limit).toList.splitOn '\n' =
        ((first :: rest).take k).map String.toList ++
          part :: if marker.length < limit then [mark] else [] := by
  obtain ⟨k, chars, part, hchars, hpart, hzero, hfirst, htake⟩ := take_intercalate '\n' first.toList
    (rest.map String.toList) (if marker.length < limit then limit - marker.length else limit)
  rw [← List.map_cons, List.getElem?_map, Option.map_eq_some_iff] at hchars
  obtain ⟨line, hline, rfl⟩ := hchars
  rw [← List.map_cons, ← List.map_take] at htake
  have hjoined : ("\n".intercalate (first :: rest)).toList =
      ['\n'].intercalate ((first :: rest).map String.toList) := String.toList_intercalate
  -- no part of the text has an end of line within
  have hparts : ∀ piece ∈ ((first :: rest).take k).map String.toList ++ [part],
      '\n' ∉ piece := by
    intro piece hpiece
    rcases List.mem_append.mp hpiece with h | h
    · obtain ⟨other, hother, rfl⟩ := List.mem_map.mp h
      exact hlines other (List.mem_of_mem_take hother)
    · rw [List.mem_singleton] at h
      intro hmem
      exact hlines line (List.mem_of_getElem? hline) (hpart.subset (h ▸ hmem))
  rw [String.length_toList] at hfirst
  refine ⟨k, line, part, hline, hpart, hzero, hfirst, ?_⟩
  by_cases hroom : marker.length < limit
  · have hclip : (clipText marker ("\n".intercalate (first :: rest)) limit).toList =
        ['\n'].intercalate ((((first :: rest).take k).map String.toList ++ [part]) ++ [mark]) := by
      rw [if_pos hroom] at htake
      have hmarked := @intercalate_append _ '\n'
        (((first :: rest).take k).map String.toList ++ [part]) [mark] (by simp) (by simp)
      rw [clipText, if_neg (by omega), if_neg (by omega), if_neg (by omega), String.toList_append,
        firstChars, String.toList_ofList, hjoined, htake, hmarker, hmarked,
        List.intercalate_singleton]
    have hall : ∀ piece ∈ (((first :: rest).take k).map String.toList ++ [part]) ++ [mark],
        '\n' ∉ piece := by
      intro piece hpiece
      rcases List.mem_append.mp hpiece with h | h
      · exact hparts piece h
      · rw [List.mem_singleton] at h
        exact h ▸ hmark
    rw [hclip, if_pos hroom, List.splitOn_intercalate _ hall (by simp), List.append_assoc,
      List.singleton_append]
  · rw [if_neg hroom] at htake
    have hclip : (clipText marker ("\n".intercalate (first :: rest)) limit).toList =
        ['\n'].intercalate (((first :: rest).take k).map String.toList ++ [part]) := by
      by_cases hzero : limit = 0
      · rw [clipText, if_pos hzero, ← htake, hzero, List.take_zero, String.toList_empty]
      · rw [clipText, if_neg hzero, if_neg (by omega), if_pos (by omega), firstChars,
          String.toList_ofList, hjoined, htake]
    rw [hclip, if_neg hroom, List.splitOn_intercalate _ hparts (by simp)]

end Lines

end Imece.Lib
