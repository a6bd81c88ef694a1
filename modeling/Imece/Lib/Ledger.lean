import Mathlib.Data.List.Nodup

/-!
# Calls answered once

The calls made so far, those still waiting, and those answered. Each call is in exactly
one place, so none is answered twice and none is forgotten.
-/
namespace Imece.Lib

variable {α : Type}

/-- Every call is made once, and either waits or has been answered once. -/
structure Ledger (calls waiting answered : List α) : Prop where
  nodup : calls.Nodup
  perm : calls.Perm (waiting ++ answered)

namespace Ledger

variable {calls waiting answered : List α} {call : α}

lemma empty : Ledger ([] : List α) [] [] := ⟨List.nodup_nil, List.Perm.refl []⟩

lemma nodup_concat (h : Ledger calls waiting answered) (hcall : call ∉ calls) :
    (calls ++ [call]).Nodup := by
  rw [List.nodup_append]
  refine ⟨h.nodup, List.nodup_singleton call, ?_⟩
  rintro other hother found hfound rfl
  rw [List.mem_singleton.mp hfound] at hother
  exact hcall hother

/-- A new call waits. -/
theorem opened (h : Ledger calls waiting answered) (hcall : call ∉ calls) :
    Ledger (calls ++ [call]) (waiting ++ [call]) answered where
  nodup := h.nodup_concat hcall
  perm := by
    have hmoved : (calls ++ [call]).Perm ((waiting ++ answered) ++ [call]) :=
      h.perm.append_right [call]
    refine hmoved.trans ?_
    rw [List.append_assoc, List.append_assoc]
    exact (List.perm_append_comm).append_left waiting

/-- A new call is answered at once. -/
theorem answeredAtOnce (h : Ledger calls waiting answered) (hcall : call ∉ calls) :
    Ledger (calls ++ [call]) waiting (answered ++ [call]) where
  nodup := h.nodup_concat hcall
  perm := by
    have hmoved := h.perm.append_right [call]
    rwa [List.append_assoc] at hmoved

/-- Calls that waited are answered. -/
theorem settled {left right : List α} (h : Ledger calls waiting answered)
    (hwaiting : waiting.Perm (left ++ right)) : Ledger calls left (answered ++ right) where
  nodup := h.nodup
  perm := by
    refine (h.perm.trans (hwaiting.append_right answered)).trans ?_
    rw [List.append_assoc]
    exact (List.perm_append_comm).append_left left

theorem settledAll (h : Ledger calls waiting answered) :
    Ledger calls [] (answered ++ waiting) :=
  h.settled (List.Perm.refl _)

theorem answered_nodup (h : Ledger calls waiting answered) : answered.Nodup :=
  (List.nodup_append.mp (h.perm.nodup_iff.mp h.nodup)).2.1

theorem waiting_nodup (h : Ledger calls waiting answered) : waiting.Nodup :=
  (List.nodup_append.mp (h.perm.nodup_iff.mp h.nodup)).1

theorem mem_calls (h : Ledger calls waiting answered) :
    call ∈ calls ↔ call ∈ waiting ∨ call ∈ answered := by
  rw [h.perm.mem_iff, List.mem_append]

variable [DecidableEq α]

theorem answered_le_one (h : Ledger calls waiting answered) : answered.count call ≤ 1 :=
  List.nodup_iff_count_le_one.mp h.answered_nodup call

/-- A call that does not wait has been answered. -/
theorem answered_once (h : Ledger calls waiting answered) (hcall : call ∈ calls)
    (hwaiting : call ∉ waiting) : answered.count call = 1 := by
  have hanswered : call ∈ answered := (h.mem_calls.mp hcall).resolve_left hwaiting
  exact List.count_eq_one_of_mem h.answered_nodup hanswered

/-- One more answer, to a call that a list does not show as unanswered. -/
lemma filter_unanswered_concat {listed : List α} (h : call ∉ listed.filter (· ∉ answered)) :
    listed.filter (· ∉ answered ++ [call]) = listed.filter (· ∉ answered) := by
  refine List.filter_congr fun other hother => ?_
  by_cases hanswered : other ∈ answered
  · simp [hanswered]
  · have hne : other ≠ call := by
      rintro rfl
      exact h (List.mem_filter.mpr ⟨hother, by simpa using hanswered⟩)
    simp [hanswered, hne]

end Ledger

/-! ## Tables of what waits, under distinct keys -/

section Tables

variable {κ ω : Type} [DecidableEq κ] {table : List (κ × ω)} {key : κ} {item : ω}

lemma filter_key_of_not_mem (h : key ∉ table.map Prod.fst) :
    table.filter (fun entry => decide (entry.1 ≠ key)) = table := by
  rw [List.filter_eq_self]
  rintro ⟨other, found⟩ hmem
  have hne : other ≠ key := by
    rintro rfl
    exact h (List.mem_map_of_mem hmem)
  simpa using hne

/-- Taking a key out of a table leaves the rest. -/
theorem perm_pop (hkeys : (table.map Prod.fst).Nodup) (h : (key, item) ∈ table) :
    table.Perm ((key, item) :: table.filter fun entry => decide (entry.1 ≠ key)) := by
  induction table with
  | nil => cases h
  | cons first rest ih =>
      rw [List.map_cons, List.nodup_cons] at hkeys
      by_cases hfirst : first.1 = key
      · have hsame : first = (key, item) := by
          rcases List.mem_cons.mp h with hsame | hrest
          · exact hsame.symm
          · exact absurd (hfirst ▸ List.mem_map_of_mem hrest) hkeys.1
        have hkept := filter_key_of_not_mem (hfirst ▸ hkeys.1)
        rw [List.filter_cons, if_neg (by simp [hfirst]), hkept, hsame]
      · have hrest : (key, item) ∈ rest := by
          rcases List.mem_cons.mp h with hsame | hrest
          · rw [← hsame] at hfirst
            exact absurd rfl hfirst
          · exact hrest
        rw [List.filter_cons, if_pos (by simpa using hfirst)]
        exact ((ih hkeys.2 hrest).cons first).trans (List.Perm.swap _ _ _)

theorem find_key (hkeys : (table.map Prod.fst).Nodup) (h : (key, item) ∈ table) :
    table.find? (fun entry => decide (entry.1 = key)) = some (key, item) := by
  induction table with
  | nil => cases h
  | cons first rest ih =>
      rw [List.map_cons, List.nodup_cons] at hkeys
      rcases List.mem_cons.mp h with hsame | hrest
      · rw [← hsame]
        simp
      · have hne : first.1 ≠ key := by
          intro hsame
          exact hkeys.1 (hsame ▸ List.mem_map_of_mem hrest)
        rw [List.find?_cons_of_neg (by simpa using hne)]
        exact ih hkeys.2 hrest

lemma mem_of_find_key {entry : κ × ω}
    (h : table.find? (fun entry => decide (entry.1 = key)) = some entry) :
    (key, entry.2) ∈ table := by
  have hkey : entry.1 = key := by simpa using List.find?_some h
  rw [← hkey]
  exact List.mem_of_find?_eq_some h

lemma not_mem_of_find_key (h : table.find? (fun entry => decide (entry.1 = key)) = none) :
    key ∉ table.map Prod.fst := by
  intro hmem
  obtain ⟨entry, hentry, hkey⟩ := List.mem_map.mp hmem
  exact absurd hkey (by simpa using List.find?_eq_none.mp h entry hentry)

end Tables

end Imece.Lib
