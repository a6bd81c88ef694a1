import Imece.Lib.FileLines
import Imece.Lib.TextLines

/-!
# Unified diffs

A diff is made from the lines of two texts and is read again line by line, so that a line without
a newline at its end runs into the one after it.
-/
namespace Imece.Lib

/-- A line that a newline ends. -/
def ClosedLine (line : List Char) : Prop := ∃ body, line = body ++ ['\n'] ∧ '\n' ∉ body

/-- What `unified_diff` yields and what a patch program makes of a diff and a text. They fit
together for names of one line and lines that are closed, as those of `readlines` are. -/
structure Difflib where
  unifiedDiff (fromfile tofile : List Char) (old new : List (List Char)) : List (List Char)
  patch (diff text : List Char) : Option (List Char)
  unchanged : ∀ fromfile tofile lines, unifiedDiff fromfile tofile lines lines = []
  patch_nil : ∀ text, patch [] text = some text
  describes : ∀ fromfile tofile old new, '\n' ∉ fromfile → '\n' ∉ tofile →
    (∀ line ∈ old, ClosedLine line) → (∀ line ∈ new, ClosedLine line) →
      patch (unifiedDiff fromfile tofile old new).flatten old.flatten = some new.flatten

section Closed

lemma ClosedLine.getLast? {line : List Char} (h : ClosedLine line) :
    line.getLast? = some '\n' := by
  obtain ⟨body, rfl, -⟩ := h
  exact List.getLast?_concat

lemma ClosedLine.count {line : List Char} (h : ClosedLine line) : line.count '\n' = 1 := by
  obtain ⟨body, rfl, hbody⟩ := h
  rw [List.count_append, List.count_eq_zero.mpr hbody, List.count_singleton_self]

lemma ClosedLine.fileLines {line : List Char} (h : ClosedLine line) : fileLines line = [line] := by
  obtain ⟨body, rfl, hbody⟩ := h
  rw [Lib.fileLines, fileLinesFrom_line hbody]
  rfl

lemma closedLine_cons {mark : Char} (hmark : mark ≠ '\n') (line : List Char) :
    ClosedLine (mark :: line) ↔ ClosedLine line := by
  constructor
  · rintro ⟨body, hline, hbody⟩
    cases body with
    | nil => exact absurd (List.cons.inj hline).1 hmark
    | cons c rest =>
        exact ⟨rest, (List.cons.inj hline).2, fun h => hbody (List.mem_cons_of_mem c h)⟩
  · rintro ⟨body, rfl, hbody⟩
    refine ⟨mark :: body, rfl, ?_⟩
    rw [List.mem_cons, not_or]
    exact ⟨hmark.symm, hbody⟩

/-- Closed lines that are joined come apart again. -/
lemma fileLines_flatten {lines : List (List Char)} (h : ∀ line ∈ lines, ClosedLine line) :
    fileLines lines.flatten = lines := by
  induction lines with
  | nil => rfl
  | cons line rest ih =>
      have hline := h line List.mem_cons_self
      rw [List.flatten_cons, fileLines_append (Or.inr hline.getLast?), hline.fileLines,
        ih fun other hother => h other (List.mem_cons_of_mem _ hother), List.singleton_append]

lemma ends_flatten {lines : List (List Char)} (h : ∀ line ∈ lines, ClosedLine line) :
    lines.flatten = [] ∨ lines.flatten.getLast? = some '\n' := by
  rcases List.eq_nil_or_concat lines with rfl | ⟨front, line, rfl⟩
  · exact Or.inl rfl
  · obtain ⟨body, rfl, -⟩ := h line (by simp)
    exact Or.inr (by simp)

/-- Lines whose newlines stand at their ends have at most one each, and one each if they are
closed. -/
lemma count_flatten_le {lines : List (List Char)}
    (h : ∀ line ∈ lines, '\n' ∉ line ∨ ClosedLine line) :
    lines.flatten.count '\n' ≤ lines.length ∧
      (lines.flatten.count '\n' = lines.length → ∀ line ∈ lines, ClosedLine line) := by
  induction lines with
  | nil => simp
  | cons line rest ih =>
      obtain ⟨hle, hclosed⟩ := ih fun other hother => h other (List.mem_cons_of_mem _ hother)
      rw [List.flatten_cons, List.count_append, List.length_cons]
      rcases h line List.mem_cons_self with hopen | hline
      · rw [List.count_eq_zero.mpr hopen]
        exact ⟨by omega, fun hcount => by omega⟩
      · rw [hline.count]
        refine ⟨by omega, fun hcount => ?_⟩
        exact List.forall_mem_cons.mpr ⟨hline, hclosed (by omega)⟩

end Closed

section Kept

lemma keptFrom_mem {front text line : List Char} (hfront : '\n' ∉ front)
    (h : line ∈ keptFrom front text) : '\n' ∉ line ∨ ClosedLine line := by
  fun_induction keptFrom front text with
  | case1 => simp at h
  | case2 front hne =>
      rw [List.mem_singleton.mp h]
      exact Or.inl hfront
  | case3 front rest ih =>
      rcases List.mem_cons.mp h with rfl | h
      · exact Or.inr ⟨front ++ ['\r'], by simp, by simpa using hfront⟩
      · exact ih List.not_mem_nil h
  | case4 front c rest hpair hend ih =>
      rcases List.mem_cons.mp h with rfl | h
      · by_cases hc : c = '\n'
        · exact Or.inr ⟨front, by rw [hc], hfront⟩
        · refine Or.inl ?_
          rw [List.mem_append, List.mem_singleton, not_or]
          exact ⟨hfront, fun hmem => hc hmem.symm⟩
      · exact ih List.not_mem_nil h
  | case5 front c rest hpair hend ih =>
      refine ih ?_ h
      rw [List.mem_append, List.mem_singleton, not_or]
      refine ⟨hfront, ?_⟩
      rintro rfl
      exact hend isLineEnd_newline

/-- A text whose every line ends with a newline: it has no other separator. -/
def WholeLines (text : List Char) : Prop := AtLineStart text ∧ loneEnds text = 0

instance (text : List Char) : Decidable (WholeLines text) :=
  inferInstanceAs (Decidable ((text = [] ∨ text.getLast? = some '\n') ∧ loneEnds text = 0))

lemma atLineStart_cons (c : Char) (rest : List Char) :
    AtLineStart (c :: rest) ↔ (rest = [] → c = '\n') ∧ AtLineStart rest := by
  cases rest with
  | nil => simp [AtLineStart]
  | cons d more => simp [AtLineStart]

lemma wholeLines_cons {c : Char} {rest : List Char}
    (hpair : ∀ more, c = '\r' → rest = '\n' :: more → False) :
    WholeLines (c :: rest) ↔
      (rest = [] → c = '\n') ∧ (isLineEnd c = true → c = '\n') ∧ WholeLines rest := by
  rw [WholeLines, WholeLines, atLineStart_cons, loneEnds]
  · by_cases hend : isLineEnd c = true
    · by_cases hc : c = '\n'
      · simp [hc]
      · simp [hend, hc]
    · simp [hend]
      tauto
  · exact hpair

/-- The lines are closed, where none was open or there is a text, exactly if the text is of whole
lines. -/
lemma keptFrom_closed {front text : List Char} (hfront : '\n' ∉ front) :
    (∀ line ∈ keptFrom front text, ClosedLine line) ↔
      (text = [] → front = []) ∧ WholeLines text := by
  fun_induction keptFrom front text with
  | case1 => simp [WholeLines, AtLineStart, loneEnds]
  | case2 front hne =>
      have hopen : ¬ ClosedLine front := fun hline =>
        hfront (List.mem_of_getLast? hline.getLast?)
      simp [hne, hopen]
  | case3 front rest ih =>
      have hline : ClosedLine (front ++ ['\r', '\n']) :=
        ⟨front ++ ['\r'], by simp, by simpa using hfront⟩
      have hwhole : WholeLines ('\r' :: '\n' :: rest) ↔ WholeLines rest := by
        rw [WholeLines, WholeLines, atLineStart_cons, atLineStart_cons, loneEnds]
        simp
      rw [List.forall_mem_cons, ih List.not_mem_nil, hwhole]
      simp [hline]
  | case4 front c rest hpair hend ih =>
      rw [List.forall_mem_cons, ih List.not_mem_nil, wholeLines_cons hpair]
      by_cases hc : c = '\n'
      · subst hc
        have hline : ClosedLine (front ++ ['\n']) := ⟨front, rfl, hfront⟩
        simp [hline]
      · have hopen : ¬ ClosedLine (front ++ [c]) := by
          intro hline
          have hlast := hline.getLast?
          rw [List.getLast?_concat, Option.some.injEq] at hlast
          exact hc hlast
        simp [hopen, hend, hc]
  | case5 front c rest hpair hend ih =>
      have hc : c ≠ '\n' := by
        rintro rfl
        exact hend isLineEnd_newline
      have hnext : '\n' ∉ front ++ [c] := by
        rw [List.mem_append, List.mem_singleton, not_or]
        exact ⟨hfront, hc.symm⟩
      rw [ih hnext, wholeLines_cons hpair]
      simp [hend, hc]

lemma keptLines_closed (text : List Char) :
    (∀ line ∈ keptLines text, ClosedLine line) ↔ WholeLines text :=
  (keptFrom_closed List.not_mem_nil).trans (and_iff_right fun _ => rfl)

end Kept

namespace OneHunk

/-- `_format_range_unified` of a range that begins with the first line. -/
def range (length : ℕ) : List Char :=
  if length = 1 then ['1']
  else (if length = 0 then '0' else '1') :: ',' :: Nat.toDigits 10 length

/-- `@@ -1,2 +1,3 @@` -/
def hunkLine (removed added : ℕ) : List Char :=
  ['@', '@', ' ', '-'] ++ (range removed ++
    ' ' :: (['+'] ++ (range added ++ ' ' :: ['@', '@', '\n'])))

def header (fromfile tofile : List Char) : List (List Char) :=
  [['-', '-', '-', ' '] ++ fromfile ++ ['\n'], ['+', '+', '+', ' '] ++ tofile ++ ['\n']]

/-- The lines of a hunk that takes all old lines away and adds all new ones. -/
def body (old new : List (List Char)) : List (List Char) :=
  old.map (List.cons '-') ++ new.map (List.cons '+')

/-- A diff of one hunk, if the texts differ. -/
def unifiedDiff (fromfile tofile : List Char) (old new : List (List Char)) : List (List Char) :=
  if old = new then []
  else header fromfile tofile ++ hunkLine old.length new.length :: body old new

def marked (mark : Char) (lines : List (List Char)) : List (List Char) :=
  lines.filterMap fun line => if line.head? = some mark then some line.tail else none

/-- Reads a diff of one hunk strictly: the text has to be that of the lines taken away, and all
lines of the diff have to be closed. -/
def patch (diff text : List Char) : Option (List Char) :=
  if diff = [] then some text
  else
    let lines := fileLines diff
    let old := marked '-' (lines.drop 3)
    let new := marked '+' (lines.drop 3)
    if diff.getLast? = some '\n' ∧ lines[2]? = some (hunkLine old.length new.length) ∧
        lines.drop 3 = body old new ∧ old.flatten = text then some new.flatten
    else none

lemma not_mem_range {c : Char} (hdigit : c.isDigit = false) (hcomma : c ≠ ',') (length : ℕ) :
    c ∉ range length := by
  have hdigits : c ∉ Nat.toDigits 10 length := by
    intro hmem
    rw [Nat.isDigit_of_mem_toDigits (by omega) (by omega) hmem] at hdigit
    cases hdigit
  have hzero : c ≠ '0' := fun h => absurd (h ▸ hdigit) (by decide)
  have hone : c ≠ '1' := fun h => absurd (h ▸ hdigit) (by decide)
  rw [range]
  split_ifs <;> simp [hdigits, hzero, hone, hcomma]

lemma range_injective : Function.Injective range := by
  intro m n h
  have hdigits : Nat.toDigits 10 m = Nat.toDigits 10 n := by
    by_cases hm : m = 1 <;> by_cases hn : n = 1
    · rw [hm, hn]
    · rw [range, range, if_pos hm, if_neg hn] at h
      cases (List.cons.inj h).2
    · rw [range, range, if_neg hm, if_pos hn] at h
      cases (List.cons.inj h).2
    · rw [range, range, if_neg hm, if_neg hn] at h
      exact (List.cons.inj (List.cons.inj h).2).2
  rw [← @Nat.ofDigitChars_ten_toDigits m, hdigits, Nat.ofDigitChars_ten_toDigits]

lemma split_at_space {front front' after after' : List Char} (hfront : ' ' ∉ front)
    (hfront' : ' ' ∉ front') (h : front ++ ' ' :: after = front' ++ ' ' :: after') :
    front = front' ∧ after = after' := by
  induction front generalizing front' with
  | nil =>
      cases front' with
      | nil => exact ⟨rfl, (List.cons.inj h).2⟩
      | cons c rest =>
          rw [← (List.cons.inj h).1] at hfront'
          exact absurd List.mem_cons_self hfront'
  | cons c rest ih =>
      cases front' with
      | nil =>
          rw [(List.cons.inj h).1] at hfront
          exact absurd List.mem_cons_self hfront
      | cons c' rest' =>
          rw [List.mem_cons, not_or] at hfront hfront'
          obtain ⟨hrest, hafter⟩ := ih hfront.2 hfront'.2 (List.cons.inj h).2
          exact ⟨by rw [(List.cons.inj h).1, hrest], hafter⟩

lemma hunkLine_inj {removed added removed' added' : ℕ}
    (h : hunkLine removed added = hunkLine removed' added') :
    removed = removed' ∧ added = added' := by
  have hspace := @not_mem_range ' ' (by decide) (by decide)
  obtain ⟨hremoved, hrest⟩ := split_at_space (hspace _) (hspace _) (List.append_cancel_left h)
  obtain ⟨hadded, -⟩ := split_at_space (hspace _) (hspace _) (List.append_cancel_left hrest)
  exact ⟨range_injective hremoved, range_injective hadded⟩

lemma hunkLine_closed (removed added : ℕ) : ClosedLine (hunkLine removed added) := by
  have hrange := @not_mem_range '\n' (by decide) (by decide)
  refine ⟨['@', '@', ' ', '-'] ++ (range removed ++ ' ' :: (['+'] ++ (range added ++
    [' ', '@', '@']))), by simp [hunkLine], ?_⟩
  simp [hrange]

lemma marked_removed (old new : List (List Char)) : marked '-' (body old new) = old := by
  simp [marked, body, List.filterMap_append, List.filterMap_map, Function.comp_def]

lemma marked_added (old new : List (List Char)) : marked '+' (body old new) = new := by
  simp [marked, body, List.filterMap_append, List.filterMap_map, Function.comp_def]

lemma header_closed {fromfile tofile : List Char} (hfrom : '\n' ∉ fromfile) (hto : '\n' ∉ tofile) :
    ∀ line ∈ header fromfile tofile, ClosedLine line := by
  refine List.forall_mem_cons.mpr ⟨⟨_, rfl, ?_⟩, List.forall_mem_singleton.mpr ⟨_, rfl, ?_⟩⟩
  · simpa using hfrom
  · simpa using hto

lemma body_closed {old new : List (List Char)} :
    (∀ line ∈ body old new, ClosedLine line) ↔
      (∀ line ∈ old, ClosedLine line) ∧ ∀ line ∈ new, ClosedLine line := by
  have hminus := closedLine_cons (show '-' ≠ '\n' by decide)
  have hplus := closedLine_cons (show '+' ≠ '\n' by decide)
  simp only [body, List.forall_mem_append, List.forall_mem_map, hminus, hplus]

lemma unifiedDiff_flatten_ne_nil {old new : List (List Char)} (hne : old ≠ new)
    (fromfile tofile : List Char) : (unifiedDiff fromfile tofile old new).flatten ≠ [] := by
  rw [unifiedDiff, if_neg hne]
  simp [header]

lemma header_ends (fromfile tofile : List Char) :
    (header fromfile tofile).flatten.getLast? = some '\n' :=
  List.getLast?_eq_some_iff.mpr
    ⟨['-', '-', '-', ' '] ++ fromfile ++ '\n' :: (['+', '+', '+', ' '] ++ tofile), by simp [header]⟩

/-- The header is two lines, and one more for each newline of a name. -/
lemma fileLines_header (fromfile tofile : List Char) :
    (fileLines (header fromfile tofile).flatten).length =
      2 + (fromfile.count '\n' + tofile.count '\n') := by
  rw [length_fileLines (Or.inr (header_ends _ _))]
  simp [header, List.count_append]
  omega

/-- The hunk line is a line of its own. -/
lemma fileLines_unifiedDiff {old new : List (List Char)} (hne : old ≠ new)
    (fromfile tofile : List Char) :
    fileLines (unifiedDiff fromfile tofile old new).flatten =
      fileLines (header fromfile tofile).flatten ++
        hunkLine old.length new.length :: fileLines (body old new).flatten := by
  have hhunk := hunkLine_closed old.length new.length
  rw [unifiedDiff, if_neg hne, List.flatten_append, List.flatten_cons,
    fileLines_append (Or.inr (header_ends _ _)), fileLines_append (Or.inr hhunk.getLast?),
    hhunk.fileLines, List.singleton_append]

lemma head_of_mem_body {line : List Char} {old new : List (List Char)} (h : line ∈ body old new) :
    line.head? = some '-' ∨ line.head? = some '+' := by
  rcases List.mem_append.mp h with h | h
  · obtain ⟨rest, -, rfl⟩ := List.mem_map.mp h
    exact Or.inl rfl
  · obtain ⟨rest, -, rfl⟩ := List.mem_map.mp h
    exact Or.inr rfl

lemma body_open {old new : List (List Char)} (hold : ∀ line ∈ old, '\n' ∉ line ∨ ClosedLine line)
    (hnew : ∀ line ∈ new, '\n' ∉ line ∨ ClosedLine line) :
    ∀ line ∈ body old new, '\n' ∉ line ∨ ClosedLine line := by
  have hminus := closedLine_cons (show '-' ≠ '\n' by decide)
  have hplus := closedLine_cons (show '+' ≠ '\n' by decide)
  simpa [body, or_imp, forall_and, hminus, hplus] using And.intro hold hnew

/-- Closed lines are read back. -/
lemma patch_closed {fromfile tofile : List Char} {old new : List (List Char)} (hne : old ≠ new)
    (hfrom : '\n' ∉ fromfile) (hto : '\n' ∉ tofile) (hold : ∀ line ∈ old, ClosedLine line)
    (hnew : ∀ line ∈ new, ClosedLine line) :
    patch (unifiedDiff fromfile tofile old new).flatten old.flatten = some new.flatten := by
  have hclosed : ∀ line ∈ unifiedDiff fromfile tofile old new, ClosedLine line := by
    rw [unifiedDiff, if_neg hne]
    exact List.forall_mem_append.mpr ⟨header_closed hfrom hto,
      List.forall_mem_cons.mpr ⟨hunkLine_closed _ _, body_closed.mpr ⟨hold, hnew⟩⟩⟩
  have hlines := fileLines_flatten hclosed
  have hthird : (unifiedDiff fromfile tofile old new)[2]? =
      some (hunkLine old.length new.length) := by
    rw [unifiedDiff, if_neg hne]
    rfl
  have hbody : (unifiedDiff fromfile tofile old new).drop 3 = body old new := by
    rw [unifiedDiff, if_neg hne]
    rfl
  have hnil := unifiedDiff_flatten_ne_nil hne fromfile tofile
  have hends := (ends_flatten hclosed).resolve_left hnil
  rw [patch, if_neg hnil]
  simp only [hlines, hthird, hbody, marked_removed, marked_added, hends, and_self, if_true]

/-- What is read back was made of closed lines. -/
lemma of_patch {fromfile tofile text result : List Char} {old new : List (List Char)}
    (hne : old ≠ new) (hold : ∀ line ∈ old, '\n' ∉ line ∨ ClosedLine line)
    (hnew : ∀ line ∈ new, '\n' ∉ line ∨ ClosedLine line)
    (h : patch (unifiedDiff fromfile tofile old new).flatten text = some result) :
    '\n' ∉ fromfile ∧ '\n' ∉ tofile ∧ (∀ line ∈ old, ClosedLine line) ∧
      (∀ line ∈ new, ClosedLine line) ∧ old.flatten = text ∧ new.flatten = result := by
  rw [patch, if_neg (unifiedDiff_flatten_ne_nil hne fromfile tofile)] at h
  have hlines := fileLines_unifiedDiff hne fromfile tofile
  have hheader := fileLines_header fromfile tofile
  simp only [hlines] at h
  split at h
  · rename_i hread
    obtain ⟨hends, hthird, hbody, htext⟩ := hread
    -- a newline of a name would leave the hunk line among the lines of the hunk
    have hnames : fromfile.count '\n' + tofile.count '\n' = 0 := by
      by_contra hcount
      have hmem : hunkLine old.length new.length ∈
          (fileLines (header fromfile tofile).flatten ++
            hunkLine old.length new.length :: fileLines (body old new).flatten).drop 3 := by
        rw [List.drop_append_of_le_length (by omega)]
        simp
      rw [hbody] at hmem
      rcases head_of_mem_body hmem with hhead | hhead <;> simp [hunkLine] at hhead
    have hlength : (fileLines (header fromfile tofile).flatten).length = 2 := by omega
    have hrest : (fileLines (header fromfile tofile).flatten ++
        hunkLine old.length new.length :: fileLines (body old new).flatten).drop 3 =
          fileLines (body old new).flatten := by
      simp [List.drop_append, hlength]
    rw [List.getElem?_append_right (by omega), hlength, Nat.sub_self, List.getElem?_cons_zero,
      Option.some.injEq, hrest] at hthird
    rw [hrest] at hbody htext h
    obtain ⟨hremoved, hadded⟩ := hunkLine_inj hthird
    have hends' : (body old new).flatten = [] ∨ (body old new).flatten.getLast? = some '\n' := by
      by_cases hnil : (body old new).flatten = []
      · exact Or.inl hnil
      · rw [unifiedDiff, if_neg hne, List.flatten_append, List.flatten_cons,
          List.getLast?_append_of_ne_nil _ (by simp [hunkLine]),
          List.getLast?_append_of_ne_nil _ hnil] at hends
        exact Or.inr hends
    have hcount : (body old new).flatten.count '\n' = (body old new).length := by
      calc (body old new).flatten.count '\n' = (fileLines (body old new).flatten).length :=
            (length_fileLines hends').symm
        _ = _ := congrArg List.length hbody
        _ = (body old new).length := by simp [body, hremoved, hadded]
    have hclosed := (count_flatten_le (body_open hold hnew)).2 hcount
    obtain ⟨hold', hnew'⟩ := body_closed.mp hclosed
    rw [fileLines_flatten hclosed] at htext h
    rw [marked_removed] at htext
    rw [marked_added] at h
    have hzero := Nat.add_eq_zero_iff.mp hnames
    exact ⟨List.count_eq_zero.mp hzero.1, List.count_eq_zero.mp hzero.2, hold', hnew', htext,
      Option.some.inj h⟩
  · cases h

end OneHunk

/-- Diffs of one hunk, read strictly. -/
def oneHunk : Difflib where
  unifiedDiff := OneHunk.unifiedDiff
  patch := OneHunk.patch
  unchanged _ _ _ := if_pos rfl
  patch_nil _ := if_pos rfl
  describes fromfile tofile old new hfrom hto hold hnew := by
    by_cases hne : old = new
    · rw [OneHunk.unifiedDiff, if_pos hne, hne]
      rfl
    · exact OneHunk.patch_closed hne hfrom hto hold hnew

end Imece.Lib
