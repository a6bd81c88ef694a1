import Imece.ContextRuntime.Engine

/-!
# What excerpts hold

A window around a symbol has the line on which the parser says it begins, and the text of a segment
is that of the lines it names, up to where it was cut.
-/
namespace Imece.ContextRuntime

open Lib Workspace

section Texts

/-- Lines without a newline of their own. -/
def Plain (lines : List (List Char)) : Prop := ∀ line ∈ lines, '\n' ∉ line

lemma Plain.tail {line : List Char} {lines : List (List Char)} (h : Plain (line :: lines)) :
    Plain lines := fun other hother => h other (List.mem_cons_of_mem _ hother)

lemma mem_text_linesFrom {start : ℕ} {front text : List Char} {line : TextLine} {c : Char}
    (h : line ∈ linesFrom start front text) (hc : c ∈ line.text) :
    c ∈ front ∨ c ∈ text ∧ isLineEnd c = false := by
  fun_induction linesFrom start front text with
  | case1 start => cases h
  | case2 start front hne =>
      rw [List.mem_singleton.mp h] at hc
      exact Or.inl hc
  | case3 start front rest ih =>
      rcases List.mem_cons.mp h with rfl | h
      · exact Or.inl hc
      · have := ih h
        simp only [List.not_mem_nil, false_or] at this
        exact Or.inr ⟨by simp [this.1], this.2⟩
  | case4 start front d rest hpair hend ih =>
      rcases List.mem_cons.mp h with rfl | h
      · exact Or.inl hc
      · have := ih h
        simp only [List.not_mem_nil, false_or] at this
        exact Or.inr ⟨by simp [this.1], this.2⟩
  | case5 start front d rest hpair hend ih =>
      rcases ih h with hfront | ⟨hrest, hplain⟩
      · rcases List.mem_append.mp hfront with hfront | hd
        · exact Or.inl hfront
        · rw [List.mem_singleton.mp hd]
          exact Or.inr ⟨List.mem_cons_self, by simpa using hend⟩
      · exact Or.inr ⟨List.mem_cons_of_mem _ hrest, hplain⟩

lemma mem_splitlines {text line : List Char} {c : Char} (h : line ∈ splitlines text)
    (hc : c ∈ line) : c ∈ text ∧ isLineEnd c = false := by
  obtain ⟨placed, hplaced, rfl⟩ := List.mem_map.mp h
  simpa using mem_text_linesFrom hplaced hc

theorem plain_splitlines (text : List Char) : Plain (splitlines text) := by
  intro line hline hmem
  have := (mem_splitlines hline hmem).2
  rw [isLineEnd_newline] at this
  cases this

lemma joinLines_cons {line next : List Char} {rest : List (List Char)} :
    joinLines (line :: next :: rest) = line ++ '\n' :: joinLines (next :: rest) := by
  simp [joinLines, List.intercalate, List.intersperse]

lemma count_joinLines {lines : List (List Char)} (h : Plain lines) :
    (joinLines lines).count '\n' = lines.length - 1 := by
  induction lines with
  | nil => rfl
  | cons line rest ih =>
      have hline := List.count_eq_zero.mpr (h line List.mem_cons_self)
      cases rest with
      | nil => simpa [joinLines] using hline
      | cons next rest =>
          rw [joinLines_cons, List.count_append, List.count_cons, hline, ih h.tail]
          simp

/-- Where joined lines are cut, the newlines left number the lines that were reached. -/
lemma take_joinLines {lines : List (List Char)} (h : Plain lines) (hne : lines ≠ []) (limit : ℕ) :
    ((joinLines lines).take limit).count '\n' < lines.length ∧
      (joinLines lines).take limit = (joinLines
        (lines.take (((joinLines lines).take limit).count '\n' + 1))).take limit := by
  induction lines generalizing limit with
  | nil => exact absurd rfl hne
  | cons line rest ih =>
      have hline := h line List.mem_cons_self
      have hcut : (line.take limit).count '\n' = 0 :=
        List.count_eq_zero.mpr fun hmem => hline (List.mem_of_mem_take hmem)
      cases rest with
      | nil => simp [joinLines, hcut]
      | cons next rest =>
          by_cases hinside : limit ≤ line.length
          · have htext : (joinLines (line :: next :: rest)).take limit = line.take limit := by
              rw [joinLines_cons, List.take_append_of_le_length hinside]
            rw [htext, hcut]
            simp [joinLines]
          · obtain ⟨more, rfl⟩ : ∃ more, limit = line.length + (more + 1) :=
              ⟨limit - line.length - 1, by omega⟩
            obtain ⟨hlt, heq⟩ := ih h.tail (List.cons_ne_nil _ _) more
            have htext : (joinLines (line :: next :: rest)).take (line.length + (more + 1)) =
                line ++ '\n' :: (joinLines (next :: rest)).take more := by
              rw [joinLines_cons, List.take_length_add_append, List.take_succ_cons]
            have hcount : ((joinLines (line :: next :: rest)).take
                (line.length + (more + 1))).count '\n' =
                  ((joinLines (next :: rest)).take more).count '\n' + 1 := by
              rw [htext, List.count_append, List.count_eq_zero.mpr hline, List.count_cons]
              simp
            rw [hcount]
            constructor
            · rw [List.length_cons]
              omega
            · have htake : (line :: next :: rest).take
                  (((joinLines (next :: rest)).take more).count '\n' + 1 + 1) =
                    line :: next :: rest.take (((joinLines (next :: rest)).take more).count '\n') :=
                rfl
              rw [htext, htake, joinLines_cons, List.take_length_add_append, List.take_succ_cons]
              rw [List.take_succ_cons] at heq
              rw [← heq]

lemma mem_joinLines {lines : List (List Char)} {c : Char} (h : c ∈ joinLines lines) :
    c = '\n' ∨ ∃ line ∈ lines, c ∈ line := by
  induction lines with
  | nil => simp [joinLines] at h
  | cons line rest ih =>
      cases rest with
      | nil =>
          right
          simpa [joinLines] using h
      | cons next rest =>
          rw [joinLines_cons, List.mem_append, List.mem_cons] at h
          rcases h with h | h | h
          · exact Or.inr ⟨line, List.mem_cons_self, h⟩
          · exact Or.inl h
          · rcases ih h with h | ⟨other, hother, h⟩
            · exact Or.inl h
            · exact Or.inr ⟨other, List.mem_cons_of_mem _ hother, h⟩

lemma length_windowLines {lines : List (List Char)} {first last : ℕ} (hfirst : 1 ≤ first)
    (hlast : first ≤ last) (hcount : last ≤ lines.length) :
    (windowLines lines first last).length = last - first + 1 := by
  rw [windowLines, List.length_drop, List.length_take]
  omega

lemma mem_windowLines {lines : List (List Char)} {first last : ℕ} {line : List Char}
    (h : line ∈ windowLines lines first last) : line ∈ lines :=
  List.mem_of_mem_take (List.mem_of_mem_drop h)

/-- A shorter window of the same beginning. -/
lemma take_windowLines {lines : List (List Char)} {first last count : ℕ} (hfirst : 1 ≤ first)
    (hcount : first + count ≤ last) :
    (windowLines lines first last).take (count + 1) = windowLines lines first (first + count) := by
  rw [windowLines, windowLines, List.take_drop, List.take_take]
  congr 2
  omega

end Texts

section Segment

/-- The text of a segment is that of the lines it names, up to where it was cut; it ends on the
last of them. -/
structure Excerpt (limit : ℕ) (lines : List (List Char)) (segment : ContextSegment) : Prop where
  range : 1 ≤ segment.startLine ∧ segment.startLine ≤ segment.endLine ∧
    segment.endLine ≤ lines.length
  text : segment.text =
    (joinLines (windowLines lines segment.startLine segment.endLine)).take limit
  ends : segment.text.count '\n' = segment.endLine - segment.startLine

/-- The text of a segment is exactly that of the lines it names. -/
def Whole (lines : List (List Char)) (segment : ContextSegment) : Prop :=
  segment.text = joinLines (windowLines lines segment.startLine segment.endLine)

variable {limit : ℕ} {entry : RankedFile} {lines : List (List Char)} {window : ℕ × ℕ}

/-- A window of a file with so many lines. -/
def Proper (count : ℕ) (window : ℕ × ℕ) : Prop :=
  1 ≤ window.1 ∧ window.1 ≤ window.2 ∧ window.2 ≤ count

lemma plain_windowLines (h : Plain lines) (first last : ℕ) :
    Plain (windowLines lines first last) := fun line hline => h line (mem_windowLines hline)

/-- A segment whose text was not cut. -/
lemma windowSegment_whole (h : (windowSegment limit entry lines window).2 = false) :
    Whole lines (windowSegment limit entry lines window).1 ∧
      (windowSegment limit entry lines window).1.startLine = window.1 ∧
      (windowSegment limit entry lines window).1.endLine = window.2 := by
  rw [windowSegment] at h ⊢
  by_cases hlong : limit < (joinLines (windowLines lines window.1 window.2)).length
  · simp [hlong] at h
  · simp [hlong, Whole]

theorem excerpt_windowSegment (hplain : Plain lines) (hwindow : Proper lines.length window) :
    Excerpt limit lines (windowSegment limit entry lines window).1 := by
  obtain ⟨hfirst, hlast, hcount⟩ := hwindow
  have hlength := length_windowLines hfirst hlast hcount
  have hwindow := plain_windowLines hplain window.1 window.2
  rw [windowSegment]
  by_cases hlong : limit < (joinLines (windowLines lines window.1 window.2)).length
  · have hne : windowLines lines window.1 window.2 ≠ [] := by
      intro hnil
      rw [hnil] at hlength
      simp at hlength
    obtain ⟨hlt, htext⟩ := take_joinLines hwindow hne limit
    have hend : window.1 + ((joinLines (windowLines lines window.1 window.2)).take limit).count
        '\n' ≤ window.2 := by omega
    simp only [if_pos hlong]
    refine ⟨⟨hfirst, by simp, Nat.le_trans hend hcount⟩, ?_, by simp⟩
    rw [take_windowLines hfirst hend] at htext
    exact htext
  · simp only [if_neg hlong]
    refine ⟨⟨hfirst, hlast, hcount⟩, ?_, ?_⟩
    · exact (List.take_of_length_le (Nat.le_of_not_lt hlong)).symm
    · rw [count_joinLines hwindow, hlength, Nat.add_sub_cancel]

lemma path_windowSegment : (windowSegment limit entry lines window).1.path = entry.file.path := by
  rw [windowSegment]
  by_cases hlong : limit < (joinLines (windowLines lines window.1 window.2)).length <;>
    simp [hlong]

/-- A segment of a file that passed its checks passes its own. -/
theorem check_windowSegment (hplain : Plain lines) (hwindow : Proper lines.length window)
    (hpath : repositoryPath entry.file.path "ContextSegment.path" = .ok ())
    (hsha : sha256 entry.file.contentSha256 "ContextSegment.content_sha256" = .ok ())
    (htexts : ∀ line ∈ lines, nul ∉ line) (hreasons : "" ∉ entry.reasons) :
    (windowSegment limit entry lines window).1.check =
      .ok (windowSegment limit entry lines window).1 := by
  have hexcerpt := @excerpt_windowSegment limit entry lines window hplain hwindow
  have htext : nul ∉ (windowSegment limit entry lines window).1.text := by
    rw [hexcerpt.text]
    intro hmem
    rcases mem_joinLines (List.mem_of_mem_take hmem) with hnul | ⟨line, hline, hnul⟩
    · exact absurd hnul (by decide)
    · exact htexts line (mem_windowLines hline) hnul
  refine ContextSegment.check_eq ?_ ?_ ⟨hexcerpt.range.1, hexcerpt.range.2.1⟩ htext ?_
  · rw [path_windowSegment]
    exact hpath
  · rw [windowSegment]
    by_cases hlong : limit < (joinLines (windowLines lines window.1 window.2)).length
    · simpa only [if_pos hlong] using hsha
    · simpa only [if_neg hlong] using hsha
  · rw [windowSegment]
    by_cases hlong : limit < (joinLines (windowLines lines window.1 window.2)).length
    · simpa only [if_pos hlong] using hreasons
    · simpa only [if_neg hlong] using hreasons

end Segment

section Windows

variable {lines : List (List Char)} {anchors lexical : List ℕ} {casefold : List Char → List Char}

/-- Lines of a file, by their numbers. -/
def Numbers (count : ℕ) (found : List ℕ) : Prop := ∀ line ∈ found, 1 ≤ line ∧ line ≤ count

lemma proper_windowAround {count line : ℕ} (h : 1 ≤ line ∧ line ≤ count) :
    Proper count (windowAround count line) ∧ Within line (windowAround count line) := by
  simp only [Proper, Within, windowAround]
  omega

private lemma proper_windows {found : List ℕ} (h : Numbers lines.length found) :
    ∀ window ∈ found.map (windowAround lines.length),
      1 ≤ window.1 ∧ window.1 ≤ window.2 ∧ window.2 ≤ lines.length := by
  intro window hmem
  obtain ⟨line, hline, rfl⟩ := List.mem_map.mp hmem
  exact (proper_windowAround (h line hline)).1

theorem proper_lineWindow {found : List ℕ} (h : Numbers lines.length found) :
    ∀ window ∈ lineWindow lines found, Proper lines.length window :=
  mergeIntervals_proper (proper_windows h)

/-- The windows that hold a line hold the lines around it, and there is one. -/
theorem around_lineWindow {found : List ℕ} (h : Numbers lines.length found) {line : ℕ}
    (hline : line ∈ found) :
    (∃ window ∈ lineWindow lines found, Within line window) ∧
      ∀ window ∈ lineWindow lines found, Within line window →
        Inside (windowAround lines.length line) window := by
  have hmem := List.mem_map_of_mem (f := windowAround lines.length) hline
  have hwithin := (proper_windowAround (h line hline)).2
  constructor
  · exact exists_within (proper_windows h) hmem hwithin
  · intro window hwindow hheld
    exact inside_of_within (proper_windows h) hmem hwithin hwindow hheld

lemma mem_prioritizedWindows {window : ℕ × ℕ}
    (h : window ∈ (prioritizedWindows lines anchors lexical).1) :
    window ∈ lineWindow lines (anchors ++ lexical) := by
  rw [prioritizedWindows] at h
  by_cases hfew : (lineWindow lines (anchors ++ lexical)).length ≤ maxWindowsPerFile
  · simpa only [if_pos hfew] using h
  · simp only [if_neg hfew, List.mem_insertionSort] at h
    exact (List.mem_insertionSort _).mp (List.mem_of_mem_take h)

lemma prioritizedWindows_all (h : (prioritizedWindows lines anchors lexical).2 = false) :
    (prioritizedWindows lines anchors lexical).1 = lineWindow lines (anchors ++ lexical) := by
  rw [prioritizedWindows] at h ⊢
  by_cases hfew : (lineWindow lines (anchors ++ lexical)).length ≤ maxWindowsPerFile
  · simp only [if_pos hfew]
  · simp [hfew] at h

lemma mem_keepBest {heap : List (ℕ × ℕ)} {candidate found : ℕ × ℕ}
    (h : found ∈ keepBest heap candidate) : found = candidate ∨ found ∈ heap := by
  unfold keepBest at h
  by_cases hroom : heap.length < maxMatchLinesPerFile
  · rw [if_pos hroom, List.mem_orderedInsert] at h
    exact h
  · rw [if_neg hroom] at h
    cases heap with
    | nil => cases h
    | cons least rest =>
        simp only at h
        by_cases hless : candidateLe candidate least = true
        · rw [if_pos hless] at h
          exact Or.inr h
        · rw [if_neg hless, List.mem_orderedInsert] at h
          exact h.imp_right (List.mem_cons_of_mem _)

lemma mem_foldl_keepBest {found : List (ℕ × ℕ)} {heap : List (ℕ × ℕ)} {best : ℕ × ℕ}
    (h : best ∈ found.foldl keepBest heap) : best ∈ heap ∨ best ∈ found := by
  induction found generalizing heap with
  | nil => exact Or.inl h
  | cons candidate rest ih =>
      rcases ih h with h | h
      · rcases mem_keepBest h with rfl | h
        · exact Or.inr List.mem_cons_self
        · exact Or.inl h
      · exact Or.inr (List.mem_cons_of_mem _ h)

lemma numbers_candidates {terms : List (List Char)} {best : ℕ × ℕ}
    (h : best ∈ candidates casefold terms lines) : 1 ≤ best.2 ∧ best.2 ≤ lines.length := by
  obtain ⟨⟨text, number⟩, hnumbered, rfl⟩ := List.mem_map.mp (List.mem_of_mem_filter h)
  have := List.mem_zipIdx hnumbered
  simp only
  omega

/-- The lines a query matches are lines of the file. -/
theorem numbers_bestLexicalLines (terms : List (List Char)) :
    Numbers lines.length (bestLexicalLines casefold lines terms).1 := by
  intro line hline
  simp only [bestLexicalLines] at hline
  generalize (if terms.filter (fun term => !lowSignalTerms.contains (String.ofList term) &&
    decide (2 ≤ term.length)) = [] then terms else terms.filter (fun term =>
      !lowSignalTerms.contains (String.ofList term) && decide (2 ≤ term.length))) = selected
    at hline
  by_cases hnone : selected = []
  · rw [if_pos hnone] at hline
    cases hline
  · rw [if_neg hnone, List.mem_insertionSort, List.mem_map] at hline
    obtain ⟨best, hbest, rfl⟩ := hline
    rcases mem_foldl_keepBest hbest with h | h
    · cases h
    · exact numbers_candidates h

theorem numbers_matchedLines (analysis : QueryAnalysis) :
    Numbers lines.length (matchedLines casefold analysis lines anchors).1 := by
  rw [matchedLines]
  by_cases hnone : (bestLexicalLines casefold lines analysis.terms).1 = [] ∧ anchors = [] ∧
      lines ≠ []
  · simp only [if_pos hnone]
    intro line hline
    have := List.length_pos_iff.mpr hnone.2.2
    rw [List.mem_singleton.mp hline]
    omega
  · simp only [if_neg hnone]
    exact numbers_bestLexicalLines analysis.terms

lemma anchoredLe_holds {a b : ℕ × ℕ} (h : anchoredLe anchors a b = true)
    (hb : ∃ anchor ∈ anchors, Within anchor b) : ∃ anchor ∈ anchors, Within anchor a := by
  have hheld : (anchors.any fun anchor => decide (Within anchor b)) = true := by
    simpa [List.any_eq_true] using hb
  simp only [anchoredLe, hheld, Bool.not_true, Bool.and_false, Bool.false_or, Bool.and_eq_true,
    beq_iff_eq] at h
  simpa [List.any_eq_true] using h.1

instance (anchors : List ℕ) : IsTrans (ℕ × ℕ) fun a b => anchoredLe anchors a b = true :=
  ⟨fun a b c => by
    simp only [anchoredLe]
    generalize (anchors.any fun anchor => decide (Within anchor a)) = x
    generalize (anchors.any fun anchor => decide (Within anchor b)) = y
    generalize (anchors.any fun anchor => decide (Within anchor c)) = z
    cases x <;> cases y <;> cases z <;> simp <;> omega⟩

instance (anchors : List ℕ) : Std.Total fun a b : ℕ × ℕ => anchoredLe anchors a b = true :=
  ⟨fun a b => by
    simp only [anchoredLe]
    generalize (anchors.any fun anchor => decide (Within anchor a)) = x
    generalize (anchors.any fun anchor => decide (Within anchor b)) = y
    cases x <;> cases y <;> simp <;> omega⟩

/-- A window with an anchor is left out only for as many others with one as a file may have. -/
theorem anchored_first {window : ℕ × ℕ} (hmem : window ∈ lineWindow lines (anchors ++ lexical))
    (hanchor : ∃ anchor ∈ anchors, Within anchor window) :
    window ∈ (prioritizedWindows lines anchors lexical).1 ∨
      (prioritizedWindows lines anchors lexical).1.length = maxWindowsPerFile ∧
        ∀ other ∈ (prioritizedWindows lines anchors lexical).1,
          ∃ anchor ∈ anchors, Within anchor other := by
  rw [prioritizedWindows]
  by_cases hfew : (lineWindow lines (anchors ++ lexical)).length ≤ maxWindowsPerFile
  · simp only [if_pos hfew]
    exact Or.inl hmem
  · simp only [if_neg hfew, List.mem_insertionSort, List.length_insertionSort]
    have hsorted := List.pairwise_insertionSort (fun a b => anchoredLe anchors a b = true)
      (lineWindow lines (anchors ++ lexical))
    have hlength := List.length_insertionSort (fun a b => anchoredLe anchors a b = true)
      (lineWindow lines (anchors ++ lexical))
    have hwindow := (List.mem_insertionSort fun a b => anchoredLe anchors a b = true).mpr hmem
    generalize (lineWindow lines (anchors ++ lexical)).insertionSort
      (fun a b => anchoredLe anchors a b = true) = sorted at hsorted hlength hwindow ⊢
    rw [← List.take_append_drop maxWindowsPerFile sorted] at hsorted hwindow
    rcases List.mem_append.mp hwindow with hchosen | hleft
    · exact Or.inl hchosen
    · refine Or.inr ⟨?_, ?_⟩
      · rw [List.length_take]
        omega
      · intro other hother
        exact anchoredLe_holds ((List.pairwise_append.mp hsorted).2.2 other hother window hleft)
          hanchor

end Windows

section Covering

/-- The window has the `n`th of the parser's lines, with all the lines of the text that it is. -/
def Covers (content : List Char) (n : ℕ) (window : ℕ × ℕ) : Prop :=
  ∃ before line after, sourceLines content = before ++ line :: after ∧ before.length + 1 = n ∧
    splitlines content =
      before.flatMap splitlines ++ splitlines line ++ after.flatMap splitlines ∧
    window.1 ≤ (before.flatMap splitlines).length + 1 ∧
    (before.flatMap splitlines).length + (splitlines line).length ≤ window.2

/-- Three lines around a line leave room for three separators that the parser does not count. -/
theorem covers_of_inside {content : List Char} {n : ℕ} {window : ℕ × ℕ}
    (hn : 1 ≤ n ∧ n ≤ (sourceLines content).length)
    (hothers : otherEnds ((sourceLines content).take n).flatten ≤ 3)
    (hinside : Inside (windowAround (splitlines content).length n) window) :
    Covers content n window := by
  have hlt : n - 1 < (sourceLines content).length := by omega
  have hsplit := List.take_append_drop (n - 1) (sourceLines content)
  rw [List.drop_eq_getElem_cons hlt] at hsplit
  have hbefore : ((sourceLines content).take (n - 1)).length = n - 1 :=
    List.length_take_of_le (Nat.le_of_lt hlt)
  have htake : (sourceLines content).take n =
      (sourceLines content).take (n - 1) ++ [(sourceLines content)[n - 1]] := by
    rw [← List.take_succ_eq_append_getElem hlt]
    congr 1
    omega
  have hsource : ∀ line ∈ sourceLines content, SourceLine line := fun line hline =>
    sourceLine_of_mem_sourceLines hline
  generalize (sourceLines content).take (n - 1) = before at hsplit hbefore htake
  generalize (sourceLines content)[n - 1] = line at hsplit htake
  generalize (sourceLines content).drop (n - 1 + 1) = after at hsplit
  have hlines : splitlines content =
      before.flatMap splitlines ++ splitlines line ++ after.flatMap splitlines := by
    rw [splitlines_sourceLines, ← hsplit, List.flatMap_append, List.flatMap_cons,
      List.append_assoc]
  have hbound := length_flatMap_splitlines fun other hother =>
    hsource other (hsplit ▸ List.mem_append_left _ hother)
  have hline := (hsource line (hsplit ▸ List.mem_append_right _ List.mem_cons_self)).length_splitlines
  have hlength := congrArg List.length hlines
  rw [htake, List.flatten_append, otherEnds_append, List.flatten_singleton] at hothers
  simp only [List.length_append] at hlength
  simp only [Inside, windowAround] at hinside
  exact ⟨before, line, after, hsplit.symm, by omega, hlines, by omega, by omega⟩

/-- What the chosen windows of a text make of a line with an anchor. -/
structure Anchored (content : List Char) (anchors : List ℕ) (chosen : List (ℕ × ℕ)) (n : ℕ) :
    Prop where
  covers : ∀ window ∈ chosen, Within n window → Covers content n window
  held : (∃ window ∈ chosen, Within n window) ∨ chosen.length = maxWindowsPerFile ∧
    ∀ window ∈ chosen, ∃ anchor ∈ anchors, Within anchor window

section Files

variable {casefold : List Char → List Char} {analysis : QueryAnalysis} {index : RepositoryIndex}
  {path : String} {content : List Char} {n : ℕ}

lemma numbers_found
    (hanchors : Numbers (splitlines content).length (anchorsOf casefold analysis index path)) :
    Numbers (splitlines content).length (anchorsOf casefold analysis index path ++
      (matchedLines casefold analysis (splitlines content)
        (anchorsOf casefold analysis index path)).1) := by
  intro line hline
  rcases List.mem_append.mp hline with hline | hline
  · exact hanchors line hline
  · exact numbers_matchedLines analysis line hline

theorem anchored_fileWindows
    (hanchors : Numbers (splitlines content).length (anchorsOf casefold analysis index path))
    (hanchor : n ∈ anchorsOf casefold analysis index path)
    (hn : 1 ≤ n ∧ n ≤ (sourceLines content).length)
    (hothers : otherEnds ((sourceLines content).take n).flatten ≤ 3) :
    Anchored content (anchorsOf casefold analysis index path)
      (fileWindows casefold analysis index path (splitlines content)).1 n := by
  obtain ⟨⟨window, hwindow, hwithin⟩, hinside⟩ :=
    around_lineWindow (numbers_found hanchors) (List.mem_append_left _ hanchor)
  constructor
  · intro other hother hheld
    exact covers_of_inside hn hothers (hinside other (mem_prioritizedWindows hother) hheld)
  · rcases anchored_first hwindow ⟨n, hanchor, hwithin⟩ with hchosen | hfull
    · exact Or.inl ⟨window, hchosen, hwithin⟩
    · exact Or.inr hfull

/-- Where no window is left out, one holds the anchor. -/
lemma held_fileWindows
    (hanchors : Numbers (splitlines content).length (anchorsOf casefold analysis index path))
    (hanchor : n ∈ anchorsOf casefold analysis index path)
    (hall : (fileWindows casefold analysis index path (splitlines content)).2 = false) :
    ∃ window ∈ (fileWindows casefold analysis index path (splitlines content)).1,
      Within n window := by
  have hwindows := prioritizedWindows_all (Bool.or_eq_false_iff.mp hall).2
  obtain ⟨window, hwindow, hwithin⟩ :=
    (around_lineWindow (numbers_found hanchors) (List.mem_append_left _ hanchor)).1
  refine ⟨window, ?_, hwithin⟩
  rw [fileWindows, hwindows]
  exact hwindow

end Files

end Covering

end Imece.ContextRuntime
