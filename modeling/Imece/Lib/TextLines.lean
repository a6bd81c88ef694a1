import Imece.Lib.PathTree

/-!
# Lines of a text

`str.splitlines` ends a line at ten characters and at `\r\n`; a count of newlines numbers the
lines only as long as no other separator stands alone.
-/
namespace Imece.Lib

/-- The characters that end a line. -/
def isLineEnd (c : Char) : Bool :=
  [0x0a, 0x0b, 0x0c, 0x0d, 0x1c, 0x1d, 0x1e, 0x85, 0x2028, 0x2029].contains c.toNat

/-- A line, its place in the text, and the length of the separator that ends it. -/
structure TextLine where
  start : ℕ
  text : List Char
  ended : ℕ
deriving DecidableEq, Repr

@[grind =] def TextLine.stop (line : TextLine) : ℕ := line.start + line.text.length + line.ended

/-- The lines of a text, where the line that is open began at `start` with `front`. -/
@[grind =] def linesFrom (start : ℕ) (front : List Char) : List Char → List TextLine
  | [] => if front = [] then [] else [⟨start, front, 0⟩]
  | '\r' :: '\n' :: rest =>
      ⟨start, front, 2⟩ :: linesFrom (start + front.length + 2) [] rest
  | c :: rest =>
      if isLineEnd c then ⟨start, front, 1⟩ :: linesFrom (start + front.length + 1) [] rest
      else linesFrom start (front ++ [c]) rest

/-- `text.splitlines()`, each line with its place. -/
def textLines (text : List Char) : List TextLine := linesFrom 0 [] text

/-- The lines of a text with what ends them, where the line that is open began with `front`. -/
def keptFrom (front : List Char) : List Char → List (List Char)
  | [] => if front = [] then [] else [front]
  | '\r' :: '\n' :: rest => (front ++ ['\r', '\n']) :: keptFrom [] rest
  | c :: rest =>
      if isLineEnd c then (front ++ [c]) :: keptFrom [] rest else keptFrom (front ++ [c]) rest

/-- `text.splitlines(keepends=True)` -/
def keptLines (text : List Char) : List (List Char) := keptFrom [] text

lemma flatten_keptFrom (front text : List Char) : (keptFrom front text).flatten = front ++ text := by
  fun_induction keptFrom front text with
  | case1 => rfl
  | case2 front hfront => simp
  | case3 front rest ih => simp [ih]
  | case4 front c rest _ hend ih => simp [ih]
  | case5 front c rest _ hend ih => simp [ih]

theorem flatten_keptLines (text : List Char) : (keptLines text).flatten = text := by
  rw [keptLines, flatten_keptFrom, List.nil_append]

/-- How many separators other than `\n` and `\r\n` the text has. -/
@[grind =] def loneEnds : List Char → ℕ
  | [] => 0
  | '\r' :: '\n' :: rest => loneEnds rest
  | c :: rest => (if isLineEnd c && c != '\n' then 1 else 0) + loneEnds rest

/-- A text after which the next character begins a line. -/
def AtLineStart (text : List Char) : Prop := text = [] ∨ text.getLast? = some '\n'

lemma isLineEnd_newline : isLineEnd '\n' = true := by decide

lemma AtLineStart.tail {c : Char} {rest : List Char} (h : AtLineStart (c :: rest))
    (hrest : rest ≠ []) : AtLineStart rest := by
  rcases h with h | h
  · cases h
  · rw [List.getLast?_cons_of_ne_nil hrest] at h
    exact Or.inr h

lemma AtLineStart.single {c : Char} (h : AtLineStart [c]) : c = '\n' := by
  rcases h with h | h
  · cases h
  · simpa using h

/-- Every line lies where it says. -/
lemma linesFrom_bounds {start : ℕ} {front text : List Char} {line : TextLine}
    (h : line ∈ linesFrom start front text) :
    start ≤ line.start ∧ line.stop ≤ start + front.length + text.length := by
  fun_induction linesFrom start front text with
  | case1 start => simp at h
  | case2 start front hfront =>
      rw [List.mem_singleton.mp h]
      simp [TextLine.stop]
  | case3 start front rest ih =>
      rcases List.mem_cons.mp h with rfl | h
      · simp only [TextLine.stop, List.length_cons]
        omega
      · have := ih h
        simp only [List.length_nil, List.length_cons] at this ⊢
        omega
  | case4 start front c rest _ hend ih =>
      rcases List.mem_cons.mp h with rfl | h
      · simp only [TextLine.stop, List.length_cons]
        omega
      · have := ih h
        simp only [List.length_nil, List.length_cons] at this ⊢
        omega
  | case5 start front c rest _ hend ih =>
      have := ih h
      simp only [List.length_append, List.length_cons, List.length_nil] at this ⊢
      omega

/-- No pair of separators straddles a line start. -/
lemma no_pair_append {c : Char} {rest after : List Char} (h : AtLineStart (c :: rest))
    (hpair : ∀ more, c = '\r' → rest = '\n' :: more → False) :
    ∀ more, c = '\r' → rest ++ after = '\n' :: more → False := by
  intro more hc hmore
  cases rest with
  | nil =>
      have := h.single
      rw [hc] at this
      exact absurd this (by decide)
  | cons d rest =>
      rw [List.cons_append, List.cons.injEq] at hmore
      exact hpair rest hc (by rw [hmore.1])

lemma AtLineStart.rest {c : Char} {rest : List Char} (h : AtLineStart (c :: rest)) :
    AtLineStart rest := by
  by_cases hrest : rest = []
  · exact Or.inl hrest
  · exact h.tail hrest

/-- Past a newline the lines of what follows do not depend on what came before. -/
lemma linesFrom_append {start : ℕ} {front before : List Char} (h : AtLineStart before)
    (hfront : before = [] → front = []) (after : List Char) :
    linesFrom start front (before ++ after) = linesFrom start front before ++
      linesFrom (start + front.length + before.length) [] after := by
  fun_induction linesFrom start front before with
  | case1 start => simp
  | case2 start front hne => exact absurd (hfront rfl) hne
  | case3 start front rest ih =>
      have hnext := ih h.rest.rest (fun _ => rfl)
      simp only [List.cons_append, linesFrom, hnext, List.length_nil, List.length_cons]
      congr 3
      omega
  | case4 start front c rest hpair hend ih =>
      have hnext := ih h.rest (fun _ => rfl)
      rw [List.cons_append, linesFrom, if_pos hend, hnext]
      · simp only [List.cons_append, List.length_nil, List.length_cons]
        congr 3
        omega
      · exact no_pair_append h hpair
  | case5 start front c rest hpair hend ih =>
      have hrest : rest ≠ [] := by
        rintro rfl
        rw [h.single] at hend
        exact hend isLineEnd_newline
      have hnext := ih h.rest (fun hnil => absurd hnil hrest)
      rw [List.cons_append, linesFrom, if_neg hend, hnext]
      · simp only [List.length_append, List.length_cons, List.length_nil]
        congr 2
        omega
      · exact no_pair_append h hpair

/-- Up to a line start, the newlines and the separators that stand alone number the lines. -/
lemma length_linesFrom {start : ℕ} {front text : List Char} (h : AtLineStart text)
    (hfront : text = [] → front = []) :
    (linesFrom start front text).length = text.count '\n' + loneEnds text := by
  fun_induction linesFrom start front text with
  | case1 start => simp [loneEnds]
  | case2 start front hne => exact absurd (hfront rfl) hne
  | case3 start front rest ih =>
      rw [List.length_cons, ih h.rest.rest (fun _ => rfl), loneEnds]
      simp
      omega
  | case4 start front c rest hpair hend ih =>
      rw [List.length_cons, ih h.rest (fun _ => rfl), loneEnds, List.count_cons]
      · by_cases hc : c = '\n'
        · subst hc
          simp
          omega
        · have hne : (c != '\n') = true := by simpa using hc
          simp [hend, hc, hne]
          omega
      · exact hpair
  | case5 start front c rest hpair hend ih =>
      have hrest : rest ≠ [] := by
        rintro rfl
        rw [h.single] at hend
        exact hend isLineEnd_newline
      have hc : c ≠ '\n' := by
        rintro rfl
        exact hend isLineEnd_newline
      rw [ih h.rest (fun hnil => absurd hnil hrest), loneEnds, List.count_cons]
      · simp [hend, hc]
      · exact hpair

/-- Up to a line start, the lone separators of two stretches add up. -/
lemma loneEnds_append {before : List Char} (h : AtLineStart before) (after : List Char) :
    loneEnds (before ++ after) = loneEnds before + loneEnds after := by
  fun_induction loneEnds before with
  | case1 => simp
  | case2 rest ih =>
      rw [List.cons_append, List.cons_append, loneEnds, ih h.rest.rest]
  | case3 c rest hpair ih =>
      rw [List.cons_append, loneEnds, ih h.rest]
      · omega
      · exact no_pair_append h hpair

/-- An open line that has begun is the first of the lines. -/
lemma linesFrom_begun {start : ℕ} {front text : List Char} (hfront : front ≠ []) :
    ∃ line rest, linesFrom start front text = line :: rest ∧ line.start = start ∧
      start + front.length ≤ line.stop := by
  fun_induction linesFrom start front text with
  | case1 start => exact absurd rfl hfront
  | case2 start front hne => exact ⟨_, [], rfl, rfl, by simp [TextLine.stop]⟩
  | case3 start front rest ih => exact ⟨_, _, rfl, rfl, by simp only [TextLine.stop]; omega⟩
  | case4 start front c rest hpair hend ih =>
      exact ⟨_, _, rfl, rfl, by simp only [TextLine.stop]; omega⟩
  | case5 start front c rest hpair hend ih =>
      obtain ⟨line, more, hlines, hstart, hstop⟩ := ih (by simp)
      refine ⟨line, more, hlines, hstart, ?_⟩
      rw [List.length_append] at hstop
      simp only [List.length_cons, List.length_nil] at hstop
      omega

/-- The first line has a whole stretch without newlines exactly if no separator stands before
the last character of the stretch. -/
lemma linesFrom_first {start : ℕ} {front stretch : List Char} (hne : stretch ≠ [])
    (hline : '\n' ∉ stretch) (after : List Char) :
    ∃ line rest, linesFrom start front (stretch ++ after) = line :: rest ∧ line.start = start ∧
      (start + front.length + stretch.length ≤ line.stop ↔ loneEnds stretch.dropLast = 0) := by
  induction stretch generalizing front with
  | nil => exact absurd rfl hne
  | cons c rest ih =>
      have hc : c ≠ '\n' := fun hc => hline (hc ▸ List.mem_cons_self)
      cases rest with
      | nil =>
          have hdrop : loneEnds ([c] : List Char).dropLast = 0 := rfl
          rw [List.singleton_append]
          simp only [hdrop, iff_true, List.length_singleton]
          by_cases hpair : c = '\r' ∧ ∃ more, after = '\n' :: more
          · obtain ⟨rfl, more, rfl⟩ := hpair
            exact ⟨_, _, rfl, rfl, by simp only [TextLine.stop]; omega⟩
          · have hpair' : ∀ more, c = '\r' → after = '\n' :: more → False :=
              fun more hcr hmore => hpair ⟨hcr, more, hmore⟩
            by_cases hend : isLineEnd c = true
            · refine ⟨⟨start, front, 1⟩, linesFrom (start + front.length + 1) [] after, ?_, rfl, ?_⟩
              · rw [linesFrom, if_pos hend]
                exact hpair'
              · simp only [TextLine.stop]
                omega
            · obtain ⟨line, more, hlines, hstart, hstop⟩ := @linesFrom_begun start (front ++ [c])
                after (by simp)
              refine ⟨line, more, ?_, hstart, ?_⟩
              · rw [linesFrom, if_neg hend, hlines]
                exact hpair'
              · rw [List.length_append] at hstop
                simp only [List.length_cons, List.length_nil] at hstop
                omega
      | cons d rest =>
          have hd : d ≠ '\n' := fun hd => hline (hd ▸ List.mem_cons_of_mem _ List.mem_cons_self)
          have hpair : ∀ more, c = '\r' → d :: (rest ++ after) = '\n' :: more → False := by
            intro more _ hmore
            exact hd (List.cons.inj hmore).1
          have hdrop : (c :: d :: rest).dropLast = c :: (d :: rest).dropLast := rfl
          have hpair' : ∀ more, c = '\r' → (d :: rest).dropLast = '\n' :: more → False := by
            intro more _ hmore
            have hmem : '\n' ∈ (d :: rest).dropLast := hmore ▸ List.mem_cons_self
            exact hline (List.mem_cons_of_mem _ (List.dropLast_subset _ hmem))
          have hlone : loneEnds (c :: d :: rest).dropLast =
              (if isLineEnd c then 1 else 0) + loneEnds (d :: rest).dropLast := by
            rw [hdrop, loneEnds]
            · simp [hc]
            · exact hpair'
          rw [hlone]
          by_cases hend : isLineEnd c = true
          · refine ⟨⟨start, front, 1⟩, linesFrom (start + front.length + 1) [] (d :: rest ++ after),
              ?_, rfl, ?_⟩
            · rw [List.cons_append, linesFrom, if_pos hend]
              exact hpair
            · simp only [TextLine.stop, List.length_cons, if_pos hend]
              omega
          · obtain ⟨line, more, hlines, hstart, hiff⟩ := @ih (front ++ [c]) (by simp)
              (fun h => hline (List.mem_cons_of_mem _ h))
            refine ⟨line, more, ?_, hstart, ?_⟩
            · rw [List.cons_append, linesFrom, if_neg hend, ← hlines]
              exact hpair
            · rw [if_neg hend, Nat.zero_add, ← hiff]
              simp only [List.length_append, List.length_cons, List.length_nil]
              omega

lemma textLines_append {before : List Char} (h : AtLineStart before) (after : List Char) :
    textLines (before ++ after) = linesFrom 0 [] before ++ linesFrom before.length [] after := by
  rw [textLines, linesFrom_append h fun _ => rfl]
  simp

lemma linesFrom_ne_nil {start : ℕ} {front text : List Char} (h : front ≠ [] ∨ text ≠ []) :
    linesFrom start front text ≠ [] := by
  fun_induction linesFrom start front text with
  | case1 start => simp at h
  | case2 start front hne => exact List.cons_ne_nil _ _
  | case3 start front rest ih => exact List.cons_ne_nil _ _
  | case4 start front c rest hpair hend ih => exact List.cons_ne_nil _ _
  | case5 start front c rest hpair hend ih => exact ih (Or.inl (by simp))

/-- The newlines before a text that goes on number one of its lines. -/
lemma count_lt_length {before after : List Char} (h : AtLineStart before) (hne : after ≠ []) :
    before.count '\n' < (textLines (before ++ after)).length := by
  have hpos := List.length_pos_iff.mpr (@linesFrom_ne_nil before.length [] after (Or.inr hne))
  rw [textLines_append h, List.length_append, length_linesFrom h fun _ => rfl]
  omega

/-- A line that spans a newline does not go past it. -/
lemma first_stops_at_newline {start : ℕ} {stretch after : List Char} {line : TextLine}
    (hmem : '\n' ∈ stretch) (hlast : stretch.getLast? ≠ some '\n')
    (hline : (linesFrom start [] (stretch ++ after))[0]? = some line) :
    line.stop < start + stretch.length := by
  obtain ⟨front, back, rfl⟩ := List.append_of_mem hmem
  have hstart : AtLineStart (front ++ ['\n']) := Or.inr (by simp)
  have hsplit : front ++ '\n' :: back ++ after = (front ++ ['\n']) ++ (back ++ after) := by simp
  rw [hsplit, linesFrom_append hstart fun _ => rfl] at hline
  have hpos : 0 < (linesFrom start [] (front ++ ['\n'])).length := by
    rw [length_linesFrom hstart fun _ => rfl, List.count_append, List.count_singleton,
      if_pos (beq_self_eq_true _)]
    omega
  rw [List.getElem?_append_left hpos] at hline
  have hstop := (linesFrom_bounds (List.mem_of_getElem? hline)).2
  have hback : back ≠ [] := by
    rintro rfl
    simp at hlast
  have := List.length_pos_iff.mpr hback
  simp only [List.length_append, List.length_cons, List.length_nil] at hstop ⊢
  omega

/-- The line that the newlines before a stretch number has the whole stretch exactly if the
stretch is one line and no separator stands alone before its last character. -/
theorem counted_line_iff {before stretch : List Char} (h : AtLineStart before)
    (hne : stretch ≠ []) (hlast : stretch.getLast? ≠ some '\n') (after : List Char) :
    (∃ line, (textLines (before ++ stretch ++ after))[before.count '\n']? = some line ∧
      line.start ≤ before.length ∧ before.length + stretch.length ≤ line.stop) ↔
      '\n' ∉ stretch ∧ loneEnds (before ++ stretch).dropLast = 0 := by
  have hlines := textLines_append h (stretch ++ after)
  have hlength : (linesFrom 0 [] before).length = before.count '\n' + loneEnds before :=
    length_linesFrom h fun _ => rfl
  have hpos := List.length_pos_iff.mpr hne
  rw [List.append_assoc, hlines, List.dropLast_append_of_ne_nil hne, loneEnds_append h]
  constructor
  · rintro ⟨line, hline, hstart, hstop⟩
    by_cases hearlier : before.count '\n' < (linesFrom 0 [] before).length
    · rw [List.getElem?_append_left hearlier] at hline
      have hbefore := (linesFrom_bounds (List.mem_of_getElem? hline)).2
      simp only [List.length_nil] at hbefore
      omega
    · have hlone : loneEnds before = 0 := by omega
      rw [List.getElem?_append_right (by omega), hlength, hlone, Nat.add_zero, Nat.sub_self] at hline
      have hnewline : '\n' ∉ stretch := by
        intro hmem
        have := first_stops_at_newline hmem hlast hline
        omega
      obtain ⟨first, rest, hfirst, -, hiff⟩ := @linesFrom_first before.length [] stretch hne hnewline
        after
      rw [hfirst, List.getElem?_cons_zero, Option.some.injEq] at hline
      subst hline
      refine ⟨hnewline, ?_⟩
      rw [hlone, Nat.zero_add]
      exact hiff.mp (by simpa using hstop)
  · rintro ⟨hnewline, hlone⟩
    obtain ⟨first, rest, hfirst, hstart, hiff⟩ := @linesFrom_first before.length [] stretch hne
      hnewline after
    refine ⟨first, ?_, Nat.le_of_eq hstart, ?_⟩
    · rw [List.getElem?_append_right (by omega), hlength, hfirst]
      have hzero : before.count '\n' - (before.count '\n' + loneEnds before) = 0 := by omega
      rw [hzero, List.getElem?_cons_zero]
    · have hstop := hiff.mpr (by omega)
      simpa using hstop

end Imece.Lib
