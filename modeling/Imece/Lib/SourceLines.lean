import Imece.Lib.TextLines

/-!
# Two ways to number lines

A parser of source text ends a line at `\n`, `\r` and `\r\n`; `str.splitlines` ends it at eight
further characters too. Each line of the parser is then one line or more of the text.
-/
namespace Imece.Lib

/-- `text.splitlines()` -/
def splitlines (text : List Char) : List (List Char) := (textLines text).map TextLine.text

/-- The lines a parser numbers, where the line that is open began with `front`. -/
def sourceFrom (front : List Char) : List Char → List (List Char)
  | [] => if front = [] then [] else [front]
  | '\r' :: '\n' :: rest => (front ++ ['\r', '\n']) :: sourceFrom [] rest
  | c :: rest =>
      if c = '\n' ∨ c = '\r' then (front ++ [c]) :: sourceFrom [] rest
      else sourceFrom (front ++ [c]) rest

/-- The lines a parser numbers, each with what ends it. -/
def sourceLines (text : List Char) : List (List Char) := sourceFrom [] text

/-- How many characters of the text end a line of the text but none of the parser. -/
def otherEnds (text : List Char) : ℕ := text.countP fun c => isLineEnd c && c != '\n' && c != '\r'

/-- A stretch without an end of the parser's lines. -/
def Inline (body : List Char) : Prop := ∀ c ∈ body, c ≠ '\n' ∧ c ≠ '\r'

/-- What ends a line of the parser, before the rest of the text. -/
def Ends (sep rest : List Char) : Prop :=
  sep = ['\r', '\n'] ∨ sep = ['\n'] ∨ sep = ['\r'] ∧ rest.head? ≠ some '\n'

lemma inline_nil : Inline [] := fun _ h => absurd h List.not_mem_nil

lemma Inline.concat {body : List Char} {c : Char} (h : Inline body) (hc : c ≠ '\n' ∧ c ≠ '\r') :
    Inline (body ++ [c]) := by
  intro d hd
  rcases List.mem_append.mp hd with hd | hd
  · exact h d hd
  · rw [List.mem_singleton.mp hd]
    exact hc

lemma Inline.head {c : Char} {body : List Char} (h : Inline (c :: body)) : c ≠ '\n' ∧ c ≠ '\r' :=
  h c List.mem_cons_self

lemma Inline.tail {c : Char} {body : List Char} (h : Inline (c :: body)) : Inline body :=
  fun d hd => h d (List.mem_cons_of_mem _ hd)

lemma Inline.no_pair {c : Char} {body : List Char} (h : Inline (c :: body)) (rest : List Char) :
    ∀ more, c = '\r' → rest = '\n' :: more → False := fun _ hc _ => h.head.2 hc

/-- The place where a line begins does not bear on the texts. -/
lemma map_text_linesFrom (start other : ℕ) (front text : List Char) :
    (linesFrom start front text).map TextLine.text =
      (linesFrom other front text).map TextLine.text := by
  fun_induction linesFrom start front text generalizing other with
  | case1 start => simp [linesFrom]
  | case2 start front hne => simp [linesFrom, hne]
  | case3 start front rest ih =>
      rw [linesFrom, List.map_cons, List.map_cons, ih]
  | case4 start front c rest hpair hend ih =>
      rw [linesFrom, if_pos hend, List.map_cons, List.map_cons, ih]
      exact hpair
  | case5 start front c rest hpair hend ih =>
      rw [linesFrom, if_neg hend, ih]
      exact hpair

/-- Past the end of one of the parser's lines, a line of the text begins as well. -/
lemma map_text_ended {start : ℕ} {front body sep rest : List Char} (hbody : Inline body)
    (hsep : Ends sep rest) :
    (linesFrom start front (body ++ (sep ++ rest))).map TextLine.text =
      (linesFrom start front (body ++ sep)).map TextLine.text ++ splitlines rest := by
  induction body generalizing start front with
  | nil =>
      rcases hsep with rfl | rfl | ⟨rfl, hrest⟩
      · simp [linesFrom, splitlines, textLines, map_text_linesFrom _ 0]
      · simp [linesFrom, splitlines, textLines, isLineEnd_newline, map_text_linesFrom _ 0]
      · have hreturn : isLineEnd '\r' = true := by decide
        have hpair : ∀ more, '\r' = '\r' → rest = '\n' :: more → False := by
          rintro more - rfl
          exact hrest rfl
        rw [List.nil_append, List.nil_append, List.singleton_append, linesFrom, if_pos hreturn,
          linesFrom, if_pos hreturn]
        · simp [linesFrom, splitlines, textLines, map_text_linesFrom _ 0]
        · intro more _ hmore
          cases hmore
        · exact hpair
  | cons c body ih =>
      rw [List.cons_append, List.cons_append, linesFrom, linesFrom]
      · by_cases hend : isLineEnd c = true
        · rw [if_pos hend, if_pos hend, List.map_cons, List.map_cons, ih hbody.tail,
            List.cons_append]
        · rw [if_neg hend, if_neg hend, ih hbody.tail]
      · exact hbody.no_pair _
      · exact hbody.no_pair _

lemma splitlines_ended {body sep rest : List Char} (hbody : Inline body) (hsep : Ends sep rest) :
    splitlines (body ++ (sep ++ rest)) = splitlines (body ++ sep) ++ splitlines rest :=
  map_text_ended hbody hsep

/-- The lines of a text are those of each of the parser's lines, in order. -/
lemma splitlines_sourceFrom {front text : List Char} (hfront : Inline front) :
    splitlines (front ++ text) = (sourceFrom front text).flatMap splitlines := by
  fun_induction sourceFrom front text with
  | case1 => simp [splitlines, textLines, linesFrom]
  | case2 front hne => simp
  | case3 front rest ih =>
      have hends : Ends ['\r', '\n'] rest := Or.inl rfl
      have hsplit := splitlines_ended hfront hends
      rw [List.cons_append, List.singleton_append] at hsplit
      rw [hsplit, List.flatMap_cons, ← ih inline_nil, List.nil_append]
  | case4 front c rest hpair hend ih =>
      have hends : Ends [c] rest := by
        rcases hend with rfl | rfl
        · exact Or.inr (Or.inl rfl)
        · refine Or.inr (Or.inr ⟨rfl, ?_⟩)
          intro hhead
          obtain ⟨more, rfl⟩ := List.head?_eq_some_iff.mp hhead
          exact hpair more rfl rfl
      have hsplit := splitlines_ended hfront hends
      rw [List.singleton_append] at hsplit
      rw [hsplit, List.flatMap_cons, ← ih inline_nil, List.nil_append]
  | case5 front c rest hpair hend ih =>
      rw [not_or] at hend
      rw [← ih (hfront.concat hend), List.append_assoc, List.singleton_append]

theorem splitlines_sourceLines (text : List Char) :
    splitlines text = (sourceLines text).flatMap splitlines := by
  rw [sourceLines, ← splitlines_sourceFrom inline_nil, List.nil_append]

/-- One of the parser's lines: a stretch inside, and at most one end. -/
structure SourceLine (line : List Char) : Prop where
  ne_nil : line ≠ []
  parts : ∃ body sep, line = body ++ sep ∧ Inline body ∧ (sep = [] ∨ Ends sep [])

lemma sourceLine_of_mem {front text line : List Char} (hfront : Inline front)
    (h : line ∈ sourceFrom front text) : SourceLine line := by
  fun_induction sourceFrom front text with
  | case1 => cases h
  | case2 front hne =>
      rw [List.mem_singleton.mp h]
      exact ⟨hne, front, [], by simp, hfront, Or.inl rfl⟩
  | case3 front rest ih =>
      rcases List.mem_cons.mp h with rfl | h
      · exact ⟨by simp, front, ['\r', '\n'], rfl, hfront, Or.inr (Or.inl rfl)⟩
      · exact ih inline_nil h
  | case4 front c rest hpair hend ih =>
      rcases List.mem_cons.mp h with rfl | h
      · refine ⟨by simp, front, [c], rfl, hfront, Or.inr ?_⟩
        rcases hend with rfl | rfl
        · exact Or.inr (Or.inl rfl)
        · exact Or.inr (Or.inr ⟨rfl, by simp⟩)
      · exact ih inline_nil h
  | case5 front c rest hpair hend ih =>
      rw [not_or] at hend
      exact ih (hfront.concat hend) h

/-- A line of the parser is one line of the text, and one more for each further end in it. -/
lemma length_linesFrom_le {start : ℕ} {front body sep : List Char} (hbody : Inline body)
    (hsep : sep = [] ∨ Ends sep []) :
    (linesFrom start front (body ++ sep)).length ≤ 1 + otherEnds body := by
  induction body generalizing start front with
  | nil =>
      rcases hsep with rfl | rfl | rfl | ⟨rfl, -⟩
      · simp only [List.nil_append, linesFrom]
        split_ifs <;> simp
      · simp [linesFrom]
      · simp [linesFrom, isLineEnd_newline]
      · simp [linesFrom, show isLineEnd '\r' = true by decide]
  | cons c body ih =>
      have hcount : otherEnds (c :: body) =
          otherEnds body + if isLineEnd c = true then 1 else 0 := by
        rw [otherEnds, otherEnds, List.countP_cons]
        simp [hbody.head.1, hbody.head.2]
      rw [List.cons_append, linesFrom]
      · by_cases hend : isLineEnd c = true
        · have := @ih (start + front.length + 1) [] hbody.tail
          rw [if_pos hend, List.length_cons, hcount, if_pos hend]
          omega
        · have := @ih start (front ++ [c]) hbody.tail
          rw [if_neg hend, hcount, if_neg hend]
          omega
      · exact hbody.no_pair _

lemma otherEnds_append (first second : List Char) :
    otherEnds (first ++ second) = otherEnds first + otherEnds second := List.countP_append

theorem SourceLine.length_splitlines {line : List Char} (h : SourceLine line) :
    1 ≤ (splitlines line).length ∧ (splitlines line).length ≤ 1 + otherEnds line := by
  obtain ⟨body, sep, rfl, hbody, hsep⟩ := h.parts
  constructor
  · rw [splitlines, List.length_map, textLines]
    exact List.length_pos_iff.mpr (linesFrom_ne_nil (Or.inr h.ne_nil))
  · have := @length_linesFrom_le 0 [] body sep hbody hsep
    rw [splitlines, List.length_map, textLines, otherEnds_append]
    omega

/-- So many lines of the parser are at least as many lines of the text, and at most one more for
each further end among them. -/
theorem length_flatMap_splitlines {lines : List (List Char)} (h : ∀ line ∈ lines, SourceLine line) :
    lines.length ≤ (lines.flatMap splitlines).length ∧
      (lines.flatMap splitlines).length ≤ lines.length + otherEnds lines.flatten := by
  induction lines with
  | nil => simp
  | cons line lines ih =>
      have hline := (h line List.mem_cons_self).length_splitlines
      have hrest := ih fun other hother => h other (List.mem_cons_of_mem _ hother)
      rw [List.flatMap_cons, List.length_append, List.flatten_cons, otherEnds_append,
        List.length_cons]
      omega

theorem sourceLine_of_mem_sourceLines {text line : List Char} (h : line ∈ sourceLines text) :
    SourceLine line := sourceLine_of_mem inline_nil h

end Imece.Lib
