import Imece.Lib.Text
import Imece.Lib.TextLines

/-!
# The error block of a failed check

The last match of the first failure pattern that occurs is turned into the number of a line by
counting newlines, and the block ends with that line.
-/
namespace Imece.DecisionRuntime

open Lib

def maxErrorBlockLines : ℕ := 40
def maxErrorBlockChars : ℕ := 4000

section Patterns

/-- A letter of a pattern and a character that `re.IGNORECASE` lets it match. -/
def sameLetter (letter c : Char) : Bool :=
  letter == c.toLower || (letter == 'i' && [0x130, 0x131].contains c.toNat) ||
    (letter == 's' && c.toNat == 0x17f) || (letter == 'k' && c.toNat == 0x212a)

/-- The text starts with the literal. -/
def startsWith (same : Char → Char → Bool) : List Char → List Char → Bool
  | [], _ => true
  | _ :: _, [] => false
  | letter :: literal, c :: text => same letter c && startsWith same literal text

/-- `.*literal` -/
def occurs (same : Char → Char → Bool) (literal line : List Char) : Bool :=
  line.tails.any (startsWith same literal)

/-- What a pattern that starts at `^` takes of the lines that begin there: so many of them,
the last of which is not empty. -/
structure LinePattern where
  consume : List (List Char) → Option ℕ
  sound : ∀ lines k, consume lines = some k →
    ∃ earlier line, lines.take k = earlier ++ [line] ∧ k = earlier.length + 1 ∧ line ≠ []

/-- `^.*(?:literal|...).*$` -/
def containsAny (same : Char → Char → Bool) (literals : List String) : List (List Char) → Option ℕ
  | [] => none
  | line :: _ => if literals.any (fun literal => occurs same literal.toList line) then some 1 else none

/-- `\s*assert.*$`, over the lines from here on. -/
def assertFollows : List (List Char) → Option ℕ
  | [] => none
  | line :: rest =>
      match line.dropWhile isSpaceChar with
      | [] => (assertFollows rest).map (· + 1)
      | text => if startsWith (· == ·) "assert".toList text then some 1 else none

/-- `^E\s+assert.*$`; the space may be the end of the line. -/
def spacedAssert : List (List Char) → Option ℕ
  | ('E' :: c :: line) :: rest =>
      if isSpaceChar c then assertFollows (line :: rest) else none
  | ['E'] :: rest => (assertFollows rest).map (· + 1)
  | _ => none

/-- A match that ends in a line which is not empty. -/
def EndsInText (lines : List (List Char)) (k : ℕ) : Prop :=
  ∃ earlier line, lines.take k = earlier ++ [line] ∧ k = earlier.length + 1 ∧ line ≠ []

lemma EndsInText.later {lines : List (List Char)} {k : ℕ} (h : EndsInText lines k)
    (line : List Char) : EndsInText (line :: lines) (k + 1) := by
  obtain ⟨earlier, last, htake, hk, hne⟩ := h
  refine ⟨line :: earlier, last, ?_, ?_, hne⟩
  · rw [List.take_succ_cons, htake, List.cons_append]
  · rw [hk, List.length_cons]

lemma containsAny_sound {same : Char → Char → Bool} {literals : List String}
    (hliterals : ∀ literal ∈ literals, literal.toList ≠ []) {lines : List (List Char)} {k : ℕ}
    (h : containsAny same literals lines = some k) : EndsInText lines k := by
  cases lines with
  | nil => cases h
  | cons line rest =>
      simp only [containsAny, Option.ite_none_right_eq_some, Option.some.injEq] at h
      obtain ⟨hany, rfl⟩ := h
      refine ⟨[], line, rfl, rfl, ?_⟩
      rintro rfl
      obtain ⟨literal, hliteral, hoccurs⟩ := List.any_eq_true.mp hany
      cases htext : literal.toList with
      | nil => exact hliterals literal hliteral htext
      | cons letter more => simp [occurs, startsWith, htext] at hoccurs

lemma assertFollows_sound {lines : List (List Char)} {k : ℕ} (h : assertFollows lines = some k) :
    EndsInText lines k := by
  induction lines generalizing k with
  | nil => cases h
  | cons line rest ih =>
      rw [assertFollows] at h
      cases hline : line.dropWhile isSpaceChar with
      | nil =>
          rw [hline] at h
          simp only [Option.map_eq_some_iff] at h
          obtain ⟨later, hlater, rfl⟩ := h
          exact (ih hlater).later line
      | cons c text =>
          rw [hline] at h
          simp only [Option.ite_none_right_eq_some, Option.some.injEq] at h
          obtain ⟨-, rfl⟩ := h
          refine ⟨[], line, rfl, rfl, ?_⟩
          rintro rfl
          simp at hline

lemma spacedAssert_sound {lines : List (List Char)} {k : ℕ} (h : spacedAssert lines = some k) :
    EndsInText lines k := by
  unfold spacedAssert at h
  split at h
  · rename_i c line rest
    rw [Option.ite_none_right_eq_some] at h
    obtain ⟨earlier, last, htake, hk, hne⟩ := assertFollows_sound h.2
    cases earlier with
    | nil =>
        rw [hk, List.length_nil, Nat.zero_add, List.take_succ_cons, List.take_zero] at htake
        refine ⟨[], 'E' :: c :: line, ?_, hk, List.cons_ne_nil _ _⟩
        rw [hk]
        rfl
    | cons first earlier =>
        refine ⟨('E' :: c :: line) :: earlier, last, ?_, hk, hne⟩
        rw [hk, List.length_cons, List.take_succ_cons] at htake ⊢
        rw [List.cons_append, (List.cons.inj htake).2]
        rfl
  · rename_i rest
    rw [Option.map_eq_some_iff] at h
    obtain ⟨later, hlater, rfl⟩ := h
    exact (assertFollows_sound hlater).later ['E']
  · cases h

def exactly (letter c : Char) : Bool := letter == c

/-- `^.*Assert(ion)?Error.*$|^E\s+assert.*$` -/
def assertionRe : LinePattern where
  consume lines := (containsAny exactly ["AssertionError", "AssertError"] lines).orElse
    fun _ => spacedAssert lines
  sound lines k h := by
    cases hcontains : containsAny exactly ["AssertionError", "AssertError"] lines with
    | some taken =>
        rw [hcontains] at h
        cases h
        exact containsAny_sound (by decide) hcontains
    | none =>
        rw [hcontains] at h
        exact spacedAssert_sound h

def containsRe (same : Char → Char → Bool) (literals : List String)
    (hliterals : ∀ literal ∈ literals, literal.toList ≠ []) : LinePattern where
  consume := containsAny same literals
  sound _ _ h := containsAny_sound hliterals h

def commandNotFoundRe : LinePattern :=
  containsRe sameLetter ["command not found", ": not found",
    "is not recognized as an internal or external command"] (by decide)

def pyModuleNotFoundRe : LinePattern :=
  containsRe exactly ["ModuleNotFoundError", "No module named"] (by decide)

def jsModuleNotFoundRe : LinePattern := containsRe exactly ["Cannot find module"] (by decide)

def goPackageNotFoundRe : LinePattern :=
  containsRe exactly ["cannot find package", "no required module provides package"] (by decide)

/-- The patterns in the order they are tried. -/
def failurePatterns : List LinePattern :=
  [assertionRe, commandNotFoundRe, pyModuleNotFoundRe, jsModuleNotFoundRe, goPackageNotFoundRe]

end Patterns

section Blocks

/-- Where a match starts and ends. -/
structure Span where
  start : ℕ
  stop : ℕ
deriving DecidableEq, Repr

/-- `pattern.finditer(text)`, over the lines between newlines: a match takes some of them, and the
search goes on after it. -/
def findFrom (pattern : LinePattern) : ℕ → ℕ → List (List Char) → List Span
  | _, _, [] => []
  | skip + 1, offset, line :: rest => findFrom pattern skip (offset + line.length + 1) rest
  | 0, offset, line :: rest =>
      match pattern.consume (line :: rest) with
      | none => findFrom pattern 0 (offset + line.length + 1) rest
      | some taken =>
          ⟨offset, offset + (['\n'].intercalate ((line :: rest).take taken)).length⟩ ::
            findFrom pattern (taken - 1) (offset + line.length + 1) rest

def LinePattern.findAll (pattern : LinePattern) (text : List Char) : List Span :=
  findFrom pattern 0 0 (text.splitOn '\n')

/-- `^Traceback \(most recent call last\):`, as far as where it starts. -/
def tracebackStarts : ℕ → List (List Char) → List ℕ
  | _, [] => []
  | offset, line :: rest =>
      let later := tracebackStarts (offset + line.length + 1) rest
      if startsWith exactly "Traceback (most recent call last):".toList line then offset :: later
      else later

/-- The last match of the first pattern that has one. -/
def lastFailure (patterns : List LinePattern) (text : List Char) : Option Span :=
  patterns.findSome? fun pattern => (pattern.findAll text).getLast?

/-- `items[-n:]` -/
def lastItems (n : ℕ) (items : List α) : List α :=
  if n = 0 then items else items.drop (items.length - n)

def boundedLines (maxLines : ℕ) (lines : List (List Char)) : List Char :=
  let text := ['\n'].intercalate (lastItems maxLines lines)
  if maxErrorBlockChars < text.length then lastItems maxErrorBlockChars text else text

def combinedOutput (stdout stderr : List Char) : List Char :=
  if stdout ≠ [] ∧ stderr ≠ [] then stdout ++ '\n' :: stderr
  else if stdout ≠ [] then stdout else stderr

/-- The lines that the block is made of: from the last traceback on, or the line of the last
failure with the two before it, or the last lines. -/
def errorLines (text : List Char) (maxLines : ℕ) : List TextLine :=
  match (tracebackStarts 0 (text.splitOn '\n')).getLast? with
  | some start => linesFrom start [] (text.drop start)
  | none =>
      match lastFailure failurePatterns text with
      | some span =>
          let lineIndex := (text.take span.start).count '\n'
          ((textLines text).take (lineIndex + 1)).drop (lineIndex - 2)
      | none => lastItems maxLines (textLines text)

/-- `extract_error_block` -/
def extractErrorBlock (stdout stderr : List Char) (maxLines : ℕ := maxErrorBlockLines) :
    List Char :=
  boundedLines maxLines ((errorLines (combinedOutput stdout stderr) maxLines).map (·.text))

end Blocks

section Places

/-- A match stands at the start of a line between newlines, and ends in a text that is not a
newline. -/
structure Span.Places (span : Span) (text : List Char) (offset : ℕ) : Prop where
  split : ∃ before stretch after, text = before ++ stretch ++ after ∧
    span = ⟨offset + before.length, offset + before.length + stretch.length⟩ ∧
    AtLineStart before ∧ stretch ≠ [] ∧ stretch.getLast? ≠ some '\n'

lemma getLast_intercalate {earlier : List (List Char)} {line : List Char} (hne : line ≠ []) :
    (['\n'].intercalate (earlier ++ [line])).getLast? = line.getLast? := by
  by_cases hearlier : earlier = []
  · subst hearlier
    rw [List.nil_append, List.intercalate_singleton]
  · rw [intercalate_append hearlier (List.cons_ne_nil _ _), List.intercalate_singleton,
      List.getLast?_append_of_ne_nil _ (List.cons_ne_nil _ _), List.getLast?_cons_of_ne_nil hne]

lemma intercalate_take_prefix (lines : List (List Char)) (k : ℕ) (hk : 0 < k) :
    ∃ after, ['\n'].intercalate lines = ['\n'].intercalate (lines.take k) ++ after := by
  by_cases hdrop : lines.drop k = []
  · refine ⟨[], ?_⟩
    rw [List.append_nil, List.take_of_length_le (List.drop_eq_nil_iff.mp hdrop)]
  · by_cases htake : lines.take k = []
    · have hlines : lines = [] := by
        rcases List.take_eq_nil_iff.mp htake with h | h
        · omega
        · exact h
      rw [hlines] at hdrop
      exact absurd List.drop_nil hdrop
    · refine ⟨'\n' :: ['\n'].intercalate (lines.drop k), ?_⟩
      rw [← intercalate_append htake hdrop, List.take_append_drop]

/-- Every match that is found stands where a line begins. -/
lemma findFrom_places {pattern : LinePattern} {lines : List (List Char)}
    (hwhole : ∀ line ∈ lines, '\n' ∉ line) {skip offset : ℕ} {span : Span}
    (h : span ∈ findFrom pattern skip offset lines) :
    span.Places (['\n'].intercalate lines) offset := by
  induction lines generalizing skip offset with
  | nil => simp [findFrom] at h
  | cons line rest ih =>
      have hlater (skip : ℕ)
          (hmem : span ∈ findFrom pattern skip (offset + line.length + 1) rest) :
          span.Places (['\n'].intercalate (line :: rest)) offset := by
        have hrest : rest ≠ [] := by
          rintro rfl
          simp [findFrom] at hmem
        obtain ⟨before, stretch, after, htext, hspan, hstart, hne, hlast⟩ :=
          (ih (fun other hother => hwhole other (List.mem_cons_of_mem _ hother)) hmem).split
        refine ⟨line ++ '\n' :: before, stretch, after, ?_, ?_, ?_, hne, hlast⟩
        · rw [List.intercalate_cons_of_ne_nil hrest, htext]
          simp
        · rw [hspan]
          simp only [List.length_append, List.length_cons]
          congr 1 <;> omega
        · right
          rcases hstart with rfl | hstart
          · simp
          · have hbefore : before ≠ [] := by
              rintro rfl
              simp at hstart
            rw [List.getLast?_append_of_ne_nil _ (List.cons_ne_nil _ _),
              List.getLast?_cons_of_ne_nil hbefore]
            exact hstart
      cases skip with
      | succ skip => exact hlater skip h
      | zero =>
          rw [findFrom] at h
          cases hconsume : pattern.consume (line :: rest) with
          | none =>
              rw [hconsume] at h
              exact hlater 0 h
          | some taken =>
              rw [hconsume] at h
              rcases List.mem_cons.mp h with rfl | h
              · obtain ⟨earlier, last, htake, htaken, hne⟩ := pattern.sound _ _ hconsume
                obtain ⟨after, hafter⟩ := intercalate_take_prefix (line :: rest) taken (by omega)
                have hmem : last ∈ line :: rest := by
                  refine List.mem_of_mem_take (i := taken) ?_
                  rw [htake]
                  exact List.mem_append_right _ List.mem_cons_self
                have hlast : (['\n'].intercalate ((line :: rest).take taken)).getLast? =
                    last.getLast? := by
                  rw [htake, getLast_intercalate hne]
                refine ⟨[], ['\n'].intercalate ((line :: rest).take taken), after, hafter, rfl,
                  Or.inl rfl, ?_, ?_⟩
                · intro hempty
                  rw [hempty, List.getLast?_nil, eq_comm, List.getLast?_eq_none_iff] at hlast
                  exact hne hlast
                · rw [hlast]
                  intro hnewline
                  exact hwhole last hmem (List.mem_of_getLast? hnewline)
              · exact hlater (taken - 1) h

lemma lastFailure_places {patterns : List LinePattern} {text : List Char} {span : Span}
    (h : lastFailure patterns text = some span) : span.Places text 0 := by
  obtain ⟨pattern, -, hlast⟩ := List.exists_of_findSome?_eq_some h
  have hplaces := findFrom_places (fun line hline => not_mem_of_mem_splitOn hline)
    (List.mem_of_getLast? hlast)
  rwa [List.intercalate_splitOn] at hplaces

lemma lastItems_suffix (n : ℕ) (items : List α) : lastItems n items <:+ items := by
  unfold lastItems
  split
  · exact List.suffix_refl items
  · exact List.drop_suffix _ _

/-- The last items of what ends a list are the last items of the list, or end it. -/
lemma lastItems_suffix_of_suffix {n : ℕ} (hn : 0 < n) {back items : List α} (h : back <:+ items) :
    lastItems n back <:+ lastItems n items := by
  obtain ⟨front, rfl⟩ := h
  unfold lastItems
  rw [if_neg (by omega), if_neg (by omega), List.length_append, List.drop_append]
  by_cases hlong : n ≤ back.length
  · have hfront : front.drop (front.length + back.length - n) = [] := by
      rw [List.drop_eq_nil_iff]
      omega
    rw [hfront, List.nil_append]
    have hindex : front.length + back.length - n - front.length = back.length - n := by omega
    exact ⟨[], by rw [List.nil_append, hindex]⟩
  · have hindex : front.length + back.length - n - front.length = 0 := by omega
    have hzero : back.length - n = 0 := by omega
    rw [hindex, hzero, List.drop_zero]
    exact List.suffix_append _ _

/-- The block ends with the last of its lines, as far as it is allowed to be long. -/
lemma boundedLines_suffix {maxLines : ℕ} {lines : List (List Char)} {line : List Char}
    (h : lines.getLast? = some line) :
    lastItems maxErrorBlockChars line <:+ boundedLines maxLines lines := by
  obtain ⟨earlier, rfl⟩ := List.getLast?_eq_some_iff.mp h
  have hkept : ∃ others, lastItems maxLines (earlier ++ [line]) = others ++ [line] := by
    unfold lastItems
    split
    · exact ⟨earlier, rfl⟩
    · rename_i hpos
      refine ⟨earlier.drop ((earlier ++ [line]).length - maxLines), ?_⟩
      rw [List.length_append, List.length_singleton, List.drop_append_of_le_length (by omega)]
  obtain ⟨others, hothers⟩ := hkept
  have hends : line <:+ ['\n'].intercalate (others ++ [line]) := by
    by_cases hnone : others = []
    · have hsingle : ['\n'].intercalate (others ++ [line]) = line := by
        rw [hnone, List.nil_append, List.intercalate_singleton]
      exact ⟨[], by rw [List.nil_append, hsingle]⟩
    · rw [intercalate_append hnone (List.cons_ne_nil _ _), List.intercalate_singleton]
      exact (List.suffix_cons _ _).trans (List.suffix_append _ _)
  unfold boundedLines
  rw [hothers]
  simp only
  split
  · exact lastItems_suffix_of_suffix (by decide) hends
  · exact (lastItems_suffix _ _).trans hends

/-- The block's last line has the whole match, and the block ends with that line, as far as it
is allowed to be long. -/
def EndsWithMatch (stdout stderr : List Char) (maxLines : ℕ) (span : Span) : Prop :=
  ∃ line ∈ textLines (combinedOutput stdout stderr),
    line.start ≤ span.start ∧ span.stop ≤ line.stop ∧
    (errorLines (combinedOutput stdout stderr) maxLines).getLast? = some line ∧
    lastItems maxErrorBlockChars line.text <:+ extractErrorBlock stdout stderr maxLines

/-- The match has no newline, and no other separator than `\n` and `\r\n` stands before its last
character. -/
def Countable (text : List Char) (span : Span) : Prop :=
  '\n' ∉ (text.take span.stop).drop span.start ∧ loneEnds (text.take (span.stop - 1)) = 0

/-- The last of a stretch of lines. -/
lemma getLast_stretch {lines : List TextLine} {low high : ℕ} (hle : low ≤ high)
    (hhigh : high < lines.length) :
    ((lines.take (high + 1)).drop low).getLast? = lines[high]? := by
  rw [List.getLast?_drop, if_neg (by rw [List.length_take]; omega), List.getLast?_eq_getElem?,
    List.length_take, Nat.min_eq_left (by omega), Nat.add_sub_cancel,
    List.getElem?_take_of_lt (by omega)]

/-- Without a traceback, the block ends with the line of the last match of the first pattern
that has one exactly if newlines and lines count alike up to that match. -/
theorem extractErrorBlock_ends_iff (stdout stderr : List Char) (maxLines : ℕ) {span : Span}
    (htraceback : tracebackStarts 0 ((combinedOutput stdout stderr).splitOn '\n') = [])
    (hspan : lastFailure failurePatterns (combinedOutput stdout stderr) = some span) :
    EndsWithMatch stdout stderr maxLines span ↔ Countable (combinedOutput stdout stderr) span := by
  unfold EndsWithMatch Countable extractErrorBlock
  generalize combinedOutput stdout stderr = text at htraceback hspan
  obtain ⟨before, stretch, after, htext, hplace, hstart, hne, hlast⟩ :=
    (lastFailure_places hspan).split
  rw [Nat.zero_add] at hplace
  have hbefore : text.take span.start = before := by
    rw [htext, hplace, List.append_assoc, List.take_left]
  have hlines : errorLines text maxLines =
      ((textLines text).take (before.count '\n' + 1)).drop (before.count '\n' - 2) := by
    rw [errorLines, htraceback, List.getLast?_nil]
    simp only [hspan, hbefore]
  have hstretch : (text.take span.stop).drop span.start = stretch := by
    have hlength : before.length + stretch.length = (before ++ stretch).length := by simp
    rw [htext, hplace]
    simp only
    rw [hlength, List.take_left, List.drop_left]
  have hpos := List.length_pos_iff.mpr hne
  have hdrop : text.take (span.stop - 1) = (before ++ stretch).dropLast := by
    rw [htext, hplace, List.dropLast_eq_take, List.length_append]
    simp only
    rw [List.take_append_of_le_length (by rw [List.length_append]; omega)]
  rw [hstretch, hdrop, ← counted_line_iff hstart hne hlast after, ← htext]
  have hspans : span.start = before.length ∧ span.stop = before.length + stretch.length := by
    rw [hplace]
    exact ⟨rfl, rfl⟩
  have hindex : before.count '\n' < (textLines text).length := by
    rw [htext, List.append_assoc]
    exact count_lt_length hstart (by simp [hne])
  rw [hlines, getLast_stretch (by omega) hindex, hspans.1, hspans.2]
  constructor
  · rintro ⟨line, -, hbegin, hend, hline, -⟩
    exact ⟨line, hline, hbegin, hend⟩
  · rintro ⟨line, hline, hbegin, hend⟩
    refine ⟨line, List.mem_of_getElem? hline, hbegin, hend, hline, boundedLines_suffix ?_⟩
    rw [List.getLast?_map, getLast_stretch (by omega) hindex, hline]
    rfl

theorem extractErrorBlock_ends_sample :
    EndsWithMatch "one\r\nE AssertionError".toList [] 40 ⟨5, 21⟩ :=
  (extractErrorBlock_ends_iff _ _ 40 (by decide +kernel) (by decide +kernel)).mpr
    (by unfold Countable; decide +kernel)

/-- A form feed in the first line: the block stops before the assertion. -/
theorem error_block_points_elsewhere :
    tracebackStarts 0 ("a\x0cb\nAssertionError".toList.splitOn '\n') = [] ∧
      lastFailure failurePatterns "a\x0cb\nAssertionError".toList = some ⟨4, 18⟩ ∧
      extractErrorBlock "a\x0cb\nAssertionError".toList [] 40 = "a\nb".toList ∧
      ¬ EndsWithMatch "a\x0cb\nAssertionError".toList [] 40 ⟨4, 18⟩ := by
  refine ⟨by decide +kernel, by decide +kernel, by decide +kernel, ?_⟩
  unfold EndsWithMatch
  decide +kernel

end Places

end Imece.DecisionRuntime
