import Mathlib.Data.List.Basic
import Mathlib.Data.Nat.Notation
import Mathlib.Tactic.Cases

/-!
# Lines of an open file

The lines that a file opened as text is iterated by, each with the newline that ends it, and the
place of a character by its line and its column.
-/
namespace Imece.Lib

/-- The lines of a text, where the line that is open began with `front`. -/
@[grind =] def fileLinesFrom (front : List Char) : List Char → List (List Char)
  | [] => if front = [] then [] else [front]
  | '\n' :: rest => (front ++ ['\n']) :: fileLinesFrom [] rest
  | c :: rest => fileLinesFrom (front ++ [c]) rest

/-- `list(fh)` of a file with this text. -/
def fileLines (text : List Char) : List (List Char) := fileLinesFrom [] text

/-- What the text has of the line that is open after it, which began with `front`. -/
@[grind =] def openLine (front : List Char) : List Char → List Char
  | [] => front
  | '\n' :: rest => openLine [] rest
  | c :: rest => openLine (front ++ [c]) rest

lemma openLine_suffix (front text : List Char) : openLine front text <:+ front ++ text := by
  fun_induction openLine front text with
  | case1 front => simp
  | case2 front rest ih =>
      refine ih.trans ?_
      exact ⟨front ++ ['\n'], by simp⟩
  | case3 front c rest hc ih => simpa using ih

/-- The newlines of a text close lines; what follows them goes on from the open one. -/
lemma fileLinesFrom_append (front before : List Char) :
    ∃ closed, closed.length = before.count '\n' ∧ ∀ after,
      fileLinesFrom front (before ++ after) =
        closed ++ fileLinesFrom (openLine front before) after := by
  fun_induction openLine front before with
  | case1 front => exact ⟨[], rfl, fun after => rfl⟩
  | case2 front rest ih =>
      obtain ⟨closed, hlength, hlines⟩ := ih
      refine ⟨(front ++ ['\n']) :: closed, ?_, ?_⟩
      · rw [List.length_cons, hlength, List.count_cons_self]
      · intro after
        rw [List.cons_append, fileLinesFrom, hlines, List.cons_append]
  | case3 front c rest hc ih =>
      obtain ⟨closed, hlength, hlines⟩ := ih
      refine ⟨closed, ?_, ?_⟩
      · rw [hlength, List.count_cons_of_ne hc]
      · intro after
        rw [List.cons_append, fileLinesFrom, hlines]
        exact hc

/-- The first line begins with what stands before the first newline. -/
lemma fileLinesFrom_first {front line : List Char} (hline : '\n' ∉ line)
    (hne : front ++ line ≠ []) (after : List Char) :
    ∃ more rest, fileLinesFrom front (line ++ after) = (front ++ line ++ more) :: rest := by
  induction line generalizing front with
  | nil =>
      rw [List.append_nil] at hne
      rw [List.nil_append, List.append_nil]
      fun_induction fileLinesFrom front after with
      | case1 => exact absurd rfl hne
      | case2 front _ => exact ⟨[], [], by rw [List.append_nil]⟩
      | case3 front rest _ => exact ⟨['\n'], _, rfl⟩
      | case4 front c rest _ ih =>
          obtain ⟨more, others, hlines⟩ := ih (by simp)
          exact ⟨c :: more, others, by rw [hlines]; simp⟩
  | cons c rest ih =>
      have hc : c ≠ '\n' := fun hc => hline (hc ▸ List.mem_cons_self)
      obtain ⟨more, others, hlines⟩ := @ih (front ++ [c])
        (fun hmem => hline (List.mem_cons_of_mem c hmem)) (by simp)
      refine ⟨more, others, ?_⟩
      rw [List.cons_append, fileLinesFrom, hlines]
      · simp
      · exact hc

/-- A closed line stands on its own. -/
lemma fileLinesFrom_line {line : List Char} (hline : '\n' ∉ line) (front after : List Char) :
    fileLinesFrom front (line ++ '\n' :: after) =
      (front ++ line ++ ['\n']) :: fileLinesFrom [] after := by
  induction line generalizing front with
  | nil => rw [List.nil_append, List.append_nil, fileLinesFrom]
  | cons c rest ih =>
      have hc : c ≠ '\n' := fun hc => hline (hc ▸ List.mem_cons_self)
      rw [List.cons_append, fileLinesFrom, ih fun hmem => hline (List.mem_cons_of_mem c hmem)]
      · simp
      · exact hc

/-- After a newline no line is open. -/
lemma openLine_closed {text : List Char} (h : text = [] ∨ text.getLast? = some '\n') :
    openLine [] text = [] := by
  rcases h with rfl | h
  · rfl
  · obtain ⟨front, rfl⟩ := List.getLast?_eq_some_iff.mp h
    have hclosed (front start : List Char) : openLine start (front ++ ['\n']) = [] := by
      fun_induction openLine start front with
      | case1 front => rfl
      | case2 front rest ih => exact ih
      | case3 front c rest hc ih =>
          rw [List.cons_append, openLine, ih]
          exact hc
    exact hclosed front []

lemma fileLines_append {text : List Char} (h : text = [] ∨ text.getLast? = some '\n')
    (after : List Char) : fileLines (text ++ after) = fileLines text ++ fileLines after := by
  obtain ⟨closed, _, hlines⟩ := fileLinesFrom_append [] text
  have htext := hlines []
  rw [List.append_nil, openLine_closed h] at htext
  rw [fileLines, fileLines, fileLines, hlines, htext, openLine_closed h]
  simp [fileLinesFrom]

/-- A text that ends its last line has as many lines as newlines. -/
lemma length_fileLines {text : List Char} (h : text = [] ∨ text.getLast? = some '\n') :
    (fileLines text).length = text.count '\n' := by
  obtain ⟨closed, hlength, hlines⟩ := fileLinesFrom_append [] text
  have htext := hlines []
  rw [List.append_nil, openLine_closed h] at htext
  rw [fileLines, htext, List.length_append, hlength]
  simp [fileLinesFrom]

/-- A line of a file has no newline before its end. -/
lemma fileLinesFrom_mem {front text line : List Char} (hfront : '\n' ∉ front)
    (h : line ∈ fileLinesFrom front text) : '\n' ∉ line ∨
      ∃ body, line = body ++ ['\n'] ∧ '\n' ∉ body := by
  fun_induction fileLinesFrom front text with
  | case1 => simp at h
  | case2 front _ =>
      rw [List.mem_singleton.mp h]
      exact Or.inl hfront
  | case3 front rest ih =>
      rcases List.mem_cons.mp h with rfl | h
      · exact Or.inr ⟨front, rfl, hfront⟩
      · exact ih List.not_mem_nil h
  | case4 front c rest hc ih =>
      apply ih _ h
      intro hmem
      rcases List.mem_append.mp hmem with hmem | hmem
      · exact hfront hmem
      · exact hc (List.mem_singleton.mp hmem).symm

lemma mem_of_mem_fileLinesFrom {front text line : List Char} {c : Char}
    (hline : line ∈ fileLinesFrom front text) (hc : c ∈ line) : c ∈ front ∨ c ∈ text := by
  fun_induction fileLinesFrom front text with
  | case1 => simp at hline
  | case2 front _ =>
      rw [List.mem_singleton.mp hline] at hc
      exact Or.inl hc
  | case3 front rest ih =>
      rcases List.mem_cons.mp hline with rfl | hline
      · rcases List.mem_append.mp hc with hc | hc
        · exact Or.inl hc
        · rw [List.mem_singleton.mp hc]
          exact Or.inr List.mem_cons_self
      · rcases ih hline with hc | hc
        · simp at hc
        · exact Or.inr (List.mem_cons_of_mem _ hc)
  | case4 front d rest _ ih =>
      rcases ih hline with hc | hc
      · rcases List.mem_append.mp hc with hc | hc
        · exact Or.inl hc
        · rw [List.mem_singleton.mp hc]
          exact Or.inr List.mem_cons_self
      · exact Or.inr (List.mem_cons_of_mem _ hc)

end Imece.Lib
