import Imece.Lib.TextLines
import Imece.Workspace.Base
import Mathlib.Algebra.GroupWithZero.Nat

/-!
# Reading a file page by page

`read_file` numbers the lines of a file from an offset on, up to a number of lines and a length of
the output, and says where to read on.
-/
namespace Imece.ToolRuntime

open Lib Workspace

def readDefaultLines : ℕ := 300
def readMaxOutputChars : ℕ := 64 * 1024
def readMaxLineChars : ℕ := 4000

/-- `sys.maxsize`: no string of Python is longer. -/
def maxTextLength : ℕ := 2 ^ 63 - 1

/-- Where a page lies in its file. -/
structure ReadWindow where
  startLine : ℕ
  endLine : Option ℕ
  truncated : Bool
  nextLine : Option ℕ
deriving DecidableEq, Repr

/-- A line of the output: its number, and the text up to the limit of a line. -/
def renderedLine (maxLine index : ℕ) (rawLine : List Char) : List Char :=
  Nat.toDigits 10 index ++ ':' :: ' ' :: rawLine.take maxLine

def joinLines (lines : List (List Char)) : List Char := ['\n'].intercalate lines

section Bounded

variable (maxOutput maxLine : ℕ)

/-- The loop of `_bounded_lines`: the lines of the output and whether something was cut. -/
def boundedLoop (index : ℕ) (outputLines : List (List Char)) (truncated : Bool) :
    List (List Char) → List (List Char) × Bool
  | [] => (outputLines, truncated)
  | rawLine :: rest =>
      let truncated := truncated || decide (maxLine < rawLine.length)
      let rendered := renderedLine maxLine index rawLine
      let candidate :=
        if outputLines = [] then rendered else joinLines (outputLines ++ [rendered])
      if maxOutput < candidate.length then (outputLines, true)
      else boundedLoop (index + 1) (outputLines ++ [rendered]) truncated rest

/-- `_bounded_lines`; the schema of the tool lets the offset begin at one. -/
def boundedLines (lines : List (List Char)) (offset limit : ℕ) : List Char × ReadWindow :=
  let selected := (lines.drop (offset - 1)).take limit
  let (outputLines, truncated) := boundedLoop maxOutput maxLine offset []
    (decide (offset - 1 + selected.length < lines.length)) selected
  let endLine := if outputLines = [] then none else some (offset + outputLines.length - 1)
  let nextLine := endLine.bind fun line => if line < lines.length then some (line + 1) else none
  (joinLines outputLines, ⟨offset, endLine, truncated, nextLine⟩)

end Bounded

/-- The arguments of `read_file`. -/
structure ReadFileArguments where
  path : String
  offset : Option ℕ := none
  limit : Option ℕ := none

/-- The observation of `read_file`. -/
structure ReadFilePage where
  path : String
  text : List Char
  window : ReadWindow

inductive ReadFileError (ε : Type) where
  | path (error : WorkspaceBoundaryError)
  | workspace (error : ε)
  | binary (message : String)

section Reading

variable {ε : Type} (readText : String → Except ε String)

def readTextContent (path : String) : Except (ReadFileError ε) String := do
  let content ← (readText path).mapError .workspace
  if content.toList.contains nul then throw (.binary s!"Binary-like NUL content: {path}")
  return content

/-- `_ReadFileExecutor.execute` -/
def readFile (arguments : ReadFileArguments) : Except (ReadFileError ε) ReadFilePage := do
  let path ← (normalizeWorkspaceRelativePath arguments.path).mapError .path
  let content ← readTextContent readText path
  let (text, window) := boundedLines readMaxOutputChars readMaxLineChars
    ((textLines content.toList).map TextLine.text) (arguments.offset.getD 1)
    (arguments.limit.getD readDefaultLines)
  return ⟨path, text, window⟩

/-- Reading on from an offset to the page that names no next line. -/
inductive Walk (read : ℕ → Except ε ReadFilePage) : ℕ → List ReadFilePage → Prop
  | last {offset : ℕ} {page : ReadFilePage} (h : read offset = .ok page)
      (hnext : page.window.nextLine = none) : Walk read offset [page]
  | more {offset next : ℕ} {page : ReadFilePage} {rest : List ReadFilePage}
      (h : read offset = .ok page) (hnext : page.window.nextLine = some next)
      (hrest : Walk read next rest) : Walk read offset (page :: rest)

end Reading

/-- The lines of a page's text. -/
def rows (text : List Char) : List (List Char) := if text = [] then [] else text.splitOn '\n'

/-- A page says that it is truncated exactly when lines are left after it or one of its lines was
cut. -/
def TellsTruncation (lines : List (List Char)) (page : ReadFilePage) : Prop :=
  page.window.truncated = true ↔
    page.window.startLine - 1 + (rows page.text).length < lines.length ∨
      ∃ line ∈ (lines.drop (page.window.startLine - 1)).take (rows page.text).length,
        readMaxLineChars < line.length

/-- The lines with their numbers from `index` on, each up to the limit of a line. -/
def numbered (maxLine : ℕ) (index : ℕ) : List (List Char) → List (List Char)
  | [] => []
  | line :: rest => renderedLine maxLine index line :: numbered maxLine (index + 1) rest

section Loop

variable {maxOutput maxLine : ℕ}

@[simp] lemma length_numbered (index : ℕ) (lines : List (List Char)) :
    (numbered maxLine index lines).length = lines.length := by
  induction lines generalizing index with
  | nil => rfl
  | cons line rest ih => rw [numbered, List.length_cons, List.length_cons, ih]

lemma numbered_append (index : ℕ) (lines more : List (List Char)) :
    numbered maxLine index (lines ++ more) =
      numbered maxLine index lines ++ numbered maxLine (index + lines.length) more := by
  induction lines generalizing index with
  | nil => rfl
  | cons line rest ih =>
      have hindex : index + (line :: rest).length = index + 1 + rest.length := by
        rw [List.length_cons]
        omega
      rw [List.cons_append, numbered, numbered, ih, hindex]
      rfl

/-- The loop outputs a first part of the lines, and notes whether it left or cut one. -/
lemma boundedLoop_spec (index : ℕ) (output : List (List Char)) (truncated : Bool)
    (lines : List (List Char)) :
    ∃ count, count ≤ lines.length ∧
      (boundedLoop maxOutput maxLine index output truncated lines).1 =
        output ++ numbered maxLine index (lines.take count) ∧
      ((boundedLoop maxOutput maxLine index output truncated lines).2 = true ↔
        truncated = true ∨ count < lines.length ∨
          ∃ line ∈ lines.take count, maxLine < line.length) := by
  induction lines generalizing index output truncated with
  | nil => exact ⟨0, Nat.le_refl 0, by simp [boundedLoop, numbered], by simp [boundedLoop]⟩
  | cons line rest ih =>
      rw [boundedLoop]
      by_cases hlong : maxOutput < (if output = [] then renderedLine maxLine index line
          else joinLines (output ++ [renderedLine maxLine index line])).length
      · simp only [hlong, if_true]
        exact ⟨0, Nat.zero_le _, by simp [numbered], by simp⟩
      · simp only [hlong, if_false]
        obtain ⟨count, hcount, hlines, htruncated⟩ := ih (index + 1)
          (output ++ [renderedLine maxLine index line])
          (truncated || decide (maxLine < line.length))
        refine ⟨count + 1, ?_, ?_, ?_⟩
        · rw [List.length_cons]
          omega
        · rw [hlines, List.take_succ_cons, numbered, List.append_assoc]
          rfl
        · rw [htruncated, List.take_succ_cons]
          simp only [Bool.or_eq_true, decide_eq_true_eq, List.length_cons, List.mem_cons,
            exists_eq_or_imp, Nat.add_lt_add_iff_right]
          tauto

/-- A first line that fits is output. -/
lemma boundedLoop_progress {index : ℕ} {truncated : Bool} {line : List Char}
    {rest : List (List Char)} (hfits : (renderedLine maxLine index line).length ≤ maxOutput) :
    (boundedLoop maxOutput maxLine index [] truncated (line :: rest)).1 ≠ [] := by
  rw [boundedLoop]
  simp only [if_true, Nat.not_lt.mpr hfits, if_false]
  obtain ⟨count, _, hlines, _⟩ := @boundedLoop_spec maxOutput maxLine (index + 1)
    ([] ++ [renderedLine maxLine index line]) (truncated || decide (maxLine < line.length)) rest
  rw [hlines]
  simp

/-- What a page of a file is that holds `count` lines from an offset on. -/
structure PageOf (maxLine : ℕ) (lines : List (List Char)) (offset count : ℕ)
    (page : List Char × ReadWindow) : Prop where
  text : page.1 = joinLines (numbered maxLine offset ((lines.drop (offset - 1)).take count))
  startLine : page.2.startLine = offset
  within : offset - 1 + count ≤ lines.length
  truncated : page.2.truncated = true ↔ offset - 1 + count < lines.length ∨
    ∃ line ∈ (lines.drop (offset - 1)).take count, maxLine < line.length
  nextLine : page.2.nextLine =
    if 0 < count ∧ offset - 1 + count < lines.length then some (offset + count) else none

lemma boundedLines_page {lines : List (List Char)} {offset limit : ℕ} (hoffset : 1 ≤ offset)
    (hwithin : offset - 1 ≤ lines.length) :
    ∃ count, PageOf maxLine lines offset count
        (boundedLines maxOutput maxLine lines offset limit) ∧
      (0 < limit → (∀ line ∈ lines[offset - 1]?, (renderedLine maxLine offset line).length ≤
        maxOutput) → offset ≤ lines.length → 0 < count) := by
  obtain ⟨count, hcount, houtput, htruncated⟩ := @boundedLoop_spec maxOutput maxLine offset []
    (decide (offset - 1 + ((lines.drop (offset - 1)).take limit).length < lines.length))
    ((lines.drop (offset - 1)).take limit)
  rw [List.nil_append] at houtput
  have hselected : count ≤ limit ∧ count ≤ lines.length - (offset - 1) := by
    rw [List.length_take, List.length_drop] at hcount
    omega
  have htake : ((lines.drop (offset - 1)).take limit).take count =
      (lines.drop (offset - 1)).take count := by
    rw [List.take_take, Nat.min_eq_left hselected.1]
  have hlength : (numbered maxLine offset ((lines.drop (offset - 1)).take count)).length =
      count := by
    rw [length_numbered, List.length_take, List.length_drop]
    omega
  have hnil : numbered maxLine offset ((lines.drop (offset - 1)).take count) = [] ↔ count = 0 := by
    rw [← List.length_eq_zero_iff, hlength]
  rw [htake] at houtput htruncated
  refine ⟨count, ⟨?_, rfl, ?_, ?_, ?_⟩, ?_⟩
  · rw [boundedLines]
    simp only [houtput]
  · omega
  · refine htruncated.trans ?_
    rw [← or_assoc]
    apply or_congr_left
    rw [decide_eq_true_eq, List.length_take, List.length_drop]
    omega
  · rw [boundedLines]
    simp only [houtput, hnil, hlength]
    by_cases hzero : count = 0
    · simp [hzero]
    · have hend : (offset + count - 1 < lines.length) ↔ (offset - 1 + count < lines.length) := by
        omega
      have hafter : offset + count - 1 + 1 = offset + count := by omega
      simp [hzero, hend, hafter, Nat.pos_of_ne_zero hzero]
  · intro hlimit hfits hinside
    have hlt : offset - 1 < lines.length := by omega
    obtain ⟨more, hmore⟩ : ∃ more, (lines.drop (offset - 1)).take limit =
        lines[offset - 1] :: more := by
      obtain ⟨n, rfl⟩ : ∃ n, limit = n + 1 := ⟨limit - 1, by omega⟩
      exact ⟨_, by rw [List.drop_eq_getElem_cons hlt, List.take_succ_cons]⟩
    have hfirst := hfits lines[offset - 1] (by simp [hlt])
    rw [hmore] at houtput
    by_contra hzero
    exact boundedLoop_progress hfirst (houtput.trans (hnil.mpr (by omega)))

end Loop

section Rows

lemma newline_not_mem_linesFrom {start : ℕ} {front text : List Char} (hfront : '\n' ∉ front)
    {line : TextLine} (h : line ∈ linesFrom start front text) : '\n' ∉ line.text := by
  fun_induction linesFrom start front text with
  | case1 => simp at h
  | case2 =>
      rw [List.mem_singleton.mp h]
      exact hfront
  | case3 start front rest ih =>
      rcases List.mem_cons.mp h with rfl | h
      · exact hfront
      · exact ih List.not_mem_nil h
  | case4 start front c rest _ hend ih =>
      rcases List.mem_cons.mp h with rfl | h
      · exact hfront
      · exact ih List.not_mem_nil h
  | case5 start front c rest _ hend ih =>
      apply ih _ h
      intro hmem
      rcases List.mem_append.mp hmem with hmem | hmem
      · exact hfront hmem
      · rw [← List.mem_singleton.mp hmem] at hend
        exact hend isLineEnd_newline

lemma length_linesFrom_le (start : ℕ) (front text : List Char) :
    (linesFrom start front text).length ≤ front.length + text.length := by
  fun_induction linesFrom start front text with
  | case1 => simp
  | case2 start front hfront =>
      have := List.length_pos_iff.mpr hfront
      simp only [List.length_singleton, List.length_nil]
      omega
  | case3 start front rest ih =>
      simp only [List.length_cons, List.length_nil] at ih ⊢
      omega
  | case4 start front c rest _ hend ih =>
      simp only [List.length_cons, List.length_nil] at ih ⊢
      omega
  | case5 start front c rest _ hend ih =>
      simp only [List.length_append, List.length_cons, List.length_nil] at ih ⊢
      omega

lemma newline_not_mem_renderedLine {maxLine index : ℕ} {line : List Char} (h : '\n' ∉ line) :
    '\n' ∉ renderedLine maxLine index line := by
  intro hmem
  rcases List.mem_append.mp hmem with hmem | hmem
  · have hdigit := Nat.isDigit_of_mem_toDigits (by omega) (by omega) hmem
    exact absurd hdigit (by decide)
  · simp only [List.mem_cons] at hmem
    rcases hmem with hmem | hmem | hmem
    · exact absurd hmem (by decide)
    · exact absurd hmem (by decide)
    · exact h (List.mem_of_mem_take hmem)

/-- A page's text gives its lines back. -/
lemma rows_joinLines {maxLine index : ℕ} {lines : List (List Char)}
    (h : ∀ line ∈ lines, '\n' ∉ line) :
    rows (joinLines (numbered maxLine index lines)) = numbered maxLine index lines := by
  have hnumbered : ∀ row ∈ numbered maxLine index lines, '\n' ∉ row := by
    induction lines generalizing index with
    | nil => simp [numbered]
    | cons line rest ih =>
        intro row hrow
        rw [numbered] at hrow
        rcases List.mem_cons.mp hrow with rfl | hrow
        · exact newline_not_mem_renderedLine (h line List.mem_cons_self)
        · exact ih (fun line hline => h line (List.mem_cons_of_mem _ hline)) row hrow
  cases lines with
  | nil => rfl
  | cons line rest =>
      have hne : joinLines (numbered maxLine index (line :: rest)) ≠ [] := by
        rw [joinLines, numbered]
        cases numbered maxLine (index + 1) rest <;> simp [List.intercalate, renderedLine]
      rw [rows, if_neg hne, joinLines, List.splitOn_intercalate]
      · exact hnumbered
      · simp [numbered]

/-- The number of a line of a text is short enough for every line to fit. -/
lemma renderedLine_fits {index : ℕ} (hindex : index ≤ maxTextLength) (line : List Char) :
    (renderedLine readMaxLineChars index line).length ≤ readMaxOutputChars := by
  have hdigits : (Nat.toDigits 10 index).length ≤ 19 := by
    rw [Nat.length_toDigits_le_iff (by omega) (by omega)]
    unfold maxTextLength at hindex
    omega
  rw [renderedLine, List.length_append, List.length_cons, List.length_cons, List.length_take]
  unfold readMaxLineChars readMaxOutputChars
  omega

end Rows

section Pages

variable {ε : Type} {readText : String → Except ε String} {path normal content : String}

lemma readFile_eq (hpath : normalizeWorkspaceRelativePath path = .ok normal)
    (hread : readText normal = .ok content) (hnul : nul ∉ content.toList) (offset : ℕ)
    (limit : Option ℕ) :
    readFile readText ⟨path, some offset, limit⟩ =
      let page := boundedLines readMaxOutputChars readMaxLineChars
        ((textLines content.toList).map TextLine.text) offset (limit.getD readDefaultLines)
      .ok ⟨normal, page.1, page.2⟩ := by
  have hcontent : readTextContent readText normal = .ok content := by
    rw [readTextContent, hread]
    simp [hnul, Except.mapError, bind, Except.bind, pure, Except.pure]
  rw [readFile, hpath]
  simp only [Except.mapError, bind, Except.bind, hcontent, Option.getD_some]
  rfl

/-- The pages of a file from a line on: each goes on where the one before it stopped. -/
lemma walk_from {lines : List (List Char)} {read : ℕ → Except ε ReadFilePage} {limit : ℕ}
    (hread : ∀ offset, ∃ page : ReadFilePage, read offset = .ok page ∧
      (page.text, page.window) =
        boundedLines readMaxOutputChars readMaxLineChars lines offset limit)
    (hlimit : 0 < limit) (hsize : lines.length ≤ maxTextLength)
    (hlines : ∀ line ∈ lines, '\n' ∉ line) (offset : ℕ) (hoffset : 1 ≤ offset)
    (hwithin : offset - 1 ≤ lines.length) :
    ∃ pages, Walk read offset pages ∧
      pages.flatMap (fun page => rows page.text) =
        numbered readMaxLineChars offset (lines.drop (offset - 1)) ∧
      ∀ page ∈ pages, TellsTruncation lines page := by
  -- the induction is on the number of lines that are left
  induction hleft : lines.length - (offset - 1) using Nat.strongRecOn
    generalizing offset with
  | ind left ih =>
      obtain ⟨page, hpage, hbounded⟩ := hread offset
      obtain ⟨count, hof, hprogress⟩ := @boundedLines_page readMaxOutputChars readMaxLineChars lines
        offset limit hoffset hwithin
      rw [← hbounded] at hof
      have hpositive : offset ≤ lines.length → 0 < count := by
        intro hinside
        exact hprogress hlimit (fun line _ => renderedLine_fits (by omega) line) hinside
      have hpart : ∀ line ∈ (lines.drop (offset - 1)).take count, '\n' ∉ line := by
        intro line hline
        exact hlines line (List.mem_of_mem_drop (List.mem_of_mem_take hline))
      have hrows : rows page.text =
          numbered readMaxLineChars offset ((lines.drop (offset - 1)).take count) := by
        have htext : page.text = _ := hof.text
        rw [htext, rows_joinLines hpart]
      have htake : ((lines.drop (offset - 1)).take count).length = count := by
        have := hof.within
        rw [List.length_take, List.length_drop]
        omega
      have hcut : TellsTruncation lines page := by
        have hstart : page.window.startLine = offset := hof.startLine
        rw [TellsTruncation, hrows, length_numbered, htake, hstart]
        exact hof.truncated
      have hnext : page.window.nextLine = _ := hof.nextLine
      by_cases hmore : 0 < count ∧ offset - 1 + count < lines.length
      · rw [if_pos hmore] at hnext
        obtain ⟨pages, hwalk, hflat, htruncated⟩ := ih (lines.length - (offset + count - 1))
          (by omega) (offset + count) (by omega) (by omega) rfl
        have hdrop : lines.drop (offset + count - 1) = (lines.drop (offset - 1)).drop count := by
          rw [List.drop_drop]
          congr 1
          omega
        refine ⟨page :: pages, .more hpage hnext hwalk, ?_, ?_⟩
        · rw [List.flatMap_cons, hrows, hflat, hdrop]
          conv_rhs => rw [← List.take_append_drop count (lines.drop (offset - 1))]
          rw [numbered_append, htake]
        · intro other hother
          rcases List.mem_cons.mp hother with rfl | hother
          · exact hcut
          · exact htruncated other hother
      · rw [if_neg hmore] at hnext
        have hall : (lines.drop (offset - 1)).take count = lines.drop (offset - 1) := by
          apply List.take_of_length_le
          rw [List.length_drop]
          omega
        refine ⟨[page], .last hpage hnext, ?_, ?_⟩
        · rw [List.flatMap_singleton, hrows, hall]
        · intro other hother
          rw [List.mem_singleton.mp hother]
          exact hcut

/-- Reading a text file on from its first line ends, and gives each of its lines once, in order,
with its number and its text up to the limit of a line. -/
theorem readFile_pages {limit : Option ℕ} (hlimit : ∀ n ∈ limit, 1 ≤ n)
    (hpath : normalizeWorkspaceRelativePath path = .ok normal)
    (hread : readText normal = .ok content) (hnul : nul ∉ content.toList)
    (hsize : content.length ≤ maxTextLength) :
    let lines := (textLines content.toList).map TextLine.text
    ∃ pages, Walk (fun offset => readFile readText ⟨path, some offset, limit⟩) 1 pages ∧
      pages.flatMap (fun page => rows page.text) = numbered readMaxLineChars 1 lines ∧
      ∀ page ∈ pages, TellsTruncation lines page := by
  intro lines
  have hpositive : 0 < limit.getD readDefaultLines := by
    cases limit with
    | none => decide
    | some n => exact hlimit n rfl
  have hcount : lines.length ≤ maxTextLength := by
    have hlength := length_linesFrom_le 0 [] content.toList
    rw [List.length_nil, Nat.zero_add, String.length_toList] at hlength
    rw [List.length_map]
    exact Nat.le_trans hlength hsize
  have hlines : ∀ line ∈ lines, '\n' ∉ line := by
    intro line hline
    obtain ⟨place, hplace, rfl⟩ := List.mem_map.mp hline
    exact newline_not_mem_linesFrom List.not_mem_nil hplace
  have hpages (offset : ℕ) : ∃ page : ReadFilePage,
      readFile readText ⟨path, some offset, limit⟩ = .ok page ∧ (page.text, page.window) =
        boundedLines readMaxOutputChars readMaxLineChars lines offset
          (limit.getD readDefaultLines) := by
    rw [readFile_eq hpath hread hnul]
    exact ⟨_, rfl, rfl⟩
  obtain ⟨pages, hwalk, hflat, htruncated⟩ :=
    walk_from hpages hpositive hcount hlines 1 (Nat.le_refl 1) (Nat.zero_le _)
  exact ⟨pages, hwalk, hflat, htruncated⟩

/-- Two lines in two pages. -/
theorem readFile_pages_sample :
    ∃ pages, Walk (fun offset => readFile (fun _ => (.ok "one\ntwo" : Except Unit String))
        ⟨"notes", some offset, some 1⟩) 1 pages ∧
      pages.flatMap (fun page => rows page.text) = ["1: one".toList, "2: two".toList] ∧
      ∀ page ∈ pages, TellsTruncation ["one".toList, "two".toList] page := by
  have hlines : (textLines "one\ntwo".toList).map TextLine.text =
      ["one".toList, "two".toList] := by decide +kernel
  have hnumbered : numbered readMaxLineChars 1 ["one".toList, "two".toList] =
      ["1: one".toList, "2: two".toList] := by decide +kernel
  have hpages := @readFile_pages Unit (fun _ => .ok "one\ntwo") "notes" "notes" "one\ntwo" (some 1)
    (by simp) (by decide +kernel) rfl (by decide +kernel) (by decide +kernel)
  rw [hlines] at hpages
  rw [← hnumbered]
  exact hpages

end Pages

end Imece.ToolRuntime
