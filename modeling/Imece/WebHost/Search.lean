import Imece.Lib.FileLines
import Imece.Lib.Json
import Imece.Lib.Text
import Imece.WebHost.FileTexts
import Mathlib.Data.List.DropRight

/-!
# Searching a project

The matches of a query come from the lines that ripgrep prints or, without it, from a scan of the
files. What the first says of a match is its byte column, between colons.
-/
namespace Imece.WebHost.Search

open Lib

def maxResults : ℕ := 2000
def batchSize : ℕ := 80

structure SearchMatch where
  path : List Char
  line : ℤ
  col : ℤ
  preview : List Char
deriving DecidableEq, Repr

/-- What a worker emits: its batches, and what it says at the end. -/
structure SearchRun where
  results : List (List SearchMatch)
  done : ℕ × Bool
deriving DecidableEq, Repr

/-- The matches so far. -/
structure Tally where
  total : ℕ := 0
  batch : List SearchMatch := []
  results : List (List SearchMatch) := []

def Tally.add (tally : Tally) (found : SearchMatch) : Tally :=
  let batch := tally.batch ++ [found]
  if batchSize ≤ batch.length then ⟨tally.total + 1, [], tally.results ++ [batch]⟩
  else ⟨tally.total + 1, batch, tally.results⟩

def Tally.finish (tally : Tally) (limitHit : Bool) : SearchRun :=
  ⟨if tally.batch = [] then tally.results else tally.results ++ [tally.batch],
    (tally.total, limitHit)⟩

/-- The run whose loop raised: `run` catches every exception, and the last batch is lost. -/
def Tally.failed (tally : Tally) : SearchRun := ⟨tally.results, (0, false)⟩

section Texts

def strip (text : List Char) : List Char := (text.dropWhile isSpaceChar).rdropWhile isSpaceChar

/-- `text.split(":", n)` -/
@[grind =] def splitColons : ℕ → List Char → List (List Char)
  | 0, text => [text]
  | n + 1, text =>
      if ':' ∈ text then
        text.takeWhile (· ≠ ':') :: splitColons n ((text.dropWhile (· ≠ ':')).drop 1)
      else [text]

/-- The decimal values of the characters, which `int` reads as digits. -/
structure Decimals where
  value : Char → Option ℕ
  ascii : ∀ c : Char, c.isDigit = true → value c = some (c.toNat - '0'.toNat)

variable (decimals : Decimals)

/-- Digits with at most one underscore between two of them. -/
def intDigits : List Char → Option (List ℕ)
  | [] => none
  | c :: rest =>
      match decimals.value c with
      | none => none
      | some digit =>
          match rest with
          | [] => some [digit]
          | '_' :: rest => (intDigits rest).map (digit :: ·)
          | rest => (intDigits rest).map (digit :: ·)

def natOf (text : List Char) : Option ℕ :=
  match intDigits decimals text with
  | none => none
  | some digits =>
      if Json.maxIntDigits < digits.length then none
      else some (digits.foldl (fun value digit => 10 * value + digit) 0)

/-- `int(text)`; none is its `ValueError`. -/
def intOf (text : List Char) : Option ℤ :=
  match strip text with
  | '-' :: rest => (natOf decimals rest).map fun n => -(n : ℤ)
  | '+' :: rest => (natOf decimals rest).map fun n => (n : ℤ)
  | rest => (natOf decimals rest).map fun n => (n : ℤ)

end Texts

def preview (text : List Char) : List Char := (strip text).take 240

section Ripgrep

/-- What the loop of `_run_rg` makes of a line. -/
inductive Parsed where
  | skip
  | raises
  | found (found : SearchMatch)
deriving DecidableEq, Repr

/-- `path.replace("\\", "/").lstrip("./")` -/
def reportedPath (path : List Char) : List Char :=
  (path.map fun c => if c = '\\' then '/' else c).dropWhile fun c => c = '.' || c = '/'

variable (decimals : Decimals)

@[grind =] def parseLine (raw : List Char) : Parsed :=
  match splitColons 3 (raw.rdropWhile (· = '\n')) with
  | [path, line, col, text] =>
      match intOf decimals line, intOf decimals col with
      | some line, some col => .found ⟨reportedPath path, line, col, preview text⟩
      | _, _ => .raises
  | _ => .skip

/-- The loop of `_run_rg`; `cancelled` says at which of its turns it sees the flag. -/
def rgLoop (cancelled : ℕ → Bool) : ℕ → Tally → List (List Char) → SearchRun
  | _, tally, [] => tally.finish false
  | turn, tally, raw :: rest =>
      if cancelled turn then tally.finish false
      else
        match parseLine decimals raw with
        | .skip => rgLoop cancelled (turn + 1) tally rest
        | .raises => tally.failed
        | .found found =>
            let tally := tally.add found
            if maxResults ≤ tally.total then tally.finish true
            else rgLoop cancelled (turn + 1) tally rest

/-- `_run_rg` over what the tool prints. -/
def runRg (cancelled : ℕ → Bool) (stdout : List UInt8) : SearchRun :=
  rgLoop decimals cancelled 0 {} (fileLines (Project.fileText stdout))

end Ripgrep

section Scan

/-- Why a file cannot be read: an `OSError`, or an exception of another class. -/
inductive ReadFault where
  | os
  | other

variable (search : List Char → Option ℕ) (read : List Char → Except ReadFault (List UInt8))

/-- The loop over the lines of a file: the first match of each, up to the limit. -/
def fileLoop (rel : List Char) : ℕ → Tally → List (List Char) → Tally × Bool
  | _, tally, [] => (tally, false)
  | lineno, tally, text :: rest =>
      match search text with
      | none => fileLoop rel (lineno + 1) tally rest
      | some start =>
          let tally := tally.add ⟨rel, lineno, start + 1, preview text⟩
          if maxResults ≤ tally.total then (tally, true)
          else fileLoop rel (lineno + 1) tally rest

def pythonLoop (cancelled : ℕ → Bool) : ℕ → Tally → List (List Char) → SearchRun
  | _, tally, [] => tally.finish false
  | turn, tally, rel :: rest =>
      if cancelled turn then tally.finish false
      else
        match read rel with
        | .error .os => pythonLoop cancelled (turn + 1) tally rest
        | .error .other => tally.failed
        | .ok bytes =>
            let (tally, limitHit) := fileLoop search rel 1 tally (fileLines (Project.fileText bytes))
            if limitHit then tally.finish true
            else pythonLoop cancelled (turn + 1) tally rest

/-- `_run_python` over the files that the project lists. -/
def runPython (cancelled : ℕ → Bool) (files : List (List Char)) : SearchRun :=
  pythonLoop search read cancelled 0 {} files

end Scan

/-- Which characters of a text a query's match: equality, or equality up to case. -/
structure Letters where
  same : Char → Char → Bool
  lineEnds : ∀ c d, same c d = true → (c = '\r' ↔ d = '\r') ∧ (c = '\n' ↔ d = '\n')

/-- Whether the text begins with a literal query. -/
def Letters.begins (letters : Letters) : List Char → List Char → Bool
  | [], _ => true
  | _ :: _, [] => false
  | q :: query, c :: text => letters.same q c && letters.begins query text

/-- `re.search(re.escape(query), text)`, where it starts. -/
def Letters.search (letters : Letters) (query : List Char) : List Char → Option ℕ
  | [] => if letters.begins query [] then some 0 else none
  | c :: text =>
      if letters.begins query (c :: text) then some 0
      else (letters.search query text).map (· + 1)

section Places

variable (letters : Letters) (query : List Char)
variable (read : List Char → Except ReadFault (List UInt8))

/-- The query stands at a column of a line of a file. -/
def Occurs (path : List Char) (line col : ℤ) : Prop :=
  ∃ bytes text, read path = .ok bytes ∧ 0 < line ∧ 0 < col ∧
    (fileLines (Project.fileText bytes))[line.toNat - 1]? = some text ∧
    letters.begins query (text.drop (col.toNat - 1)) = true

/-- No file is larger than what an offset in it can be. -/
def maxFileSize : ℕ := 2 ^ 63 - 1

/-- A match that ripgrep reports: it stands in a line of a text file, after `before`. Of the line
it prints `text`. -/
structure RgMatch where
  path : List Char
  before : List Char
  rest : List Char
  text : List Char
  opened : read path = .ok (Utf8.encode (before ++ rest))
  bounded : (Utf8.encode (before ++ rest)).length ≤ maxFileSize
  nonempty : query ≠ []
  oneLine : '\n' ∉ query
  begins : letters.begins query rest = true
  textLine : '\n' ∉ text

end Places

/-- The returns of a text that no newline follows. -/
@[grind =] def loneReturns : List Char → ℕ
  | [] => 0
  | '\r' :: '\n' :: rest => loneReturns rest
  | c :: rest => (if c = '\r' then 1 else 0) + loneReturns rest

namespace RgMatch

variable {letters : Letters} {query : List Char}
variable {read : List Char → Except ReadFault (List UInt8)} (found : RgMatch letters query read)

/-- The line of the match, as the tool counts it. -/
def line : ℕ := found.before.count '\n' + 1

/-- The column of the match in bytes. -/
def column : ℕ := (Utf8.encode (openLine [] found.before)).length + 1

/-- What the tool prints of the match: `path:line:column:text`. -/
def printed : List Char :=
  '.' :: '/' :: (found.path ++ ':' :: (Nat.toDigits 10 found.line ++ ':' ::
    (Nat.toDigits 10 found.column ++ ':' :: (found.text ++ ['\n']))))

/-- The line of the match among those of the open file, and its column in characters. -/
def fileLine : ℕ := (Project.universalNewlines found.before).count '\n' + 1

def fileColumn : ℕ := (openLine [] (Project.universalNewlines found.before)).length + 1

/-- What the loop makes of the lines that are printed of the match. -/
def outcomes (decimals : Decimals) : List Parsed :=
  ((fileLines (Project.universalNewlines found.printed)).map (parseLine decimals)).filter
    (· ≠ .skip)

/-- The match is reported once, by its file, its line and its column, and there it stands. -/
def Reported (decimals : Decimals) : Prop :=
  (∃ preview, found.outcomes decimals =
    [.found ⟨found.path, found.fileLine, found.fileColumn, preview⟩]) ∧
  Occurs letters query read found.path found.fileLine found.fileColumn

/-- The scan in Python reports of the line the column of the match. -/
def Scanned : Prop :=
  ∃ bytes text, read found.path = .ok bytes ∧
    (fileLines (Project.fileText bytes))[found.fileLine - 1]? = some text ∧
    letters.search query text = some (found.fileColumn - 1)

/-- The query stands in the line nowhere before the match. -/
def Leads : Prop :=
  ∀ col, Occurs letters query read found.path found.fileLine col → (found.fileColumn : ℤ) ≤ col

/-- What the parse of a printed line takes for granted. -/
structure Readable : Prop where
  path : ∀ c ∈ found.path, c ≠ ':' ∧ c ≠ '\\' ∧ c ≠ '\n' ∧ c ≠ '\r'
  head : ∀ c ∈ found.path.head?, c ≠ '.' ∧ c ≠ '/'
  returns : loneReturns found.before = 0
  query : '\r' ∉ query
  ascii : ∀ c ∈ openLine [] found.before, c.toNat < 128
  pieces : ∀ piece ∈ (fileLines (Project.universalNewlines (found.text ++ ['\n']))).tail,
    piece.count ':' < 3

end RgMatch

/-- What the tool prints of its matches. -/
def vimgrep {letters : Letters} {query : List Char}
    {read : List Char → Except ReadFault (List UInt8)} (found : List (RgMatch letters query read)) :
    List UInt8 := Utf8.encode (found.flatMap RgMatch.printed)

end Imece.WebHost.Search
