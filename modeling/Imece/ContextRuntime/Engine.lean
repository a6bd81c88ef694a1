import Imece.ContextRuntime.Scanner
import Imece.Lib.Intervals
import Mathlib.Data.List.Infix
import Mathlib.Algebra.GroupWithZero.Nat

/-!
# Excerpts for a query

The files of a snapshot are ranked by a query, and windows of their lines are cut out around the
symbols the query names and the lines it matches.
-/
namespace Imece.ContextRuntime

open Lib Workspace

/-- What a query is read as. -/
structure QueryAnalysis where
  terms : List (List Char)
  pathReferences : List (List Char)
  symbolReferences : List (List Char)
  terms_ne_nil : [] ∉ terms

structure RankedFile where
  file : RepositoryFile
  score : ℤ
  reasons : List String
  tier : ℕ
deriving DecidableEq, Repr

section Ranking

lemma lawfulBEq_term : LawfulBEq (List Char) := inferInstance

attribute [local instance] lawfulBEq_term

variable (casefold : List Char → List Char) (analysis : QueryAnalysis)

/-- The query names the symbol. -/
def referenced (symbol : RepositorySymbol) : Bool :=
  analysis.symbolReferences.contains (casefold symbol.name.toList) ||
    analysis.symbolReferences.contains (casefold symbol.qualifiedName.toList)

/-- The reasons for which a file is ranked, each with its tier. -/
def fileReasons (snapshot : RepositorySnapshot) (file : RepositoryFile) : List (ℕ × String) :=
  let path := casefold file.path.toList
  let name := casefold (pathName file.path.toList)
  let stem := casefold (pathStem file.path.toList)
  let content := casefold ((snapshot.contentByPath.lookup file.path).getD [])
  let symbolMatches := (snapshot.index.symbols.filter fun symbol => symbol.path = file.path).any
    (referenced casefold analysis)
  (if path ∈ analysis.pathReferences then [(5, "exact_path")] else []) ++
    (if symbolMatches then [(4, "symbol")] else []) ++
    (if name ∈ analysis.terms ∨ stem ∈ analysis.terms then [(3, "filename")] else []) ++
    (if analysis.terms.countP (fun term => decide (term <:+: path)) ≠ 0 then [(2, "path_term")]
      else []) ++
    (if (analysis.terms.map fun term => countText term 0 content).sum ≠ 0 then [(1, "content")]
      else [])

def rankFile (snapshot : RepositorySnapshot) (file : RepositoryFile) : Option RankedFile :=
  let content := casefold ((snapshot.contentByPath.lookup file.path).getD [])
  let pathMatches := analysis.terms.countP fun term =>
    decide (term <:+: casefold file.path.toList)
  let contentMatches := (analysis.terms.map fun term => countText term 0 content).sum
  let reasons := fileReasons casefold analysis snapshot file
  let tier := reasons.foldl (fun tier reason => max tier reason.1) 0
  if tier = 0 then none
  else
    let detail := min 999999 (pathMatches * 1000 + min contentMatches 999)
    some ⟨file, (tier * 1000000 + detail : ℕ), reasons.map (·.2), tier⟩

/-- The order of `(-tier, -score, path)`. -/
def rankedLe (a b : RankedFile) : Bool :=
  b.tier < a.tier || (a.tier == b.tier && (decide (b.score < a.score) ||
    (a.score == b.score && !(b.file.path < a.file.path : Bool))))

def rankFiles (snapshot : RepositorySnapshot) : List RankedFile :=
  (snapshot.index.files.filterMap (rankFile casefold analysis snapshot)).insertionSort
    fun a b => rankedLe a b = true

end Ranking

def maxCandidateSegments : ℕ := 256
def maxWindowsPerFile : ℕ := 16
def maxMatchLinesPerFile : ℕ := 64

def lowSignalTerms : List String :=
  ["a", "an", "and", "are", "as", "at", "be", "by", "for", "from", "in", "is", "it", "of", "on",
    "or", "please", "review", "the", "this", "to", "with"]

section Windows

/-- The lines around a line, among so many. -/
def windowAround (count line : ℕ) : ℕ × ℕ := (max 1 (line - 3), min count (line + 3))

/-- `_line_window` -/
def lineWindow (lines : List (List Char)) (found : List ℕ) : List (ℕ × ℕ) :=
  mergeIntervals (found.map (windowAround lines.length))

/-- The order of `(score, -number)`. -/
def candidateLe (a b : ℕ × ℕ) : Bool := a.1 < b.1 || (a.1 == b.1 && b.2 ≤ a.2)

/-- The heap of the best lines so far, the least of them first. -/
def keepBest (heap : List (ℕ × ℕ)) (candidate : ℕ × ℕ) : List (ℕ × ℕ) :=
  if heap.length < maxMatchLinesPerFile then
    heap.orderedInsert (fun a b => candidateLe a b = true) candidate
  else
    match heap with
    | [] => []
    | least :: rest =>
        if candidateLe candidate least then least :: rest
        else rest.orderedInsert (fun a b => candidateLe a b = true) candidate

/-- The lines in which a term occurs, each with how many do. -/
def candidates (casefold : List Char → List Char) (terms : List (List Char))
    (lines : List (List Char)) : List (ℕ × ℕ) :=
  ((lines.zipIdx 1).map fun line =>
    ((terms.map fun term => countText term 0 (casefold line.1)).sum, line.2)).filter
      fun candidate => candidate.1 ≠ 0

/-- `_best_lexical_lines` -/
def bestLexicalLines (casefold : List Char → List Char) (lines terms : List (List Char)) :
    List ℕ × Bool :=
  let highSignal := terms.filter fun term =>
    !lowSignalTerms.contains (String.ofList term) && 2 ≤ term.length
  let selected := if highSignal = [] then terms else highSignal
  if selected = [] then ([], false)
  else
    let found := candidates casefold selected lines
    (((found.foldl keepBest []).map (·.2)).insertionSort (· ≤ ·),
      decide (maxMatchLinesPerFile < found.length))

/-- The order of windows that puts those with an anchor first. -/
def anchoredLe (anchors : List ℕ) (a b : ℕ × ℕ) : Bool :=
  let holds (window : ℕ × ℕ) : Bool := anchors.any fun anchor => decide (Within anchor window)
  (holds a && !holds b) || (holds a == holds b && a.1 ≤ b.1)

/-- `_prioritized_windows` -/
def prioritizedWindows (lines : List (List Char)) (anchors lexical : List ℕ) :
    List (ℕ × ℕ) × Bool :=
  let merged := lineWindow lines (anchors ++ lexical)
  if merged.length ≤ maxWindowsPerFile then (merged, false)
  else
    let chosen := (merged.insertionSort fun a b => anchoredLe anchors a b = true).take
      maxWindowsPerFile
    (chosen.insertionSort pairLe, true)

end Windows

section Segments

variable (casefold : List Char → List Char) (analysis : QueryAnalysis) (maxSegmentChars : ℕ)

/-- The lines on which the symbols begin that the query names. -/
def anchorsOf (index : RepositoryIndex) (path : String) : List ℕ :=
  ((index.symbols.filter fun symbol => symbol.path = path).filter
    (referenced casefold analysis)).map (·.startLine)

/-- The lines a file is matched by, or its first line when it has neither match nor anchor. -/
def matchedLines (lines : List (List Char)) (anchors : List ℕ) : List ℕ × Bool :=
  let lexical := bestLexicalLines casefold lines analysis.terms
  (if lexical.1 = [] ∧ anchors = [] ∧ lines ≠ [] then [1] else lexical.1, lexical.2)

/-- The windows of a file, and whether a match or a window was left out. -/
def fileWindows (index : RepositoryIndex) (path : String) (lines : List (List Char)) :
    List (ℕ × ℕ) × Bool :=
  let anchors := anchorsOf casefold analysis index path
  let found := matchedLines casefold analysis lines anchors
  let windows := prioritizedWindows lines anchors found.1
  (windows.1, found.2 || windows.2)

def joinLines (lines : List (List Char)) : List Char := ['\n'].intercalate lines

/-- The lines of a window. -/
def windowLines (lines : List (List Char)) (first last : ℕ) : List (List Char) :=
  (lines.take last).drop (first - 1)

/-- The segment of a window, and whether its text was cut. -/
def windowSegment (entry : RankedFile) (lines : List (List Char)) (window : ℕ × ℕ) :
    ContextSegment × Bool :=
  let text := joinLines (windowLines lines window.1 window.2)
  if maxSegmentChars < text.length then
    let text := text.take maxSegmentChars
    (⟨entry.file.path, window.1, window.1 + text.count '\n', text, entry.score, entry.reasons,
      entry.file.contentSha256⟩, true)
  else
    (⟨entry.file.path, window.1, window.2, text, entry.score, entry.reasons,
      entry.file.contentSha256⟩, false)

/-- The loop variables of `_segments`; `full` once it has returned. -/
structure Collected where
  segments : List ContextSegment := []
  truncated : Bool := false
  full : Bool := false

def Collected.window (entry : RankedFile) (lines : List (List Char)) (collected : Collected)
    (window : ℕ × ℕ) : Except ContextValidationError Collected :=
  if collected.full then .ok collected
  else if maxCandidateSegments ≤ collected.segments.length then
    .ok { collected with truncated := true, full := true }
  else do
    let cut := windowSegment maxSegmentChars entry lines window
    let segment ← cut.1.check
    .ok { collected with
      segments := collected.segments ++ [segment]
      truncated := collected.truncated || cut.2 }

def Collected.file (snapshot : RepositorySnapshot) (collected : Collected) (entry : RankedFile) :
    Except ContextValidationError Collected :=
  if collected.full then .ok collected
  else
    match snapshot.contentByPath.lookup entry.file.path with
    | none => .ok collected
    | some content =>
        let lines := splitlines content
        let windows := fileWindows casefold analysis snapshot.index entry.file.path lines
        windows.1.foldlM (Collected.window maxSegmentChars entry lines)
          { collected with truncated := collected.truncated || windows.2 }

/-- The order of `(-score, path, start_line)`. -/
def segmentLe (a b : ContextSegment) : Bool :=
  decide (b.score < a.score) || (a.score == b.score && (a.path < b.path ||
    (a.path == b.path && a.startLine ≤ b.startLine)))

/-- `_segments` -/
def segments (snapshot : RepositorySnapshot) (ranked : List RankedFile) :
    Except ContextValidationError (List ContextSegment × Bool) := do
  let collected ← ranked.foldlM (Collected.file casefold analysis maxSegmentChars snapshot) {}
  .ok (collected.segments.insertionSort (fun a b => segmentLe a b = true), collected.truncated)

end Segments

end Imece.ContextRuntime
