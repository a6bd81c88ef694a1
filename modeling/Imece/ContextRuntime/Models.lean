import Imece.Lib.Transaction
import Imece.Workspace.Base
import Mathlib.Data.Int.Notation

/-!
# Files, symbols and segments of a repository

The records of a repository's context and what each of them checks when it is built.
-/
namespace Imece.ContextRuntime

open Lib Workspace

/-- The message of a `ContextValidationError`. -/
structure ContextValidationError where
  message : String
deriving DecidableEq, Repr

def nonEmpty (value field : String) (limit : ℕ) : Except ContextValidationError Unit :=
  if value = "" ∨ limit < value.length ∨ nul ∈ value.toList then
    .error ⟨field ++ " must be a non-empty bounded NUL-free string."⟩
  else .ok ()

def repositoryPath (value field : String) : Except ContextValidationError Unit :=
  match normalizeWorkspaceRelativePath value with
  | .error _ => .error ⟨field ++ " must be a normalized workspace-relative file path."⟩
  | .ok normalized =>
      if normalized ≠ value then
        .error ⟨field ++ " must already be normalized with forward slashes."⟩
      else .ok ()

/-- `[0-9a-f]{64}` -/
def isSha256 (value : String) : Bool :=
  value.length = 64 && value.toList.all fun c => c.isDigit || ('a' ≤ c && c ≤ 'f')

def sha256 (value field : String) : Except ContextValidationError Unit :=
  if isSha256 value then .ok () else .error ⟨field ++ " must be a lowercase SHA-256 hex digest."⟩

structure RepositoryFile where
  path : String
  language : String
  charCount : ℕ
  lineCount : ℕ
  contentSha256 : String
deriving DecidableEq, Repr

def RepositoryFile.check (file : RepositoryFile) : Except ContextValidationError RepositoryFile := do
  repositoryPath file.path "RepositoryFile.path"
  nonEmpty file.language "RepositoryFile.language" 256
  sha256 file.contentSha256 "RepositoryFile.content_sha256"
  .ok file

structure RepositorySymbol where
  path : String
  name : String
  qualifiedName : String
  kind : String
  startLine : ℕ
  endLine : ℕ
deriving DecidableEq, Repr

def RepositorySymbol.check (symbol : RepositorySymbol) :
    Except ContextValidationError RepositorySymbol := do
  nonEmpty symbol.path "RepositorySymbol.path" 1024
  nonEmpty symbol.name "RepositorySymbol.name" 1024
  nonEmpty symbol.qualifiedName "RepositorySymbol.qualified_name" 1024
  nonEmpty symbol.kind "RepositorySymbol.kind" 1024
  repositoryPath symbol.path "RepositorySymbol.path"
  if symbol.startLine < 1 ∨ symbol.endLine < symbol.startLine then
    .error ⟨"RepositorySymbol line range is invalid."⟩
  else .ok symbol

structure ContextSegment where
  path : String
  startLine : ℕ
  endLine : ℕ
  text : List Char
  score : ℤ
  reasons : List String
  contentSha256 : String
deriving DecidableEq, Repr

def ContextSegment.check (segment : ContextSegment) :
    Except ContextValidationError ContextSegment := do
  repositoryPath segment.path "ContextSegment.path"
  if segment.startLine < 1 ∨ segment.endLine < segment.startLine then
    .error ⟨"ContextSegment line range is invalid."⟩
  else if nul ∈ segment.text then .error ⟨"ContextSegment.text must be NUL-free text."⟩
  else if "" ∈ segment.reasons then
    .error ⟨"ContextSegment.reasons must be non-empty strings."⟩
  else do
    sha256 segment.contentSha256 "ContextSegment.content_sha256"
    .ok segment

/-- A path is checked by whether its normal form is itself; the field only names it. -/
lemma repositoryPath_field {value : String} (field other : String)
    (h : repositoryPath value field = .ok ()) : repositoryPath value other = .ok () := by
  rw [repositoryPath] at h ⊢
  cases hnormal : normalizeWorkspaceRelativePath value with
  | error e => rw [hnormal] at h; cases h
  | ok normalized =>
      rw [hnormal] at h
      by_cases hne : normalized ≠ value
      · simp [hne] at h
      · simp [hne]

lemma sha256_field {value : String} (field other : String) (h : sha256 value field = .ok ()) :
    sha256 value other = .ok () := by
  rw [sha256] at h ⊢
  by_cases hvalue : isSha256 value = true
  · simp [hvalue]
  · simp [hvalue] at h

/-- What the checks of a file say of a segment of it. -/
theorem RepositoryFile.check_ok {file built : RepositoryFile} (h : file.check = .ok built) :
    built = file ∧ repositoryPath file.path "ContextSegment.path" = .ok () ∧
      sha256 file.contentSha256 "ContextSegment.content_sha256" = .ok () := by
  simp only [RepositoryFile.check, except_bind_eq_ok] at h
  obtain ⟨_, hpath, _, -, _, hsha, hbuilt⟩ := h
  cases hbuilt
  exact ⟨rfl, repositoryPath_field _ _ hpath, sha256_field _ _ hsha⟩

/-- The checks return what they were given. -/
theorem RepositorySymbol.check_ok {symbol built : RepositorySymbol}
    (h : symbol.check = .ok built) : built = symbol := by
  simp only [RepositorySymbol.check, except_bind_eq_ok] at h
  obtain ⟨_, -, _, -, _, -, _, -, _, -, hrange⟩ := h
  by_cases hvalid : symbol.startLine < 1 ∨ symbol.endLine < symbol.startLine
  · rw [if_pos hvalid] at hrange
    cases hrange
  · rw [if_neg hvalid] at hrange
    cases hrange
    rfl

theorem ContextSegment.check_eq {segment : ContextSegment}
    (hpath : repositoryPath segment.path "ContextSegment.path" = .ok ())
    (hsha : sha256 segment.contentSha256 "ContextSegment.content_sha256" = .ok ())
    (hrange : 1 ≤ segment.startLine ∧ segment.startLine ≤ segment.endLine)
    (htext : nul ∉ segment.text) (hreasons : "" ∉ segment.reasons) :
    segment.check = .ok segment := by
  have hvalid : ¬ (segment.startLine < 1 ∨ segment.endLine < segment.startLine) := by omega
  rw [ContextSegment.check, hpath, if_neg hvalid, if_neg htext, if_neg hreasons, hsha]
  rfl

end Imece.ContextRuntime
