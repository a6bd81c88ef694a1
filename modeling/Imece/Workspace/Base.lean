import Imece.Lib.Text

/-!
# Workspace-relative paths

The lexical checks every path of a workspace goes through. Backslashes count as
slashes; a path is never resolved past `..`, and `.git` is out of reach.
-/
namespace Imece.Workspace

open Lib

/-- Why a path is refused. -/
inductive WorkspaceBoundaryError where
  | empty
  | nul
  | absolute
  | expandable
  | parent
  | gitDir
  | symlink
deriving DecidableEq, Repr

/-- `raw.replace("\\", "/")`, as characters. -/
def slashed (raw : String) : List Char := raw.toList.map fun c => if c = '\\' then '/' else c

/-- The parts between the slashes, without `""` and `"."`. -/
def pathParts (raw : String) : List String :=
  (((slashed raw).splitOn '/').map String.ofList).filter fun part => part ≠ "" && part ≠ "."

/-- `_looks_absolute`: a leading slash, or a Windows drive. -/
def looksAbsolute (raw : String) : Bool :=
  match slashed raw with
  | '/' :: _ => true
  | c :: ':' :: _ => c.isAlpha
  | _ => false

/-- `part.casefold() == ".git"`. -/
def isGitDir (part : String) : Bool := part.toList.map Char.toLower == ".git".toList

def isIdentChar (c : Char) : Bool := c.isAlphanum || c == '_'

/-- `^\$[A-Za-z_][A-Za-z0-9_]*(?:/|$)`; the `$` also matches before a final newline. -/
def isEnvPath : List Char → Bool
  | '$' :: c :: rest =>
      (c.isAlpha || c == '_') &&
        match rest.dropWhile isIdentChar with
        | [] => true
        | '/' :: _ => true
        | rest => rest == ['\n']
  | _ => false

/-- What a shell would expand: a home directory or a variable in front. -/
def isExpandable (raw : String) : Bool :=
  match slashed raw with
  | ['~'] => true
  | '~' :: '/' :: _ => true
  | chars => isEnvPath chars

def joinParts (parts : List String) : String := "/".intercalate parts

/-- The terminator of a C string: no file name, link target or change set holds one. -/
def nul : Char := Char.ofNat 0

/-- `normalize_workspace_relative_path` of a path other than the root. -/
def normalizeWorkspaceRelativePath (raw : String) : Except WorkspaceBoundaryError String :=
  if raw.toList.contains nul then .error .nul
  else if looksAbsolute raw then .error .absolute
  else if isExpandable raw then .error .expandable
  else if (pathParts raw).contains ".." then .error .parent
  else if (pathParts raw).any isGitDir then .error .gitDir
  else if (pathParts raw).isEmpty then .error .empty
  else .ok (joinParts (pathParts raw))

/-- The lexical half of `resolve_within_workspace`. -/
def lexicalParts (path : String) : Except WorkspaceBoundaryError (List String) :=
  if path = "" then .error .empty
  else if looksAbsolute path then .error .absolute
  else if (pathParts path).isEmpty then .error .empty
  else if (pathParts path).contains ".." then .error .parent
  else if (pathParts path).any isGitDir then .error .gitDir
  else .ok (pathParts path)

/-- A name that stands for itself in a path: not one of the special ones, and
without a character the path syntax reads. -/
structure PlainName (name : String) : Prop where
  nonempty : name ≠ ""
  dot : name ≠ "."
  parent : name ≠ ".."
  gitDir : isGitDir name = false
  slash : Avoids '/' name
  backslash : Avoids '\\' name
  nul : Avoids nul name

/-- A path of plain names. -/
structure PlainPath (parts : List String) : Prop where
  nonempty : parts ≠ []
  names : ∀ name ∈ parts, PlainName name

section Plain

variable {parts : List String}

lemma PlainPath.slashed (h : PlainPath parts) :
    slashed (joinParts parts) = ['/'].intercalate (parts.map String.toList) := by
  have hback : Avoids '\\' (joinParts parts) :=
    avoids_intercalate (by decide) fun name hname => (h.names name hname).backslash
  have hmap : Workspace.slashed (joinParts parts) = (joinParts parts).toList.map id := by
    refine List.map_congr_left fun c hc => if_neg ?_
    rintro rfl
    exact hback hc
  rw [hmap, List.map_id, joinParts, String.toList_intercalate]
  rfl

/-- Joining plain parts and taking them apart again. -/
theorem PlainPath.pathParts (h : PlainPath parts) : pathParts (joinParts parts) = parts := by
  rw [Workspace.pathParts, h.slashed, List.splitOn_intercalate, List.map_map]
  · have hid : parts.map (String.ofList ∘ String.toList) = parts := by
      simp
    rw [hid, List.filter_eq_self]
    intro name hname
    simp [(h.names name hname).nonempty, (h.names name hname).dot]
  · intro chars hchars
    obtain ⟨name, hname, rfl⟩ := List.mem_map.mp hchars
    exact (h.names name hname).slash
  · simpa using h.nonempty

lemma PlainPath.not_parent (h : PlainPath parts) : parts.contains ".." = false := by
  rw [Bool.eq_false_iff, ne_eq, List.contains_iff_mem]
  exact fun hmem => (h.names _ hmem).parent rfl

lemma PlainPath.not_gitDir (h : PlainPath parts) : parts.any isGitDir = false := by
  rw [List.any_eq_false]
  exact fun name hname => by simp [(h.names name hname).gitDir]

lemma PlainPath.not_isEmpty (h : PlainPath parts) : parts.isEmpty = false := by
  simpa using h.nonempty

lemma PlainPath.joined_ne_empty (h : PlainPath parts) : joinParts parts ≠ "" := by
  intro hempty
  have hparts := h.pathParts
  rw [hempty] at hparts
  exact h.nonempty (hparts.symm.trans (by decide))

lemma PlainPath.no_nul (h : PlainPath parts) :
    (joinParts parts).toList.contains nul = false := by
  rw [Bool.eq_false_iff, ne_eq, List.contains_iff_mem]
  exact avoids_intercalate (by decide) fun name hname => (h.names name hname).nul

/-- What the workspace makes of a plain path: refused only for its beginning. -/
theorem PlainPath.lexicalParts (h : PlainPath parts) :
    lexicalParts (joinParts parts) =
      if looksAbsolute (joinParts parts) then .error .absolute else .ok parts := by
  rw [Workspace.lexicalParts, if_neg h.joined_ne_empty, h.pathParts, h.not_isEmpty,
    h.not_parent, h.not_gitDir]
  simp

theorem PlainPath.normalize (h : PlainPath parts) :
    normalizeWorkspaceRelativePath (joinParts parts) =
      if looksAbsolute (joinParts parts) then .error .absolute
      else if isExpandable (joinParts parts) then .error .expandable
      else .ok (joinParts parts) := by
  rw [normalizeWorkspaceRelativePath, h.no_nul, h.pathParts, h.not_isEmpty, h.not_parent,
    h.not_gitDir]
  simp

end Plain

end Imece.Workspace
