import Imece.Lib.FileTree
import Imece.Workspace.Base
import Mathlib.Data.List.Dedup

/-!
# The isolated worktree

A linked worktree is checked out at the source HEAD, the user's working state is
laid over it, and the result is frozen as a synthetic snapshot through a private
index. The worktree's own index is not touched: it stays at the source HEAD. Which
files the overlay leaves is not restricted here.
-/
namespace Imece.Workspace

open Lib

/-- The modes of the blobs in a Git tree. -/
inductive GitMode where
  | regular
  | executable
  | symlink
deriving DecidableEq, Repr

def GitMode.text : GitMode → String
  | regular => "100644"
  | executable => "100755"
  | symlink => "120000"

/-- What the program asks of Git, of the text encoding and of the system it runs on.
File names, link targets and file contents are byte strings `Raw`. -/
structure Host (Raw : Type) where
  /-- `raw.decode("utf-8", errors="replace")`. -/
  decode : Raw → String
  /-- `text.encode("utf-8")`. -/
  encode : String → Raw
  decode_encode : ∀ text, decode (encode text) = text
  /-- `git hash-object -w`, and `git cat-file -p` of what it stored. -/
  oid : Raw → String
  blob : String → Raw
  blob_oid : ∀ raw, blob (oid raw) = raw
  sha256 : Raw → String
  sha256_hex : ∀ raw, ∀ c ∈ (sha256 raw).toList, c.isAlphanum
  size : Raw → ℕ
  /-- `os.name == "nt"`. -/
  nt : Bool
  /-- What `--exclude-standard` excludes, from the ignore files of the tree itself. -/
  ignored : FileTree Raw Raw → List Raw → Bool

/-- The entries of a Git tree or index: modes and object ids. -/
abbrev GitTree (Raw : Type) := AList fun _ : List Raw => GitMode × String

/-- A name a file system can have. Git's own directory is not part of any tree. -/
def legalName (name : String) : Bool :=
  name ≠ "" && name ≠ "." && name ≠ ".." && !isGitDir name && !name.toList.contains '/' &&
    !name.toList.contains nul

namespace Host

variable {Raw : Type} (host : Host Raw)

def legalPath (path : List Raw) : Bool :=
  !path.isEmpty && path.all fun name => legalName (host.decode name)

/-- A link target holds no NUL either. -/
def legalNode : Node Raw → Bool
  | .link target => !(host.decode target).toList.contains nul
  | _ => true

/-- A path as the text Git's output is decoded to. -/
def pathText (path : List Raw) : String := joinParts (path.map host.decode)

/-- Valid UTF-8, which the text stands for without loss. -/
def Valid (raw : Raw) : Prop := host.encode (host.decode raw) = raw

end Host

/-- The files of a worktree. `beyond` is what the system finds at a path that leads
through a link. -/
structure WorkTree {Raw : Type} [DecidableEq Raw] (host : Host Raw) where
  nodes : FileTree Raw Raw
  beyond : List Raw → Option (Node Raw)
  legal : ∀ entry ∈ nodes.entries, host.legalPath entry.1 && host.legalNode entry.2
  beyondLegal : ∀ path, (beyond path).all host.legalNode

/-- A worktree at its creation. -/
structure GitWorktreeWorkspace {Raw : Type} [DecidableEq Raw] (host : Host Raw) where
  sourceHead : GitTree Raw
  headLegal : ∀ path ∈ sourceHead.keys, host.legalPath path
  overlaid : WorkTree host

section Worktree

variable {Raw : Type} [DecidableEq Raw] {host : Host Raw}

namespace WorkTree

/-- What `stat` without following the last link finds. -/
def seen (tree : WorkTree host) (path : List Raw) : Option (Node Raw) :=
  match tree.nodes.find path with
  | .node node => some node
  | .absent => none
  | .behindLink => tree.beyond path

theorem seen_of_find {tree : WorkTree host} {path : List Raw} {node : Node Raw}
    (h : tree.nodes.find path = .node node) : tree.seen path = some node := by
  rw [seen, h]

lemma legal_of_find {tree : WorkTree host} {path : List Raw} {node : Node Raw}
    (h : tree.nodes.find path = .node node) :
    host.legalPath path = true ∧ host.legalNode node = true := by
  have hentry := tree.legal ⟨path, node⟩
    (AList.mem_lookup_iff.mp (FileTree.lookup_of_find h))
  simpa only [Bool.and_eq_true] using hentry

end WorkTree

/-- `git ls-files --others --exclude-standard` against an index. -/
def lsFilesOthers (index : List (List Raw)) (tree : WorkTree host) : List (List Raw) :=
  tree.nodes.keys.filter fun path =>
    (tree.nodes.leaf? path).isSome && !host.ignored tree.nodes path && path ∉ index

theorem mem_lsFilesOthers {index : List (List Raw)} {tree : WorkTree host} {path : List Raw} :
    path ∈ lsFilesOthers index tree ↔
      (tree.nodes.leaf? path).isSome ∧ host.ignored tree.nodes path = false ∧
        path ∉ index := by
  simp only [lsFilesOthers, List.mem_filter, Bool.and_eq_true, Bool.not_eq_true',
    decide_eq_true_eq]
  constructor
  · rintro ⟨-, ⟨hleaf, hignored⟩, hindex⟩
    exact ⟨hleaf, hignored, hindex⟩
  · rintro ⟨hleaf, hignored, hindex⟩
    obtain ⟨node, hnode⟩ := Option.isSome_iff_exists.mp hleaf
    exact ⟨FileTree.mem_keys_of_find (FileTree.leaf?_eq_some.mp hnode).1,
      ⟨hleaf, hignored⟩, hindex⟩

/-- The mode a regular file is frozen with: on POSIX by the owner's executable bit,
on NT the tracked mode. -/
def gitMode (host : Host Raw) (original : Option GitMode) (mode : ℕ) : GitMode :=
  if host.nt then original.getD .regular
  else if mode &&& 0o100 ≠ 0 then .executable
  else .regular

/-- The mode and bytes a node is frozen with; directories and special files are not. -/
def materialized (host : Host Raw) (original : Option GitMode) :
    Node Raw → Option (GitMode × Raw)
  | .link target => some (.symlink, target)
  | .file mode bytes => some (gitMode host original mode, bytes)
  | .dir | .other => none

/-- `original_modes`. -/
def originalMode (head : GitTree Raw) (path : List Raw) : Option GitMode :=
  (head.lookup path).map (·.1)

/-- One path of the private index: removed, or set to the raw blob on disk. -/
def snapshotStep (head : GitTree Raw) (tree : WorkTree host) (index : GitTree Raw)
    (path : List Raw) : GitTree Raw :=
  match (tree.seen path).bind (materialized host (originalMode head path)) with
  | none => index.erase path
  | some (mode, raw) => index.insert path (mode, host.oid raw)

/-- `_write_synthetic_snapshot`, as the tree it writes. -/
def writeSyntheticSnapshot (head : GitTree Raw) (tree : WorkTree host) : GitTree Raw :=
  (head.keys ++ lsFilesOthers head.keys tree).dedup.foldl (snapshotStep head tree) head

/-- The Git-visible working state: what a tracked path, or one that is neither tracked
nor ignored, is on disk. -/
def visible (head : GitTree Raw) (tree : WorkTree host) (path : List Raw) :
    Option (GitMode × Raw) :=
  if path ∈ head then (tree.seen path).bind (materialized host (originalMode head path))
  else if host.ignored tree.nodes path then none
  else (tree.nodes.leaf? path).bind (materialized host none)

section Snapshot

variable {head : GitTree Raw} {tree : WorkTree host}

lemma lookup_snapshotStep (index : GitTree Raw) (path other : List Raw) :
    (snapshotStep head tree index path).lookup other =
      if other = path then
        ((tree.seen path).bind (materialized host (originalMode head path))).map
          fun entry => (entry.1, host.oid entry.2)
      else index.lookup other := by
  unfold snapshotStep
  split
  · rename_i hnone
    split
    · rename_i hother
      rw [hother, AList.lookup_erase, hnone]
      rfl
    · rename_i hother
      rw [AList.lookup_erase_ne hother]
  · rename_i mode raw hsome
    split
    · rename_i hother
      rw [hother, AList.lookup_insert, hsome]
      rfl
    · rename_i hother
      rw [AList.lookup_insert_ne hother]

lemma lookup_foldl_snapshotStep (paths : List (List Raw)) (index : GitTree Raw)
    (path : List Raw) :
    (paths.foldl (snapshotStep head tree) index).lookup path =
      if path ∈ paths then
        ((tree.seen path).bind (materialized host (originalMode head path))).map
          fun entry => (entry.1, host.oid entry.2)
      else index.lookup path := by
  induction paths generalizing index with
  | nil => rfl
  | cons first rest ih =>
      rw [List.foldl_cons, ih, lookup_snapshotStep]
      by_cases hrest : path ∈ rest
      · simp [hrest]
      · by_cases hfirst : path = first
        · simp [hfirst]
        · simp [hrest, hfirst]

/-- The snapshot holds the Git-visible working state, and nothing else. -/
theorem lookup_writeSyntheticSnapshot (path : List Raw) :
    (writeSyntheticSnapshot head tree).lookup path =
      (visible head tree path).map fun entry => (entry.1, host.oid entry.2) := by
  rw [writeSyntheticSnapshot, lookup_foldl_snapshotStep]
  simp only [List.mem_dedup, List.mem_append, mem_lsFilesOthers, ← AList.mem_keys]
  unfold visible
  by_cases htracked : path ∈ head
  · rw [if_pos (Or.inl htracked), if_pos htracked]
  · have habsent : head.lookup path = none := AList.lookup_eq_none.mpr htracked
    rw [if_neg htracked]
    cases hignored : host.ignored tree.nodes path with
    | true => simp [htracked, habsent]
    | false =>
        cases hleaf : tree.nodes.leaf? path with
        | none => simp [htracked, habsent]
        | some node =>
            have hfind := (FileTree.leaf?_eq_some.mp hleaf).1
            simp [htracked, WorkTree.seen_of_find hfind, originalMode, habsent]

end Snapshot

end Worktree

end Imece.Workspace
