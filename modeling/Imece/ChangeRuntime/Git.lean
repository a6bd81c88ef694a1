import Imece.ChangeRuntime.Rendering
import Imece.Lib.Transaction
import Mathlib.Data.List.Sort
import Mathlib.Data.String.Basic

/-!
# Change capture

The difference between the snapshot commit and the worktree as it is now. The
baseline is read from Git objects, the current side directly from disk.
-/
namespace Imece.ChangeRuntime

open Lib Workspace

inductive CaptureError where
  /-- `ChangeCaptureError`: a path leads out of the workspace or through a link. -/
  | boundary (path : String) (reason : WorkspaceBoundaryError)
  /-- A link target that is not UTF-8 cannot be encoded. -/
  | unicodeEncode (path : String)
  /-- `ChangeInputError` of the change set. -/
  | changeInput
deriving DecidableEq, Repr

/-- The captured difference, with its paths in order. -/
structure WorkspaceChangeSet where
  diff : String
  changedPaths : List String
  diffSha256 : String

/-- `_validated_path`. -/
def validatedPath (value : String) : Except CaptureError String :=
  match normalizeWorkspaceRelativePath value with
  | .error _ => .error .changeInput
  | .ok normalized => if normalized ≠ value then .error .changeInput else .ok normalized

section Capture

variable {Raw : Type} [DecidableEq Raw] (host : Host Raw)

def WorkspaceChangeSet.new (diff : String) (changedPaths : List String) :
    Except CaptureError WorkspaceChangeSet :=
  if diff.toList.contains nul then .error .changeInput
  else match changedPaths.mapM validatedPath with
    | .error e => .error e
    | .ok paths =>
        if ¬paths.Nodup then .error .changeInput
        else if paths.insertionSort (· ≤ ·) ≠ paths then .error .changeInput
        else .ok { diff, changedPaths := paths, diffSha256 := host.sha256 (host.encode diff) }

/-- `_ls_tree_baseline`: modes and object ids by decoded path. -/
def lsTreeBaseline (baseline : GitTree Raw) : AList fun _ : String => GitMode × String :=
  baseline.entries.foldl (fun entries entry => entries.insert (host.pathText entry.1) entry.2) ∅

/-- `_current_file_mode`: any executable bit. -/
def currentFileMode (mode : ℕ) : GitMode :=
  if mode &&& 0o111 ≠ 0 then .executable else .regular

/-- `_decode_text`: strict UTF-8 without a NUL. -/
def decodeText (data : Raw) : Option String :=
  let text := host.decode data
  if host.encode text = data ∧ text.toList.contains nul = false then some text
  else none

def fileSide (mode : GitMode) (data : Raw) : Side Raw where
  kind := some .file
  mode := some mode
  text := decodeText host data
  bytes := some data

def symlinkSide (target : String) : Side Raw where
  kind := some .symlink
  mode := some .symlink
  target := some target

variable {host}

/-- `_current_side`: the side, and the bytes its object id is computed from. -/
def currentSide (tree : WorkTree host) (path : String) :
    Except CaptureError (Side Raw × Option Raw) :=
  match lexicalParts path with
  | .error reason => .error (.boundary path reason)
  | .ok parts =>
      match tree.nodes.find (parts.map host.encode) with
      | .behindLink => .error (.boundary path .symlink)
      | .node (.link target) =>
          let text := host.decode target
          if host.encode text = target then .ok (symlinkSide text, some (host.encode text))
          else .error (.unicodeEncode path)
      | .node (.file mode data) => .ok (fileSide host (currentFileMode mode) data, some data)
      | .node .dir | .node .other | .absent => .ok ({}, none)

variable (host)

def baselineSide (mode : GitMode) (sha : String) : Side Raw :=
  if mode = .symlink then symlinkSide (host.decode (host.blob sha))
  else fileSide host mode (host.blob sha)

def sidesExactlyEqual (a b : Side Raw) : Bool :=
  if a.kind ≠ b.kind ∨ a.mode ≠ b.mode then false
  else match a.kind with
    | some .symlink => a.target == b.target
    | some .file => a.bytes == b.bytes
    | none => true

/-- Whether a tracked path that is still there counts as unchanged. The object id is
a shortcut only where it agrees. -/
def unchanged (mode : GitMode) (sha : String) (current : Side Raw) (currentBytes : Option Raw) : Bool :=
  (some mode == current.mode && currentBytes.map host.oid == some sha) ||
    sidesExactlyEqual (baselineSide host mode sha) current

/-- One turn of the loop of `capture`: the block of a changed path. -/
def capturePath {host : Host Raw} (tracked : AList fun _ : String => GitMode × String)
    (tree : WorkTree host) (path : String) : Except CaptureError (Option (String × String)) := do
  let (current, currentBytes) ← currentSide tree path
  let baseline : Side Raw :=
    match tracked.lookup path with
    | some (mode, sha) => baselineSide host mode sha
    | none => {}
  let same : Bool :=
    match tracked.lookup path with
    | some (mode, sha) => current.kind.isSome && unchanged host mode sha current currentBytes
    | none => false
  let block := renderPair host path baseline current
  return if same ∨ block = "" then none else some (path, block)

/-- `sorted(set(tracked) | untracked)`. -/
def allPaths (host : Host Raw) (tracked : AList fun _ : String => GitMode × String)
    (untracked : List (List Raw)) : List String :=
  (tracked.keys ++ untracked.map host.pathText).dedup.insertionSort (· ≤ ·)

/-- `GitWorktreeChangeProvider.capture`. Untracked files are listed against the
worktree's own index, which is still the source HEAD. -/
def capture {host : Host Raw} (workspace : GitWorktreeWorkspace host) (tree : WorkTree host) :
    Except CaptureError WorkspaceChangeSet := do
  let baseline := writeSyntheticSnapshot workspace.sourceHead workspace.overlaid
  let tracked := lsTreeBaseline host baseline
  let untracked := lsFilesOthers workspace.sourceHead.keys tree
  let blocks ← (allPaths host tracked untracked).mapM (capturePath tracked tree)
  let changes := blocks.filterMap id
  WorkspaceChangeSet.new host (joinLines (changes.map (·.2))) (changes.map (·.1))

end Capture

end Imece.ChangeRuntime
