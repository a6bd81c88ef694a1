import Imece.Lib.LinkReach
import Imece.Lib.Utf8
import Imece.Lib.Text

/-!
# Files of a project

The file operations of a project. A path is confined to the root by its text alone, and the system
then follows the links that stand on it.
-/
namespace Imece

open Lib Lib.LinkTree

/-- A program on a tree of files. -/
abbrev Disk (α : Type) : Type := Os (List UInt8) α

/-- The root, as `os.path.abspath` gives it. -/
structure Project where
  root : List String
  plain : ∀ name ∈ root, name ≠ "" ∧ name ≠ "." ∧ name ≠ ".."

namespace Project

/-- `os.path.normpath`, from a directory. -/
def normpath (start parts : List String) : List String :=
  parts.foldl (fun path part =>
    if part = "" ∨ part = "." then path
    else if part = ".." then path.dropLast
    else path ++ [part]) start

/-- The parts between the slashes of a path. -/
def slashParts (path : String) : List String := (path.toList.splitOn '/').map String.ofList

/-- `os.path.abspath(os.path.join(root, rel))` -/
def joined (root : List String) (rel : String) : List String :=
  if rel.toList.head? = some '/' then normpath [] (slashParts rel)
  else normpath root (slashParts rel)

/-- `os.path.relpath(path, root)`, in parts. -/
def relpath (path root : List String) : List String :=
  let path := normpath [] path
  let common := ((path.zip root).takeWhile fun (a, b) => a = b).length
  let parts := List.replicate (root.length - common) ".." ++ path.drop common
  if parts = [] then ["."] else parts

/-- `rel.replace("\\", "/")` -/
def slashed (rel : String) : String := rel.map fun c => if c = '\\' then '/' else c

/-- What a file opened as text makes of the ends of its lines. -/
@[grind =] def universalNewlines : List Char → List Char
  | '\r' :: '\n' :: rest => '\n' :: universalNewlines rest
  | '\r' :: rest => '\n' :: universalNewlines rest
  | c :: rest => c :: universalNewlines rest
  | [] => []

def maxReadChars : ℕ := 20000

/-- The text of a file, as `open(p, encoding="utf-8", errors="replace")` reads it. -/
def fileText (bytes : List UInt8) : List Char := universalNewlines (Utf8.decodeReplace bytes)

variable (project : Project)

/-- The check of an absolute path. -/
def within (path : List String) : Disk (List String) :=
  if project.root <+: path then pure path else Os.throw .value

/-- `_safe` -/
def safe (rel : String) : Disk (List String) := project.within (joined project.root rel)

def readFile (rel : String) : Disk (List Char) := do
  let p ← project.safe rel
  let content ← Os.readFile p
  return (fileText content).take maxReadChars

/-- `p + ".bak"` -/
def backupPath (p : List String) : List String := p.dropLast ++ [p.getLastD "" ++ ".bak"]

/-- The text that `apply` writes: the new one, with a newline at its end. -/
def ended (newContent : List Char) : List Char :=
  if newContent.getLast? = some '\n' then newContent else newContent ++ ['\n']

def apply (rel : String) (newContent : List Char) (backup : Bool) : Disk Unit := do
  let p ← project.safe rel
  Os.makedirs true p.dropLast.reverse
  if backup && (← Os.tree).isfile p then Os.copy2 p (backupPath p)
  Os.writeFile p (Utf8.encode (ended newContent))

def createFile (rel : String) : Disk String := do
  let p ← project.safe rel
  if (← Os.tree).pathExists p then Os.throw .fileExists
  else
    Os.makedirs true p.dropLast.reverse
    Os.writeFile p []
    return slashed rel

def createFolder (rel : String) : Disk String := do
  let p ← project.safe rel
  if (← Os.tree).pathExists p then Os.throw .fileExists
  else
    Os.makedirs false p.reverse
    return slashed rel

/-- The path of the result of `rename` and `move`. -/
def shown (dst : List String) : String := slashed ("/".intercalate (relpath dst project.root))

def rename (rel newName : String) : Disk String :=
  if newName = "" ∨ '/' ∈ newName.toList ∨ '\\' ∈ newName.toList then Os.throw .value
  else do
    let src ← project.safe rel
    if !(← Os.tree).pathExists src then Os.throw .fileNotFound
    else
      let dst := src.dropLast ++ [newName]
      let _ ← project.within (normpath project.root (relpath dst project.root))
      if (← Os.tree).pathExists dst then Os.throw .fileExists
      else
        Os.rename src dst
        return project.shown dst

/-- The directory that `move` moves to. -/
def dstDir (newDir : String) : Disk (List String) :=
  if newDir ≠ "" then project.safe newDir else pure project.root

/-- `move`, once it knows its source and its directory. -/
def moveInto (src dstDir : List String) (rel : String) : Disk String := do
  if !(← Os.tree).isdir dstDir then Os.throw .notADirectory
  else if (← Os.tree).isdir src && decide (src <+: dstDir) then Os.throw .value
  else
    let dst := dstDir ++ [src.getLastD ""]
    if normpath [] dst = src then return slashed rel
    else if (← Os.tree).pathExists dst then Os.throw .fileExists
    else
      Os.rename src dst
      return project.shown dst

def move (rel newDir : String) : Disk String := do
  let src ← project.safe rel
  if !(← Os.tree).pathExists src then Os.throw .fileNotFound
  else
    let dstDir ← project.dstDir newDir
    project.moveInto src dstDir rel

def delete (rel : String) : Disk Unit := do
  let p ← project.safe rel
  if (← Os.tree).isdir p then Os.rmtree p
  else if (← Os.tree).pathExists p then Os.removeEntry p
  else Os.throw .fileNotFound

/-- A file operation with its arguments. -/
inductive Call where
  | readFile (rel : String)
  | apply (rel : String) (newContent : List Char) (backup : Bool)
  | createFile (rel : String)
  | createFolder (rel : String)
  | rename (rel newName : String)
  | move (rel newDir : String)
  | delete (rel : String)

/-- What an operation does to a tree. -/
def effects (tree : LinkTree (List UInt8)) : Call → List OsEffect
  | .readFile rel => (project.readFile rel tree).effects
  | .apply rel newContent backup => (project.apply rel newContent backup tree).effects
  | .createFile rel => (project.createFile rel tree).effects
  | .createFolder rel => (project.createFolder rel tree).effects
  | .rename rel newName => (project.rename rel newName tree).effects
  | .move rel newDir => (project.move rel newDir tree).effects
  | .delete rel => (project.delete rel tree).effects

/-- What a move asks of the place it takes an entry from and the place it brings it to. -/
def MovesInside (root : Loc) : Option (Loc × Loc) → Prop
  | none => True
  | some (loc, loc') => root <+: loc ∧ root <+: loc' ∧ loc ≠ root

/-- The paths of a call lead to places inside the root, which stands at `real`, with the links of
the tree before the call; and an entry that is taken away is not the root. -/
def StaysInside (tree : LinkTree (List UInt8)) (real : Loc) : Call → Prop
  | .readFile rel =>
      let p := joined project.root rel
      project.root <+: p → ∀ loc ∈ tree.opened p, real <+: loc
  | .apply rel _ backup =>
      let p := joined project.root rel
      project.root <+: p →
        ∀ loc ∈ if backup && tree.isfile p then tree.copied p (backupPath p) else tree.madeFile p,
          real <+: loc
  | .createFile rel =>
      let p := joined project.root rel
      project.root <+: p → tree.pathExists p = false → ∀ loc ∈ tree.madeFile p, real <+: loc
  | .createFolder rel =>
      let p := joined project.root rel
      project.root <+: p → tree.pathExists p = false →
        ∀ loc ∈ (tree.missing p.reverse).1, real <+: loc
  | .rename rel newName =>
      let src := joined project.root rel
      let dst := src.dropLast ++ [newName]
      newName ≠ "" → '/' ∉ newName.toList → '\\' ∉ newName.toList → project.root <+: src →
        tree.pathExists src = true →
        project.root <+: normpath project.root (relpath dst project.root) →
        tree.pathExists dst = false → MovesInside real (tree.renamed src dst)
  | .move rel newDir =>
      let src := joined project.root rel
      let dstDir := if newDir ≠ "" then joined project.root newDir else project.root
      let dst := dstDir ++ [src.getLastD ""]
      project.root <+: src → tree.pathExists src = true → project.root <+: dstDir →
        tree.isdir dstDir = true → ¬ (tree.isdir src = true ∧ src <+: dstDir) →
        normpath [] dst ≠ src → tree.pathExists dst = false →
        MovesInside real (tree.renamed src dst)
  | .delete rel =>
      let p := joined project.root rel
      project.root <+: p →
        ∀ loc, (if tree.isdir p then tree.cleared p
          else if tree.pathExists p then tree.removed p else none) = some loc →
          real <+: loc ∧ loc ≠ real

section Confinement

variable {project : Project} {tree : LinkTree (List UInt8)}

lemma normpath_plain {start : List String} (parts : List String)
    (h : ∀ name ∈ start, name ≠ "" ∧ name ≠ "." ∧ name ≠ "..") :
    ∀ name ∈ normpath start parts, name ≠ "" ∧ name ≠ "." ∧ name ≠ ".." := by
  induction parts generalizing start with
  | nil => exact h
  | cons part parts ih =>
      rw [normpath, List.foldl_cons]
      apply ih
      by_cases hskip : part = "" ∨ part = "."
      · rw [if_pos hskip]
        exact h
      · rw [if_neg hskip]
        by_cases hparent : part = ".."
        · rw [if_pos hparent]
          exact fun name hname => h name (List.dropLast_subset start hname)
        · rw [if_neg hparent]
          intro name hname
          rcases List.mem_append.mp hname with hname | hname
          · exact h name hname
          · rw [List.mem_singleton.mp hname]
            exact ⟨fun hempty => hskip (Or.inl hempty), fun hdot => hskip (Or.inr hdot), hparent⟩

lemma joined_plain (project : Project) (rel : String) :
    ∀ name ∈ joined project.root rel, name ≠ "." ∧ name ≠ ".." := by
  intro name hname
  rw [joined] at hname
  split at hname
  · exact (normpath_plain _ (by simp) name hname).2
  · exact (normpath_plain _ project.plain name hname).2

lemma safe_bind {α : Type} (rel : String) (next : List String → Disk α) :
    ((project.safe rel >>= next) tree).effects =
      if project.root <+: joined project.root rel then
        (next (joined project.root rel) tree).effects
      else [] := by
  rw [safe, within]
  split
  · rw [Os.bind_ok (Os.pure_run _ tree)]
    rfl
  · rw [Os.bind_error (Os.throw_run _ tree)]

variable (real : Loc)

lemma confined_if {c : Prop} [Decidable c] {effects : List OsEffect} :
    Confined real (if c then effects else []) ↔ (c → Confined real effects) := by
  split
  · rename_i h
    exact ⟨fun hconfined _ => hconfined, fun hconfined => hconfined h⟩
  · rename_i h
    exact ⟨fun _ hc => absurd hc h, fun _ => confined_nil real⟩

lemma confined_renamed (src dst : List String) :
    Confined real (Os.rename src dst tree).effects ↔ MovesInside real (tree.renamed src dst) := by
  rw [Os.rename_takes]
  cases tree.renamed src dst with
  | none => exact iff_of_true (confined_nil real) trivial
  | some locs => exact confined_move

lemma readFile_confined (rel : String) :
    Confined real (project.readFile rel tree).effects ↔
      project.StaysInside tree real (.readFile rel) := by
  rw [readFile, safe_bind, confined_if, Os.then_effects]
  exact imp_congr_right fun _ => (Os.readFile_touches tree _).confined real

lemma createFile_confined (rel : String) :
    Confined real (project.createFile rel tree).effects ↔
      project.StaysInside tree real (.createFile rel) := by
  rw [createFile, safe_bind, confined_if]
  refine imp_congr_right fun _ => ?_
  rw [Os.tree_bind]
  cases hexists : tree.pathExists (joined project.root rel) with
  | true =>
      rw [if_pos rfl]
      exact iff_of_true (confined_nil real) nofun
  | false =>
      rw [if_neg Bool.false_ne_true, Os.bind_effects fun _ t => Os.then_effects _ _ t,
        (Os.makeFile_touches tree [] (joined_plain project rel)).confined real]
      exact ⟨fun h _ => h, fun h => h rfl⟩

lemma createFolder_confined (rel : String) :
    Confined real (project.createFolder rel tree).effects ↔
      project.StaysInside tree real (.createFolder rel) := by
  rw [createFolder, safe_bind, confined_if]
  refine imp_congr_right fun _ => ?_
  rw [Os.tree_bind]
  cases hexists : tree.pathExists (joined project.root rel) with
  | true =>
      rw [if_pos rfl]
      exact iff_of_true (confined_nil real) nofun
  | false =>
      have hrun := Os.makedirs_run tree false (joined project.root rel).reverse fun name hname =>
        joined_plain project rel name (List.mem_reverse.mp hname)
      rw [if_neg Bool.false_ne_true, Os.then_effects, hrun.effects,
        (Touches.created _).confined real]
      exact ⟨fun h _ => h, fun h => h rfl⟩

/-- `apply` with a backup reads the file, writes the backup, and writes the file that it read. -/
lemma backup_touches {p : List String} (content : List UInt8)
    (hplain : ∀ name ∈ p, name ≠ "." ∧ name ≠ "..") (hfile : tree.isfile p = true) :
    Touches ((Os.makedirs true p.dropLast.reverse >>= fun _ =>
        Os.copy2 p (backupPath p) >>= fun _ => Os.writeFile p content) tree).effects
      (tree.copied p (backupPath p)) := by
  obtain ⟨loc, old, hplace⟩ := Os.isfile_iff.mp hfile
  obtain ⟨dir, hdir⟩ := Os.parent_of_file hplace
  have hrun := Os.makedirs_run tree true p.dropLast.reverse fun name hname =>
    hplain name (List.dropLast_subset p (List.mem_reverse.mp hname))
  rw [Os.missing_found (fun name hname =>
    hplain name (List.dropLast_subset p (List.mem_reverse.mp hname)))
    (by rwa [List.reverse_reverse])] at hrun
  rw [Os.bind_ok (Os.run_result (hrun.ok dir rfl (Or.inl rfl))), hrun.effects, hrun.made.same]
  simp only [List.map_nil, List.nil_append]
  have hcopy := Os.copy2_touches tree p (backupPath p)
  cases hresult : (Os.copy2 p (backupPath p) tree).result with
  | error e =>
      rw [Os.bind_error (Os.run_result hresult)]
      exact hcopy
  | ok _ =>
      obtain ⟨entry', hplace', hkind⟩ := place_grows (Os.copy2_grows tree p (backupPath p)) hplace
      have hwrite := Os.writeFile_touches (Os.copy2 p (backupPath p) tree).tree p content
      have hwritten : (Os.copy2 p (backupPath p) tree).tree.written p = [loc] := by
        rw [written, hplace']
        cases entry' with
        | file content' => rfl
        | dir => exact hkind.elim
        | link target => exact hkind.elim
      have hmem := Os.copied_source hplace hresult
      rw [Os.bind_ok (Os.run_result hresult)]
      rw [hwritten] at hwrite
      refine ⟨fun other => ?_, (hcopy.append hwrite).taken⟩
      rw [(hcopy.append hwrite).places, List.mem_append, List.mem_singleton]
      exact ⟨fun h => h.elim id fun hloc => hloc ▸ hmem, Or.inl⟩

/-- `apply` decides on the backup by the tree before the call. -/
lemma apply_effects (rel : String) (newContent : List Char) (backup : Bool) :
    (project.apply rel newContent backup tree).effects =
      let p := joined project.root rel
      if project.root <+: p then
        if backup && tree.isfile p then
          ((Os.makedirs true p.dropLast.reverse >>= fun _ => Os.copy2 p (backupPath p) >>= fun _ =>
            Os.writeFile p (Utf8.encode (ended newContent))) tree).effects
        else
          ((Os.makedirs true p.dropLast.reverse >>= fun _ =>
            Os.writeFile p (Utf8.encode (ended newContent))) tree).effects
      else [] := by
  rw [apply, safe_bind]
  dsimp only
  refine if_congr Iff.rfl ?_ rfl
  have hisfile := Os.makedirs_isfile tree (joined_plain project rel)
  generalize joined project.root rel = p at hisfile
  cases hresult : (Os.makedirs true p.dropLast.reverse tree).result with
  | error e =>
      simp only [Os.bind_error (Os.run_result hresult), ite_self]
  | ok _ =>
      simp only [Os.bind_ok (Os.run_result hresult), Os.tree_bind, hisfile]
      split <;> rfl

lemma apply_confined (rel : String) (newContent : List Char) (backup : Bool) :
    Confined real (project.apply rel newContent backup tree).effects ↔
      project.StaysInside tree real (.apply rel newContent backup) := by
  rw [apply_effects, confined_if]
  refine imp_congr_right fun _ => ?_
  have hplain := joined_plain project rel
  split
  · rename_i hbackup
    rw [(backup_touches _ hplain (Bool.and_eq_true_iff.mp hbackup).2).confined real]
  · rw [(Os.makeFile_touches tree _ hplain).confined real]

lemma delete_confined (rel : String) :
    Confined real (project.delete rel tree).effects ↔
      project.StaysInside tree real (.delete rel) := by
  rw [delete, safe_bind, confined_if]
  refine imp_congr_right fun _ => ?_
  rw [Os.tree_bind]
  split
  · rw [Os.rmtree_takes, confined_remove]
  · rw [Os.tree_bind]
    split
    · rw [Os.removeEntry_takes, confined_remove]
    · exact iff_of_true (confined_nil real) nofun

/-- A rename behind its last check. -/
lemma renamed_confined (src dst : List String) (answer : String) :
    Confined real ((do
      if (← Os.tree).pathExists dst then Os.throw .fileExists
      else
        Os.rename src dst
        return answer : Disk String) tree).effects ↔
      (tree.pathExists dst = false → MovesInside real (tree.renamed src dst)) := by
  rw [Os.tree_bind]
  cases tree.pathExists dst with
  | true =>
      rw [if_pos rfl]
      exact iff_of_true (confined_nil real) nofun
  | false =>
      rw [if_neg Bool.false_ne_true, Os.then_effects, confined_renamed]
      exact ⟨fun h _ => h, fun h => h rfl⟩

lemma rename_confined (rel newName : String) :
    Confined real (project.rename rel newName tree).effects ↔
      project.StaysInside tree real (.rename rel newName) := by
  rw [rename, StaysInside]
  split
  · rename_i hname
    refine iff_of_true (confined_nil real) fun hempty hslash hback => ?_
    rcases hname with h | h | h
    · exact absurd h hempty
    · exact absurd h hslash
    · exact absurd h hback
  · rename_i hname
    obtain ⟨hempty, hslash, hback⟩ := not_or.mp hname |>.imp_right not_or.mp
    rw [safe_bind, confined_if]
    have hguards : ∀ {p : Prop}, (newName ≠ "" → '/' ∉ newName.toList → '\\' ∉ newName.toList → p) ↔
        p := fun {p} => ⟨fun h => h hempty hslash hback, fun h _ _ _ => h⟩
    rw [hguards]
    refine imp_congr_right fun _ => ?_
    rw [Os.tree_bind]
    cases hexists : tree.pathExists (joined project.root rel) with
    | false => exact iff_of_true (confined_nil real) nofun
    | true =>
        simp only [Bool.not_true, Bool.false_eq_true, if_false, forall_const]
        rw [within]
        split
        · rename_i hwithin
          rw [Os.bind_ok (Os.pure_run _ tree)]
          rw [List.nil_append, renamed_confined]
          exact ⟨fun h _ => h, fun h => h hwithin⟩
        · rename_i hwithin
          rw [Os.bind_error (Os.throw_run _ tree)]
          exact iff_of_true (confined_nil real) fun h => absurd h hwithin

lemma moveInto_confined (src dstDir : List String) (rel : String) :
    Confined real (project.moveInto src dstDir rel tree).effects ↔
      (tree.isdir dstDir = true → ¬ (tree.isdir src = true ∧ src <+: dstDir) →
        normpath [] (dstDir ++ [src.getLastD ""]) ≠ src →
        tree.pathExists (dstDir ++ [src.getLastD ""]) = false →
        MovesInside real (tree.renamed src (dstDir ++ [src.getLastD ""]))) := by
  rw [moveInto, Os.tree_bind]
  cases tree.isdir dstDir with
  | false => exact iff_of_true (confined_nil real) nofun
  | true =>
      rw [if_neg (by decide), Os.tree_bind]
      split
      · rename_i hbelow
        simp only [Bool.and_eq_true, decide_eq_true_eq] at hbelow
        exact iff_of_true (confined_nil real) fun _ hnot => absurd hbelow hnot
      · rename_i hbelow
        simp only [Bool.and_eq_true, decide_eq_true_eq] at hbelow
        dsimp only
        split
        · rename_i hsame
          exact iff_of_true (confined_nil real) fun _ _ hnot => absurd hsame hnot
        · rename_i hsame
          rw [renamed_confined]
          exact ⟨fun h _ _ _ => h, fun h => h rfl hbelow hsame⟩

lemma dstDir_bind {α : Type} (newDir : String) (next : List String → Disk α) :
    ((project.dstDir newDir >>= next) tree).effects =
      if project.root <+: (if newDir ≠ "" then joined project.root newDir else project.root) then
        (next (if newDir ≠ "" then joined project.root newDir else project.root) tree).effects
      else [] := by
  rw [dstDir]
  split
  · exact safe_bind newDir next
  · rw [if_pos (List.prefix_refl _), Os.bind_ok (Os.pure_run _ tree)]
    rfl

lemma move_confined (rel newDir : String) :
    Confined real (project.move rel newDir tree).effects ↔
      project.StaysInside tree real (.move rel newDir) := by
  rw [move, safe_bind, confined_if]
  refine imp_congr_right fun _ => ?_
  rw [Os.tree_bind]
  cases hexists : tree.pathExists (joined project.root rel) with
  | false => exact iff_of_true (confined_nil real) nofun
  | true =>
      simp only [Bool.not_true, Bool.false_eq_true, if_false, forall_const]
      rw [dstDir_bind, confined_if, moveInto_confined]

lemma call_confined (call : Call) :
    Confined real (project.effects tree call) ↔ project.StaysInside tree real call := by
  cases call with
  | readFile rel => exact readFile_confined real rel
  | apply rel newContent backup => exact apply_confined real rel newContent backup
  | createFile rel => exact createFile_confined real rel
  | createFolder rel => exact createFolder_confined real rel
  | rename rel newName => exact rename_confined real rel newName
  | move rel newDir => exact move_confined real rel newDir
  | delete rel => exact delete_confined real rel

end Confinement

/-- A call is confined to the root, wherever links lead, exactly if its paths are. -/
theorem calls_confined (project : Project) (tree : LinkTree (List UInt8)) (call : Call) :
    (∀ real, tree.place true project.root = .found real .dir →
        Confined real (project.effects tree call)) ↔
      ∀ real, tree.place true project.root = .found real .dir →
        project.StaysInside tree real call :=
  forall_congr' fun real => imp_congr_right fun _ => call_confined real call

/-- A project with a link out of it. -/
def linkedProject : Project := ⟨["p"], by decide⟩

def linkedTree : LinkTree (List UInt8) :=
  (((LinkTree.bare.put [] "p" .dir).put ["p"] "out" (.link ⟨false, [".."]⟩)).put [] "q"
    (.file [104, 105]))

theorem read_through_link :
    ¬ ∀ (project : Project) (tree : LinkTree (List UInt8)) (call : Call) (real : Loc),
      tree.place true project.root = .found real .dir →
        Confined real (project.effects tree call) := by
  intro h
  have hroot : linkedTree.place true linkedProject.root = .found ["p"] .dir := by rfl
  have heffects : linkedProject.effects linkedTree (.readFile "out/q") = [.read ["q"]] := by rfl
  have hconfined := h linkedProject linkedTree (.readFile "out/q") ["p"] hroot
  rw [heffects] at hconfined
  exact absurd (hconfined.1 ["q"] (by decide)) (by decide)

end Project

end Imece
