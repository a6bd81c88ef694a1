import Imece.Lib.LinkTree

/-!
# Calls on a file system

Calls of the system on a tree with links, each with the places it reads or changes, and the making
of missing directories.
-/
namespace Imece.Lib

/-- What a call does to a place. -/
inductive OsEffect where
  | read (loc : Loc)
  | create (loc : Loc)
  | write (loc : Loc)
  | remove (loc : Loc)
  | move (source dest : Loc)
deriving DecidableEq, Repr

def OsEffect.places : OsEffect → List Loc
  | read loc | create loc | write loc | remove loc => [loc]
  | move source dest => [source, dest]

/-- What a call takes away from its place. -/
def OsEffect.taken : OsEffect → List Loc
  | remove loc => [loc]
  | move source _ => [source]
  | read _ | create _ | write _ => []

/-- The effects stay at or below a place, and the place itself stays. -/
def Confined (root : Loc) (effects : List OsEffect) : Prop :=
  (∀ loc ∈ effects.flatMap OsEffect.places, root <+: loc) ∧
    ∀ loc ∈ effects.flatMap OsEffect.taken, loc ≠ root

/-- What a program leaves: its result, the tree, and its effects in order. -/
structure OsRun (δ α : Type) where
  result : Except OsError α
  tree : LinkTree δ
  effects : List OsEffect

def Os (δ α : Type) : Type := LinkTree δ → OsRun δ α

namespace Os

variable {δ α β : Type}

protected def pure (a : α) : Os δ α := fun tree => ⟨.ok a, tree, []⟩

protected def bind (program : Os δ α) (next : α → Os δ β) : Os δ β := fun tree =>
  let run := program tree
  match run.result with
  | .error e => ⟨.error e, run.tree, run.effects⟩
  | .ok a =>
      let more := next a run.tree
      { more with effects := run.effects ++ more.effects }

instance : Monad (Os δ) where
  pure := Os.pure
  bind := Os.bind

def throw (e : OsError) : Os δ α := fun tree => ⟨.error e, tree, []⟩

/-- The tree as it is. -/
def tree : Os δ (LinkTree δ) := fun tree => ⟨.ok tree, tree, []⟩

/-- A program whose exception is caught. -/
def attempt (program : Os δ α) : Os δ (Except OsError α) := fun tree =>
  let run := program tree
  ⟨.ok run.result, run.tree, run.effects⟩

/-- One change of the tree. -/
def act (effect : OsEffect) (change : LinkTree δ → LinkTree δ) : Os δ Unit := fun tree =>
  ⟨.ok (), change tree, [effect]⟩

@[simp] lemma pure_run (a : α) (t : LinkTree δ) : (pure a : Os δ α) t = ⟨.ok a, t, []⟩ := rfl

@[simp] lemma throw_run (e : OsError) (t : LinkTree δ) :
    (throw e : Os δ α) t = ⟨.error e, t, []⟩ := rfl

lemma bind_ok {program : Os δ α} {next : α → Os δ β} {t : LinkTree δ} {a : α}
    {t' : LinkTree δ} {effects : List OsEffect} (h : program t = ⟨.ok a, t', effects⟩) :
    (program >>= next) t =
      { next a t' with effects := effects ++ (next a t').effects } := by
  change Os.bind program next t = _
  rw [Os.bind]
  simp only [h]

lemma bind_error {program : Os δ α} {next : α → Os δ β} {t : LinkTree δ} {e : OsError}
    {t' : LinkTree δ} {effects : List OsEffect} (h : program t = ⟨.error e, t', effects⟩) :
    (program >>= next) t = ⟨.error e, t', effects⟩ := by
  change Os.bind program next t = _
  rw [Os.bind]
  simp only [h]

lemma attempt_run {program : Os δ α} {t t' : LinkTree δ} {result : Except OsError α}
    {effects : List OsEffect} (h : program t = ⟨result, t', effects⟩) :
    attempt program t = ⟨.ok result, t', effects⟩ := by
  rw [attempt, h]

lemma run_result {α : Type} {run : OsRun δ α} {result : Except OsError α}
    (h : run.result = result) : run = ⟨result, run.tree, run.effects⟩ := by
  subst h
  rfl

lemma bind_effects {γ : Type} {program : Os δ α} {next : α → Os δ β} {next' : α → Os δ γ}
    (h : ∀ a t, (next a t).effects = (next' a t).effects) (t : LinkTree δ) :
    ((program >>= next) t).effects = ((program >>= next') t).effects := by
  cases hresult : (program t).result with
  | ok a =>
      rw [bind_ok (run_result hresult), bind_ok (run_result hresult)]
      exact congrArg _ (h a _)
  | error e => rw [bind_error (run_result hresult), bind_error (run_result hresult)]

lemma then_effects (program : Os δ α) (next : α → β) (t : LinkTree δ) :
    ((program >>= fun a => pure (next a)) t).effects = (program t).effects := by
  cases hresult : (program t).result with
  | ok a =>
      rw [bind_ok (run_result hresult)]
      simp
  | error e => rw [bind_error (run_result hresult)]

@[simp] lemma tree_bind (next : LinkTree δ → Os δ β) (t : LinkTree δ) :
    (Os.tree >>= next) t = next t t := by
  rw [bind_ok rfl]
  rfl

end Os

namespace LinkTree

variable {δ : Type} (tree : LinkTree δ)

/-- `os.path.exists` -/
def pathExists (path : List String) : Bool :=
  match tree.place true path with
  | .found _ _ => true
  | _ => false

/-- `os.path.isfile` -/
def isfile (path : List String) : Bool :=
  match tree.place true path with
  | .found _ (.file _) => true
  | _ => false

/-- `os.path.isdir` -/
def isdir (path : List String) : Bool :=
  match tree.place true path with
  | .found _ .dir => true
  | _ => false

/-- `shutil._samefile` -/
def samefile (source dest : List String) : Bool :=
  match tree.place true source, tree.place true dest with
  | .found loc _, .found loc' _ => decide (loc = loc')
  | _, _ => false

/-- Where a copy goes: into a directory it goes under the source's name. -/
def copyDest (source dest : List String) : List String :=
  if tree.isdir dest then dest ++ [source.getLastD ""] else dest

end LinkTree

namespace Os

variable {δ : Type}

def mkdir (path : List String) : Os δ Unit := do
  match (← tree).place false path with
  | .found _ _ => throw .fileExists
  | .failed e => throw e
  | .absent dir name =>
      if legalName name then act (.create (dir ++ [name])) fun t => t.put dir name .dir
      else throw .value

/-- `open(path)` and its whole contents. -/
def readFile (path : List String) : Os δ δ := do
  match (← tree).place true path with
  | .found loc (.file content) => do
      act (.read loc) id
      return content
  | .found _ .dir => throw .isADirectory
  | .found _ (.link _) => throw .loop
  | .absent _ _ => throw .fileNotFound
  | .failed e => throw e

/-- `open(path, "w")` with all that is written to it. -/
def writeFile (path : List String) (content : δ) : Os δ Unit := do
  match (← tree).place true path with
  | .found loc (.file _) =>
      act (.write loc) fun t => t.put loc.dropLast (loc.getLastD "") (.file content)
  | .found _ .dir => throw .isADirectory
  | .found _ (.link _) => throw .loop
  | .absent dir name =>
      if legalName name then
        act (.create (dir ++ [name])) fun t => t.put dir name (.file content)
      else throw .value
  | .failed e => throw e

/-- `os.remove` -/
def removeEntry (path : List String) : Os δ Unit := do
  match (← tree).place false path with
  | .found _ .dir => throw .isADirectory
  | .found loc _ => act (.remove loc) fun t => t.remove loc
  | .absent _ _ => throw .fileNotFound
  | .failed e => throw e

/-- `shutil.rmtree`: a link to a directory is refused, and no link below is followed. -/
def rmtree (path : List String) : Os δ Unit := do
  match (← tree).place false path with
  | .found loc .dir => act (.remove loc) fun t => t.remove loc
  | .found _ (.link _) => throw .invalid
  | .found _ (.file _) => throw .notADirectory
  | .absent _ _ => throw .fileNotFound
  | .failed e => throw e

/-- `os.rename`. Onto a directory it is refused here, whether that is empty or not. -/
def rename (source dest : List String) : Os δ Unit := do
  let t ← tree
  match t.place false source, t.place false dest with
  | .found loc _, .absent dir name =>
      if loc <+: dir then throw .invalid
      else if legalName name then
        act (.move loc (dir ++ [name])) fun t => t.move loc dir name
      else throw .value
  | .found loc entry, .found loc' entry' =>
      match entry, entry' with
      | _, .dir => throw .fileExists
      | .dir, _ => throw .notADirectory
      | _, _ =>
          act (.move loc loc') fun t => t.move loc loc'.dropLast (loc'.getLastD "")
  | .found _ _, .failed e => throw e
  | .absent _ _, _ => throw .fileNotFound
  | .failed e, _ => throw e

/-- `shutil.copy2` -/
def copy2 (source dest : List String) : Os δ Unit := do
  let t ← tree
  if t.samefile source (t.copyDest source dest) then throw .invalid
  else do
    let content ← readFile source
    writeFile (t.copyDest source dest) content

/-- The last step of `os.makedirs`. -/
def makeLast (existOk : Bool) (path : List String) : Os δ Unit := do
  match ← attempt (mkdir path) with
  | .ok () => pure ()
  | .error .value => throw .value
  | .error e => if existOk && (← tree).isdir path then pure () else throw e

/-- `os.makedirs`, on the names of a path from the last to the first. -/
def makedirs (existOk : Bool) : List String → Os δ Unit
  | [] => if existOk then pure () else throw .fileExists
  | name :: above => do
      if (← tree).pathExists above.reverse then makeLast existOk (above.reverse ++ [name])
      else
        match ← attempt (makedirs existOk above) with
        | .ok () | .error .fileExists => makeLast existOk (above.reverse ++ [name])
        | .error e => throw e

end Os

end Imece.Lib
