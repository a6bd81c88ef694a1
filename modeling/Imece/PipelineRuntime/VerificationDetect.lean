import Imece.Lib.JsonDataRoundTrip
import Imece.Project
import Imece.VerificationRuntime.Plans
import Mathlib.Algebra.Group.Action.Defs
import Mathlib.Algebra.Order.BigOperators.Group.List
import Mathlib.Data.List.Infix

/-!
# Detecting the verification of a workspace

An explicit file of checks comes first; without it, what the workspace holds suggests the checks.
A look at a path finds the same in all of a call.
-/
namespace Imece.PipelineRuntime

open Lib Lib.JsonData Points
open ProcessRuntime VerificationRuntime

/-- What looks at a path find. The platform raises on a look that is `denied`; an `unreadable`
file cannot be opened. -/
inductive Look where
  | absent
  | denied
  | directory
  | unreadable
  | file (bytes : List UInt8)

/-- A workspace, as the detection sees it. `testFiles` says whether a file `test_*.py` lies at its
root; `none` is an error of the platform. -/
structure Root where
  look : String → Look
  testFiles : Option Bool

/-- Why a file could not be read as JSON. -/
inductive Unparsed where
  | os
  | encoding
  | json (cause : JsonDataError)
deriving DecidableEq, Repr

/-- `PipelineInputError` -/
inductive PipelineInputError where
  | unparsed (rel : String) (cause : Unparsed)
  | refused (message : String)
deriving DecidableEq, Repr

/-- What a detection raises. -/
inductive DetectError where
  | pipelineInput (e : PipelineInputError)
  | processInput (e : ProcessInputError)
  | verificationInput (e : VerificationInputError)
  | recursion
  | os
deriving DecidableEq, Repr

/-- A drawn UUID, as text. -/
structure Uuid where
  text : List Char
  length : text.length = 36
  digits : ∀ c ∈ text, c.isAlphanum = true ∨ c = '-'

def newPlanId (uuid : Uuid) : Points := ofString "verify_" ++ ofChars uuid.text

def verifyJsonRel : String := ".imece/verify.json"

def defaultTimeoutMs : ℤ := 300000

def defaultNpmTestScript : String := "echo \"Error: no test specified\" && exit 1"

/-- `path.is_file()` -/
def Root.isFile (root : Root) (rel : String) : Except DetectError Bool :=
  match root.look rel with
  | .denied => .error .os
  | .unreadable | .file _ => .ok true
  | .absent | .directory => .ok false

/-- `path.is_dir()` -/
def Root.isDir (root : Root) (rel : String) : Except DetectError Bool :=
  match root.look rel with
  | .denied => .error .os
  | .directory => .ok true
  | _ => .ok false

/-- The entry of the explicit file that its own checks let through. -/
structure Entry where
  checkId : Points
  title : Points
  argv : List Points
  timeoutMs : ℤ

section Reading

variable {φ : Type} (codec : FloatCodec φ) (levels : ℕ)

/-- `json.loads(path.read_text(encoding="utf-8"))` -/
def Root.readJson (root : Root) (rel : String) : Except Unparsed (JsonData φ) :=
  match root.look rel with
  | .file bytes =>
      match String.fromUTF8? bytes.toByteArray with
      | none => .error .encoding
      | some text =>
          (loads codec levels (ofChars (Project.universalNewlines text.toList))).mapError .json
  | _ => .error .os

/-- A member that is a string and is not empty. -/
def textOf (members : List (Points × JsonData φ)) (key : String) : Option Points :=
  match members.lookup (ofString key) with
  | some (.str text) => if text = [] then none else some text
  | _ => none

def stringOf : JsonData φ → Option Points
  | .str text => some text
  | _ => none

/-- The member `argv`: a list of strings that is not empty. -/
def argvOf (members : List (Points × JsonData φ)) : Option (List Points) :=
  match members.lookup (ofString "argv") with
  | some (.arr items) => if items.isEmpty then none else items.mapM stringOf
  | _ => none

def timeoutOf (members : List (Points × JsonData φ)) : Option ℤ :=
  match members.lookup (ofString "timeout_ms") with
  | none => some defaultTimeoutMs
  | some (.int n) => some n
  | _ => none

/-- The error of an entry, or of one of its members. -/
def entryError (index : ℕ) (what : String) : DetectError :=
  .pipelineInput (.refused s!"{verifyJsonRel}[{index}]{what}")

/-- The loader's own checks of an entry. -/
def readEntry (index : ℕ) : JsonData φ → Except DetectError Entry
  | .obj members =>
      match textOf members "id" with
      | none => .error (entryError index ".id must be a non-empty string.")
      | some checkId =>
      match textOf members "title" with
      | none => .error (entryError index ".title must be a non-empty string.")
      | some title =>
      match argvOf members with
      | none => .error (entryError index (".argv must be a non-empty JSON list of strings " ++
          "(a shell command string is never accepted)."))
      | some argv =>
      match timeoutOf members with
      | none => .error (entryError index ".timeout_ms must be an integer.")
      | some timeoutMs => .ok { checkId, title, argv, timeoutMs }
  | _ => .error (entryError index " must be an object.")

/-- `VerificationCheck(id, title, ProcessRequest(…))`; the request is made first. -/
def makeCheck (entry : Entry) : Except DetectError Check := do
  let request ←
    (ProcessRuntime.ProcessRequest.make entry.argv entry.timeoutMs).mapError .processInput
  (Check.make entry.checkId entry.title request).mapError .verificationInput

def makePlan (uuid : Uuid) (checks : List Check) : Except DetectError Plan :=
  (Plan.make (newPlanId uuid) checks).mapError .verificationInput

def loadChecks : ℕ → List (JsonData φ) → Except DetectError (List Check)
  | _, [] => .ok []
  | index, item :: rest => do
      let entry ← readEntry index item
      let check ← makeCheck entry
      let checks ← loadChecks (index + 1) rest
      return check :: checks

/-- The exceptions of a reading that `except (OSError, ValueError)` lets through. -/
def Unparsed.escapes (cause : Unparsed) : Bool := cause = .json .recursion

/-- `_load_explicit_plan` -/
def loadExplicitPlan (uuid : Uuid) (root : Root) : Except DetectError (Option Plan) := do
  if ← root.isFile verifyJsonRel then
    match root.readJson codec levels verifyJsonRel with
    | .error cause =>
        if cause.escapes then throw .recursion
        else throw (.pipelineInput (.unparsed verifyJsonRel cause))
    | .ok (.arr (item :: rest)) => do
        let checks ← loadChecks 0 (item :: rest)
        return some (← makePlan uuid checks)
    | .ok _ =>
        throw (.pipelineInput (.refused
          s!"{verifyJsonRel} must be a non-empty JSON list of checks."))
  else return none

/-- A configuration file that holds the section; its undecodable bytes are ignored. -/
def Root.configures (root : Root) (rel header : String) : Except DetectError Bool :=
  match root.look rel with
  | .denied => .error .os
  | .file bytes =>
      .ok (decide (header.toList <:+: Project.universalNewlines (Utf8.decodeIgnore bytes)))
  | _ => .ok false

/-- `_has_pytest_config` -/
def hasPytestConfig (root : Root) : Except DetectError Bool := do
  if ← root.isFile "pytest.ini" then return true
  else if ← root.configures "setup.cfg" "[tool:pytest]" then return true
  else root.configures "pyproject.toml" "[tool.pytest.ini_options]"

/-- `_has_python_tests` -/
def hasPythonTests (root : Root) : Except DetectError Bool := do
  if ← hasPytestConfig root then return true
  else if ← root.isDir "tests" then return true
  else root.testFiles.elim (.error .os) .ok

/-- `text.strip()` -/
def strip (text : Points) : Points :=
  ((text.dropWhile spacePoint).reverse.dropWhile spacePoint).reverse

/-- Whether a script is one that somebody wrote. -/
def realScript (script : Points) : Bool :=
  strip script ≠ [] && strip script ≠ ofString defaultNpmTestScript

/-- `_has_real_npm_test_script` -/
def hasRealNpmTestScript (root : Root) : Except DetectError Bool := do
  if ← root.isFile "package.json" then
    match root.readJson codec levels "package.json" with
    | .error cause => if cause.escapes then throw .recursion else return false
    | .ok (.obj members) =>
        match members.lookup (ofString "scripts") with
        | some (.obj scripts) =>
            match scripts.lookup (ofString "test") with
            | some (.str script) => return realScript script
            | _ => return false
        | _ => return false
    | .ok _ => return false
  else return false

/-- A check that a heuristic adds where it matches. -/
def heuristic (found : Except DetectError Bool) (checkId title : String) (argv : List String) :
    Except DetectError (List Check) := do
  if ← found then
    let check ← makeCheck
      ⟨ofString checkId, ofString title, argv.map ofString, defaultTimeoutMs⟩
    return [check]
  else return []

/-- `_detect_heuristic_checks`. `py` is the name of the interpreter. -/
def detectHeuristicChecks (py : String) (root : Root) : Except DetectError (List Check) := do
  let pytest ← heuristic (hasPythonTests root) "python_pytest" "Python tests (pytest)"
    [py, "-m", "pytest", "-q"]
  let npm ← heuristic (hasRealNpmTestScript codec levels root) "npm_test"
    "JavaScript/TypeScript tests (npm test)" ["npm", "test"]
  let cargo ← heuristic (root.isFile "Cargo.toml") "cargo_test" "Rust tests (cargo test)"
    ["cargo", "test"]
  let go ← heuristic (root.isFile "go.mod") "go_test" "Go tests (go test)"
    ["go", "test", "./..."]
  return pytest ++ npm ++ cargo ++ go

/-- `_PY` -/
def pythonName (windows : Bool) : String := if windows then "python" else "python3"

/-- `detect_verification_plan`; each plan's id is drawn. -/
def detectVerificationPlan (windows : Bool) (uuid : Uuid) (root : Root) :
    Except DetectError (Option Plan) := do
  match ← loadExplicitPlan codec levels uuid root with
  | some explicit => return some explicit
  | none =>
      let checks ← detectHeuristicChecks codec levels (pythonName windows) root
      if checks = [] then return none
      else return some (← makePlan uuid checks)

end Reading

section Explicit

variable {φ : Type}

/-- An error that is not the typed one of the pipeline's input. -/
def DetectError.escapes : DetectError → Bool
  | .pipelineInput _ => false
  | _ => true

/-- The entry that an item gives, when the loader's own checks let it through. -/
def entryOf : JsonData φ → Option Entry
  | .obj members => do
      let checkId ← textOf members "id"
      let title ← textOf members "title"
      let argv ← argvOf members
      let timeoutMs ← timeoutOf members
      return { checkId, title, argv, timeoutMs }
  | _ => none

/-- An entry within the limits of the constructors it is given to. -/
structure Entry.InLimits (entry : Entry) : Prop where
  argv : ValidArgv entry.argv
  positive : 0 < entry.timeoutMs
  bounded : entry.timeoutMs ≤ maxTimeoutMs
  id : validId entry.checkId = true
  title : validName entry.title = true

/-- The entries before the first item that the loader's own checks refuse. -/
def front : List (JsonData φ) → List Entry
  | [] => []
  | item :: rest =>
      match entryOf item with
      | none => []
      | some entry => entry :: front rest

/-- Every item passes the loader's own checks. -/
def complete (items : List (JsonData φ)) : Bool := items.all fun item => (entryOf item).isSome

lemma readEntry_eq (index : ℕ) (item : JsonData φ) :
    (∃ entry, entryOf item = some entry ∧ readEntry index item = .ok entry) ∨
      entryOf item = none ∧ ∃ e, readEntry index item = .error (.pipelineInput e) := by
  cases item with
  | obj members =>
      simp only [entryOf, readEntry]
      cases hid : textOf members "id" with
      | none => exact .inr ⟨rfl, _, rfl⟩
      | some checkId =>
      cases htitle : textOf members "title" with
      | none => exact .inr ⟨rfl, _, rfl⟩
      | some title =>
      cases hargv : argvOf members with
      | none => exact .inr ⟨rfl, _, rfl⟩
      | some argv =>
      cases htimeout : timeoutOf members with
      | none => exact .inr ⟨rfl, _, rfl⟩
      | some timeoutMs => exact .inl ⟨_, rfl, rfl⟩
  | _ => exact .inr ⟨rfl, _, rfl⟩

lemma makeCheck_ok {entry : Entry} (h : entry.InLimits) :
    ∃ check, makeCheck entry = .ok check ∧ check.checkId = entry.checkId ∧
      check.request.timeoutMs = entry.timeoutMs := by
  let request : ProcessRuntime.ProcessRequest :=
    ⟨entry.argv, entry.timeoutMs, h.argv, h.positive, h.bounded⟩
  have hrequest : ProcessRuntime.ProcessRequest.make entry.argv entry.timeoutMs = .ok request :=
    ProcessRuntime.ProcessRequest.make_ok.mpr ⟨rfl, rfl⟩
  have hcheck := (@Check.make_ok entry.checkId entry.title request
    ⟨entry.checkId, entry.title, request, h.id, h.title⟩).mpr ⟨rfl, rfl, rfl⟩
  refine ⟨⟨entry.checkId, entry.title, request, h.id, h.title⟩, ?_, rfl, rfl⟩
  rw [makeCheck, hrequest]
  change (Check.make entry.checkId entry.title request).mapError _ = _
  rw [hcheck]
  rfl

lemma makeCheck_error {entry : Entry} (h : ¬ entry.InLimits) :
    ∃ e, makeCheck entry = .error e ∧ e.escapes = true := by
  rw [makeCheck]
  cases hrequest : ProcessRuntime.ProcessRequest.make entry.argv entry.timeoutMs with
  | error e => exact ⟨_, rfl, rfl⟩
  | ok request =>
      obtain ⟨hargv, htimeout⟩ := ProcessRuntime.ProcessRequest.make_ok.mp hrequest
      cases hcheck : Check.make entry.checkId entry.title request with
      | error e =>
          refine ⟨.verificationInput e, ?_, rfl⟩
          change (Check.make entry.checkId entry.title request).mapError _ = _
          rw [hcheck]
          rfl
      | ok check =>
          obtain ⟨hid, hname, -⟩ := Check.make_ok.mp hcheck
          refine (h ⟨hargv ▸ request.validArgv, htimeout ▸ request.positive,
            htimeout ▸ request.bounded, hid ▸ check.idOk, hname ▸ check.nameOk⟩).elim

/-- The loader makes the checks of all items, or refuses one with its own error. -/
lemma loadChecks_ok (index : ℕ) {items : List (JsonData φ)}
    (h : ∀ entry ∈ front items, entry.InLimits) :
    (∃ checks, loadChecks index items = .ok checks ∧ complete items = true ∧
      checks.map (·.checkId) = (front items).map (·.checkId) ∧
      checks.map (·.request.timeoutMs) = (front items).map (·.timeoutMs)) ∨
    complete items = false ∧ ∃ e, loadChecks index items = .error (.pipelineInput e) := by
  induction items generalizing index with
  | nil => exact .inl ⟨[], rfl, rfl, rfl, rfl⟩
  | cons item rest ih =>
      rcases readEntry_eq index item with ⟨entry, hentry, hread⟩ | ⟨hnone, e, hread⟩
      · simp only [front, hentry, List.forall_mem_cons] at h
        obtain ⟨check, hmake, hid, htimeout⟩ := makeCheck_ok h.1
        have hstep : loadChecks index (item :: rest) =
            (loadChecks (index + 1) rest).map (check :: ·) := by
          rw [loadChecks, hread]
          change (makeCheck entry >>= _) = _
          rw [hmake]
          change (loadChecks (index + 1) rest >>= _) = _
          cases loadChecks (index + 1) rest <;> rfl
        have hcomplete : complete (item :: rest) = complete rest := by
          simp [complete, hentry]
        rw [hstep, hcomplete]
        simp only [front, hentry]
        rcases ih (index + 1) h.2 with ⟨checks, hload, hall, hids, htimeouts⟩ | ⟨hall, e, hload⟩
        · refine .inl ⟨check :: checks, by rw [hload]; rfl, hall, ?_, ?_⟩
          · rw [List.map_cons, List.map_cons, hid, hids]
          · rw [List.map_cons, List.map_cons, htimeout, htimeouts]
        · exact .inr ⟨hall, e, by rw [hload]; rfl⟩
      · refine .inr ⟨by simp [complete, hnone], e, ?_⟩
        rw [loadChecks, hread]
        rfl

lemma loadChecks_escapes (index : ℕ) {items : List (JsonData φ)}
    (h : ¬ ∀ entry ∈ front items, entry.InLimits) :
    ∃ e, loadChecks index items = .error e ∧ e.escapes = true := by
  induction items generalizing index with
  | nil => simp [front] at h
  | cons item rest ih =>
      rcases readEntry_eq index item with ⟨entry, hentry, hread⟩ | ⟨hnone, -⟩
      · simp only [front, hentry, List.forall_mem_cons, not_and_or] at h
        rw [loadChecks, hread]
        change ∃ e, (makeCheck entry >>= _) = _ ∧ _
        by_cases hlimits : entry.InLimits
        · obtain ⟨check, hmake, -⟩ := makeCheck_ok hlimits
          obtain ⟨e, hload, hescapes⟩ := ih (index + 1) (h.resolve_left (not_not.mpr hlimits))
          rw [hmake]
          change ∃ e, (loadChecks (index + 1) rest >>= _) = _ ∧ _
          rw [hload]
          exact ⟨e, rfl, hescapes⟩
        · obtain ⟨e, hmake, hescapes⟩ := makeCheck_error hlimits
          rw [hmake]
          exact ⟨e, rfl, hescapes⟩
      · simp [front, hnone] at h

end Explicit

lemma validId_newPlanId (uuid : Uuid) : validId (newPlanId uuid) = true := by
  have hlength : (newPlanId uuid).length = 43 := by
    rw [newPlanId, List.length_append, ofChars, List.length_map, uuid.length]
    rfl
  have hpoints : (newPlanId uuid).all idPoint = true := by
    rw [newPlanId, List.all_append, Bool.and_eq_true]
    refine ⟨by decide, ?_⟩
    rw [ofChars, List.all_map, List.all_eq_true]
    intro c hc
    rcases uuid.digits c hc with halpha | hdash
    · simp [idPoint, halpha]
    · simp [idPoint, hdash]
  simp only [validId, hlength, hpoints, maxIdLength]
  rfl

lemma makePlan_cases (uuid : Uuid) {checks : List Check} (hne : checks ≠ []) :
    (PlanLimits (checks.map (·.checkId)) (checks.map (·.request.timeoutMs)) ∧
      ∃ plan, makePlan uuid checks = .ok plan) ∨
    ¬ PlanLimits (checks.map (·.checkId)) (checks.map (·.request.timeoutMs)) ∧
      ∃ e, makePlan uuid checks = .error e ∧ e.escapes = true := by
  have hiff := Plan.make_isOk (validId_newPlanId uuid) hne
  rw [makePlan, ← hiff]
  cases hmake : Plan.make (newPlanId uuid) checks with
  | ok plan => exact .inl ⟨⟨plan, rfl⟩, plan, rfl⟩
  | error e => exact .inr ⟨fun ⟨plan, h⟩ => (by cases h), _, rfl, rfl⟩

section Heuristics

variable {φ : Type} (codec : FloatCodec φ) (levels : ℕ) (root : Root)

/-- The looks for a configuration of pytest, each made when those before it found none. -/
def ConfigQuiet : Prop :=
  root.look "pytest.ini" ≠ .denied ∧ (root.isFile "pytest.ini" = .ok true ∨
    root.look "setup.cfg" ≠ .denied ∧ (root.configures "setup.cfg" "[tool:pytest]" = .ok true ∨
      root.look "pyproject.toml" ≠ .denied))

/-- The looks for Python tests. -/
def PythonQuiet : Prop :=
  ConfigQuiet root ∧ (hasPytestConfig root = .ok true ∨
    root.look "tests" ≠ .denied ∧ (root.isDir "tests" = .ok true ∨ root.testFiles ≠ none))

/-- A look gives an answer exactly when the property holds, and is an error of the platform
otherwise. -/
def Answers {α : Type} (quiet : Prop) (outcome : Except DetectError α) : Prop :=
  quiet ∧ (∃ answer, outcome = .ok answer) ∨ ¬ quiet ∧ outcome = .error .os

variable {root}

lemma isFile_answers (rel : String) : Answers (root.look rel ≠ .denied) (root.isFile rel) := by
  unfold Root.isFile
  cases h : root.look rel with
  | denied => exact .inr ⟨by simp, rfl⟩
  | _ => exact .inl ⟨by simp, _, rfl⟩

lemma isDir_answers (rel : String) : Answers (root.look rel ≠ .denied) (root.isDir rel) := by
  unfold Root.isDir
  cases h : root.look rel with
  | denied => exact .inr ⟨by simp, rfl⟩
  | _ => exact .inl ⟨by simp, _, rfl⟩

lemma configures_answers (rel header : String) :
    Answers (root.look rel ≠ .denied) (root.configures rel header) := by
  unfold Root.configures
  cases h : root.look rel with
  | denied => exact .inr ⟨by simp, rfl⟩
  | _ => exact .inl ⟨by simp, _, rfl⟩

/-- A look that is made when the one before it found nothing. -/
lemma Answers.orElse {quiet quietNext : Prop} {found next : Except DetectError Bool}
    (h : Answers quiet found) (hnext : Answers quietNext next) :
    Answers (quiet ∧ (found = .ok true ∨ quietNext))
      (do if ← found then return true else next) := by
  rcases h with ⟨hquiet, found, rfl⟩ | ⟨hquiet, rfl⟩
  · cases found with
    | true => exact .inl ⟨⟨hquiet, .inl rfl⟩, true, rfl⟩
    | false =>
        rcases hnext with ⟨hq, answer, rfl⟩ | ⟨hq, rfl⟩
        · exact .inl ⟨⟨hquiet, .inr hq⟩, answer, rfl⟩
        · refine .inr ⟨?_, rfl⟩
          rintro ⟨-, h | h⟩
          · cases h
          · exact hq h
  · exact .inr ⟨fun h => hquiet h.1, rfl⟩

lemma hasPytestConfig_answers : Answers (ConfigQuiet root) (hasPytestConfig root) :=
  (isFile_answers _).orElse ((configures_answers _ _).orElse (configures_answers _ _))

lemma hasPythonTests_answers : Answers (PythonQuiet root) (hasPythonTests root) := by
  have hglob : Answers (root.testFiles ≠ none) (root.testFiles.elim (.error .os) .ok) := by
    cases root.testFiles with
    | none => exact .inr ⟨by simp, rfl⟩
    | some found => exact .inl ⟨by simp, found, rfl⟩
  exact hasPytestConfig_answers.orElse ((isDir_answers _).orElse hglob)

/-- An outcome that is an error, and not the typed one of the pipeline's input. -/
def Escapes {α : Type} (outcome : Except DetectError α) : Prop :=
  ∃ e, outcome = .error e ∧ e.escapes = true

lemma Answers.escapes {α : Type} {quiet : Prop} {outcome : Except DetectError α}
    (h : Answers quiet outcome) : quiet ∧ (∃ answer, outcome = .ok answer) ∨
      ¬ quiet ∧ Escapes outcome := by
  rcases h with h | ⟨hquiet, herror⟩
  · exact .inl h
  · exact .inr ⟨hquiet, .os, herror, rfl⟩

/-- The look at `package.json` is possible, and the file is not nested too deep. -/
def PackageQuiet : Prop :=
  root.look "package.json" ≠ .denied ∧
    (root.readJson codec levels "package.json" : Except Unparsed (JsonData φ)) ≠
      .error (.json .recursion)

lemma hasRealNpmTestScript_cases :
    (@PackageQuiet φ codec levels root ∧
      ∃ answer, hasRealNpmTestScript codec levels root = .ok answer) ∨
    ¬ @PackageQuiet φ codec levels root ∧ Escapes (hasRealNpmTestScript codec levels root) := by
  unfold hasRealNpmTestScript PackageQuiet
  rcases @isFile_answers root "package.json" with ⟨hlook, found, hfile⟩ | ⟨hlook, hfile⟩
  · rw [hfile]
    cases found with
    | false =>
        refine .inl ⟨⟨hlook, ?_⟩, false, rfl⟩
        unfold Root.readJson
        unfold Root.isFile at hfile
        cases h : root.look "package.json" with
        | file bytes => simp [h] at hfile
        | _ => simp
    | true =>
        cases hread : (root.readJson codec levels "package.json" :
            Except Unparsed (JsonData φ)) with
        | error cause =>
            by_cases hcause : cause = .json .recursion
            · refine .inr ⟨fun h => h.2 (by rw [hcause]), .recursion, ?_, rfl⟩
              rw [hcause]
              rfl
            · refine .inl ⟨⟨hlook, fun h => hcause (by injection h)⟩, false, ?_⟩
              change (if cause.escapes = true then _ else _) = _
              rw [if_neg (by simpa [Unparsed.escapes] using hcause)]
              rfl
        | ok value =>
            refine .inl ⟨⟨hlook, by simp⟩, ?_⟩
            cases value with
            | obj members =>
                change ∃ answer, (match members.lookup (ofString "scripts") with
                  | some (.obj scripts) =>
                      match scripts.lookup (ofString "test") with
                      | some (.str script) => pure (realScript script)
                      | _ => pure false
                  | _ => pure false : Except DetectError Bool) = .ok answer
                split
                · split
                  · exact ⟨_, rfl⟩
                  · exact ⟨_, rfl⟩
                · exact ⟨_, rfl⟩
            | _ => exact ⟨_, rfl⟩
  · rw [hfile]
    exact .inr ⟨fun h => hlook h.1, .os, rfl, rfl⟩

lemma Escapes.bind {α β : Type} {outcome : Except DetectError α}
    {next : α → Except DetectError β} (h : Escapes outcome) : Escapes (outcome >>= next) := by
  obtain ⟨e, rfl, hescapes⟩ := h
  exact ⟨e, rfl, hescapes⟩

/-- A heuristic adds a check that is within the limits. -/
lemma heuristic_cases {quiet : Prop} {found : Except DetectError Bool} {checkId title : String}
    {argv : List String}
    (hfound : quiet ∧ (∃ answer, found = .ok answer) ∨ ¬ quiet ∧ Escapes found)
    (h : Entry.InLimits ⟨ofString checkId, ofString title, argv.map ofString, defaultTimeoutMs⟩) :
    (quiet ∧ ∃ checks, heuristic found checkId title argv = .ok checks ∧
      (checks.map (·.checkId)).Sublist [ofString checkId] ∧
      (checks.map (·.request.timeoutMs)).sum ≤ defaultTimeoutMs) ∨
    ¬ quiet ∧ Escapes (heuristic found checkId title argv) := by
  rcases hfound with ⟨hquiet, answer, rfl⟩ | ⟨hquiet, hescapes⟩
  · refine .inl ⟨hquiet, ?_⟩
    cases answer with
    | false => exact ⟨[], rfl, List.nil_sublist _, by decide⟩
    | true =>
        obtain ⟨check, hmake, hid, htimeout⟩ := makeCheck_ok h
        refine ⟨[check], ?_, ?_, ?_⟩
        · change (makeCheck _ >>= _) = _
          rw [hmake]
          rfl
        · rw [List.map_singleton, hid]
        · rw [List.map_singleton, htimeout, List.sum_singleton]
  · exact .inr ⟨hquiet, hescapes.bind⟩

/-- The entry of a heuristic, whose command is made of short words. -/
lemma heuristic_limits {checkId title : String} {argv : List String}
    (hargv : argv ≠ [] ∧ argv.length ≤ 5 ∧ ∀ word ∈ argv,
      word ≠ "" ∧ word.toList.length ≤ 10 ∧ '\x00' ∉ word.toList)
    (hid : validId (ofString checkId) = true) (htitle : validName (ofString title) = true) :
    Entry.InLimits ⟨ofString checkId, ofString title, argv.map ofString, defaultTimeoutMs⟩ := by
  obtain ⟨hne, hcount, hwords⟩ := hargv
  have hlength : ∀ n ∈ (argv.map ofString).map List.length, n ≤ 10 := by
    intro n hn
    obtain ⟨word, hword, rfl⟩ := List.mem_map.mp (List.map_map (f := ofString) ▸ hn)
    simpa [ofString, ofChars] using (hwords word hword).2.1
  have hsum := List.sum_le_card_nsmul _ 10 hlength
  simp only [List.length_map, smul_eq_mul] at hsum
  have hvalid : ValidArgv (argv.map ofString) := by
    refine ⟨by simpa using hne, ?_, ?_, ?_, ?_, ?_⟩
    · rw [List.length_map]
      exact hcount.trans (by decide)
    · intro argument hargument hnul
      obtain ⟨word, hword, rfl⟩ := List.mem_map.mp hargument
      exact (hwords word hword).2.2 (by simpa [ofString, ofChars] using hnul)
    · cases argv with
      | nil => exact (hne rfl).elim
      | cons word rest =>
          have hword := (hwords word (by simp)).1
          simpa [ofString, ofChars] using hword
    · intro argument hargument
      have := hlength argument.length (List.mem_map_of_mem hargument)
      exact this.trans (by decide)
    · have hlimit : 5 * 10 ≤ maxTotalArgumentLength := by decide
      omega
  have htimeout : 0 < defaultTimeoutMs ∧ defaultTimeoutMs ≤ maxTimeoutMs := by decide
  exact ⟨hvalid, htimeout.1, htimeout.2, hid, htitle⟩

/-- No look of the heuristics raises, and `package.json` is not nested too deep. -/
structure HeuristicsQuiet (codec : FloatCodec φ) (levels : ℕ) (root : Root) : Prop where
  python : PythonQuiet root
  package : @PackageQuiet φ codec levels root
  cargo : root.look "Cargo.toml" ≠ .denied
  go : root.look "go.mod" ≠ .denied

lemma detectHeuristicChecks_cases (windows : Bool) :
    (HeuristicsQuiet codec levels root ∧ ∃ checks,
      detectHeuristicChecks codec levels (pythonName windows) root = .ok checks ∧
      PlanLimits (checks.map (·.checkId)) (checks.map (·.request.timeoutMs))) ∨
    ¬ HeuristicsQuiet codec levels root ∧
      Escapes (detectHeuristicChecks codec levels (pythonName windows) root) := by
  have hpython : pythonName windows ≠ "" ∧ (pythonName windows).toList.length ≤ 10 ∧
      '\x00' ∉ (pythonName windows).toList := by
    cases windows <;> decide
  have hpytest := heuristic_cases (@hasPythonTests_answers root).escapes
    (@heuristic_limits "python_pytest" "Python tests (pytest)"
      [pythonName windows, "-m", "pytest", "-q"]
      ⟨by simp, by simp, List.forall_mem_cons.mpr ⟨hpython, by decide⟩⟩ (by decide) (by decide))
  have hnpm := heuristic_cases (@hasRealNpmTestScript_cases φ codec levels root)
    (@heuristic_limits "npm_test" "JavaScript/TypeScript tests (npm test)" ["npm", "test"]
      (by decide) (by decide) (by decide))
  have hcargo := heuristic_cases (@isFile_answers root "Cargo.toml").escapes
    (@heuristic_limits "cargo_test" "Rust tests (cargo test)" ["cargo", "test"]
      (by decide) (by decide) (by decide))
  have hgo := heuristic_cases (@isFile_answers root "go.mod").escapes
    (@heuristic_limits "go_test" "Go tests (go test)" ["go", "test", "./..."]
      (by decide) (by decide) (by decide))
  unfold detectHeuristicChecks
  rcases hpytest with ⟨hq₁, pytest, h₁, hids₁, hsum₁⟩ | ⟨hq₁, hescapes⟩
  swap
  · exact .inr ⟨fun h => hq₁ h.python, hescapes.bind⟩
  rw [h₁]
  rcases hnpm with ⟨hq₂, npm, h₂, hids₂, hsum₂⟩ | ⟨hq₂, hescapes⟩
  swap
  · exact .inr ⟨fun h => hq₂ h.package, hescapes.bind⟩
  rw [h₂]
  rcases hcargo with ⟨hq₃, cargo, h₃, hids₃, hsum₃⟩ | ⟨hq₃, hescapes⟩
  swap
  · exact .inr ⟨fun h => hq₃ h.cargo, hescapes.bind⟩
  rw [h₃]
  rcases hgo with ⟨hq₄, go, h₄, hids₄, hsum₄⟩ | ⟨hq₄, hescapes⟩
  swap
  · exact .inr ⟨fun h => hq₄ h.go, hescapes.bind⟩
  rw [h₄]
  refine .inl ⟨⟨hq₁, hq₂, hq₃, hq₄⟩, pytest ++ npm ++ cargo ++ go, rfl, ?_⟩
  have hids : ((pytest ++ npm ++ cargo ++ go).map (·.checkId)).Sublist
      [ofString "python_pytest", ofString "npm_test", ofString "cargo_test", ofString "go_test"] := by
    simp only [List.map_append]
    exact ((hids₁.append hids₂).append hids₃).append hids₄
  refine ⟨hids.length_le.trans (by decide), hids.nodup (by decide), ?_⟩
  simp only [List.map_append, List.sum_append]
  have hbudget : 4 * defaultTimeoutMs ≤ maxTotalTimeoutMs := by decide
  omega

end Heuristics

section Detection

variable {φ : Type} (codec : FloatCodec φ) (levels : ℕ)

/-- The items of an explicit file: those that the loader's own checks let through are within the
limits of the constructors, and so is the whole when they let all of them through. -/
structure ItemsConfined (items : List (JsonData φ)) : Prop where
  entries : ∀ entry ∈ front items, entry.InLimits
  plan : complete items = true →
    PlanLimits ((front items).map (·.checkId)) ((front items).map (·.timeoutMs))

/-- What the explicit file must not be, and the heuristics when there is none. -/
def Confined (root : Root) : Prop :=
  match root.look verifyJsonRel with
  | .denied => False
  | .absent | .directory => HeuristicsQuiet codec levels root
  | .unreadable | .file _ =>
      match (root.readJson codec levels verifyJsonRel : Except Unparsed (JsonData φ)) with
      | .error cause => cause ≠ .json .recursion
      | .ok (.arr items) => ItemsConfined items
      | .ok _ => True

/-- The answer of a detection, or its own error. -/
def Ends {α : Type} (outcome : Except DetectError α) : Prop :=
  (∃ answer, outcome = .ok answer) ∨ ∃ e, outcome = .error (.pipelineInput e)

lemma Escapes.not_ends {α : Type} {outcome : Except DetectError α} (h : Escapes outcome) :
    ¬ Ends outcome := by
  obtain ⟨e, rfl, hescapes⟩ := h
  rintro (⟨answer, hends⟩ | ⟨error, hends⟩)
  · cases hends
  · cases hends
    cases hescapes

variable {codec levels}

/-- A detection that the explicit file decides. -/
lemma detect_file {windows : Bool} {uuid : Uuid} {root : Root}
    (hfile : root.isFile verifyJsonRel = .ok true) :
    detectVerificationPlan codec levels windows uuid root =
      match (root.readJson codec levels verifyJsonRel : Except Unparsed (JsonData φ)) with
      | .error cause =>
          if cause.escapes then .error .recursion
          else .error (.pipelineInput (.unparsed verifyJsonRel cause))
      | .ok (.arr (item :: rest)) =>
          (loadChecks 0 (item :: rest) >>= makePlan uuid).map some
      | .ok _ => .error (.pipelineInput (.refused
          s!"{verifyJsonRel} must be a non-empty JSON list of checks.")) := by
  unfold detectVerificationPlan loadExplicitPlan
  rw [hfile]
  cases hread : (root.readJson codec levels verifyJsonRel : Except Unparsed (JsonData φ)) with
  | error cause =>
      cases hcause : cause.escapes <;> simp [bind, Except.bind, hcause, throw, throwThe,
        MonadExceptOf.throw]
  | ok value =>
      cases value with
      | arr items =>
          cases items with
          | nil => simp [bind, Except.bind, throw, throwThe, MonadExceptOf.throw]
          | cons item rest =>
              cases hload : loadChecks 0 (item :: rest) with
              | error e => simp [bind, Except.bind, hload, Except.map]
              | ok checks =>
                  cases hplan : makePlan uuid checks <;>
                    simp [bind, Except.bind, hload, hplan, pure, Except.pure, Except.map]
      | _ => simp [bind, Except.bind, throw, throwThe, MonadExceptOf.throw]

/-- A detection without an explicit file. -/
lemma detect_heuristics {windows : Bool} {uuid : Uuid} {root : Root}
    (hfile : root.isFile verifyJsonRel = .ok false) :
    detectVerificationPlan codec levels windows uuid root =
      detectHeuristicChecks codec levels (pythonName windows) root >>= fun checks =>
        if checks = [] then .ok none else (makePlan uuid checks).map some := by
  unfold detectVerificationPlan loadExplicitPlan
  rw [hfile]
  cases detectHeuristicChecks codec levels (pythonName windows) root with
  | error e => rfl
  | ok checks =>
      by_cases hnil : checks = []
      · simp [bind, Except.bind, pure, Except.pure, hnil]
      · cases hplan : makePlan uuid checks <;>
          simp [bind, Except.bind, pure, Except.pure, hnil, hplan, Except.map]

lemma loadPlan_cases (uuid : Uuid) {items : List (JsonData φ)} (hne : items ≠ []) :
    (ItemsConfined items ∧ Ends ((loadChecks 0 items >>= makePlan uuid).map some)) ∨
      ¬ ItemsConfined items ∧ Escapes ((loadChecks 0 items >>= makePlan uuid).map some) := by
  by_cases hentries : ∀ entry ∈ front items, entry.InLimits
  · rcases loadChecks_ok 0 hentries with
      ⟨checks, hload, hcomplete, hids, htimeouts⟩ | ⟨hcomplete, e, hload⟩
    · have hchecks : checks ≠ [] := by
        rintro rfl
        cases items with
        | nil => exact hne rfl
        | cons item rest =>
            simp only [complete, List.all_cons, Bool.and_eq_true] at hcomplete
            obtain ⟨entry, hentry⟩ := Option.isSome_iff_exists.mp hcomplete.1
            simp [front, hentry] at hids
      have hcases := makePlan_cases uuid hchecks
      rw [hids, htimeouts] at hcases
      rw [hload]
      rcases hcases with ⟨hlimits, plan, hplan⟩ | ⟨hlimits, e, hplan, hescapes⟩
      · refine .inl ⟨⟨hentries, fun _ => hlimits⟩, .inl ⟨some plan, ?_⟩⟩
        change (makePlan uuid checks).map some = _
        rw [hplan]
        rfl
      · refine .inr ⟨fun h => hlimits (h.plan hcomplete), e, ?_, hescapes⟩
        change (makePlan uuid checks).map some = _
        rw [hplan]
        rfl
    · refine .inl ⟨⟨hentries, fun h => ?_⟩, .inr ⟨e, by rw [hload]; rfl⟩⟩
      rw [hcomplete] at h
      cases h
  · obtain ⟨e, hload, hescapes⟩ := loadChecks_escapes 0 hentries
    exact .inr ⟨fun h => hentries h.entries, e, by rw [hload]; rfl, hescapes⟩

lemma detect_absent {windows : Bool} {uuid : Uuid} {root : Root}
    (hfile : root.isFile verifyJsonRel = .ok false) :
    (HeuristicsQuiet codec levels root ∧
      Ends (detectVerificationPlan codec levels windows uuid root)) ∨
    ¬ HeuristicsQuiet codec levels root ∧
      Escapes (detectVerificationPlan codec levels windows uuid root) := by
  rw [detect_heuristics hfile]
  rcases @detectHeuristicChecks_cases φ codec levels root windows with
    ⟨hquiet, checks, hchecks, hlimits⟩ | ⟨hquiet, hescapes⟩
  · refine .inl ⟨hquiet, .inl ?_⟩
    rw [hchecks]
    by_cases hnil : checks = []
    · exact ⟨none, if_pos hnil⟩
    · rcases makePlan_cases uuid hnil with ⟨-, plan, hplan⟩ | ⟨hnot, -⟩
      · refine ⟨some plan, (if_neg hnil).trans ?_⟩
        rw [hplan]
        rfl
      · exact (hnot hlimits).elim
  · exact .inr ⟨hquiet, hescapes.bind⟩

/-- What an explicit file that is there must not be. -/
lemma detect_present {windows : Bool} {uuid : Uuid} {root : Root}
    (hfile : root.isFile verifyJsonRel = .ok true) :
    let confined := match (root.readJson codec levels verifyJsonRel :
        Except Unparsed (JsonData φ)) with
      | .error cause => cause ≠ .json .recursion
      | .ok (.arr items) => ItemsConfined items
      | .ok _ => True
    (confined ∧ Ends (detectVerificationPlan codec levels windows uuid root)) ∨
      ¬ confined ∧ Escapes (detectVerificationPlan codec levels windows uuid root) := by
  rw [detect_file hfile]
  cases (root.readJson codec levels verifyJsonRel : Except Unparsed (JsonData φ)) with
  | error cause =>
      by_cases hcause : cause = .json .recursion
      · subst hcause
        exact .inr ⟨fun h => h rfl, .recursion, rfl, rfl⟩
      · have hescapes : cause.escapes = false := by simpa [Unparsed.escapes] using hcause
        simp only [hescapes]
        exact .inl ⟨hcause, .inr ⟨_, rfl⟩⟩
  | ok value =>
      cases value with
      | arr items =>
          cases items with
          | nil =>
              have hlimits : PlanLimits [] [] := ⟨by decide, List.nodup_nil, by decide⟩
              exact .inl ⟨⟨by simp [front], fun _ => hlimits⟩, .inr ⟨_, rfl⟩⟩
          | cons item rest => exact loadPlan_cases uuid (by simp)
      | _ => exact .inl ⟨trivial, .inr ⟨_, rfl⟩⟩

/-- A detection ends as it should where the workspace is confined; otherwise another error
escapes it. -/
lemma detect_cases (windows : Bool) (uuid : Uuid) (root : Root) :
    (Confined codec levels root ∧ Ends (detectVerificationPlan codec levels windows uuid root)) ∨
      ¬ Confined codec levels root ∧
        Escapes (detectVerificationPlan codec levels windows uuid root) := by
  unfold Confined
  cases hlook : root.look verifyJsonRel with
  | denied =>
      have hfile : root.isFile verifyJsonRel = .error .os := by rw [Root.isFile, hlook]
      refine .inr ⟨id, .os, ?_, rfl⟩
      unfold detectVerificationPlan loadExplicitPlan
      rw [hfile]
      rfl
  | absent => exact detect_absent (by rw [Root.isFile, hlook])
  | directory => exact detect_absent (by rw [Root.isFile, hlook])
  | unreadable => exact detect_present (by rw [Root.isFile, hlook])
  | file bytes => exact detect_present (by rw [Root.isFile, hlook])

/-- Only the error of the pipeline's input escapes a detection exactly where the workspace is
confined. A plan that it gives is valid, as all plans are. -/
theorem detection_typed_iff (codec : FloatCodec φ) (levels : ℕ) (windows : Bool) (uuid : Uuid)
    (root : Root) :
    ((∃ plan, detectVerificationPlan codec levels windows uuid root = .ok plan) ∨
      ∃ e, detectVerificationPlan codec levels windows uuid root = .error (.pipelineInput e)) ↔
    Confined codec levels root := by
  rcases @detect_cases φ codec levels windows uuid root with ⟨hconfined, hends⟩ | ⟨hnot, hescapes⟩
  · exact ⟨fun _ => hconfined, fun _ => hends⟩
  · exact ⟨fun h => (hescapes.not_ends h).elim, fun h => (hnot h).elim⟩

lemma not_ends_of_unconfined {windows : Bool} {uuid : Uuid} {root : Root}
    (h : ¬ Confined codec levels root) :
    ¬ ((∃ plan, detectVerificationPlan codec levels windows uuid root = .ok plan) ∨
      ∃ e, detectVerificationPlan codec levels windows uuid root = .error (.pipelineInput e)) := by
  rcases @detect_cases φ codec levels windows uuid root with ⟨hconfined, -⟩ | ⟨-, hescapes⟩
  · exact (h hconfined).elim
  · exact hescapes.not_ends

/-- A codec whose floats are all not a number. -/
def wholeNumbers : FloatCodec Unit where
  isFinite _ := false
  text _ := "NaN".toList
  parse _ := ()
  constant _ := ()
  literal _ h := by cases h
  parse_text _ h := by cases h

/-- A workspace with an explicit file and nothing else. -/
def onlyVerifyJson (text : String) : Root where
  look rel := if rel = verifyJsonRel then .file (Utf8.encode text.toList) else .absent
  testFiles := some false

/-- One check that may take no time. -/
def zeroTimeout : String :=
  "[\x7b\"id\": \"t\", \"title\": \"T\", \"argv\": [\"t\"], \"timeout_ms\": 0\x7d]"

def zeroTimeoutMembers : List (Points × JsonData Unit) :=
  [(ofString "id", .str (ofString "t")), (ofString "title", .str (ofString "T")),
    (ofString "argv", .arr [.str (ofString "t")]), (ofString "timeout_ms", .int 0)]

lemma zeroTimeout_unconfined : ¬ Confined wholeNumbers 100 (onlyVerifyJson zeroTimeout) := by
  have hlook : (onlyVerifyJson zeroTimeout).look verifyJsonRel =
      .file (Utf8.encode zeroTimeout.toList) := by
    simp [onlyVerifyJson]
  have hrender : ofChars (Project.universalNewlines zeroTimeout.toList) =
      render wholeNumbers (.arr [.obj zeroTimeoutMembers]) := by decide +kernel
  have hplain : plain wholeNumbers (.arr [.obj zeroTimeoutMembers]) = true := by decide +kernel
  have hnesting : nesting (.arr [.obj zeroTimeoutMembers]) ≤ 100 := by decide +kernel
  have hread : (onlyVerifyJson zeroTimeout).readJson wholeNumbers 100 verifyJsonRel =
      .ok (.arr [.obj zeroTimeoutMembers]) := by
    rw [Root.readJson, hlook]
    simp only [Utf8.fromUTF8?_encode, hrender]
    rw [loads_render hplain hnesting]
    rfl
  have hid : textOf zeroTimeoutMembers "id" = some (ofString "t") := by decide +kernel
  have htitle : textOf zeroTimeoutMembers "title" = some (ofString "T") := by decide +kernel
  have hargv : argvOf zeroTimeoutMembers = some [ofString "t"] := by decide +kernel
  have htimeout : timeoutOf zeroTimeoutMembers = some 0 := by decide +kernel
  unfold Confined
  rw [hlook]
  simp only [hread]
  intro hconfined
  have hentry := (hconfined.entries ⟨ofString "t", ofString "T", [ofString "t"], 0⟩ (by
    simp [front, entryOf, hid, htitle, hargv, htimeout])).positive
  simp at hentry

/-- A drawn UUID of zeros. -/
def zeroUuid : Uuid where
  text := List.replicate 36 '0'
  length := rfl
  digits := by
    intro c hc
    rw [List.eq_of_mem_replicate hc]
    decide

/-- A check that may take no time passes the loader's own checks, and the request refuses it. -/
theorem zero_timeout_escapes :
    ¬ ((∃ plan, detectVerificationPlan wholeNumbers 100 false zeroUuid
          (onlyVerifyJson zeroTimeout) = .ok plan) ∨
      ∃ e, detectVerificationPlan wholeNumbers 100 false zeroUuid (onlyVerifyJson zeroTimeout) =
        .error (.pipelineInput e)) :=
  not_ends_of_unconfined zeroTimeout_unconfined

end Detection

end Imece.PipelineRuntime
