import Std.Data.ExtTreeMap
import Imece.CollabRuntime.Paths
import Imece.Lib.JsonFields

/-!
# The state of a session

The shared context and the tasks of a session, the document they are written to, and
the strict parser that every document goes through.
-/
namespace Imece.CollabRuntime

open Lib

def maxTargetVersionChars : ℕ := 200
def maxGoalChars : ℕ := 4000
def maxDecisions : ℕ := 64
def maxDecisionChars : ℕ := 2000
def maxInterfaces : ℕ := 64
def maxInterfaceValueChars : ℕ := 4000
def maxTasks : ℕ := 256
def maxScopesPerTask : ℕ := 32
def maxTaskGoalChars : ℕ := 4000

def activeStatuses : List String := ["queued", "running", "waiting"]
def allStatuses : List String := activeStatuses ++ ["done"]

def stateKeys : List String :=
  ["schema", "session_id", "target_version", "base_commit", "context", "tasks"]
def contextKeys : List String := ["goal", "decisions", "interfaces"]
def taskKeys : List String := ["owner", "goal", "scopes", "status", "context_revision"]

section Fields

/-- `[A-Za-z0-9][A-Za-z0-9._-]{0,127}` -/
def isSafeId (text : String) : Bool :=
  match text.toList with
  | [] => false
  | first :: rest => first.isAlphanum && decide (rest.length ≤ 127) &&
      rest.all fun c => c.isAlphanum || c == '.' || c == '_' || c == '-'

def safeId (value : Json) (what : String) : Except CollabError String :=
  match value with
  | .str text =>
      if isSafeId text then .ok text
      else .error (.validation
        s!"{what} must be 1-128 chars of [A-Za-z0-9._-] starting with a letter or digit.")
  | _ => .error (.validation
      s!"{what} must be 1-128 chars of [A-Za-z0-9._-] starting with a letter or digit.")

def isLowerHex (c : Char) : Bool := c.isDigit || (decide ('a' ≤ c) && decide (c ≤ 'f'))

/-- `[0-9a-f]{40}` -/
def isSha (text : String) : Bool := text.toList.length == 40 && text.toList.all isLowerHex

def shaHex (value : Json) (what : String) : Except CollabError String :=
  match value with
  | .str text =>
      if isSha text then .ok text
      else .error (.validation s!"{what} must be a full 40-character lowercase hex git SHA.")
  | _ => .error (.validation s!"{what} must be a full 40-character lowercase hex git SHA.")

def boundedText (value : Json) (what : String) (limit : ℕ) : Except CollabError String :=
  match value with
  | .str text =>
      if text.toList.any badChar then
        .error (.validation s!"{what} must not contain control characters or surrogates.")
      else if limit < text.toList.length then
        .error (.validation s!"{what} exceeds the {limit}-character limit.")
      else .ok text
  | _ => .error (.validation s!"{what} must be a string.")

/-- A dict has every key once. -/
def requireDict (obj : Json) (what : String) : Except CollabError (List (String × Json)) :=
  match obj with
  | .obj members => .ok (Json.dictOf members)
  | _ => .error (.validation s!"{what} must be a JSON object.")

/-- The members of an object that has exactly the allowed keys. -/
def exactKeys (obj : Json) (allowed : List String) (what : String) :
    Except CollabError (List (String × Json)) := do
  let members ← requireDict obj what
  if members.any (fun member => member.1 ∉ allowed) then
    .error (.validation
      s!"{what} has unknown fields (schema1 allows only documented fields).")
  else if allowed.any (fun key => key ∉ members.map (·.1)) then
    .error (.validation s!"{what} is missing required fields.")
  else .ok members

def requireList (value : Json) (message : String) : Except CollabError (List Json) :=
  match value with
  | .arr items => .ok items
  | _ => .error (.validation message)

def atMost (count limit : ℕ) (message : String) : Except CollabError Unit :=
  if limit < count then .error (.validation message) else .ok ()

end Fields

structure SharedContext where
  goal : String
  decisions : List String
  interfaces : List (String × String)
deriving DecidableEq, Repr

structure Task where
  id : String
  owner : String
  goal : String
  scopes : List String
  status : String
  contextRevision : String
deriving DecidableEq, Repr

/-- The tasks of a session, each under its key: two mappings are equal if they have the
same tasks. -/
abbrev Tasks := Std.ExtTreeMap String Task compare

structure SessionState where
  sessionId : String
  targetVersion : String
  baseCommit : String
  context : SharedContext
  tasks : Tasks
deriving DecidableEq

section Documents

def SharedContext.toDict (context : SharedContext) : Json :=
  .obj [("goal", .str context.goal), ("decisions", .arr (context.decisions.map .str)),
    ("interfaces", .obj (Json.dictOf (context.interfaces.map fun pair => (pair.1, .str pair.2))))]

def Task.toDict (task : Task) : Json :=
  .obj [("owner", .str task.owner), ("goal", .str task.goal),
    ("scopes", .arr (task.scopes.map .str)), ("status", .str task.status),
    ("context_revision", .str task.contextRevision)]

def SessionState.toDict (state : SessionState) : Json :=
  .obj [("schema", .int 1), ("session_id", .str state.sessionId),
    ("target_version", .str state.targetVersion), ("base_commit", .str state.baseCommit),
    ("context", state.context.toDict),
    ("tasks", .obj (state.tasks.toList.map fun entry => (entry.1, entry.2.toDict)))]

def SessionState.withContext (state : SessionState) (context : SharedContext) : SessionState :=
  { state with context := context }

def SessionState.withTask (state : SessionState) (task : Task) : SessionState :=
  { state with tasks := state.tasks.insert task.id task }

end Documents

section Parsing

def parseInterface (entry : String × Json) : Except CollabError (String × String) := do
  let key ← safeId (.str entry.1) "interface name"
  let value ← boundedText entry.2 "interface value" maxInterfaceValueChars
  return (key, value)

def parseContext (obj : Json) : Except CollabError SharedContext := do
  let members ← exactKeys obj contextKeys "context"
  let goal ← boundedText (Json.field members "goal") "context.goal" maxGoalChars
  let rawDecisions ← requireList (Json.field members "decisions")
    "context.decisions must be a list."
  atMost rawDecisions.length maxDecisions s!"at most {maxDecisions} decisions are allowed."
  let decisions ← rawDecisions.mapM fun d => boundedText d "context decision" maxDecisionChars
  let rawInterfaces ← requireDict (Json.field members "interfaces") "context.interfaces"
  atMost rawInterfaces.length maxInterfaces s!"at most {maxInterfaces} interfaces are allowed."
  let interfaces ← rawInterfaces.mapM parseInterface
  return ⟨goal, decisions, Json.sortPairs interfaces⟩

/-- The loop over the scopes of a task keeps the first of each. -/
def addScope (scopes : List String) (scope : String) : List String :=
  if scope ∈ scopes then scopes else scopes ++ [scope]

def parseStatus (value : Json) : Except CollabError String :=
  match value with
  | .str status =>
      if status ∈ allStatuses then .ok status
      else .error (.validation "task status must be one of: queued, running, waiting, done.")
  | _ => .error (.validation "task status must be one of: queued, running, waiting, done.")

def parseTask (taskId : String) (obj : Json) : Except CollabError Task := do
  let members ← exactKeys obj taskKeys "task entry"
  let owner ← safeId (Json.field members "owner") "task owner"
  let goal ← boundedText (Json.field members "goal") "task goal" maxTaskGoalChars
  let rawScopes ← requireList (Json.field members "scopes") "task scopes must be a list."
  atMost rawScopes.length maxScopesPerTask
    s!"at most {maxScopesPerTask} scopes per task are allowed."
  let scopes ← rawScopes.mapM scopePath
  let status ← parseStatus (Json.field members "status")
  let id ← safeId (.str taskId) "task id"
  let contextRevision ← shaHex (Json.field members "context_revision") "task context_revision"
  return ⟨id, owner, goal, scopes.foldl addScope [], status, contextRevision⟩

def parseSchema (value : Json) : Except CollabError Unit :=
  match value with
  | .int 1 => .ok ()
  | _ => .error (.validation "session state schema must be exactly 1.")

def parseEntry (entry : String × Json) : Except CollabError (String × Task) := do
  let key ← safeId (.str entry.1) "task id"
  let task ← parseTask entry.1 entry.2
  return (key, task)

/-- Strictly validate a schema 1 state document. -/
def parseStateDict (obj : Json) : Except CollabError SessionState := do
  let members ← exactKeys obj stateKeys "session state"
  parseSchema (Json.field members "schema")
  let sessionId ← safeId (Json.field members "session_id") "session_id"
  let targetVersion ← boundedText (Json.field members "target_version") "target_version"
    maxTargetVersionChars
  let baseCommit ← shaHex (Json.field members "base_commit") "base_commit"
  let context ← parseContext (Json.field members "context")
  let rawTasks ← requireDict (Json.field members "tasks") "tasks"
  atMost rawTasks.length maxTasks s!"at most {maxTasks} tasks are allowed."
  let tasks ← rawTasks.mapM parseEntry
  return ⟨sessionId, targetVersion, baseCommit, context, .ofList tasks⟩

def buildInitialState (sessionId targetVersion baseCommit : String) :
    Except CollabError SessionState := do
  return ⟨← safeId (.str sessionId) "session_id",
    ← boundedText (.str targetVersion) "target_version" maxTargetVersionChars,
    ← shaHex (.str baseCommit) "base_commit", ⟨"", [], []⟩, ∅⟩

def buildContext (goal : String) (decisions : List String) (interfaces : List (String × String)) :
    Except CollabError SharedContext :=
  parseContext (.obj [("goal", .str goal), ("decisions", .arr (decisions.map .str)),
    ("interfaces", .obj (Json.dictOf (interfaces.map fun pair => (pair.1, .str pair.2))))])

def buildTask (taskId owner goal : String) (scopes : List String) (status contextRevision : String) :
    Except CollabError Task :=
  parseTask taskId (.obj [("owner", .str owner), ("goal", .str goal),
    ("scopes", .arr (scopes.map .str)), ("status", .str status),
    ("context_revision", .str contextRevision)])

end Parsing

section Specifications

def Bounded (text : String) (limit : ℕ) : Prop :=
  (∀ c ∈ text.toList, badChar c = false) ∧ text.toList.length ≤ limit

lemma safeId_eq_ok {value : Json} {what text : String} :
    safeId value what = .ok text ↔ value = .str text ∧ isSafeId text = true := by
  cases value with
  | str other =>
      rw [safeId, Json.str.injEq]
      split_ifs with h
      · rw [Except.ok.injEq]
        exact ⟨fun heq => ⟨heq, heq ▸ h⟩, fun heq => heq.1⟩
      · refine ⟨nofun, fun heq => ?_⟩
        exact absurd (heq.1 ▸ heq.2) h
  | null | bool | int | float | arr | obj => simp [safeId]

lemma shaHex_eq_ok {value : Json} {what text : String} :
    shaHex value what = .ok text ↔ value = .str text ∧ isSha text = true := by
  cases value with
  | str other =>
      rw [shaHex, Json.str.injEq]
      split_ifs with h
      · rw [Except.ok.injEq]
        exact ⟨fun heq => ⟨heq, heq ▸ h⟩, fun heq => heq.1⟩
      · refine ⟨nofun, fun heq => ?_⟩
        exact absurd (heq.1 ▸ heq.2) h
  | null | bool | int | float | arr | obj => simp [shaHex]

lemma boundedText_eq_ok {value : Json} {what text : String} {limit : ℕ} :
    boundedText value what limit = .ok text ↔ value = .str text ∧ Bounded text limit := by
  cases value with
  | str other =>
      have hbounded : Bounded other limit ↔
          ¬ other.toList.any badChar = true ∧ ¬ limit < other.toList.length := by
        simp [Bounded]
      rw [boundedText, Json.str.injEq]
      split_ifs with hchars hlength
      · refine ⟨nofun, ?_⟩
        rintro ⟨rfl, h⟩
        exact absurd hchars (hbounded.mp h).1
      · refine ⟨nofun, ?_⟩
        rintro ⟨rfl, h⟩
        exact absurd hlength (hbounded.mp h).2
      · rw [Except.ok.injEq]
        constructor
        · rintro rfl
          exact ⟨rfl, hbounded.mpr ⟨hchars, hlength⟩⟩
        · exact fun h => h.1
  | null | bool | int | float | arr | obj => simp [boundedText]

lemma parseStatus_eq_ok {value : Json} {status : String} :
    parseStatus value = .ok status ↔ value = .str status ∧ status ∈ allStatuses := by
  cases value with
  | str other =>
      rw [parseStatus, Json.str.injEq]
      split_ifs with h
      · rw [Except.ok.injEq]
        exact ⟨fun heq => ⟨heq, heq ▸ h⟩, fun heq => heq.1⟩
      · refine ⟨nofun, fun heq => ?_⟩
        exact absurd (heq.1 ▸ heq.2) h
  | null | bool | int | float | arr | obj => simp [parseStatus]

lemma parseSchema_eq_ok {value : Json} {u : Unit} :
    parseSchema value = .ok u ↔ value = .int 1 := by
  unfold parseSchema
  split
  · simp
  · rename_i h
    exact ⟨nofun, fun heq => absurd heq h⟩

lemma requireList_eq_ok {value : Json} {message : String} {items : List Json} :
    requireList value message = .ok items ↔ value = .arr items := by
  cases value <;> simp [requireList]

lemma requireDict_eq_ok {value : Json} {what : String} {members : List (String × Json)} :
    requireDict value what = .ok members ↔
      ∃ pairs, value = .obj pairs ∧ members = Json.dictOf pairs := by
  cases value <;> simp [requireDict, eq_comm]

lemma atMost_eq_ok {count limit : ℕ} {message : String} {u : Unit} :
    atMost count limit message = .ok u ↔ count ≤ limit := by
  unfold atMost
  split_ifs with h
  · exact ⟨nofun, fun hle => absurd h (by omega)⟩
  · exact iff_of_true rfl (by omega)

lemma exactKeys_eq_ok {obj : Json} {allowed : List String} {what : String}
    {members : List (String × Json)} :
    exactKeys obj allowed what = .ok members ↔
      (∃ pairs, obj = .obj pairs ∧ members = Json.dictOf pairs) ∧
        ∀ key, key ∈ members.map (·.1) ↔ key ∈ allowed := by
  rw [exactKeys, except_bind_eq_ok]
  constructor
  · rintro ⟨found, hfound, h⟩
    split_ifs at h with hunknown hmissing
    cases h
    refine ⟨requireDict_eq_ok.mp hfound, fun key => ⟨fun hkey => ?_, fun hkey => ?_⟩⟩
    · obtain ⟨member, hmember, rfl⟩ := List.mem_map.mp hkey
      by_contra hnot
      exact hunknown (List.any_eq_true.mpr ⟨member, hmember, by simpa using hnot⟩)
    · by_contra hnot
      exact hmissing (List.any_eq_true.mpr ⟨key, hkey, by simpa using hnot⟩)
  · rintro ⟨hobj, hkeys⟩
    refine ⟨members, requireDict_eq_ok.mpr hobj, ?_⟩
    rw [if_neg, if_neg]
    · rw [List.any_eq_true]
      rintro ⟨key, hkey, hnot⟩
      rw [decide_eq_true_eq] at hnot
      exact hnot ((hkeys key).mpr hkey)
    · rw [List.any_eq_true]
      rintro ⟨member, hmember, hnot⟩
      rw [decide_eq_true_eq] at hnot
      exact hnot ((hkeys member.1).mp (List.mem_map_of_mem hmember))

lemma exactKeys_objectOf {keys : List String} {get : String → Json} {obj : Json} (what : String)
    (h : Json.ObjectOf keys get obj) :
    ∃ members, exactKeys obj keys what = .ok members ∧
      ∀ key ∈ keys, Json.field members key = get key := by
  obtain ⟨members, rfl, hnodup, hkeys, hfields⟩ := h
  refine ⟨members, exactKeys_eq_ok.mpr ⟨⟨members, rfl, ?_⟩, hkeys⟩, hfields⟩
  exact (Json.dictOf_eq_self hnodup).symm

end Specifications

end Imece.CollabRuntime
