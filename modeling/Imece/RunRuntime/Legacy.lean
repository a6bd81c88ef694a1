import Imece.RunRuntime.Sinks

/-!
# The legacy bridge

Translates the project runner's event dictionaries into canonical events, and
settles the run at the end of the worker and at the user's decision. A stage
event opens an execution; the adapter tracks the open one and moves on only for
events that committed.
-/
namespace Imece.RunRuntime

open Lib

/-- A legacy event: a Python dictionary of any values. -/
abbrev LegacyEvent := List (PyValue × PyValue)

/-- `ev.get(key, default)`. -/
def LegacyEvent.get (event : LegacyEvent) (key : String) (default : PyValue := .none) : PyValue :=
  ((event.find? fun entry => entry.1.eqStr key).map (·.2)).getD default

section Conversions

/-- `bool(value)`; an object of a foreign type counts as true. -/
def PyValue.truthy : PyValue → Bool
  | .none => false
  | .bool b => b
  | .int n => n ≠ 0
  | .float x => x ≠ .finite 0
  | .str s => s ≠ ""
  | .list items => !items.isEmpty
  | .dict entries => !entries.isEmpty
  | .object _ => true

/-- `value or default`. -/
def PyValue.orElse (value default : PyValue) : PyValue :=
  if value.truthy then value else default

/-- `list(value)`: the items of an iterable. -/
def pyList : PyValue → Except RunRuntimeError (List PyValue)
  | .list items => .ok items
  | .dict entries => .ok (entries.map (·.1))
  | .str s => .ok (s.toList.map fun c => .str c.toString)
  | _ => .error (.typeError "object is not iterable")

/-- `dict(value)`: of a mapping, or of a list of pairs. -/
def pyDict : PyValue → Except RunRuntimeError PyValue
  | .dict entries => .ok (.dict entries)
  | value => do
      let items ← pyList value
      let entries ← items.mapM fun item => do
        match ← pyList item with
        | [key, entry] => .ok (key, entry)
        | _ => .error (.valueError "dictionary update sequence element has wrong length")
      .ok (.dict entries)

/-- The digits of a Python numeral: no empty group between underscores. -/
def digitGroups (text : List Char) : Option ℕ :=
  let groups := (String.ofList text).splitOn "_"
  if groups.all fun group => group ≠ "" && group.toList.all Char.isDigit then
    some ((groups.flatMap String.toList).foldl (fun n c => 10 * n + (c.toNat - '0'.toNat)) 0)
  else none

/-- An optional sign in front of an unsigned numeral. -/
def signed {α : Type} (negate : α → α) (parse : List Char → Option α) : List Char → Option α
  | '-' :: rest => (parse rest).map negate
  | '+' :: rest => parse rest
  | text => parse text

def trimmed (text : String) : List Char :=
  ((text.toList.dropWhile Char.isWhitespace).reverse.dropWhile Char.isWhitespace).reverse

def signedInt (text : List Char) : Option ℤ :=
  signed (fun n => -n) (fun digits => (digitGroups digits).map Int.ofNat) text

/-- `int(text)` for numerals in ASCII digits. -/
def intOfText (text : String) : Except RunRuntimeError ℤ :=
  match signedInt (trimmed text) with
  | some n => .ok n
  | none => .error (.valueError "invalid literal for int() with base 10")

/-- `digits[.digits][e[sign]digits]` as an exact rational. -/
def decimalOfChars (text : List Char) : Option ℚ := do
  let (mantissa, exponentText) := text.span fun c => c != 'e' && c != 'E'
  let (whole, fractionText) := mantissa.span (· != '.')
  let fraction := fractionText.drop 1
  let wholeValue ← if whole.isEmpty && !fraction.isEmpty then some 0 else digitGroups whole
  let fractionValue ← if fraction.isEmpty then some 0 else digitGroups fraction
  let fractionDigits := (fraction.filter Char.isDigit).length
  let exponent ← if exponentText.isEmpty then some 0 else signedInt (exponentText.drop 1)
  return ((wholeValue : ℚ) + fractionValue / 10 ^ fractionDigits) * (10 : ℚ) ^ exponent

def floatOfChars (text : List Char) : Option PyFloat :=
  match (String.ofList text).toLower with
  | "inf" | "infinity" => some (.inf false)
  | "nan" => some .nan
  | _ => (decimalOfChars text).map PyFloat.round

def PyFloat.neg : PyFloat → PyFloat
  | .finite x => .finite (-x)
  | .inf negative => .inf (!negative)
  | .nan => .nan

/-- `float(text)` for numerals in ASCII digits. -/
def floatOfText (text : String) : Except RunRuntimeError PyFloat :=
  match signed PyFloat.neg floatOfChars (trimmed text) with
  | some x => .ok x
  | none => .error (.valueError "could not convert string to float")

/-- `int(value)`: a float is truncated towards zero. -/
def pyInt : PyValue → Except RunRuntimeError ℤ
  | .int n => .ok n
  | .bool b => .ok (if b then 1 else 0)
  | .float (.finite x) => .ok (if 0 ≤ x then ⌊x⌋ else ⌈x⌉)
  | .float .nan => .error (.valueError "cannot convert float NaN to integer")
  | .float (.inf _) => .error .overflowError
  | .str text => intOfText text
  | _ => .error (.typeError "int() argument must be a string or a number")

/-- `float(value)`. -/
def pyFloat : PyValue → Except RunRuntimeError PyFloat
  | .float x => .ok x
  | .int n => match PyFloat.ofInt n with
      | some x => .ok x
      | none => .error .overflowError
  | .bool b => .ok (.finite (if b then 1 else 0))
  | .str text => floatOfText text
  | _ => .error (.typeError "float() argument must be a string or a number")

end Conversions

/-- An intended canonical event, not yet recorded. -/
structure CanonicalEventSpec where
  type : String
  payload : PyValue
  executionId : Option String

/-- What `commit_recorded` advances: the legacy stage and the open execution. -/
structure LegacyEventAdapter where
  stage : Option String := none
  executionId : Option String := none
deriving DecidableEq, Repr

namespace LegacyEventAdapter

def legacySource : String := "legacy.project_runner"

/-- `_STAGE_PHASE` and `_STAGE_ROLE`. -/
def stagePhase : String → Option (String × String)
  | "plan" => some ("planning", "planner")
  | "code" => some ("executing", "worker")
  | "review" => some ("reviewing", "reviewer")
  | _ => none

def markExecutionClosed (adapter : LegacyEventAdapter) (executionId : Option String) :
    LegacyEventAdapter :=
  if executionId.isSome ∧ executionId = adapter.executionId then
    { adapter with executionId := none }
  else adapter

/-- `payload.get("legacy_stage")` of a started execution. -/
def stageOfPayload : PyValue → Option String
  | .dict entries =>
      match LegacyEvent.get entries "legacy_stage" with
      | .str stage => some stage
      | _ => none
  | _ => none

def commitRecorded (adapter : LegacyEventAdapter) (spec : CanonicalEventSpec) :
    LegacyEventAdapter :=
  if spec.type = RunEventType.executionCompleted.value ∨
      spec.type = RunEventType.executionFailed.value then
    adapter.markExecutionClosed spec.executionId
  else if spec.type = RunEventType.executionStarted.value then
    { executionId := spec.executionId, stage := stageOfPayload spec.payload }
  else adapter

variable (adapter : LegacyEventAdapter) (event : LegacyEvent)

def stageValue : PyValue := .ofOption .str adapter.stage

def unknown : CanonicalEventSpec where
  type := "legacy.event"
  payload := payloadOf [("event", .dict event)]
  executionId := adapter.executionId

/-- The spec that closes the open execution, if there is one. -/
def currentCloseSpec : List CanonicalEventSpec :=
  match adapter.executionId with
  | none => []
  | some id => [{
      type := RunEventType.executionCompleted.value
      payload := payloadOf []
      executionId := some id }]

/-- A stage event opens a new execution, after closing the open one. -/
def onStage (newExecutionId : String) : Except RunRuntimeError (List CanonicalEventSpec) :=
  match event.get "stage" with
  | .str stage =>
      match stagePhase stage with
      | none => .ok [unknown adapter event]
      | some (phase, role) => .ok (currentCloseSpec adapter ++ [
          { type := RunEventType.runPhaseChanged.value
            payload := payloadOf [("phase", .str phase)]
            executionId := none },
          { type := RunEventType.executionStarted.value
            payload := payloadOf ([("role", .str role), ("legacy_stage", .str stage),
              ("provider", event.get "provider")] ++
              if stage = "code" then [("legacy_role", .str "coder")] else [])
            executionId := some newExecutionId }])
  | .list _ | .dict _ => .error (.typeError "unhashable type")
  | _ => .ok [unknown adapter event]

def output (kind : String) (text stage : PyValue) : CanonicalEventSpec where
  type := RunEventType.executionOutput.value
  payload := payloadOf [("kind", .str kind), ("text", text), ("legacy_stage", stage)]
  executionId := adapter.executionId

def onInfo : CanonicalEventSpec :=
  output adapter "info" (event.get "text" (.str "")) adapter.stageValue

def onOutput : CanonicalEventSpec :=
  output adapter "model_output" (event.get "text" (.str ""))
    (event.get "stage" adapter.stageValue)

/-- Legacy metrics carry one total; the prompt and completion counts stay zero. -/
def onMetric : Except RunRuntimeError CanonicalEventSpec := do
  let totalTokens ← pyInt (event.get "tokens" (.int 0))
  let costUsd ← pyFloat (event.get "cost_usd" (.float (.finite 0)))
  let latencyS ← pyFloat (event.get "latency_s" (.float (.finite 0)))
  return {
    type := RunEventType.usageRecorded.value
    payload := payloadOf [
      ("total_tokens", .int totalTokens),
      ("cost_usd", .float costUsd),
      ("latency_s", .float latencyS),
      ("provider", event.get "provider"),
      ("model", event.get "model"),
      ("legacy_stage", event.get "stage" adapter.stageValue)]
    executionId := adapter.executionId }

def onPlan : Except RunRuntimeError CanonicalEventSpec := do
  let files ← pyList ((event.get "files").orElse (.list []))
  return {
    type := RunEventType.planCompleted.value
    payload := payloadOf [("summary", event.get "summary" (.str "")), ("files", .list files)]
    executionId := adapter.executionId }

def onDiff : CanonicalEventSpec where
  type := RunEventType.changeProposed.value
  payload := payloadOf [
    ("path", event.get "path" (.str "")),
    ("is_new", .bool (event.get "is_new").truthy),
    ("diff", event.get "diff" (.str ""))]
  executionId := adapter.executionId

def onVerdict : CanonicalEventSpec where
  type := RunEventType.reviewCompleted.value
  payload := payloadOf [
    ("verdict", event.get "verdict" (.str "UNKNOWN")),
    ("note", event.get "note" (.str ""))]
  executionId := adapter.executionId

def proposalPayload : PyValue → Except RunRuntimeError PyValue
  | .dict proposal => .ok (payloadOf [
      ("path", LegacyEvent.get proposal "path" (.str "")),
      ("new", LegacyEvent.get proposal "new" (.str "")),
      ("diff", LegacyEvent.get proposal "diff" (.str "")),
      ("is_new", .bool (LegacyEvent.get proposal "is_new").truthy)])
  | _ => .error (.typeError "object has no attribute 'get'")

/-- A proposal event parks the run only when it proposes something. -/
def onProposal : Except RunRuntimeError (List CanonicalEventSpec) := do
  let items ← pyList ((event.get "proposals").orElse (.list []))
  let proposals ← items.mapM proposalPayload
  let totals ← pyDict ((event.get "totals").orElse (.dict []))
  return currentCloseSpec adapter ++ [{
      type := RunEventType.proposalReady.value
      payload := payloadOf [("proposals", .list proposals), ("totals", totals),
        ("verdict", event.get "verdict")]
      executionId := none }] ++
    if proposals.isEmpty then [] else [{
      type := RunEventType.runWaitingUser.value
      payload := payloadOf []
      executionId := none }]

/-- `translate`: reads the adapter, writes nothing. -/
def translate (newExecutionId : String) : Except RunRuntimeError (List CanonicalEventSpec) :=
  match event.get "type" with
  | .str "stage" => onStage adapter event newExecutionId
  | .str "info" => .ok [onInfo adapter event]
  | .str "output" => .ok [onOutput adapter event]
  | .str "metric" => (onMetric adapter event).map ([·])
  | .str "plan" => (onPlan adapter event).map ([·])
  | .str "diff" => .ok [onDiff adapter event]
  | .str "verdict" => .ok [onVerdict adapter event]
  | .str "proposal" => onProposal adapter event
  | .list _ | .dict _ => .error (.typeError "unhashable type")
  | _ => .ok [unknown adapter event]

end LegacyEventAdapter

namespace LegacyRunCoordinator

def lifecycleSource : String := "webhost.run"

/-- The event a spec is recorded as. -/
def specArgs (runId : String) (spec : CanonicalEventSpec) : EventArgs where
  type := spec.type
  payload := spec.payload
  executionId := spec.executionId
  source := LegacyEventAdapter.legacySource
  correlationId := some runId

/-- The loop of `handle_legacy_event`: record, then advance the adapter; the first
failure stops it with the adapter at what committed. No number is expected and no
status is read. -/
def recordSpecs (runId : String) (fresh : ℕ → Fresh) :
    LegacyEventAdapter → List (CanonicalEventSpec × ℕ) → RunProg (Ended LegacyEventAdapter)
  | adapter, [] => returned adapter
  | adapter, (spec, i) :: rest => do
      match ← (record runId (specArgs runId spec) none (fresh i)).attempt with
      | .error e => raised adapter e
      | .ok _ => recordSpecs runId fresh (adapter.commitRecorded spec) rest

def handleLegacyEvent (runId : String) (adapter : LegacyEventAdapter) (event : LegacyEvent)
    (newExecutionId : String) (fresh : ℕ → Fresh) : RunProg (Ended LegacyEventAdapter) :=
  match adapter.translate event newExecutionId with
  | .error e => raised adapter e
  | .ok specs => recordSpecs runId fresh adapter specs.zipIdx

/-- An event of the run's lifecycle. -/
def lifecycleArgs (runId : String) (type : RunEventType) (fields : List (String × PyValue))
    (executionId : Option String := none) : EventArgs where
  type := type.value
  payload := payloadOf fields
  executionId
  source := lifecycleSource
  correlationId := some runId

/-- `finish_normal`: a run that waits for the user, or is over, is left alone. -/
def finishNormal (runId : String) (fresh : Fresh) : RunProg Unit := do
  let current ← getRun runId
  if current.status ≠ .running then return ()
  else
    let _ ← record runId (lifecycleArgs runId .runCompleted []) (some current.lastEventSeq) fresh
    return ()

/-- The terminal write of a failed or cancelled worker; an open execution is
settled first, and the adapter forgets it only once that has committed. -/
def closeThen (runId : String) (adapter : LegacyEventAdapter) (type : RunEventType)
    (executionFields runFields : List (String × PyValue)) (fresh : ℕ → Fresh) :
    RunProg (Ended LegacyEventAdapter) := do
  match ← (getRun runId).attempt with
  | .error e => raised adapter e
  | .ok current =>
      if current.status.isTerminal then returned adapter
      else
        match adapter.executionId with
        | none => finish adapter current.lastEventSeq
        | some id => do
            match ← (record runId (lifecycleArgs runId .executionFailed executionFields (some id))
                (some current.lastEventSeq) (fresh 0)).attempt with
            | .error e => raised adapter e
            | .ok (_, run) => finish (adapter.markExecutionClosed (some id)) run.lastEventSeq
where
  finish (adapter : LegacyEventAdapter) (expected : ℕ) : RunProg (Ended LegacyEventAdapter) := do
    match ← (record runId (lifecycleArgs runId type runFields) (some expected)
        (fresh 1)).attempt with
    | .error e => raised adapter e
    | .ok _ => returned adapter

def finishFailed (runId : String) (adapter : LegacyEventAdapter) (message : String)
    (fresh : ℕ → Fresh) : RunProg (Ended LegacyEventAdapter) :=
  closeThen runId adapter .runFailed [("error_message", .str message)]
    [("error_code", .str "legacy_worker_error"), ("error_message", .str message)] fresh

def finishCancelled (runId : String) (adapter : LegacyEventAdapter) (fresh : ℕ → Fresh) :
    RunProg (Ended LegacyEventAdapter) :=
  closeThen runId adapter .runCancelled
    [("error_message", .str "cancelled"), ("cancelled", .bool true)] [] fresh

/-- Apply and Reject: only while the run waits, at the number that was read. -/
def recordDecision (runId : String) (type : RunEventType) (fields : List (String × PyValue))
    (fresh : Fresh) : RunProg (RunEvent × RunRecord) := do
  let current ← getRun runId
  if current.status ≠ .waitingUser then
    Prog.throw (.invalidRunState ("Run WAITING_USER durumunda değil (status=" ++
      current.status.value ++ "); " ++ type.value ++ " reddedildi."))
  else record runId (lifecycleArgs runId type fields) (some current.lastEventSeq) fresh

def recordProposalApplied (runId : String) (appliedPaths : List String) (checkpointId : String)
    (fresh : Fresh) : RunProg (RunEvent × RunRecord) :=
  recordDecision runId .proposalApplied
    [("applied", .strs appliedPaths), ("checkpoint_id", .str checkpointId)] fresh

def recordProposalRejected (runId : String) (rejectedPaths : List String) (fresh : Fresh) :
    RunProg (RunEvent × RunRecord) :=
  recordDecision runId .proposalRejected [("rejected", .strs rejectedPaths)] fresh

end LegacyRunCoordinator

end Imece.RunRuntime
