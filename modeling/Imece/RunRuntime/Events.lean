import Imece.RunRuntime.EventTypes
import Imece.RunRuntime.Models

/-!
# Run events

The validated batch request, and the construction of a durable event.
-/
namespace Imece.RunRuntime

def currentSchemaVersion : ℤ := 1

/-- The event arguments as a caller hands them to `append_event`, unchecked. -/
structure EventArgs where
  type : String
  payload : PyValue
  schemaVersion : ℤ := currentSchemaVersion
  executionId : Option String := none
  turnId : Option String := none
  itemId : Option String := none
  causationId : Option String := none
  correlationId : Option String := none
  source : String := "system"
  createdAt : Option PyDateTime := none
  eventId : Option String := none

/-- A validated event request of a batch; an invalid one cannot be built. -/
structure RunEventSpec where
  type : String
  payload : JsonDict
  schemaVersion : ℤ := currentSchemaVersion
  executionId : Option String := none
  turnId : Option String := none
  itemId : Option String := none
  causationId : Option String := none
  correlationId : Option String := none
  source : String := "system"
  createdAt : Option PyDateTime := none
  eventId : Option String := none
  type_nonempty : type ≠ ""
  source_nonempty : source ≠ ""
  version_pos : 1 ≤ schemaVersion

/-- The arguments a batch passes on to `build_event`. -/
def RunEventSpec.args (spec : RunEventSpec) : EventArgs where
  type := spec.type
  payload := .dict spec.payload.entries
  schemaVersion := spec.schemaVersion
  executionId := spec.executionId
  turnId := spec.turnId
  itemId := spec.itemId
  causationId := spec.causationId
  correlationId := spec.correlationId
  source := spec.source
  createdAt := spec.createdAt
  eventId := spec.eventId

structure RunEvent where
  eventId : String
  runId : String
  seq : ℕ
  type : String
  schemaVersion : ℤ
  createdAt : Instant
  executionId : Option String
  turnId : Option String
  itemId : Option String
  causationId : Option String
  correlationId : Option String
  source : String
  payload : JsonDict

/-- The member of `RunEventType` the event's type string names, if any. -/
def RunEvent.kind (event : RunEvent) : Option RunEventType :=
  RunEventType.ofString? event.type

/-- `event.type == t`. -/
def RunEvent.isType (event : RunEvent) (t : RunEventType) : Bool := event.type == t.value

theorem RunEvent.kind_of_isType {event : RunEvent} {t : RunEventType}
    (h : event.isType t = true) : event.kind = some t := by
  simp only [RunEvent.isType, beq_iff_eq] at h
  simp [RunEvent.kind, h]

def validateEventPayload (payload : PyValue) : Except RunRuntimeError JsonDict :=
  (canonicalDictCopy payload "payload").mapError .ofJson

/-- `RunEventSpec(...)`: the checks of its `__post_init__`, in order. -/
def RunEventSpec.ofArgs (args : EventArgs) : Except RunRuntimeError RunEventSpec :=
  if htype : args.type = "" then
    .error (.eventValidation "RunEventSpec.type boş olmayan bir string olmalı.")
  else if hsource : args.source = "" then
    .error (.eventValidation "RunEventSpec.source boş olmayan bir string olmalı.")
  else if hversion : args.schemaVersion < 1 then
    .error (.eventValidation "RunEventSpec.schema_version >= 1 olmalı.")
  else
    match validateEventPayload args.payload with
    | .error e => .error e
    | .ok payload => .ok {
        type := args.type
        payload
        schemaVersion := args.schemaVersion
        executionId := args.executionId
        turnId := args.turnId
        itemId := args.itemId
        causationId := args.causationId
        correlationId := args.correlationId
        source := args.source
        createdAt := args.createdAt
        eventId := args.eventId
        type_nonempty := htype
        source_nonempty := hsource
        version_pos := by omega }

/-- `build_event`: the checks in the source's order, then the durable event. The
sequence number is the caller's and positive by type where it is `n + 1`. -/
def buildEvent (runId : String) (seq : ℕ) (args : EventArgs) (fresh : Fresh) :
    Except RunRuntimeError RunEvent :=
  if runId = "" then .error (.eventValidation "run_id boş olamaz.")
  else if args.type = "" then .error (.eventValidation "type geçerli, boş olmayan bir string olmalı")
  else if args.source = "" then
    .error (.eventValidation "source geçerli, boş olmayan bir string olmalı")
  else if seq < 1 then .error (.eventValidation "seq >= 1 olmalı")
  else if args.schemaVersion < 1 then .error (.eventValidation "schema_version >= 1 olmalı")
  else
    match validateEventPayload args.payload with
    | .error e => .error e
    | .ok payload =>
        match resolveCreatedAt args.createdAt fresh with
        | .error e => .error e
        | .ok createdAt => .ok {
            eventId := orFresh args.eventId fresh.uuid
            runId
            seq
            type := args.type
            schemaVersion := args.schemaVersion
            createdAt
            executionId := args.executionId
            turnId := args.turnId
            itemId := args.itemId
            causationId := args.causationId
            correlationId := args.correlationId
            source := args.source
            payload }

/-- What a built event keeps of its arguments. -/
theorem buildEvent_ok {runId : String} {seq : ℕ} {args : EventArgs} {fresh : Fresh}
    {event : RunEvent} (h : buildEvent runId seq args fresh = .ok event) :
    event.runId = runId ∧ event.seq = seq ∧ event.type = args.type ∧
      validateEventPayload args.payload = .ok event.payload := by
  unfold buildEvent at h
  repeat' split at h
  all_goals cases h
  rename_i hpayload _ _ _
  exact ⟨rfl, rfl, rfl, hpayload⟩

end Imece.RunRuntime
