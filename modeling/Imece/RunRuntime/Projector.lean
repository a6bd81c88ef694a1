import Imece.Lib.EventLog
import Imece.RunRuntime.Events

/-!
# Run projection

`projectRun` is the pure step that derives a run row from its event stream. It
never touches the sequence number: the store assigns and advances it. An unknown
event type leaves the row as it is; a known type with an invalid payload fails.
-/
namespace Imece.RunRuntime

def phaseFromPayload (payload : JsonDict) : Except RunRuntimeError RunPhase :=
  match payload.get "phase" with
  | .str raw =>
      match RunPhase.ofString? raw with
      | some phase => .ok phase
      | none => .error (.runProjection "Geçersiz phase")
  | _ => .error (.runProjection "run.phase_changed 'phase' bir string olmalı")

def optionalStr (payload : JsonDict) (key eventType : String) :
    Except RunRuntimeError (Option String) :=
  match payload.get key with
  | .none => .ok none
  | .str s => .ok (some s)
  | _ => .error (.runProjection (eventType ++ " '" ++ key ++ "' bir string olmalı"))

def nonNegativeInt (value : PyValue) (field : String) : Except RunRuntimeError ℕ :=
  match value with
  | .int n =>
      if n < 0 then .error (.runProjection ("usage.recorded '" ++ field ++ "' negatif olamaz"))
      else .ok n.toNat
  | _ => .error (.runProjection ("usage.recorded '" ++ field ++ "' bir tam sayı olmalı"))

/-- `float(value)` overflows past binary64 before the finiteness test runs. -/
def nonNegativeNumber (value : PyValue) (field : String) : Except RunRuntimeError PyFloat :=
  match value with
  | .int n =>
      match PyFloat.ofInt n with
      | none => .error .overflowError
      | some x =>
          if n < 0 then .error (.runProjection ("usage.recorded '" ++ field ++ "' negatif olamaz"))
          else .ok x
  | .float (.finite q) =>
      if q < 0 then .error (.runProjection ("usage.recorded '" ++ field ++ "' negatif olamaz"))
      else .ok (.finite q)
  | .float _ =>
      .error (.runProjection ("usage.recorded '" ++ field ++ "' sonlu olmayan bir sayı"))
  | _ => .error (.runProjection ("usage.recorded '" ++ field ++ "' bir sayı olmalı"))

def onRunCreated (current : RunRecord) (_ : RunEvent) : Except RunRuntimeError RunRecord :=
  .ok { current with status := .created, phase := .created }

def onRunStarted (current : RunRecord) (event : RunEvent) : Except RunRuntimeError RunRecord :=
  .ok { current with
    status := .running
    phase := .starting
    startedAt := current.startedAt.or (some event.createdAt) }

def onPhaseChanged (current : RunRecord) (event : RunEvent) :
    Except RunRuntimeError RunRecord :=
  (phaseFromPayload event.payload).map fun phase => { current with phase }

def onWaitingUser (current : RunRecord) (_ : RunEvent) : Except RunRuntimeError RunRecord :=
  .ok { current with status := .waitingUser, phase := .ready }

/-- The one handler that looks at the status it leaves. -/
def onResumed (current : RunRecord) (_ : RunEvent) : Except RunRuntimeError RunRecord :=
  if current.status ≠ .waitingUser then
    .error (.runProjection "run.resumed yalnızca WAITING_USER durumunda geçerli")
  else .ok { current with status := .running, phase := .executing }

/-- The handlers that end a run: a status, a phase, and the first finish time. -/
def finishAs (status : RunStatus) (phase : RunPhase) (current : RunRecord) (event : RunEvent) :
    RunRecord :=
  { current with status, phase, finishedAt := current.finishedAt.or (some event.createdAt) }

def onCompleted (current : RunRecord) (event : RunEvent) : Except RunRuntimeError RunRecord :=
  .ok (finishAs .succeeded .done current event)

def onFailed (current : RunRecord) (event : RunEvent) : Except RunRuntimeError RunRecord :=
  match optionalStr event.payload "error_code" "run.failed" with
  | .error e => .error e
  | .ok errorCode =>
      match optionalStr event.payload "error_message" "run.failed" with
      | .error e => .error e
      | .ok errorMessage =>
          .ok { finishAs .failed .error current event with errorCode, errorMessage }

def onCancelled (current : RunRecord) (event : RunEvent) : Except RunRuntimeError RunRecord :=
  .ok (finishAs .cancelled .done current event)

def onInterrupted (current : RunRecord) (event : RunEvent) : Except RunRuntimeError RunRecord :=
  .ok (finishAs .interrupted .error current event)

def onProposalApplied (current : RunRecord) (event : RunEvent) :
    Except RunRuntimeError RunRecord :=
  .ok (finishAs .succeeded .applied current event)

def onProposalRejected (current : RunRecord) (event : RunEvent) :
    Except RunRuntimeError RunRecord :=
  .ok (finishAs .succeeded .rejected current event)

def onCheckpointRestored (current : RunRecord) (_ : RunEvent) :
    Except RunRuntimeError RunRecord :=
  .ok { current with status := .succeeded, phase := .restored }

/-- The amounts one `usage.recorded` adds. -/
structure Usage where
  promptTokens : ℕ
  completionTokens : ℕ
  totalTokens : ℕ
  costUsd : PyFloat
  latencyS : PyFloat

/-- An explicit null cost counts as zero. -/
def costFromPayload (payload : JsonDict) : Except RunRuntimeError PyFloat :=
  match payload.get "cost_usd" (.int 0) with
  | .none => .ok (.finite 0)
  | raw => nonNegativeNumber raw "cost_usd"

def usageFromPayload (payload : JsonDict) : Except RunRuntimeError Usage := do
  let promptTokens ← nonNegativeInt (payload.get "prompt_tokens" (.int 0)) "prompt_tokens"
  let completionTokens ←
    nonNegativeInt (payload.get "completion_tokens" (.int 0)) "completion_tokens"
  let totalTokens ←
    nonNegativeInt (payload.get "total_tokens" (.int (promptTokens + completionTokens)))
      "total_tokens"
  let costUsd ← costFromPayload payload
  let latencyS ← nonNegativeNumber (payload.get "latency_s" (.int 0)) "latency_s"
  return { promptTokens, completionTokens, totalTokens, costUsd, latencyS }

def onUsageRecorded (current : RunRecord) (event : RunEvent) :
    Except RunRuntimeError RunRecord :=
  (usageFromPayload event.payload).map fun usage => { current with
    promptTokens := current.promptTokens + usage.promptTokens
    completionTokens := current.completionTokens + usage.completionTokens
    totalTokens := current.totalTokens + usage.totalTokens
    costUsd := current.costUsd.add usage.costUsd
    latencyS := current.latencyS.add usage.latencyS }

/-- `_HANDLERS`: `none` for the event types the projection ignores. -/
def handlerOf : RunEventType → Option (RunRecord → RunEvent → Except RunRuntimeError RunRecord)
  | .runCreated => some onRunCreated
  | .runStarted => some onRunStarted
  | .runPhaseChanged => some onPhaseChanged
  | .runWaitingUser => some onWaitingUser
  | .runResumed => some onResumed
  | .runCompleted => some onCompleted
  | .runFailed => some onFailed
  | .runCancelled => some onCancelled
  | .runInterrupted => some onInterrupted
  | .proposalApplied => some onProposalApplied
  | .proposalRejected => some onProposalRejected
  | .checkpointRestored => some onCheckpointRestored
  | .usageRecorded => some onUsageRecorded
  | _ => none

def projectRun (current : RunRecord) (event : RunEvent) : Except RunRuntimeError RunRecord :=
  match event.kind.bind handlerOf with
  | none => .ok current
  | some handler => handler current event

/-- The status an event of a given type moves a run to, where the event is
accepted. Only these types move it. -/
def statusAfter (status : RunStatus) : Option RunEventType → RunStatus
  | some .runCreated => .created
  | some .runStarted => .running
  | some .runWaitingUser => .waitingUser
  | some .runResumed => .running
  | some .runCompleted => .succeeded
  | some .runFailed => .failed
  | some .runCancelled => .cancelled
  | some .runInterrupted => .interrupted
  | some .proposalApplied => .succeeded
  | some .proposalRejected => .succeeded
  | some .checkpointRestored => .succeeded
  | _ => status

/-- The columns of a run that no event changes. -/
structure RunRecord.SameRun (run other : RunRecord) : Prop where
  runId : other.runId = run.runId
  taskId : other.taskId = run.taskId
  attempt : other.attempt = run.attempt
  retryOfRunId : other.retryOfRunId = run.retryOfRunId
  routing : other.routing = run.routing
  budget : other.budget = run.budget
  workspaceSnapshot : other.workspaceSnapshot = run.workspaceSnapshot
  createdAt : other.createdAt = run.createdAt

theorem RunRecord.SameRun.refl (run : RunRecord) : run.SameRun run := by
  constructor <;> rfl

theorem RunRecord.SameRun.trans {a b c : RunRecord} (hab : a.SameRun b) (hbc : b.SameRun c) :
    a.SameRun c where
  runId := hbc.runId.trans hab.runId
  taskId := hbc.taskId.trans hab.taskId
  attempt := hbc.attempt.trans hab.attempt
  retryOfRunId := hbc.retryOfRunId.trans hab.retryOfRunId
  routing := hbc.routing.trans hab.routing
  budget := hbc.budget.trans hab.budget
  workspaceSnapshot := hbc.workspaceSnapshot.trans hab.workspaceSnapshot
  createdAt := hbc.createdAt.trans hab.createdAt

/-- Everything one projection step does to the columns outside usage, phase and
error: the run stays the same run, its sequence number is untouched, and its
status moves as `statusAfter` says. -/
structure Projected (current : RunRecord) (event : RunEvent) (next : RunRecord) : Prop where
  sameRun : current.SameRun next
  lastEventSeq : next.lastEventSeq = current.lastEventSeq
  status : next.status = statusAfter current.status event.kind

lemma onFailed_ok {current next : RunRecord} {event : RunEvent}
    (h : onFailed current event = .ok next) :
    ∃ errorCode errorMessage,
      next = { finishAs .failed .error current event with errorCode, errorMessage } := by
  simp only [onFailed] at h
  split at h
  · cases h
  · rename_i errorCode _
    split at h
    · cases h
    · rename_i errorMessage _
      cases h
      exact ⟨errorCode, errorMessage, rfl⟩

theorem projectRun_ok {current next : RunRecord} {event : RunEvent}
    (h : projectRun current event = .ok next) : Projected current event next := by
  unfold projectRun at h
  cases hkind : event.kind with
  | none =>
      simp only [hkind, Option.bind_none] at h
      cases h
      exact ⟨.refl _, rfl, by simp [hkind, statusAfter]⟩
  | some type =>
      simp only [hkind, Option.bind_some] at h
      cases type
      case runPhaseChanged =>
        simp only [handlerOf, onPhaseChanged, Lib.except_map_eq_ok] at h
        obtain ⟨phase, -, rfl⟩ := h
        exact ⟨⟨rfl, rfl, rfl, rfl, rfl, rfl, rfl, rfl⟩, rfl, by simp [hkind, statusAfter]⟩
      case runResumed =>
        simp only [handlerOf, onResumed] at h
        split at h
        · cases h
        · cases h
          exact ⟨⟨rfl, rfl, rfl, rfl, rfl, rfl, rfl, rfl⟩, rfl, by simp [hkind, statusAfter]⟩
      case runFailed =>
        obtain ⟨_, _, rfl⟩ := onFailed_ok h
        exact ⟨⟨rfl, rfl, rfl, rfl, rfl, rfl, rfl, rfl⟩, rfl, by simp [hkind, statusAfter, finishAs]⟩
      case usageRecorded =>
        simp only [handlerOf, onUsageRecorded, Lib.except_map_eq_ok] at h
        obtain ⟨usage, -, rfl⟩ := h
        exact ⟨⟨rfl, rfl, rfl, rfl, rfl, rfl, rfl, rfl⟩, rfl, by simp [hkind, statusAfter]⟩
      all_goals
        cases h
        exact ⟨⟨rfl, rfl, rfl, rfl, rfl, rfl, rfl, rfl⟩, rfl, by simp [hkind, statusAfter, finishAs]⟩

/-- The projection does not read the sequence number. -/
theorem projectRun_setSeq (current : RunRecord) (event : RunEvent) (n : ℕ) :
    projectRun { current with lastEventSeq := n } event =
      (projectRun current event).map fun next => { next with lastEventSeq := n } := by
  unfold projectRun
  cases event.kind with
  | none => rfl
  | some type =>
      simp only [Option.bind_some]
      cases type
      case runPhaseChanged =>
        simp only [handlerOf, onPhaseChanged]
        cases phaseFromPayload event.payload <;> rfl
      case runResumed =>
        simp only [handlerOf, onResumed]
        split <;> rfl
      case runFailed =>
        simp only [handlerOf, onFailed]
        cases optionalStr event.payload "error_code" "run.failed" with
        | error e => rfl
        | ok errorCode =>
            cases optionalStr event.payload "error_message" "run.failed" <;> rfl
      case usageRecorded =>
        simp only [handlerOf, onUsageRecorded]
        cases usageFromPayload event.payload <;> rfl
      all_goals rfl

end Imece.RunRuntime
