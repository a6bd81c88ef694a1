import Imece.Lib.Transaction
import Imece.RunRuntime.JsonUtil

/-!
# Tasks and runs

The domain records of the run runtime and its typed errors. Instants are UTC
microseconds; a naive or unrepresentable datetime is rejected at construction,
so a record never holds one.
-/
namespace Imece.RunRuntime

/-- The typed errors of the run runtime and of the attempts it records, with the
Python exceptions its writers let through. -/
inductive RunRuntimeError where
  | runNotFound (runId : String)
  | taskNotFound (taskId : String)
  | eventValidation (what : String)
  | eventSequence (expected actual : ℤ)
  | eventConflict (runId : String) (seq : ℕ) (eventId : String)
  | runStore (what : String)
  | runProjection (what : String)
  | invalidRunState (what : String)
  | runCompletion (what : String)
  | fixLoopRecording (what : String)
  | plannerInput (what : String)
  | plannerRecording (what : String)
  | reviewInput (what : String)
  | reviewRecording (what : String)
  | typeError (what : String)
  | runtimeError (what : String)
  | valueError (what : String)
  | overflowError
deriving DecidableEq, Repr

def RunRuntimeError.ofJson : JsonError → RunRuntimeError
  | .notFinite path => .eventValidation (path ++ ": sonlu olmayan sayı kabul edilmiyor")
  | .keyNotString path => .eventValidation (path ++ ": dict anahtarı string olmalı")
  | .notJson path => .eventValidation (path ++ ": JSON-uyumlu olmayan tür")
  | .notDict field => .eventValidation (field ++ " bir dict olmalı")

/-- A Python datetime: wall-clock microseconds and its offset, `none` when naive. -/
structure PyDateTime where
  wall : ℤ
  utcoffset : Option ℤ
deriving DecidableEq, Repr

/-- Microseconds of a UTC instant. -/
abbrev Instant := ℤ

/-- The UTC instants a Python datetime can hold (years 1 to 9999). -/
def minInstant : Instant := -62135596800000000
def maxInstant : Instant := 253402300799999999

def toCanonicalUtc (dt : PyDateTime) (field : String) : Except RunRuntimeError Instant :=
  match dt.utcoffset with
  | none => .error (.valueError (field ++ " tz-aware (UTC) olmalı; naive datetime kabul edilmiyor."))
  | some offset =>
      if minInstant ≤ dt.wall - offset ∧ dt.wall - offset ≤ maxInstant then
        .ok (dt.wall - offset)
      else .error .overflowError

/-- SQLite binds a Python int only when it fits a signed 64-bit word. -/
def fitsInt64 (n : ℤ) : Bool := -(2 ^ 63) ≤ n && n < 2 ^ 63

inductive RunStatus where
  | created | running | waitingUser | succeeded | failed | cancelled | interrupted
deriving DecidableEq, Repr

namespace RunStatus

def value : RunStatus → String
  | .created => "created"
  | .running => "running"
  | .waitingUser => "waiting_user"
  | .succeeded => "succeeded"
  | .failed => "failed"
  | .cancelled => "cancelled"
  | .interrupted => "interrupted"

/-- The statuses a finished run ends in. -/
def isTerminal : RunStatus → Bool
  | .succeeded | .failed | .cancelled | .interrupted => true
  | .created | .running | .waitingUser => false

end RunStatus

inductive RunPhase where
  | created | starting | planning | executing | verifying | reviewing | ready
  | applying | applied | rejected | restored | done | error
deriving DecidableEq, Repr

namespace RunPhase

def value : RunPhase → String
  | .created => "created"
  | .starting => "starting"
  | .planning => "planning"
  | .executing => "executing"
  | .verifying => "verifying"
  | .reviewing => "reviewing"
  | .ready => "ready"
  | .applying => "applying"
  | .applied => "applied"
  | .rejected => "rejected"
  | .restored => "restored"
  | .done => "done"
  | .error => "error"

/-- `RunPhase(raw)`; `none` is the `ValueError` of an unknown phase. -/
def ofString? : String → Option RunPhase
  | "created" => some .created
  | "starting" => some .starting
  | "planning" => some .planning
  | "executing" => some .executing
  | "verifying" => some .verifying
  | "reviewing" => some .reviewing
  | "ready" => some .ready
  | "applying" => some .applying
  | "applied" => some .applied
  | "rejected" => some .rejected
  | "restored" => some .restored
  | "done" => some .done
  | "error" => some .error
  | _ => none

@[simp] theorem ofString?_value (phase : RunPhase) : ofString? phase.value = some phase := by
  cases phase <;> rfl

end RunPhase

structure TaskRecord where
  taskId : String
  projectRoot : String
  prompt : String
  createdAt : Instant
deriving DecidableEq, Repr

structure RunRecord where
  runId : String
  taskId : String
  status : RunStatus
  phase : RunPhase
  attempt : ℤ
  retryOfRunId : Option String
  routing : JsonDict
  budget : Option JsonDict
  workspaceSnapshot : Option JsonDict
  lastEventSeq : ℕ
  promptTokens : ℕ
  completionTokens : ℕ
  totalTokens : ℕ
  costUsd : PyFloat
  latencyS : PyFloat
  createdAt : Instant
  startedAt : Option Instant
  finishedAt : Option Instant
  errorCode : Option String
  errorMessage : Option String

/-- The keyword arguments of `RunStore.create_run`. -/
structure CreateRunArgs where
  taskId : String
  runId : Option String := none
  attempt : ℤ := 1
  retryOfRunId : Option String := none
  routing : Option PyValue := none
  budget : Option PyValue := none
  workspaceSnapshot : Option PyValue := none
  createdAt : Option PyDateTime := none

/-- What one call draws from its surroundings: a fresh uuid and the clock. -/
structure Fresh where
  uuid : String
  now : Instant

/-- `given or fresh()`: an absent or empty identifier is replaced. -/
def orFresh (given : Option String) (fresh : String) : String :=
  match given with
  | none => fresh
  | some id => if id = "" then fresh else id

def resolveCreatedAt (given : Option PyDateTime) (fresh : Fresh) :
    Except RunRuntimeError Instant :=
  match given with
  | none => .ok fresh.now
  | some dt => toCanonicalUtc dt "created_at"

def routingOrEmpty : Option PyValue → Except JsonError JsonDict
  | none => .ok JsonDict.empty
  | some value => canonicalDictCopy value "routing"

/-- `RunRecord.new`: status and phase `created`, no events, zero usage. -/
def RunRecord.new (args : CreateRunArgs) (fresh : Fresh) : Except RunRuntimeError RunRecord := do
  let routing ← (routingOrEmpty args.routing).mapError .ofJson
  let budget ← (canonicalOptionalDictCopy args.budget "budget").mapError .ofJson
  let workspaceSnapshot ←
    (canonicalOptionalDictCopy args.workspaceSnapshot "workspace_snapshot").mapError .ofJson
  let createdAt ← resolveCreatedAt args.createdAt fresh
  return {
    runId := orFresh args.runId fresh.uuid
    taskId := args.taskId
    status := .created
    phase := .created
    attempt := args.attempt
    retryOfRunId := args.retryOfRunId
    routing, budget, workspaceSnapshot
    lastEventSeq := 0
    promptTokens := 0
    completionTokens := 0
    totalTokens := 0
    costUsd := .finite 0
    latencyS := .finite 0
    createdAt
    startedAt := none
    finishedAt := none
    errorCode := none
    errorMessage := none }

/-- The projection of a run without events. -/
structure RunRecord.IsNew (run : RunRecord) : Prop where
  status : run.status = .created
  phase : run.phase = .created
  lastEventSeq : run.lastEventSeq = 0
  promptTokens : run.promptTokens = 0
  completionTokens : run.completionTokens = 0
  totalTokens : run.totalTokens = 0
  costUsd : run.costUsd = .finite 0
  latencyS : run.latencyS = .finite 0
  startedAt : run.startedAt = none
  finishedAt : run.finishedAt = none
  errorCode : run.errorCode = none
  errorMessage : run.errorMessage = none

theorem RunRecord.new_isNew {args : CreateRunArgs} {fresh : Fresh} {run : RunRecord}
    (h : RunRecord.new args fresh = .ok run) : run.IsNew := by
  simp only [RunRecord.new, Lib.except_bind_eq_ok, Lib.except_pure_eq_ok] at h
  obtain ⟨routing, -, budget, -, workspaceSnapshot, -, createdAt, -, rfl⟩ := h
  constructor <;> rfl

end Imece.RunRuntime
