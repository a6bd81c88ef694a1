import Imece.RunRuntime.Sinks

/-!
# The fix-loop recorder

Records one fix loop's own trail. Worker, verification and review append their
events in between, so every method reads the row again right before its append.
-/
namespace Imece.RunRuntime

open Lib

/-- The attempt in progress; its three fields are set and cleared together. -/
structure ActiveAttempt where
  index : ℤ
  id : String
  workerExecutionId : String
deriving DecidableEq, Repr

structure CanonicalFixLoopRecorder where
  runId : String
  fixLoopId : String
  startedPersisted : Bool := false
  terminalRecorded : Bool := false
  active : Option ActiveAttempt := none
  lastCompletedAttemptIndex : ℤ := 0

namespace CanonicalFixLoopRecorder

def fixLoopSource : String := "fix_loop"

def new (runId fixLoopId : String) : RunProg CanonicalFixLoopRecorder :=
  if !isStableId fixLoopId then
    Prog.throw (.valueError "fix_loop_id must be a bounded stable identifier.")
  else do
    let _ ← runningSeq runId "Fix loop recorder"
    return { runId, fixLoopId }

/-- `payload.update(extra)`: a key that is present keeps its place. -/
def updated (fields extra : List (String × PyValue)) : List (String × PyValue) :=
  extra.foldl (fun fields entry =>
    if fields.any (·.1 = entry.1) then
      fields.map fun field => if field.1 = entry.1 then entry else field
    else fields ++ [entry]) fields

def requireStarted (recorder : CanonicalFixLoopRecorder) : Except RunRuntimeError Unit :=
  if !recorder.startedPersisted then
    .error (.fixLoopRecording
      ("fix_loop.started has not been persisted yet: " ++ recorder.fixLoopId))
  else .ok ()

def requireNotTerminal (recorder : CanonicalFixLoopRecorder) : Except RunRuntimeError Unit :=
  if recorder.terminalRecorded then
    .error (.fixLoopRecording
      ("Fix loop already has a terminal event: " ++ recorder.fixLoopId))
  else .ok ()

/-- `_commit`: read the `RUNNING` row, then append at its number. -/
def commit (runId fixLoopId : String) (type : RunEventType) (fields : List (String × PyValue))
    (fresh : Fresh) : RunProg Unit := do
  let expected ← runningSeq runId "Fix loop recorder"
  let _ ← record runId {
    type := type.value
    payload := payloadOf fields
    correlationId := some fixLoopId
    source := fixLoopSource } (some expected) fresh
  return ()

/-- A checked append; the recorder moves on only when it commits. -/
def step (recorder : CanonicalFixLoopRecorder) (checks : Except RunRuntimeError Unit)
    (type : RunEventType) (fields : List (String × PyValue)) (fresh : Fresh)
    (then_ : CanonicalFixLoopRecorder → CanonicalFixLoopRecorder) :
    RunProg (Ended CanonicalFixLoopRecorder) :=
  match checks with
  | .error e => raised recorder e
  | .ok () => do
      match ← (commit recorder.runId recorder.fixLoopId type fields fresh).attempt with
      | .ok () => returned (then_ recorder)
      | .error e => raised recorder e

def start (recorder : CanonicalFixLoopRecorder) (pages : ℕ) (fresh : Fresh) :
    RunProg (Ended CanonicalFixLoopRecorder) :=
  if recorder.startedPersisted then
    raised recorder (.fixLoopRecording
      ("fix_loop.started already recorded: " ++ recorder.fixLoopId))
  else do
    match ← (rejectReused recorder.runId .fixLoopStarted "fix_loop_id" recorder.fixLoopId
        pages 0).attempt with
    | .error e => raised recorder e
    | .ok () =>
        step recorder (.ok ()) .fixLoopStarted [("fix_loop_id", .str recorder.fixLoopId)] fresh
          fun recorder => { recorder with startedPersisted := true }

def attemptStartedChecks (recorder : CanonicalFixLoopRecorder) (attemptIndex : ℤ) :
    Except RunRuntimeError Unit := do
  requireStarted recorder
  requireNotTerminal recorder
  if recorder.active.isSome then
    .error (.fixLoopRecording
      ("An attempt is already active for this fix loop: " ++ recorder.fixLoopId))
  else if attemptIndex ≠ recorder.lastCompletedAttemptIndex + 1 then
    .error (.fixLoopRecording ("attempt_index must be monotonic: expected " ++
      toString (recorder.lastCompletedAttemptIndex + 1) ++ ", got " ++ toString attemptIndex))
  else .ok ()

def attemptStarted (recorder : CanonicalFixLoopRecorder) (fixAttemptId : String)
    (attemptIndex : ℤ) (triggerKind workerExecutionId beforeDiffSha256 : String)
    (fresh : Fresh) : RunProg (Ended CanonicalFixLoopRecorder) :=
  step recorder (attemptStartedChecks recorder attemptIndex) .fixAttemptStarted [
    ("fix_loop_id", .str recorder.fixLoopId),
    ("fix_attempt_id", .str fixAttemptId),
    ("attempt_index", .int attemptIndex),
    ("trigger_kind", .str triggerKind),
    ("worker_execution_id", .str workerExecutionId),
    ("before_diff_sha256", .str beforeDiffSha256)] fresh
    fun recorder =>
      { recorder with active := some ⟨attemptIndex, fixAttemptId, workerExecutionId⟩ }

def attemptCompletedChecks (recorder : CanonicalFixLoopRecorder) (fixAttemptId : String)
    (attemptIndex : ℤ) : Except RunRuntimeError Unit := do
  requireStarted recorder
  requireNotTerminal recorder
  if recorder.active.map (·.index) ≠ some attemptIndex ∨
      recorder.active.map (·.id) ≠ some fixAttemptId then
    .error (.fixLoopRecording
      ("fix_attempt.completed does not match the active attempt: " ++ recorder.fixLoopId))
  else .ok ()

def attemptCompleted (recorder : CanonicalFixLoopRecorder) (fixAttemptId : String)
    (attemptIndex : ℤ) (workerExecutionId beforeDiffSha256 afterDiffSha256 : String)
    (changed : Bool) (fresh : Fresh) : RunProg (Ended CanonicalFixLoopRecorder) :=
  step recorder (attemptCompletedChecks recorder fixAttemptId attemptIndex)
    .fixAttemptCompleted [
    ("fix_loop_id", .str recorder.fixLoopId),
    ("fix_attempt_id", .str fixAttemptId),
    ("attempt_index", .int attemptIndex),
    ("worker_execution_id", .str workerExecutionId),
    ("before_diff_sha256", .str beforeDiffSha256),
    ("after_diff_sha256", .str afterDiffSha256),
    ("changed", .bool changed)] fresh
    fun recorder =>
      { recorder with active := none, lastCompletedAttemptIndex := attemptIndex }

def attemptInterruptedChecks (recorder : CanonicalFixLoopRecorder) :
    Except RunRuntimeError Unit := do
  requireStarted recorder
  requireNotTerminal recorder
  if recorder.active.isNone then
    .error (.fixLoopRecording
      ("No active fix attempt to interrupt: " ++ recorder.fixLoopId))
  else .ok ()

/-- Settles the active attempt under the identity the recorder itself tracks. -/
def attemptInterrupted (recorder : CanonicalFixLoopRecorder) (reason : String)
    (outcomeUnknown : Bool) (extra : List (String × PyValue)) (fresh : Fresh) :
    RunProg (Ended CanonicalFixLoopRecorder) :=
  step recorder (attemptInterruptedChecks recorder) .fixAttemptInterrupted (updated [
    ("fix_loop_id", .str recorder.fixLoopId),
    ("fix_attempt_id", .ofOption (fun a => .str a.id) recorder.active),
    ("attempt_index", .ofOption (fun a => .int a.index) recorder.active),
    ("worker_execution_id", .ofOption (fun a => .str a.workerExecutionId) recorder.active),
    ("reason", .str reason),
    ("outcome_unknown", .bool outcomeUnknown)] extra) fresh
    fun recorder => { recorder with active := none }

def terminalChecks (recorder : CanonicalFixLoopRecorder) : Except RunRuntimeError Unit := do
  requireStarted recorder
  requireNotTerminal recorder
  if recorder.active.isSome then
    .error (.fixLoopRecording
      ("Cannot record a fix-loop terminal while an attempt is still active " ++
        "(attempt_index=" ++ toString ((recorder.active.map (·.index)).getD 0) ++
        "); complete or interrupt it first: " ++ recorder.fixLoopId))
  else .ok ()

def appendTerminal (recorder : CanonicalFixLoopRecorder) (type : RunEventType)
    (fields : List (String × PyValue)) (fresh : Fresh) :
    RunProg (Ended CanonicalFixLoopRecorder) :=
  step recorder (terminalChecks recorder) type fields fresh
    fun recorder => { recorder with terminalRecorded := true }

def completed (recorder : CanonicalFixLoopRecorder) (attemptsUsed : ℤ)
    (finalExecutionId : Option String) (verificationId reviewId diffSha256 : String)
    (fresh : Fresh) : RunProg (Ended CanonicalFixLoopRecorder) :=
  appendTerminal recorder .fixLoopCompleted [
    ("fix_loop_id", .str recorder.fixLoopId),
    ("attempts_used", .int attemptsUsed),
    ("final_execution_id", .ofOption .str finalExecutionId),
    ("verification_id", .str verificationId),
    ("review_id", .str reviewId),
    ("diff_sha256", .str diffSha256)] fresh

def exhausted (recorder : CanonicalFixLoopRecorder) (reason : String)
    (attemptsUsed maxFixAttempts : ℤ) (extra : List (String × PyValue)) (fresh : Fresh) :
    RunProg (Ended CanonicalFixLoopRecorder) :=
  appendTerminal recorder .fixLoopExhausted (updated [
    ("fix_loop_id", .str recorder.fixLoopId),
    ("reason", .str reason),
    ("attempts_used", .int attemptsUsed),
    ("max_fix_attempts", .int maxFixAttempts)] extra) fresh

def failed (recorder : CanonicalFixLoopRecorder) (reason : String)
    (extra : List (String × PyValue)) (fresh : Fresh) :
    RunProg (Ended CanonicalFixLoopRecorder) :=
  appendTerminal recorder .fixLoopFailed
    (updated [("fix_loop_id", .str recorder.fixLoopId), ("reason", .str reason)] extra) fresh

def interrupted (recorder : CanonicalFixLoopRecorder) (reason : String)
    (extra : List (String × PyValue)) (fresh : Fresh) :
    RunProg (Ended CanonicalFixLoopRecorder) :=
  appendTerminal recorder .fixLoopInterrupted
    (updated [("fix_loop_id", .str recorder.fixLoopId), ("reason", .str reason)] extra) fresh

/-- The calls the fix loop makes on its recorder. -/
inductive Call where
  | start (pages : ℕ)
  | attemptStarted (fixAttemptId : String) (attemptIndex : ℤ)
      (triggerKind workerExecutionId beforeDiffSha256 : String)
  | attemptCompleted (fixAttemptId : String) (attemptIndex : ℤ)
      (workerExecutionId beforeDiffSha256 afterDiffSha256 : String) (changed : Bool)
  | attemptInterrupted (reason : String) (outcomeUnknown : Bool)
      (extra : List (String × PyValue))
  | completed (attemptsUsed : ℤ) (finalExecutionId : Option String)
      (verificationId reviewId diffSha256 : String)
  | exhausted (reason : String) (attemptsUsed maxFixAttempts : ℤ)
      (extra : List (String × PyValue))
  | failed (reason : String) (extra : List (String × PyValue))
  | interrupted (reason : String) (extra : List (String × PyValue))

def call (recorder : CanonicalFixLoopRecorder) (input : Call × Fresh) :
    RunProg (Ended CanonicalFixLoopRecorder) :=
  let fresh := input.2
  match input.1 with
  | .start pages => start recorder pages fresh
  | .attemptStarted fixAttemptId attemptIndex triggerKind workerExecutionId beforeDiffSha256 =>
      attemptStarted recorder fixAttemptId attemptIndex triggerKind workerExecutionId
        beforeDiffSha256 fresh
  | .attemptCompleted fixAttemptId attemptIndex workerExecutionId beforeDiffSha256
      afterDiffSha256 changed =>
      attemptCompleted recorder fixAttemptId attemptIndex workerExecutionId beforeDiffSha256
        afterDiffSha256 changed fresh
  | .attemptInterrupted reason outcomeUnknown extra =>
      attemptInterrupted recorder reason outcomeUnknown extra fresh
  | .completed attemptsUsed finalExecutionId verificationId reviewId diffSha256 =>
      completed recorder attemptsUsed finalExecutionId verificationId reviewId diffSha256 fresh
  | .exhausted reason attemptsUsed maxFixAttempts extra =>
      exhausted recorder reason attemptsUsed maxFixAttempts extra fresh
  | .failed reason extra => failed recorder reason extra fresh
  | .interrupted reason extra => interrupted recorder reason extra fresh

end CanonicalFixLoopRecorder

end Imece.RunRuntime
