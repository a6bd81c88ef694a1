import Imece.Lib.Latest
import Imece.RunRuntime.Pipeline
import Imece.RunRuntime.ReadModels

/-!
# The completion gate

The gate reads a run and its exact history up to the row's sequence number,
scans the history for the evidence a terminal decision needs, and writes with a
compare-and-swap on that number.
-/
namespace Imece.RunRuntime

open Lib

namespace RunCompletionGate

inductive Settlement where
  | complete
  | awaitUser
deriving DecidableEq, Repr

structure RunEvidence where
  runId : String
  decisionSeq : ℕ
  events : List RunEvent

def isSha256 (text : String) : Bool :=
  text.length == 64 && text.toList.all fun c => c.isDigit || ('a' ≤ c && c ≤ 'f')

def validateSha256 (value : String) : Except RunRuntimeError String :=
  if isSha256 value then .ok value
  else .error (.runCompletion "current_diff_sha256 must be a lowercase SHA-256 hex digest.")

/-- `_evidence`: the run must be `RUNNING`; the history is read up to its row. -/
def evidence (runId : String) : RunProg RunEvidence := do
  let run ← getRun runId
  if run.status ≠ .running then
    Prog.throw (.invalidRunState "Run completion requires RUNNING status")
  else
    let events ← loadFullEventHistory runId run.lastEventSeq
    return ⟨runId, run.lastEventSeq, events⟩

/-- The three event types that say an execution attempt began or ended. -/
def isExecutionLifecycle (event : RunEvent) : Bool :=
  event.isType .executionStarted || event.isType .executionCompleted ||
    event.isType .executionFailed

/-- The payload names the attempt. -/
def names (key id : String) (event : RunEvent) : Bool := (event.payload.get key).eqStr id

/-- The latest event with a property, or an error when there is none. -/
def latestOr (p : RunEvent → Bool) (events : List RunEvent) (message : String) :
    Except RunRuntimeError RunEvent :=
  match latest p events with
  | some event => .ok event
  | none => .error (.runCompletion message)

def latestVerificationStart (events : List RunEvent) : Except RunRuntimeError RunEvent :=
  latestOr (·.isType .verificationStarted) events "No verification attempt exists for this Run"

def isVerificationTerminal (event : RunEvent) : Bool :=
  event.isType .verificationCompleted || event.isType .verificationInterrupted

def verificationTerminal (events : List RunEvent) (start : RunEvent) (verificationId : String) :
    Except RunRuntimeError RunEvent :=
  latestOr (fun event => decide (start.seq ≤ event.seq) &&
    (names "verification_id" verificationId event && isVerificationTerminal event)) events
    "Verification attempt has no terminal evidence"

def latestExecutionLifecycleBefore (events : List RunEvent) (seq : ℕ) : Option RunEvent :=
  latest (fun event => decide (event.seq < seq) && isExecutionLifecycle event) events

def hasNewerExecutionActivity (events : List RunEvent) (seq : ℕ) : Bool :=
  events.any fun event => decide (seq < event.seq) && isExecutionLifecycle event

def requireLatestVerification (events : List RunEvent) (verificationId : String) :
    Except RunRuntimeError (RunEvent × RunEvent) :=
  if verificationId = "" then .error (.runCompletion "verification_id must be non-empty")
  else do
    let start ← latestVerificationStart events
    if !names "verification_id" verificationId start then
      .error (.runCompletion "Requested verification is not the latest attempt")
    else
      let terminal ← verificationTerminal events start verificationId
      if terminal.isType .verificationInterrupted then
        .error (.runCompletion "Verification attempt was interrupted")
      else .ok (start, terminal)

/-- The execution a verification started at `seq` was about: settled, successful
and identified, with nothing newer. Both completions make these checks. -/
def requireVerifiedExecution (events : List RunEvent) (seq : ℕ) :
    Except RunRuntimeError String :=
  if hasNewerExecutionActivity events seq then
    .error (.runCompletion
      "Verification evidence is stale because newer execution activity exists")
  else
    match latestExecutionLifecycleBefore events seq with
    | none => .error (.runCompletion "Verification requires prior execution evidence")
    | some execution =>
        if !execution.isType .executionCompleted then
          .error (.runCompletion
            "Execution was not settled successfully when verification began")
        else
          match execution.executionId with
          | none => .error (.runCompletion "Successful execution evidence lacks execution_id")
          | some id =>
              if id = "" then
                .error (.runCompletion "Successful execution evidence lacks execution_id")
              else .ok id

/-- The checks of `complete_verified`, and the payload of its settlement. -/
def verifiedPayload (events : List RunEvent) (verificationId : String) :
    Except RunRuntimeError PyValue := do
  let (start, terminal) ← requireLatestVerification events verificationId
  if !(terminal.payload.get "status").eqStr "pass" then
    .error (.runCompletion "Only a PASS verification can complete a Run")
  else
    let executionId ← requireVerifiedExecution events start.seq
    .ok (payloadOf [
      ("reason", .str "verified"),
      ("verification_id", .str verificationId),
      ("verification_status", .str "pass"),
      ("verified_execution_id", .str executionId)])

def latestReviewStart (events : List RunEvent) : Except RunRuntimeError RunEvent :=
  latestOr (·.isType .reviewStarted) events "No review attempt exists for this Run"

def isReviewTerminal (event : RunEvent) : Bool :=
  event.isType .reviewCompleted || event.isType .reviewFailed || event.isType .reviewInterrupted

def reviewTerminal (events : List RunEvent) (start : RunEvent) (reviewId : String) :
    Except RunRuntimeError RunEvent :=
  latestOr (fun event => decide (start.seq ≤ event.seq) &&
    (names "review_id" reviewId event && isReviewTerminal event)) events
    "Review attempt has no terminal evidence"

def requireLatestReview (events : List RunEvent) (reviewId : String) :
    Except RunRuntimeError (RunEvent × RunEvent) :=
  if reviewId = "" then .error (.runCompletion "review_id must be non-empty")
  else do
    let start ← latestReviewStart events
    if !names "review_id" reviewId start then
      .error (.runCompletion "Requested review is not the latest attempt")
    else
      let terminal ← reviewTerminal events start reviewId
      .ok (start, terminal)

/-- What a review terminal must say, check by check. -/
def requireApproval (terminal : RunEvent) (verificationId diffSha256 : String) :
    Except RunRuntimeError Unit :=
  if !terminal.isType .reviewCompleted then
    .error (.runCompletion "Review attempt did not complete successfully")
  else if !(terminal.payload.get "verdict").eqStr "APPROVED" then
    .error (.runCompletion "Only an APPROVED review can complete a Run")
  else if !names "verification_id" verificationId terminal then
    .error (.runCompletion "Review verification_id does not match the requested verification")
  else if !(terminal.payload.get "verification_status").eqStr "pass" then
    .error (.runCompletion "Review verification_status must be 'pass'")
  else if !(terminal.payload.get "diff_sha256").eqStr diffSha256 then
    .error (.runCompletion
      "Review diff_sha256 does not match the current workspace change set")
  else .ok ()

/-- The checks of `complete_reviewed`, and the payload of its settlement. -/
def reviewedPayload (events : List RunEvent) (verificationId reviewId diffSha256 : String) :
    Except RunRuntimeError PyValue := do
  let diffSha256 ← validateSha256 diffSha256
  let (start, terminal) ← requireLatestVerification events verificationId
  if !terminal.isType .verificationCompleted then
    .error (.runCompletion "Verification attempt was interrupted")
  else if !(terminal.payload.get "status").eqStr "pass" then
    .error (.runCompletion "Only a PASS verification can complete a reviewed Run")
  else
    let executionId ← requireVerifiedExecution events start.seq
    let (reviewStart, review) ← requireLatestReview events reviewId
    if reviewStart.seq ≤ terminal.seq then
      .error (.runCompletion
        "Review must have started after the successful verification terminal")
    else
      requireApproval review verificationId diffSha256
      .ok (payloadOf [
        ("reason", .str "reviewed"),
        ("verification_id", .str verificationId),
        ("verification_status", .str "pass"),
        ("review_id", .str reviewId),
        ("review_verdict", .str "APPROVED"),
        ("diff_sha256", .str diffSha256),
        ("verified_execution_id", .str executionId)])

/-- `_settle`: the configured outcome of successful evidence. -/
def settle (settlement : Settlement) (runId : String) (expected : ℕ) (payload : PyValue)
    (fresh : Fresh × Fresh) : RunProg Unit :=
  match settlement with
  | .complete => do
      let _ ← record runId {
        type := RunEventType.runCompleted.value, payload, source := "run_gate" }
        (some expected) fresh.1
      return ()
  | .awaitUser =>
      CanonicalPipelineRecorder.needsUser runId payload (some expected) "run_gate" fresh

def completeVerified (settlement : Settlement) (runId verificationId : String)
    (fresh : Fresh × Fresh) : RunProg Unit := do
  let found ← evidence runId
  let payload ← Prog.check (verifiedPayload found.events verificationId)
  settle settlement runId found.decisionSeq payload fresh

def completeReviewed (settlement : Settlement)
    (runId verificationId reviewId currentDiffSha256 : String) (fresh : Fresh × Fresh) :
    RunProg Unit := do
  let found ← evidence runId
  let payload ← Prog.check
    (reviewedPayload found.events verificationId reviewId currentDiffSha256)
  settle settlement runId found.decisionSeq payload fresh

/-- A non-empty string without NULs, cut to 2000 characters; else the fallback. -/
def boundedMessage (value : PyValue) (fallback : String) : String :=
  match value with
  | .str s =>
      if s = "" then fallback
      else String.ofList ((s.toList.filter fun c => c != Char.ofNat 0).take 2000)
  | _ => fallback

def executionFailure (events : List RunEvent) (executionId : String) :
    Except RunRuntimeError PyValue :=
  if executionId = "" then .error (.runCompletion "execution_id must be non-empty")
  else do
    let failure ← latestOr (fun event => event.isType .executionFailed &&
      event.executionId == some executionId) events
      "Requested execution failure evidence is missing"
    if hasNewerExecutionActivity events failure.seq then
      .error (.runCompletion "Execution failure evidence is stale")
    else
      .ok (payloadOf [
        ("error_code", .str "execution_failed"),
        ("error_message", .str (boundedMessage
          (failure.payload.get "message" (failure.payload.get "error_message"))
          "Execution failed.")),
        ("execution_id", .str executionId)])

/-- The statuses of a verification that can fail a run, with their messages. -/
def verificationFailureMessage : PyValue → Option (String × String)
  | .str "fail" => some ("fail", "Verification failed.")
  | .str "timeout" => some ("timeout", "Verification timed out.")
  | .str "error" => some ("error", "Verification produced an error.")
  | _ => none

def verificationFailure (events : List RunEvent) (verificationId : String) :
    Except RunRuntimeError PyValue := do
  let (start, terminal) ← requireLatestVerification events verificationId
  match verificationFailureMessage (terminal.payload.get "status") with
  | none =>
      .error (.runCompletion
        "Only completed fail, timeout, or error verification can fail a Run")
  | some (status, message) =>
      if hasNewerExecutionActivity events start.seq then
        .error (.runCompletion
          "Verification evidence is stale because newer execution activity exists")
      else if ((latestExecutionLifecycleBefore events start.seq).any
          (·.isType .executionStarted)) then
        .error (.runCompletion "Execution was unsettled when verification began")
      else
        .ok (payloadOf [
          ("error_code", .str ("verification_" ++ status)),
          ("error_message", .str message),
          ("verification_id", .str verificationId),
          ("verification_status", .str status)])

def isFixLoopTerminal (event : RunEvent) : Bool :=
  event.isType .fixLoopCompleted || event.isType .fixLoopExhausted ||
    event.isType .fixLoopFailed || event.isType .fixLoopInterrupted

def fixLoopFailure (events : List RunEvent) (fixLoopId : String) :
    Except RunRuntimeError PyValue :=
  if fixLoopId = "" then .error (.runCompletion "fix_loop_id must be non-empty")
  else do
    let start ← latestOr (·.isType .fixLoopStarted) events
      "No fix loop attempt exists for this Run"
    if !names "fix_loop_id" fixLoopId start then
      .error (.runCompletion "Requested fix loop is not the latest attempt")
    else
      let terminal ← latestOr (fun event => decide (start.seq ≤ event.seq) &&
        (names "fix_loop_id" fixLoopId event && isFixLoopTerminal event)) events
        "Fix loop attempt has no terminal evidence"
      if !(terminal.isType .fixLoopExhausted || terminal.isType .fixLoopFailed) then
        .error (.runCompletion
          "Only an exhausted or failed fix loop can fail a Run through fail_fix_loop")
      else if hasNewerExecutionActivity events terminal.seq then
        .error (.runCompletion "Fix loop failure evidence is stale")
      else
        let reason := terminal.payload.get "reason"
        .ok (payloadOf [
          ("error_code", .str (if terminal.isType .fixLoopExhausted then "fix_loop_exhausted"
            else "fix_loop_failed")),
          ("error_message", .str (boundedMessage reason "Fix loop did not complete.")),
          ("fix_loop_id", .str fixLoopId),
          ("reason", match reason with | .str s => .str s | _ => .none)])

/-- The three `fail_*` methods differ in the evidence they ask for. -/
def failWith (runId : String) (decide : List RunEvent → Except RunRuntimeError PyValue)
    (fresh : Fresh) : RunProg Unit := do
  let found ← evidence runId
  let payload ← Prog.check (decide found.events)
  let _ ← record runId {
    type := RunEventType.runFailed.value, payload, source := "run_gate" }
    (some found.decisionSeq) fresh
  return ()

def failExecution (runId executionId : String) (fresh : Fresh) : RunProg Unit :=
  failWith runId (executionFailure · executionId) fresh

def failVerification (runId verificationId : String) (fresh : Fresh) : RunProg Unit :=
  failWith runId (verificationFailure · verificationId) fresh

def failFixLoop (runId fixLoopId : String) (fresh : Fresh) : RunProg Unit :=
  failWith runId (fixLoopFailure · fixLoopId) fresh

end RunCompletionGate

end Imece.RunRuntime
