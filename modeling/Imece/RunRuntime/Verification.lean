import Mathlib.Data.List.Sort
import Mathlib.Data.String.Basic
import Imece.RunRuntime.Sinks
import Imece.VerificationRuntime.Models

/-!
# The verification sink

One verification attempt: its start, each check's start and terminal, and the
attempt's terminal, each as a batch of one event.
-/
namespace Imece.RunRuntime

open Lib VerificationRuntime

/-- The transient events of one verification attempt; `other` is any further
subclass of `VerificationEvent`. -/
inductive VerificationEventKind where
  | started (planId : String) (checkCount : ℤ)
  | checkStarted (check : VerificationCheck)
  | checkCompleted (check : VerificationCheck) (result : VerificationCheckResult)
  | checkFailed (check : VerificationCheck) (result : VerificationCheckResult)
  | completed (report : VerificationReport)
  | interrupted (planId reason : String)
  | other (className : String)

structure VerificationEvent where
  verificationId : String
  kind : VerificationEventKind

structure CanonicalVerificationEventSink where
  runId : String
  verificationId : String
  expectedSeq : ℕ

namespace CanonicalVerificationEventSink

def verificationSource : String := "verification"

def new (runId verificationId : String) : RunProg CanonicalVerificationEventSink :=
  if verificationId = "" then Prog.throw (.valueError "verification_id must be non-empty")
  else do
    let expectedSeq ← runningSeq runId "Verification sink"
    return { runId, verificationId, expectedSeq }

def spec (verificationId : String) (type : RunEventType) (payload : PyValue)
    (itemId : Option String) : EventArgs where
  type := type.value
  payload
  itemId
  correlationId := some verificationId
  source := verificationSource

def checkItemId (verificationId checkId : String) : String :=
  "verification:" ++ verificationId ++ ":" ++ checkId

def processPayload (process : ProcessResult) : List (String × PyValue) := [
  ("exit_code", .ofOption .int process.exitCode),
  ("timed_out", .bool process.timedOut),
  ("duration_ms", .int process.durationMs),
  ("stdout", .str process.stdout),
  ("stderr", .str process.stderr),
  ("stdout_truncated", .bool process.stdoutTruncated),
  ("stderr_truncated", .bool process.stderrTruncated),
  ("stdout_bytes", .int process.stdoutBytes),
  ("stderr_bytes", .int process.stderrBytes)]

def resultPayload (verificationId : String) (result : VerificationCheckResult)
    (includeError : Bool) : PyValue :=
  payloadOf ([
    ("verification_id", .str verificationId),
    ("check_id", .str result.checkId),
    ("name", .str result.name),
    ("status", .str result.status.value),
    ("execution_isolation", .str "host")] ++
    (if includeError then [("error_type", .ofOption .str result.errorType),
      ("error_message", .ofOption .str result.errorMessage)] else []) ++
    ((result.processResult.map processPayload).getD []))

/-- `_validate_check_event`: the result is of this check, and a failed check is an
infrastructure error without a process result. -/
def validateCheckEvent (check : VerificationCheck) (result : VerificationCheckResult)
    (failed : Bool) : Except RunRuntimeError Unit :=
  if result.checkId ≠ check.checkId ∨ result.name ≠ check.name then
    .error (.valueError "Verification check and result identity do not match")
  else if failed then
    if result.status ≠ .error ∨ result.processResult.isSome ∨
        (result.errorType.getD "") = "" ∨ result.errorMessage.isNone then
      .error (.valueError "VerificationCheckFailed requires infrastructure ERROR evidence")
    else .ok ()
  else if result.processResult.isNone then
    .error (.valueError "VerificationCheckCompleted requires ProcessResult")
  else .ok ()

def checkStartedPayload (verificationId : String) (check : VerificationCheck) : PyValue :=
  payloadOf [
    ("verification_id", .str verificationId),
    ("check_id", .str check.checkId),
    ("name", .str check.name),
    ("argv", .strs check.request.argv),
    ("cwd", .str check.request.cwd),
    ("timeout_ms", .int check.request.timeoutMs),
    ("pass_exit_codes", .list (check.passExitCodes.map .int)),
    ("error_exit_codes", .list (check.errorExitCodes.map .int)),
    ("env_override_keys", .strs ((check.request.env.map (·.1)).mergeSort (fun a b => a ≤ b)))]

def reportPayload (report : VerificationReport) : PyValue :=
  payloadOf [
    ("verification_id", .str report.verificationId),
    ("plan_id", .str report.planId),
    ("status", .str report.status.value),
    ("duration_ms", .int report.durationMs),
    ("counts", payloadOf [
      ("pass", .int report.passed),
      ("fail", .int report.failed),
      ("timeout", .int report.timedOut),
      ("error", .int report.errors),
      ("total", .int report.total)])]

/-- `_specs`: one event, or the `ValueError` of a mismatched identity. -/
def specs (event : VerificationEvent) : Except RunRuntimeError EventArgs :=
  let id := event.verificationId
  match event.kind with
  | .started planId checkCount =>
      .ok (spec id .verificationStarted (payloadOf [("verification_id", .str id),
        ("plan_id", .str planId), ("check_count", .int checkCount)]) none)
  | .checkStarted check =>
      .ok (spec id .verificationCheckStarted (checkStartedPayload id check)
        (some (checkItemId id check.checkId)))
  | .checkCompleted check result =>
      (validateCheckEvent check result false).map fun _ =>
        spec id .verificationCheckCompleted (resultPayload id result false)
          (some (checkItemId id check.checkId))
  | .checkFailed check result =>
      (validateCheckEvent check result true).map fun _ =>
        spec id .verificationCheckFailed (resultPayload id result true)
          (some (checkItemId id check.checkId))
  | .completed report =>
      if report.verificationId ≠ id then
        .error (.valueError "Verification report ID does not match this sink")
      else .ok (spec id .verificationCompleted (reportPayload report) none)
  | .interrupted planId reason =>
      .ok (spec id .verificationInterrupted (payloadOf [("verification_id", .str id),
        ("plan_id", .str planId), ("reason", .str reason)]) none)
  | .other className => .error (.valueError ("Unsupported verification event: " ++ className))

/-- A start must be new to the whole history; other events pass. -/
def requireFresh (sink : CanonicalVerificationEventSink) (event : VerificationEvent)
    (pages : ℕ) : RunProg Unit :=
  match event.kind with
  | .started .. =>
      rejectReused sink.runId .verificationStarted "verification_id" sink.verificationId pages 0
  | _ => return ()

def emit (sink : CanonicalVerificationEventSink)
    (input : VerificationEvent × ℕ × (ℕ → Fresh)) :
    RunProg (Ended CanonicalVerificationEventSink) :=
  let (event, pages, fresh) := input
  if event.verificationId ≠ sink.verificationId then
    raised sink (.valueError "Verification event ID does not match this sink")
  else do
    match ← (requireFresh sink event pages).attempt with
    | .error e => raised sink e
    | .ok () =>
        match specs event with
        | .error e => raised sink e
        | .ok spec =>
            match ← (commitSpecs sink.runId [spec] sink.expectedSeq fresh).attempt with
            | .ok seq => returned { sink with expectedSeq := seq }
            | .error e => raised sink e

end CanonicalVerificationEventSink

end Imece.RunRuntime
