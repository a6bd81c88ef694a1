import Imece.RunRuntime.Verification

/-!
# The verification runner

One verification attempt over the canonical sink: the start, each check in order,
and the report. What the process runner does for each check is given from outside.
-/
namespace Imece.VerificationRuntime

open RunRuntime

/-- What the process runner returns or raises for one check. -/
inductive ProcessOutcome where
  | result (process : ProcessResult)
  | cancelled
  | runtimeError (errorType message : String)
  | raised
  | foreign

inductive VerificationRuntimeError where
  | recording (cause : RunRuntimeError)
  | cancelled (checkId : String)
  | execution
  | input

/-- `classify`: from the process result and the check's own policy alone. -/
def classify (check : VerificationCheck) (result : ProcessResult) : VerificationStatus :=
  if result.timedOut then .timeout
  else match result.exitCode with
    | none => .error
    | some code =>
        if code ∈ check.passExitCodes then .pass
        else if code < 0 then .error
        else if code ∈ check.errorExitCodes then .error
        else .fail

def checkResult (check : VerificationCheck) (process : ProcessResult) :
    VerificationCheckResult where
  checkId := check.checkId
  name := check.name
  status := classify check process
  processResult := some process
  errorType := none
  errorMessage := none

/-- The `ERROR` result of a process that could not be run; its texts are bounded. -/
def infrastructureResult (check : VerificationCheck) (errorType message : String) :
    Except VerificationRuntimeError VerificationCheckResult :=
  if errorType = "" ∨ 256 < errorType.length ∨ errorType.toList.contains (Char.ofNat 0) ∨
      2000 < message.length then .error .input
  else .ok {
    checkId := check.checkId
    name := check.name
    status := .error
    processResult := none
    errorType := some errorType
    errorMessage := some (dropNul message) }

namespace VerificationRunner

/-- `_emit`: whatever the sink raises becomes a recording error. -/
def emit (sink : CanonicalVerificationEventSink) (event : VerificationEvent) (pages : ℕ)
    (fresh : ℕ → Fresh) :
    RunProg (Except VerificationRuntimeError CanonicalVerificationEventSink) := do
  let ended ← sink.emit (event, pages, fresh)
  match ended.outcome with
  | .ok () => return .ok ended.object
  | .error e => return .error (.recording e)

/-- One turn of the loop over the checks. -/
def runCheck (sink : CanonicalVerificationEventSink) (verificationId planId : String)
    (check : VerificationCheck) (outcome : ProcessOutcome) (pages : ℕ) (fresh : ℕ → ℕ → Fresh) :
    RunProg (Except VerificationRuntimeError
      (CanonicalVerificationEventSink × VerificationCheckResult)) := do
  match ← emit sink ⟨verificationId, .checkStarted check⟩ pages (fresh 0) with
  | .error e => return .error e
  | .ok sink =>
      match outcome with
      | .cancelled =>
          match ← emit sink ⟨verificationId, .interrupted planId "cancelled"⟩ pages (fresh 1) with
          | .error e => return .error e
          | .ok _ => return .error (.cancelled check.checkId)
      | .runtimeError errorType message =>
          match infrastructureResult check errorType message with
          | .error e => return .error e
          | .ok result =>
              match ← emit sink ⟨verificationId, .checkFailed check result⟩ pages (fresh 1) with
              | .error e => return .error e
              | .ok sink => return .ok (sink, result)
      | .raised | .foreign => return .error .execution
      | .result process =>
          let result := checkResult check process
          match ← emit sink ⟨verificationId, .checkCompleted check result⟩ pages (fresh 1) with
          | .error e => return .error e
          | .ok sink => return .ok (sink, result)

def runChecks (verificationId planId : String) (outcomes : ℕ → ProcessOutcome) (pages : ℕ)
    (fresh : ℕ → ℕ → ℕ → Fresh) : CanonicalVerificationEventSink →
      List (VerificationCheck × ℕ) → List VerificationCheckResult →
      RunProg (Except VerificationRuntimeError
        (CanonicalVerificationEventSink × List VerificationCheckResult))
  | sink, [], results => return .ok (sink, results)
  | sink, (check, i) :: rest, results => do
      match ← runCheck sink verificationId planId check (outcomes i) pages (fresh (i + 1)) with
      | .error e => return .error e
      | .ok (sink, result) =>
          runChecks verificationId planId outcomes pages fresh sink rest (results ++ [result])

/-- `run`: nothing is emitted after the first failure to record. -/
def run (sink : CanonicalVerificationEventSink) (plan : VerificationPlan)
    (verificationId : String) (outcomes : ℕ → ProcessOutcome) (durationMs pages : ℕ)
    (fresh : ℕ → ℕ → ℕ → Fresh) :
    RunProg (Except VerificationRuntimeError VerificationReport) := do
  if !isStableId verificationId then return .error .input
  else
    match ← emit sink ⟨verificationId, .started plan.planId plan.checks.length⟩ pages
        (fresh 0 0) with
    | .error e => return .error e
    | .ok sink =>
        match ← runChecks verificationId plan.planId outcomes pages fresh sink
            plan.checks.zipIdx [] with
        | .error e => return .error e
        | .ok (sink, results) =>
            if h : results = [] then return .error .input
            else
              let report : VerificationReport :=
                { verificationId, planId := plan.planId, results, durationMs, nonempty := h }
              match ← emit sink ⟨verificationId, .completed report⟩ pages (fresh 0 1) with
              | .error e => return .error e
              | .ok _ => return .ok report

end VerificationRunner

end Imece.VerificationRuntime
