import Mathlib.Data.Int.Notation
import Mathlib.Data.Nat.Notation

/-!
# Verification plans and reports

The contracts of deterministic verification: a plan's checks, the process result
of each, and the status a report derives from its results.
-/
namespace Imece.VerificationRuntime

inductive VerificationStatus where
  | pass | fail | timeout | error
deriving DecidableEq, Repr

def VerificationStatus.value : VerificationStatus → String
  | .pass => "pass"
  | .fail => "fail"
  | .timeout => "timeout"
  | .error => "error"

structure ProcessRequest where
  argv : List String
  cwd : String
  timeoutMs : ℕ
  env : List (String × String)
deriving DecidableEq, Repr

structure ProcessResult where
  exitCode : Option ℤ
  timedOut : Bool
  durationMs : ℕ
  stdout : String
  stderr : String
  stdoutTruncated : Bool
  stderrTruncated : Bool
  stdoutBytes : ℕ
  stderrBytes : ℕ
deriving DecidableEq, Repr

structure VerificationCheck where
  checkId : String
  name : String
  request : ProcessRequest
  passExitCodes : List ℤ
  errorExitCodes : List ℤ
deriving DecidableEq, Repr

structure VerificationPlan where
  planId : String
  checks : List VerificationCheck
  nonempty : checks ≠ []
deriving DecidableEq, Repr

structure VerificationCheckResult where
  checkId : String
  name : String
  status : VerificationStatus
  processResult : Option ProcessResult
  errorType : Option String
  errorMessage : Option String
deriving DecidableEq, Repr

/-- A report has at least one result. -/
structure VerificationReport where
  verificationId : String
  planId : String
  results : List VerificationCheckResult
  durationMs : ℕ
  nonempty : results ≠ []
deriving DecidableEq, Repr

namespace VerificationReport

variable (report : VerificationReport)

/-- The worst status of the results decides. -/
def status : VerificationStatus :=
  let statuses := report.results.map (·.status)
  if .error ∈ statuses then .error
  else if .timeout ∈ statuses then .timeout
  else if .fail ∈ statuses then .fail
  else .pass

def count (status : VerificationStatus) : ℕ := report.results.countP (·.status = status)

def passed : ℕ := report.count .pass
def failed : ℕ := report.count .fail
def timedOut : ℕ := report.count .timeout
def errors : ℕ := report.count .error
def total : ℕ := report.results.length

end VerificationReport

end Imece.VerificationRuntime
