import Imece.RunRuntime.AttemptSink

/-!
# The reviewer sink

One review attempt. `review.completed` is written only for a parsed report.
-/
namespace Imece.RunRuntime

open Lib AgentRuntime

inductive ReviewVerdict where
  | approved
  | needsFix
deriving DecidableEq, Repr

def ReviewVerdict.value : ReviewVerdict → String
  | .approved => "APPROVED"
  | .needsFix => "NEEDS_FIX"

structure ReviewFinding where
  severity : String
  message : String
  path : Option String
  startLine : Option ℤ
  endLine : Option ℤ

structure ReviewReport where
  reviewId : String
  verdict : ReviewVerdict
  summary : String
  findings : List ReviewFinding
  repositoryFingerprint : String
  diffSha256 : String
  verificationId : Option String
  verificationStatus : Option String

namespace CanonicalReviewEventSink

def kind : AttemptKind where
  idKey := "review_id"
  attempt := "Review"
  noun := "review"
  report := "ReviewReport"
  source := "reviewer"
  maxModelOutputChars := 20000
  started := .reviewStarted
  completed := .reviewCompleted
  failed := .reviewFailed
  recordingError := .reviewRecording

def findingPayload (finding : ReviewFinding) : PyValue :=
  payloadOf [
    ("severity", .str finding.severity),
    ("message", .str finding.message),
    ("path", .ofOption .str finding.path),
    ("start_line", .ofOption .int finding.startLine),
    ("end_line", .ofOption .int finding.endLine)]

def reportPayload (report : ReviewReport) : PyValue :=
  payloadOf [
    ("review_id", .str report.reviewId),
    ("verdict", .str report.verdict.value),
    ("note", .str report.summary),
    ("summary", .str report.summary),
    ("findings", .list (report.findings.map findingPayload)),
    ("repository_fingerprint", .str report.repositoryFingerprint),
    ("diff_sha256", .str report.diffSha256),
    ("verification_id", .ofOption .str report.verificationId),
    ("verification_status", .ofOption .str report.verificationStatus)]

def new (runId reviewId : String) (rulesSha256 : Option String) : RunProg AttemptSink :=
  if !isStableId reviewId then
    Prog.throw (.reviewInput "review_id must be a bounded stable identifier.")
  else do
    let expectedSeq ← runningSeq runId "Review sink"
    return { runId, attemptId := reviewId
             startedExtra := (rulesSha256.map fun sha => ("rules_sha256", .str sha)).toList
             expectedSeq }

/-- The calls a reviewer's caller makes on its sink. -/
inductive Call where
  | emit (event : AgentEvent) (pages : ℕ) (fresh : ℕ → Fresh)
  | complete (report : ReviewReport) (fresh : ℕ → Fresh)
  | fail (reviewId errorType message : String) (fresh : ℕ → Fresh)
  | noteExternalAppend (seq : ℤ)

def call (sink : AttemptSink) : Call → RunProg (Ended AttemptSink)
  | .emit event pages fresh => sink.emit kind event pages fresh
  | .complete report fresh => sink.complete kind report.reviewId (reportPayload report) fresh
  | .fail reviewId errorType message fresh => sink.fail kind reviewId errorType message fresh
  | .noteExternalAppend seq => returned (sink.noteExternalAppend seq)

end CanonicalReviewEventSink

end Imece.RunRuntime
