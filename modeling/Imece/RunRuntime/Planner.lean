import Imece.RunRuntime.AttemptSink

/-!
# The planner sink

One planning attempt. `plan.completed` is written only for a parsed report, and
the attempt never ends the run.
-/
namespace Imece.RunRuntime

open Lib AgentRuntime

structure PlanStep where
  title : String
  objective : String

structure PlanReport where
  planId : String
  summary : String
  steps : List PlanStep
  acceptanceCriteria : List String
  risks : List String
  complexity : String
  scope : String
  repositoryFingerprint : String
  taskSha256 : String

namespace CanonicalPlannerEventSink

def kind : AttemptKind where
  idKey := "plan_id"
  attempt := "Plan"
  noun := "plan"
  report := "PlanReport"
  source := "planner"
  maxModelOutputChars := 32000
  started := .planStarted
  completed := .planCompleted
  failed := .planFailed
  recordingError := .plannerRecording

def stepPayload (step : PlanStep) : PyValue :=
  payloadOf [("title", .str step.title), ("objective", .str step.objective)]

def reportPayload (report : PlanReport) : PyValue :=
  payloadOf [
    ("plan_id", .str report.planId),
    ("summary", .str report.summary),
    ("steps", .list (report.steps.map stepPayload)),
    ("acceptance_criteria", .strs report.acceptanceCriteria),
    ("risks", .strs report.risks),
    ("task_profile", payloadOf [("complexity", .str report.complexity),
      ("scope", .str report.scope)]),
    ("repository_fingerprint", .str report.repositoryFingerprint),
    ("task_sha256", .str report.taskSha256)]

/-- The provenance `plan.started` carries only when it was supplied. -/
def startedExtra (rulesSha256 : Option String) (pinnedPaths : List String) :
    List (String × PyValue) :=
  (rulesSha256.map fun sha => ("rules_sha256", .str sha)).toList ++
    if pinnedPaths.isEmpty then [] else [("pinned_paths", .strs pinnedPaths)]

def new (runId planId : String) (rulesSha256 : Option String) (pinnedPaths : List String) :
    RunProg AttemptSink :=
  if !isStableId planId then
    Prog.throw (.plannerInput "plan_id must be a bounded stable identifier.")
  else do
    let expectedSeq ← runningSeq runId "Planner sink"
    return { runId, attemptId := planId, startedExtra := startedExtra rulesSha256 pinnedPaths
             expectedSeq }

/-- The calls a planner's caller makes on its sink. -/
inductive Call where
  | emit (event : AgentEvent) (pages : ℕ) (fresh : ℕ → Fresh)
  | complete (report : PlanReport) (fresh : ℕ → Fresh)
  | fail (planId errorType message : String) (fresh : ℕ → Fresh)
  | noteExternalAppend (seq : ℤ)

def call (sink : AttemptSink) : Call → RunProg (Ended AttemptSink)
  | .emit event pages fresh => sink.emit kind event pages fresh
  | .complete report fresh => sink.complete kind report.planId (reportPayload report) fresh
  | .fail planId errorType message fresh => sink.fail kind planId errorType message fresh
  | .noteExternalAppend seq => returned (sink.noteExternalAppend seq)

end CanonicalPlannerEventSink

end Imece.RunRuntime
