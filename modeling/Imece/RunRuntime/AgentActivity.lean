import Imece.RunRuntime.AttemptSink

/-!
# Activity notices

`agent.activity` is advisory: it is recorded at no expected number, in between the
events of an attempt, and the attempt's sink is told the number it was given.
-/
namespace Imece.RunRuntime

open Lib

/-- The arguments of `record_agent_activity`. -/
structure AgentActivity where
  role : String
  kind : String
  title : String
  status : String
  toolCallId : Option String := none
  detail : Option String := none
  executionId : Option String := none
  source : String := "agent_activity"

namespace AgentActivity

def roles : List String := ["planner", "worker", "verification", "reviewer", "fix", "system"]
def kinds : List String := ["tool", "model", "check", "stage", "note", "usage"]
def statuses : List String := ["running", "ok", "error", "info"]

/-- `_bounded_text`: without NUL, cut to its bound. -/
def boundedText (value field : String) (maxChars : ℕ) (allowEmpty : Bool := false) :
    Except RunRuntimeError String :=
  if value = "" ∧ !allowEmpty then
    .error (.eventValidation ("agent.activity " ++ field ++ " must be a non-empty string"))
  else .ok (takeChars (dropNul value) maxChars)

def unknown (field : String) : Except RunRuntimeError Unit :=
  .error (.eventValidation ("agent.activity " ++ field ++ " bilinmeyen"))

def checkVocabulary (activity : AgentActivity) : Except RunRuntimeError Unit :=
  if activity.role ∉ roles then unknown "role"
  else if activity.kind ∉ kinds then unknown "kind"
  else if activity.status ∉ statuses then unknown "status"
  else .ok ()

def payload (activity : AgentActivity) : Except RunRuntimeError PyValue := do
  activity.checkVocabulary
  let title ← boundedText activity.title "title" 300
  let toolCallId ← activity.toolCallId.mapM fun id => boundedText id "tool_call_id" 300
  let detail ← activity.detail.mapM fun text => boundedText text "detail" 4096 true
  return payloadOf ([
    ("role", .str activity.role),
    ("kind", .str activity.kind),
    ("title", .str title),
    ("status", .str activity.status)] ++
    (toolCallId.map fun id => ("tool_call_id", PyValue.str id)).toList ++
    (detail.map fun text => ("detail", PyValue.str text)).toList)

/-- `record_agent_activity`. -/
def recorded (runId : String) (activity : AgentActivity) (fresh : Fresh) : RunProg RunEvent := do
  let payload ← Prog.check activity.payload
  let (event, _) ← record runId {
    type := RunEventType.agentActivity.value
    payload
    executionId := activity.executionId
    source := activity.source } none fresh
  return event

end AgentActivity

/-- The activity recorder of an attempt: its failures are swallowed, and the sink
moves past the event it has appended. -/
def AttemptSink.activity (sink : AttemptSink) (activity : AgentActivity) (fresh : Fresh) :
    RunProg (Ended AttemptSink) := do
  match ← (activity.recorded sink.runId fresh).attempt with
  | .ok event => returned (sink.noteExternalAppend event.seq)
  | .error _ => returned sink

end Imece.RunRuntime
