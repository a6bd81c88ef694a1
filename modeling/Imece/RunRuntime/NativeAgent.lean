import Imece.AgentRuntime.Events
import Imece.RunRuntime.Sinks

/-!
# The native agent sink

Maps the transient events of one agent session to one optimistic canonical
trajectory. It is the only sink that parks a run in `WAITING_USER`: for as long
as a tool call waits for an approval.
-/
namespace Imece.RunRuntime

open Lib AgentRuntime

structure CanonicalAgentEventSink where
  runId : String
  executionId : Option String
  expectedSeq : ℕ

namespace CanonicalAgentEventSink

def agentSource : String := "native_agent"

/-- The sink for a run, bound to an execution or to the first one it sees. -/
def new (runId : String) (executionId : Option String) : RunProg CanonicalAgentEventSink := do
  let expectedSeq ← runningSeq runId "Native agent sink"
  return { runId, executionId, expectedSeq }

def usagePayload (usage : ModelUsage) : PyValue :=
  payloadOf [
    ("prompt_tokens", .int usage.inputTokens),
    ("completion_tokens", .int usage.outputTokens),
    ("total_tokens", .int (usage.inputTokens + usage.outputTokens)),
    ("cost_usd", .ofOption .float usage.costUsd)]

def toolCallPayload (call : ModelToolCall) : PyValue :=
  payloadOf [("call_id", .str call.callId), ("name", .str call.name),
    ("arguments", call.arguments)]

/-- `asdict(request)`. -/
def permissionPayload (request : PermissionRequest) : PyValue :=
  payloadOf [("action", .str request.action), ("resource", .str request.resource)]

def spec (executionId : String) (type : RunEventType) (payload : PyValue)
    (turnId itemId : Option String) : EventArgs where
  type := type.value
  payload
  executionId := some executionId
  turnId
  itemId
  correlationId := some executionId
  source := agentSource

/-- `_specs`: provider exception texts are never persisted. -/
def specs (event : AgentEvent) : List EventArgs :=
  let spec := spec event.executionId
  match event.kind with
  | .executionStarted task => [spec .executionStarted (payloadOf [("task", .str task)]) none none]
  | .turnStarted turnIndex turnId =>
      [spec .turnStarted (payloadOf [("turn_index", .int turnIndex)]) (some turnId) none]
  | .modelStarted turnIndex turnId itemId =>
      [spec .modelStarted (payloadOf [("turn_index", .int turnIndex)]) (some turnId)
        (some itemId)]
  | .modelCompleted _ turnId itemId text toolCalls stopReason usage =>
      [spec .modelCompleted (payloadOf [
          ("text", .str text),
          ("stop_reason", .str stopReason),
          ("tool_calls", .list (toolCalls.map toolCallPayload))]) (some turnId) (some itemId),
        spec .usageRecorded (usagePayload usage) (some turnId) (some itemId)]
  | .modelFailed _ turnId itemId errorType _ =>
      [spec .modelFailed (payloadOf [("error_type", .str errorType),
        ("message", .str "Model provider request failed.")]) (some turnId) (some itemId)]
  | .toolStarted _ turnId itemId callId toolName _ =>
      [spec .toolStarted (payloadOf [("call_id", .str callId), ("tool_name", .str toolName)])
        (some turnId) (some itemId)]
  | .toolRequested _ turnId itemId callId toolName arguments =>
      [spec .toolRequested (payloadOf [("call_id", .str callId), ("tool_name", .str toolName),
        ("arguments", arguments)]) (some turnId) (some itemId)]
  | .toolCompleted _ turnId itemId callId toolName content metadata =>
      [spec .toolCompleted (payloadOf [("call_id", .str callId), ("tool_name", .str toolName),
        ("content", .str content), ("metadata", metadata)]) (some turnId) (some itemId)]
  | .toolFailed _ turnId itemId callId toolName stage recoverable errorType message =>
      [spec .toolFailed (payloadOf [("error_type", .str errorType),
        ("message", .str (takeChars message 2000)), ("stage", .str stage),
        ("recoverable", .bool recoverable), ("call_id", .str callId),
        ("tool_name", .str toolName)]) (some turnId) (some itemId)]
  | .approvalRequested _ turnId itemId callId toolName fingerprint permissionRequests =>
      [spec .permissionRequested (payloadOf [
          ("call_id", .str callId),
          ("tool_name", .str toolName),
          ("fingerprint", .str fingerprint),
          ("permission_requests", .list (permissionRequests.map permissionPayload))])
          (some turnId) (some itemId),
        spec .runWaitingUser (payloadOf []) (some turnId) none]
  | .approvalResolved _ turnId itemId callId toolName fingerprint approved =>
      [spec .permissionResolved (payloadOf [
          ("call_id", .str callId),
          ("tool_name", .str toolName),
          ("fingerprint", .str fingerprint),
          ("approved", .bool approved)]) (some turnId) (some itemId),
        spec .runResumed (payloadOf []) (some turnId) none]
  | .turnCompleted _ turnId => [spec .turnCompleted (payloadOf []) (some turnId) none]
  | .executionCompleted finalText modelTurns toolCalls toolErrors inputTokens outputTokens
      costUsd =>
      [spec .executionCompleted (payloadOf [
        ("final_text", .str finalText),
        ("model_turns", .int modelTurns),
        ("tool_calls", .int toolCalls),
        ("tool_errors", .int toolErrors),
        ("input_tokens", .int inputTokens),
        ("output_tokens", .int outputTokens),
        ("cost_usd", .ofOption .float costUsd)]) none none]
  | .executionFailed errorType _ =>
      [spec .executionFailed (payloadOf [("error_type", .str errorType),
        ("message", .str "Agent execution failed.")]) none none]
  | .other _ => []

/-- `emit`: one batch at the remembered number, which moves on when it commits. -/
def emit (sink : CanonicalAgentEventSink) (input : AgentEvent × (ℕ → Fresh)) :
    RunProg (Ended CanonicalAgentEventSink) :=
  let (event, fresh) := input
  let sink := { sink with executionId := some (sink.executionId.getD event.executionId) }
  if some event.executionId ≠ sink.executionId then
    raised sink (.valueError "Agent event execution_id does not match this sink")
  else if (specs event).isEmpty then
    raised sink (.valueError ("Unsupported native agent event: " ++ event.kind.className))
  else do
    match ← (commitSpecs sink.runId (specs event) sink.expectedSeq fresh).attempt with
    | .ok seq => returned { sink with expectedSeq := seq }
    | .error e => raised sink e

end CanonicalAgentEventSink

end Imece.RunRuntime
