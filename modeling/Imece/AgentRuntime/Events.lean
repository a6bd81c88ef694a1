import Imece.RunRuntime.JsonUtil

/-!
# Agent events

The transient lifecycle events of one agent session, which the canonical sinks
translate into run events.
-/
namespace Imece.AgentRuntime

open RunRuntime

structure ModelToolCall where
  callId : String
  name : String
  arguments : PyValue

structure ModelUsage where
  inputTokens : ℤ
  outputTokens : ℤ
  costUsd : Option PyFloat

structure PermissionRequest where
  action : String
  resource : String

/-- The dataclasses derived from `AgentEvent`; `other` is any further subclass
or the base class itself. -/
inductive AgentEventKind where
  | executionStarted (task : String)
  | turnStarted (turnIndex : ℤ) (turnId : String)
  | modelStarted (turnIndex : ℤ) (turnId itemId : String)
  | modelCompleted (turnIndex : ℤ) (turnId itemId text : String)
      (toolCalls : List ModelToolCall) (stopReason : String) (usage : ModelUsage)
  | modelFailed (turnIndex : ℤ) (turnId itemId errorType message : String)
  | toolRequested (turnIndex : ℤ) (turnId itemId callId toolName : String) (arguments : PyValue)
  | toolStarted (turnIndex : ℤ) (turnId itemId callId toolName : String) (arguments : PyValue)
  | toolCompleted (turnIndex : ℤ) (turnId itemId callId toolName content : String)
      (metadata : PyValue)
  | toolFailed (turnIndex : ℤ) (turnId itemId callId toolName stage : String)
      (recoverable : Bool) (errorType message : String)
  | approvalRequested (turnIndex : ℤ) (turnId itemId callId toolName fingerprint : String)
      (permissionRequests : List PermissionRequest)
  | approvalResolved (turnIndex : ℤ) (turnId itemId callId toolName fingerprint : String)
      (approved : Bool)
  | turnCompleted (turnIndex : ℤ) (turnId : String)
  | executionCompleted (finalText : String)
      (modelTurns toolCalls toolErrors inputTokens outputTokens : ℤ) (costUsd : Option PyFloat)
  | executionFailed (errorType message : String)
  | other (className : String)

structure AgentEvent where
  executionId : String
  kind : AgentEventKind

/-- `type(event).__name__`. -/
def AgentEventKind.className : AgentEventKind → String
  | .executionStarted .. => "ExecutionStarted"
  | .turnStarted .. => "TurnStarted"
  | .modelStarted .. => "ModelStarted"
  | .modelCompleted .. => "ModelCompleted"
  | .modelFailed .. => "ModelFailed"
  | .toolRequested .. => "ToolRequested"
  | .toolStarted .. => "ToolStarted"
  | .toolCompleted .. => "ToolCompleted"
  | .toolFailed .. => "ToolFailed"
  | .approvalRequested .. => "ApprovalRequested"
  | .approvalResolved .. => "ApprovalResolved"
  | .turnCompleted .. => "TurnCompleted"
  | .executionCompleted .. => "ExecutionCompleted"
  | .executionFailed .. => "ExecutionFailed"
  | .other className => className

end Imece.AgentRuntime
