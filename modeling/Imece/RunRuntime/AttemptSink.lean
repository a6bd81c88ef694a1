import Imece.AgentRuntime.Events
import Imece.RunRuntime.NativeAgent

/-!
# Attempt sinks

The planner's and the reviewer's sink record one attempt of an agent session:
its start, the session's turns, and at most one terminal event. They differ in
the names of their events and in what their reports carry. An attempt never
writes an execution event and never carries an execution identifier.
-/
namespace Imece.RunRuntime

open Lib AgentRuntime

/-- What the planner's and the reviewer's sink differ in. -/
structure AttemptKind where
  idKey : String
  attempt : String
  noun : String
  report : String
  source : String
  maxModelOutputChars : ℕ
  started : RunEventType
  completed : RunEventType
  failed : RunEventType
  recordingError : String → RunRuntimeError

/-- The state of one attempt's sink. -/
structure AttemptSink where
  runId : String
  attemptId : String
  startedExtra : List (String × PyValue)
  expectedSeq : ℕ
  transientExecutionId : Option String := none
  terminalRecorded : Bool := false
  startedPersisted : Bool := false
  executionCompletedObserved : Bool := false

namespace AttemptSink

/-- `note_external_append`: jump past an event the caller appended itself. -/
def noteExternalAppend (sink : AttemptSink) (seq : ℤ) : AttemptSink :=
  if sink.expectedSeq < seq then { sink with expectedSeq := seq.toNat } else sink

variable (kind : AttemptKind)

def spec (attemptId : String) (type : RunEventType) (payload : PyValue)
    (turnId itemId : Option String) : EventArgs where
  type := type.value
  payload
  turnId
  itemId
  correlationId := some attemptId
  source := kind.source

/-- `_specs`: the session's turns, models and tools. An approval request does not
park the run; an approval's resolution is not recorded. -/
def specs (attemptId : String) (event : AgentEventKind) : List EventArgs :=
  let spec := spec kind attemptId
  match event with
  | .turnStarted turnIndex turnId =>
      [spec .turnStarted (payloadOf [("turn_index", .int turnIndex)]) (some turnId) none]
  | .modelStarted turnIndex turnId itemId =>
      [spec .modelStarted (payloadOf [("turn_index", .int turnIndex)]) (some turnId)
        (some itemId)]
  | .modelCompleted _ turnId itemId text toolCalls stopReason usage =>
      [spec .modelCompleted (payloadOf [
          ("text", .str (takeChars text kind.maxModelOutputChars)),
          ("text_truncated", .bool (decide (kind.maxModelOutputChars < text.length))),
          ("stop_reason", .str stopReason),
          ("tool_calls", .list (toolCalls.map CanonicalAgentEventSink.toolCallPayload))])
          (some turnId) (some itemId),
        spec .usageRecorded (CanonicalAgentEventSink.usagePayload usage) (some turnId)
          (some itemId)]
  | .modelFailed _ turnId itemId errorType message =>
      [spec .modelFailed (payloadOf [("error_type", .str errorType),
        ("message", .str (takeChars message 2000))]) (some turnId) (some itemId)]
  | .toolStarted _ turnId itemId callId toolName _ =>
      [spec .toolStarted (payloadOf [("call_id", .str callId), ("tool_name", .str toolName)])
        (some turnId) (some itemId)]
  | .toolRequested _ turnId itemId callId toolName arguments =>
      [spec .toolRequested (payloadOf [("call_id", .str callId), ("tool_name", .str toolName),
        ("arguments", arguments)]) (some turnId) (some itemId)]
  | .toolCompleted _ turnId itemId callId toolName content metadata =>
      [spec .toolCompleted (payloadOf [("call_id", .str callId), ("tool_name", .str toolName),
        ("content", .str content), ("metadata", metadata)]) (some turnId) (some itemId)]
  | .toolFailed _ turnId itemId callId toolName stage recoverable errorType message =>
      [spec .toolFailed (payloadOf [("error_type", .str errorType),
        ("message", .str (takeChars message 2000)), ("stage", .str stage),
        ("recoverable", .bool recoverable), ("call_id", .str callId),
        ("tool_name", .str toolName)]) (some turnId) (some itemId)]
  | .approvalRequested _ turnId itemId callId toolName fingerprint _ =>
      [spec .permissionRequested (payloadOf [
        ("call_id", .str callId),
        ("tool_name", .str toolName),
        ("fingerprint", .str fingerprint)]) (some turnId) (some itemId)]
  | .turnCompleted _ turnId => [spec .turnCompleted (payloadOf []) (some turnId) none]
  | _ => []

/-- `_commit`: the remembered number moves on when the batch commits. -/
def commit (sink : AttemptSink) (specs : List EventArgs) (fresh : ℕ → Fresh)
    (then_ : AttemptSink → AttemptSink) : RunProg (Ended AttemptSink) := do
  match ← (commitSpecs sink.runId specs sink.expectedSeq fresh).attempt with
  | .ok seq => returned (then_ { sink with expectedSeq := seq })
  | .error e => raised sink e

/-- `_append_terminal`: at most one, and the sink is closed by it. -/
def appendTerminal (sink : AttemptSink) (type : RunEventType) (payload : PyValue)
    (fresh : ℕ → Fresh) : RunProg (Ended AttemptSink) :=
  if sink.terminalRecorded then
    raised sink (kind.recordingError
      (kind.attempt ++ " attempt already has a terminal event: " ++ sink.attemptId))
  else
    commit sink [spec kind sink.attemptId type payload none none] fresh
      fun sink => { sink with terminalRecorded := true }

def fail (sink : AttemptSink) (attemptId errorType message : String) (fresh : ℕ → Fresh) :
    RunProg (Ended AttemptSink) :=
  if attemptId ≠ sink.attemptId then
    raised sink (.valueError (kind.idKey ++ " does not match this " ++ kind.noun ++ " sink"))
  else if !sink.startedPersisted then
    raised sink (kind.recordingError
      ("fail() requires this sink to have persisted " ++ kind.started.value ++ " first: " ++
        sink.attemptId))
  else
    appendTerminal kind sink kind.failed (payloadOf [
      (kind.idKey, .str attemptId),
      ("error_type", .str (takeChars (dropNul errorType) 2000)),
      ("error_message", .str (takeChars (dropNul message) 2000))]) fresh

/-- `complete`: a report is trusted only after a start this sink persisted and a
transient completion it observed. -/
def complete (sink : AttemptSink) (reportId : String) (payload : PyValue) (fresh : ℕ → Fresh) :
    RunProg (Ended AttemptSink) :=
  if reportId ≠ sink.attemptId then
    raised sink (.valueError
      (kind.report ++ "." ++ kind.idKey ++ " does not match this " ++ kind.noun ++ " sink"))
  else if !sink.startedPersisted then
    raised sink (kind.recordingError
      ("complete() requires this sink to have persisted " ++ kind.started.value ++ " first: " ++
        sink.attemptId))
  else if !sink.executionCompletedObserved then
    raised sink (kind.recordingError
      ("complete() requires this sink to have observed a transient ExecutionCompleted before a " ++
        kind.report ++ " can be trusted: " ++ sink.attemptId))
  else appendTerminal kind sink kind.completed payload fresh

/-- `ExecutionStarted`: the identifier must be new to the whole history. -/
def start (sink : AttemptSink) (pages : ℕ) (fresh : ℕ → Fresh) :
    RunProg (Ended AttemptSink) := do
  match ← (rejectReused sink.runId kind.started kind.idKey sink.attemptId pages 0).attempt with
  | .error e => raised sink e
  | .ok () =>
      commit sink [spec kind sink.attemptId kind.started
        (payloadOf ((kind.idKey, .str sink.attemptId) :: sink.startedExtra)) none none] fresh
        fun sink => { sink with startedPersisted := true }

/-- The event of an open attempt. The transient completion is only noted; a
transient failure is the attempt's failure. -/
def dispatch (sink : AttemptSink) (event : AgentEventKind) (pages : ℕ) (fresh : ℕ → Fresh) :
    RunProg (Ended AttemptSink) :=
  match event with
  | .executionStarted _ => start kind sink pages fresh
  | .executionCompleted .. => returned { sink with executionCompletedObserved := true }
  | .executionFailed errorType message => fail kind sink sink.attemptId errorType message fresh
  | other =>
      if (specs kind sink.attemptId other).isEmpty then
        raised sink (.valueError ("Unsupported " ++ kind.source ++ " event: " ++ other.className))
      else commit sink (specs kind sink.attemptId other) fresh id

/-- Only a start may come before the start was persisted. -/
def isStart : AgentEventKind → Bool
  | .executionStarted _ => true
  | _ => false

/-- `emit`: the first event binds the sink to its session. -/
def emit (sink : AttemptSink) (event : AgentEvent) (pages : ℕ) (fresh : ℕ → Fresh) :
    RunProg (Ended AttemptSink) :=
  let sink := { sink with
    transientExecutionId := some (sink.transientExecutionId.getD event.executionId) }
  if some event.executionId ≠ sink.transientExecutionId then
    raised sink (.valueError
      ("Agent event execution_id does not match this " ++ kind.noun ++ " sink"))
  else if sink.terminalRecorded then
    raised sink (kind.recordingError
      (kind.attempt ++ " attempt already has a terminal event; rejecting further lifecycle event " ++
        event.kind.className ++ ": " ++ sink.attemptId))
  else if !sink.startedPersisted && !isStart event.kind then
    raised sink (kind.recordingError
      (kind.started.value ++ " has not been persisted yet; rejecting " ++ event.kind.className ++
        " out of order: " ++ sink.attemptId))
  else dispatch kind sink event.kind pages fresh

end AttemptSink

end Imece.RunRuntime
