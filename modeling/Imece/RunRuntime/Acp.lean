import Imece.RunRuntime.Sinks

/-!
# The ACP sink

One ACP worker execution: its start, the session's observations, and one
terminal. A failed append closes the sink for the failure path, whose remembered
number is then known to be stale.
-/
namespace Imece.RunRuntime

open Lib

structure CanonicalAcpEventSink where
  runId : String
  executionId : String
  expectedSeq : ℕ
  started : Bool := false
  terminal : Bool := false
  boundSessionId : Option String := none
  persistenceError : Option RunRuntimeError := none

/-- A transient ACP observation as it reaches the sink: the session's fields are
dynamic, `serialized` is the outcome of `model_dump`, and `optionIds` is `none`
when the value is not a sequence. -/
inductive AcpRuntimeEvent where
  | sessionUpdateObserved (sessionId : PyValue) (serialized : Except RunRuntimeError PyValue)
      (serializedChars : ℤ)
  | permissionRequested (sessionId toolCallId title : PyValue) (optionIds : Option (List PyValue))
  | permissionResolved (sessionId toolCallId outcome reason : PyValue)
  | other (className : String)

structure AcpRunResult where
  sessionId : PyValue
  stopReason : PyValue
  updateCount : ℤ
  updateChars : ℤ
  permissionRequestCount : ℤ
  sessionCloseSupported : Bool
  sessionCloseSucceeded : Option Bool

namespace CanonicalAcpEventSink

def acpSource : String := "acp_worker"
def maxCanonicalAcpTextChars : ℕ := 2000
def maxCanonicalAcpPermissionOptions : ℕ := 128

def new (runId executionId : String) : RunProg CanonicalAcpEventSink := do
  let expectedSeq ← runningSeq runId "ACP sink"
  return { runId, executionId, expectedSeq }

def requireStartedAndOpen (sink : CanonicalAcpEventSink) : Except RunRuntimeError Unit :=
  if !sink.started then .error (.runtimeError "ACP sink cannot record before start")
  else if sink.terminal then
    .error (.runtimeError "ACP sink cannot record after terminal settlement")
  else .ok ()

def spec (executionId : String) (type : RunEventType) (payload : PyValue) : EventArgs where
  type := type.value
  payload
  executionId := some executionId
  correlationId := some executionId
  source := acpSource

/-- `_append(self._spec(...))`: a spec that is not valid raises before the append, and the last
failure of an append is remembered. -/
def append (sink : CanonicalAcpEventSink) (type : RunEventType) (payload : PyValue)
    (fresh : ℕ → Fresh) (then_ : CanonicalAcpEventSink → CanonicalAcpEventSink) :
    RunProg (Ended CanonicalAcpEventSink) :=
  match RunEventSpec.ofArgs (spec sink.executionId type payload) with
  | .error e => raised sink e
  | .ok _ => do
      match ← (commitSpecs sink.runId [spec sink.executionId type payload] sink.expectedSeq
          fresh).attempt with
      | .ok seq => returned (then_ { sink with expectedSeq := seq })
      | .error e => raised { sink with persistenceError := some e } e

/-- `_canonical_text`: bounded, NUL-free text; only a title may be empty. -/
def canonicalText (value : PyValue) (field : String) (allowEmpty : Bool := false) :
    Except RunRuntimeError String :=
  match value with
  | .str text =>
      if !allowEmpty && text = "" then
        .error (.valueError ("ACP " ++ field ++ " must be a non-empty string"))
      else if text.toList.any fun c => c == Char.ofNat 0 then
        .error (.valueError ("ACP " ++ field ++ " must not contain NUL"))
      else if maxCanonicalAcpTextChars < text.length then
        .error (.valueError ("ACP " ++ field ++ " exceeds 2000 characters"))
      else .ok text
  | _ => .error (.valueError ("ACP " ++ field ++ " must be a string"))

def permissionOptions (optionIds : Option (List PyValue)) :
    Except RunRuntimeError (List String) :=
  match optionIds with
  | none => .error (.valueError "ACP permission option_ids must be a sequence of strings")
  | some options =>
      if maxCanonicalAcpPermissionOptions < options.length then
        .error (.valueError "ACP permission option_ids exceed 128 entries")
      else options.mapM (canonicalText · "option_id")

/-- `_bind_session`: the first session named is the only one. -/
def bindSession (sink : CanonicalAcpEventSink) (sessionId : PyValue) :
    Except RunRuntimeError CanonicalAcpEventSink := do
  let validated ← canonicalText sessionId "session_id"
  match sink.boundSessionId with
  | none => .ok { sink with boundSessionId := some validated }
  | some bound =>
      if validated ≠ bound then
        .error (.valueError "ACP event session_id does not match this sink")
      else .ok sink

/-- The event's type and payload, after the checks the source makes in this order,
and the sink with its session bound. -/
def observed (sink : CanonicalAcpEventSink) (event : AcpRuntimeEvent) :
    Except RunRuntimeError (CanonicalAcpEventSink × RunEventType × PyValue) := do
  match event with
  | .sessionUpdateObserved sessionId serialized serializedChars =>
      let update ← serialized
      (validateJsonValue "update" update).mapError .ofJson
      let sink ← bindSession sink sessionId
      .ok (sink, .executionOutput, payloadOf [
        ("transport", .str "acp"),
        ("session_id", sessionId),
        ("update", update),
        ("serialized_chars", .int serializedChars)])
  | .permissionRequested sessionId toolCallId title optionIds =>
      let session ← canonicalText sessionId "session_id"
      let toolCall ← canonicalText toolCallId "tool_call_id"
      let title ← canonicalText title "title" true
      let options ← permissionOptions optionIds
      let sink ← bindSession sink (.str session)
      .ok (sink, .permissionRequested, payloadOf [
        ("transport", .str "acp"),
        ("session_id", .str session),
        ("tool_call_id", .str toolCall),
        ("title", .str title),
        ("option_ids", .strs options)])
  | .permissionResolved sessionId toolCallId outcome reason =>
      let session ← canonicalText sessionId "session_id"
      let toolCall ← canonicalText toolCallId "tool_call_id"
      let outcome ← canonicalText outcome "outcome"
      let reason ← canonicalText reason "reason" true
      let sink ← bindSession sink (.str session)
      .ok (sink, .permissionResolved, payloadOf [
        ("transport", .str "acp"),
        ("session_id", .str session),
        ("tool_call_id", .str toolCall),
        ("outcome", .str outcome),
        ("reason", .str reason)])
  | .other className => .error (.typeError ("Unsupported ACP event: " ++ className))

/-- The calls the ACP client makes on its sink. -/
inductive Call where
  | start (task : String) (fresh : ℕ → Fresh)
  | emit (event : AcpRuntimeEvent) (fresh : ℕ → Fresh)
  | complete (result : AcpRunResult) (fresh : ℕ → Fresh)
  | fail (errorType message : String) (fresh : ℕ → Fresh)

def start (sink : CanonicalAcpEventSink) (task : String) (fresh : ℕ → Fresh) :
    RunProg (Ended CanonicalAcpEventSink) :=
  if sink.started then raised sink (.runtimeError "ACP sink start was already recorded")
  else if sink.terminal then raised sink (.runtimeError "ACP sink already has a terminal event")
  else
    append sink .executionStarted (payloadOf [("transport", .str "acp"), ("task", .str task)])
      fresh fun sink => { sink with started := true }

def emit (sink : CanonicalAcpEventSink) (event : AcpRuntimeEvent) (fresh : ℕ → Fresh) :
    RunProg (Ended CanonicalAcpEventSink) :=
  match requireStartedAndOpen sink with
  | .error e => raised sink e
  | .ok () =>
      match observed sink event with
      | .error e => raised sink e
      | .ok (sink, type, payload) => append sink type payload fresh id

def complete (sink : CanonicalAcpEventSink) (result : AcpRunResult) (fresh : ℕ → Fresh) :
    RunProg (Ended CanonicalAcpEventSink) :=
  match requireStartedAndOpen sink with
  | .error e => raised sink e
  | .ok () =>
      match bindSession sink result.sessionId with
      | .error e => raised sink e
      | .ok sink =>
          append sink .executionCompleted (payloadOf [
            ("transport", .str "acp"),
            ("session_id", result.sessionId),
            ("stop_reason", result.stopReason),
            ("update_count", .int result.updateCount),
            ("update_chars", .int result.updateChars),
            ("permission_request_count", .int result.permissionRequestCount),
            ("session_close_supported", .bool result.sessionCloseSupported),
            ("session_close_succeeded", .ofOption .bool result.sessionCloseSucceeded)]) fresh
            fun sink => { sink with terminal := true }

/-- `fail`: after a persistence error nothing is appended, and that error is
raised again. -/
def fail (sink : CanonicalAcpEventSink) (errorType message : String) (fresh : ℕ → Fresh) :
    RunProg (Ended CanonicalAcpEventSink) :=
  match requireStartedAndOpen sink with
  | .error e => raised sink e
  | .ok () =>
      match sink.persistenceError with
      | some e => raised sink e
      | none =>
          append sink .executionFailed (payloadOf [
            ("transport", .str "acp"),
            ("error_type", .str errorType),
            ("message", .str (takeChars (dropNul message) maxCanonicalAcpTextChars))]) fresh
            fun sink => { sink with terminal := true }

def call (sink : CanonicalAcpEventSink) : Call → RunProg (Ended CanonicalAcpEventSink)
  | .start task fresh => start sink task fresh
  | .emit event fresh => emit sink event fresh
  | .complete result fresh => complete sink result fresh
  | .fail errorType message fresh => fail sink errorType message fresh

end CanonicalAcpEventSink

end Imece.RunRuntime
