import Imece.AgentRuntime.Events
import Imece.Lib.Machine
import Imece.Lib.Text
import Imece.Lib.Wp
import Imece.ToolRuntime.Policy

/-!
# The agent session

The worker loop between a model and a dispatcher. The calls in tail position are the
steps of a machine: a step is one of the host's calls, one model turn, or one round of
the loop over a turn's tool calls. What the backend, the dispatcher, the cancellation
token and the event sink do in a step is part of its event.
-/
namespace Imece.AgentRuntime

open Lib RunRuntime
open ToolRuntime (ToolErrorKind PermissionEffect)

/-- The subclasses of `AgentRuntimeError`. -/
inductive AgentErrorKind where
  | input
  | lifecycle
  | protocol
  | backend
  | incomplete
  | refusal
  | toolRuntime
  | approval
  | limit
  | recording
  | cancelled
deriving DecidableEq, Repr

def AgentErrorKind.className : AgentErrorKind → String
  | .input => "AgentInputError"
  | .lifecycle => "AgentLifecycleError"
  | .protocol => "AgentProtocolError"
  | .backend => "AgentBackendError"
  | .incomplete => "AgentIncompleteError"
  | .refusal => "AgentRefusalError"
  | .toolRuntime => "AgentToolRuntimeError"
  | .approval => "AgentApprovalError"
  | .limit => "AgentLimitError"
  | .recording => "AgentRecordingError"
  | .cancelled => "AgentCancelledError"

def toolErrorName : ToolErrorKind → String
  | .registration => "ToolRegistrationError"
  | .notFound => "ToolNotFoundError"
  | .inputValidation => "ToolInputValidationError"
  | .policy => "ToolPolicyError"
  | .denied => "ToolDeniedError"
  | .approvalRequired => "ToolApprovalRequiredError"
  | .approvalMismatch => "ToolApprovalMismatchError"
  | .execution => "ToolExecutionError"
  | .preparedCall => "ToolPreparedCallError"
  | .callConsumed => "ToolCallConsumedError"
  | .observation => "ToolObservationError"

/-- What the dispatcher raises. -/
inductive ToolException where
  | tool (kind : ToolErrorKind) (message : String)
  | other (className message : String)
deriving DecidableEq, Repr

namespace ToolException

def typeName : ToolException → String
  | tool kind _ => toolErrorName kind
  | other className _ => className

def message : ToolException → String
  | tool _ message => message
  | other _ message => message

/-- `_INTERNAL_TOOL_ERRORS` -/
def isInternal : ToolException → Bool
  | tool .preparedCall _ | tool .callConsumed _ | tool .approvalMismatch _ => true
  | _ => false

/-- `_RECOVERABLE_TOOL_ERRORS`, with their subclasses. -/
def isRecoverable : ToolException → Bool
  | tool .notFound _ | tool .inputValidation _ | tool .denied _ | tool .execution _
  | tool .policy _ | tool .approvalRequired _ | tool .approvalMismatch _
  | tool .callConsumed _ => true
  | _ => false

/-- `_failure_stage` -/
def failureStage (default : String) : ToolException → String
  | tool .policy _ | tool .denied _ | tool .approvalRequired _ | tool .approvalMismatch _ =>
      "policy"
  | tool .execution _ | tool .callConsumed _ => "execute"
  | _ => default

end ToolException

/-- What the session's calls raise. -/
inductive SessionError where
  | agent (kind : AgentErrorKind) (message : String)
  | tool (exception : ToolException)
deriving DecidableEq, Repr

inductive AgentSessionState where
  | ready
  | running
  | waitingApproval
  | completed
  | failed
deriving DecidableEq, Repr

def AgentSessionState.value : AgentSessionState → String
  | .ready => "ready"
  | .running => "running"
  | .waitingApproval => "waiting_approval"
  | .completed => "completed"
  | .failed => "failed"

inductive ModelStopReason where
  | completed
  | toolUse
  | length
  | refusal
  | error
  | other
deriving DecidableEq, Repr

def ModelStopReason.value : ModelStopReason → String
  | .completed => "completed"
  | .toolUse => "tool_use"
  | .length => "length"
  | .refusal => "refusal"
  | .error => "error"
  | .other => "other"

structure ModelTurn where
  text : String
  toolCalls : List ModelToolCall
  stopReason : ModelStopReason
  usage : ModelUsage

structure ModelToolResult where
  callId : String
  content : String
  isError : Bool
  metadata : PyValue

inductive ModelInputItem where
  | userInput (text : String)
  | toolResultInput (result : ModelToolResult)

structure AgentLimits where
  maxModelTurns : ℕ := 20
  maxToolCalls : ℕ := 50
  maxConsecutiveToolErrors : ℕ := 5

/-- What the session uses of a `PreparedToolCall`. -/
structure PreparedCall where
  callId : String
  toolName : String
  approvalFingerprint : String
  permissionRequests : List PermissionRequest
  effect : PermissionEffect

structure Observation where
  content : String
  metadata : PyValue

structure ApprovalPause where
  callId : String
  toolName : String
  approvalFingerprint : String
  permissionRequests : List PermissionRequest
  sessionId : String

structure ApprovalDecision where
  callId : String
  fingerprint : String
  approved : Bool
  sessionId : String

structure AgentOutcome where
  finalText : String
  modelTurns : ℕ
  toolCalls : ℕ
  toolErrors : ℕ
  inputTokens : ℤ
  outputTokens : ℤ
  costUsd : Option PyFloat

structure PendingApproval where
  prepared : Option PreparedCall
  modelCall : ModelToolCall
  toolCalls : List ModelToolCall
  nextIndex : ℕ
  results : List ModelToolResult

/-- What `open_session` does. -/
inductive Opened where
  | session
  | invalid
  | raises (className message : String)
  | recordingError (message : String)

/-- What `respond` does. -/
inductive ModelReply where
  | turn (turn : ModelTurn)
  | notATurn
  | raises (className message : String)
  | recordingError (message : String)

/-- Where a call goes on: a call in tail position, or what it returns. A call is guarded
once it is inside a turn whose handler records the failures that reach it. -/
inductive Next where
  | respond (guarded : Bool) (inputs : List ModelInputItem)
  | batch (guarded : Bool) (pending : PendingApproval)
  | outcome (outcome : AgentOutcome)
  | pause (pause : ApprovalPause)

/-- A session. `control` is the call in progress; `sink` says which of the events of the
step in progress the event sink takes. The events it has taken, what the model has been
asked after which turn, and what the dispatcher has been asked to prepare are kept. -/
structure AgentSession where
  limits : AgentLimits
  executionId : String
  sessionId : String
  state : AgentSessionState
  control : Option Next
  pending : Option PendingApproval
  lastTurn : Option ModelTurn
  modelTurns : ℕ
  toolCalls : ℕ
  toolErrors : ℕ
  consecutiveToolErrors : ℕ
  inputTokens : ℤ
  outputTokens : ℤ
  costUsd : Option PyFloat
  costComplete : Bool
  currentTurnId : Option String
  currentModelItemId : Option String
  toolItemIds : List (String × String)
  failureRecorded : Bool
  sink : List Bool
  events : List AgentEvent
  asked : List (Option ModelTurn × List ModelInputItem)
  dispatched : List ModelToolCall

def AgentSession.new (limits : AgentLimits) (executionId sessionId : String) : AgentSession where
  limits := limits
  executionId := executionId
  sessionId := sessionId
  state := .ready
  control := none
  pending := none
  lastTurn := none
  modelTurns := 0
  toolCalls := 0
  toolErrors := 0
  consecutiveToolErrors := 0
  inputTokens := 0
  outputTokens := 0
  costUsd := none
  costComplete := true
  currentTurnId := none
  currentModelItemId := none
  toolItemIds := []
  failureRecorded := false
  sink := []
  events := []
  asked := []
  dispatched := []

abbrev SessionM := EStateM SessionError AgentSession

namespace AgentSession

/-- `_emit`: what the sink does not take is a recording failure. -/
def emit (event : AgentEventKind) : SessionM Unit := do
  let session ← get
  if session.sink.head? = some false then
    modify fun session => { session with sink := session.sink.tail, state := .failed }
    throw (.agent .recording "Agent lifecycle event kaydedilemedi")
  else
    modify fun session => { session with
      sink := session.sink.tail
      events := session.events ++ [⟨session.executionId, event⟩] }

/-- `text.replace("\x00", "")[:2000]` -/
def clip (text : String) : String :=
  String.ofList ((text.toList.filter fun c => c ≠ Char.ofNat 0).take 2000)

def setState (state : AgentSessionState) : SessionM Unit :=
  modify fun session => { session with state := state }

def recordExecutionFailure (errorType message : String) : SessionM Unit := do
  let session ← get
  if session.failureRecorded then pure ()
  else do
    modify fun session => { session with failureRecorded := true }
    emit (.executionFailed errorType (clip message))

/-- The common end of the `_fail` methods. -/
def failWith {α : Type} (kind : AgentErrorKind) (message : String) : SessionM α := do
  setState .failed
  recordExecutionFailure kind.className message
  throw (.agent kind message)

def failProtocol {α : Type} (message : String) : SessionM α := failWith .protocol message

def failInternalTool {α : Type} (exc : ToolException) : SessionM α :=
  failWith .toolRuntime s!"Tool runtime invariant failed: {exc.message}"

def failLimit {α : Type} (name : String) : SessionM α :=
  failWith .limit s!"Agent limit exceeded: {name}"

def checkCancel (cancelled : Bool) : SessionM Unit :=
  if cancelled then failWith .cancelled "Agent session cancelled before it could continue."
  else pure ()

/-- `setdefault` of a call's item id. -/
def toolItemId (callId fresh : String) : SessionM String := do
  let session ← get
  match session.toolItemIds.lookup callId with
  | some itemId => return itemId
  | none => do
      modify fun session => { session with
        toolItemIds := session.toolItemIds ++ [(callId, fresh)] }
      return fresh

/-- The turn's index and id, and the call's item id. -/
def toolEventContext (call : ModelToolCall) (fresh : String) :
    SessionM (ℤ × String × String) := do
  let session ← get
  match session.currentTurnId with
  | none => throw (.agent .toolRuntime "Tool event için aktif turn yok.")
  | some turnId => do
      let itemId ← toolItemId call.callId fresh
      return (session.modelTurns, turnId, itemId)

def emitToolFailed (call : ModelToolCall) (fresh stage : String) (recoverable : Bool)
    (errorType message : String) : SessionM Unit := do
  let (turnIndex, turnId, itemId) ← toolEventContext call fresh
  emit (.toolFailed turnIndex turnId itemId call.callId call.name stage recoverable errorType
    message)

def emitNonrecoverableToolFailure (call : ModelToolCall) (fresh stage : String)
    (exc : ToolException) : SessionM Unit :=
  emitToolFailed call fresh stage false exc.typeName (clip exc.message)

def recordToolError : SessionM Unit := do
  modify fun session => { session with
    toolErrors := session.toolErrors + 1
    consecutiveToolErrors := session.consecutiveToolErrors + 1 }
  let session ← get
  if session.limits.maxConsecutiveToolErrors < session.consecutiveToolErrors then
    failLimit "max_consecutive_tool_errors"
  else pure ()

def recoverableResult (call : ModelToolCall) (fresh stage : String) (exc : ToolException) :
    SessionM ModelToolResult := do
  emitToolFailed call fresh stage true exc.typeName (clip exc.message)
  recordToolError
  return ⟨call.callId, s!"Tool error: {clip exc.message}", true, .dict []⟩

def accountUsage (usage : ModelUsage) : SessionM Unit :=
  modify fun session =>
    let counted := { session with
      inputTokens := session.inputTokens + usage.inputTokens
      outputTokens := session.outputTokens + usage.outputTokens }
    match usage.costUsd with
    | none => { counted with costComplete := false, costUsd := none }
    | some cost =>
        if counted.costComplete then
          { counted with costUsd := some ((counted.costUsd.getD (.finite 0)).add cost) }
        else counted

def approvalPause (prepared : PreparedCall) (session : AgentSession) : ApprovalPause :=
  ⟨prepared.callId, prepared.toolName, prepared.approvalFingerprint,
    prepared.permissionRequests, session.sessionId⟩

def emitTurnCompleted : SessionM Unit := do
  let session ← get
  match session.currentTurnId with
  | none => pure ()
  | some turnId => emit (.turnCompleted session.modelTurns turnId)

def complete (finalText : String) : SessionM Next := do
  emitTurnCompleted
  let session ← get
  let outcome : AgentOutcome := ⟨finalText, session.modelTurns, session.toolCalls,
    session.toolErrors, session.inputTokens, session.outputTokens, session.costUsd⟩
  emit (.executionCompleted outcome.finalText outcome.modelTurns outcome.toolCalls
    outcome.toolErrors outcome.inputTokens outcome.outputTokens outcome.costUsd)
  setState .completed
  return .outcome outcome

/-- The start of an execution, announced where nothing holds it back. -/
def announceStart (call : ModelToolCall) (prepared : PreparedCall) (grant : Bool)
    (fresh : String) : SessionM Unit := do
  if grant ∨ prepared.effect = .allow then
    let (turnIndex, turnId, itemId) ← toolEventContext call fresh
    emit (.toolStarted turnIndex turnId itemId call.callId call.name call.arguments)
  else pure ()

/-- What the dispatcher's `execute` comes to. -/
def closeCall (call : ModelToolCall) (fresh : String) :
    Except ToolException Observation → SessionM ModelToolResult
  | .error exc => throw (.tool exc)
  | .ok observation => do
      let (turnIndex, turnId, itemId) ← toolEventContext call fresh
      emit (.toolCompleted turnIndex turnId itemId call.callId call.name observation.content
        observation.metadata)
      modify fun session => { session with consecutiveToolErrors := 0 }
      return ⟨call.callId, observation.content, false, observation.metadata⟩

/-- `_execute_prepared`, for what the dispatcher's `execute` comes to. -/
def executePrepared (call : ModelToolCall) (prepared : PreparedCall) (grant : Bool)
    (fresh : String) (executed : Except ToolException Observation) :
    SessionM ModelToolResult := do
  announceStart call prepared grant fresh
  closeCall call fresh executed

def advance (pending : PendingApproval) (result : ModelToolResult) : PendingApproval :=
  { pending with
    prepared := none
    nextIndex := pending.nextIndex + 1
    results := pending.results ++ [result] }

/-- The pause for an approval. -/
def requestApproval (pending : PendingApproval) (call : ModelToolCall) (prepared : PreparedCall)
    (fresh : String) : SessionM Next := do
  let (turnIndex, turnId, itemId) ← toolEventContext call fresh
  emit (.approvalRequested turnIndex turnId itemId call.callId call.name
    prepared.approvalFingerprint prepared.permissionRequests)
  modify fun session => { session with
    pending := some { pending with prepared := some prepared, modelCall := call }
    state := .waitingApproval }
  return .pause (approvalPause prepared (← get))

/-- The second half of a round: the execution of a prepared call. -/
def executeCall (guarded : Bool) (pending : PendingApproval) (call : ModelToolCall)
    (prepared : PreparedCall) (fresh : String) (executed : Except ToolException Observation) :
    SessionM Next := do
  match ← caught (executePrepared call prepared false fresh executed) with
  | .ok result => return .batch guarded (advance pending result)
  | .error (.tool exc) =>
      match exc with
      | .tool .approvalRequired _ => requestApproval pending call prepared fresh
      | _ =>
          if exc.isInternal then
            emitNonrecoverableToolFailure call fresh "execute" exc
            failInternalTool exc
          else if exc.isRecoverable then
            let result ← recoverableResult call fresh (exc.failureStage "execute") exc
            return .batch guarded (advance pending result)
          else throw (.tool exc)
  | .error error => throw error

/-- The first half of a round, up to what the dispatcher's `prepare` comes to. -/
def prepareCall (guarded : Bool) (pending : PendingApproval) (call : ModelToolCall)
    (fresh : String) (prepared : Except ToolException PreparedCall)
    (executed : Except ToolException Observation) : SessionM Next := do
  let session ← get
  if session.limits.maxToolCalls ≤ session.toolCalls then failLimit "max_tool_calls"
  else do
    modify fun session => { session with
      toolCalls := session.toolCalls + 1
      dispatched := session.dispatched ++ [call] }
    match prepared with
    | .ok prepared => executeCall guarded pending call prepared fresh executed
    | .error exc =>
        if exc.isInternal then
          emitNonrecoverableToolFailure call fresh "prepare" exc
          failInternalTool exc
        else if exc.isRecoverable then
          let result ← recoverableResult call fresh (exc.failureStage "prepare") exc
          return .batch guarded (advance pending result)
        else
          emitNonrecoverableToolFailure call fresh "prepare" exc
          failInternalTool exc

/-- One round of `_continue_tool_batch`. -/
def continueToolBatch (guarded : Bool) (pending : PendingApproval) (cancelled : Bool)
    (fresh : String) (prepared : Except ToolException PreparedCall)
    (executed : Except ToolException Observation) : SessionM Next :=
  match pending.toolCalls[pending.nextIndex]? with
  | none => do
      emitTurnCompleted
      return .respond guarded (pending.results.map .toolResultInput)
  | some call => do
      checkCancel cancelled
      let (turnIndex, turnId, itemId) ← toolEventContext call fresh
      match pending.prepared with
      | some prepared =>
          executeCall guarded { pending with prepared := none } call prepared fresh executed
      | none => do
          emit (.toolRequested turnIndex turnId itemId call.callId call.name call.arguments)
          prepareCall guarded pending call fresh prepared executed

def processToolBatch (calls : List ModelToolCall) (first : ModelToolCall) : SessionM Next :=
  return .batch true ⟨none, first, calls, 0, []⟩

def processTurn (turn : ModelTurn) : SessionM Next :=
  match turn.toolCalls with
  | first :: _ =>
      if turn.stopReason ≠ .toolUse then
        failProtocol "Tool çağrılı turn stop_reason=TOOL_USE olmalı."
      else processToolBatch turn.toolCalls first
  | [] =>
      match turn.stopReason with
      | .completed =>
          if blankText turn.text then failProtocol "Boş COMPLETED model turn kabul edilmiyor."
          else complete turn.text
      | .toolUse => failProtocol "TOOL_USE turn en az bir tool call içermeli."
      | .length => do
          setState .failed
          throw (.agent .incomplete "Model output length sınırına ulaştı.")
      | .refusal => do
          setState .failed
          throw (.agent .refusal "Model görevi reddetti.")
      | reason => failProtocol s!"Devam edilemeyen model stop reason: {reason.value}"

/-- The handler around the work on a turn: it records the session's own failures. -/
def recordingFailures {α : Type} (body : SessionM α) : SessionM α := do
  match ← caught body with
  | .ok a => return a
  | .error (.agent .recording message) => throw (.agent .recording message)
  | .error (.agent kind message) => do
      recordExecutionFailure kind.className message
      throw (.agent kind message)
  | .error error => throw error

/-- The handlers of the turns that a call in tail position is still inside. -/
def handled {α : Type} (guarded : Bool) (body : SessionM α) : SessionM α :=
  if guarded then recordingFailures body else body

/-- What a session makes of the model's reply. -/
def receive (turnIndex : ℤ) (turnId itemId : String) : ModelReply → SessionM Next
  | .recordingError message => throw (.agent .recording message)
  | .raises className message => do
      setState .failed
      emit (.modelFailed turnIndex turnId itemId className (clip message))
      recordExecutionFailure className message
      throw (.agent .backend s!"Model response başarısız: {message}")
  | .notATurn => do
      let message := "ModelSession.respond ModelTurn döndürmeli."
      emit (.modelFailed turnIndex turnId itemId AgentErrorKind.protocol.className message)
      failProtocol message
  | .turn turn => do
      accountUsage turn.usage
      modify fun session => { session with lastTurn := some turn }
      emit (.modelCompleted turnIndex turnId itemId turn.text turn.toolCalls
        turn.stopReason.value turn.usage)
      recordingFailures (processTurn turn)

def respond (inputs : List ModelInputItem) (cancelled : Bool) (reply : ModelReply)
    (turnId itemId : String) : SessionM Next := do
  checkCancel cancelled
  let session ← get
  if session.limits.maxModelTurns ≤ session.modelTurns then failLimit "max_model_turns"
  else do
    modify fun session => { session with
      modelTurns := session.modelTurns + 1
      currentTurnId := some turnId
      currentModelItemId := some itemId }
    let turnIndex : ℤ := session.modelTurns + 1
    emit (.turnStarted turnIndex turnId)
    emit (.modelStarted turnIndex turnId itemId)
    modify fun session => { session with
      asked := session.asked ++ [(session.lastTurn, inputs)] }
    receive turnIndex turnId itemId reply

def start (task : String) (opened : Opened) : SessionM Next := do
  let session ← get
  if session.state ≠ .ready then
    throw (.agent .lifecycle s!"Session başlatılamaz; durum: {session.state.value}")
  else if blankText task then
    throw (.agent .input "Agent task boş olmayan bir string olmalı.")
  else do
    emit (.executionStarted task)
    match opened with
    | .recordingError message => throw (.agent .recording message)
    | .raises className message => do
        setState .failed
        recordExecutionFailure className message
        throw (.agent .backend s!"Model session açılamadı: {message}")
    | .invalid =>
        failProtocol "ModelBackend.open_session respond() sağlayan bir session döndürmeli."
    | .session => do
        setState .running
        return .respond false [.userInput task]

/-- What an approved call comes to when it is executed. -/
def executeApproved (pending : PendingApproval) (prepared : PreparedCall) (fresh : String)
    (executed : Except ToolException Observation) : SessionM ModelToolResult := do
  match ← caught (executePrepared pending.modelCall prepared true fresh executed) with
  | .ok result => return result
  | .error (.tool exc) =>
      match exc with
      | .tool .approvalRequired _ => do
          emitNonrecoverableToolFailure pending.modelCall fresh "approval" exc
          failInternalTool exc
      | _ =>
          if exc.isInternal then
            emitNonrecoverableToolFailure pending.modelCall fresh "execute" exc
            failInternalTool exc
          else if exc.isRecoverable then
            recoverableResult pending.modelCall fresh "execute" exc
          else throw (.tool exc)
  | .error error => throw error

def denyApproved (pending : PendingApproval) (fresh : String) : SessionM ModelToolResult := do
  emitToolFailed pending.modelCall fresh "approval" true "ApprovalDenied"
    "Tool execution was denied by the user."
  recordToolError
  return ⟨pending.modelCall.callId, "Tool execution was denied by the user.", true, .dict []⟩

def resume (decision : ApprovalDecision) (cancelled : Bool) (fresh : String)
    (executed : Except ToolException Observation) : SessionM Next := do
  let session ← get
  match session.state, session.pending with
  | .waitingApproval, some pending => do
      checkCancel cancelled
      match pending.prepared with
      | none => do
          setState .failed
          throw (.agent .toolRuntime "Approval pending çağrısında PreparedToolCall bulunamadı.")
      | some prepared => do
          let pause := approvalPause prepared session
          if decision.callId ≠ pause.callId ∨ decision.fingerprint ≠ pause.approvalFingerprint ∨
              decision.sessionId ≠ pause.sessionId then
            throw (.agent .approval "ApprovalDecision bekleyen tool çağrısıyla eşleşmiyor.")
          else do
            modify fun session => { session with pending := none, state := .running }
            let (turnIndex, turnId, itemId) ← toolEventContext pending.modelCall fresh
            emit (.approvalResolved turnIndex turnId itemId pending.modelCall.callId
              pending.modelCall.name prepared.approvalFingerprint decision.approved)
            let result ← if decision.approved then executeApproved pending prepared fresh executed
              else denyApproved pending fresh
            return .batch false (advance pending result)
  | _, _ => throw (.agent .lifecycle "Session şu anda approval beklemiyor.")

end AgentSession

/-- What happens next: a call of the host, a model turn, or a round over the tool calls. -/
inductive SessionEvent where
  | start (sink : List Bool) (task : String) (opened : Opened)
  | resume (sink : List Bool) (decision : ApprovalDecision) (cancelled : Bool) (itemId : String)
      (executed : Except ToolException Observation)
  | turn (sink : List Bool) (cancelled : Bool) (reply : ModelReply) (turnId itemId : String)
  | round (sink : List Bool) (cancelled : Bool) (itemId : String)
      (prepared : Except ToolException PreparedCall) (executed : Except ToolException Observation)

namespace AgentSession

/-- A call that has gone on as far as its next call in tail position. -/
def settle (body : SessionM Next) (session : AgentSession) : AgentSession :=
  match body session with
  | .ok (.outcome _) next | .ok (.pause _) next => { next with control := none }
  | .ok control next => { next with control := some control }
  | .error _ next => { next with control := none }

def step (session : AgentSession) : SessionEvent → AgentSession
  | .start sink task opened =>
      match session.control with
      | none => settle (start task opened) { session with sink := sink }
      | some _ => session
  | .resume sink decision cancelled itemId executed =>
      match session.control with
      | none => settle (resume decision cancelled itemId executed) { session with sink := sink }
      | some _ => session
  | .turn sink cancelled reply turnId itemId =>
      match session.control with
      | some (.respond guarded inputs) =>
          settle (handled guarded (respond inputs cancelled reply turnId itemId))
            { session with sink := sink }
      | _ => session
  | .round sink cancelled itemId prepared executed =>
      match session.control with
      | some (.batch guarded pending) =>
          settle (handled guarded (continueToolBatch guarded pending cancelled itemId prepared
            executed)) { session with sink := sink }
      | _ => session

end AgentSession

end Imece.AgentRuntime
