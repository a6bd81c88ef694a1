import Imece.AcpRuntime.Client
import Mathlib.Data.Int.Notation

/-!
# One run of the ACP client

`AcpClientRuntime.run` as a machine: a stage for every await, and between two stages the
agent's callbacks, the ends of the run's tasks, the cancel token and the caller's own
cancellation in any order. A timeout is a wait that ends before its tasks do.
-/
namespace Imece.AcpRuntime

open Lib

/-- The tasks a run owns. -/
inductive RunTask where
  | prompt
  | fatal
  | watchCancel
  | sendCancel
  | closeSession
  | closeConnection
deriving DecidableEq

/-- How a task, or an awaited call of the agent, ended. -/
inductive TaskEnd (α : Type) where
  | result (value : α)
  | requestError (code : ℤ) (text : String)
  | failed (text : String)
  | cancelled

def authRequiredCode : ℤ := -32000

/-- `_map_request_error` -/
def mapRequestError (code : ℤ) (text : String) : AcpRuntimeError :=
  if code = authRequiredCode then .authenticationRequired text else .protocol text

/-- How connecting to an agent process fails: before the process exists, or after, with an
error the connection's own rollback has typed. -/
inductive ConnectFailure where
  | osError (text : String)
  | typed (error : AcpRuntimeError)

def ConnectFailure.error : ConnectFailure → AcpRuntimeError
  | osError text => .spawn ("Could not spawn ACP agent process: " ++ text)
  | typed error => error

structure SessionCapabilities where
  close : Bool

structure AgentCapabilities where
  sessionCapabilities : Option SessionCapabilities

/-- The agent may leave its capabilities out. -/
structure InitializeResponse where
  agentCapabilities : Option AgentCapabilities

structure AcpRunResult where
  sessionId : String
  stopReason : String
  updateCount : ℕ
  updateChars : ℕ
  permissionRequestCount : ℕ
  sessionCloseSupported : Bool
  sessionCloseSucceeded : Option Bool

/-- How the body of the run ended: with a result, with its primary error, with the caller's
cancellation, or with an exception of another class. -/
inductive Body where
  | result (result : AcpRunResult)
  | failed (error : AcpRuntimeError)
  | cancelled
  | escaped (className : String)

/-- The result's note of how the session's close went. -/
def Body.closed (body : Body) (succeeded : Option Bool) : Body :=
  match body with
  | .result found => .result { found with sessionCloseSucceeded := succeeded }
  | other => other

/-- A connection that does not close is the primary error where there is no other. -/
def Body.disconnected (body : Body) (failure : Option String) : Body :=
  match failure, body with
  | some text, .result _ => .failed (.protocol ("ACP connection close failed: " ++ text))
  | _, body => body

/-- How the run ended. -/
inductive Outcome where
  | returned (result : AcpRunResult)
  | raised (error : AcpRuntimeError)
  | cancelled
  | escaped (className : String)

/-- What the checks after the prompt's wait decided on. -/
inductive Verdict where
  | fatal
  | cancelled
  | timedOut

/-- The await a run is at. -/
inductive Stage where
  | connecting
  | initializing
  | openingSession
  | waiting
  | sendingCancel (verdict : Verdict)
  | settlingPrompt (verdict : Verdict)
  | retiringFatal
  | retiringWatch
  | closingSession (body : Body)
  | closingConnection (body : Body)
  | terminating (body : Body)
  | draining (body : Body) (pending : List RunTask)
  | cleaned (error : Option String) (body : Body)
  | finished (outcome : Outcome)

/-- The stages of teardown that act on something outside of the run. -/
inductive Teardown where
  | closeSession
  | closeConnection
  | terminateTree
  | drain
deriving DecidableEq

/-- What a run is given: its client's limits and surroundings, whether there is a cancel
token, and what the process tree answers at teardown. -/
structure RunSetting (ω ρ : Type) where
  limits : AcpClientLimits
  env : Surroundings ω ρ
  hasCancelToken : Bool
  capture : Except String Unit
  terminate : Except String Unit

/-- A run. `checked` is what the check after the prompt's wait saw of the fatal signal, and
`bare` whether the agent answered without capabilities. -/
structure Run (ω ρ : Type) where
  client : Client ω ρ
  stage : Stage := .connecting
  owned : List RunTask := []
  ends : RunTask → Option (TaskEnd String) := fun _ => none
  tokenCancelled : Bool := false
  sessionId : Option String := none
  sessionCloseSupported : Bool := false
  cleanupError : Option String := none
  cleanupCancelled : Bool := false
  connected : Bool := false
  checked : Option (Option AcpRuntimeError) := none
  callerCancelled : Bool := false
  bare : Bool := false
  teardown : List Teardown := []

/-- What happens around a run, and what its awaits come back with. -/
inductive RunEvent (ρ : Type) where
  | sessionUpdate (sessionId : String) (update : SessionUpdate ρ)
  | requestPermission (sessionId : String) (toolCall : ToolCall ρ)
      (options : List PermissionOption)
  | settles (task : RunTask) (taskEnd : TaskEnd String)
  | cancelToken
  | callerCancels
  | connected (outcome : Except ConnectFailure Unit)
  | initialized (reply : TaskEnd InitializeResponse)
  | sessionOpened (reply : TaskEnd (Option String))
  | wake

namespace Run

variable {ω ρ : Type} (setting : RunSetting ω ρ)

/-- A new task of the run. -/
def own (run : Run ω ρ) (task : RunTask) : Run ω ρ :=
  { run with
    owned := if task ∈ run.owned then run.owned else run.owned ++ [task]
    ends := Function.update run.ends task none }

def discard (run : Run ω ρ) (task : RunTask) : Run ω ρ :=
  { run with owned := run.owned.filter (· ≠ task) }

/-- `_retire_if_done` -/
def retireIfDone (run : Run ω ρ) (task : RunTask) : Run ω ρ :=
  if (run.ends task).isSome then run.discard task else run

/-- The last stage of the run, after the cleanup task: an error of the cleanup comes
first, then what the body let through, then a cancellation during the cleanup. -/
def finish (run : Run ω ρ) (error : Option String) (body : Body) : Run ω ρ :=
  let outcome : Outcome :=
    match error, body with
    | some text, _ => .raised (.cleanup text)
    | none, .cancelled => .cancelled
    | none, .escaped className => .escaped className
    | none, .failed error => if run.cleanupCancelled then .cancelled else .raised error
    | none, .result result => if run.cleanupCancelled then .cancelled else .returned result
  { run with stage := .finished outcome }

def survived : String :=
  "A runtime-owned task survived teardown after connection close and process cleanup."

/-- The end of `_drain_owned_tasks`, and of `_cleanup`. -/
def drained (run : Run ω ρ) (body : Body) (pending : List RunTask) : Run ω ρ :=
  let survivors := pending.filter fun task => (run.ends task).isNone
  let run := { run with
    owned := run.owned.filter fun task => (run.ends task).isNone || task ∈ survivors }
  let run := { run with
    cleanupError :=
      if survivors.isEmpty && run.owned.isEmpty then run.cleanupError
      else run.cleanupError.or (some survived) }
  { run with stage := .cleaned run.cleanupError body }

/-- `_drain_owned_tasks`: it waits only where a task is still to end. -/
def drain (run : Run ω ρ) (body : Body) : Run ω ρ :=
  let pending := run.owned.filter fun task => (run.ends task).isNone
  let run := { run with teardown := run.teardown ++ [Teardown.drain] }
  if pending.isEmpty then run.drained body pending
  else { run with stage := .draining body pending }

def terminated (run : Run ω ρ) (body : Body) : Run ω ρ :=
  let run := match setting.terminate with
    | .ok () => run
    | .error text => { run with cleanupError := run.cleanupError.or (some text) }
  run.drain body

/-- `close_acp_agent_connection`, as a bounded stage. -/
def closeConnection (run : Run ω ρ) (body : Body) : Run ω ρ :=
  { run.own .closeConnection with
    stage := .closingConnection body
    teardown := run.teardown ++ [.closeConnection] }

/-- What a bounded stage failed with; a stage past its deadline raises without a text. -/
def boundedFailure (run : Run ω ρ) (task : RunTask) : Option String :=
  match run.ends task with
  | none => some ""
  | some .cancelled => some "ACP teardown stage was cancelled internally."
  | some (.failed text) => some text
  | some (.requestError _ text) => some text
  | some (.result _) => none

/-- `_await_bounded`: a task past its deadline stays owned. -/
def awaitBounded (run : Run ω ρ) (task : RunTask) : Run ω ρ :=
  if (run.ends task).isSome then run.discard task else run

def connectionClosed (run : Run ω ρ) (body : Body) : Run ω ρ :=
  { run.awaitBounded .closeConnection with
    stage := .terminating (body.disconnected (run.boundedFailure .closeConnection))
    teardown := run.teardown ++ [.terminateTree] }

def sessionClosed (run : Run ω ρ) (body : Body) : Run ω ρ :=
  let succeeded := (run.boundedFailure .closeSession).isNone
  (run.awaitBounded .closeSession).closeConnection (body.closed (some succeeded))

def hasSessionClose (run : Run ω ρ) : Bool :=
  run.sessionId.isSome && run.sessionCloseSupported

/-- The first stage of teardown: a session is closed where the agent can close it. -/
def closeSession (run : Run ω ρ) (body : Body) : Run ω ρ :=
  if run.hasSessionClose then
    { run.own .closeSession with
      stage := .closingSession body
      teardown := run.teardown ++ [.closeSession] }
  else run.closeConnection (body.closed none)

/-- `_cleanup`, up to its first await: the tree is captured before anything closes. -/
def cleanup (run : Run ω ρ) (body : Body) : Run ω ρ :=
  match setting.capture with
  | .ok () => run.closeSession body
  | .error text => { run with cleanupError := some text }.closeSession body

/-- The failure of an awaited call, as `_call_agent` passes it on. -/
def callFailed (what : String) {α : Type} : TaskEnd α → Body
  | .requestError code text => .failed (mapRequestError code text)
  | .failed text => .failed (.protocol ("ACP " ++ what ++ " failed: " ++ text))
  | _ => .cancelled

/-- The tasks of `_run_prompt`. -/
def runPrompt (run : Run ω ρ) : Run ω ρ :=
  let run := (run.own .prompt).own .fatal
  let run := if setting.hasCancelToken then run.own .watchCancel else run
  { run with stage := .waiting }

def initialized (run : Run ω ρ) : TaskEnd InitializeResponse → Run ω ρ
  | .result response =>
      match response.agentCapabilities with
      | none => cleanup setting { run with bare := true } (.escaped "AttributeError")
      | some capabilities =>
          { run with
            sessionCloseSupported := capabilities.sessionCapabilities.any (·.close)
            stage := .openingSession }
  | reply => cleanup setting run (callFailed "initialize" reply)

def emptySession : AcpRuntimeError :=
  .protocol "Agent returned an empty session_id from new_session."

def sessionOpened (run : Run ω ρ) : TaskEnd (Option String) → Run ω ρ
  | .result sessionId =>
      let run := { run with sessionId }
      match sessionId with
      | none => cleanup setting run (.failed emptySession)
      | some sessionId =>
          if sessionId = "" then cleanup setting run (.failed emptySession)
          else
            runPrompt setting { run with
              client := { run.client with sessionId := some sessionId } }
  | reply => cleanup setting run (callFailed "new_session" reply)

/-- The first wait of `_cancel_and_settle`. -/
def cancelAndSettle (run : Run ω ρ) (verdict : Verdict) : Run ω ρ :=
  { run.own .sendCancel with stage := .sendingCancel verdict }

/-- What is raised once the prompt was settled. -/
def conclude (run : Run ω ρ) (verdict : Verdict) : Run ω ρ :=
  let run := (run.retireIfDone .fatal).retireIfDone .watchCancel
  cleanup setting run <|
    match verdict with
    | .fatal =>
        match run.client.fatal.error with
        | some error => .failed error
        | none => .escaped "TypeError"
    | .cancelled => .failed (.cancelled "ACP prompt was cancelled.")
    | .timedOut => .failed (.timeout
        s!"ACP prompt did not complete within {setting.limits.promptTimeoutMs}ms.")

def cancelSent (run : Run ω ρ) (verdict : Verdict) : Run ω ρ :=
  let run := run.retireIfDone .sendCancel
  if (run.ends .prompt).isNone then { run with stage := .settlingPrompt verdict }
  else conclude setting run verdict

/-- The result of a prompt that ended within its bound. -/
def promptEnded (run : Run ω ρ) : Run ω ρ :=
  let run := run.discard .watchCancel
  cleanup setting run <|
    match run.ends .prompt with
    | some (.result stopReason) => .result {
        sessionId := run.sessionId.getD ""
        stopReason
        updateCount := run.client.updateCount
        updateChars := run.client.updateChars
        permissionRequestCount := run.client.permissionRequestCount
        sessionCloseSupported := run.sessionCloseSupported
        sessionCloseSucceeded := none }
    | some (.requestError code text) => .failed (mapRequestError code text)
    | some (.failed text) => .failed (.protocol ("ACP prompt failed: " ++ text))
    | _ => .cancelled

def retireWatch (run : Run ω ρ) : Run ω ρ :=
  let run := (run.discard .fatal).discard .prompt
  if setting.hasCancelToken && (run.ends .watchCancel).isNone then
    { run with stage := .retiringWatch }
  else promptEnded setting run

/-- The checks after the prompt's wait: the fatal signal first, then the cancel token, then
whether the prompt has ended. -/
def promptWaited (run : Run ω ρ) : Run ω ρ :=
  let run := { run with checked := some run.client.fatal.error }
  if run.client.fatal.error.isSome then run.cancelAndSettle .fatal
  else if setting.hasCancelToken && run.tokenCancelled then run.cancelAndSettle .cancelled
  else if (run.ends .prompt).isNone then run.cancelAndSettle .timedOut
  else if (run.ends .fatal).isNone then { run with stage := .retiringFatal }
  else retireWatch setting run

/-- An await comes back. -/
def wake (run : Run ω ρ) : Run ω ρ :=
  match run.stage with
  | .waiting => promptWaited setting run
  | .sendingCancel verdict => cancelSent setting run verdict
  | .settlingPrompt verdict => conclude setting run verdict
  | .retiringFatal => retireWatch setting run
  | .retiringWatch => promptEnded setting run
  | .closingSession body => run.sessionClosed body
  | .closingConnection body => run.connectionClosed body
  | .terminating body => terminated setting run body
  | .draining body pending => run.drained body pending
  | .cleaned error body => run.finish error body
  | _ => run

/-- The caller cancels the run. The awaits of tasks that are being retired swallow it, and
no stage of teardown is left for it. -/
def callerCancels (run : Run ω ρ) : Run ω ρ :=
  let run := { run with callerCancelled := true }
  match run.stage with
  | .connecting => { run with stage := .finished .cancelled }
  | .initializing | .openingSession | .waiting | .sendingCancel _ | .settlingPrompt _ =>
      cleanup setting run .cancelled
  | .retiringFatal | .retiringWatch => wake setting run
  | .closingSession _ | .closingConnection _ | .terminating _ | .draining _ _ =>
      { run with cleanupCancelled := true }
  | .cleaned error body => { run with cleanupCancelled := true }.finish error body
  | .finished _ => run

/-- One event of a run that has not finished. -/
def stepLive (run : Run ω ρ) : RunEvent ρ → Run ω ρ
  | .sessionUpdate sessionId update =>
      { run with client := run.client.sessionUpdate setting.limits setting.env sessionId update }
  | .requestPermission sessionId toolCall options =>
      { run with
        client := run.client.requestPermission setting.env sessionId toolCall options }
  | .settles task taskEnd =>
      { run with ends := Function.update run.ends task ((run.ends task).or (some taskEnd)) }
  | .cancelToken => { run with tokenCancelled := true }
  | .callerCancels => callerCancels setting run
  | .connected outcome =>
      match run.stage, outcome with
      | .connecting, .ok () => { run with connected := true, stage := .initializing }
      | .connecting, .error failure => { run with stage := .finished (.raised failure.error) }
      | _, _ => run
  | .initialized reply =>
      match run.stage with
      | .initializing => initialized setting run reply
      | _ => run
  | .sessionOpened reply =>
      match run.stage with
      | .openingSession => sessionOpened setting run reply
      | _ => run
  | .wake => wake setting run

def step (run : Run ω ρ) (event : RunEvent ρ) : Run ω ρ :=
  match run.stage with
  | .finished _ => run
  | _ => stepLive setting run event

def promptTooLong (promptChars maxPromptChars : ℕ) : AcpRuntimeError :=
  .input (s!"AcpPromptRequest.prompt exceeds max_prompt_chars " ++
    s!"({promptChars} > {maxPromptChars}).")

/-- The checks of the arguments, before the first await. -/
def start (world : ω) (promptChars : ℕ) (cwd : String) (cwdIsDir : Bool) : Run ω ρ :=
  let run : Run ω ρ := { client := { world } }
  if setting.limits.maxPromptChars < promptChars then
    { run with
      stage := .finished (.raised (promptTooLong promptChars setting.limits.maxPromptChars)) }
  else if !cwdIsDir then
    { run with
      stage := .finished (.raised (.input
        ("AcpPromptRequest.cwd does not exist or is not a directory: " ++ cwd))) }
  else run

end Run

end Imece.AcpRuntime
