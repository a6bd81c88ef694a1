import Imece.Lib.Machine
import Imece.Lib.Text

/-!
# The ACP client's callbacks

What `_ImeceAcpClient` does with one session update or one permission request. Both
callbacks run without an await, so a run of them is a run of a machine. The caller's
event sink and permission policy may keep any state and may fail at each of their calls.
-/
namespace Imece.AcpRuntime

open Lib

/-- The subclasses of `AcpRuntimeError`, with the text of the error. -/
inductive AcpRuntimeError where
  | input (text : String)
  | spawn (text : String)
  | protocol (text : String)
  | authenticationRequired (text : String)
  | limit (text : String)
  | timeout (text : String)
  | eventSink (text : String)
  | cleanup (text : String)
  | cancelled (text : String)
deriving DecidableEq

/-- A one-shot signal: the first error triggered is kept. -/
structure FatalSignal where
  event : Bool := false
  error : Option AcpRuntimeError := none

def FatalSignal.trigger (signal : FatalSignal) (error : AcpRuntimeError) : FatalSignal where
  event := true
  error := if signal.error.isNone then some error else signal.error

structure AcpClientLimits where
  maxPromptChars : ℕ := 128000
  maxUpdates : ℕ := 2000
  maxUpdateChars : ℕ := 65536
  maxTotalUpdateChars : ℕ := 1000000
  promptTimeoutMs : ℕ := 300000
  cancelGraceMs : ℕ := 2000
  sessionCloseTimeoutMs : ℕ := 2000
  positive : 0 < maxPromptChars ∧ 0 < maxUpdates ∧ 0 < maxUpdateChars ∧
    0 < maxTotalUpdateChars ∧ 0 < promptTimeoutMs ∧ 0 < cancelGraceMs ∧
    0 < sessionCloseTimeoutMs := by decide

/-- A `session/update`. `dump` is the outcome of `len(update.model_dump_json())`, a
location's path is `none` when it is not a string, and `ρ` holds raw inputs. -/
structure SessionUpdate (ρ : Type) where
  dump : Except String ℕ
  sessionUpdate : Option String := none
  toolCallId : Option String := none
  kind : Option String := none
  locations : Option (List (Option String)) := none
  rawInput : Option ρ := none

/-- The tool call of a permission request; an absent text field is empty. -/
structure ToolCall (ρ : Type) where
  toolCallId : String
  title : String := ""
  kind : Option String := none
  locations : Option (List (Option String)) := none
  rawInput : Option ρ := none

structure PermissionOption where
  optionId : String
  kind : Option String
deriving DecidableEq

/-- What a policy is asked. -/
structure PermissionRequest (ρ : Type) where
  toolCallId : String
  title : String
  kind : Option String
  locations : List String
  rawInput : Option ρ
  options : List PermissionOption

/-- What to do about one `session/request_permission`, with the reason recorded for it. -/
inductive AcpPermissionDecision where
  | selected (optionId : String) (named : optionId ≠ "") (reason : String)
      (reasoned : blankText reason = false)
  | cancelled (reason : String) (reasoned : blankText reason = false)

def AcpPermissionDecision.reason : AcpPermissionDecision → String
  | .selected _ _ reason _ => reason
  | .cancelled reason _ => reason

inductive AcpRuntimeEvent (ρ : Type) where
  | sessionUpdateObserved (sessionId : String) (update : SessionUpdate ρ) (serializedChars : ℕ)
  | permissionRequested (sessionId toolCallId title : String) (optionIds : List String)
  | permissionResolved (sessionId toolCallId outcome reason : String)

inductive RequestPermissionResponse where
  | selected (optionId : String)
  | cancelled
deriving DecidableEq

/-- The event sink and the permission policy, over the state they keep. A refused event
comes with the text of the exception, a failed decision with its class name. `repr` is
Python's on a string. -/
structure Surroundings (ω ρ : Type) where
  emit : ω → AcpRuntimeEvent ρ → ω × Option String
  decide : ω → PermissionRequest ρ → ω × Except String AcpPermissionDecision
  repr : String → String

/-- What shows of a callback. -/
inductive Entry (ρ : Type) where
  | emitted (event : AcpRuntimeEvent ρ) (accepted : Bool)
  | triggered (error : AcpRuntimeError)
  | answered (sessionId toolCallId : String) (response : RequestPermissionResponse)

/-- The latest known fields of one tool call. -/
structure ToolEntry (ρ : Type) where
  kind : Option String := none
  locations : List String := []
  rawInput : Option ρ := none

/-- `_ImeceAcpClient` with its signal, the state of its surroundings, and everything it
has shown so far. -/
structure Client (ω ρ : Type) where
  world : ω
  fatal : FatalSignal := {}
  sessionId : Option String := none
  updateCount : ℕ := 0
  updateChars : ℕ := 0
  permissionRequestCount : ℕ := 0
  toolCalls : String → Option (ToolEntry ρ) := fun _ => none
  trace : List (Entry ρ) := []

/-- What reaches one client: its session, then updates and permission requests. -/
inductive Callback (ρ : Type) where
  | bindSession (sessionId : String)
  | sessionUpdate (sessionId : String) (update : SessionUpdate ρ)
  | requestPermission (sessionId : String) (toolCall : ToolCall ρ)
      (options : List PermissionOption)

def toolCallUpdateKinds : List String := ["tool_call", "tool_call_update"]

/-- `_location_paths` -/
def locationPaths (locations : List (Option String)) : List String :=
  (locations.filterMap id).filter (· ≠ "")

namespace Client

variable {ω ρ : Type} (limits : AcpClientLimits) (env : Surroundings ω ρ)

def trigger (client : Client ω ρ) (error : AcpRuntimeError) : Client ω ρ :=
  { client with
    fatal := client.fatal.trigger error
    trace := client.trace ++ [.triggered error] }

/-- `_emit`: any failure of the sink is fatal. -/
def emit (client : Client ω ρ) (event : AcpRuntimeEvent ρ) : Client ω ρ × Bool :=
  match env.emit client.world event with
  | (world, none) =>
      ({ client with world, trace := client.trace ++ [.emitted event true] }, true)
  | (world, some exc) =>
      (trigger { client with world, trace := client.trace ++ [.emitted event false] }
        (.eventSink ("AcpEventSink.emit failed: " ++ exc)), false)

def answer (client : Client ω ρ) (sessionId toolCallId : String)
    (response : RequestPermissionResponse) : Client ω ρ :=
  { client with trace := client.trace ++ [.answered sessionId toolCallId response] }

def foreign (callback sessionId : String) : AcpRuntimeError :=
  .protocol ("Received " ++ callback ++ " for foreign session_id " ++ env.repr sessionId ++ ".")

/-- `_track_tool_call` -/
def trackToolCall (client : Client ω ρ) (update : SessionUpdate ρ) : Client ω ρ :=
  if update.sessionUpdate.all (· ∉ toolCallUpdateKinds) then client
  else
    match update.toolCallId with
    | none => client
    | some toolCallId =>
        if toolCallId = "" then client
        else
          let entry := (client.toolCalls toolCallId).getD {}
          let entry := { entry with kind := update.kind.or entry.kind }
          let entry := { entry with
            locations := (update.locations.map locationPaths).getD entry.locations }
          let entry := { entry with rawInput := update.rawInput.or entry.rawInput }
          { client with toolCalls := Function.update client.toolCalls toolCallId (some entry) }

def sessionUpdate (client : Client ω ρ) (sessionId : String) (update : SessionUpdate ρ) :
    Client ω ρ :=
  if client.fatal.event then client
  else if client.sessionId ≠ some sessionId then
    client.trigger (foreign env "session_update" sessionId)
  else
    match update.dump with
    | .error exc =>
        client.trigger (.protocol ("Could not serialize session update: " ++ exc))
    | .ok serializedChars =>
        if limits.maxUpdateChars < serializedChars then
          client.trigger (.limit (s!"Session update exceeded max_update_chars " ++
            s!"({serializedChars} > {limits.maxUpdateChars})."))
        else
          let client := { client with
            updateCount := client.updateCount + 1
            updateChars := client.updateChars + serializedChars }
          if limits.maxUpdates < client.updateCount then
            client.trigger
              (.limit s!"Session update count exceeded max_updates ({limits.maxUpdates}).")
          else if limits.maxTotalUpdateChars < client.updateChars then
            client.trigger (.limit (s!"Total session update chars exceeded " ++
              s!"max_total_update_chars ({limits.maxTotalUpdateChars})."))
          else
            ((client.trackToolCall update).emit env
              (.sessionUpdateObserved sessionId update serializedChars)).1

def requestedEvent (sessionId : String) (toolCall : ToolCall ρ)
    (options : List PermissionOption) : AcpRuntimeEvent ρ :=
  .permissionRequested sessionId toolCall.toolCallId toolCall.title
    (options.map PermissionOption.optionId)

/-- The request's own fields over those tracked for its tool call. -/
def merged (client : Client ω ρ) (toolCall : ToolCall ρ) (options : List PermissionOption) :
    PermissionRequest ρ :=
  let tracked := (client.toolCalls toolCall.toolCallId).getD {}
  { toolCallId := toolCall.toolCallId
    title := toolCall.title
    kind := toolCall.kind.or tracked.kind
    locations := (toolCall.locations.map locationPaths).getD tracked.locations
    rawInput := toolCall.rawInput.or tracked.rawInput
    options }

lemma blankText_raised (text : String) :
    blankText ("permission policy raised " ++ text) = false := by
  have hc : 'p' ∈ ("permission policy raised " ++ text).toList := by simp
  exact blankText_of_mem hc (by decide)

/-- The policy's decision; a policy that raises grants nothing. -/
def decided (outcome : Except String AcpPermissionDecision) : AcpPermissionDecision :=
  match outcome with
  | .ok decision => decision
  | .error className =>
      .cancelled ("permission policy raised " ++ (className ++ "; denying fail-closed"))
        (blankText_raised _)

/-- The kind of the option selected, as the resolved event names it. -/
def selectedKind (options : List PermissionOption) (optionId : String) : String :=
  match options.find? (·.optionId = optionId) with
  | some option => option.kind.getD "None"
  | none => optionId

def outcomeOf (options : List PermissionOption) : AcpPermissionDecision → String
  | .selected optionId _ _ _ => "selected:" ++ selectedKind options optionId
  | .cancelled _ _ => "cancelled"

def responseOf : AcpPermissionDecision → RequestPermissionResponse
  | .selected optionId _ _ _ => .selected optionId
  | .cancelled _ _ => .cancelled

def resolvedEvent (sessionId : String) (toolCall : ToolCall ρ) (options : List PermissionOption)
    (decision : AcpPermissionDecision) : AcpRuntimeEvent ρ :=
  .permissionResolved sessionId toolCall.toolCallId (outcomeOf options decision) decision.reason

/-- The policy's decision on an accepted request, recorded and answered. -/
def settle (client : Client ω ρ) (sessionId : String) (toolCall : ToolCall ρ)
    (options : List PermissionOption) : Client ω ρ :=
  match env.decide client.world (client.merged toolCall options) with
  | (world, outcome) =>
      let decision := decided outcome
      -- whether the sink accepts this event is not looked at
      let (client, _) := emit env { client with world }
        (resolvedEvent sessionId toolCall options decision)
      client.answer sessionId toolCall.toolCallId (responseOf decision)

def requestPermission (client : Client ω ρ) (sessionId : String) (toolCall : ToolCall ρ)
    (options : List PermissionOption) : Client ω ρ :=
  if client.fatal.event then client.answer sessionId toolCall.toolCallId .cancelled
  else if client.sessionId ≠ some sessionId then
    (client.trigger (foreign env "request_permission" sessionId)).answer sessionId
      toolCall.toolCallId .cancelled
  else
    match client.emit env (requestedEvent sessionId toolCall options) with
    | (client, false) => client.answer sessionId toolCall.toolCallId .cancelled
    | (client, true) =>
        let client := { client with permissionRequestCount := client.permissionRequestCount + 1 }
        client.settle env sessionId toolCall options

@[grind =] def step (client : Client ω ρ) : Callback ρ → Client ω ρ
  | .bindSession sessionId => { client with sessionId := some sessionId }
  | .sessionUpdate sessionId update => client.sessionUpdate limits env sessionId update
  | .requestPermission sessionId toolCall options =>
      client.requestPermission env sessionId toolCall options

end Client

end Imece.AcpRuntime
