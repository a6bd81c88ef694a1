import Imece.Lib.Machine

/-!
# The language server bridge

`lsp.py`: one record for the current server, shared by successive ones. A reader thread
per server queues its signals; the main thread handles one of them, or one bridge call,
at a time. `π` holds the JSON of parameters and results, `none` is `null`. What is to be
written comes with its refusal: the text of what `encode` raises on it, if it raises.
-/
namespace Imece.WebHost

open Lib

/-- A server's process with its reader, and the project root it was started for. -/
structure Server where
  id : ℕ
  root : String
deriving DecidableEq

/-- What the host writes to a server. -/
inductive ClientMessage (π : Type) where
  | initializeRequest (id : ℕ) (root : String)
  | initialized
  | request (id : ℕ) (method : String) (params : Option π)
  | notify (method : String) (params : Option π)
  | configuration (items : ℕ)
  | null
  | shutdown
  | exit

/-- The `error` of a response: an object with its message, or any other value. -/
inductive ServerError where
  | object (message : String)
  | malformed

/-- What a server writes. A response's `id` is the number it equals, if it is one. The
items of a configuration request are `none` where they cannot be read; the refusal is that
of the answer, which repeats the request's `id`. -/
inductive ServerMessage (π : Type) where
  | request (method : String) (items : Option ℕ) (refusal : Option String)
  | response (id : Option ℕ) (error : Option ServerError) (result : Option π)
  | notification (method : String) (params : Option π)

inductive LspSignal (π : Type) where
  | message (message : ServerMessage π)
  | exited

inductive LspReply (π : Type) where
  | result (value : Option π)
  | failed (code message : String)

/-- Who waits for a response: the continuation of `initialize`, or a call's context. -/
inductive Waiter where
  | initialized
  | context (context : ℕ)
deriving DecidableEq

/-- What shows of the bridge. A call of `lsp.request` names the server it was sent to. -/
inductive LspEntry (π : Type) where
  | sent (server : ℕ) (message : ClientMessage π)
  | called (context : ℕ) (server : Option ℕ)
  | replied (context : ℕ) (reply : LspReply π)
  | event (method : String) (params : Option π)
  | initialized (server : ℕ)
  | exited (server : ℕ)

/-- The record `_ls` with what the system holds for it: processes that run, readers that
read, and their queued signals. -/
structure Lsp (π : Type) where
  project : Option String := none
  proc : Option Server := none
  ready : Bool := false
  nextId : ℕ := 0
  pending : List (ℕ × Waiter) := []
  nextServer : ℕ := 0
  nextContext : ℕ := 0
  alive : ℕ → Bool := fun _ => false
  reading : ℕ → Bool := fun _ => false
  queued : ℕ → List (LspSignal π) := fun _ => []
  log : List (LspEntry π) := []

/-- The refusal is that of `initialize`, which holds the name of the root. -/
inductive SpawnOutcome where
  | spawned (refusal : Option String)
  | noServer
  | raised

/-- One bridge call, one queued signal handled, or what a server and its reader do. -/
inductive LspEvent (π : Type) where
  | openProject (root : String)
  | start (outcome : SpawnOutcome)
  | stop
  | request (method : String) (params : Option π) (refusal : Option String)
  | notify (method : String) (params : Option π) (refusal : Option String)
  | deliver (server : ℕ)
  | emits (server : ℕ) (message : ServerMessage π)
  | dies (server : ℕ)
  | readerEnds (server : ℕ)

namespace Lsp

variable {π : Type}

@[grind =] def record (ls : Lsp π) (entry : LspEntry π) : Lsp π :=
  { ls with log := ls.log ++ [entry] }

/-- What `_send` raises: it encodes only while the process runs. -/
def raised (ls : Lsp π) (refusal : Option String) : Option String :=
  if ls.proc.any fun server => ls.alive server.id then refusal else none

/-- `_send`: nothing is written once the process has ended, or where `encode` raises. -/
@[grind =] def send (ls : Lsp π) (message : ClientMessage π) (refusal : Option String) : Lsp π :=
  match ls.proc with
  | none => ls
  | some server =>
      if ls.alive server.id && refusal.isNone then ls.record (.sent server.id message) else ls

/-- `_request` -/
def request (ls : Lsp π) (message : ℕ → ClientMessage π) (waiter : Waiter)
    (refusal : Option String) : Lsp π :=
  send { ls with
    nextId := ls.nextId + 1
    pending := ls.pending ++ [(ls.nextId + 1, waiter)] } (message (ls.nextId + 1)) refusal

@[grind =] def pop (ls : Lsp π) (id : ℕ) : Option Waiter × Lsp π :=
  ((ls.pending.find? (·.1 = id)).map Prod.snd,
    { ls with pending := ls.pending.filter (·.1 ≠ id) })

/-- Every waiting call fails, and the table is empty. -/
def failPending (ls : Lsp π) (message : String) : Lsp π :=
  { ls with
    pending := []
    log := ls.log ++ ls.pending.filterMap fun
      | (_, .context context) => some (.replied context (.failed "lsp_gone" message))
      | (_, .initialized) => none }

/-- `_on_message` -/
@[grind =] def onMessage (ls : Lsp π) : ServerMessage π → Lsp π
  | .request method items refusal =>
      if method = "workspace/configuration" then
        match items with
        | some count => ls.send (.configuration count) refusal
        | none => ls
      else ls.send .null refusal
  | .response id error result =>
      match id with
      | none => ls
      | some id =>
          match ls.pop id with
          | (none, ls) => ls
          | (some .initialized, ls) =>
              let ls := ls.send .initialized none
              let ls := { ls with ready := true }
              let ls := match ls.proc with
                | some server => ls.record (.initialized server.id)
                | none => ls
              ls.record (.event "$/imeceReady" none)
          | (some (.context context), ls) =>
              match error with
              | some (.object message) =>
                  ls.record (.replied context (.failed "lsp_error" message))
              -- reading the message of such an error raises, the waiter is already gone
              | some .malformed => ls
              | none => ls.record (.replied context (.result result))
  | .notification method params => ls.record (.event method params)

/-- `_on_exited` -/
def onExited (ls : Lsp π) : Lsp π :=
  (failPending { ls with ready := false } "Dil sunucusu kapandı.").record
    (.event "$/imeceExited" none)

/-- `_stop_current` -/
def stopCurrent (ls : Lsp π) : Lsp π :=
  let stopped := failPending { ls with proc := none, ready := false }
    "Dil sunucusu yeniden başlıyor."
  match ls.proc with
  | none => stopped
  | some server =>
      if ls.alive server.id then
        { stopped with
          alive := Function.update stopped.alive server.id false
          log := stopped.log ++ [.sent server.id .shutdown, .sent server.id .exit] }
      else stopped

/-- `_spawn`, past the start of the process. -/
def spawn (ls : Lsp π) (root : String) (refusal : Option String) : Lsp π :=
  let server : Server := { id := ls.nextServer, root }
  request { ls with
    proc := some server
    ready := false
    nextServer := ls.nextServer + 1
    alive := Function.update ls.alive server.id true
    reading := Function.update ls.reading server.id true }
    (.initializeRequest · root) .initialized refusal

def running (ls : Lsp π) (root : String) : Bool :=
  match ls.proc with
  | some server => ls.alive server.id && server.root = root
  | none => false

/-- `lsp.start` -/
def start (ls : Lsp π) (outcome : SpawnOutcome) : Lsp π :=
  match ls.project with
  | none => ls
  | some root =>
      if ls.running root then ls
      else
        match outcome with
        | .spawned refusal => ls.stopCurrent.spawn root refusal
        | _ => ls.stopCurrent

/-- `lsp.request`: a call with a fresh context. The bridge answers what it raises. -/
def lspRequest (ls : Lsp π) (method : String) (params : Option π) (refusal : Option String) :
    Lsp π :=
  let context := ls.nextContext
  let ls := { ls with nextContext := ls.nextContext + 1 }
  if !ls.ready then
    { ls with log := ls.log ++ [.called context none, .replied context (.result none)] }
  else if method = "" then
    { ls with
      log := ls.log ++ [.called context none,
        .replied context (.failed "bad_request" "method boş.")] }
  else
    let asked := (ls.record (.called context (ls.proc.map Server.id))).request
      (.request · method params) (.context context) refusal
    match ls.raised refusal with
    | none => asked
    -- the call is in the table already and stays there
    | some text => asked.record (.replied context (.failed "internal" text))

/-- `lsp.notify` -/
def lspNotify (ls : Lsp π) (method : String) (params : Option π) (refusal : Option String) :
    Lsp π :=
  if method ≠ "" && ls.proc.isSome then ls.send (.notify method params) refusal else ls

/-- The main thread handles the first queued signal of a reader. -/
def deliver (ls : Lsp π) (server : ℕ) : Lsp π :=
  match ls.queued server with
  | [] => ls
  | signal :: rest =>
      let ls := { ls with queued := Function.update ls.queued server rest }
      match signal with
      | .message message => ls.onMessage message
      | .exited => ls.onExited.record (.exited server)

def queue (ls : Lsp π) (server : ℕ) (signal : LspSignal π) : Lsp π :=
  { ls with queued := Function.update ls.queued server (ls.queued server ++ [signal]) }

@[grind =] def step (ls : Lsp π) : LspEvent π → Lsp π
  | .openProject root => { ls with project := some root }
  | .start outcome => ls.start outcome
  | .stop => ls.stopCurrent
  | .request method params refusal => ls.lspRequest method params refusal
  | .notify method params refusal => ls.lspNotify method params refusal
  | .deliver server => ls.deliver server
  | .emits server message =>
      if ls.reading server then ls.queue server (.message message) else ls
  | .dies server => { ls with alive := Function.update ls.alive server false }
  | .readerEnds server =>
      if ls.reading server then
        queue { ls with reading := Function.update ls.reading server false } server .exited
      else ls

end Lsp

end Imece.WebHost
