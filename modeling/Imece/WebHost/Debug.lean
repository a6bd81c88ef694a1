import Imece.Lib.Machine
import Imece.WebHost.Values
import Mathlib.Algebra.GroupWithZero.Nat

/-!
# The debugger bridge

`debug.py`: one record for the current session, its process, its socket to the adapter
and the requests that wait. Reader, output and connector threads queue their signals for
the main thread, which handles them in some order between the bridge's calls.
-/
namespace Imece.WebHost

open Lib
open ToolRuntime (Value)

structure Frame where
  id : Value
  name : Value
  path : Points
  line : Value

structure Scope where
  name : Value
  ref : Value
  expensive : Bool

structure Variable where
  name : Value
  value : Value
  type : Value
  ref : Value

/-- A file's breakpoints. -/
structure Breakpoints where
  path : Points
  lines : List ℤ

inductive DapRequest where
  | initializeRequest
  | attach
  | setBreakpoints (path : Points) (lines : List ℤ)
  | configurationDone
  | stackTrace (threadId : Value)
  | scopes (frameId : Value)
  | vars (ref : Value)
  | evaluate (expression frameId : Value)
  | stepping (command : String) (threadId : Value)
  | disconnect

/-- Who waits for a response: a continuation of the bridge's own, or one that answers a
call's context. -/
inductive DapWaiter where
  | afterInit
  | cfgDone
  | withStack (reason : Value)
  | breakpoints (context : ℕ)
  | stack (context : ℕ)
  | scopes (context : ℕ)
  | vars (context : ℕ)
  | evaluate (context : ℕ)

def DapWaiter.context? : DapWaiter → Option ℕ
  | .afterInit | .cfgDone | .withStack _ => none
  | .breakpoints context | .stack context | .scopes context | .vars context
  | .evaluate context => some context

/-- A response of the adapter, as its waiter reads it. -/
structure DapResponse where
  success : Bool
  message : Value
  body : Value

inductive DapMessage where
  | response (requestSeq : Option ℕ) (response : DapResponse)
  | event (event : String) (body : Value)
  | other

/-- The signals of a session's threads. -/
inductive DebugSignal where
  | chunk (data : String)
  | exited (code : ℤ)
  | connected
  | failed (message : String)
  | message (message : DapMessage)
  | closed
  | killTimer

inductive DebugReply where
  | started
  | lines (lines : List Value)
  | frames (frames : List Frame)
  | scopes (scopes : List Scope)
  | vars (vars : List Variable)
  | evaluated (result ref : Value)
  | failed (code : String) (message : Value)

/-- What shows of the bridge. A call names the session that is to answer it. -/
inductive DebugEntry where
  | sent (session : ℕ) (request : DapRequest)
  | called (context : ℕ) (session : Option ℕ)
  | replied (context : ℕ) (reply : DebugReply)
  | output (data : String)
  | stopped (reason threadId : Value) (frames : List Frame)
  | continued
  | terminated (code : Value)
  | killed (session : ℕ)

/-- What the system gives: the absolute path of a relative one, the path shown for an
absolute one, and the text of what `encode` raises on a request of some number, if it raises. -/
structure DebugHost where
  toAbs : String → Points → Points
  toRel : String → Points → Points
  refusal : ℕ → DapRequest → Option String

/-- The record `_dbg`, which processes run, and what shows. A session is known by its
process, a socket by its session. -/
structure Debug where
  project : Option String := none
  proc : Option ℕ := none
  sock : Option ℕ := none
  seq : ℕ := 0
  pending : List (ℕ × DapWaiter) := []
  threadId : Value := .none
  exitCode : Value := .none
  root : String := ""
  startCtx : Option ℕ := none
  bp : List Breakpoints := []
  outBuf : List String := []
  nextSession : ℕ := 0
  nextContext : ℕ := 0
  alive : ℕ → Bool := fun _ => false
  log : List DebugEntry := []

/-- One bridge call, one queued signal handled, or a process that ends. Lines are `none`
where they are no integers. -/
inductive DebugEvent where
  | openProject (root : String)
  | start (rel : String) (breakpoints : List Breakpoints) (spawned : Bool)
  | setBreakpoints (path : Points) (lines : Option (List ℤ))
  | stepping (command : String)
  | stack
  | scopes (frameId : Value)
  | vars (ref : Value)
  | evaluate (expression frameId : Value)
  | stop
  | flush
  | dies (session : ℕ)
  | signal (session : ℕ) (signal : DebugSignal)

def flushMax : ℕ := 256 * 1024

namespace DapResponse

variable (toRel : Points → Points)

def body? (response : DapResponse) : Option (List (Value × Value)) := asDict response.body

/-- One stack frame, as `debug.stopped` and `debug.stack` show it. -/
def frame (item : Value) : Option Frame := do
  let entries ← itemDict item
  let source ← asDict ((dictGet entries "source").getD .none)
  let path ← match getOr source "path" (.str []) with
    | .str [] => some []
    | .str path => some (toRel path)
    | _ => none
  return {
    id := (dictGet entries "id").getD .none
    name := getOr entries "name" (.str (Points.ofString "?"))
    path
    line := getOr entries "line" (.int 0) }

def frames (response : DapResponse) : Option (List Frame) := do
  let body ← response.body?
  let items ← asItems ((dictGet body "stackFrames").getD .none)
  items.mapM (frame toRel)

def scopes (response : DapResponse) : Option (List Scope) := do
  let body ← response.body?
  let items ← asItems ((dictGet body "scopes").getD .none)
  items.mapM fun item => do
    let entries ← itemDict item
    return {
      name := getOr entries "name" (.str (Points.ofString "?"))
      ref := getOr entries "variablesReference" (.int 0)
      expensive := !falsy ((dictGet entries "expensive").getD .none) }

def vars (response : DapResponse) : Option (List Variable) := do
  let body ← response.body?
  let items ← asItems ((dictGet body "variables").getD .none)
  items.mapM fun item => do
    let entries ← itemDict item
    return {
      name := getOr entries "name" (.str (Points.ofString "?"))
      value := getOr entries "value" (.str [])
      type := getOr entries "type" (.str [])
      ref := getOr entries "variablesReference" (.int 0) }

/-- The lines the adapter verified. -/
def verified (response : DapResponse) : Option (List Value) := do
  let body ← response.body?
  let items ← asItems ((dictGet body "breakpoints").getD .none)
  let dicts ← items.mapM itemDict
  return (dicts.filter fun entries => !falsy ((dictGet entries "verified").getD .none)).map
    fun entries => getOr entries "line" (.int 0)

def evaluated (response : DapResponse) : Option DebugReply :=
  if response.success then do
    let body ← response.body?
    return .evaluated (getOr body "result" (.str [])) (getOr body "variablesReference" (.int 0))
  else
    some (.failed "eval_error" (if falsy response.message then
      .str (Points.ofString "Değerlendirilemedi.") else response.message))

/-- What a waiter answers its call with; `none` where reading the response raises. -/
def reply (response : DapResponse) : DapWaiter → Option DebugReply
  | .breakpoints _ => response.verified.map .lines
  | .stack _ => (response.frames toRel).map .frames
  | .scopes _ => response.scopes.map .scopes
  | .vars _ => response.vars.map .vars
  | .evaluate _ => response.evaluated
  | _ => none

end DapResponse

namespace Debug

variable (host : DebugHost)

def record (d : Debug) (entry : DebugEntry) : Debug := { d with log := d.log ++ [entry] }

def active (d : Debug) : Bool :=
  match d.proc with
  | some session => d.alive session
  | none => false

/-- What `_request` raises: it encodes only for a socket. -/
def raised (d : Debug) (request : DapRequest) : Option String :=
  if d.sock.isSome then host.refusal (d.seq + 1) request else none

/-- `_request`; without a socket, or where `encode` raises, nothing is sent, and the waiter
waits all the same. -/
def request (d : Debug) (request : DapRequest) (waiter : Option DapWaiter) : Debug :=
  let d := { d with
    seq := d.seq + 1
    pending := d.pending ++ (waiter.map fun waiter => (d.seq + 1, waiter)).toList }
  match d.sock with
  | some session =>
      if (host.refusal d.seq request).isSome then d else d.record (.sent session request)
  | none => d

def pop (d : Debug) (seq : ℕ) : Option DapWaiter × Debug :=
  ((d.pending.find? (·.1 = seq)).map Prod.snd,
    { d with pending := d.pending.filter (·.1 ≠ seq) })

def flushOut (d : Debug) : Debug :=
  if d.outBuf = [] then d
  else record { d with outBuf := [] } (.output (String.join d.outBuf))

def cleanup (d : Debug) : Debug :=
  { d with
    proc := none
    sock := none
    threadId := .none
    startCtx := none
    pending := [] }

/-- `_kill_proc`; the process ends by itself later. -/
def killProc (d : Debug) : Debug :=
  let d := match d.proc with
    | some session => if d.alive session then d.record (.killed session) else d
    | none => d
  { d with sock := none }

/-- The continuation waiting for a response. -/
def continuation (d : Debug) (waiter : DapWaiter) (response : DapResponse) : Debug :=
  match waiter with
  | .afterInit => d.request host .attach none
  | .cfgDone =>
      match d.startCtx with
      | some context => record { d with startCtx := none } (.replied context .started)
      | none => d
  | .withStack reason =>
      match response.frames (host.toRel d.root) with
      | some frames => d.record (.stopped reason d.threadId frames)
      | none => d
  | waiter =>
      match waiter.context?, response.reply (host.toRel d.root) waiter with
      | some context, some reply => d.record (.replied context reply)
      -- reading the response raises, the waiter is already gone
      | _, _ => d

/-- The second half of the handshake, which ends where `encode` raises. -/
def handshake (d : Debug) : List Breakpoints → Debug
  | [] => d.request host .configurationDone (some .cfgDone)
  | src :: rest =>
      let request := .setBreakpoints (host.toAbs d.root src.path) src.lines
      if (d.raised host request).isSome then d.request host request none
      else (d.request host request none).handshake rest

/-- `_on_event` -/
def onEvent (d : Debug) (event : String) (body : Value) : Debug :=
  if event = "initialized" then d.handshake host d.bp
  else if event = "stopped" then
    match asDict body with
    | none => d
    | some body =>
        let d := { d with threadId := (dictGet body "threadId").getD .none }
        d.request host (.stackTrace d.threadId) (some (.withStack (getOr body "reason" (.str []))))
  else if event = "continued" then d.record .continued
  else if event = "exited" then
    match asDict body with
    | none => d
    | some body => { d with exitCode := (dictGet body "exitCode").getD .none }
  else if event = "terminated" then { d with sock := none }
  else d

/-- `_on_message` -/
def onMessage (d : Debug) : DapMessage → Debug
  | .response requestSeq response =>
      match requestSeq with
      | none => d
      | some seq =>
          match d.pop seq with
          | (none, d) => d
          | (some waiter, d) => d.continuation host waiter response
  | .event event body => d.onEvent host event body
  | .other => d

/-- One queued signal, handled as the record is then. -/
def onSignal (d : Debug) (session : ℕ) : DebugSignal → Debug
  | .chunk data =>
      let d := { d with outBuf := d.outBuf ++ [data] }
      if flushMax ≤ (d.outBuf.map String.length).sum then d.flushOut else d
  | .exited code =>
      let d := d.flushOut
      let final := match d.exitCode with
        | .none => .int code
        | code => code
      (d.record (.terminated final)).cleanup
  | .connected =>
      request host { d with sock := some session } .initializeRequest (some .afterInit)
  | .failed message =>
      match d.startCtx with
      | none => d.killProc
      | some context =>
          (killProc { d with startCtx := none }).record
            (.replied context (.failed "connect_failed" (.str (Points.ofString message))))
  | .message message => d.onMessage host message
  -- every waiter is a continuation: none is failed
  | .closed => { d with pending := [] }
  | .killTimer => d.killProc

/-- A call answered by its handler. -/
def answered (d : Debug) (reply : DebugReply) : Debug :=
  { d with
    nextContext := d.nextContext + 1
    log := d.log ++ [.called d.nextContext none, .replied d.nextContext reply] }

def failedWith (d : Debug) (code message : String) : Debug :=
  d.answered (.failed code (.str (Points.ofString message)))

/-- A call whose context waits for a response. The bridge answers what it raises. -/
def asked (d : Debug) (request : DapRequest) (waiter : ℕ → DapWaiter) : Debug :=
  let context := d.nextContext
  let called : Debug := { d with
    nextContext := d.nextContext + 1
    log := d.log ++ [.called context d.proc] }
  let asked := called.request host request (some (waiter context))
  match d.raised host request with
  | none => asked
  -- the call is in the table already and stays there
  | some text => asked.record (.replied context (.failed "internal" (.str (Points.ofString text))))

def notStopped (d : Debug) : Debug :=
  d.failedWith "not_stopped" "Debugger durmuş durumda değil."

/-- `debug.start` -/
def start (d : Debug) (rel : String) (breakpoints : List Breakpoints) (spawned : Bool) : Debug :=
  match d.project with
  | none => d.failedWith "no_project" "Önce bir proje aç."
  | some root =>
      if !".py".toList.isSuffixOf rel.toList then
        d.failedWith "not_python" "Debugger şimdilik yalnız Python dosyaları için."
      else
        let d := if d.active then d.killProc.cleanup else d
        if !spawned then d.failedWith "spawn_failed" "debugpy başlatılamadı: "
        else
          { d with
            proc := some d.nextSession
            root
            startCtx := some d.nextContext
            threadId := .none
            exitCode := .none
            bp := breakpoints
            alive := Function.update d.alive d.nextSession true
            nextSession := d.nextSession + 1
            nextContext := d.nextContext + 1
            log := d.log ++ [.called d.nextContext (some d.nextSession)] }

/-- `debug.setBreakpoints` -/
def setBreakpoints (d : Debug) (path : Points) (lines : Option (List ℤ)) : Debug :=
  match lines with
  | none => d.failedWith "internal" "invalid literal for int() with base 10"
  | some lines =>
      if !d.active || d.sock.isNone then d.answered (.lines (lines.map .int))
      else d.asked host (.setBreakpoints (host.toAbs d.root path) lines) .breakpoints

def isNull : Value → Bool
  | .none => true
  | _ => false

def step (d : Debug) : DebugEvent → Debug
  | .openProject root => { d with project := some root }
  | .start rel breakpoints spawned => d.start rel breakpoints spawned
  | .setBreakpoints path lines => d.setBreakpoints host path lines
  | .stepping command =>
      if !d.active || isNull d.threadId then d
      else
        let stepped := d.request host (.stepping command d.threadId) none
        if (d.raised host (.stepping command d.threadId)).isSome then stepped
        else stepped.record .continued
  | .stack =>
      if !d.active || isNull d.threadId then d.notStopped
      else d.asked host (.stackTrace d.threadId) .stack
  | .scopes frameId =>
      if !d.active then d.notStopped else d.asked host (.scopes frameId) .scopes
  | .vars ref =>
      if !d.active then d.notStopped else d.asked host (.vars ref) .vars
  | .evaluate expression frameId =>
      if !d.active then d.notStopped else d.asked host (.evaluate expression frameId) .evaluate
  | .stop => if d.active then d.request host .disconnect none else d
  | .flush => d.flushOut
  | .dies session => { d with alive := Function.update d.alive session false }
  | .signal session signal => d.onSignal host session signal

end Debug

end Imece.WebHost
