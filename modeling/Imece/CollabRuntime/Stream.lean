import Imece.CollabRuntime.Models

/-!
# The revision stream

The events a server writes, the frames they are written in, and the parser that reads
the frames line by line. The parser gives up on whatever it does not expect.
-/
namespace Imece.CollabRuntime

open Lib

def maxFrameBytes : ℕ := 64 * 1024 + 256
def maxErrorBytes : ℕ := 64 * 1024
def maxChangedTaskIds : ℕ := 512

def eventKeys : List String := ["previous_revision", "revision", "context_changed", "changed_task_ids"]

def errorCodes : List String :=
  ["access_denied", "stale_revision", "replay_unavailable", "invalid_request",
    "session_unavailable", "internal_error", "subscriber_limit"]

structure ReplayEvent where
  previousRevision : String
  revision : String
  contextChanged : Bool
  changedTaskIds : List String
deriving DecidableEq, Repr

def ReplayEvent.toDict (event : ReplayEvent) : Json :=
  .obj [("previous_revision", .str event.previousRevision), ("revision", .str event.revision),
    ("context_changed", .bool event.contextChanged),
    ("changed_task_ids", .arr (event.changedTaskIds.map .str))]

section Writing

def utf8 (text : String) : List UInt8 := text.toUTF8.data.toList

/-- `_write_event`: the lines of one frame. -/
def writeEvent (name : String) (payload : Json) (revision : Option String) : List UInt8 :=
  utf8 s!"event: {name}\n" ++
    ((revision.map fun revision => utf8 s!"id: {revision}\n").getD [] ++
      (utf8 "data: " ++ (canonicalJsonBytes payload).data.toList ++ utf8 "\n\n"))

/-- The tasks in which two states differ. -/
def changedTasks (previous state : SessionState) : List String :=
  (previous.tasks.keys ++ state.tasks.keys).dedup.filter fun taskId =>
    decide (previous.tasks[taskId]? ≠ state.tasks[taskId]?)

/-- The event between two states that follow each other in a replay. -/
def replayEvent (previousRevision revision : String) (previous state : SessionState) :
    ReplayEvent where
  previousRevision := previousRevision
  revision := revision
  contextChanged := decide (previous.context ≠ state.context)
  changedTaskIds := (changedTasks previous state).insertionSort (· ≤ ·)

end Writing

section Payloads

/-- `_strict_json`; nothing stands for `_ProtocolError` from here on. -/
def strictJson (raw : ByteArray) : Option Json := (parseJsonBytes raw "consumer data").toOption

def errorObject (raw : ByteArray) : Option String := do
  let obj ← (exactKeys (← strictJson raw) ["error"] "error object").toOption
  let error ← (exactKeys (Json.field obj "error") ["code", "message"] "error").toOption
  match Json.field error "code", Json.field error "message" with
  | .str code, .str _ => if code ∈ errorCodes then some code else none
  | _, _ => none

/-- `sorted(set(ids))` -/
def sortedSet (ids : List String) : List String := ids.dedup.insertionSort (· ≤ ·)

def revisionEvent (raw : ByteArray) (eventId : String) : Option ReplayEvent := do
  let obj ← (exactKeys (← strictJson raw) eventKeys "revision event").toOption
  let previous ← (shaHex (Json.field obj "previous_revision") "previous revision").toOption
  let revision ← (shaHex (Json.field obj "revision") "revision").toOption
  let eventId ← (shaHex (.str eventId) "event id").toOption
  if revision ≠ eventId ∨ previous = revision then none
  else match Json.field obj "context_changed", Json.field obj "changed_task_ids" with
    | .bool contextChanged, .arr changed =>
        if maxChangedTaskIds < changed.length then none
        else do
          let ids ← (changed.mapM fun value => safeId value "task id").toOption
          if ids ≠ sortedSet ids then none
          else some ⟨previous, revision, contextChanged, ids⟩
    | _, _ => none

end Payloads

section Lines

/-- How a subscription ends. -/
inductive Outcome where
  | retry
  | inboxFull
  | accessDenied
  | resnapshotRequired
  | protocolError
  | serverError
deriving DecidableEq, Repr

/-- The fields of the frame that is being read. -/
structure StreamFields where
  event : Option String
  id : Option String
  data : Option String
deriving DecidableEq, Repr

def StreamFields.empty : StreamFields := ⟨none, none, none⟩

/-- A field of the frame; none if there is no such field or it has a value already. -/
def StreamFields.set (fields : StreamFields) (name value : String) : Option StreamFields :=
  match name, fields with
  | "event", ⟨none, id, data⟩ => some ⟨some value, id, data⟩
  | "id", ⟨event, none, data⟩ => some ⟨event, some value, data⟩
  | "data", ⟨event, id, none⟩ => some ⟨event, id, some value⟩
  | _, _ => none

/-- The locals of `_stream`. -/
structure StreamParser where
  fields : StreamFields
  comment : Bool
  frameBytes : ℕ
deriving DecidableEq, Repr

def StreamParser.fresh : StreamParser := ⟨.empty, false, 0⟩

/-- What the parser makes of one more line. After an event it is fresh. -/
inductive Fed where
  | more (parser : StreamParser)
  | event (event : ReplayEvent)
  | ends (outcome : Outcome)
deriving DecidableEq, Repr

/-- The text of a line, without its end. -/
def lineText (line : List UInt8) : Option String :=
  let body := line.dropLast
  let body := if body.getLast? = some 13 then body.dropLast else body
  (String.fromUTF8? ⟨body.toArray⟩).filter fun text =>
    !text.toList.any fun c => c == '\r' || c == '\x00'

/-- `partition(":")`, with one blank less at the head of the value; none without a colon. -/
def partitionField (text : String) : Option (String × String) :=
  match text.toList.span (· ≠ ':') with
  | (name, ':' :: value) =>
      let value := match value with
        | ' ' :: value => value
        | value => value
      some (String.ofList name, String.ofList value)
  | _ => none

/-- The end of a frame. -/
def StreamFields.dispatch (fields : StreamFields) : Fed :=
  match fields with
  | ⟨none, none, none⟩ => .more .fresh
  | ⟨some "revision", some id, some data⟩ =>
      match revisionEvent data.toUTF8 id with
      | some event => .event event
      | none => .ends .protocolError
  | ⟨some name, none, some data⟩ =>
      if name = "error" ∨ name = "resnapshot_required" then
        if maxErrorBytes < data.toUTF8.size then .ends .protocolError
        else match errorObject data.toUTF8 with
          | none => .ends .protocolError
          | some code =>
              if (name = "resnapshot_required") ≠ (code = "replay_unavailable") then
                .ends .protocolError
              else if name = "resnapshot_required" then .ends .resnapshotRequired
              else .ends .serverError
      else .ends .protocolError
  | _ => .ends .protocolError

/-- One turn of the loop of `_stream`. -/
def StreamParser.feed (parser : StreamParser) (line : List UInt8) : Fed :=
  if maxFrameBytes < line.length then .ends .protocolError
  else if line.getLast? ≠ some 10 then .ends .retry
  else if maxFrameBytes < parser.frameBytes + line.length then .ends .protocolError
  else match lineText line with
    | none => .ends .protocolError
    | some text =>
        let parser := { parser with frameBytes := parser.frameBytes + line.length }
        if text.toList.isEmpty then parser.fields.dispatch
        else if text.toList.head? = some ':' then
          if parser.fields = .empty then .more { parser with comment := true }
          else .ends .protocolError
        else if parser.comment then .ends .protocolError
        else match partitionField text with
          | none => .ends .protocolError
          | some (name, value) =>
              match parser.fields.set name value with
              | none => .ends .protocolError
              | some fields => .more { parser with fields := fields }

/-- `readline`: up to the next newline, the end, or the limit. -/
def readline : ℕ → List UInt8 → List UInt8 × List UInt8
  | 0, stream => ([], stream)
  | _, [] => ([], [])
  | limit + 1, byte :: stream =>
      if byte = 10 then ([byte], stream)
      else
        let (line, rest) := readline limit stream
        (byte :: line, rest)

/-- The loop of `_stream` over the bytes that came in, up to the first event or end, and for
at most so many lines. -/
def StreamParser.read : ℕ → StreamParser → List UInt8 → Fed × List UInt8
  | 0, parser, stream => (.more parser, stream)
  | lines + 1, parser, stream =>
      let (line, rest) := readline (maxFrameBytes + 1) stream
      match parser.feed line with
      | .more parser => parser.read lines rest
      | fed => (fed, rest)

end Lines

end Imece.CollabRuntime
