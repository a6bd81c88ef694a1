import Mathlib
import Imece.Lib.Linked
import Imece.Lib.Machine
import Imece.CollabRuntime.Stream

/-!
# The revision consumer

A bounded inbox of revision events behind a durable cursor. A worker fills the inbox from
the stream; acknowledgements and resets move the cursor, and write it to the checkpoint
file before they move it in memory.
-/
namespace Imece.CollabRuntime

open Lib

def maxPendingEvents : ℕ := 32
def maxCheckpointBytes : ℕ := 4096

def checkpointKeys : List String :=
  ["schema", "session_id", "base_commit", "target_version", "member_id", "consumed_revision"]

inductive ConsumerState where
  | stopped
  | connecting
  | streaming
  | retrying
  | inboxFull
  | accessDenied
  | resnapshotRequired
  | protocolError
  | serverError
  | closed
deriving DecidableEq, Repr

/-- The states that ask for an explicit recovery. -/
def ConsumerState.Terminal (state : ConsumerState) : Prop :=
  state = .accessDenied ∨ state = .resnapshotRequired ∨ state = .protocolError ∨
    state = .serverError

instance (state : ConsumerState) : Decidable state.Terminal :=
  inferInstanceAs (Decidable (_ ∨ _))

/-- The terminal state an outcome leads to. -/
def Outcome.terminal : Outcome → Option (ConsumerState × String)
  | .accessDenied => some (.accessDenied, "access_denied")
  | .resnapshotRequired => some (.resnapshotRequired, "resnapshot_required")
  | .protocolError => some (.protocolError, "protocol_error")
  | .serverError => some (.serverError, "server_error")
  | .retry | .inboxFull => none

/-- What the checkpoint is pinned to. -/
structure SessionIdentity where
  sessionId : String
  baseCommit : String
  targetVersion : String
deriving DecidableEq, Repr

structure Snapshot where
  revision : String
  state : SessionState
deriving DecidableEq

@[grind =] def readBaseline (snapshot : Snapshot) : Except CollabError (SessionIdentity × String) := do
  let state ← parseStateDict snapshot.state.toDict
  let revision ← shaHex (.str snapshot.revision) "revision"
  return ({
    sessionId := state.sessionId
    baseCommit := state.baseCommit
    targetVersion := state.targetVersion }, revision)

/-- `_snapshot_baseline` -/
@[grind =] def snapshotBaseline (snapshot : Snapshot) : Except CollabError (SessionIdentity × String) :=
  (readBaseline snapshot).mapError fun _ =>
    .validation "a valid host-approved schema1 snapshot is required."

section Checkpoints

/-- The checkpoint file, and whether the next read and the next replacement of it work. -/
structure Disk where
  file : Option ByteArray
  reads : Bool
  writes : Bool
deriving DecidableEq

/-- `_checkpoint_object` -/
def checkpointObject (identity : SessionIdentity) (memberId revision : String) : Json :=
  .obj [("schema", .int 1), ("session_id", .str identity.sessionId),
    ("base_commit", .str identity.baseCommit), ("target_version", .str identity.targetVersion),
    ("member_id", .str memberId), ("consumed_revision", .str revision)]

/-- A member has exactly this text. -/
def requireText (value : Json) (text : String) : Except CollabError Unit :=
  match value with
  | .str found => if found = text then .ok () else .error .valueError
  | _ => .error .valueError

def parseCheckpoint (identity : SessionIdentity) (memberId : String) (raw : ByteArray) :
    Except CollabError String := do
  let obj ← exactKeys (← parseJsonBytes raw "checkpoint") checkpointKeys "checkpoint"
  parseSchema (Json.field obj "schema")
  let revision ← shaHex (Json.field obj "consumed_revision") "consumed revision"
  requireText (Json.field obj "session_id") identity.sessionId
  requireText (Json.field obj "base_commit") identity.baseCommit
  requireText (Json.field obj "target_version") identity.targetVersion
  requireText (Json.field obj "member_id") memberId
  return revision

def checkpointInvalid : CollabError :=
  .validation "the private revision checkpoint is invalid or unavailable."

/-- `_load_checkpoint`: a missing file is the only soft case. -/
@[grind =] def loadCheckpoint (identity : SessionIdentity) (memberId : String) (disk : Disk) :
    Except CollabError (Option String) :=
  if ¬ disk.reads then .error checkpointInvalid
  else match disk.file with
    | none => .ok none
    | some raw =>
        if maxCheckpointBytes < raw.size then .error checkpointInvalid
        else ((parseCheckpoint identity memberId raw).map some).mapError fun _ => checkpointInvalid

def notPersisted : CollabError := .validation "the revision checkpoint could not be persisted."

/-- `_persist_checkpoint`: the file is replaced at once or left as it is, and never
replaced where it is not this consumer's. -/
@[grind =] def persistCheckpoint (identity : SessionIdentity) (memberId revision : String) :
    EStateM CollabError Disk Unit := fun disk =>
  match loadCheckpoint identity memberId disk with
  | .error _ => .error notPersisted disk
  | .ok _ =>
      let raw := canonicalJsonBytes (checkpointObject identity memberId revision)
      if maxCheckpointBytes < raw.size then .error notPersisted disk
      else if ¬ disk.writes then .error notPersisted disk
      else .ok () { disk with file := some raw }

end Checkpoints

/-- Where the loop of the worker stands. -/
inductive WorkerPhase where
  | looping
  | subscribing
  | reading (parser : StreamParser)
deriving DecidableEq, Repr

/-- The fields of `RevisionConsumer`. A worker that has returned is none. -/
structure RevisionConsumer where
  identity : SessionIdentity
  memberId : String
  pending : List ReplayEvent
  lastEvent : Option ReplayEvent
  state : ConsumerState
  code : Option String
  closed : Bool
  worker : Option WorkerPhase
  consumed : String
  received : String
deriving DecidableEq, Repr

/-- A consumer and the disk its checkpoint is on. -/
structure Held where
  consumer : RevisionConsumer
  disk : Disk
deriving DecidableEq

section Lifecycle

@[grind =] def newConsumer (memberId : String) (initial : Snapshot) :
    EStateM CollabError Disk RevisionConsumer := fun disk =>
  match safeId (.str memberId) "member id", snapshotBaseline initial with
  | .ok memberId, .ok (identity, baseline) =>
      let made (consumed : String) : RevisionConsumer :=
        ⟨identity, memberId, [], none, .stopped, none, false, none, consumed, consumed⟩
      match loadCheckpoint identity memberId disk with
      | .error e => .error e disk
      | .ok (some saved) => .ok (made saved) disk
      | .ok none =>
          match persistCheckpoint identity memberId baseline disk with
          | .error e disk => .error e disk
          | .ok () disk => .ok (made baseline) disk
  | .error _, _ => .error (.validation "a valid member id is required.") disk
  | .ok _, .error e => .error e disk

def consumerClosed : CollabError := .validation "the revision consumer is closed."

/-- `start`, by whether the thread can be started. -/
def RevisionConsumer.start (spawns : Bool) : EStateM CollabError RevisionConsumer Unit := fun c =>
  if c.closed then .error consumerClosed c
  else if c.state.Terminal then
    .error (.validation "the revision consumer requires explicit recovery.") c
  else if c.worker.isSome then .ok () c
  else if spawns then
    .ok () { c with state := .connecting, code := none, worker := some .looping }
  else
    .error (.validation "the revision worker could not be started.")
      { c with state := .stopped, code := none, worker := none }

def notPending : CollabError := .validation "a consumed or pending revision is required."

/-- The events an acknowledgement of a revision covers. -/
def RevisionConsumer.covered (c : RevisionConsumer) (revision : String) : List ReplayEvent :=
  match c.pending.findIdx? fun event => event.revision = revision with
  | some index => c.pending.take (index + 1)
  | none => []

def acknowledgeAtSafePoint (revision : String) : EStateM CollabError Held Unit := fun s =>
  let c := s.consumer
  if c.closed then .error consumerClosed s
  else if ¬ isSha revision then .error notPending s
  else if revision = c.consumed then .ok () s
  else match c.pending.findIdx? fun event => event.revision = revision with
    | none => .error notPending s
    | some index =>
        match persistCheckpoint c.identity c.memberId revision s.disk with
        | .error e disk => .error e ⟨c, disk⟩
        | .ok () disk =>
            .ok () ⟨{ c with consumed := revision, pending := c.pending.drop (index + 1) }, disk⟩

/-- `_stop_worker`: the worker has returned when this does. -/
def RevisionConsumer.stopWorker (c : RevisionConsumer) (preserveTerminal : Bool) :
    RevisionConsumer :=
  if preserveTerminal ∧ c.state.Terminal then { c with worker := none }
  else { c with worker := none, state := .stopped, code := none }

def resetAtSafePoint (snapshot : Snapshot) : EStateM CollabError Held Unit := fun s =>
  if s.consumer.closed then .error consumerClosed s
  else
    let c := s.consumer.stopWorker true
    match snapshotBaseline snapshot with
    | .error e => .error e ⟨c, s.disk⟩
    | .ok (identity, revision) =>
        if identity ≠ c.identity then
          .error (.validation "the approved snapshot must match the pinned session identity.")
            ⟨c, s.disk⟩
        else match persistCheckpoint c.identity c.memberId revision s.disk with
          | .error e disk => .error e ⟨c, disk⟩
          | .ok () disk =>
              .ok () ⟨{ c with
                consumed := revision
                received := revision
                pending := []
                lastEvent := none
                state := .stopped
                code := none }, disk⟩

def RevisionConsumer.close (c : RevisionConsumer) : RevisionConsumer :=
  if c.closed then c
  else { c.stopWorker false with closed := true, state := .closed, code := none }

end Lifecycle

section Worker

/-- `_accept`; none stands for `_ProtocolError`. -/
def RevisionConsumer.accept (c : RevisionConsumer) (event : ReplayEvent) :
    Option RevisionConsumer :=
  if event.revision = c.received then
    if some event ≠ c.lastEvent then none else some c
  else if event.previousRevision ≠ c.received ∨ event.revision = c.consumed then none
  else if c.pending.any fun old => old.revision = event.revision then none
  else if maxPendingEvents ≤ c.pending.length then none
  else some { c with
    pending := c.pending ++ [event]
    received := event.revision
    lastEvent := some event }

/-- What the loop of `_run` does with the outcome of a subscription. -/
def RevisionConsumer.settle (c : RevisionConsumer) (outcome : Outcome) : RevisionConsumer :=
  match outcome.terminal with
  | some (state, code) => { c with state := state, code := some code, worker := none }
  | none =>
      if outcome = .inboxFull then { c with worker := some .looping }
      else { c with state := .retrying, code := some "connection_retry", worker := some .looping }

/-- The head of the loop of `_run`: a full inbox parks the worker. -/
def RevisionConsumer.turn (c : RevisionConsumer) : RevisionConsumer :=
  match c.worker with
  | some .looping =>
      if c.pending.length = maxPendingEvents then { c with state := .inboxFull, code := none }
      else { c with state := .connecting, code := none, worker := some .subscribing }
  | _ => c

/-- The answer to a subscription: a stream, or an outcome. -/
def RevisionConsumer.answered (c : RevisionConsumer) (outcome : Option Outcome) :
    RevisionConsumer :=
  match c.worker, outcome with
  | some .subscribing, none =>
      { c with state := .streaming, code := none, worker := some (.reading .fresh) }
  | some .subscribing, some outcome => c.settle outcome
  | _, _ => c

/-- One line of the stream, and the event it made the inbox grow by. -/
def RevisionConsumer.line (c : RevisionConsumer) (line : List UInt8) :
    RevisionConsumer × Option ReplayEvent :=
  match c.worker with
  | some (.reading parser) =>
      if c.pending.length = maxPendingEvents then (c.settle .inboxFull, none)
      else match parser.feed line with
        | .more parser => ({ c with worker := some (.reading parser) }, none)
        | .ends outcome => (c.settle outcome, none)
        | .event event =>
            match c.accept event with
            | none => (c.settle .protocolError, none)
            | some accepted =>
                ({ accepted with worker := some (.reading .fresh) },
                  if event.revision = c.received then none else some event)
  | _ => (c, none)

end Worker

section Runs

/-- A host's consumer over all its restarts. `accepted` are the events that came in since
the last reset, but for those that a restart gave up; `acknowledged` are the ones among them
that were acknowledged. -/
structure ConsumerWorld where
  live : Option RevisionConsumer
  disk : Disk
  accepted : List ReplayEvent
  acknowledged : List ReplayEvent
deriving DecidableEq

inductive ConsumerEvent where
  | disk (reads writes : Bool)
  | restart (memberId : String) (initial : Snapshot)
  | crash
  | start (spawns : Bool)
  | turn
  | answered (outcome : Option Outcome)
  | line (line : List UInt8)
  | acknowledge (revision : String)
  | reset (snapshot : Snapshot)
  | close

def ConsumerWorld.initial (file : Option ByteArray) : ConsumerWorld :=
  ⟨none, ⟨file, true, true⟩, [], []⟩

/-- Nothing is left of a process but its files. -/
def ConsumerWorld.crash (w : ConsumerWorld) : ConsumerWorld :=
  { w with live := none, accepted := w.acknowledged }

/-- A step of the consumer's own that touches no file. -/
def ConsumerWorld.change (w : ConsumerWorld) (f : RevisionConsumer → RevisionConsumer) :
    ConsumerWorld :=
  { w with live := w.live.map f }

/-- One step. A process that dies in a call dies before or after what the call does. -/
@[grind =] def ConsumerWorld.step (w : ConsumerWorld) : ConsumerEvent → ConsumerWorld
  | .disk reads writes => { w with disk := { w.disk with reads := reads, writes := writes } }
  | .crash => w.crash
  | .restart memberId initial =>
      match newConsumer memberId initial w.disk with
      | .error _ disk => { w.crash with disk := disk }
      | .ok consumer disk => { w.crash with live := some consumer, disk := disk }
  | .start spawns => w.change (after (RevisionConsumer.start spawns))
  | .turn => w.change RevisionConsumer.turn
  | .answered outcome => w.change fun c => c.answered outcome
  | .line line =>
      match w.live with
      | none => w
      | some c =>
          let (c, event) := c.line line
          { w with live := some c, accepted := w.accepted ++ event.toList }
  | .acknowledge revision =>
      match w.live with
      | none => w
      | some c =>
          match acknowledgeAtSafePoint revision ⟨c, w.disk⟩ with
          | .error _ held => { w with live := some held.consumer, disk := held.disk }
          | .ok () held => { w with
              live := some held.consumer
              disk := held.disk
              acknowledged := w.acknowledged ++
                if revision = c.consumed then [] else c.covered revision }
  | .reset snapshot =>
      match w.live with
      | none => w
      | some c =>
          match resetAtSafePoint snapshot ⟨c, w.disk⟩ with
          | .error _ held => { w with live := some held.consumer, disk := held.disk }
          | .ok () held =>
              { live := some held.consumer, disk := held.disk, accepted := [], acknowledged := [] }
  | .close => w.change RevisionConsumer.close

end Runs

end Imece.CollabRuntime
