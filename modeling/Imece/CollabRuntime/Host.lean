import Imece.CollabRuntime.SafePoint

/-!
# The collaboration session of a run

A host previews and approves snapshots; a run is bound to an approved one and owns, while
it is active, one consumer, its safe point and the lease of its checkpoint. Operations of a
session exclude each other; its consumer's worker, the acknowledgements of inputs that it
prepared and the recording of their receipts do not wait for them.
-/
namespace Imece.CollabRuntime

open Lib

def hostTtl : ℕ := 600000
def hostMaxRecords : ℕ := 8
def participantTtl : ℕ := 300000
def maxParticipantTickets : ℕ := 4

/-- The codes of `HostCollaborationError` and `ParticipantCommandError`; `safePoint` is the
error of a safe point. -/
inductive HostError where
  | invalid
  | stale
  | busy
  | storage
  | cancelled
  | expired
  | safePoint
deriving DecidableEq, Repr

/-- A `_Record` of the host, under its preview id; its approval handle is the same. -/
structure HostRecord where
  id : ℕ
  root : String
  memberId : String
  taskId : String
  snapshot : Snapshot
  task : Task
  created : ℕ
deriving DecidableEq

def SessionState.identity (state : SessionState) : SessionIdentity :=
  ⟨state.sessionId, state.baseCommit, state.targetVersion⟩

/-- What a session is pinned to when it is bound to its run. -/
structure HostIdentity where
  root : String
  memberId : String
  taskId : String
  session : SessionIdentity
deriving DecidableEq

def HostRecord.identity (record : HostRecord) : HostIdentity :=
  ⟨record.root, record.memberId, record.taskId, record.snapshot.state.identity⟩

/-- What `status` reports of a consumer. The state of a session that was never active is
none: `inactive`. -/
structure HostStatus where
  state : Option ConsumerState
  code : Option String
  consumedRevision : String
  receivedRevision : String
  pendingCount : ℕ
deriving DecidableEq, Repr

def RevisionConsumer.status (c : RevisionConsumer) : HostStatus :=
  ⟨some c.state, c.code, c.consumed, c.received, c.pending.length⟩

/-- `_PreparedHostInput`: a prepared input with the consumer, the record and the generation
it was made with. -/
structure HostInput (τ : Type) where
  prepared : PreparedWorkerInput τ
  activation : ℕ
  record : ℕ
  generation : ℕ

/-- An acknowledged input whose binding is to be recorded; `read` is the detached binding
and the consumed revision, once they are read. -/
structure HostReceipt (τ : Type) where
  input : HostInput τ
  read : Option (SharedSnapshot × String)

/-- A reviewed change of the status of the own task, with what it was issued under. -/
structure ParticipantTicket where
  id : ℕ
  targetStatus : String
  expectedRevision : String
  created : ℕ
  record : HostRecord
  generation : ℕ
deriving DecidableEq

/-- One compare-and-swap command. -/
structure StatusCommand where
  ticket : ℕ
  taskId : String
  status : String
  expectedRevision : String
deriving DecidableEq

/-- What happened, for the record: a snapshot was approved, with or without the consent to a
reset; the checkpoint was created; a consent was spent; an input was acknowledged, and may
have moved the cursor; its binding was recorded; a command was sent. -/
inductive HostFact where
  | approved (record : ℕ) (reset : Bool) (revision : String)
  | created (revision : String)
  | spent (record : ℕ) (revision : String)
  | acknowledged (binding : SharedSnapshot) (moved : Option String)
  | recorded (binding : SharedSnapshot)
  | sent (command : StatusCommand)
deriving DecidableEq

/-- The host and the session of one run. `resets` are the records whose consent to a reset
is not spent; `log` is its history. -/
structure HostWorld (τ : Type) where
  now : ℕ
  drawn : ℕ
  candidates : List HostRecord
  approved : List HostRecord
  resets : List ℕ
  pinned : HostIdentity
  record : HostRecord
  inbox : ConsumerWorld
  safePoint : Bool
  lease : Bool
  active : Bool
  closed : Bool
  generation : ℕ
  activation : ℕ
  acceptedBinding : Option SharedSnapshot
  last : HostStatus
  inputs : List (HostInput τ)
  receipts : List (HostReceipt τ)
  tickets : List ParticipantTicket
  log : List HostFact

abbrev HostCall (τ : Type) := EStateM HostError (HostWorld τ) Unit

section Approvals

variable {τ : Type}

/-- `_prune` -/
def HostWorld.prune (w : HostWorld τ) : HostWorld τ :=
  { w with
    candidates := w.candidates.filter fun record => w.now - record.created ≤ hostTtl
    approved := w.approved.filter fun record => w.now - record.created ≤ hostTtl }

/-- `preview`, with the head of the repository and the answer of the session. -/
def preview (root memberId taskId : String) (head : Option String) (answer : Option Snapshot) :
    HostCall τ := fun w =>
  if ¬ (isSafeId memberId ∧ isSafeId taskId) then .error .invalid w
  else match head, answer with
    | some head, some snapshot =>
        match snapshot.state.tasks[taskId]? with
        | none => .error .invalid w
        | some task =>
            if snapshot.state.baseCommit ≠ head ∨ task.owner ≠ memberId ∨
                task.status ∉ activeStatuses then .error .invalid w
            else
              let w := w.prune
              if hostMaxRecords ≤ w.candidates.length + w.approved.length then
                .error .invalid w
              else
                let record := ⟨w.drawn, root, memberId, taskId, snapshot, task, w.now⟩
                .ok () { w with
                  candidates := w.candidates ++ [record]
                  drawn := w.drawn + 1 }
    | _, _ => .error .invalid w

/-- `approve`: a candidate is approved once, with or without the consent to a reset. -/
def approve (id : ℕ) (root : String) (resetCursor : Bool) (head : Option String) :
    HostCall τ := fun w =>
  let w := w.prune
  match w.candidates.find? fun record => record.id = id, head with
  | some record, some head =>
      if record.root ≠ root then .error .invalid w
      else if head ≠ record.snapshot.state.baseCommit then .error .stale w
      else .ok () { w with
        candidates := w.candidates.filter fun other => other.id ≠ id
        approved := w.approved ++ [record]
        resets := if resetCursor then record.id :: w.resets else w.resets
        log := w.log ++ [.approved record.id resetCursor record.snapshot.revision] }
  | _, _ => .error .invalid w

/-- `drop_preview` -/
def dropPreview (id : ℕ) : HostCall τ := fun w =>
  .ok () { w with candidates := w.candidates.filter fun record => record.id ≠ id }

/-- `release` -/
def release (id : ℕ) : HostCall τ := fun w =>
  if w.approved.any fun record => record.id = id then
    .ok () { w with approved := w.approved.filter fun record => record.id ≠ id }
  else .error .invalid w

/-- `clear`, for one root or for all. -/
def clear (root : Option String) : HostCall τ := fun w =>
  let kept (record : HostRecord) : Bool := root.any fun root => record.root ≠ root
  .ok () { w with candidates := w.candidates.filter kept, approved := w.approved.filter kept }

/-- What two approvals of one session have in common. -/
def HostRecord.SameSession (old new : HostRecord) : Prop :=
  old.snapshot.state.identity = new.snapshot.state.identity ∧ old.memberId = new.memberId ∧
    old.taskId = new.taskId ∧ old.task.owner = new.task.owner ∧
    old.task.goal = new.task.goal ∧ old.task.scopes = new.task.scopes

instance (old new : HostRecord) : Decidable (old.SameSession new) :=
  inferInstanceAs (Decidable (_ ∧ _))

/-- `reapprove`: only while idle, and for the same session. -/
def reapprove (id : ℕ) (head : Option String) : HostCall τ := fun w =>
  let w := { w with tickets := [] }
  if w.closed ∨ w.active then .error .busy w
  else
    let w := w.prune
    match w.approved.find? fun record => record.id = id with
    | none => .error .invalid w
    | some candidate =>
        if candidate.root ≠ w.record.root then .error .invalid w
        else if ¬ w.record.SameSession candidate then .error .stale w
        else match head with
          | none => .error .invalid w
          | some head =>
              if head ≠ w.record.snapshot.state.baseCommit then .error .stale w
              else .ok () { w with
                approved := w.approved.filter fun record => record.id ≠ id
                record := candidate }

end Approvals

section Activation

variable {τ : Type}

/-- `_fresh_approval_check`, against the answer of the session. -/
def HostWorld.freshApprovalCheck (w : HostWorld τ) (fresh : Option Snapshot) :
    Except HostError Unit :=
  match fresh with
  | none => .error .invalid
  | some fresh =>
      match fresh.state.tasks[w.record.taskId]? with
      | none => .error .invalid
      | some task =>
          if fresh.state.identity ≠ w.record.snapshot.state.identity ∨
              (task.owner, task.goal, task.scopes) ≠
                (w.record.task.owner, w.record.task.goal, w.record.task.scopes) ∨
              task.status ∉ activeStatuses then .error .stale
          else .ok ()

/-- The parts of a safe point that the record of a session decides. -/
def HostRecord.safePoint (record : HostRecord) (sp : SafePoint τ) : SafePoint τ :=
  { sp with
    identity := record.snapshot.state.identity
    memberId := record.memberId
    approvedTask := record.task
    waits := true }

/-- What the checkpoint of the session says. -/
def HostWorld.cursor (w : HostWorld τ) : Option String :=
  w.inbox.disk.checkpoint w.record.snapshot.state.identity w.record.memberId

/-- The consumer and the lease that a cleanup could not close are kept, and the session is
active without a safe point until they are. -/
structure CleanupSeen where
  consumerCloses : Bool
  leaseCloses : Bool

/-- `_cleanup_partial` -/
def HostWorld.cleanupPartial (w : HostWorld τ) (consumer : Option RevisionConsumer)
    (lease : Bool) (seen : CleanupSeen) : HostWorld τ :=
  let consumerClosed := consumer.isNone || seen.consumerCloses
  let leaseClosed := !lease || (consumerClosed && seen.leaseCloses)
  let consumer := if seen.consumerCloses then consumer.map RevisionConsumer.close else consumer
  if consumerClosed && leaseClosed then { w with inbox := { w.inbox with live := none } }
  else { w with
    inbox := { w.inbox with live := consumer }
    lease := lease
    safePoint := false
    active := true }

/-- What an activation meets: the workspace, the head of the repository, a fresh answer of
the session, whether the cursor directory is there and the lease free, whether the thread
of the worker starts, where it is cancelled, and how a cleanup goes. -/
structure ActivateSeen where
  workspaceRoot : String
  workspaceHead : String
  head : Option String
  fresh : Option Snapshot
  storage : Bool
  leaseFree : Bool
  spawns : Bool
  cancelledAtFirst : Bool
  cancelledBeforeStart : Bool
  cancelledAfterStart : Bool
  cleanup : CleanupSeen

/-- The checks before an activation takes anything. -/
def HostWorld.activateChecks (w : HostWorld τ) (seen : ActivateSeen) : Except HostError Unit := do
  if seen.cancelledAtFirst then .error .cancelled
  if seen.workspaceRoot ≠ w.record.root ∨
      seen.workspaceHead ≠ w.record.snapshot.state.baseCommit then .error .stale
  match seen.head with
  | none => .error .invalid
  | some head => if head ≠ w.record.snapshot.state.baseCommit then .error .stale
  w.freshApprovalCheck seen.fresh
  if ¬ seen.storage then .error .storage
  if ¬ seen.leaseFree then .error .busy

/-- The new consumer, where the checkpoint is or, if there is none, at the approved
snapshot. -/
def HostWorld.newConsumer (w : HostWorld τ) (consumer : RevisionConsumer) (disk : Disk) :
    HostWorld τ :=
  { w with
    inbox := { w.inbox.crash with live := some consumer, disk := disk }
    activation := w.activation + 1
    log := w.log ++ if w.cursor = none then [.created w.record.snapshot.revision] else [] }

/-- The session owns the consumer, its safe point and the lease. -/
def HostWorld.opened (w : HostWorld τ) (consumer : RevisionConsumer) : HostWorld τ :=
  { w with
    inbox := { w.inbox with live := some consumer }
    safePoint := true
    lease := true
    active := true }

/-- `activate`: a consumer whose reset is pending is not started. -/
def activate [DecidableEq τ] (sp : SafePoint τ) (seen : ActivateSeen) : HostCall τ := fun w =>
  let w := { w with tickets := [] }
  if w.closed ∨ w.active then .error .invalid w
  else match w.activateChecks seen with
    | .error e => .error e w
    | .ok () =>
        match Imece.CollabRuntime.newConsumer w.record.memberId w.record.snapshot
            w.inbox.disk with
        | .error _ disk =>
            let w := { w with inbox := { w.inbox with disk := disk } }
            .error .invalid (w.cleanupPartial none true seen.cleanup)
        | .ok consumer disk =>
            let w := w.newConsumer consumer disk
            match (w.record.safePoint sp).validated w.record.snapshot with
            | .error _ => .error .invalid (w.cleanupPartial (some consumer) true seen.cleanup)
            | .ok _ =>
                if w.record.id ∈ w.resets then .ok () (w.opened consumer)
                else if seen.cancelledBeforeStart then
                  .error .cancelled (w.cleanupPartial (some consumer) true seen.cleanup)
                else match RevisionConsumer.start seen.spawns consumer with
                  | .error _ consumer =>
                      .error .invalid (w.cleanupPartial (some consumer) true seen.cleanup)
                  | .ok () consumer =>
                      if seen.cancelledAfterStart then
                        .error .cancelled (w.cleanupPartial (some consumer) true seen.cleanup)
                      else .ok () (w.opened consumer)

end Activation

section Workers

variable {τ : Type}

/-- What goes on around an operation: the worker of the consumer and the disk move, the
token is cancelled, time passes, the session answers. -/
inductive WorkerMove where
  | disk (reads writes : Bool)
  | turn
  | answered (outcome : Option Outcome)
  | line (line : List UInt8)
  | cancel
  | pass
  | answer (answer : Except SafePointFailure Snapshot)

def WorkerMove.boundary : WorkerMove → BoundaryMove
  | .disk reads writes => .disk reads writes
  | .turn => .turn
  | .answered given => .answered given
  | .line bytes => .line bytes
  | .cancel => .cancel
  | .pass => .pass
  | .answer given => .answer given

def BoundaryWorld.worker (w : BoundaryWorld) (move : WorkerMove) : BoundaryWorld :=
  w.step move.boundary

/-- What accesses meet, and what goes on before each of them. -/
structure Surroundings where
  cancelled : Bool
  late : Bool
  answer : Except SafePointFailure Snapshot
  schedule : List (List WorkerMove)

def HostWorld.boundary (w : HostWorld τ) (s : Surroundings) : BoundaryWorld :=
  ⟨w.inbox, s.cancelled, s.late, s.answer⟩

/-- The accesses of an operation among what goes on around it. -/
def HostWorld.access {α : Type} (w : HostWorld τ) (p : Access α) (s : Surroundings) :
    Option (Except SafePointFailure α) × HostWorld τ :=
  let (result, b) := p.among BoundaryWorld.worker s.schedule (w.boundary s)
  (result, { w with inbox := b.inbox })

/-- The worker moves between two steps of an operation. -/
def HostWorld.moves (w : HostWorld τ) (moves : List WorkerMove) : HostWorld τ :=
  { w with
    inbox := (Machine.run BoundaryWorld.worker ⟨w.inbox, false, false, .error .failed⟩
      moves).inbox }

end Workers

section Inputs

variable {τ : Type} [DecidableEq τ]

/-- What a preparation meets. -/
structure PrepareSeen where
  sourceHead : String
  polls : ℕ
  fresh : Option Snapshot
  spawns : Bool
  cancelledAtFirst : Bool
  cancelledBeforeStart : Bool
  cancelledAfterStart : Bool
  reset : Surroundings
  prepare : Surroundings

/-- The preparation of an input by the safe point of the session. -/
def prepareInput (sp : SafePoint τ) (request : WorkerRequest τ) (seen : PrepareSeen) :
    HostCall τ := fun w =>
  let (result, w) := w.access
    ((w.record.safePoint sp).prepare seen.sourceHead request seen.polls) seen.prepare
  match result with
  | some (.ok prepared) => .ok () { w with
      inputs := w.inputs ++ [⟨prepared, w.activation, w.record.id, w.generation⟩] }
  | _ => .error .safePoint w

/-- The start of the consumer after its reset. -/
def startConsumer (spawns : Bool) : HostCall τ := fun w =>
  match w.inbox.live with
  | none => .error .invalid w
  | some c =>
      match RevisionConsumer.start spawns c with
      | .error _ c => .error .invalid { w with inbox := { w.inbox with live := some c } }
      | .ok () c => .ok () { w with inbox := { w.inbox with live := some c } }

/-- The consent of the record is spent. -/
def HostWorld.spend (w : HostWorld τ) : HostWorld τ :=
  { w with
    resets := w.resets.filter fun id => id ≠ w.record.id
    log := w.log ++ [.spent w.record.id w.record.snapshot.revision] }

/-- `prepare`: a pending reset comes first, and spends the consent of the record. -/
def prepare (sp : SafePoint τ) (request : WorkerRequest τ) (seen : PrepareSeen) :
    HostCall τ := fun w =>
  if ¬ (w.active ∧ w.safePoint) then .error .invalid w
  else if seen.cancelledAtFirst then .error .cancelled w
  else if w.record.id ∈ w.resets then
    match w.freshApprovalCheck seen.fresh with
    | .error e => .error e w
    | .ok () =>
        let (result, w) := w.access
          ((w.record.safePoint sp).acceptReset seen.sourceHead w.record.snapshot request) seen.reset
        match result with
        | some (.ok bound) =>
            let w := w.spend
            if seen.cancelledBeforeStart then .error .cancelled w
            else match startConsumer seen.spawns w with
              | .error e w => .error e w
              | .ok () w =>
                  if seen.cancelledAfterStart then .error .cancelled w
                  else prepareInput sp bound seen w
        | _ => .error .safePoint w
  else prepareInput sp request seen w

/-- `acknowledge` of a prepared input, up to its receipt. The consumer of an earlier
activation is closed. -/
def acknowledgeInput (index : ℕ) (s : Surroundings) : HostCall τ := fun w =>
  match w.inputs[index]? with
  | none => .error .safePoint w
  | some input =>
      if input.activation ≠ w.activation then .error .safePoint w
      else
        let (result, w) := w.access input.prepared.acknowledge s
        match result with
        | some (.ok ()) => .ok () { w with
            receipts := w.receipts ++ [⟨input, none⟩]
            log := w.log ++ [.acknowledged input.prepared.binding input.prepared.ackRevision] }
        | _ => .error .safePoint w

/-- The first half of `_record_accepted_binding`, with the checks of `_immutable_snapshot`.
The receipt of a consumer that the session has let go is dropped. -/
def readReceipt (sp : SafePoint τ) (index : ℕ) : HostCall τ := fun w =>
  match w.receipts[index]? with
  | none => .ok () w
  | some receipt =>
      match parseSnapshotDict sp.contentHash receipt.input.prepared.binding.toDict,
          w.inbox.live with
      | .ok detached, some c =>
          if w.activation = receipt.input.activation then .ok () { w with
            receipts := w.receipts.set index { receipt with read := some (detached, c.consumed) } }
          else .ok () { w with receipts := w.receipts.eraseIdx index }
      | _, _ => .ok () { w with receipts := w.receipts.eraseIdx index }

/-- The second half of `_record_accepted_binding`. -/
def recordAcceptedBinding (index : ℕ) : HostCall τ := fun w =>
  match w.receipts[index]? with
  | some ⟨input, some (detached, consumed)⟩ =>
      let w := { w with receipts := w.receipts.eraseIdx index }
      if w.active ∧ w.generation = input.generation ∧ w.activation = input.activation ∧
          w.inbox.live.isSome ∧ w.safePoint ∧ w.record.id = input.record ∧
          consumed = input.prepared.binding.revision then
        .ok () { w with
          acceptedBinding := some detached
          log := w.log ++ [.recorded detached] }
      else .ok () w
  | _ => .ok () w

end Inputs

section Cleanup

variable {τ : Type}

/-- What a deactivation meets: what the worker does between the look at its status and its
end, and whether the consumer and the lease close. -/
structure DeactivateSeen where
  between : List WorkerMove
  closes : CleanupSeen

/-- The status that is kept: a state that asks for recovery survives the close. -/
def keptStatus (before after : HostStatus) : HostStatus :=
  if before.state.any fun state => state.Terminal then
    { after with state := before.state, code := before.code }
  else after

/-- Nothing is owned any more. -/
def HostWorld.released (w : HostWorld τ) : HostWorld τ :=
  { w with
    inbox := w.inbox.crash
    safePoint := false
    lease := false
    active := false
    generation := w.generation + 1 }

/-- The end of a deactivation, once the consumer is closed. -/
def releaseLease (leaseCloses : Bool) : HostCall τ := fun w =>
  if w.lease ∧ leaseCloses then .ok () w.released else .error .storage w

/-- `deactivate` -/
def deactivate (seen : DeactivateSeen) : HostCall τ := fun w =>
  if ¬ w.active then .ok () w
  else match w.inbox.live with
    | none => releaseLease seen.closes.leaseCloses { w with last := keptStatus w.last w.last }
    | some before =>
        let w := w.moves seen.between
        match w.inbox.live with
        | none => .error .storage w
        | some c =>
            if ¬ seen.closes.consumerCloses then .error .storage w
            else releaseLease seen.closes.leaseCloses { w with
              inbox := { w.inbox with live := some c.close }
              last := keptStatus before.status c.close.status }

/-- `close` -/
def closeSession (seen : DeactivateSeen) : HostCall τ := fun w =>
  match deactivate seen { w with tickets := [] } with
  | .error e w => .error e w
  | .ok () w => .ok () { w with closed := true }

/-- `status` -/
def HostWorld.status (w : HostWorld τ) : HostStatus :=
  if w.active then (w.inbox.live.map RevisionConsumer.status).getD w.last else w.last

end Cleanup

section Tickets

variable {τ : Type}

/-- `_prune_participant_tickets` -/
def HostWorld.pruneTickets (w : HostWorld τ) : HostWorld τ :=
  { w with tickets := w.tickets.filter fun ticket => w.now - ticket.created < participantTtl }

/-- One turn of the loop that makes room: the oldest ticket goes. -/
def evictOldest (tickets : List ParticipantTicket) : List ParticipantTicket :=
  match tickets.minOn? (·.created) with
  | none => []
  | some oldest => tickets.erase oldest

def makeRoom (tickets : List ParticipantTicket) : List ParticipantTicket :=
  evictOldest^[tickets.length + 1 - maxParticipantTickets] tickets

/-- `preview_task_status`, with the two looks at the head and the answer of the session. -/
def previewTaskStatus (targetStatus : String) (head headAgain : Option String)
    (fresh : Option Snapshot) : HostCall τ := fun w =>
  if targetStatus ∉ activeStatuses then .error .invalid w
  else if w.closed ∨ w.active then .error .busy w
  else if w.record.identity ≠ w.pinned then .error .stale w
  else if head ≠ some w.record.snapshot.state.baseCommit then .error .stale w
  else match fresh with
    | none => .error .stale w
    | some fresh =>
        match fresh.state.tasks[w.record.taskId]? with
        | none => .error .stale w
        | some task =>
            if fresh.state.identity ≠ w.record.snapshot.state.identity ∨
                task.owner ≠ w.record.memberId ∨ task.status ∉ activeStatuses then
              .error .stale w
            else if headAgain ≠ some w.record.snapshot.state.baseCommit then .error .stale w
            else
              let w := w.pruneTickets
              let ticket := ⟨w.drawn, targetStatus, fresh.revision, w.now, w.record, w.generation⟩
              .ok () { w with
                tickets := makeRoom w.tickets ++ [ticket]
                drawn := w.drawn + 1 }

/-- `confirm_task_status`, up to the reply of the server: the ticket is spent first. -/
def confirmTaskStatus (id : ℕ) (head : Option String) : HostCall τ := fun w =>
  if w.closed ∨ w.active then .error .busy w
  else
    let w := w.pruneTickets
    match w.tickets.find? fun ticket => ticket.id = id with
    | none => .error .expired w
    | some ticket =>
        if ticket.record ≠ w.record ∨ ticket.generation ≠ w.generation ∨
            w.record.identity ≠ w.pinned then .error .stale w
        else if head ≠ some w.record.snapshot.state.baseCommit then .error .stale w
        else .ok () { w with
          tickets := w.tickets.filter fun other => other.id ≠ id
          log := w.log ++ [.sent ⟨id, w.record.taskId, ticket.targetStatus,
            ticket.expectedRevision⟩] }

/-- `discard_task_status` -/
def discardTaskStatus (id : ℕ) : HostCall τ := fun w =>
  .ok () { w with tickets := w.tickets.filter fun ticket => ticket.id ≠ id }

end Tickets

section Runs

variable {τ : Type}

inductive HostEvent (τ : Type) where
  | elapse (time : ℕ)
  | worker (move : WorkerMove)
  | preview (root memberId taskId : String) (head : Option String) (answer : Option Snapshot)
  | approve (id : ℕ) (root : String) (resetCursor : Bool) (head : Option String)
  | dropPreview (id : ℕ)
  | release (id : ℕ)
  | clear (root : Option String)
  | reapprove (id : ℕ) (head : Option String)
  | activate (seen : ActivateSeen)
  | prepare (request : WorkerRequest τ) (seen : PrepareSeen)
  | acknowledge (index : ℕ) (surroundings : Surroundings)
  | receipt (index : ℕ)
  | record (index : ℕ)
  | deactivate (seen : DeactivateSeen)
  | close (seen : DeactivateSeen)
  | previewTask (targetStatus : String) (head headAgain : Option String) (fresh : Option Snapshot)
  | confirmTask (id : ℕ) (head : Option String)
  | discardTask (id : ℕ)

variable [DecidableEq τ]

/-- One step of a host and a session. -/
def HostWorld.step (sp : SafePoint τ) (w : HostWorld τ) : HostEvent τ → HostWorld τ
  | .elapse time => { w with now := w.now + time }
  | .worker move => w.moves [move]
  | .preview root memberId taskId head answer =>
      after (CollabRuntime.preview root memberId taskId head answer) w
  | .approve id root resetCursor head => after (CollabRuntime.approve id root resetCursor head) w
  | .dropPreview id => after (CollabRuntime.dropPreview id) w
  | .release id => after (CollabRuntime.release id) w
  | .clear root => after (CollabRuntime.clear root) w
  | .reapprove id head => after (CollabRuntime.reapprove id head) w
  | .activate seen => after (CollabRuntime.activate sp seen) w
  | .prepare request seen => after (CollabRuntime.prepare sp request seen) w
  | .acknowledge index surroundings => after (acknowledgeInput index surroundings) w
  | .receipt index => after (readReceipt sp index) w
  | .record index => after (recordAcceptedBinding index) w
  | .deactivate seen => after (CollabRuntime.deactivate seen) w
  | .close seen => after (closeSession seen) w
  | .previewTask targetStatus head headAgain fresh =>
      after (previewTaskStatus targetStatus head headAgain fresh) w
  | .confirmTask id head => after (confirmTaskStatus id head) w
  | .discardTask id => after (discardTaskStatus id) w

/-- A host at the moment it binds a run to one of its approved records. -/
structure BindingHost where
  now : ℕ
  drawn : ℕ
  candidates : List HostRecord
  approved : List HostRecord
  resets : List ℕ
  record : HostRecord
  bound : record ∈ approved
  distinct : ((candidates ++ approved).map (·.id)).Nodup
  known : ∀ other ∈ candidates ++ approved, other.id < drawn
  consented : ∀ id ∈ resets, ∃ other ∈ approved, other.id = id

/-- `bind_run`: a session that has just been bound. -/
def HostWorld.initial (host : BindingHost) (file : Option ByteArray) : HostWorld τ where
  now := host.now
  drawn := host.drawn
  candidates := host.candidates
  approved := host.approved
  resets := host.resets
  pinned := host.record.identity
  record := host.record
  inbox := .initial file
  safePoint := false
  lease := false
  active := false
  closed := false
  generation := 0
  activation := 0
  acceptedBinding := none
  last := ⟨none, none, host.record.snapshot.revision, host.record.snapshot.revision, 0⟩
  inputs := []
  receipts := []
  tickets := []
  log := host.approved.map fun record =>
    .approved record.id (decide (record.id ∈ host.resets)) record.snapshot.revision

end Runs

end Imece.CollabRuntime
