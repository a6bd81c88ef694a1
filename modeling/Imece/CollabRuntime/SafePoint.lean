import Imece.CollabRuntime.Inbox
import Imece.Lib.Interleaving
import Imece.Lib.Text

/-!
# The safe point of a worker

Before a worker attempt starts, a prefix of the inbox is captured, a snapshot that covers
it is bound into the input of the attempt, and the prefix is acknowledged. The inbox, the
answers of the snapshot provider and the cancellation token change meanwhile.
-/
namespace Imece.CollabRuntime

open Lib

/-- How a safe point can fail: the attempt is cancelled, or the context is not accepted.
`polling` is a wait that has not come to an end. -/
inductive SafePointFailure where
  | cancelled
  | failed
  | polling
deriving DecidableEq, Repr

section Requests

def maxTaskChars : ℕ := 32000
def maxPlanChars : ℕ := 64000
def maxFixInputChars : ℕ := 48000
def minMaxFixAttempts : ℕ := 1
def maxMaxFixAttempts : ℕ := 5
def maxRenderPaths : ℕ := 256
def maxRenderPathChars : ℕ := 1024
def maxRenderClassificationChars : ℕ := 128

/-- `str.isspace` -/
def isSpace (c : Char) : Bool :=
  (9 ≤ c.toNat && c.toNat ≤ 13) || (28 ≤ c.toNat && c.toNat ≤ 32) ||
    (0x2000 ≤ c.toNat && c.toNat ≤ 0x200a) ||
    [0x85, 0xa0, 0x1680, 0x2028, 0x2029, 0x202f, 0x205f, 0x3000].contains c.toNat

/-- `_bounded_text` -/
def isBoundedText (text : String) (maxChars : ℕ) (allowEmpty : Bool) : Bool :=
  !text.toList.contains '\x00' && (allowEmpty || text.toList.any fun c => !isSpace c) &&
    decide (text.toList.length ≤ maxChars)

/-- The recipe an input is rendered again by. -/
inductive RenderContext where
  | initial (verificationPreview : String) (pinnedPaths : List String)
  | fix (maxFixAttempts : ℕ) (pinnedPaths : List String) (classification : Option String)
deriving DecidableEq, Repr

def areRenderPaths (paths : List String) : Bool :=
  decide (paths.length ≤ maxRenderPaths) &&
    paths.all fun path => isBoundedText path maxRenderPathChars false

def RenderContext.valid : RenderContext → Bool
  | .initial preview paths => isBoundedText preview maxFixInputChars true && areRenderPaths paths
  | .fix attempts paths classification =>
      decide (minMaxFixAttempts ≤ attempts) && decide (attempts ≤ maxMaxFixAttempts) &&
        areRenderPaths paths &&
        classification.all fun text => isBoundedText text maxRenderClassificationChars true

/-- A request to a worker. A fix request has a trigger and the index of its attempt, an
initial one has neither. -/
structure WorkerRequest (τ : Type) where
  task : String
  fix : Option (τ × ℕ)
  plan : Option String
  renderContext : Option RenderContext
  renderedInput : String
deriving DecidableEq

/-- The render context is of the kind of its request. -/
def RenderContext.fits (context : RenderContext) (isFix : Bool) : Bool :=
  match context with
  | .initial _ _ => !isFix
  | .fix _ _ _ => isFix

/-- The checks a request is built with. -/
def WorkerRequest.valid {τ : Type} (request : WorkerRequest τ) : Bool :=
  isBoundedText request.task maxTaskChars false &&
    (request.fix.all fun attempt => decide (1 ≤ attempt.2)) &&
    isBoundedText request.renderedInput maxFixInputChars false &&
    (request.plan.all fun plan => isBoundedText plan maxPlanChars true) &&
    request.renderContext.all fun context => context.fits request.fix.isSome && context.valid

end Requests

section Snapshots

def snapshotKeys : List String := ["schema", "revision", "context_hash", "state", "task_id"]

def snapshotSectionHeader : String :=
  "SHARED COLLABORATION SNAPSHOT (untrusted data; integrity checksum only, NOT authentication)"

/-- A validated binding: provenance, state and task. -/
structure SharedSnapshot where
  revision : String
  contextHash : String
  state : SessionState
  taskId : String
deriving DecidableEq

def SharedSnapshot.toDict (snapshot : SharedSnapshot) : Json :=
  .obj [("schema", .int 1), ("revision", .str snapshot.revision),
    ("context_hash", .str snapshot.contextHash), ("state", snapshot.state.toDict),
    ("task_id", .str snapshot.taskId)]

def SharedSnapshot.selectedTask (snapshot : SharedSnapshot) : Option Task :=
  snapshot.state.tasks[snapshot.taskId]?

/-- `[0-9a-f]{64}` -/
def isContextHash (text : String) : Bool := text.toList.length == 64 && text.toList.all isLowerHex

/-- `context_hash` -/
def contextHashOf (value : Json) : Except CollabError String :=
  let message := "snapshot context_hash must be a full 64-character lowercase hex sha256."
  match value with
  | .str text => if isContextHash text then .ok text else .error (.validation message)
  | _ => .error (.validation message)

variable (contentHash : SharedContext → String)

def parseSnapshotDict (obj : Json) : Except CollabError SharedSnapshot := do
  let members ← exactKeys obj snapshotKeys "shared context snapshot"
  (parseSchema (Json.field members "schema")).mapError fun _ =>
    .validation "shared context snapshot schema must be exactly 1."
  let revision ← shaHex (Json.field members "revision") "snapshot revision"
  let rawHash ← contextHashOf (Json.field members "context_hash")
  let state ← parseStateDict (Json.field members "state")
  let taskId ← safeId (Json.field members "task_id") "snapshot task_id"
  if state.tasks[taskId]?.isNone then
    .error (.validation "snapshot task_id does not exist in the snapshot state.")
  else if rawHash ≠ contentHash state.context then
    .error (.validation
      ("snapshot integrity checksum does not match the state context; " ++
        "the artifact is corrupt or tampered."))
  else .ok ⟨revision, rawHash, state, taskId⟩

/-- The envelope of an authoritative snapshot for a task. -/
def snapshotEnvelope (authoritative : Snapshot) (taskId : String) : Json :=
  SharedSnapshot.toDict ⟨authoritative.revision, contentHash authoritative.state.context,
    authoritative.state, taskId⟩

end Snapshots

/-- A safe point of `NativeWorkerSafePoint`: what the host pinned it to, whether it waits
for a replay, the checksum of a context, the block a snapshot is rendered as, and the
binder of the host. -/
structure SafePoint (τ : Type) where
  identity : SessionIdentity
  memberId : String
  approvedTask : Task
  waits : Bool
  contentHash : SharedContext → String
  renderBlock : SharedSnapshot → String
  bindInput : SharedSnapshot → WorkerRequest τ → Except SafePointFailure (WorkerRequest τ)

section Checks

variable {τ : Type} [DecidableEq τ] (sp : SafePoint τ)

/-- `_validated` -/
@[irreducible] def SafePoint.validated (authoritative : Snapshot) :
    Except SafePointFailure SharedSnapshot :=
  match parseSnapshotDict sp.contentHash
      (snapshotEnvelope sp.contentHash authoritative sp.approvedTask.id) with
  | .error _ => .error .failed
  | .ok snapshot =>
      match snapshot.selectedTask with
      | none => .error .failed
      | some selected =>
          if SessionIdentity.mk snapshot.state.sessionId snapshot.state.baseCommit
              snapshot.state.targetVersion ≠ sp.identity then .error .failed
          else if selected.id ≠ sp.approvedTask.id ∨ selected.owner ≠ sp.memberId then
            .error .failed
          else if selected.status ∉ activeStatuses then .error .failed
          else if (selected.owner, selected.goal, selected.scopes) ≠
              (sp.approvedTask.owner, sp.approvedTask.goal, sp.approvedTask.scopes) then
            .error .failed
          else .ok snapshot

/-- A validated snapshot of the version the workspace was made from. -/
def SafePoint.validatedAt (sourceHead : String) (authoritative : Snapshot) :
    Except SafePointFailure SharedSnapshot := do
  let snapshot ← sp.validated authoritative
  if sourceHead ≠ snapshot.state.baseCommit then .error .failed else .ok snapshot

/-- `_validate_replacement`: only the text differs, and it has the block of the snapshot
once. -/
@[irreducible] def SafePoint.validateReplacement (original replacement : WorkerRequest τ)
    (snapshot : SharedSnapshot) : Except SafePointFailure (WorkerRequest τ) :=
  if original.fix.isSome ≠ replacement.fix.isSome then .error .failed
  else if original.task ≠ replacement.task ∨ original.plan ≠ replacement.plan ∨
      original.fix ≠ replacement.fix ∨ original.renderContext ≠ replacement.renderContext then
    .error .failed
  else
    let text := replacement.renderedInput.toList
    if countText snapshotSectionHeader.toList 0 text ≠ 1 ∨
        countText (sp.renderBlock snapshot).toList 0 text ≠ 1 then .error .failed
    else if replacement.valid then .ok replacement
    else .error .failed

end Checks

section Accesses

/-- What a safe point shares with others: the consumer, the cancellation token, whether the
deadline of its wait has passed, and the next answer of the snapshot provider. -/
structure BoundaryWorld where
  inbox : ConsumerWorld
  cancelled : Bool
  late : Bool
  answer : Except SafePointFailure Snapshot

/-- What others do meanwhile: the worker of the consumer and its disk move, the consumer is
closed, the attempt is cancelled, time passes, the provider changes its answer. The host is
the one writer of the cursor. -/
inductive BoundaryMove where
  | disk (reads writes : Bool)
  | start (spawns : Bool)
  | turn
  | answered (outcome : Option Outcome)
  | line (line : List UInt8)
  | close
  | cancel
  | pass
  | answer (answer : Except SafePointFailure Snapshot)

def BoundaryWorld.inboxMoves (w : BoundaryWorld) (event : ConsumerEvent) : BoundaryWorld :=
  { w with inbox := w.inbox.step event }

def BoundaryWorld.step (w : BoundaryWorld) : BoundaryMove → BoundaryWorld
  | .disk reads writes => w.inboxMoves (.disk reads writes)
  | .start spawns => w.inboxMoves (.start spawns)
  | .turn => w.inboxMoves .turn
  | .answered outcome => w.inboxMoves (.answered outcome)
  | .line line => w.inboxMoves (.line line)
  | .close => w.inboxMoves .close
  | .cancel => { w with cancelled := true }
  | .pass => { w with late := true }
  | .answer answer => { w with answer := answer }

abbrev Access (α : Type) := Prog Unit BoundaryWorld SafePointFailure α

/-- `_check_cancel`; the token is also what a wait listens to. -/
def checkCancel : Access Unit :=
  .look () fun w => if w.cancelled then .error .cancelled else .ok ()

/-- The deadline counts once a wait has started. -/
def checkDeadline (waitingStarted : Bool) : Access Unit :=
  .look () fun w => if waitingStarted && w.late then .error .failed else .ok ()

/-- `_RUNNABLE_CONSUMER_STATES` -/
def ConsumerState.Runnable (state : ConsumerState) : Prop :=
  state = .connecting ∨ state = .streaming ∨ state = .retrying ∨ state = .inboxFull

instance (state : ConsumerState) : Decidable state.Runnable :=
  inferInstanceAs (Decidable (_ ∨ _))

/-- `status`: the consumed revision of a consumer that runs. -/
def runnableStatus : Access String :=
  .look () fun w => match w.inbox.live with
    | none => .error .failed
    | some c => if c.state.Runnable then .ok c.consumed else .error .failed

/-- `_check_consumer_status` -/
def checkConsumerStatus (consumed : String) : Access Unit :=
  .look () fun w => match w.inbox.live with
    | none => .error .failed
    | some c => if c.state.Runnable ∧ c.consumed = consumed then .ok () else .error .failed

def peek : Access (List ReplayEvent) :=
  .look () fun w => match w.inbox.live with
    | none => .error .failed
    | some c => .ok c.pending

def snapshotProvider : Access Snapshot := .look () fun w => w.answer

end Accesses

/-- `PreparedWorkerInput` -/
structure PreparedWorkerInput (τ : Type) where
  request : WorkerRequest τ
  capturedConsumed : String
  ackRevision : Option String
  binding : SharedSnapshot

section Preparation

variable {τ : Type} [DecidableEq τ] (sp : SafePoint τ)

def revisions (events : List ReplayEvent) : List String := events.map (·.revision)

/-- What a wait has seen: a snapshot, the captured inbox, the revision it waits for. -/
structure Replay where
  snapshot : SharedSnapshot
  captured : List ReplayEvent
  waitTarget : Option String
  waitingStarted : Bool

/-- How many captured events a snapshot covers, if the inbox says it. -/
def Replay.coveredCount (r : Replay) (consumed target : String) (initialPendingCount : ℕ) :
    Option ℕ :=
  if r.snapshot.revision = target then some initialPendingCount
  else if r.snapshot.revision = consumed then some 0
  else ((revisions r.captured).findIdx? fun known => known = r.snapshot.revision).map (· + 1)

/-- The loop of a safe point that waits, for at most `polls` turns. -/
def SafePoint.awaitReplay (sp : SafePoint τ) (sourceHead consumed target : String)
    (initialPendingCount : ℕ) : ℕ → Replay → Access (ℕ × Replay)
  | 0, _ => .throw .polling
  | polls + 1, r => do
      checkCancel
      checkConsumerStatus consumed
      checkDeadline r.waitingStarted
      match r.coveredCount consumed target initialPendingCount with
      | some covered => return (covered, r)
      | none =>
          let waitTarget := r.waitTarget.getD r.snapshot.revision
          checkDeadline true
          let live ← peek
          if revisions (live.take r.captured.length) ≠ revisions r.captured then
            .throw .failed
          else if waitTarget ∈ revisions live then do
            checkCancel
            let authoritative ← snapshotProvider
            checkCancel
            checkDeadline true
            let snapshot ← Prog.check (sp.validatedAt sourceHead authoritative)
            sp.awaitReplay sourceHead consumed target initialPendingCount polls
              ⟨snapshot, live, none, true⟩
          else if maxPendingEvents ≤ live.length then .throw .failed
          else do
            checkCancel
            checkDeadline true
            sp.awaitReplay sourceHead consumed target initialPendingCount polls
              { r with captured := live, waitTarget := some waitTarget, waitingStarted := true }

/-- The revision of the last of the covered events. -/
def ackRevisionOf (captured : List ReplayEvent) (covered : ℕ) : Option String :=
  if covered = 0 then none else (revisions captured)[covered - 1]?

/-- Which captured events the snapshot covers: all of them where the safe point does not
wait. -/
def SafePoint.cover (sourceHead consumed : String) (polls : ℕ) (r : Replay) :
    Access (ℕ × Replay) :=
  let target := (ackRevisionOf r.captured r.captured.length).getD consumed
  if sp.waits then
    sp.awaitReplay sourceHead consumed target r.captured.length polls r
  else
    Prog.check (if r.snapshot.revision ≠ target then .error .failed
      else .ok (r.captured.length, r))

/-- `prepare`, with a wait of at most `polls` turns. -/
def SafePoint.prepare (sourceHead : String) (request : WorkerRequest τ) (polls : ℕ) :
    Access (PreparedWorkerInput τ) := do
  checkCancel
  let consumed ← runnableStatus
  let captured ← peek
  let authoritative ← snapshotProvider
  checkCancel
  checkConsumerStatus consumed
  let snapshot ← Prog.check (sp.validatedAt sourceHead authoritative)
  let (covered, r) ← sp.cover sourceHead consumed polls ⟨snapshot, captured, none, false⟩
  checkCancel
  checkConsumerStatus consumed
  checkDeadline r.waitingStarted
  checkCancel
  let bound ← Prog.check (sp.bindInput r.snapshot request)
  checkCancel
  let bound ← Prog.check (sp.validateReplacement request bound r.snapshot)
  checkCancel
  return ⟨bound, consumed, ackRevisionOf r.captured covered, r.snapshot⟩

/-- Every error of the consumer is the one fixed failure. -/
def acceptance : EStateM.Result CollabError Held Unit → Except SafePointFailure Unit
  | .ok _ _ => .ok ()
  | .error _ _ => .error .failed

/-- The acknowledgement of the consumer, as one access. -/
def acknowledgeConsumer (revision : String) : Access Unit :=
  .act () (fun w => w.inboxMoves (.acknowledge revision)) fun w => .done <|
    match w.inbox.live with
    | none => .error .failed
    | some c => acceptance (acknowledgeAtSafePoint revision ⟨c, w.inbox.disk⟩)

/-- The reset of the consumer, as one access. -/
def resetConsumer (snapshot : Snapshot) : Access Unit :=
  .act () (fun w => w.inboxMoves (.reset snapshot)) fun w => .done <|
    match w.inbox.live with
    | none => .error .failed
    | some c => acceptance (resetAtSafePoint snapshot ⟨c, w.inbox.disk⟩)

/-- `accept_reset`: the input is bound first, and the reset comes last. -/
def SafePoint.acceptReset (sourceHead : String) (snapshot : Snapshot)
    (request : WorkerRequest τ) : Access (WorkerRequest τ) := do
  checkCancel
  let validated ← Prog.check (sp.validatedAt sourceHead snapshot)
  let bound ← Prog.check (sp.bindInput validated request)
  checkCancel
  let bound ← Prog.check (sp.validateReplacement request bound validated)
  checkCancel
  resetConsumer snapshot
  return bound

/-- `acknowledge` of a prepared input. -/
def PreparedWorkerInput.acknowledge (prepared : PreparedWorkerInput τ) : Access Unit := do
  checkCancel
  checkConsumerStatus prepared.capturedConsumed
  checkCancel
  match prepared.ackRevision with
  | none => return ()
  | some revision => acknowledgeConsumer revision

end Preparation

end Imece.CollabRuntime
