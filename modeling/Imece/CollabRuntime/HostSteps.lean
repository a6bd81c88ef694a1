import Imece.CollabRuntime.Boundary
import Imece.CollabRuntime.Host

/-!
# What the operations of a session do

Every operation ends in one of a few ways, and leaves the parts of the session alone that
it does not name.
-/
namespace Imece.CollabRuntime

open Lib

section Approvals

variable {τ : Type} (w : HostWorld τ)

lemma preview_cases (root memberId taskId : String) (head : Option String)
    (answer : Option Snapshot) :
    (∃ e, preview root memberId taskId head answer w = .error e w) ∨
      (∃ e, preview root memberId taskId head answer w = .error e w.prune) ∨
      ∃ record : HostRecord, record.id = w.drawn ∧
        preview root memberId taskId head answer w = .ok () { w.prune with
          candidates := w.prune.candidates ++ [record]
          drawn := w.drawn + 1 } := by
  unfold preview
  split
  · exact Or.inl ⟨_, rfl⟩
  · split
    · split
      · exact Or.inl ⟨_, rfl⟩
      · split
        · exact Or.inl ⟨_, rfl⟩
        · dsimp only
          split
          · exact Or.inr (Or.inl ⟨_, rfl⟩)
          · exact Or.inr (Or.inr ⟨_, rfl, rfl⟩)
    · exact Or.inl ⟨_, rfl⟩

lemma approve_cases (id : ℕ) (root : String) (resetCursor : Bool) (head : Option String) :
    (∃ e, approve id root resetCursor head w = .error e w.prune) ∨
      ∃ record ∈ w.prune.candidates, record.id = id ∧
        approve id root resetCursor head w = .ok () { w.prune with
          candidates := w.prune.candidates.filter fun other => other.id ≠ id
          approved := w.prune.approved ++ [record]
          resets := if resetCursor then id :: w.resets else w.resets
          log := w.log ++ [.approved id resetCursor record.snapshot.revision] } := by
  unfold approve
  dsimp only
  split
  · rename_i record head hfound
    split
    · exact Or.inl ⟨_, rfl⟩
    · split
      · exact Or.inl ⟨_, rfl⟩
      · have hid := List.find?_some hfound
        simp only [decide_eq_true_eq] at hid
        subst hid
        exact Or.inr ⟨record, List.mem_of_find?_eq_some hfound, rfl, rfl⟩
  · exact Or.inl ⟨_, rfl⟩

/-- A new approval replaces the old one only while the session is idle, and is one of the
same session. -/
lemma reapprove_cases (id : ℕ) (head : Option String) :
    let idle := { w with tickets := [] }
    (∃ e, reapprove id head w = .error e idle) ∨
      (∃ e, reapprove id head w = .error e idle.prune) ∨
      w.active = false ∧ ∃ candidate ∈ idle.prune.approved, candidate.id = id ∧
        candidate.root = w.record.root ∧ w.record.SameSession candidate ∧
        reapprove id head w = .ok () { idle.prune with
          approved := idle.prune.approved.filter fun record => record.id ≠ id
          record := candidate } := by
  unfold reapprove
  dsimp only
  split
  · exact Or.inl ⟨_, rfl⟩
  · rename_i hidle
    split
    · exact Or.inr (Or.inl ⟨_, rfl⟩)
    · rename_i candidate hfound
      split
      · exact Or.inr (Or.inl ⟨_, rfl⟩)
      · rename_i hroot
        split
        · exact Or.inr (Or.inl ⟨_, rfl⟩)
        · rename_i hsame
          split
          · exact Or.inr (Or.inl ⟨_, rfl⟩)
          · split
            · exact Or.inr (Or.inl ⟨_, rfl⟩)
            · have hid := List.find?_some hfound
              simp only [decide_eq_true_eq] at hid
              push Not at hidle hroot hsame
              exact Or.inr (Or.inr ⟨eq_false_of_ne_true hidle.2, candidate,
                List.mem_of_find?_eq_some hfound, hid, hroot, hsame, rfl⟩)

end Approvals

section Accesses

/-- The worker of the consumer and its disk have moved. -/
def ConsumerWorld.Worked (inbox inbox' : ConsumerWorld) : Prop :=
  ∃ b : BoundaryWorld, ∃ moves, b.inbox = inbox ∧
    inbox' = (Machine.run BoundaryWorld.worker b moves).inbox

variable {τ : Type} (w : HostWorld τ)

lemma HostWorld.worked_moves (moves : List WorkerMove) : w.inbox.Worked (w.moves moves).inbox :=
  ⟨_, moves, rfl, rfl⟩

lemma HostWorld.worked_boundary (s : Surroundings) (moves : List WorkerMove) :
    w.inbox.Worked (Machine.run BoundaryWorld.worker (w.boundary s) moves).inbox :=
  ⟨_, moves, rfl, rfl⟩

variable [DecidableEq τ] (sp : SafePoint τ)

/-- A preparation leaves the inbox to the others, and may add its input. -/
lemma prepareInput_cases (request : WorkerRequest τ) (seen : PrepareSeen) :
    ∃ inbox, w.inbox.Worked inbox ∧
      ((∃ e, prepareInput sp request seen w = .error e { w with inbox := inbox }) ∨
        ∃ prepared,
          (w.access ((w.record.safePoint sp).prepare seen.sourceHead request seen.polls)
            seen.prepare).1 = some (.ok prepared) ∧
          prepareInput sp request seen w = .ok () { w with
            inbox := inbox
            inputs := w.inputs ++ [⟨prepared, w.activation, w.record.id, w.generation⟩] }) := by
  obtain ⟨moves, hmoves⟩ := @Prog.ReadOnly.among _ _ _ _ _ BoundaryWorld.worker _
    (prepare_readOnly (w.record.safePoint sp) seen.sourceHead request seen.polls)
    seen.prepare.schedule (w.boundary seen.prepare)
  refine ⟨_, w.worked_boundary seen.prepare moves, ?_⟩
  rw [← hmoves, prepareInput]
  dsimp only
  split
  · rename_i prepared hprepared
    exact Or.inr ⟨prepared, hprepared, rfl⟩
  · exact Or.inl ⟨_, rfl⟩

/-- How the reset before a preparation ends: the inbox is left to the others, but that a
consumer that fails to reset has stopped its worker; or the consumer has reset. -/
def HostWorld.ResetEnds (result : Option (Except SafePointFailure (WorkerRequest τ)))
    (inbox' : ConsumerWorld) : Prop :=
  ∃ inbox, w.inbox.Worked inbox ∧
    ((∀ bound, result ≠ some (.ok bound)) ∧
        (inbox' = inbox ∨ inbox' = inbox.change fun c => c.stopWorker true) ∨
      ∃ bound c held, result = some (.ok bound) ∧ inbox.live = some c ∧
        resetAtSafePoint w.record.snapshot ⟨c, inbox.disk⟩ = .ok () held ∧
        inbox' = inbox.step (.reset w.record.snapshot))

lemma RevisionConsumer.stopWorker_pins (c : RevisionConsumer) (preserveTerminal : Bool) :
    (c.stopWorker preserveTerminal).identity = c.identity ∧
      (c.stopWorker preserveTerminal).memberId = c.memberId :=
  ⟨(c.stopWorker_same preserveTerminal).identity, (c.stopWorker_same preserveTerminal).memberId⟩

/-- A reset keeps what the consumer is pinned to, and stops it. -/
lemma resetAtSafePoint_pins {snapshot : Snapshot} {s held : Held}
    (h : resetAtSafePoint snapshot s = .ok () held) :
    held.consumer.identity = s.consumer.identity ∧
      held.consumer.memberId = s.consumer.memberId ∧ held.consumer.state = .stopped := by
  unfold resetAtSafePoint at h
  split at h
  · cases h
  · dsimp only at h
    split at h
    · cases h
    · split at h
      · cases h
      · split at h
        · cases h
        · cases h
          exact ⟨(s.consumer.stopWorker_pins true).1, (s.consumer.stopWorker_pins true).2, rfl⟩

lemma ConsumerWorld.reset_failed {inbox : ConsumerWorld} {c : RevisionConsumer} {e : CollabError}
    {held : Held} {snapshot : Snapshot} (hlive : inbox.live = some c)
    (h : resetAtSafePoint snapshot ⟨c, inbox.disk⟩ = .error e held) :
    inbox.step (.reset snapshot) = inbox ∨
      inbox.step (.reset snapshot) = inbox.change fun c => c.stopWorker true := by
  have hstep := ConsumerWorld.step_reset_failed hlive h
  obtain ⟨e', herror⟩ | ⟨e', herror⟩ | ⟨_, _, hok, -⟩ :=
    resetAtSafePoint_cases snapshot ⟨c, inbox.disk⟩
  · obtain ⟨-, rfl⟩ := EStateM.Result.error.inj (h.symm.trans herror)
    left
    rw [hstep, ← hlive]
  · obtain ⟨-, rfl⟩ := EStateM.Result.error.inj (h.symm.trans herror)
    right
    rw [hstep, ConsumerWorld.change, hlive, Option.map_some]
  · cases h.symm.trans hok

lemma acceptReset_ends (request : WorkerRequest τ) (seen : PrepareSeen) :
    let outcome := w.access ((w.record.safePoint sp).acceptReset seen.sourceHead
      w.record.snapshot request) seen.reset
    w.ResetEnds outcome.1 outcome.2.inbox := by
  refine @SafePoint.acceptReset_among _ _ BoundaryWorld.worker (w.boundary seen.reset) _
    (w.record.safePoint sp) seen.sourceHead w.record.snapshot request
    (fun outcome => w.ResetEnds outcome.1 outcome.2.inbox) ?_ ?_ ?_ seen.reset.schedule
  · intro moves result hresult
    exact ⟨_, w.worked_boundary seen.reset moves, Or.inl ⟨hresult, Or.inl rfl⟩⟩
  · intro moves c e held hlive hfailed
    exact ⟨_, w.worked_boundary seen.reset moves,
      Or.inl ⟨nofun, ConsumerWorld.reset_failed hlive hfailed⟩⟩
  · intro moves c bound held hlive hreset
    exact ⟨_, w.worked_boundary seen.reset moves,
      Or.inr ⟨bound, c, held, rfl, hlive, hreset, rfl⟩⟩

omit [DecidableEq τ] in
lemma startConsumer_cases (spawns : Bool) :
    let started : HostWorld τ := { w with inbox := w.inbox.step (.start spawns) }
    (∃ e, startConsumer spawns w = .error e started) ∨
      startConsumer spawns w = .ok () started := by
  rw [startConsumer, ConsumerWorld.step, ConsumerWorld.change]
  cases hlive : w.inbox.live with
  | none =>
      refine Or.inl ⟨.invalid, ?_⟩
      dsimp only
      rw [Option.map_none, ← hlive]
  | some c =>
      rw [Option.map_some, after]
      cases hstart : RevisionConsumer.start spawns c with
      | error e c => exact Or.inl ⟨.invalid, by simp only [hstart]⟩
      | ok u c => exact Or.inr (by simp only [hstart])

/-- A preparation first resets where a consent is pending, which it then spends, and starts
the consumer. -/
lemma prepare_cases (request : WorkerRequest τ) (seen : PrepareSeen) :
    (∃ e, prepare sp request seen w = .error e w) ∨
      prepare sp request seen w = prepareInput sp request seen w ∨
      w.active = true ∧ w.record.id ∈ w.resets ∧
        ∃ result inbox, w.ResetEnds result inbox ∧
          ((∀ bound, result ≠ some (.ok bound)) ∧
              (∃ e, prepare sp request seen w = .error e { w with inbox := inbox }) ∨
            ∃ bound, result = some (.ok bound) ∧
              let spent := ({ w with inbox := inbox } : HostWorld τ).spend
              ((∃ e, prepare sp request seen w = .error e spent) ∨
                let started : HostWorld τ :=
                  { spent with inbox := inbox.step (.start seen.spawns) }
                (∃ e, prepare sp request seen w = .error e started) ∨
                  prepare sp request seen w = prepareInput sp bound seen started)) := by
  rw [prepare]
  split
  · exact Or.inl ⟨_, rfl⟩
  · rename_i hactive
    split
    · exact Or.inl ⟨_, rfl⟩
    · split
      · rename_i hreset
        split
        · exact Or.inl ⟨_, rfl⟩
        · have hends := acceptReset_ends w sp request seen
          obtain ⟨outcome, houtcome⟩ : ∃ outcome, outcome = w.access
            ((w.record.safePoint sp).acceptReset seen.sourceHead w.record.snapshot request)
              seen.reset := ⟨_, rfl⟩
          rw [← houtcome] at hends ⊢
          push Not at hactive
          refine Or.inr (Or.inr ⟨hactive.1, hreset, outcome.1, outcome.2.inbox, hends, ?_⟩)
          have hworld : outcome.2 = { w with inbox := outcome.2.inbox } := by rw [houtcome]; rfl
          obtain ⟨result, w'⟩ := outcome
          dsimp only at hworld hends ⊢
          rw [hworld]
          dsimp only
          split
          · rename_i bound
            refine Or.inr ⟨bound, rfl, ?_⟩
            split
            · exact Or.inl ⟨_, rfl⟩
            · obtain ⟨e, hstart⟩ | hstart := startConsumer_cases
                ({ w with inbox := w'.inbox } : HostWorld τ).spend seen.spawns
              · rw [hstart]
                exact Or.inr (Or.inl ⟨_, rfl⟩)
              · rw [hstart]
                dsimp only
                split
                · exact Or.inr (Or.inl ⟨_, rfl⟩)
                · exact Or.inr (Or.inr rfl)
          · rename_i hnot
            exact Or.inl ⟨fun bound h => hnot bound h, _, rfl⟩
      · exact Or.inr (Or.inl rfl)

/-- What a successful acknowledgement of an input does to the inbox: there was nothing to
acknowledge, or the consumer has acknowledged. -/
def HostInput.Accepts (input : HostInput τ) (inbox inbox' : ConsumerWorld) : Prop :=
  input.prepared.ackRevision = none ∧ inbox' = inbox ∨
    ∃ revision c held, input.prepared.ackRevision = some revision ∧ inbox.live = some c ∧
      acknowledgeAtSafePoint revision ⟨c, inbox.disk⟩ = .ok () held ∧
      inbox' = inbox.step (.acknowledge revision)

omit [DecidableEq τ] in
lemma acknowledge_ends (input : HostInput τ) (s : Surroundings) :
    let outcome := w.access input.prepared.acknowledge s
    ∃ inbox, w.inbox.Worked inbox ∧
      ((∀ u, outcome.1 ≠ some (.ok u)) ∧ outcome.2.inbox = inbox ∨
        outcome.1 = some (.ok ()) ∧ input.Accepts inbox outcome.2.inbox) := by
  refine @PreparedWorkerInput.acknowledge_among _ _ BoundaryWorld.worker (w.boundary s)
    input.prepared (fun outcome => ∃ inbox, w.inbox.Worked inbox ∧
      ((∀ u, outcome.1 ≠ some (.ok u)) ∧ outcome.2.inbox = inbox ∨
        outcome.1 = some (.ok ()) ∧ input.Accepts inbox outcome.2.inbox)) ?_ ?_ ?_ s.schedule
  · intro moves result hresult
    exact ⟨_, w.worked_boundary s moves, Or.inl ⟨hresult, rfl⟩⟩
  · intro moves hnone
    exact ⟨_, w.worked_boundary s moves, Or.inr ⟨rfl, Or.inl ⟨hnone, rfl⟩⟩⟩
  · intro moves revision c held hrevision hlive hok
    exact ⟨_, w.worked_boundary s moves,
      Or.inr ⟨rfl, Or.inr ⟨revision, c, held, hrevision, hlive, hok, rfl⟩⟩⟩

omit [DecidableEq τ] in
/-- An acknowledgement leaves the inbox to the others and fails, or its input is accepted. -/
lemma acknowledgeInput_cases (index : ℕ) (s : Surroundings) :
    (∃ e inbox, w.inbox.Worked inbox ∧
        acknowledgeInput index s w = .error e { w with inbox := inbox }) ∨
      ∃ input inbox inbox', w.inputs[index]? = some input ∧ w.inbox.Worked inbox ∧
        input.Accepts inbox inbox' ∧
        acknowledgeInput index s w = .ok () { w with
          inbox := inbox'
          receipts := w.receipts ++ [⟨input, none⟩]
          log := w.log ++ [.acknowledged input.prepared.binding input.prepared.ackRevision] } := by
  have hstay : w.inbox.Worked w.inbox := ⟨w.boundary s, [], rfl, rfl⟩
  rw [acknowledgeInput]
  split
  · exact Or.inl ⟨_, _, hstay, rfl⟩
  · rename_i input hinput
    split
    · exact Or.inl ⟨_, _, hstay, rfl⟩
    · have hends := acknowledge_ends w input s
      obtain ⟨outcome, houtcome⟩ : ∃ outcome, outcome = w.access input.prepared.acknowledge s :=
        ⟨_, rfl⟩
      have hworld : outcome.2 = { w with inbox := outcome.2.inbox } := by rw [houtcome]; rfl
      rw [← houtcome] at hends ⊢
      obtain ⟨result, w'⟩ := outcome
      obtain ⟨inbox, hworked, ⟨hfailed, hinbox⟩ | ⟨hok, haccepts⟩⟩ := hends
      · dsimp only at hworld hinbox hfailed ⊢
        rw [hworld, hinbox]
        split
        · exact absurd rfl (hfailed ())
        · exact Or.inl ⟨_, inbox, hworked, rfl⟩
      · dsimp only at hworld hok haccepts ⊢
        rw [hok, hworld]
        exact Or.inr ⟨input, inbox, w'.inbox, hinput, hworked, haccepts, rfl⟩

end Accesses

section Receipts

variable {τ : Type} (w : HostWorld τ)

/-- A receipt is read, or dropped. -/
lemma readReceipt_cases (sp : SafePoint τ) (index : ℕ) :
    (∃ receipts : List (HostReceipt τ), (∀ receipt ∈ receipts, receipt ∈ w.receipts) ∧
        readReceipt sp index w = .ok () { w with receipts := receipts }) ∨
      ∃ receipt detached consumed, w.receipts[index]? = some receipt ∧
        parseSnapshotDict sp.contentHash receipt.input.prepared.binding.toDict = .ok detached ∧
        readReceipt sp index w = .ok () { w with
          receipts := w.receipts.set index { receipt with read := some (detached, consumed) } } := by
  have hdrop : ∀ receipt ∈ w.receipts.eraseIdx index, receipt ∈ w.receipts :=
    fun receipt h => List.mem_of_mem_eraseIdx h
  rw [readReceipt]
  split
  · exact Or.inl ⟨w.receipts, fun _ => id, rfl⟩
  · rename_i receipt hreceipt
    split
    · rename_i detached c hparse hlive
      split
      · exact Or.inr ⟨receipt, detached, _, hreceipt, hparse, rfl⟩
      · exact Or.inl ⟨_, hdrop, rfl⟩
    · exact Or.inl ⟨_, hdrop, rfl⟩

/-- A binding that was read is recorded, or the receipt is dropped. -/
lemma recordAcceptedBinding_cases (index : ℕ) :
    (∃ receipts : List (HostReceipt τ), (∀ receipt ∈ receipts, receipt ∈ w.receipts) ∧
        recordAcceptedBinding index w = .ok () { w with receipts := receipts }) ∨
      ∃ input detached consumed, ⟨input, some (detached, consumed)⟩ ∈ w.receipts ∧
        consumed = input.prepared.binding.revision ∧
        recordAcceptedBinding index w = .ok () { w with
          receipts := w.receipts.eraseIdx index
          acceptedBinding := some detached
          log := w.log ++ [.recorded detached] } := by
  have hdrop : ∀ receipt ∈ w.receipts.eraseIdx index, receipt ∈ w.receipts :=
    fun receipt h => List.mem_of_mem_eraseIdx h
  rw [recordAcceptedBinding]
  split
  · rename_i input detached consumed hreceipt
    dsimp only
    split
    · rename_i h
      exact Or.inr ⟨input, detached, consumed, List.mem_of_getElem? hreceipt, h.2.2.2.2.2.2, rfl⟩
    · exact Or.inl ⟨_, hdrop, rfl⟩
  · exact Or.inl ⟨w.receipts, fun _ => id, rfl⟩

end Receipts

section Tickets

variable {τ : Type} (w : HostWorld τ)

/-- A ticket is issued only while the session is idle. -/
lemma previewTaskStatus_cases (targetStatus : String) (head headAgain : Option String)
    (fresh : Option Snapshot) :
    (∃ e, previewTaskStatus targetStatus head headAgain fresh w = .error e w) ∨
      w.active = false ∧ w.closed = false ∧ ∃ ticket : ParticipantTicket,
        ticket.id = w.drawn ∧ ticket.created = w.now ∧
        previewTaskStatus targetStatus head headAgain fresh w = .ok () { w.pruneTickets with
          tickets := makeRoom w.pruneTickets.tickets ++ [ticket]
          drawn := w.drawn + 1 } := by
  unfold previewTaskStatus
  split
  · exact Or.inl ⟨_, rfl⟩
  · split
    · exact Or.inl ⟨_, rfl⟩
    · rename_i hidle
      push Not at hidle
      split
      · exact Or.inl ⟨_, rfl⟩
      · split
        · exact Or.inl ⟨_, rfl⟩
        · split
          · exact Or.inl ⟨_, rfl⟩
          · split
            · exact Or.inl ⟨_, rfl⟩
            · split
              · exact Or.inl ⟨_, rfl⟩
              · split
                · exact Or.inl ⟨_, rfl⟩
                · exact Or.inr ⟨eq_false_of_ne_true hidle.2, eq_false_of_ne_true hidle.1, _, rfl,
                    rfl, rfl⟩

/-- A command is sent only while the session is idle, for a live ticket that it spends. -/
lemma confirmTaskStatus_cases (id : ℕ) (head : Option String) :
    (∃ e, confirmTaskStatus id head w = .error e w) ∨
      (∃ e, confirmTaskStatus id head w = .error e w.pruneTickets) ∨
      w.active = false ∧ w.closed = false ∧ ∃ ticket ∈ w.pruneTickets.tickets,
        ticket.id = id ∧ ticket.record = w.record ∧ ticket.generation = w.generation ∧
        w.record.identity = w.pinned ∧
        confirmTaskStatus id head w = .ok () { w.pruneTickets with
          tickets := w.pruneTickets.tickets.filter fun other => other.id ≠ id
          log := w.log ++ [.sent ⟨id, w.record.taskId, ticket.targetStatus,
            ticket.expectedRevision⟩] } := by
  rw [confirmTaskStatus]
  split
  · exact Or.inl ⟨_, rfl⟩
  · rename_i hidle
    push Not at hidle
    dsimp only
    split
    · exact Or.inr (Or.inl ⟨_, rfl⟩)
    · rename_i ticket hfound
      split
      · exact Or.inr (Or.inl ⟨_, rfl⟩)
      · rename_i hpins
        push Not at hpins
        split
        · exact Or.inr (Or.inl ⟨_, rfl⟩)
        · have hid := List.find?_some hfound
          simp only [decide_eq_true_eq] at hid
          exact Or.inr (Or.inr ⟨eq_false_of_ne_true hidle.2, eq_false_of_ne_true hidle.1, ticket,
            List.mem_of_find?_eq_some hfound, hid, hpins.1, hpins.2.1, hpins.2.2, rfl⟩)

end Tickets

section Lifecycle

variable {τ : Type} [DecidableEq τ] (sp : SafePoint τ) (w : HostWorld τ)

/-- How an activation ends: before it takes anything, without a consumer, with one that it
closes again, or open. -/
lemma activate_cases (seen : ActivateSeen) :
    let idle := { w with tickets := [] }
    (∃ e, activate sp seen w = .error e idle) ∨
      w.active = false ∧
        ((∃ e disk, newConsumer w.record.memberId w.record.snapshot w.inbox.disk = .error e disk ∧
            ∃ e, activate sp seen w = .error e
              (({ idle with inbox := { w.inbox with disk := disk } } : HostWorld τ).cleanupPartial
                none true seen.cleanup)) ∨
          ∃ made disk consumer,
            newConsumer w.record.memberId w.record.snapshot w.inbox.disk = .ok made disk ∧
            (consumer = made ∨ consumer = after (RevisionConsumer.start seen.spawns) made) ∧
            ((∃ e, activate sp seen w = .error e
                ((idle.newConsumer made disk).cleanupPartial (some consumer) true seen.cleanup)) ∨
              activate sp seen w = .ok () ((idle.newConsumer made disk).opened consumer))) := by
  rw [activate]
  dsimp only
  split
  · exact Or.inl ⟨_, rfl⟩
  · rename_i hidle
    push Not at hidle
    split
    · exact Or.inl ⟨_, rfl⟩
    · refine Or.inr ⟨eq_false_of_ne_true hidle.2, ?_⟩
      split
      · rename_i e disk hnew
        exact Or.inl ⟨_, disk, hnew, _, rfl⟩
      · rename_i made disk hnew
        refine Or.inr ⟨made, disk, ?_⟩
        split
        · exact ⟨made, hnew, Or.inl rfl, Or.inl ⟨_, rfl⟩⟩
        · split
          · exact ⟨made, hnew, Or.inl rfl, Or.inr rfl⟩
          · split
            · exact ⟨made, hnew, Or.inl rfl, Or.inl ⟨_, rfl⟩⟩
            · split
              · rename_i e started hstart
                refine ⟨started, hnew, Or.inr ?_, Or.inl ⟨_, rfl⟩⟩
                rw [after, hstart]
              · rename_i u started hstart
                refine ⟨started, hnew, Or.inr ?_, ?_⟩
                · rw [after, hstart]
                · split
                  · exact Or.inl ⟨_, rfl⟩
                  · exact Or.inr rfl

omit [DecidableEq τ] in
lemma release_cases (id : ℕ) :
    (∃ e, release id w = .error e w) ∨
      release id w = .ok () { w with
        approved := w.approved.filter fun record => record.id ≠ id } := by
  rw [release]
  split
  · exact Or.inr rfl
  · exact Or.inl ⟨_, rfl⟩

omit [DecidableEq τ] in
/-- How a deactivation ends. -/
lemma deactivate_cases (seen : DeactivateSeen) :
    deactivate seen w = .ok () w ∧ w.active = false ∨
      w.active = true ∧
        (w.inbox.live = none ∧
            deactivate seen w =
              releaseLease seen.closes.leaseCloses { w with last := keptStatus w.last w.last } ∨
          ∃ before, w.inbox.live = some before ∧
            ((∃ e, deactivate seen w = .error e (w.moves seen.between) ∧
                ((w.moves seen.between).inbox.live = none ∨ seen.closes.consumerCloses = false)) ∨
              ∃ c, (w.moves seen.between).inbox.live = some c ∧
                seen.closes.consumerCloses = true ∧
                deactivate seen w = releaseLease seen.closes.leaseCloses
                  { w.moves seen.between with
                    inbox := { (w.moves seen.between).inbox with live := some c.close }
                    last := keptStatus before.status c.close.status })) := by
  rw [deactivate]
  split
  · rename_i hactive
    exact Or.inl ⟨rfl, eq_false_of_ne_true hactive⟩
  · rename_i hactive
    rw [not_not] at hactive
    refine Or.inr ⟨hactive, ?_⟩
    split
    · rename_i hlive
      exact Or.inl ⟨hlive, rfl⟩
    · rename_i before hlive
      refine Or.inr ⟨before, hlive, ?_⟩
      dsimp only
      split
      · rename_i hgone
        exact Or.inl ⟨_, rfl, Or.inl hgone⟩
      · rename_i c hmoved
        split
        · rename_i hcloses
          exact Or.inl ⟨_, rfl, Or.inr (eq_false_of_ne_true hcloses)⟩
        · rename_i hcloses
          rw [not_not] at hcloses
          exact Or.inr ⟨c, hmoved, hcloses, rfl⟩

end Lifecycle

end Imece.CollabRuntime
