import Imece.CollabRuntime.HostSteps

/-!
# Consents, the cursor and the accepted binding

A consent to a reset is spent at most once, and only by the reset to the snapshot that it
was given for. The cursor moves where a fact of the log says so, and a binding is recorded
after it was acknowledged.
-/
namespace Imece.CollabRuntime

open Lib Machine

section Facts

def HostFact.approval : HostFact → Option ℕ
  | .approved record _ _ => some record
  | _ => none

def HostFact.spending : HostFact → Option ℕ
  | .spent record _ => some record
  | _ => none

def HostFact.recording : HostFact → Option SharedSnapshot
  | .recorded binding => some binding
  | _ => none

/-- Where a fact moves the cursor. -/
def HostFact.move (cursor : Option String) : HostFact → Option String
  | .created revision => some revision
  | .spent _ revision => some revision
  | .acknowledged _ (some revision) => some revision
  | _ => cursor

/-- What a fact needs before it: a consent is spent for the revision it was given for, a
binding is recorded after it was acknowledged, and an acknowledgement moves the cursor to
the revision of its binding or not at all. -/
def HostFact.Justified (before : List HostFact) (fact : HostFact) : Prop :=
  (∀ id revision, fact = .spent id revision → .approved id true revision ∈ before) ∧
    (∀ binding, fact = .recorded binding → ∃ moved, .acknowledged binding moved ∈ before) ∧
    ∀ binding moved, fact = .acknowledged binding moved →
      moved = none ∨ moved = some binding.revision

end Facts

section Quiet

lemma RevisionConsumer.SameInbox.trans {c c' c'' : RevisionConsumer} (h : c.SameInbox c')
    (h' : c'.SameInbox c'') : c.SameInbox c'' :=
  ⟨h'.identity.trans h.identity, h'.memberId.trans h.memberId, h'.pending.trans h.pending,
    h'.consumed.trans h.consumed, h'.received.trans h.received⟩

/-- The cursor of an inbox stays where it is. -/
structure ConsumerWorld.Quiet (inbox inbox' : ConsumerWorld) : Prop where
  sound : inbox.Sound → inbox'.Sound
  file : inbox'.disk.file = inbox.disk.file
  held : inbox.Sound → ∀ c', inbox'.live = some c' →
    ∃ c, inbox.live = some c ∧ c'.identity = c.identity ∧ c'.memberId = c.memberId

variable {inbox inbox' inbox'' : ConsumerWorld}

lemma ConsumerWorld.Quiet.refl (inbox : ConsumerWorld) : inbox.Quiet inbox :=
  ⟨id, rfl, fun _ c hlive => ⟨c, hlive, rfl, rfl⟩⟩

lemma ConsumerWorld.Quiet.trans (h : inbox.Quiet inbox') (h' : inbox'.Quiet inbox'') :
    inbox.Quiet inbox'' where
  sound hsound := h'.sound (h.sound hsound)
  file := h'.file.trans h.file
  held hsound c'' hlive'' := by
    obtain ⟨c', hlive', hidentity', hmember'⟩ := h'.held (h.sound hsound) c'' hlive''
    obtain ⟨c, hlive, hidentity, hmember⟩ := h.held hsound c' hlive'
    exact ⟨c, hlive, hidentity'.trans hidentity, hmember'.trans hmember⟩

lemma ConsumerWorld.Quiet.change {f : RevisionConsumer → RevisionConsumer}
    (h : ∀ c : RevisionConsumer, c.SameInbox (f c)) : inbox.Quiet (inbox.change f) where
  sound hsound := hsound.change h
  file := rfl
  held _ c' hlive' := by
    obtain ⟨c, hlive, rfl⟩ := Option.map_eq_some_iff.mp hlive'
    exact ⟨c, hlive, (h c).identity, (h c).memberId⟩

lemma ConsumerWorld.Quiet.gone (hlive : inbox'.live = none)
    (hfile : inbox'.disk.file = inbox.disk.file) : inbox.Quiet inbox' where
  sound _ := ConsumerWorld.sound_of_none hlive
  file := hfile
  held _ c' hc' := by cases hlive.symm.trans hc'

lemma ConsumerWorld.Quiet.replace {c c' : RevisionConsumer} (hlive : inbox.live = some c)
    (h : c.SameInbox c') : inbox.Quiet { inbox with live := some c' } where
  sound hsound := by
    constructor
    · intro d hd
      rw [← Option.some.inj hd]
      exact (hsound.chained c hlive).of_same h
    · intro d hd
      rw [← Option.some.inj hd, h.pending]
      exact hsound.inbox c hlive
  file := rfl
  held _ d hd := by
    rw [← Option.some.inj hd]
    exact ⟨c, hlive, h.identity, h.memberId⟩

lemma BoundaryWorld.worker_quiet (b : BoundaryWorld) (move : WorkerMove) :
    b.inbox.Quiet (b.worker move).inbox where
  sound hsound := BoundaryWorld.step_sound hsound move.boundary
  file := by
    cases move with
    | line line =>
        show (b.inbox.step (.line line)).disk.file = _
        rw [ConsumerWorld.step]
        split <;> rfl
    | disk | turn | answered | cancel | pass | answer => rfl
  held hsound c' hlive' := by
    cases hlive : b.inbox.live with
    | none =>
        have hreached : b.Reached (b.worker move) := ⟨[move.boundary], rfl⟩
        have hgone := hreached.gone hlive
        cases hgone.symm.trans hlive'
    | some c =>
        obtain ⟨d, arrived, hdrift⟩ := BoundaryWorld.step_drift hsound hlive move.boundary
        obtain rfl : d = c' := Option.some.inj (hdrift.live.symm.trans hlive')
        exact ⟨c, rfl, hdrift.identity, hdrift.memberId⟩

lemma ConsumerWorld.Worked.quiet (h : inbox.Worked inbox') : inbox.Quiet inbox' := by
  obtain ⟨b, moves, rfl, rfl⟩ := h
  induction moves generalizing b with
  | nil => exact .refl _
  | cons move rest ih => exact (b.worker_quiet move).trans (ih (b.worker move))

lemma ConsumerWorld.Quiet.checkpoint (h : inbox.Quiet inbox') (identity : SessionIdentity)
    (memberId : String) :
    inbox'.disk.checkpoint identity memberId = inbox.disk.checkpoint identity memberId := by
  rw [Disk.checkpoint, Disk.checkpoint, loadCheckpoint, loadCheckpoint]
  dsimp only
  rw [h.file]

end Quiet

section Moves

variable {inbox inbox' : ConsumerWorld} {identity : SessionIdentity} {memberId : String}

/-- The consumer of an inbox is the one of an identity and a member. -/
def ConsumerWorld.Aligned (inbox : ConsumerWorld) (identity : SessionIdentity)
    (memberId : String) : Prop :=
  ∀ c, inbox.live = some c → c.identity = identity ∧ c.memberId = memberId

/-- An accepted input moves the cursor to its revision, or not at all. -/
lemma HostInput.Accepts.cursor {τ : Type} {input : HostInput τ} (h : input.Accepts inbox inbox')
    (hsound : inbox.Sound) (haligned : inbox.Aligned identity memberId) :
    inbox'.Sound ∧ inbox'.Aligned identity memberId ∧
      inbox'.disk.checkpoint identity memberId =
        input.prepared.ackRevision.or (inbox.disk.checkpoint identity memberId) := by
  obtain ⟨hnone, rfl⟩ | ⟨revision, c, held, hrevision, hlive, hok, rfl⟩ := h
  · rw [hnone, Option.none_or]
    exact ⟨hsound, haligned, rfl⟩
  · obtain ⟨rfl, rfl⟩ := haligned c hlive
    refine ⟨hsound.step _, ?_⟩
    have hstep : (inbox.step (.acknowledge revision)).live = some held.consumer ∧
        (inbox.step (.acknowledge revision)).disk = held.disk := by
      simp only [ConsumerWorld.step, hlive, hok, and_self]
    unfold ConsumerWorld.Aligned
    rw [hstep.1, hstep.2, hrevision, Option.some_or]
    obtain ⟨e, herror⟩ | ⟨hconsumed, hsame⟩ |
      ⟨index, event, disk, -, -, -, -, hcheckpoint, hmoved⟩ :=
        acknowledgeAtSafePoint_cases revision ⟨c, inbox.disk⟩
    · cases hok.symm.trans herror
    · obtain ⟨-, rfl⟩ := EStateM.Result.ok.inj (hok.symm.trans hsame)
      refine ⟨fun d hd => ?_, ?_⟩
      · rw [← Option.some.inj hd]
        exact ⟨rfl, rfl⟩
      · rw [hconsumed]
        exact (hsound.chained c hlive).durable
    · obtain ⟨-, rfl⟩ := EStateM.Result.ok.inj (hok.symm.trans hmoved)
      refine ⟨fun d hd => ?_, hcheckpoint⟩
      rw [← Option.some.inj hd]
      exact ⟨rfl, rfl⟩

/-- A reset moves the cursor to its snapshot. -/
lemma ConsumerWorld.reset_cursor {snapshot : Snapshot} {c : RevisionConsumer} {held : Held}
    (hsound : inbox.Sound) (haligned : inbox.Aligned identity memberId)
    (hlive : inbox.live = some c)
    (hok : resetAtSafePoint snapshot ⟨c, inbox.disk⟩ = .ok () held) :
    let inbox' := inbox.step (.reset snapshot)
    inbox'.Sound ∧ inbox'.Aligned identity memberId ∧
      inbox'.disk.checkpoint identity memberId = some snapshot.revision := by
  obtain ⟨rfl, rfl⟩ := haligned c hlive
  refine ⟨hsound.step _, ?_⟩
  have hstep : (inbox.step (.reset snapshot)).live = some held.consumer ∧
      (inbox.step (.reset snapshot)).disk = held.disk := by
    simp only [ConsumerWorld.step, hlive, hok, and_self]
  unfold ConsumerWorld.Aligned
  rw [hstep.1, hstep.2]
  obtain ⟨hidentity, hmember, -⟩ := resetAtSafePoint_pins hok
  have hpins : held.consumer.identity = c.identity ∧ held.consumer.memberId = c.memberId :=
    ⟨hidentity, hmember⟩
  obtain ⟨e, herror⟩ | ⟨e, herror⟩ | ⟨d, disk, hmoved, -, hconsumed, hchained⟩ :=
    resetAtSafePoint_cases snapshot ⟨c, inbox.disk⟩
  · cases hok.symm.trans herror
  · cases hok.symm.trans herror
  · obtain ⟨-, rfl⟩ := EStateM.Result.ok.inj (hok.symm.trans hmoved)
    refine ⟨fun other hother => ?_, ?_⟩
    · rw [← Option.some.inj hother]
      exact hpins
    · have hdurable := hchained.durable
      rw [hpins.1, hpins.2, hconsumed] at hdurable
      exact hdurable

lemma snapshotBaseline_identity {snapshot : Snapshot} {baseline : String}
    (h : snapshotBaseline snapshot = .ok (identity, baseline)) :
    identity = snapshot.state.identity ∧ baseline = snapshot.revision := by
  simp only [snapshotBaseline, except_mapError_eq_ok, readBaseline, except_bind_eq_ok,
    shaHex_eq_ok, except_pure_eq_ok, Prod.mk.injEq, Json.str.injEq] at h
  obtain ⟨state, hstate, _, ⟨rfl, -⟩, rfl, rfl⟩ := h
  obtain ⟨-, rfl⟩ := (parseStateDict_document (stateDocument_toDict snapshot.state)).mp hstate
  exact ⟨rfl, rfl⟩

/-- A new consumer stands where the checkpoint is, or at its snapshot. -/
lemma newConsumer_cursor {snapshot : Snapshot} {disk disk' : Disk} {c : RevisionConsumer}
    (h : newConsumer memberId snapshot disk = .ok c disk') :
    c.identity = snapshot.state.identity ∧ c.memberId = memberId ∧ c.pending = [] ∧
      c.Chained disk' ∧ disk'.checkpoint c.identity c.memberId =
        some ((disk.checkpoint c.identity c.memberId).getD snapshot.revision) := by
  have hmade : c.identity = snapshot.state.identity ∧ c.memberId = memberId ∧
      ∃ found, loadCheckpoint c.identity c.memberId disk = .ok found ∧
        c.consumed = found.getD snapshot.revision := by
    unfold newConsumer at h
    split at h
    · rename_i member identity baseline hmember hbaseline
      obtain ⟨rfl, rfl⟩ := snapshotBaseline_identity hbaseline
      obtain ⟨hmember, -⟩ := safeId_eq_ok.mp hmember
      obtain rfl := Json.str.inj hmember
      dsimp only at h
      split at h
      · cases h
      · rename_i saved hsaved
        cases h
        exact ⟨rfl, rfl, some saved, hsaved, rfl⟩
      · rename_i hnone
        split at h
        · cases h
        · cases h
          exact ⟨rfl, rfl, none, hnone, rfl⟩
    · cases h
    · cases h
  obtain ⟨hidentity, hmember, found, hfound, hconsumed⟩ := hmade
  obtain ⟨e, herror⟩ | ⟨d, other, hok, hpending, hchained, -⟩ :=
    newConsumer_cases memberId snapshot disk
  · cases h.symm.trans herror
  · obtain ⟨rfl, rfl⟩ := EStateM.Result.ok.inj (h.symm.trans hok)
    refine ⟨hidentity, hmember, hpending, hchained, ?_⟩
    rw [Disk.checkpoint_of_load hfound, hchained.durable, hconsumed]

end Moves

section Accounts

variable {τ : Type}

/-- What is kept of a prepared input: it acknowledges the revision of its binding or
nothing, and its binding is read back as it is. -/
structure HostInput.Formed (input : HostInput τ) : Prop where
  ackRevision : input.prepared.ackRevision = none ∨
    input.prepared.ackRevision = some input.prepared.binding.revision
  normal : input.prepared.binding.state.normal = input.prepared.binding.state

/-- The log of a host accounts for its consents, its cursor and its accepted binding. -/
structure HostWorld.Accounted (start : Option String) (w : HostWorld τ) : Prop where
  fresh : ∀ record ∈ w.candidates, record.id < w.drawn ∧
    record.id ∉ w.log.filterMap HostFact.approval
  below : ∀ id ∈ w.log.filterMap HostFact.approval, id < w.drawn
  once : (w.log.filterMap HostFact.approval).Nodup
  known : ∀ record, record = w.record ∨ record ∈ w.approved →
    ∃ reset, .approved record.id reset record.snapshot.revision ∈ w.log
  consent : ∀ id ∈ w.resets, ∃ revision, .approved id true revision ∈ w.log
  spentOnce : (w.log.filterMap HostFact.spending).Nodup
  unspent : ∀ id ∈ w.log.filterMap HostFact.spending, id ∉ w.resets
  sound : w.inbox.Sound
  aligned : w.inbox.Aligned w.record.snapshot.state.identity w.record.memberId
  cursor : w.cursor = w.log.foldl HostFact.move start
  inputs : ∀ input ∈ w.inputs, input.Formed
  receipts : ∀ receipt ∈ w.receipts, receipt.input.Formed ∧
    (∃ moved, .acknowledged receipt.input.prepared.binding moved ∈ w.log) ∧
    ∀ detached consumed, receipt.read = some (detached, consumed) →
      detached = receipt.input.prepared.binding
  accepted : w.acceptedBinding = (w.log.filterMap HostFact.recording).getLast?
  justified : Machine.Justified HostFact.Justified w.log

variable {start : Option String} {w w' w'' : HostWorld τ}

/-- What an operation does that spends no consent, moves no cursor and records nothing. -/
structure HostWorld.Plain (w w' : HostWorld τ) : Prop where
  drawn : w.drawn ≤ w'.drawn
  candidates : ∀ record ∈ w'.candidates, record ∈ w.candidates
  approved : ∀ record, record = w'.record ∨ record ∈ w'.approved →
    record = w.record ∨ record ∈ w.approved
  resets : w'.resets = w.resets
  identity : w'.record.snapshot.state.identity = w.record.snapshot.state.identity
  memberId : w'.record.memberId = w.record.memberId
  inbox : w.inbox.Quiet w'.inbox
  inputs : w'.inputs = w.inputs
  receipts : ∀ receipt ∈ w'.receipts, receipt ∈ w.receipts
  binding : w'.acceptedBinding = w.acceptedBinding
  log : w'.log = w.log ∨ ∃ command, w'.log = w.log ++ [.sent command]

lemma HostWorld.Plain.log_filterMap (h : w.Plain w') {β : Type} (label : HostFact → Option β)
    (hlabel : ∀ command, label (.sent command) = none) :
    w'.log.filterMap label = w.log.filterMap label := by
  rcases h.log with hlog | ⟨command, hlog⟩
  · rw [hlog]
  · rw [hlog, List.filterMap_append, List.filterMap_cons, hlabel, List.filterMap_nil,
      List.append_nil]

lemma HostWorld.Plain.mem_log (h : w.Plain w') {fact : HostFact} (hfact : fact ∈ w.log) :
    fact ∈ w'.log := by
  rcases h.log with hlog | ⟨command, hlog⟩
  · rw [hlog]
    exact hfact
  · rw [hlog]
    exact List.mem_append_left _ hfact

lemma HostWorld.Accounted.plain (h : w.Accounted start) (hplain : w.Plain w') :
    w'.Accounted start := by
  have happrovals := hplain.log_filterMap HostFact.approval fun _ => rfl
  have hspendings := hplain.log_filterMap HostFact.spending fun _ => rfl
  constructor
  · intro record hrecord
    obtain ⟨hdrawn, hnew⟩ := h.fresh record (hplain.candidates record hrecord)
    rw [happrovals]
    exact ⟨hdrawn.trans_le hplain.drawn, hnew⟩
  · intro id hid
    rw [happrovals] at hid
    exact (h.below id hid).trans_le hplain.drawn
  · rw [happrovals]
    exact h.once
  · intro record hrecord
    obtain ⟨reset, hmem⟩ := h.known record (hplain.approved record hrecord)
    exact ⟨reset, hplain.mem_log hmem⟩
  · intro id hid
    rw [hplain.resets] at hid
    obtain ⟨revision, hmem⟩ := h.consent id hid
    exact ⟨revision, hplain.mem_log hmem⟩
  · rw [hspendings]
    exact h.spentOnce
  · rw [hspendings, hplain.resets]
    exact h.unspent
  · exact hplain.inbox.sound h.sound
  · intro c' hlive'
    obtain ⟨c, hlive, hidentity, hmember⟩ := hplain.inbox.held h.sound c' hlive'
    obtain ⟨hc, hm⟩ := h.aligned c hlive
    rw [hplain.identity, hplain.memberId]
    exact ⟨hidentity.trans hc, hmember.trans hm⟩
  · have hcursor : w'.cursor = w.cursor := by
      rw [HostWorld.cursor, HostWorld.cursor, hplain.identity, hplain.memberId,
        hplain.inbox.checkpoint]
    rw [hcursor, h.cursor]
    rcases hplain.log with hlog | ⟨command, hlog⟩
    · rw [hlog]
    · rw [hlog, List.foldl_append]
      rfl
  · rw [hplain.inputs]
    exact h.inputs
  · intro receipt hreceipt
    obtain ⟨hformed, ⟨moved, hmem⟩, hread⟩ := h.receipts receipt (hplain.receipts receipt hreceipt)
    exact ⟨hformed, ⟨moved, hplain.mem_log hmem⟩, hread⟩
  · rw [hplain.binding, hplain.log_filterMap HostFact.recording fun _ => rfl]
    exact h.accepted
  · rcases hplain.log with hlog | ⟨command, hlog⟩
    · rw [hlog]
      exact h.justified
    · rw [hlog]
      exact h.justified.append ⟨nofun, nofun, nofun⟩

lemma HostWorld.Plain.trans (h : w.Plain w') (h' : w'.Plain w'')
    (hlog : w'.log = w.log ∨ w''.log = w'.log) : w.Plain w'' where
  drawn := h.drawn.trans h'.drawn
  candidates record hrecord := h.candidates record (h'.candidates record hrecord)
  approved record hrecord := h.approved record (h'.approved record hrecord)
  resets := h'.resets.trans h.resets
  identity := h'.identity.trans h.identity
  memberId := h'.memberId.trans h.memberId
  inbox := h.inbox.trans h'.inbox
  inputs := h'.inputs.trans h.inputs
  receipts receipt hreceipt := h.receipts receipt (h'.receipts receipt hreceipt)
  binding := h'.binding.trans h.binding
  log := by
    rcases hlog with hlog | hlog
    · rw [← hlog]
      exact h'.log
    · rw [hlog]
      exact h.log

/-- Only the inbox, the tickets and what is free to change differ. -/
lemma HostWorld.Plain.of_inbox (hdrawn : w'.drawn = w.drawn) (hcandidates : w'.candidates = w.candidates)
    (happroved : w'.approved = w.approved) (hresets : w'.resets = w.resets)
    (hrecord : w'.record = w.record) (hinbox : w.inbox.Quiet w'.inbox)
    (hinputs : w'.inputs = w.inputs) (hreceipts : w'.receipts = w.receipts)
    (hbinding : w'.acceptedBinding = w.acceptedBinding) (hlog : w'.log = w.log) : w.Plain w' where
  drawn := hdrawn.ge
  candidates record h := hcandidates ▸ h
  approved record h := by rwa [hrecord, happroved] at h
  resets := hresets
  identity := by rw [hrecord]
  memberId := by rw [hrecord]
  inbox := hinbox
  inputs := hinputs
  receipts receipt h := hreceipts ▸ h
  binding := hbinding
  log := Or.inl hlog

lemma HostWorld.Plain.refl (w : HostWorld τ) : w.Plain w :=
  .of_inbox rfl rfl rfl rfl rfl (.refl _) rfl rfl rfl rfl

lemma HostWorld.Plain.prune (w : HostWorld τ) : w.Plain w.prune where
  drawn := le_refl _
  candidates _ h := List.mem_of_mem_filter h
  approved _ h := h.imp_right List.mem_of_mem_filter
  resets := rfl
  identity := rfl
  memberId := rfl
  inbox := .refl _
  inputs := rfl
  receipts _ h := h
  binding := rfl
  log := Or.inl rfl

lemma HostWorld.Accounted.approved_of_spent (h : w.Accounted start) {id : ℕ}
    (hid : id ∈ w.log.filterMap HostFact.spending) : id ∈ w.log.filterMap HostFact.approval := by
  obtain ⟨fact, hfact, hspent⟩ := List.mem_filterMap.mp hid
  cases fact with
  | spent record revision =>
      cases hspent
      obtain ⟨before, rest, hlog⟩ := List.append_of_mem hfact
      have happroved := (h.justified before _ rest hlog).1 _ _ rfl
      rw [hlog]
      exact List.mem_filterMap.mpr ⟨_, List.mem_append_left _ happroved, rfl⟩
  | approved | created | acknowledged | recorded | sent => cases hspent

/-- A consent that is pending for the record of the session was given for its revision. -/
lemma HostWorld.Accounted.consented (h : w.Accounted start) (hreset : w.record.id ∈ w.resets) :
    .approved w.record.id true w.record.snapshot.revision ∈ w.log ∧
      w.record.id ∉ w.log.filterMap HostFact.spending := by
  obtain ⟨reset, hknown⟩ := h.known w.record (Or.inl rfl)
  obtain ⟨revision, hconsent⟩ := h.consent w.record.id hreset
  have hsame := Machine.eq_of_nodup_filterMap h.once hknown hconsent rfl rfl
  injection hsame with _ hflag _
  refine ⟨hflag ▸ hknown, fun hspent => h.unspent _ hspent hreset⟩

lemma HostWorld.Accounted.preview (h : w.Accounted start) {record : HostRecord}
    (hid : record.id = w.drawn) :
    HostWorld.Accounted start { w with
      candidates := w.candidates ++ [record]
      drawn := w.drawn + 1 } :=
  { h with
    fresh := by
      intro other hother
      rcases List.mem_append.mp hother with hother | hother
      · obtain ⟨hdrawn, hnew⟩ := h.fresh other hother
        exact ⟨Nat.lt_succ_of_lt hdrawn, hnew⟩
      · rw [List.mem_singleton.mp hother, hid]
        exact ⟨Nat.lt_succ_self _, fun happroved => Nat.lt_irrefl _ (h.below _ happroved)⟩
    below := fun id hid => Nat.lt_succ_of_lt (h.below id hid) }

lemma filterMap_snoc_none {β : Type} {label : HostFact → Option β} {fact : HostFact}
    (hnone : label fact = none) (log : List HostFact) :
    (log ++ [fact]).filterMap label = log.filterMap label := by
  rw [List.filterMap_append, List.filterMap_cons, hnone, List.filterMap_nil, List.append_nil]

lemma filterMap_snoc_some {β : Type} {label : HostFact → Option β} {fact : HostFact} {x : β}
    (hsome : label fact = some x) (log : List HostFact) :
    (log ++ [fact]).filterMap label = log.filterMap label ++ [x] := by
  rw [List.filterMap_append, List.filterMap_cons, hsome, List.filterMap_nil]

/-- What the log says already, it goes on to say. -/
lemma HostWorld.Accounted.known_snoc (h : w.Accounted start) (fact : HostFact) :
    ∀ record, record = w.record ∨ record ∈ w.approved →
      ∃ reset, .approved record.id reset record.snapshot.revision ∈ w.log ++ [fact] := by
  intro record hrecord
  obtain ⟨reset, hmem⟩ := h.known record hrecord
  exact ⟨reset, List.mem_append_left _ hmem⟩

lemma HostWorld.Accounted.consent_snoc (h : w.Accounted start) (fact : HostFact) :
    ∀ id ∈ w.resets, ∃ revision, .approved id true revision ∈ w.log ++ [fact] := by
  intro id hid
  obtain ⟨revision, hmem⟩ := h.consent id hid
  exact ⟨revision, List.mem_append_left _ hmem⟩

lemma HostWorld.Accounted.receipts_snoc (h : w.Accounted start) (fact : HostFact) :
    ∀ receipt ∈ w.receipts, receipt.input.Formed ∧
      (∃ moved, .acknowledged receipt.input.prepared.binding moved ∈ w.log ++ [fact]) ∧
      ∀ detached consumed, receipt.read = some (detached, consumed) →
        detached = receipt.input.prepared.binding := by
  intro receipt hreceipt
  obtain ⟨hformed, ⟨moved, hmem⟩, hread⟩ := h.receipts receipt hreceipt
  exact ⟨hformed, ⟨moved, List.mem_append_left _ hmem⟩, hread⟩

lemma HostWorld.Accounted.approve (h : w.Accounted start) {record : HostRecord}
    (hrecord : record ∈ w.candidates) (resetCursor : Bool) :
    HostWorld.Accounted start { w with
      candidates := w.candidates.filter fun other => other.id ≠ record.id
      approved := w.approved ++ [record]
      resets := if resetCursor then record.id :: w.resets else w.resets
      log := w.log ++ [.approved record.id resetCursor record.snapshot.revision] } := by
  obtain ⟨hdrawn, hnew⟩ := h.fresh record hrecord
  have happrovals := @filterMap_snoc_some _ HostFact.approval
    (.approved record.id resetCursor record.snapshot.revision) _ rfl w.log
  have hspendings := @filterMap_snoc_none _ HostFact.spending
    (.approved record.id resetCursor record.snapshot.revision) rfl w.log
  have hself : HostFact.approved record.id resetCursor record.snapshot.revision ∈
      w.log ++ [.approved record.id resetCursor record.snapshot.revision] :=
    List.mem_append_right _ (List.mem_singleton_self _)
  exact {
    fresh := by
      intro other hother
      obtain ⟨hmem, hne⟩ := List.mem_filter.mp hother
      obtain ⟨hdrawn', hnew'⟩ := h.fresh other hmem
      rw [happrovals, List.mem_append, List.mem_singleton, not_or]
      exact ⟨hdrawn', hnew', of_decide_eq_true hne⟩
    below := by
      intro id hid
      rw [happrovals] at hid
      rcases List.mem_append.mp hid with hid | hid
      · exact h.below id hid
      · rw [List.mem_singleton.mp hid]
        exact hdrawn
    once := by
      rw [happrovals]
      exact h.once.append (List.nodup_singleton _) (by simpa using hnew)
    known := by
      intro other hother
      rcases hother with hother | hother
      · exact h.known_snoc _ other (Or.inl hother)
      · rcases List.mem_append.mp hother with hother | hother
        · exact h.known_snoc _ other (Or.inr hother)
        · rw [List.mem_singleton.mp hother]
          exact ⟨resetCursor, hself⟩
    consent := by
      intro id hid
      dsimp only at hid
      split at hid
      · rename_i hreset
        rcases List.mem_cons.mp hid with rfl | hid
        · exact ⟨record.snapshot.revision, hreset ▸ hself⟩
        · exact h.consent_snoc _ id hid
      · exact h.consent_snoc _ id hid
    spentOnce := by
      rw [hspendings]
      exact h.spentOnce
    unspent := by
      intro id hid
      rw [hspendings] at hid
      have hne : id ≠ record.id := fun heq => hnew (heq ▸ h.approved_of_spent hid)
      dsimp only
      split
      · exact fun hmem => (List.mem_cons.mp hmem).elim hne (h.unspent id hid)
      · exact h.unspent id hid
    sound := h.sound
    aligned := h.aligned
    cursor := by
      rw [List.foldl_append]
      exact h.cursor
    inputs := h.inputs
    receipts := h.receipts_snoc _
    accepted := by
      rw [filterMap_snoc_none rfl]
      exact h.accepted
    justified := h.justified.append ⟨nofun, nofun, nofun⟩ }

/-- A fact that concerns no consent is added to the log, together with where the cursor and
the receipts are then. -/
lemma HostWorld.Accounted.fact (h : w.Accounted start) (fact : HostFact)
    (happroval : fact.approval = none) (hspending : fact.spending = none)
    (hjustified : fact.Justified w.log) {inbox : ConsumerWorld} (hsound : inbox.Sound)
    (haligned : inbox.Aligned w.record.snapshot.state.identity w.record.memberId)
    (hcursor : inbox.disk.checkpoint w.record.snapshot.state.identity w.record.memberId =
      HostFact.move w.cursor fact)
    {receipts : List (HostReceipt τ)}
    (hreceipts : ∀ receipt ∈ receipts, receipt ∈ w.receipts ∨ receipt.input.Formed ∧
      (∃ moved, fact = .acknowledged receipt.input.prepared.binding moved) ∧ receipt.read = none)
    {accepted : Option SharedSnapshot}
    (haccepted : accepted = ((w.log ++ [fact]).filterMap HostFact.recording).getLast?)
    (activation : ℕ) :
    HostWorld.Accounted start { w with
      inbox := inbox
      receipts := receipts
      activation := activation
      acceptedBinding := accepted
      log := w.log ++ [fact] } where
  fresh := by
    rw [filterMap_snoc_none happroval]
    exact h.fresh
  below := by
    rw [filterMap_snoc_none happroval]
    exact h.below
  once := by
    rw [filterMap_snoc_none happroval]
    exact h.once
  known := h.known_snoc fact
  consent := h.consent_snoc fact
  spentOnce := by
    rw [filterMap_snoc_none hspending]
    exact h.spentOnce
  unspent := by
    rw [filterMap_snoc_none hspending]
    exact h.unspent
  sound := hsound
  aligned := haligned
  cursor := by
    rw [List.foldl_append, ← h.cursor]
    exact hcursor
  inputs := h.inputs
  receipts := by
    intro receipt hreceipt
    rcases hreceipts receipt hreceipt with hold | ⟨hformed, ⟨moved, hfact⟩, hread⟩
    · exact h.receipts_snoc fact receipt hold
    · refine ⟨hformed, ⟨moved, ?_⟩, fun detached consumed hsome => ?_⟩
      · rw [hfact]
        exact List.mem_append_right _ (List.mem_singleton_self _)
      · cases hread.symm.trans hsome
  accepted := haccepted
  justified := h.justified.append hjustified

/-- The consent of the record is spent by the reset that it was given for. -/
lemma HostWorld.Accounted.spend (h : w.Accounted start) (hreset : w.record.id ∈ w.resets)
    {inbox : ConsumerWorld} (hsound : inbox.Sound)
    (haligned : inbox.Aligned w.record.snapshot.state.identity w.record.memberId)
    (hcursor : inbox.disk.checkpoint w.record.snapshot.state.identity w.record.memberId =
      some w.record.snapshot.revision) :
    HostWorld.Accounted start ({ w with inbox := inbox } : HostWorld τ).spend := by
  obtain ⟨hconsent, hunspent⟩ := h.consented hreset
  have happrovals := @filterMap_snoc_none _ HostFact.approval
    (.spent w.record.id w.record.snapshot.revision) rfl w.log
  have hspendings := @filterMap_snoc_some _ HostFact.spending
    (.spent w.record.id w.record.snapshot.revision) _ rfl w.log
  exact {
    fresh := by
      rw [HostWorld.spend, happrovals]
      exact h.fresh
    below := by
      rw [HostWorld.spend, happrovals]
      exact h.below
    once := by
      rw [HostWorld.spend, happrovals]
      exact h.once
    known := h.known_snoc _
    consent := fun id hid => h.consent_snoc _ id (List.mem_of_mem_filter hid)
    spentOnce := by
      rw [HostWorld.spend, hspendings]
      exact h.spentOnce.append (List.nodup_singleton _) (by simpa using hunspent)
    unspent := by
      intro id hid hmem
      rw [HostWorld.spend, hspendings] at hid
      obtain ⟨hmem, hne⟩ := List.mem_filter.mp hmem
      rcases List.mem_append.mp hid with hid | hid
      · exact h.unspent id hid hmem
      · exact of_decide_eq_true hne (List.mem_singleton.mp hid)
    sound := hsound
    aligned := haligned
    cursor := by
      rw [HostWorld.spend, List.foldl_append]
      exact hcursor
    inputs := h.inputs
    receipts := h.receipts_snoc _
    accepted := by
      rw [HostWorld.spend, filterMap_snoc_none rfl]
      exact h.accepted
    justified := h.justified.append ⟨fun id revision heq => by cases heq; exact hconsent, nofun, nofun⟩ }

end Accounts

section Operations

variable {τ : Type} {start : Option String} {w : HostWorld τ}

/-- A new consumer creates the checkpoint, or takes over what it says. -/
lemma HostWorld.Accounted.newConsumer (h : w.Accounted start) {made : RevisionConsumer} {disk : Disk}
    (hnew : CollabRuntime.newConsumer w.record.memberId w.record.snapshot w.inbox.disk =
      .ok made disk) : (w.newConsumer made disk).Accounted start := by
  obtain ⟨hidentity, hmember, hpending, hchained, hcheckpoint⟩ := newConsumer_cursor hnew
  have hsound : ConsumerWorld.Sound { w.inbox.crash with live := some made, disk := disk } := by
    constructor
    · intro c hc
      obtain rfl := Option.some.inj hc
      exact hchained
    · intro c hc
      obtain rfl := Option.some.inj hc
      rw [hpending, List.append_nil]
      rfl
  have haligned : ConsumerWorld.Aligned { w.inbox.crash with live := some made, disk := disk }
      w.record.snapshot.state.identity w.record.memberId := by
    intro c hc
    obtain rfl := Option.some.inj hc
    exact ⟨hidentity, hmember⟩
  rw [hidentity, hmember] at hcheckpoint
  unfold HostWorld.newConsumer
  by_cases hnone : w.cursor = none
  · rw [if_pos hnone]
    refine h.fact (.created w.record.snapshot.revision) rfl rfl ⟨nofun, nofun, nofun⟩ hsound haligned ?_
      (fun receipt hreceipt => Or.inl hreceipt) ?_ _
    · have hcursor : w.inbox.disk.checkpoint w.record.snapshot.state.identity w.record.memberId =
          none := hnone
      rw [hcursor] at hcheckpoint
      exact hcheckpoint
    · rw [filterMap_snoc_none rfl]
      exact h.accepted
  · rw [if_neg hnone, List.append_nil]
    exact { h with
      sound := hsound
      aligned := haligned
      cursor := by
        obtain ⟨saved, hsaved⟩ := Option.ne_none_iff_exists'.mp hnone
        rw [← h.cursor, hsaved]
        have hcursor : w.inbox.disk.checkpoint w.record.snapshot.state.identity w.record.memberId =
            some saved := hsaved
        rw [hcursor] at hcheckpoint
        exact hcheckpoint }

lemma HostWorld.Accounted.acknowledge (h : w.Accounted start) {input : HostInput τ}
    (hinput : input ∈ w.inputs) {inbox inbox' : ConsumerWorld} (hworked : w.inbox.Worked inbox)
    (haccepts : input.Accepts inbox inbox') :
    HostWorld.Accounted start { w with
      inbox := inbox'
      receipts := w.receipts ++ [⟨input, none⟩]
      log := w.log ++ [.acknowledged input.prepared.binding input.prepared.ackRevision] } := by
  have hplain : w.Plain { w with inbox := inbox } :=
    .of_inbox rfl rfl rfl rfl rfl hworked.quiet rfl rfl rfl rfl
  have hworld := h.plain hplain
  obtain ⟨hsound, haligned, hcursor⟩ := haccepts.cursor hworld.sound hworld.aligned
  have hformed := h.inputs input hinput
  refine hworld.fact (.acknowledged input.prepared.binding input.prepared.ackRevision) rfl rfl
    ⟨nofun, nofun, fun binding moved heq => ?_⟩ hsound haligned ?_
    (fun receipt hreceipt => ?_) ?_ _
  · cases heq
    exact hformed.ackRevision
  · rw [hcursor]
    cases input.prepared.ackRevision with
    | none => rfl
    | some revision => rfl
  · rcases List.mem_append.mp hreceipt with hold | hnew
    · exact Or.inl hold
    · rw [List.mem_singleton.mp hnew]
      exact Or.inr ⟨hformed, ⟨_, rfl⟩, rfl⟩
  · rw [filterMap_snoc_none rfl]
    exact h.accepted

lemma HostWorld.Accounted.record (h : w.Accounted start) {input : HostInput τ}
    {detached : SharedSnapshot} {consumed : String}
    (hreceipt : ⟨input, some (detached, consumed)⟩ ∈ w.receipts) (index : ℕ) :
    HostWorld.Accounted start { w with
      receipts := w.receipts.eraseIdx index
      acceptedBinding := some detached
      log := w.log ++ [.recorded detached] } := by
  obtain ⟨-, ⟨moved, hmem⟩, hread⟩ := h.receipts _ hreceipt
  have hdetached : detached = input.prepared.binding := hread detached consumed rfl
  refine h.fact (.recorded detached) rfl rfl ⟨nofun, fun binding heq => ?_, nofun⟩ h.sound h.aligned rfl
    (fun receipt hreceipt => Or.inl (List.mem_of_mem_eraseIdx hreceipt)) ?_ _
  · cases heq
    exact ⟨moved, hdetached ▸ hmem⟩
  · rw [@filterMap_snoc_some _ HostFact.recording (.recorded detached) _ rfl, List.getLast?_append,
      List.getLast?_singleton, Option.some_or]

lemma HostWorld.Accounted.read (h : w.Accounted start) {receipt : HostReceipt τ} {index : ℕ}
    {detached : SharedSnapshot} {consumed : String} {contentHash : SharedContext → String}
    (hreceipt : w.receipts[index]? = some receipt)
    (hparse : parseSnapshotDict contentHash receipt.input.prepared.binding.toDict = .ok detached) :
    HostWorld.Accounted start { w with
      receipts := w.receipts.set index { receipt with read := some (detached, consumed) } } := by
  obtain ⟨hformed, hacknowledged, -⟩ := h.receipts receipt (List.mem_of_getElem? hreceipt)
  have hdetached : detached = receipt.input.prepared.binding := by
    obtain ⟨-, -, -, hstate, -, -, hequal⟩ := parseSnapshotDict_toDict.mp hparse
    obtain ⟨-, hnormal⟩ := (parseStateDict_document (stateDocument_toDict _)).mp hstate
    rw [hequal, hnormal, hformed.normal]
  exact { h with
    receipts := by
      intro other hother
      rcases List.mem_or_eq_of_mem_set hother with hold | rfl
      · exact h.receipts other hold
      · refine ⟨hformed, hacknowledged, fun found seen heq => ?_⟩
        obtain ⟨rfl, -⟩ := Prod.mk.inj (Option.some.inj heq)
        exact hdetached }

variable [DecidableEq τ] (sp : SafePoint τ)

lemma HostWorld.Accounted.prepareInput (h : w.Accounted start) (request : WorkerRequest τ)
    (seen : PrepareSeen) : (after (CollabRuntime.prepareInput sp request seen) w).Accounted start := by
  obtain ⟨inbox, hworked, ⟨e, hfailed⟩ | ⟨prepared, hprepared, hok⟩⟩ :=
    prepareInput_cases w sp request seen
  · rw [after_error hfailed]
    exact h.plain (.of_inbox rfl rfl rfl rfl rfl hworked.quiet rfl rfl rfl rfl)
  · rw [after_ok hok]
    have hformed : HostInput.Formed
        (⟨prepared, w.activation, w.record.id, w.generation⟩ : HostInput τ) := by
      have hreached (b : BoundaryWorld) (moves : List WorkerMove) :
          b.Reached (Machine.run BoundaryWorld.worker b moves) := by
        induction moves generalizing b with
        | nil => exact .refl b
        | cons move rest ih =>
            exact BoundaryWorld.Reached.trans ⟨[move.boundary], rfl⟩ (ih (b.worker move))
      cases hlive : w.inbox.live with
      | none =>
          have hgone := Prog.Safe.among hreached
            (@prepare_gone _ (w.record.safePoint sp) _ seen.sourceHead request seen.polls
              (w.boundary seen.prepare) hlive)
            seen.prepare.schedule _ hprepared prepared rfl
          exact hgone.elim
      | some c =>
          have hready := Prog.Safe.among hreached
            (@prepare_returns _ (w.record.safePoint sp) _ seen.sourceHead request seen.polls
              (w.boundary seen.prepare) c h.sound hlive)
            seen.prepare.schedule _ hprepared prepared rfl
          obtain ⟨authoritative, hbinding⟩ := hready.binding
          obtain ⟨captured, covered, ⟨-, c', hlive', -, -⟩, -, -, -⟩ := hready.covers
          refine ⟨?_, SafePoint.validatedAt_state hbinding⟩
          obtain ⟨hnone, -, -⟩ | ⟨index, hsome, -, -⟩ := hready.cases hlive'
          · exact Or.inl hnone
          · exact Or.inr hsome
    have hplain : w.Plain { w with inbox := inbox } :=
      .of_inbox rfl rfl rfl rfl rfl hworked.quiet rfl rfl rfl rfl
    exact { h.plain hplain with
      inputs := by
        intro input hinput
        rcases List.mem_append.mp hinput with hold | hnew
        · exact h.inputs input hold
        · rw [List.mem_singleton.mp hnew]
          exact hformed }

lemma HostWorld.Accounted.prepare (h : w.Accounted start) (request : WorkerRequest τ)
    (seen : PrepareSeen) : (after (CollabRuntime.prepare sp request seen) w).Accounted start := by
  obtain ⟨e, hfailed⟩ | hprepare | ⟨-, hreset, result, inbox, ⟨before, hworked, hends⟩, hafter⟩ :=
    prepare_cases w sp request seen
  · rw [after_error hfailed]
    exact h
  · have hprepared := h.prepareInput sp request seen
    rw [after] at hprepared ⊢
    rw [hprepare]
    exact hprepared
  · obtain ⟨hstop, e, hfailed⟩ | ⟨bound, hbound, hafter⟩ := hafter
    · rw [after_error hfailed]
      refine h.plain (.of_inbox rfl rfl rfl rfl rfl (hworked.quiet.trans ?_) rfl rfl rfl rfl)
      obtain ⟨-, hsame | hstopped⟩ | ⟨bound, _, _, hok, -⟩ := hends
      · rw [hsame]
        exact .refl _
      · rw [hstopped]
        exact .change fun c => c.stopWorker_same true
      · exact absurd hok (hstop bound)
    · obtain ⟨hstop, -⟩ | ⟨_, c, held, -, hlive, hok, hinbox⟩ := hends
      · exact absurd hbound (hstop bound)
      · have hplain : w.Plain { w with inbox := before } :=
          .of_inbox rfl rfl rfl rfl rfl hworked.quiet rfl rfl rfl rfl
        have hworld := h.plain hplain
        obtain ⟨hsound, haligned, hcursor⟩ :=
          ConsumerWorld.reset_cursor hworld.sound hworld.aligned hlive hok
        rw [← hinbox] at hsound haligned hcursor
        have hspent := h.spend hreset hsound haligned hcursor
        have hstarted : HostWorld.Accounted start
            { ({ w with inbox := inbox } : HostWorld τ).spend with
              inbox := inbox.step (.start seen.spawns) } :=
          hspent.plain (.of_inbox rfl rfl rfl rfl rfl
            (.change (RevisionConsumer.start_same seen.spawns)) rfl rfl rfl rfl)
        obtain ⟨e, hfailed⟩ | ⟨e, hfailed⟩ | hprepare := hafter
        · rw [after_error hfailed]
          exact hspent
        · rw [after_error hfailed]
          exact hstarted
        · have hprepared := hstarted.prepareInput sp bound seen
          rw [after] at hprepared ⊢
          rw [hprepare]
          exact hprepared

omit [DecidableEq τ] in
lemma HostWorld.Plain.cleanup (w : HostWorld τ) (consumer : Option RevisionConsumer)
    (seen : CleanupSeen)
    (hinbox : ∀ c, consumer = some c → w.inbox.Quiet { w.inbox with live := some c } ∧
      w.inbox.Quiet { w.inbox with live := some c.close }) :
    w.Plain (w.cleanupPartial consumer true seen) := by
  have hplain {w' : HostWorld τ} (hw : w' = { w with
      inbox := w'.inbox, lease := w'.lease, safePoint := w'.safePoint, active := w'.active })
      (hquiet : w.inbox.Quiet w'.inbox) : w.Plain w' := by
    rw [hw]
    exact .of_inbox rfl rfl rfl rfl rfl hquiet rfl rfl rfl rfl
  unfold HostWorld.cleanupPartial
  dsimp only
  split
  · exact hplain rfl (.gone rfl rfl)
  · refine hplain rfl ?_
    show w.inbox.Quiet { w.inbox with live := _ }
    cases consumer with
    | none => split <;> exact .gone rfl rfl
    | some c =>
        split
        · exact (hinbox c rfl).2
        · exact (hinbox c rfl).1

lemma HostWorld.Accounted.activate (h : w.Accounted start) (seen : ActivateSeen) :
    (after (CollabRuntime.activate sp seen) w).Accounted start := by
  have hidle : HostWorld.Accounted start { w with tickets := [] } :=
    h.plain (.of_inbox rfl rfl rfl rfl rfl (.refl _) rfl rfl rfl rfl)
  obtain ⟨e, hfailed⟩ | ⟨-, ⟨e, disk, hnew, e', hfailed⟩ |
    ⟨made, disk, consumer, hnew, hconsumer, hopened⟩⟩ := activate_cases sp w seen
  · rw [after_error hfailed]
    exact hidle
  · rw [after_error hfailed]
    have hdisk : disk = w.inbox.disk := by
      obtain ⟨e', herror⟩ | ⟨_, _, hok, -⟩ := newConsumer_cases w.record.memberId
        w.record.snapshot w.inbox.disk
      · exact (EStateM.Result.error.inj (hnew.symm.trans herror)).2
      · cases hnew.symm.trans hok
    have hsame : ({ w with tickets := [], inbox := { w.inbox with disk := disk } } : HostWorld τ) =
        { w with tickets := [] } := by rw [hdisk]
    rw [hsame]
    exact hidle.plain (.cleanup _ none seen.cleanup fun c hc => by cases hc)
  · have hmade := hidle.newConsumer hnew
    have hsame : made.SameInbox consumer := by
      rcases hconsumer with rfl | rfl
      · exact .refl _
      · exact RevisionConsumer.start_same seen.spawns made
    have hquiet {c : RevisionConsumer} (hc : made.SameInbox c) :
        (HostWorld.newConsumer ({ w with tickets := [] } : HostWorld τ) made disk).inbox.Quiet
          { (HostWorld.newConsumer ({ w with tickets := [] } : HostWorld τ) made disk).inbox with
            live := some c } :=
      .replace rfl hc
    obtain ⟨e, hfailed⟩ | hok := hopened
    · rw [after_error hfailed]
      refine hmade.plain (.cleanup _ (some consumer) seen.cleanup fun c hc => ?_)
      rw [← Option.some.inj hc]
      exact ⟨hquiet hsame, hquiet (hsame.trans consumer.close_same)⟩
    · rw [after_ok hok]
      exact hmade.plain (.of_inbox rfl rfl rfl rfl rfl (hquiet hsame) rfl rfl rfl rfl)

omit [DecidableEq τ] in
lemma HostWorld.Plain.moves (w : HostWorld τ) (moves : List WorkerMove) : w.Plain (w.moves moves) :=
  .of_inbox rfl rfl rfl rfl rfl (w.worked_moves moves).quiet rfl rfl rfl rfl

omit [DecidableEq τ] in
lemma HostWorld.Plain.releaseLease (w : HostWorld τ) (leaseCloses : Bool) :
    w.Plain (after (CollabRuntime.releaseLease leaseCloses) w) := by
  by_cases h : w.lease = true ∧ leaseCloses = true
  · rw [after_ok (show CollabRuntime.releaseLease leaseCloses w = .ok () w.released by
      rw [CollabRuntime.releaseLease, if_pos h])]
    exact .of_inbox rfl rfl rfl rfl rfl (.gone rfl rfl) rfl rfl rfl rfl
  · rw [after_error (show CollabRuntime.releaseLease leaseCloses w = .error .storage w by
      rw [CollabRuntime.releaseLease, if_neg h])]
    exact .refl w

omit [DecidableEq τ] in
lemma HostWorld.Plain.deactivate (w : HostWorld τ) (seen : DeactivateSeen) :
    w.Plain (after (CollabRuntime.deactivate seen) w) := by
  obtain ⟨hsame, -⟩ | ⟨-, ⟨hnone, hrelease⟩ | ⟨before, hbefore, ⟨e, hfailed, -⟩ |
    ⟨c, hc, -, hrelease⟩⟩⟩ := deactivate_cases w seen
  · rw [after_ok hsame]
    exact .refl w
  · have hlast : w.Plain { w with last := keptStatus w.last w.last } :=
      .of_inbox rfl rfl rfl rfl rfl (.refl _) rfl rfl rfl rfl
    have hplain := hlast.trans (.releaseLease _ seen.closes.leaseCloses) (Or.inl rfl)
    rw [after] at hplain ⊢
    rw [hrelease]
    exact hplain
  · rw [after_error hfailed]
    exact .moves w seen.between
  · have hclosed : (w.moves seen.between).Plain { w.moves seen.between with
        inbox := { (w.moves seen.between).inbox with live := some c.close }
        last := keptStatus before.status c.close.status } :=
      .of_inbox rfl rfl rfl rfl rfl (.replace hc c.close_same) rfl rfl rfl rfl
    have hplain := ((HostWorld.Plain.moves w seen.between).trans hclosed (Or.inl rfl)).trans
      (.releaseLease _ seen.closes.leaseCloses) (Or.inl rfl)
    rw [after] at hplain ⊢
    rw [hrelease]
    exact hplain

omit [DecidableEq τ] in
lemma HostWorld.Plain.close (w : HostWorld τ) (seen : DeactivateSeen) :
    w.Plain (after (closeSession seen) w) := by
  have hidle : w.Plain { w with tickets := [] } :=
    .of_inbox rfl rfl rfl rfl rfl (.refl _) rfl rfl rfl rfl
  have hplain := hidle.trans (.deactivate _ seen) (Or.inl rfl)
  cases hdeactivate : CollabRuntime.deactivate seen { w with tickets := [] } with
  | error e w' =>
      rw [after_error hdeactivate] at hplain
      rw [after_error (show closeSession seen w = .error e w' by rw [closeSession, hdeactivate])]
      exact hplain
  | ok u w' =>
      rw [after_ok hdeactivate] at hplain
      rw [after_ok (show closeSession seen w = .ok () { w' with closed := true } by
        rw [closeSession, hdeactivate])]
      have hclosed : w'.Plain { w' with closed := true } :=
        .of_inbox rfl rfl rfl rfl rfl (.refl _) rfl rfl rfl rfl
      exact hplain.trans hclosed (Or.inr rfl)

omit [DecidableEq τ] in
/-- Another approval of the same session keeps the cursor. -/
lemma HostWorld.Plain.reapprove (w : HostWorld τ) (id : ℕ) (head : Option String) :
    w.Plain (after (CollabRuntime.reapprove id head) w) := by
  have hidle : w.Plain { w with tickets := [] } :=
    .of_inbox rfl rfl rfl rfl rfl (.refl _) rfl rfl rfl rfl
  have hpruned := hidle.trans (.prune _) (Or.inl rfl)
  obtain ⟨e, hfailed⟩ | ⟨e, hfailed⟩ | ⟨-, candidate, hcandidate, -, -, hsame, hok⟩ :=
    reapprove_cases w id head
  · rw [after_error hfailed]
    exact hidle
  · rw [after_error hfailed]
    exact hpruned
  · rw [after_ok hok]
    exact { hpruned with
      approved := by
        rintro record (rfl | hrecord)
        · exact hpruned.approved _ (Or.inr hcandidate)
        · exact hpruned.approved _ (Or.inr (List.mem_of_mem_filter hrecord))
      identity := hsame.1.symm
      memberId := hsame.2.1.symm }

theorem HostWorld.Accounted.step (h : w.Accounted start) (event : HostEvent τ) :
    (w.step sp event).Accounted start := by
  have hfree {w' : HostWorld τ} (hw : w' = { w with now := w'.now, tickets := w'.tickets }) :
      w'.Accounted start := by
    rw [hw]
    exact h.plain (.of_inbox rfl rfl rfl rfl rfl (.refl _) rfl rfl rfl rfl)
  cases event with
  | elapse time => exact hfree rfl
  | worker move => exact h.plain (.moves w [move])
  | preview root memberId taskId head answer =>
      rw [HostWorld.step]
      obtain ⟨e, hfailed⟩ | ⟨e, hfailed⟩ | ⟨record, hid, hok⟩ :=
        preview_cases w root memberId taskId head answer
      · rw [after_error hfailed]
        exact h
      · rw [after_error hfailed]
        exact h.plain (.prune w)
      · rw [after_ok hok]
        exact (h.plain (.prune w)).preview hid
  | approve id root resetCursor head =>
      rw [HostWorld.step]
      obtain ⟨e, hfailed⟩ | ⟨record, hrecord, rfl, hok⟩ := approve_cases w id root resetCursor head
      · rw [after_error hfailed]
        exact h.plain (.prune w)
      · rw [after_ok hok]
        exact (h.plain (.prune w)).approve hrecord resetCursor
  | dropPreview id =>
      exact h.plain { HostWorld.Plain.refl w with
        candidates := fun record hrecord => List.mem_of_mem_filter hrecord }
  | release id =>
      rw [HostWorld.step]
      obtain ⟨e, hfailed⟩ | hok := release_cases w id
      · rw [after_error hfailed]
        exact h
      · rw [after_ok hok]
        exact h.plain { HostWorld.Plain.refl w with
          approved := fun record hrecord => hrecord.imp_right List.mem_of_mem_filter }
  | clear root =>
      exact h.plain { HostWorld.Plain.refl w with
        candidates := fun record hrecord => List.mem_of_mem_filter hrecord
        approved := fun record hrecord => hrecord.imp_right List.mem_of_mem_filter }
  | reapprove id head => exact h.plain (.reapprove w id head)
  | activate seen => exact h.activate sp seen
  | prepare request seen => exact h.prepare sp request seen
  | acknowledge index surroundings =>
      rw [HostWorld.step]
      obtain ⟨e, inbox, hworked, hfailed⟩ |
        ⟨input, inbox, inbox', hinput, hworked, haccepts, hok⟩ :=
          acknowledgeInput_cases w index surroundings
      · rw [after_error hfailed]
        exact h.plain (.of_inbox rfl rfl rfl rfl rfl hworked.quiet rfl rfl rfl rfl)
      · rw [after_ok hok]
        exact h.acknowledge (List.mem_of_getElem? hinput) hworked haccepts
  | receipt index =>
      rw [HostWorld.step]
      obtain ⟨receipts, hreceipts, hok⟩ | ⟨receipt, detached, consumed, hreceipt, hparse, hok⟩ :=
        readReceipt_cases w sp index
      · rw [after_ok hok]
        exact h.plain { HostWorld.Plain.refl w with receipts := hreceipts }
      · rw [after_ok hok]
        exact h.read hreceipt hparse
  | record index =>
      rw [HostWorld.step]
      obtain ⟨receipts, hreceipts, hok⟩ | ⟨input, detached, consumed, hreceipt, -, hok⟩ :=
        recordAcceptedBinding_cases w index
      · rw [after_ok hok]
        exact h.plain { HostWorld.Plain.refl w with receipts := hreceipts }
      · rw [after_ok hok]
        exact h.record hreceipt index
  | deactivate seen => exact h.plain (.deactivate w seen)
  | close seen => exact h.plain (.close w seen)
  | previewTask targetStatus head headAgain fresh =>
      rw [HostWorld.step]
      obtain ⟨e, hfailed⟩ | ⟨-, -, ticket, -, -, hok⟩ :=
        previewTaskStatus_cases w targetStatus head headAgain fresh
      · rw [after_error hfailed]
        exact h
      · rw [after_ok hok]
        exact h.plain { HostWorld.Plain.refl w with drawn := Nat.le_succ _ }
  | confirmTask id head =>
      rw [HostWorld.step]
      obtain ⟨e, hfailed⟩ | ⟨e, hfailed⟩ | ⟨-, -, ticket, -, -, -, -, -, hok⟩ :=
        confirmTaskStatus_cases w id head
      · rw [after_error hfailed]
        exact h
      · rw [after_error hfailed]
        exact hfree rfl
      · rw [after_ok hok]
        exact h.plain { HostWorld.Plain.refl w with log := Or.inr ⟨_, rfl⟩ }
  | discardTask id => exact hfree rfl

omit [DecidableEq τ] in
lemma HostWorld.initial_accounted (host : BindingHost) (file : Option ByteArray) :
    HostWorld.Accounted (HostWorld.initial host file : HostWorld τ).cursor
      (HostWorld.initial host file : HostWorld τ) := by
  have hlog : (HostWorld.initial host file : HostWorld τ).log =
      host.approved.map fun record =>
        .approved record.id (decide (record.id ∈ host.resets)) record.snapshot.revision := rfl
  have hids (record : HostRecord) (hrecord : record ∈ host.approved) :
      .approved record.id (decide (record.id ∈ host.resets)) record.snapshot.revision ∈
        (HostWorld.initial host file : HostWorld τ).log := by
    rw [hlog]
    exact List.mem_map.mpr ⟨record, hrecord, rfl⟩
  have happrovals : (HostWorld.initial host file : HostWorld τ).log.filterMap HostFact.approval =
      host.approved.map (·.id) := by
    rw [hlog, List.filterMap_map]
    exact congrFun List.filterMap_eq_map _
  have hspendings : (HostWorld.initial host file : HostWorld τ).log.filterMap HostFact.spending =
      [] := by
    rw [hlog, List.filterMap_map]
    exact List.filterMap_eq_nil_iff.mpr fun _ _ => rfl
  have hdistinct := host.distinct
  rw [List.map_append, List.nodup_append'] at hdistinct
  constructor
  · intro record hrecord
    rw [happrovals]
    exact ⟨host.known record (List.mem_append_left _ hrecord), fun happroved =>
      hdistinct.2.2 (List.mem_map.mpr ⟨record, hrecord, rfl⟩) happroved⟩
  · intro id hid
    rw [happrovals] at hid
    obtain ⟨record, hrecord, rfl⟩ := List.mem_map.mp hid
    exact host.known record (List.mem_append_right _ hrecord)
  · rw [happrovals]
    exact hdistinct.2.1
  · rintro record (rfl | hrecord)
    · exact ⟨_, hids _ host.bound⟩
    · exact ⟨_, hids _ hrecord⟩
  · intro id hid
    obtain ⟨record, hrecord, rfl⟩ := host.consented id hid
    refine ⟨record.snapshot.revision, ?_⟩
    have hmem := hids record hrecord
    rwa [decide_eq_true (show record.id ∈ host.resets from hid)] at hmem
  · rw [hspendings]
    exact List.nodup_nil
  · rw [hspendings]
    exact fun receipt hreceipt => absurd hreceipt List.not_mem_nil
  · exact ConsumerWorld.sound_of_none rfl
  · intro c hc
    cases (show (HostWorld.initial host file : HostWorld τ).inbox.live = none from rfl).symm.trans hc
  · rw [hlog, List.foldl_map]
    generalize (HostWorld.initial host file : HostWorld τ).cursor = start
    induction host.approved with
    | nil => rfl
    | cons record rest ih => exact ih
  · exact fun input hinput => absurd hinput List.not_mem_nil
  · exact fun receipt hreceipt => absurd hreceipt List.not_mem_nil
  · have hrecordings : (HostWorld.initial host file : HostWorld τ).log.filterMap
        HostFact.recording = [] := by
      rw [hlog, List.filterMap_map]
      exact List.filterMap_eq_nil_iff.mpr fun _ _ => rfl
    rw [hrecordings]
    rfl
  · refine Machine.Justified.of_forall fun fact hfact before => ?_
    rw [hlog] at hfact
    obtain ⟨record, -, rfl⟩ := List.mem_map.mp hfact
    exact ⟨nofun, nofun, nofun⟩

/-- Over every run of a session: a consent is given once and spent at most once, and only by
a reset to the revision that it was given for; the cursor is where the last creation, reset
or acknowledgement has moved it; and the accepted binding is the last one recorded, each
after it was acknowledged. -/
theorem host_consents (host : BindingHost) (file : Option ByteArray)
    (events : List (HostEvent τ)) :
    let w := Machine.run (HostWorld.step sp) (.initial host file) events
    ((w.log.filterMap HostFact.approval).Nodup ∧ (w.log.filterMap HostFact.spending).Nodup) ∧
      Machine.Justified HostFact.Justified w.log ∧
      w.cursor = w.log.foldl HostFact.move (HostWorld.initial host file : HostWorld τ).cursor ∧
      w.acceptedBinding = (w.log.filterMap HostFact.recording).getLast? := by
  have h := @Machine.run_invariant _ _ (HostWorld.step sp)
    (HostWorld.Accounted (HostWorld.initial host file : HostWorld τ).cursor)
    (fun _ event h => h.step sp event) _ (HostWorld.initial_accounted host file) events
  exact ⟨⟨h.once, h.spentOnce⟩, h.justified, h.cursor, h.accepted⟩

end Operations

end Imece.CollabRuntime
