import Imece.CollabRuntime.Consumer
import Imece.CollabRuntime.EventFormat

/-!
# The inbox and its cursor

Between the consumed and the received revision lies one chain of pending events, the
checkpoint file has the consumed revision, and what was acknowledged and what is pending
is what came in.
-/
namespace Imece.CollabRuntime

open Lib

section Checkpoints

variable {identity : SessionIdentity} {memberId revision : String} {disk : Disk}

lemma requireText_eq_ok {value : Json} {text : String} {u : Unit} :
    requireText value text = .ok u ↔ value = .str text := by
  cases value with
  | str found =>
      rw [requireText, Json.str.injEq]
      split_ifs with h
      · exact iff_of_true rfl h
      · exact iff_of_false nofun h
  | null | bool | int | float | arr | obj => simp [requireText]

lemma plain_checkpointObject (identity : SessionIdentity) (memberId revision : String) :
    (checkpointObject identity memberId revision).plain = true := by
  refine plain_obj (show checkpointKeys.Nodup by decide) ?_
  simp only [List.forall_mem_cons, List.not_mem_nil, false_implies, implies_true, and_true]
  exact ⟨rfl, rfl, rfl, rfl, rfl, rfl⟩

lemma nesting_checkpointObject_le (identity : SessionIdentity) (memberId revision : String) :
    nesting (checkpointObject identity memberId revision) ≤ maxJsonDepth :=
  Nat.le_of_ble_eq_true rfl

/-- A checkpoint is read back as it was written. -/
theorem parseCheckpoint_canonical (hsha : isSha revision = true)
    (hsize : (canonicalJsonBytes (checkpointObject identity memberId revision)).size ≤
      maxCheckpointBytes) :
    parseCheckpoint identity memberId
      (canonicalJsonBytes (checkpointObject identity memberId revision)) = .ok revision := by
  have hparse := @parseJsonBytes_canonical _ "checkpoint"
    (plain_checkpointObject identity memberId revision)
    (nesting_checkpointObject_le identity memberId revision) (hsize.trans (by decide))
  have hobject := (@Json.objectOf_obj
    [("schema", .int 1), ("session_id", .str identity.sessionId),
      ("base_commit", .str identity.baseCommit), ("target_version", .str identity.targetVersion),
      ("member_id", .str memberId), ("consumed_revision", .str revision)]
    (show checkpointKeys.Nodup by decide)).sortKeys
  obtain ⟨members, hexact, hget⟩ := @exactKeys_objectOf checkpointKeys _ _ "checkpoint" hobject
  have hfound : exactKeys (checkpointObject identity memberId revision).sortKeys checkpointKeys
      "checkpoint" = .ok members := hexact
  rw [parseCheckpoint, hparse]
  simp only [except_bind_eq_ok, Except.ok.injEq, exists_eq_left', hfound,
    hget _ (show "schema" ∈ checkpointKeys by decide),
    hget _ (show "session_id" ∈ checkpointKeys by decide),
    hget _ (show "base_commit" ∈ checkpointKeys by decide),
    hget _ (show "target_version" ∈ checkpointKeys by decide),
    hget _ (show "member_id" ∈ checkpointKeys by decide),
    hget _ (show "consumed_revision" ∈ checkpointKeys by decide), parseSchema_eq_ok, shaHex_eq_ok,
    requireText_eq_ok, except_pure_eq_ok]
  exact ⟨(), rfl, revision, ⟨rfl, hsha⟩, (), rfl, (), rfl, (), rfl, (), rfl, rfl⟩

/-- What the file says to whoever can read it. -/
def Disk.checkpoint (disk : Disk) (identity : SessionIdentity) (memberId : String) :
    Option String :=
  (loadCheckpoint identity memberId { disk with reads := true }).toOption.join

/-- Who could read the file has read the checkpoint. -/
lemma Disk.checkpoint_of_load {found : Option String}
    (h : loadCheckpoint identity memberId disk = .ok found) :
    disk.checkpoint identity memberId = found := by
  have hreads : disk.reads = true := by
    by_contra hreads
    rw [loadCheckpoint, if_pos hreads] at h
    cases h
  have hdisk : { disk with reads := true } = disk := by rw [← hreads]
  rw [Disk.checkpoint, hdisk, h]
  rfl

/-- A checkpoint that is written can be read, and a failure writes nothing. -/
lemma persistCheckpoint_cases (hsha : isSha revision = true) :
    (∃ e, persistCheckpoint identity memberId revision disk = .error e disk) ∨
      ∃ disk', persistCheckpoint identity memberId revision disk = .ok () disk' ∧
        disk'.checkpoint identity memberId = some revision := by
  unfold persistCheckpoint
  split
  · exact Or.inl ⟨_, rfl⟩
  · dsimp only
    split
    · exact Or.inl ⟨_, rfl⟩
    · rename_i hsize
      split
      · exact Or.inl ⟨_, rfl⟩
      · refine Or.inr ⟨_, rfl, ?_⟩
        rw [Disk.checkpoint, loadCheckpoint]
        simp only [not_true_eq_false, if_false, if_neg hsize]
        rw [parseCheckpoint_canonical hsha (Nat.le_of_not_lt hsize)]
        rfl

end Checkpoints

section Consumers

variable {c c' : RevisionConsumer} {disk : Disk}

/-- What holds between the cursor, the inbox and the checkpoint. -/
structure RevisionConsumer.Chained (c : RevisionConsumer) (disk : Disk) : Prop where
  linked : Linked (·.previousRevision) (·.revision) c.consumed c.pending c.received
  distinct : (c.consumed :: c.pending.map (·.revision)).Nodup
  bounded : c.pending.length ≤ maxPendingEvents
  durable : disk.checkpoint c.identity c.memberId = some c.consumed

/-- Two consumers that differ in their worker and its state alone. -/
structure RevisionConsumer.SameInbox (c c' : RevisionConsumer) : Prop where
  identity : c'.identity = c.identity
  memberId : c'.memberId = c.memberId
  pending : c'.pending = c.pending
  consumed : c'.consumed = c.consumed
  received : c'.received = c.received

lemma RevisionConsumer.SameInbox.refl (c : RevisionConsumer) : c.SameInbox c :=
  ⟨rfl, rfl, rfl, rfl, rfl⟩

lemma RevisionConsumer.Chained.of_same (h : c.Chained disk) (hsame : c.SameInbox c') :
    c'.Chained disk where
  linked := by
    rw [hsame.consumed, hsame.pending, hsame.received]
    exact h.linked
  distinct := by
    rw [hsame.consumed, hsame.pending]
    exact h.distinct
  bounded := by
    rw [hsame.pending]
    exact h.bounded
  durable := by
    rw [hsame.identity, hsame.memberId, hsame.consumed]
    exact h.durable

lemma RevisionConsumer.start_same (spawns : Bool) (c : RevisionConsumer) :
    c.SameInbox (after (RevisionConsumer.start spawns) c) := by
  unfold after RevisionConsumer.start
  split
  · rename_i hstart
    split_ifs at hstart
    · cases hstart
      exact .refl c
    · cases hstart
      exact ⟨rfl, rfl, rfl, rfl, rfl⟩
  · rename_i hstart
    split_ifs at hstart
    · cases hstart
      exact .refl c
    · cases hstart
      exact .refl c
    · cases hstart
      exact ⟨rfl, rfl, rfl, rfl, rfl⟩

lemma RevisionConsumer.settle_same (c : RevisionConsumer) (outcome : Outcome) :
    c.SameInbox (c.settle outcome) := by
  unfold RevisionConsumer.settle
  split
  · exact ⟨rfl, rfl, rfl, rfl, rfl⟩
  · split_ifs
    · exact ⟨rfl, rfl, rfl, rfl, rfl⟩
    · exact ⟨rfl, rfl, rfl, rfl, rfl⟩

lemma RevisionConsumer.turn_same (c : RevisionConsumer) : c.SameInbox c.turn := by
  unfold RevisionConsumer.turn
  split
  · split_ifs
    · exact ⟨rfl, rfl, rfl, rfl, rfl⟩
    · exact ⟨rfl, rfl, rfl, rfl, rfl⟩
  · exact .refl c

lemma RevisionConsumer.answered_same (c : RevisionConsumer) (outcome : Option Outcome) :
    c.SameInbox (c.answered outcome) := by
  unfold RevisionConsumer.answered
  split
  · exact ⟨rfl, rfl, rfl, rfl, rfl⟩
  · exact c.settle_same _
  · exact .refl c

lemma RevisionConsumer.stopWorker_same (c : RevisionConsumer) (preserveTerminal : Bool) :
    c.SameInbox (c.stopWorker preserveTerminal) := by
  unfold RevisionConsumer.stopWorker
  split_ifs
  · exact ⟨rfl, rfl, rfl, rfl, rfl⟩
  · exact ⟨rfl, rfl, rfl, rfl, rfl⟩

lemma RevisionConsumer.close_same (c : RevisionConsumer) : c.SameInbox c.close := by
  unfold RevisionConsumer.close
  split_ifs
  · exact .refl c
  · obtain ⟨hidentity, hmember, hpending, hconsumed, hreceived⟩ := c.stopWorker_same false
    exact ⟨hidentity, hmember, hpending, hconsumed, hreceived⟩

/-- A new consumer starts at the checkpoint with an empty inbox. -/
lemma newConsumer_cases (memberId : String) (initial : Snapshot) (disk : Disk) :
    (∃ e, newConsumer memberId initial disk = .error e disk) ∨
      ∃ c disk', newConsumer memberId initial disk = .ok c disk' ∧ c.pending = [] ∧
        c.Chained disk' ∧ ∃ found, loadCheckpoint c.identity c.memberId disk = .ok found ∧
          ∀ saved, found = some saved → c.consumed = saved := by
  have hempty (identity : SessionIdentity) (member consumed : String) (disk : Disk)
      (h : disk.checkpoint identity member = some consumed) :
      RevisionConsumer.Chained ⟨identity, member, [], none, .stopped, none, false, none, consumed,
        consumed⟩ disk :=
    ⟨rfl, List.nodup_singleton consumed, Nat.zero_le _, h⟩
  unfold newConsumer
  split
  · rename_i member identity baseline hmember hbaseline
    have hsha : isSha baseline = true := by
      simp only [snapshotBaseline, except_mapError_eq_ok, readBaseline, except_bind_eq_ok,
        shaHex_eq_ok, except_pure_eq_ok, Prod.mk.injEq] at hbaseline
      obtain ⟨_, -, _, ⟨-, hsha⟩, -, rfl⟩ := hbaseline
      exact hsha
    dsimp only
    cases hload : loadCheckpoint identity member disk with
    | error e => exact Or.inl ⟨e, rfl⟩
    | ok found =>
        cases found with
        | some saved =>
            refine Or.inr ⟨_, _, rfl, rfl, hempty _ _ _ _ (Disk.checkpoint_of_load hload),
              _, hload, fun other hother => ?_⟩
            cases hother
            rfl
        | none =>
            rcases @persistCheckpoint_cases identity member _ disk hsha with ⟨e, herror⟩ | ⟨disk', hok, hcheckpoint⟩
            · refine Or.inl ⟨e, ?_⟩
              rw [herror]
            · rw [hok]
              exact Or.inr ⟨_, disk', rfl, rfl, hempty _ _ baseline _ hcheckpoint, none, hload,
                nofun⟩
  · exact Or.inl ⟨_, rfl⟩
  · exact Or.inl ⟨_, rfl⟩

/-- How an acknowledgement can end. -/
lemma acknowledgeAtSafePoint_cases (revision : String) (s : Held) :
    (∃ e, acknowledgeAtSafePoint revision s = .error e s) ∨
      (revision = s.consumer.consumed ∧ acknowledgeAtSafePoint revision s = .ok () s) ∨
      ∃ index event disk, revision ≠ s.consumer.consumed ∧
        s.consumer.pending[index]? = some event ∧ event.revision = revision ∧
        s.consumer.covered revision = s.consumer.pending.take (index + 1) ∧
        disk.checkpoint s.consumer.identity s.consumer.memberId = some revision ∧
        acknowledgeAtSafePoint revision s = .ok ()
          ⟨{ s.consumer with
            consumed := revision
            pending := s.consumer.pending.drop (index + 1) }, disk⟩ := by
  unfold acknowledgeAtSafePoint
  dsimp only
  split
  · exact Or.inl ⟨_, rfl⟩
  · split
    · exact Or.inl ⟨_, rfl⟩
    · rename_i hsha
      rw [not_not] at hsha
      split
      · rename_i hconsumed
        exact Or.inr (Or.inl ⟨hconsumed, rfl⟩)
      · rename_i hconsumed
        split
        · exact Or.inl ⟨_, rfl⟩
        · rename_i index hindex
          obtain ⟨hlt, hfound, -⟩ := List.findIdx?_eq_some_iff_getElem.mp hindex
          rcases @persistCheckpoint_cases s.consumer.identity s.consumer.memberId _ s.disk hsha with
            ⟨e, herror⟩ | ⟨disk, hok, hcheckpoint⟩
          · refine Or.inl ⟨e, ?_⟩
            rw [herror]
          · refine Or.inr (Or.inr ⟨index, s.consumer.pending[index], disk, hconsumed,
              List.getElem?_eq_getElem hlt, of_decide_eq_true hfound, ?_, hcheckpoint, ?_⟩)
            · rw [RevisionConsumer.covered, hindex]
            · rw [hok]

/-- Moving the cursor over a prefix of the inbox keeps the chain. -/
lemma RevisionConsumer.Chained.advance (h : c.Chained disk) {index : ℕ} {event : ReplayEvent}
    (hevent : c.pending[index]? = some event) {disk' : Disk}
    (hdurable : disk'.checkpoint c.identity c.memberId = some event.revision) :
    RevisionConsumer.Chained
      { c with consumed := event.revision, pending := c.pending.drop (index + 1) } disk' where
  linked := (h.linked.split hevent).2
  distinct := by
    obtain ⟨hlt, rfl⟩ := List.getElem?_eq_some_iff.mp hevent
    have hdrop : c.pending.drop index = c.pending[index] :: c.pending.drop (index + 1) :=
      List.drop_eq_getElem_cons hlt
    have hsublist : (c.pending[index].revision ::
        (c.pending.drop (index + 1)).map (·.revision)).Sublist
        (c.consumed :: c.pending.map (·.revision)) := by
      rw [← List.map_cons (f := fun e : ReplayEvent => e.revision), ← hdrop]
      exact ((List.drop_sublist index c.pending).map _).cons _
    exact hsublist.nodup h.distinct
  bounded := by
    have hle : c.pending.length ≤ maxPendingEvents := h.bounded
    rw [List.length_drop]
    omega
  durable := hdurable

/-- How a reset can end: it fails and at most stops the worker, or the cursor is where the
snapshot is. -/
lemma resetAtSafePoint_cases (snapshot : Snapshot) (s : Held) :
    (∃ e, resetAtSafePoint snapshot s = .error e s) ∨
      (∃ e, resetAtSafePoint snapshot s = .error e ⟨s.consumer.stopWorker true, s.disk⟩) ∨
      ∃ c disk, resetAtSafePoint snapshot s = .ok () ⟨c, disk⟩ ∧ c.pending = [] ∧
        c.consumed = snapshot.revision ∧ c.Chained disk := by
  unfold resetAtSafePoint
  split
  · exact Or.inl ⟨_, rfl⟩
  · dsimp only
    cases hbaseline : snapshotBaseline snapshot with
    | error e => exact Or.inr (Or.inl ⟨e, rfl⟩)
    | ok baseline =>
        obtain ⟨identity, revision⟩ := baseline
        dsimp only
        have hrevision : revision = snapshot.revision ∧ isSha revision = true := by
          simp only [snapshotBaseline, except_mapError_eq_ok, readBaseline, except_bind_eq_ok,
            shaHex_eq_ok, except_pure_eq_ok, Prod.mk.injEq, Json.str.injEq] at hbaseline
          obtain ⟨_, -, _, ⟨rfl, hsha⟩, -, rfl⟩ := hbaseline
          exact ⟨rfl, hsha⟩
        split
        · exact Or.inr (Or.inl ⟨_, rfl⟩)
        · rcases @persistCheckpoint_cases (s.consumer.stopWorker true).identity
            (s.consumer.stopWorker true).memberId _ s.disk hrevision.2 with
            ⟨e, herror⟩ | ⟨disk, hok, hcheckpoint⟩
          · refine Or.inr (Or.inl ⟨e, ?_⟩)
            rw [herror]
          · rw [hok]
            refine Or.inr (Or.inr ⟨_, disk, rfl, rfl, hrevision.1, ?_⟩)
            exact ⟨rfl, List.nodup_singleton revision, Nat.zero_le _, hcheckpoint⟩

/-- An accepted event is the last one again, or the next of the chain. -/
lemma RevisionConsumer.accept_cases {event : ReplayEvent} (h : c.accept event = some c') :
    (event.revision = c.received ∧ c' = c) ∨
      event.revision ≠ c.received ∧ event.previousRevision = c.received ∧
        event.revision ≠ c.consumed ∧ (∀ old ∈ c.pending, old.revision ≠ event.revision) ∧
        c.pending.length < maxPendingEvents ∧
        c' = { c with
          pending := c.pending ++ [event]
          received := event.revision
          lastEvent := some event } := by
  unfold RevisionConsumer.accept at h
  split at h
  · rename_i hreceived
    split at h
    · cases h
    · cases h
      exact Or.inl ⟨hreceived, rfl⟩
  · rename_i hreceived
    split at h
    · cases h
    · rename_i hnext
      rw [not_or, not_not] at hnext
      split at h
      · cases h
      · rename_i hnew
        split at h
        · cases h
        · rename_i hroom
          cases h
          refine Or.inr ⟨hreceived, hnext.1, hnext.2, fun old hold heq => ?_,
            Nat.lt_of_not_le hroom, rfl⟩
          exact hnew (List.any_eq_true.mpr ⟨old, hold, decide_eq_true heq⟩)

lemma RevisionConsumer.accept_next {event : ReplayEvent} (hnew : event.revision ≠ c.received)
    (hprevious : event.previousRevision = c.received) (hconsumed : event.revision ≠ c.consumed)
    (hpending : ∀ old ∈ c.pending, old.revision ≠ event.revision)
    (hroom : c.pending.length < maxPendingEvents) :
    c.accept event = some { c with
      pending := c.pending ++ [event]
      received := event.revision
      lastEvent := some event } := by
  rw [RevisionConsumer.accept, if_neg hnew, if_neg (by simp [hprevious, hconsumed]), if_neg,
    if_neg (Nat.not_le_of_lt hroom)]
  rw [List.any_eq_true]
  rintro ⟨old, hmem, heq⟩
  exact hpending old hmem (of_decide_eq_true heq)

/-- An event that is appended keeps the chain. -/
lemma RevisionConsumer.Chained.append (h : c.Chained disk) {event : ReplayEvent}
    (hprevious : event.previousRevision = c.received) (hconsumed : event.revision ≠ c.consumed)
    (hnew : ∀ old ∈ c.pending, old.revision ≠ event.revision)
    (hroom : c.pending.length < maxPendingEvents) :
    RevisionConsumer.Chained { c with
      pending := c.pending ++ [event]
      received := event.revision
      lastEvent := some event } disk where
  linked := Linked.concat (hprevious.symm ▸ h.linked)
  distinct := by
    rw [List.map_append, List.map_singleton, ← List.cons_append]
    refine List.nodup_append.mpr ⟨h.distinct, List.nodup_singleton _, ?_⟩
    intro revision hrevision other hother
    rw [List.mem_singleton.mp hother]
    rcases List.mem_cons.mp hrevision with rfl | hrevision
    · exact fun heq => hconsumed heq.symm
    · obtain ⟨old, hold, rfl⟩ := List.mem_map.mp hrevision
      exact hnew old hold
  bounded := by
    rw [List.length_append, List.length_singleton]
    exact hroom
  durable := h.durable

/-- One line of the stream leaves the inbox alone, or appends the event it reports. -/
lemma RevisionConsumer.Chained.line (h : c.Chained disk) (line : List UInt8) :
    (c.line line).1.Chained disk ∧
      (c.line line).1.pending = c.pending ++ (c.line line).2.toList := by
  have hsame {c' : RevisionConsumer} (hc : c.SameInbox c') :
      c'.Chained disk ∧ c'.pending = c.pending ++ (none : Option ReplayEvent).toList :=
    ⟨h.of_same hc, by rw [hc.pending, Option.toList_none, List.append_nil]⟩
  unfold RevisionConsumer.line
  split
  · split
    · exact hsame (c.settle_same .inboxFull)
    · split
      · exact hsame ⟨rfl, rfl, rfl, rfl, rfl⟩
      · rename_i outcome _
        exact hsame (c.settle_same outcome)
      · split
        · exact hsame (c.settle_same .protocolError)
        · rename_i event _ accepted haccept
          obtain ⟨hreceived, rfl⟩ | ⟨hne, hprevious, hconsumed, hnew, hroom, rfl⟩ :=
            RevisionConsumer.accept_cases haccept
          · rw [if_pos hreceived]
            exact hsame ⟨rfl, rfl, rfl, rfl, rfl⟩
          · rw [if_neg hne]
            have happend := h.append hprevious hconsumed hnew hroom
            exact ⟨⟨happend.linked, happend.distinct, happend.bounded, happend.durable⟩, rfl⟩
  · exact hsame (.refl c)

end Consumers

section Runs

variable {w : ConsumerWorld}

/-- What holds of a host's consumer at every moment. -/
structure ConsumerWorld.Sound (w : ConsumerWorld) : Prop where
  chained : ∀ c, w.live = some c → c.Chained w.disk
  inbox : ∀ c, w.live = some c → w.acknowledged ++ c.pending = w.accepted

lemma ConsumerWorld.sound_of_none (h : w.live = none) : w.Sound := by
  constructor
  · intro c hc
    rw [h] at hc
    cases hc
  · intro c hc
    rw [h] at hc
    cases hc

lemma ConsumerWorld.Sound.change (h : w.Sound) {f : RevisionConsumer → RevisionConsumer}
    (hf : ∀ c : RevisionConsumer, c.SameInbox (f c)) : (w.change f).Sound := by
  constructor
  · intro c hc
    obtain ⟨old, hold, rfl⟩ := Option.map_eq_some_iff.mp hc
    exact (h.chained old hold).of_same (hf old)
  · intro c hc
    obtain ⟨old, hold, rfl⟩ := Option.map_eq_some_iff.mp hc
    rw [(hf old).pending]
    exact h.inbox old hold

/-- Every step keeps it. -/
theorem ConsumerWorld.Sound.step (h : w.Sound) (event : ConsumerEvent) : (w.step event).Sound := by
  cases event with
  | disk reads writes =>
      refine ⟨fun c hc => ?_, h.inbox⟩
      have hold := h.chained c hc
      exact ⟨hold.linked, hold.distinct, hold.bounded, hold.durable⟩
  | crash => exact ConsumerWorld.sound_of_none rfl
  | restart memberId initial =>
      rw [ConsumerWorld.step]
      obtain ⟨e, herror⟩ | ⟨c, disk, hok, hpending, hchained, -⟩ :=
        newConsumer_cases memberId initial w.disk
      · rw [herror]
        exact ConsumerWorld.sound_of_none rfl
      · rw [hok]
        refine ⟨fun other hother => ?_, fun other hother => ?_⟩
        · cases hother
          exact hchained
        · cases hother
          rw [hpending, List.append_nil]
          rfl
  | start spawns => exact h.change (RevisionConsumer.start_same spawns)
  | turn => exact h.change RevisionConsumer.turn_same
  | answered outcome => exact h.change fun c => c.answered_same outcome
  | line line =>
      rw [ConsumerWorld.step]
      cases hlive : w.live with
      | none => exact h
      | some c =>
          obtain ⟨hchained, hpending⟩ := (h.chained c hlive).line line
          refine ⟨fun other hother => ?_, fun other hother => ?_⟩
          · cases hother
            exact hchained
          · cases hother
            show w.acknowledged ++ (c.line line).1.pending = w.accepted ++ _
            rw [hpending, ← List.append_assoc, h.inbox c hlive]
  | acknowledge revision =>
      rw [ConsumerWorld.step]
      cases hlive : w.live with
      | none => exact h
      | some c =>
          obtain ⟨e, herror⟩ | ⟨hconsumed, hok⟩ | ⟨index, event, disk, hne, hevent, rfl,
            hcovered, hcheckpoint, hok⟩ := acknowledgeAtSafePoint_cases revision ⟨c, w.disk⟩
          · dsimp only
            rw [herror]
            exact ⟨fun other hother => by cases hother; exact h.chained c hlive,
              fun other hother => by cases hother; exact h.inbox c hlive⟩
          · dsimp only at hconsumed ⊢
            rw [hok, if_pos hconsumed]
            refine ⟨fun other hother => ?_, fun other hother => ?_⟩
            · cases hother
              exact h.chained c hlive
            · cases hother
              show w.acknowledged ++ [] ++ c.pending = w.accepted
              rw [List.append_nil]
              exact h.inbox c hlive
          · dsimp only at hne hevent hcovered hcheckpoint ⊢
            rw [hok, if_neg hne, hcovered]
            refine ⟨fun other hother => ?_, fun other hother => ?_⟩
            · cases hother
              exact (h.chained c hlive).advance hevent hcheckpoint
            · cases hother
              show w.acknowledged ++ c.pending.take (index + 1) ++ c.pending.drop (index + 1) = _
              rw [List.append_assoc, List.take_append_drop]
              exact h.inbox c hlive
  | reset snapshot =>
      rw [ConsumerWorld.step]
      cases hlive : w.live with
      | none => exact h
      | some c =>
          obtain ⟨e, herror⟩ | ⟨e, herror⟩ | ⟨c', disk, hok, hpending, -, hchained⟩ :=
            resetAtSafePoint_cases snapshot ⟨c, w.disk⟩
          · dsimp only
            rw [herror]
            exact ⟨fun other hother => by cases hother; exact h.chained c hlive,
              fun other hother => by cases hother; exact h.inbox c hlive⟩
          · dsimp only
            rw [herror]
            have hstopped := c.stopWorker_same true
            refine ⟨fun other hother => ?_, fun other hother => ?_⟩
            · cases hother
              exact (h.chained c hlive).of_same hstopped
            · cases hother
              show w.acknowledged ++ (c.stopWorker true).pending = w.accepted
              rw [hstopped.pending]
              exact h.inbox c hlive
          · dsimp only
            rw [hok]
            exact ⟨fun other hother => by cases hother; exact hchained,
              fun other hother => by cases hother; exact hpending⟩
  | close => exact h.change RevisionConsumer.close_same

end Runs

/-- In every run: the pending events are one chain from the consumed to the received
revision, without a repeated revision and at most as many as the inbox has room for; the
checkpoint file has the consumed revision; what was acknowledged since the last reset,
followed by what is pending, is what was accepted since then and not given up by a restart,
in its order. An acknowledgement that fails changes nothing, a reset that fails at most
stops the worker, and a restart starts with an empty inbox at the consumed revision. -/
theorem consumer_inbox (file : Option ByteArray) (events : List ConsumerEvent)
    (c : RevisionConsumer) :
    let w := Machine.run ConsumerWorld.step (.initial file) events
    w.live = some c →
      (Linked (·.previousRevision) (·.revision) c.consumed c.pending c.received ∧
        (c.consumed :: c.pending.map (·.revision)).Nodup ∧
        c.pending.length ≤ maxPendingEvents) ∧
      w.disk.checkpoint c.identity c.memberId = some c.consumed ∧
      w.acknowledged ++ c.pending = w.accepted ∧
      (∀ revision e held,
        acknowledgeAtSafePoint revision ⟨c, w.disk⟩ = .error e held → held = ⟨c, w.disk⟩) ∧
      (∀ snapshot e held, resetAtSafePoint snapshot ⟨c, w.disk⟩ = .error e held →
        held = ⟨c, w.disk⟩ ∨ held = ⟨c.stopWorker true, w.disk⟩) ∧
      ∀ memberId initial again disk, newConsumer memberId initial w.disk = .ok again disk →
        again.identity = c.identity → again.memberId = c.memberId →
          again.pending = [] ∧ again.consumed = c.consumed ∧ again.received = c.consumed := by
  intro w hlive
  have hsound : w.Sound := Machine.run_invariant (fun _ event h => h.step event)
    (ConsumerWorld.sound_of_none rfl) events
  have hchained := hsound.chained c hlive
  refine ⟨⟨hchained.linked, hchained.distinct, hchained.bounded⟩, hchained.durable,
    hsound.inbox c hlive, fun revision e held hfailed => ?_, fun snapshot e held hfailed => ?_,
    fun memberId initial again disk hagain hidentity hmember => ?_⟩
  · obtain ⟨e', herror⟩ | ⟨-, hok⟩ | ⟨_, _, _, -, -, -, -, -, hok⟩ :=
      acknowledgeAtSafePoint_cases revision ⟨c, w.disk⟩
    · rw [herror] at hfailed
      cases hfailed
      rfl
    · rw [hok] at hfailed
      cases hfailed
    · rw [hok] at hfailed
      cases hfailed
  · obtain ⟨e', herror⟩ | ⟨e', herror⟩ | ⟨_, _, hok, -⟩ :=
      resetAtSafePoint_cases snapshot ⟨c, w.disk⟩
    · rw [herror] at hfailed
      cases hfailed
      exact Or.inl rfl
    · rw [herror] at hfailed
      cases hfailed
      exact Or.inr rfl
    · rw [hok] at hfailed
      cases hfailed
  · obtain ⟨e, herror⟩ | ⟨made, disk', hok, hpending, hmade, hsaved⟩ :=
      newConsumer_cases memberId initial w.disk
    · rw [herror] at hagain
      cases hagain
    · rw [hok] at hagain
      cases hagain
      obtain ⟨found, hfound, hresumes⟩ := hsaved
      have hcheckpoint := Disk.checkpoint_of_load hfound
      rw [hidentity, hmember, hchained.durable] at hcheckpoint
      have hconsumed := hresumes _ hcheckpoint.symm
      have hlinked := hmade.linked
      rw [hpending] at hlinked
      exact ⟨hpending, hconsumed, hlinked.symm.trans hconsumed⟩

section Frames

/-- The lines of the frame of an event. -/
def frameOf (event : ReplayEvent) : List ConsumerEvent :=
  [.line (fieldLine "event" "revision" ++ [10]), .line (fieldLine "id" event.revision ++ [10]),
    .line (fieldLine "data" (Json.canonical event.toDict) ++ [10]), .line [10]]

variable {w : ConsumerWorld} {c c' : RevisionConsumer} {event : ReplayEvent}

lemma ConsumerWorld.step_more {parser parser' : StreamParser} {line : List UInt8}
    (hroom : c.pending.length ≠ maxPendingEvents) (hfeed : parser.feed line = .more parser') :
    ConsumerWorld.step { w with live := some { c with worker := some (.reading parser) } }
        (.line line) =
      { w with live := some { c with worker := some (.reading parser') } } := by
  simp only [ConsumerWorld.step, RevisionConsumer.line, if_neg hroom, hfeed, Option.toList_none,
    List.append_nil]

/-- The frame of an event that fits, and that the inbox has room for, makes it grow. -/
theorem ConsumerWorld.run_frame (hroom : c.pending.length ≠ maxPendingEvents)
    (hformed : event.Formed) (hsize : (canonicalJsonBytes event.toDict).size ≤ maxJsonBytes)
    (haccept : c.accept event = some c') (hnew : event.revision ≠ c.received) :
    Machine.run ConsumerWorld.step
        { w with live := some { c with worker := some (.reading .fresh) } } (frameOf event) =
      { w with
        live := some { c' with worker := some (.reading .fresh) }
        accepted := w.accepted ++ [event] } := by
  obtain ⟨hname, hid, hdata, hend⟩ := feed_frame hformed hsize
  have haccept' (phase : Option WorkerPhase) :
      RevisionConsumer.accept { c with worker := phase } event =
        some { c' with worker := phase } := by
    obtain ⟨heq, -⟩ | ⟨hne, hprevious, hconsumed, hold, hlength, rfl⟩ :=
      RevisionConsumer.accept_cases haccept
    · exact absurd heq hnew
    · exact RevisionConsumer.accept_next (c := { c with worker := phase }) hne hprevious
        hconsumed hold hlength
  rw [frameOf, Machine.run_cons, ConsumerWorld.step_more hroom hname, Machine.run_cons,
    ConsumerWorld.step_more hroom hid, Machine.run_cons, ConsumerWorld.step_more hroom hdata,
    Machine.run_cons]
  simp only [ConsumerWorld.step, RevisionConsumer.line, if_neg hroom, hend, haccept', if_neg hnew,
    Option.toList_some]
  rfl

end Frames

section Samples

variable {identity : SessionIdentity} {memberId baseline : String} {initial : Snapshot}

lemma newConsumer_starts (hmember : isSafeId memberId = true)
    (hbaseline : snapshotBaseline initial = .ok (identity, baseline))
    (hsize : (canonicalJsonBytes (checkpointObject identity memberId baseline)).size ≤
      maxCheckpointBytes) :
    newConsumer memberId initial ⟨none, true, true⟩ =
      .ok ⟨identity, memberId, [], none, .stopped, none, false, none, baseline, baseline⟩
        ⟨some (canonicalJsonBytes (checkpointObject identity memberId baseline)), true, true⟩ := by
  have hsafe : safeId (.str memberId) "member id" = .ok memberId := safeId_eq_ok.mpr ⟨rfl, hmember⟩
  simp only [newConsumer, hsafe, hbaseline, loadCheckpoint, persistCheckpoint,
    if_neg (Nat.not_lt_of_le hsize), not_true_eq_false, if_false]

lemma newConsumer_resumes {raw : ByteArray} {saved : String} {writes : Bool}
    (hmember : isSafeId memberId = true)
    (hbaseline : snapshotBaseline initial = .ok (identity, baseline))
    (hsize : raw.size ≤ maxCheckpointBytes)
    (hparse : parseCheckpoint identity memberId raw = .ok saved) :
    newConsumer memberId initial ⟨some raw, true, writes⟩ =
      .ok ⟨identity, memberId, [], none, .stopped, none, false, none, saved, saved⟩
        ⟨some raw, true, writes⟩ := by
  have hsafe : safeId (.str memberId) "member id" = .ok memberId := safeId_eq_ok.mpr ⟨rfl, hmember⟩
  simp only [newConsumer, hsafe, hbaseline, loadCheckpoint, if_neg (Nat.not_lt_of_le hsize),
    not_true_eq_false, if_false, hparse]
  rfl

/-- A reset that can read its checkpoint but not write it stops the worker and fails. -/
lemma resetAtSafePoint_unwritable {c : RevisionConsumer} {raw : ByteArray} {saved : String}
    (hopen : c.closed = false) (hterminal : ¬ c.state.Terminal)
    (hbaseline : snapshotBaseline initial = .ok (c.identity, baseline))
    (hsize : raw.size ≤ maxCheckpointBytes)
    (hparse : parseCheckpoint c.identity c.memberId raw = .ok saved) :
    resetAtSafePoint initial ⟨c, ⟨some raw, true, false⟩⟩ = .error notPersisted
      ⟨{ c with worker := none, state := .stopped, code := none }, ⟨some raw, true, false⟩⟩ := by
  have hfails (revision : String) :
      persistCheckpoint c.identity c.memberId revision ⟨some raw, true, false⟩ =
        .error notPersisted ⟨some raw, true, false⟩ := by
    simp only [persistCheckpoint, loadCheckpoint, if_neg (Nat.not_lt_of_le hsize),
      not_true_eq_false, if_false, hparse]
    show (if _ then _ else _) = _
    rw [ite_eq_left_iff]
    intro _
    rfl
  simp only [resetAtSafePoint, hopen, Bool.false_eq_true, if_false, hbaseline,
    RevisionConsumer.stopWorker, hterminal, and_false, ne_eq, not_true_eq_false, hfails]

lemma ConsumerWorld.step_restart {w : ConsumerWorld} {memberId : String} {initial : Snapshot}
    {c : RevisionConsumer} {disk : Disk} (h : newConsumer memberId initial w.disk = .ok c disk) :
    w.step (.restart memberId initial) = { w.crash with live := some c, disk := disk } := by
  rw [ConsumerWorld.step, h]

lemma ConsumerWorld.step_reset_failed {w : ConsumerWorld} {c : RevisionConsumer}
    {snapshot : Snapshot} {e : CollabError} {held : Held} (hlive : w.live = some c)
    (h : resetAtSafePoint snapshot ⟨c, w.disk⟩ = .error e held) :
    w.step (.reset snapshot) = { w with live := some held.consumer, disk := held.disk } := by
  simp only [ConsumerWorld.step, hlive, h]

lemma snapshotBaseline_valid {state : SessionState} {revision : String} (h : state.Valid)
    (hdrive : state.NoDrive) (hsha : isSha revision = true) :
    snapshotBaseline ⟨revision, state⟩ =
      .ok (⟨state.sessionId, state.baseCommit, state.targetVersion⟩, revision) := by
  have hparse : parseStateDict state.toDict = .ok state :=
    (parseStateDict_document (stateDocument_toDict state)).mpr
      ⟨h.admissible_iff.mpr hdrive, h.normal.symm⟩
  have hrevision : shaHex (.str revision) "revision" = .ok revision := shaHex_eq_ok.mpr ⟨rfl, hsha⟩
  rw [snapshotBaseline, readBaseline, hparse]
  simp only [hrevision]
  rfl

def firstSnapshot : Snapshot := ⟨stateSha, wideState []⟩

def firstIdentity : SessionIdentity := ⟨"s", stateSha, ""⟩

lemma firstBaseline : snapshotBaseline firstSnapshot = .ok (firstIdentity, stateSha) :=
  snapshotBaseline_valid (wideState_valid (by decide) (by decide) (by decide))
    (fun id task htask => by
      obtain ⟨-, rfl⟩ := (wideTasks_getElem? (by decide)).mp htask
      exact nofun) isSha_stateSha

def nextEvent : ReplayEvent := ⟨stateSha, laterSha, true, []⟩

lemma nextEvent_formed : nextEvent.Formed where
  previousRevision := isSha_stateSha
  revision := isSha_laterSha
  distinct := stateSha_ne
  ids := nofun
  sorted := List.Pairwise.nil
  count := Nat.zero_le _

/-- The checkpoint of the first revision. -/
@[irreducible] def firstFile : ByteArray := canonicalJsonBytes (checkpointObject firstIdentity "m" stateSha)

lemma size_firstFile : firstFile.size ≤ maxCheckpointBytes := by
  have hkeys : Json.bytes (Json.renderString "schema") = 8 ∧
      Json.bytes (Json.renderString "session_id") = 12 ∧
      Json.bytes (Json.renderString "base_commit") = 13 ∧
      Json.bytes (Json.renderString "target_version") = 16 ∧
      Json.bytes (Json.renderString "member_id") = 11 ∧
      Json.bytes (Json.renderString "consumed_revision") = 19 := by decide +kernel
  have hvalues : Json.bytes (Json.render (.int 1)) = 1 ∧
      Json.bytes (Json.renderString "s") = 3 ∧ Json.bytes (Json.renderString "") = 2 ∧
      Json.bytes (Json.renderString "m") = 3 := by decide +kernel
  unfold firstFile
  rw [canonicalJsonBytes, size_toUTF8, Json.bytes_canonical, checkpointObject,
    Json.bytes_render_obj]
  simp only [firstIdentity, List.map_cons, List.map_nil, List.sum_cons, List.sum_nil,
    List.length_cons, List.length_nil, Json.memberBytes, hkeys, hvalues.1]
  simp only [Json.render, hvalues, bytes_renderString_sha isSha_stateSha]
  decide

lemma parse_firstFile : parseCheckpoint firstIdentity "m" firstFile = .ok stateSha := by
  have hsize := size_firstFile
  unfold firstFile at hsize ⊢
  exact parseCheckpoint_canonical isSha_stateSha hsize

/-- A consumer at the first revision. -/
def firstConsumer : RevisionConsumer :=
  ⟨firstIdentity, "m", [], none, .stopped, none, false, none, stateSha, stateSha⟩

lemma newConsumer_first : newConsumer "m" firstSnapshot ⟨none, true, true⟩ =
    .ok firstConsumer ⟨some firstFile, true, true⟩ := by
  have hsize := size_firstFile
  unfold firstFile at hsize ⊢
  exact newConsumer_starts (by decide) firstBaseline hsize

lemma newConsumer_again : newConsumer "m" firstSnapshot ⟨some firstFile, true, true⟩ =
    .ok firstConsumer ⟨some firstFile, true, true⟩ :=
  newConsumer_resumes (by decide) firstBaseline size_firstFile parse_firstFile

/-- The consumer that receives one event. -/
def receiving : List ConsumerEvent :=
  [.restart "m" firstSnapshot, .start true, .turn, .answered none] ++ frameOf nextEvent

/-- A consumer that has received it. -/
def receivedConsumer : RevisionConsumer :=
  { firstConsumer with
    pending := [nextEvent]
    lastEvent := some nextEvent
    state := .streaming
    worker := some (.reading .fresh)
    received := laterSha }

def receivedWorld : ConsumerWorld where
  live := some receivedConsumer
  disk := ⟨some firstFile, true, true⟩
  accepted := [nextEvent]
  acknowledged := []

lemma accept_nextEvent : RevisionConsumer.accept { firstConsumer with state := .streaming }
    nextEvent = some { firstConsumer with
      pending := [nextEvent]
      lastEvent := some nextEvent
      state := .streaming
      received := laterSha } :=
  RevisionConsumer.accept_next (c := { firstConsumer with state := .streaming }) stateSha_ne.symm
    rfl stateSha_ne.symm nofun (by decide)

lemma run_receiving :
    Machine.run ConsumerWorld.step (.initial none) receiving = receivedWorld := by
  have hrestart : (ConsumerWorld.initial none).step (.restart "m" firstSnapshot) =
      ⟨some firstConsumer, ⟨some firstFile, true, true⟩, [], []⟩ := by
    rw [ConsumerWorld.step, ConsumerWorld.initial, newConsumer_first]
    rfl
  have hsize : (canonicalJsonBytes nextEvent.toDict).size ≤ maxJsonBytes := by
    rw [nextEvent_formed.size]
    decide
  have hstreaming : Machine.run ConsumerWorld.step
      ⟨some firstConsumer, ⟨some firstFile, true, true⟩, [], []⟩ [.start true, .turn, .answered none] =
        ⟨some { firstConsumer with state := .streaming, worker := some (.reading .fresh) },
          ⟨some firstFile, true, true⟩, [], []⟩ := rfl
  rw [receiving, Machine.run_append, Machine.run_cons, hrestart, hstreaming]
  exact ConsumerWorld.run_frame
    (w := ⟨none, ⟨some firstFile, true, true⟩, [], []⟩)
    (c := { firstConsumer with state := .streaming }) (by decide) nextEvent_formed hsize accept_nextEvent
    stateSha_ne.symm

theorem consumer_inbox_sample :
    ∃ c, receivedWorld.live = some c ∧
      Linked (·.previousRevision) (·.revision) c.consumed c.pending c.received ∧
      receivedWorld.acknowledged ++ c.pending = receivedWorld.accepted := by
  have h := consumer_inbox none receiving
  rw [run_receiving] at h
  exact ⟨_, rfl, (h _ rfl).1.1, (h _ rfl).2.2.1⟩

/-- An event that was accepted is neither acknowledged nor pending after a restart without
any reset, and a reset that cannot write its checkpoint has stopped the worker. -/
theorem restart_gives_up_pending :
    Machine.run ConsumerWorld.step (.initial none) receiving = receivedWorld ∧
      receivedWorld.accepted = [nextEvent] ∧
      (let w := receivedWorld.crash.step (.restart "m" firstSnapshot)
      w.acknowledged = [] ∧ w.live.map (·.pending) = some []) ∧
      (let w := (receivedWorld.step (.disk true false)).step (.reset firstSnapshot)
      receivedWorld.live.map (·.state) = some .streaming ∧
        w.live.map (·.state) = some .stopped ∧ w.accepted = [nextEvent]) := by
  refine ⟨run_receiving, rfl, ?_, ?_⟩
  · have hdisk : receivedWorld.crash.disk = ⟨some firstFile, true, true⟩ := rfl
    have hagain := newConsumer_again
    rw [← hdisk] at hagain
    rw [ConsumerWorld.step_restart hagain]
    exact ⟨rfl, rfl⟩
  · have hreset := resetAtSafePoint_unwritable (c := receivedConsumer) rfl (by decide)
      firstBaseline size_firstFile parse_firstFile
    have hdisk : receivedWorld.step (.disk true false) =
        { receivedWorld with disk := ⟨some firstFile, true, false⟩ } := rfl
    rw [hdisk, ConsumerWorld.step_reset_failed
      (w := { receivedWorld with disk := ⟨some firstFile, true, false⟩ }) rfl hreset]
    exact ⟨rfl, rfl, rfl⟩

end Samples

end Imece.CollabRuntime
