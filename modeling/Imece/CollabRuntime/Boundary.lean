import Imece.CollabRuntime.SafePoint

/-!
# What a safe point consumes

While a safe point prepares an input, the inbox grows at its end and the cursor stays. The
acknowledgement moves the cursor over exactly the captured events that the bound snapshot
covers.
-/
namespace Imece.CollabRuntime

open Lib

section Drift

/-- Events have come in at the end of an inbox, and nothing else has happened to it. -/
structure ConsumerWorld.Drift (w : ConsumerWorld) (c : RevisionConsumer) (w' : ConsumerWorld)
    (c' : RevisionConsumer) (arrived : List ReplayEvent) : Prop where
  live : w'.live = some c'
  identity : c'.identity = c.identity
  memberId : c'.memberId = c.memberId
  consumed : c'.consumed = c.consumed
  pending : c'.pending = c.pending ++ arrived
  accepted : w'.accepted = w.accepted ++ arrived
  acknowledged : w'.acknowledged = w.acknowledged
  durable : w'.disk.checkpoint c.identity c.memberId = w.disk.checkpoint c.identity c.memberId

variable {w w' : ConsumerWorld} {c c' : RevisionConsumer} {arrived : List ReplayEvent}

lemma ConsumerWorld.Drift.refl (h : w.live = some c) : w.Drift c w c [] :=
  ⟨h, rfl, rfl, rfl, (List.append_nil _).symm, (List.append_nil _).symm, rfl, rfl⟩

lemma ConsumerWorld.Drift.trans {w'' : ConsumerWorld} {c'' : RevisionConsumer}
    {more : List ReplayEvent} (h : w.Drift c w' c' arrived) (h' : w'.Drift c' w'' c'' more) :
    w.Drift c w'' c'' (arrived ++ more) where
  live := h'.live
  identity := h'.identity.trans h.identity
  memberId := h'.memberId.trans h.memberId
  consumed := h'.consumed.trans h.consumed
  pending := by rw [h'.pending, h.pending, List.append_assoc]
  accepted := by rw [h'.accepted, h.accepted, List.append_assoc]
  acknowledged := h'.acknowledged.trans h.acknowledged
  durable := by
    have hdurable := h'.durable
    rw [h.identity, h.memberId] at hdurable
    exact hdurable.trans h.durable

lemma ConsumerWorld.Drift.change {f : RevisionConsumer → RevisionConsumer}
    (hlive : w.live = some c) (hf : c.SameInbox (f c)) : w.Drift c (w.change f) (f c) [] where
  live := by rw [ConsumerWorld.change, hlive, Option.map_some]
  identity := hf.identity
  memberId := hf.memberId
  consumed := hf.consumed
  pending := by rw [hf.pending, List.append_nil]
  accepted := (List.append_nil _).symm
  acknowledged := rfl
  durable := rfl

lemma RevisionConsumer.accept_inbox {event : ReplayEvent} (h : c.accept event = some c') :
    c'.identity = c.identity ∧ c'.memberId = c.memberId ∧ c'.consumed = c.consumed := by
  obtain ⟨-, rfl⟩ | ⟨-, -, -, -, -, rfl⟩ := RevisionConsumer.accept_cases h
  · exact ⟨rfl, rfl, rfl⟩
  · exact ⟨rfl, rfl, rfl⟩

/-- A line of the stream does not touch the cursor. -/
lemma RevisionConsumer.line_cursor (c : RevisionConsumer) (line : List UInt8) :
    (c.line line).1.identity = c.identity ∧ (c.line line).1.memberId = c.memberId ∧
      (c.line line).1.consumed = c.consumed := by
  have hsettle (outcome : Outcome) : (c.settle outcome).identity = c.identity ∧
      (c.settle outcome).memberId = c.memberId ∧ (c.settle outcome).consumed = c.consumed :=
    ⟨(c.settle_same outcome).identity, (c.settle_same outcome).memberId,
      (c.settle_same outcome).consumed⟩
  unfold RevisionConsumer.line
  split
  · split
    · exact hsettle _
    · split
      · exact ⟨rfl, rfl, rfl⟩
      · exact hsettle _
      · split
        · exact hsettle _
        · rename_i event _ accepted haccept
          obtain ⟨hidentity, hmember, hconsumed⟩ := RevisionConsumer.accept_inbox haccept
          exact ⟨hidentity, hmember, hconsumed⟩
  · exact ⟨rfl, rfl, rfl⟩

/-- Whatever others do, the inbox only grows. -/
lemma BoundaryWorld.step_drift {w : BoundaryWorld} (hsound : w.inbox.Sound)
    (hlive : w.inbox.live = some c) (move : BoundaryMove) :
    ∃ c' arrived, w.inbox.Drift c (w.step move).inbox c' arrived := by
  cases move with
  | disk reads writes => exact ⟨c, [], { ConsumerWorld.Drift.refl hlive with durable := rfl }⟩
  | start spawns => exact ⟨_, [], .change hlive (RevisionConsumer.start_same spawns c)⟩
  | turn => exact ⟨_, [], .change hlive c.turn_same⟩
  | answered outcome => exact ⟨_, [], .change hlive (c.answered_same outcome)⟩
  | line line =>
      obtain ⟨hidentity, hmember, hconsumed⟩ := c.line_cursor line
      have hstep : (w.step (.line line)).inbox = { w.inbox with
          live := some (c.line line).1
          accepted := w.inbox.accepted ++ (c.line line).2.toList } := by
        simp only [BoundaryWorld.step, BoundaryWorld.inboxMoves, ConsumerWorld.step, hlive]
      refine ⟨(c.line line).1, (c.line line).2.toList, ?_⟩
      rw [hstep]
      exact ⟨rfl, hidentity, hmember, hconsumed,
        ((hsound.chained c hlive).line line).2, rfl, rfl, rfl⟩
  | close => exact ⟨_, [], .change hlive c.close_same⟩
  | cancel => exact ⟨c, [], .refl hlive⟩
  | pass => exact ⟨c, [], .refl hlive⟩
  | answer answer => exact ⟨c, [], .refl hlive⟩

lemma BoundaryWorld.step_sound {w : BoundaryWorld} (h : w.inbox.Sound) (move : BoundaryMove) :
    (w.step move).inbox.Sound := by
  cases move with
  | disk reads writes => exact h.step (.disk reads writes)
  | start spawns => exact h.step (.start spawns)
  | turn => exact h.step .turn
  | answered outcome => exact h.step (.answered outcome)
  | line line => exact h.step (.line line)
  | close => exact h.step .close
  | cancel => exact h
  | pass => exact h
  | answer answer => exact h

lemma BoundaryWorld.run_sound {w : BoundaryWorld} (h : w.inbox.Sound)
    (moves : List BoundaryMove) : (Machine.run BoundaryWorld.step w moves).inbox.Sound :=
  Machine.run_invariant (I := fun w : BoundaryWorld => w.inbox.Sound)
    (fun _ move h => step_sound h move) h moves

/-- The same for any number of moves. -/
theorem BoundaryWorld.run_drift {w : BoundaryWorld} (hsound : w.inbox.Sound)
    (hlive : w.inbox.live = some c) (moves : List BoundaryMove) :
    ∃ c' arrived, w.inbox.Drift c (Machine.run BoundaryWorld.step w moves).inbox c' arrived := by
  induction moves generalizing w c with
  | nil => exact ⟨c, [], .refl hlive⟩
  | cons move rest ih =>
      obtain ⟨c', arrived, hstep⟩ := BoundaryWorld.step_drift hsound hlive move
      obtain ⟨c'', more, hrest⟩ := ih (step_sound hsound move) hstep.live
      exact ⟨c'', arrived ++ more, hstep.trans hrest⟩

end Drift

section Returns

/-- Others have moved from one state to the other. -/
def BoundaryWorld.Reached (w w' : BoundaryWorld) : Prop :=
  ∃ moves, w' = Machine.run BoundaryWorld.step w moves

lemma BoundaryWorld.Reached.refl (w : BoundaryWorld) : w.Reached w := ⟨[], rfl⟩

lemma BoundaryWorld.Reached.trans {w w' w'' : BoundaryWorld} (h : w.Reached w')
    (h' : w'.Reached w'') : w.Reached w'' := by
  obtain ⟨moves, rfl⟩ := h
  obtain ⟨more, rfl⟩ := h'
  exact ⟨moves ++ more, (Machine.run_append w moves more).symm⟩

lemma BoundaryWorld.Reached.sound {w w' : BoundaryWorld} (h : w.Reached w')
    (hsound : w.inbox.Sound) : w'.inbox.Sound := by
  obtain ⟨moves, rfl⟩ := h
  exact BoundaryWorld.run_sound hsound moves

lemma BoundaryWorld.Reached.drift {w w' : BoundaryWorld} {c : RevisionConsumer}
    (h : w.Reached w') (hsound : w.inbox.Sound) (hlive : w.inbox.live = some c) :
    ∃ c' arrived, w.inbox.Drift c w'.inbox c' arrived := by
  obtain ⟨moves, rfl⟩ := h
  exact BoundaryWorld.run_drift hsound hlive moves

variable {α β : Type} {w : BoundaryWorld}

/-- Whatever others do, what the accesses return has a property. -/
def Returns (p : Access α) (P : α → BoundaryWorld → Prop) (w : BoundaryWorld) : Prop :=
  p.Safe BoundaryWorld.Reached (fun _ _ _ => True) (fun r t => ∀ a, r = .ok a → P a t) w

lemma Returns.pure {a : α} {P : α → BoundaryWorld → Prop} (h : ∀ t, w.Reached t → P a t) :
    Returns (pure a) P w := by
  intro t ht b hb
  cases hb
  exact h t ht

lemma Returns.throw (e : SafePointFailure) (P : α → BoundaryWorld → Prop) :
    Returns (Prog.throw e) P w :=
  fun _ _ => nofun

lemma Returns.look_bind {read : BoundaryWorld → Except SafePointFailure α} {f : α → Access β}
    {P : β → BoundaryWorld → Prop}
    (h : ∀ t a, w.Reached t → read t = .ok a → Returns (f a) P t) :
    Returns (Prog.look () read >>= f) P w :=
  Prog.Safe.look_bind (fun _ => trivial) h fun _ _ _ _ _ _ => nofun

lemma Returns.check_bind {result : Except SafePointFailure α} {f : α → Access β}
    {P : β → BoundaryWorld → Prop} (h : ∀ a, result = .ok a → Returns (f a) P w) :
    Returns (Prog.check result >>= f) P w :=
  Prog.Safe.check_bind h fun _ _ _ _ => nofun

lemma Returns.bind {p : Access α} {f : α → Access β} {P : α → BoundaryWorld → Prop}
    {Q : β → BoundaryWorld → Prop} (hp : Returns p P w)
    (hf : ∀ a t, P a t → Returns (f a) Q t) : Returns (p >>= f) Q w :=
  Prog.Safe.bind .refl hp (fun a t h => hf a t (h a rfl)) fun _ _ _ => nofun

/-- What a run of the accesses among moves of others returns has the property. -/
lemma Returns.among {p : Access α} {P : α → BoundaryWorld → Prop} (h : Returns p P w)
    (schedule : List (List BoundaryMove)) {a : α}
    (ha : (p.among BoundaryWorld.step schedule w).1 = some (.ok a)) :
    P a (p.among BoundaryWorld.step schedule w).2 :=
  Prog.Safe.among (fun _ moves => ⟨moves, rfl⟩) h schedule _ ha a rfl

end Returns

section Envelopes

variable {contentHash : SharedContext → String}

lemma contextHashOf_eq_ok {value : Json} {text : String} :
    contextHashOf value = .ok text ↔ value = .str text ∧ isContextHash text = true := by
  cases value with
  | str other =>
      rw [contextHashOf, Json.str.injEq]
      split_ifs with h
      · rw [Except.ok.injEq]
        exact ⟨fun heq => ⟨heq, heq ▸ h⟩, fun heq => heq.1⟩
      · exact iff_of_false nofun fun heq => h (heq.1 ▸ heq.2)
  | null | bool | int | float | arr | obj => simp [contextHashOf]

/-- What the parser makes of the document of a snapshot. -/
lemma parseSnapshotDict_toDict {given snapshot : SharedSnapshot} :
    parseSnapshotDict contentHash given.toDict = .ok snapshot ↔
      isSha given.revision = true ∧ isContextHash given.contextHash = true ∧
        isSafeId given.taskId = true ∧ parseStateDict given.state.toDict = .ok snapshot.state ∧
        snapshot.state.tasks[given.taskId]?.isSome = true ∧
        given.contextHash = contentHash snapshot.state.context ∧
        snapshot = { given with state := snapshot.state } := by
  have hobject := @Json.objectOf_obj
    [("schema", .int 1), ("revision", .str given.revision),
      ("context_hash", .str given.contextHash), ("state", given.state.toDict),
      ("task_id", .str given.taskId)]
    (show snapshotKeys.Nodup by decide)
  obtain ⟨members, hexact, hget⟩ :=
    @exactKeys_objectOf snapshotKeys _ _ "shared context snapshot" hobject
  have hfound : exactKeys given.toDict snapshotKeys "shared context snapshot" = .ok members :=
    hexact
  have hschema : Json.field members "schema" = .int 1 := hget _ (by decide)
  have hrevision : Json.field members "revision" = .str given.revision := hget _ (by decide)
  have hhash : Json.field members "context_hash" = .str given.contextHash := hget _ (by decide)
  have hstate : Json.field members "state" = given.state.toDict := hget _ (by decide)
  have htask : Json.field members "task_id" = .str given.taskId := hget _ (by decide)
  rw [parseSnapshotDict]
  simp only [except_bind_eq_ok, hfound, Except.ok.injEq, exists_eq_left', hschema, hrevision,
    hhash, hstate, htask, except_mapError_eq_ok, parseSchema_eq_ok, shaHex_eq_ok,
    contextHashOf_eq_ok, safeId_eq_ok, Json.str.injEq]
  constructor
  · rintro ⟨-, -, revision, ⟨rfl, hsha⟩, rawHash, ⟨rfl, hhex⟩, state, hparse, id, ⟨rfl, hid⟩, h⟩
    split_ifs at h with hnone hne
    cases h
    rw [Option.isNone_iff_eq_none, ← ne_eq, ← Option.isSome_iff_ne_none] at hnone
    exact ⟨hsha, hhex, hid, hparse, hnone, not_not.mp hne, rfl⟩
  · rintro ⟨hsha, hhex, hid, hparse, hsome, hequal, hsnapshot⟩
    refine ⟨(), trivial, _, ⟨rfl, hsha⟩, _, ⟨rfl, hhex⟩, _, hparse, _, ⟨rfl, hid⟩, ?_⟩
    rw [if_neg (by simp [Option.isSome_iff_ne_none.mp hsome]), if_neg (not_not.mpr hequal)]
    exact congrArg Except.ok hsnapshot.symm

end Envelopes

section Preparation

variable {τ : Type} {sp : SafePoint τ} {consumed : String} {before captured : List ReplayEvent}

/-- The inbox still has the captured events before the others, and the cursor where it was. -/
def Captured (consumed : String) (captured : List ReplayEvent) (w : BoundaryWorld) : Prop :=
  w.inbox.Sound ∧
    ∃ c, w.inbox.live = some c ∧ c.consumed = consumed ∧ captured <+: c.pending

lemma Captured.reached {w w' : BoundaryWorld} (h : Captured consumed captured w)
    (hw : w.Reached w') : Captured consumed captured w' := by
  obtain ⟨hsound, c, hlive, hconsumed, hprefix⟩ := h
  obtain ⟨c', arrived, hdrift⟩ := hw.drift hsound hlive
  refine ⟨hw.sound hsound, c', hdrift.live, hdrift.consumed.trans hconsumed, ?_⟩
  rw [hdrift.pending]
  exact hprefix.trans (List.prefix_append _ _)

section Accesses

variable {β : Type} {P : β → BoundaryWorld → Prop} {w : BoundaryWorld}
  (hw : Captured consumed captured w)
include hw

lemma checkCancel_bind {f : Unit → Access β}
    (h : ∀ t, Captured consumed captured t → Returns (f ()) P t) :
    Returns (checkCancel >>= f) P w :=
  Returns.look_bind fun t _ ht _ => h t (hw.reached ht)

lemma checkDeadline_bind {waitingStarted : Bool} {f : Unit → Access β}
    (h : ∀ t, Captured consumed captured t → Returns (f ()) P t) :
    Returns (checkDeadline waitingStarted >>= f) P w :=
  Returns.look_bind fun t _ ht _ => h t (hw.reached ht)

lemma checkConsumerStatus_bind {revision : String} {f : Unit → Access β}
    (h : ∀ t, Captured consumed captured t → Returns (f ()) P t) :
    Returns (checkConsumerStatus revision >>= f) P w :=
  Returns.look_bind fun t _ ht _ => h t (hw.reached ht)

lemma snapshotProvider_bind {f : Snapshot → Access β}
    (h : ∀ t authoritative, Captured consumed captured t → Returns (f authoritative) P t) :
    Returns (snapshotProvider >>= f) P w :=
  Returns.look_bind fun t authoritative ht _ => h t authoritative (hw.reached ht)

lemma runnableStatus_bind {f : String → Access β}
    (h : ∀ t, Captured consumed captured t → Returns (f consumed) P t) :
    Returns (runnableStatus >>= f) P w := by
  refine Returns.look_bind fun t found ht hstatus => ?_
  have hcaptured := hw.reached ht
  obtain ⟨-, c, hlive, hconsumed, -⟩ := hcaptured
  rw [hlive] at hstatus
  dsimp only at hstatus
  split_ifs at hstatus
  cases hstatus
  rw [hconsumed]
  exact h t (hw.reached ht)

/-- The inbox that is looked at has the captured events first. -/
lemma peek_bind {f : List ReplayEvent → Access β}
    (h : ∀ t live, captured <+: live → Captured consumed live t → Returns (f live) P t) :
    Returns (peek >>= f) P w := by
  refine Returns.look_bind fun t live ht hpeek => ?_
  obtain ⟨hsound, c, hlive, hconsumed, hprefix⟩ := hw.reached ht
  rw [hlive] at hpeek
  cases hpeek
  exact h t c.pending hprefix ⟨hsound, c, hlive, hconsumed, List.prefix_refl _⟩

end Accesses

/-- A revision covers so many of the captured events. -/
def Covers (consumed : String) (captured : List ReplayEvent) (revision : String)
    (covered : ℕ) : Prop :=
  covered = 0 ∧ revision = consumed ∨
    ∃ index, covered = index + 1 ∧ (revisions captured)[index]? = some revision

lemma covers_all (consumed : String) (captured : List ReplayEvent) :
    Covers consumed captured
      ((ackRevisionOf captured captured.length).getD consumed) captured.length := by
  unfold ackRevisionOf
  by_cases hnone : captured.length = 0
  · rw [if_pos hnone, Option.getD_none]
    exact Or.inl ⟨hnone, rfl⟩
  · rw [if_neg hnone]
    have hlength : captured.length - 1 < (revisions captured).length := by
      rw [revisions, List.length_map]
      omega
    rw [List.getElem?_eq_getElem hlength, Option.getD_some]
    exact Or.inr ⟨captured.length - 1, by omega, List.getElem?_eq_getElem hlength⟩

/-- What is said about the captured events is said about an inbox that has the same
revisions first. -/
lemma Covers.grow {live : List ReplayEvent} {revision : String} {covered : ℕ}
    (h : Covers consumed captured revision covered)
    (hlive : revisions (live.take captured.length) = revisions captured) :
    Covers consumed live revision covered := by
  obtain h | ⟨index, rfl, hindex⟩ := h
  · exact Or.inl h
  · refine Or.inr ⟨index, rfl, ?_⟩
    rw [← hlive, revisions, List.map_take, List.getElem?_take] at hindex
    split_ifs at hindex
    exact hindex

lemma Replay.covers {r : Replay} {target : String} {initialPendingCount covered : ℕ}
    (htarget : Covers consumed r.captured target initialPendingCount)
    (h : r.coveredCount consumed target initialPendingCount = some covered) :
    Covers consumed r.captured r.snapshot.revision covered := by
  unfold Replay.coveredCount at h
  split_ifs at h with hequal hconsumed
  · cases h
    exact hequal ▸ htarget
  · cases h
    exact Or.inl ⟨rfl, hconsumed⟩
  · obtain ⟨index, hindex, rfl⟩ := Option.map_eq_some_iff.mp h
    obtain ⟨hlt, hfound, -⟩ := List.findIdx?_eq_some_iff_getElem.mp hindex
    refine Or.inr ⟨index, rfl, ?_⟩
    rw [List.getElem?_eq_getElem hlt, of_decide_eq_true hfound]

/-- What the choice of the covered events returns. -/
structure Chosen (sp : SafePoint τ) (sourceHead consumed : String) (before : List ReplayEvent)
    (choice : ℕ × Replay) (w : BoundaryWorld) : Prop where
  captured : Captured consumed choice.2.captured w
  covers : Covers consumed choice.2.captured choice.2.snapshot.revision choice.1
  all : sp.waits = false → before.length ≤ choice.1
  snapshot : ∃ authoritative,
    sp.validatedAt sourceHead authoritative = .ok choice.2.snapshot

lemma awaitReplay_returns {sourceHead target : String} {initialPendingCount : ℕ}
    (hwaits : sp.waits = true) (polls : ℕ) {r : Replay} {w : BoundaryWorld}
    (hcaptured : Captured consumed r.captured w)
    (htarget : Covers consumed r.captured target initialPendingCount)
    (hsnapshot : ∃ authoritative, sp.validatedAt sourceHead authoritative = .ok r.snapshot) :
    Returns (sp.awaitReplay sourceHead consumed target initialPendingCount polls r)
      (Chosen sp sourceHead consumed before) w := by
  induction polls generalizing r w with
  | zero => exact Returns.throw _ _
  | succ polls ih =>
      rw [SafePoint.awaitReplay]
      refine checkCancel_bind hcaptured fun w hcaptured => ?_
      refine checkConsumerStatus_bind hcaptured fun w hcaptured => ?_
      refine checkDeadline_bind hcaptured fun w hcaptured => ?_
      split
      · rename_i covered hcovered
        exact Returns.pure fun t ht => {
          captured := hcaptured.reached ht
          covers := Replay.covers htarget hcovered
          all := fun hno => absurd hwaits (by rw [hno]; decide)
          snapshot := hsnapshot }
      · refine checkDeadline_bind hcaptured fun w hcaptured => ?_
        refine peek_bind hcaptured fun w live _ hcaptured => ?_
        split
        · exact Returns.throw _ _
        · rename_i hprefix
          rw [not_not] at hprefix
          split
          · refine checkCancel_bind hcaptured fun w hcaptured => ?_
            refine snapshotProvider_bind hcaptured fun w authoritative hcaptured => ?_
            refine checkCancel_bind hcaptured fun w hcaptured => ?_
            refine checkDeadline_bind hcaptured fun w hcaptured => ?_
            refine Returns.check_bind fun snapshot hvalidated => ?_
            exact ih hcaptured (htarget.grow hprefix) ⟨authoritative, hvalidated⟩
          · split
            · exact Returns.throw _ _
            · refine checkCancel_bind hcaptured fun w hcaptured => ?_
              refine checkDeadline_bind hcaptured fun w hcaptured => ?_
              exact ih hcaptured (htarget.grow hprefix) hsnapshot

lemma cover_returns {sourceHead : String} (polls : ℕ) {r : Replay} {w : BoundaryWorld}
    (hcaptured : Captured consumed r.captured w) (hbefore : before.length ≤ r.captured.length)
    (hsnapshot : ∃ authoritative, sp.validatedAt sourceHead authoritative = .ok r.snapshot) :
    Returns (sp.cover sourceHead consumed polls r) (Chosen sp sourceHead consumed before) w := by
  have htarget := covers_all consumed r.captured
  rw [SafePoint.cover]
  split
  · rename_i hwaits
    exact awaitReplay_returns hwaits polls hcaptured htarget hsnapshot
  · split
    · exact Returns.throw _ _
    · rename_i hequal
      rw [not_not] at hequal
      exact Returns.pure fun w' hw' => {
        captured := hcaptured.reached hw'
        covers := hequal ▸ htarget
        all := fun _ => hbefore
        snapshot := hsnapshot }

lemma SafePoint.validatedAt_parsed {sourceHead : String} {authoritative : Snapshot}
    {snapshot : SharedSnapshot} (h : sp.validatedAt sourceHead authoritative = .ok snapshot) :
    parseSnapshotDict sp.contentHash
      (snapshotEnvelope sp.contentHash authoritative sp.approvedTask.id) = .ok snapshot := by
  rw [SafePoint.validatedAt, except_bind_eq_ok] at h
  obtain ⟨validated, hvalidated, h⟩ := h
  split_ifs at h
  cases h
  unfold SafePoint.validated at hvalidated
  split at hvalidated
  · cases hvalidated
  · rename_i parsed hparsed
    split at hvalidated
    · cases hvalidated
    · split_ifs at hvalidated
      cases hvalidated
      exact hparsed

/-- The snapshot that is bound is an answer of the provider. -/
lemma SafePoint.validatedAt_revision {sourceHead : String} {authoritative : Snapshot}
    {snapshot : SharedSnapshot}
    (h : sp.validatedAt sourceHead authoritative = .ok snapshot) :
    snapshot.revision = authoritative.revision := by
  obtain ⟨-, -, -, -, -, -, hequal⟩ := parseSnapshotDict_toDict.mp (sp.validatedAt_parsed h)
  rw [hequal]

/-- Its state is one that the parser has returned. -/
lemma SafePoint.validatedAt_state {sourceHead : String} {authoritative : Snapshot}
    {snapshot : SharedSnapshot}
    (h : sp.validatedAt sourceHead authoritative = .ok snapshot) :
    snapshot.state.normal = snapshot.state := by
  obtain ⟨-, -, -, hstate, -, -, -⟩ := parseSnapshotDict_toDict.mp (sp.validatedAt_parsed h)
  exact (parseStateDict_valid hstate).normal

variable [DecidableEq τ]

/-- What a prepared input says about the inbox: its snapshot covers nothing, or it covers
the events up to the one of its revision. -/
structure PreparedWorkerInput.Ready (prepared : PreparedWorkerInput τ) (sp : SafePoint τ)
    (sourceHead : String) (request : WorkerRequest τ) (consumed : String)
    (before : List ReplayEvent) (w : BoundaryWorld) : Prop where
  capturedConsumed : prepared.capturedConsumed = consumed
  binding : ∃ authoritative, sp.validatedAt sourceHead authoritative = .ok prepared.binding
  bound : ∃ replacement,
    sp.validateReplacement request replacement prepared.binding = .ok prepared.request
  covers : ∃ captured covered, Captured consumed captured w ∧
    Covers consumed captured prepared.binding.revision covered ∧
    prepared.ackRevision = ackRevisionOf captured covered ∧
    (sp.waits = false → before.length ≤ covered)

lemma prepare_returns {sourceHead : String} {request : WorkerRequest τ} (polls : ℕ)
    {w : BoundaryWorld} {c : RevisionConsumer} (hsound : w.inbox.Sound)
    (hlive : w.inbox.live = some c) :
    Returns (sp.prepare sourceHead request polls)
      (fun prepared => prepared.Ready sp sourceHead request c.consumed c.pending) w := by
  have hcaptured : Captured c.consumed c.pending w :=
    ⟨hsound, c, hlive, rfl, List.prefix_refl _⟩
  rw [SafePoint.prepare]
  refine checkCancel_bind hcaptured fun w hcaptured => ?_
  refine runnableStatus_bind hcaptured fun w hcaptured => ?_
  refine peek_bind hcaptured fun w captured hbefore hcaptured => ?_
  refine snapshotProvider_bind hcaptured fun w authoritative hcaptured => ?_
  refine checkCancel_bind hcaptured fun w hcaptured => ?_
  refine checkConsumerStatus_bind hcaptured fun w hcaptured => ?_
  refine Returns.check_bind fun snapshot hsnapshot => ?_
  refine Returns.bind (cover_returns polls hcaptured hbefore.length_le ⟨authoritative, hsnapshot⟩)
    fun choice w hchosen => ?_
  refine checkCancel_bind hchosen.captured fun w hcaptured => ?_
  refine checkConsumerStatus_bind hcaptured fun w hcaptured => ?_
  refine checkDeadline_bind hcaptured fun w hcaptured => ?_
  refine checkCancel_bind hcaptured fun w hcaptured => ?_
  refine Returns.check_bind fun replacement _ => ?_
  refine checkCancel_bind hcaptured fun w hcaptured => ?_
  refine Returns.check_bind fun bound hbound => ?_
  refine checkCancel_bind hcaptured fun w hcaptured => ?_
  exact Returns.pure fun t ht => {
    capturedConsumed := rfl
    binding := hchosen.snapshot
    bound := ⟨replacement, hbound⟩
    covers := ⟨_, _, hcaptured.reached ht, hchosen.covers, rfl, hchosen.all⟩ }

lemma BoundaryWorld.Reached.gone {w w' : BoundaryWorld} (h : w.Reached w')
    (hnone : w.inbox.live = none) : w'.inbox.live = none := by
  obtain ⟨moves, rfl⟩ := h
  induction moves generalizing w with
  | nil => exact hnone
  | cons move rest ih =>
      refine ih ?_
      cases move with
      | disk | cancel | pass | answer => exact hnone
      | start | turn | answered | close =>
          exact (congrArg (Option.map _) hnone).trans (Option.map_none _)
      | line line =>
          show (w.inbox.step (.line line)).live = none
          simp only [ConsumerWorld.step, hnone]

/-- Nothing is prepared where there is no consumer. -/
lemma prepare_gone {sourceHead : String} {request : WorkerRequest τ} (polls : ℕ)
    {w : BoundaryWorld} (hnone : w.inbox.live = none) :
    Returns (sp.prepare sourceHead request polls) (fun _ _ => False) w := by
  rw [SafePoint.prepare]
  refine Returns.look_bind fun t _ ht _ => ?_
  refine Returns.look_bind fun u consumed hu hstatus => ?_
  rw [hu.gone (ht.gone hnone)] at hstatus
  cases hstatus

/-- An input that is accepted has the block of its snapshot once, and is the request it
replaces in all but the text. -/
lemma SafePoint.validateReplacement_bound {request replacement bound : WorkerRequest τ}
    {snapshot : SharedSnapshot}
    (h : sp.validateReplacement request replacement snapshot = .ok bound) :
    countText (sp.renderBlock snapshot).toList 0 bound.renderedInput.toList = 1 ∧
      countText snapshotSectionHeader.toList 0 bound.renderedInput.toList = 1 ∧
      bound = { request with renderedInput := bound.renderedInput } := by
  unfold SafePoint.validateReplacement at h
  dsimp only at h
  split_ifs at h with hkind hkept hcount hvalid
  cases h
  push Not at hkept hcount
  obtain ⟨htask, hplan, hfix, hcontext⟩ := hkept
  refine ⟨hcount.2, hcount.1, ?_⟩
  rw [htask, hplan, hfix, hcontext]

end Preparation

section Outcomes

variable {τ κ : Type} {step : BoundaryWorld → κ → BoundaryWorld} {w : BoundaryWorld}

/-- The acknowledgement of the consumer leaves the inbox as it is, or succeeds. -/
lemma acknowledgeConsumer_among {revision : String}
    {Q : Option (Except SafePointFailure Unit) × BoundaryWorld → Prop}
    (hstop : ∀ moves result, (∀ u, result ≠ some (.ok u)) → Q (result, Machine.run step w moves))
    (hack : ∀ moves c held, (Machine.run step w moves).inbox.live = some c →
      acknowledgeAtSafePoint revision ⟨c, (Machine.run step w moves).inbox.disk⟩ = .ok () held →
      Q (some (.ok ()), (Machine.run step w moves).inboxMoves (.acknowledge revision)))
    (schedule : List (List κ)) : Q ((acknowledgeConsumer revision).among step schedule w) := by
  cases schedule with
  | nil => exact hstop [] none nofun
  | cons moves rest =>
      have hfailed (e : SafePointFailure)
          (h : (Machine.run step w moves).inboxMoves (.acknowledge revision) =
            Machine.run step w moves) :
          Q (some (.error e), (Machine.run step w moves).inboxMoves (.acknowledge revision)) := by
        rw [h]
        exact hstop moves _ nofun
      cases hlive : (Machine.run step w moves).inbox.live with
      | none =>
          simp only [acknowledgeConsumer, Prog.among, hlive]
          refine hfailed .failed ?_
          simp only [BoundaryWorld.inboxMoves, ConsumerWorld.step, hlive]
      | some c =>
          simp only [acknowledgeConsumer, Prog.among, hlive]
          obtain ⟨e, herror⟩ | ⟨-, hok⟩ | ⟨_, _, _, -, -, -, -, -, hok⟩ :=
            acknowledgeAtSafePoint_cases revision ⟨c, (Machine.run step w moves).inbox.disk⟩
          · rw [herror]
            refine hfailed .failed ?_
            simp only [BoundaryWorld.inboxMoves, ConsumerWorld.step, hlive, herror]
            rw [← hlive]
          · rw [hok]
            exact hack moves c _ hlive hok
          · rw [hok]
            exact hack moves c _ hlive hok

/-- How a run of an acknowledgement ends: it stops and leaves the inbox to the others, it has
nothing to acknowledge, or the consumer has acknowledged. -/
lemma PreparedWorkerInput.acknowledge_among (prepared : PreparedWorkerInput τ)
    {Q : Option (Except SafePointFailure Unit) × BoundaryWorld → Prop}
    (hstop : ∀ moves result, (∀ u, result ≠ some (.ok u)) → Q (result, Machine.run step w moves))
    (hnone : ∀ moves, prepared.ackRevision = none → Q (some (.ok ()), Machine.run step w moves))
    (hack : ∀ moves revision c held, prepared.ackRevision = some revision →
      (Machine.run step w moves).inbox.live = some c →
      acknowledgeAtSafePoint revision ⟨c, (Machine.run step w moves).inbox.disk⟩ = .ok () held →
      Q (some (.ok ()), (Machine.run step w moves).inboxMoves (.acknowledge revision)))
    (schedule : List (List κ)) : Q (prepared.acknowledge.among step schedule w) := by
  rw [PreparedWorkerInput.acknowledge]
  refine Prog.among_look_bind hstop fun moves _ rest _ => ?_
  refine Prog.among_look_bind (fun more result hresult => ?_) fun more _ rest _ => ?_
  · rw [← Machine.run_append]
    exact hstop _ result hresult
  rw [← Machine.run_append]
  refine Prog.among_look_bind (fun last result hresult => ?_) fun last _ rest _ => ?_
  · rw [← Machine.run_append]
    exact hstop _ result hresult
  rw [← Machine.run_append]
  cases hrevision : prepared.ackRevision with
  | none => exact hnone _ hrevision
  | some revision =>
      refine acknowledgeConsumer_among (fun next result hresult => ?_) (fun next c held => ?_) rest
      · rw [← Machine.run_append]
        exact hstop _ result hresult
      · rw [← Machine.run_append]
        exact hack _ revision c held hrevision

variable [DecidableEq τ]

/-- How a run of an accepted reset ends: it stops and leaves the inbox to the others, the
consumer fails to reset, or it has reset. -/
lemma SafePoint.acceptReset_among (sp : SafePoint τ) {sourceHead : String} {snapshot : Snapshot}
    {request : WorkerRequest τ}
    {Q : Option (Except SafePointFailure (WorkerRequest τ)) × BoundaryWorld → Prop}
    (hstop : ∀ moves result, (∀ u, result ≠ some (.ok u)) → Q (result, Machine.run step w moves))
    (hfailed : ∀ moves c e held, (Machine.run step w moves).inbox.live = some c →
      resetAtSafePoint snapshot ⟨c, (Machine.run step w moves).inbox.disk⟩ = .error e held →
      Q (some (.error .failed), (Machine.run step w moves).inboxMoves (.reset snapshot)))
    (hreset : ∀ moves c bound held, (Machine.run step w moves).inbox.live = some c →
      resetAtSafePoint snapshot ⟨c, (Machine.run step w moves).inbox.disk⟩ = .ok () held →
      Q (some (.ok bound), (Machine.run step w moves).inboxMoves (.reset snapshot)))
    (schedule : List (List κ)) :
    Q ((sp.acceptReset sourceHead snapshot request).among step schedule w) := by
  rw [SafePoint.acceptReset]
  refine Prog.among_look_bind hstop fun moves _ rest _ => ?_
  cases sp.validatedAt sourceHead snapshot with
  | error e => exact hstop moves (some (.error e)) (by simp)
  | ok validated =>
  show Q ((Prog.check (sp.bindInput validated request) >>= _).among step rest _)
  cases sp.bindInput validated request with
  | error e => exact hstop moves (some (.error e)) (by simp)
  | ok replacement =>
  refine Prog.among_look_bind (fun more result hresult => ?_) fun more _ rest _ => ?_
  · rw [← Machine.run_append]
    exact hstop _ result hresult
  rw [← Machine.run_append]
  cases sp.validateReplacement request replacement validated with
  | error e => exact hstop _ (some (.error e)) (by simp)
  | ok bound =>
  refine Prog.among_look_bind (fun last result hresult => ?_) fun last _ rest _ => ?_
  · rw [← Machine.run_append]
    exact hstop _ result hresult
  rw [← Machine.run_append]
  cases rest with
  | nil => exact hstop _ none (by simp)
  | cons next rest =>
      show Q (Prog.among step (Prog.bind (resetConsumer snapshot) fun _ => pure bound) _ _)
      simp only [resetConsumer, Prog.bind, Prog.among, ← Machine.run_append]
      generalize moves ++ more ++ last ++ next = all
      cases hlive : (Machine.run step w all).inbox.live with
      | none =>
          have hsame : (Machine.run step w all).inboxMoves (.reset snapshot) =
              Machine.run step w all := by
            simp only [BoundaryWorld.inboxMoves, ConsumerWorld.step, hlive]
          rw [hsame]
          exact hstop all (some (.error .failed)) (by simp)
      | some c =>
          cases hresult : resetAtSafePoint snapshot ⟨c, (Machine.run step w all).inbox.disk⟩ with
          | error e held =>
              simp only [hresult, acceptance]
              exact hfailed all c e held hlive hresult
          | ok u held =>
              simp only [hresult, acceptance]
              exact hreset all c bound held hlive hresult

end Outcomes

section Acknowledgement

variable {τ : Type} {consumed : String} {captured : List ReplayEvent} {w : BoundaryWorld}
  {c : RevisionConsumer}

/-- The pending events that the acknowledgement of a prepared input covers. -/
def PreparedWorkerInput.covered (prepared : PreparedWorkerInput τ) (c : RevisionConsumer) :
    List ReplayEvent :=
  match prepared.ackRevision with
  | none => []
  | some revision => c.covered revision

/-- The event of a revision is where the acknowledgement of the revision looks for it. -/
lemma RevisionConsumer.Chained.covered {disk : Disk} (h : c.Chained disk) {index : ℕ}
    {revision : String} (hindex : (revisions c.pending)[index]? = some revision) :
    c.covered revision = c.pending.take (index + 1) ∧ revision ≠ c.consumed := by
  have hdistinct := List.nodup_cons.mp h.distinct
  obtain ⟨hlt, hfound⟩ := List.getElem?_eq_some_iff.mp hindex
  simp only [revisions, List.length_map] at hlt
  simp only [revisions, List.getElem_map] at hfound
  constructor
  · have hfirst : c.pending.findIdx? (fun event => event.revision = revision) = some index := by
      refine List.findIdx?_eq_some_iff_getElem.mpr ⟨hlt, decide_eq_true hfound, ?_⟩
      intro earlier hearlier
      simp only [decide_eq_true_eq]
      intro hsame
      have hmap := List.nodup_iff_injective_getElem.mp hdistinct.2
      have hequal := @hmap ⟨earlier, by rw [List.length_map]; omega⟩
        ⟨index, by rw [List.length_map]; omega⟩ (by simp [hsame, hfound])
      simp only [Fin.mk.injEq] at hequal
      omega
    rw [RevisionConsumer.covered, hfirst]
  · rintro rfl
    exact hdistinct.1 (List.mem_map.mpr ⟨_, List.getElem_mem hlt, hfound⟩)

/-- Exactly the covered events have been consumed, and what came in meanwhile is pending. -/
structure ConsumerWorld.Advance (w : ConsumerWorld) (c : RevisionConsumer)
    (covered : List ReplayEvent) (revision : String) (w' : ConsumerWorld)
    (c' : RevisionConsumer) (arrived : List ReplayEvent) : Prop where
  live : w'.live = some c'
  consumed : c'.consumed = revision
  pending : covered ++ c'.pending = c.pending ++ arrived
  accepted : w'.accepted = w.accepted ++ arrived
  acknowledged : w'.acknowledged = w.acknowledged ++ covered
  durable : w'.disk.checkpoint c.identity c.memberId = some revision

/-- Nothing is consumed where nothing is covered. -/
lemma ConsumerWorld.Drift.advance {w w' : ConsumerWorld} {c c' : RevisionConsumer}
    {arrived : List ReplayEvent} (h : w.Drift c w' c' arrived) (hchained : c.Chained w.disk) :
    w.Advance c [] c.consumed w' c' arrived where
  live := h.live
  consumed := h.consumed
  pending := h.pending
  accepted := h.accepted
  acknowledged := by rw [h.acknowledged, List.append_nil]
  durable := h.durable.trans hchained.durable

/-- How the acknowledgement itself ends: nothing happens, or the cursor moves over what the
revision covers. -/
lemma ConsumerWorld.acknowledge_cases {w w' : ConsumerWorld} {c c' : RevisionConsumer}
    {arrived : List ReplayEvent} {revision : String} {index : ℕ} (hsound : w'.Sound)
    (hchained : c.Chained w.disk) (hdrift : w.Drift c w' c' arrived)
    (hindex : (revisions c.pending)[index]? = some revision) :
    ((∃ e, acknowledgeAtSafePoint revision ⟨c', w'.disk⟩ = .error e ⟨c', w'.disk⟩) ∧
        w'.step (.acknowledge revision) = w') ∨
      ∃ held, acknowledgeAtSafePoint revision ⟨c', w'.disk⟩ = .ok () held ∧
        w.Advance c (c.covered revision) revision (w'.step (.acknowledge revision))
          held.consumer arrived := by
  obtain ⟨hlt, -⟩ := List.getElem?_eq_some_iff.mp hindex
  rw [revisions, List.length_map] at hlt
  have hlater : (revisions c'.pending)[index]? = some revision := by
    rw [hdrift.pending, revisions, List.map_append,
      List.getElem?_append_left (by rwa [List.length_map])]
    exact hindex
  obtain ⟨hcovered', hne⟩ := (hsound.chained c' hdrift.live).covered hlater
  have hcovered := (hchained.covered hindex).1
  obtain ⟨e, herror⟩ | ⟨hconsumed, -⟩ | ⟨last, event, disk, -, -, -, htake, hcheckpoint, hok⟩ :=
    acknowledgeAtSafePoint_cases revision ⟨c', w'.disk⟩
  · refine Or.inl ⟨⟨e, herror⟩, ?_⟩
    simp only [ConsumerWorld.step, hdrift.live, herror]
    rw [← hdrift.live]
  · exact absurd hconsumed hne
  · refine Or.inr ⟨_, hok, ?_⟩
    have hstep : w'.step (.acknowledge revision) = { w' with
        live := some { c' with consumed := revision, pending := c'.pending.drop (last + 1) }
        disk := disk
        acknowledged := w'.acknowledged ++ c'.covered revision } := by
      simp only [ConsumerWorld.step, hdrift.live, hok, if_neg hne]
    rw [hstep]
    have hsame : c'.covered revision = c.covered revision := by
      rw [hcovered', hcovered, hdrift.pending, List.take_append_of_le_length (by omega)]
    rw [hsame] at htake ⊢
    exact {
      live := rfl
      consumed := rfl
      pending := by
        show c.covered revision ++ c'.pending.drop (last + 1) = _
        rw [htake, List.take_append_drop, hdrift.pending]
      accepted := hdrift.accepted
      acknowledged := congrArg (· ++ c.covered revision) hdrift.acknowledged
      durable := by
        have hsaved := hcheckpoint
        rw [hdrift.identity, hdrift.memberId] at hsaved
        exact hsaved }

/-- How a run of accesses ends that consumes what is covered, or nothing. -/
def Settles (w : BoundaryWorld) (c : RevisionConsumer) (covered : List ReplayEvent)
    (revision : String)
    (outcome : Option (Except SafePointFailure Unit) × BoundaryWorld) : Prop :=
  ∃ c' arrived,
    (outcome.1 = some (.ok ()) →
      w.inbox.Advance c covered revision outcome.2.inbox c' arrived) ∧
    (outcome.1 ≠ some (.ok ()) → w.inbox.Drift c outcome.2.inbox c' arrived)

/-- A run that does not come to its end consumes nothing. -/
lemma settles_of_stop {covered : List ReplayEvent} {revision : String} (hsound : w.inbox.Sound)
    (hlive : w.inbox.live = some c) (moves : List BoundaryMove)
    (result : Option (Except SafePointFailure Unit)) (hresult : ∀ u, result ≠ some (.ok u)) :
    Settles w c covered revision (result, Machine.run BoundaryWorld.step w moves) := by
  obtain ⟨c', arrived, hdrift⟩ := BoundaryWorld.run_drift hsound hlive moves
  exact ⟨c', arrived, fun heq => absurd heq (hresult ()), fun _ => hdrift⟩

/-- What the acknowledgement of a prepared input does among the moves of others. -/
lemma PreparedWorkerInput.acknowledge_settles (prepared : PreparedWorkerInput τ)
    (hsound : w.inbox.Sound) (hlive : w.inbox.live = some c)
    (hready : ∀ revision, prepared.ackRevision = some revision →
      ∃ index : ℕ, (revisions c.pending)[index]? = some revision)
    (schedule : List (List BoundaryMove)) :
    Settles w c (prepared.covered c) (prepared.ackRevision.getD c.consumed)
      (prepared.acknowledge.among BoundaryWorld.step schedule w) := by
  refine prepared.acknowledge_among (settles_of_stop hsound hlive) ?_ ?_ schedule
  · intro moves hnone
    rw [PreparedWorkerInput.covered, hnone]
    obtain ⟨c', arrived, hdrift⟩ := BoundaryWorld.run_drift hsound hlive moves
    exact ⟨c', arrived, fun _ => hdrift.advance (hsound.chained c hlive),
      fun hne => absurd rfl hne⟩
  · intro moves revision c' held hrevision hlive' hok
    rw [PreparedWorkerInput.covered, hrevision]
    obtain ⟨index, hindex⟩ := hready revision hrevision
    obtain ⟨later, arrived, hdrift⟩ := BoundaryWorld.run_drift hsound hlive moves
    obtain rfl : later = c' := Option.some.inj (hdrift.live.symm.trans hlive')
    obtain ⟨⟨e, herror⟩, -⟩ | ⟨held', -, hadvance⟩ :=
      ConsumerWorld.acknowledge_cases (BoundaryWorld.run_sound hsound moves)
        (hsound.chained c hlive) hdrift hindex
    · rw [hok] at herror
      cases herror
    · exact ⟨held'.consumer, arrived, fun _ => hadvance, fun hne => absurd rfl hne⟩

end Acknowledgement

section Boundaries

variable {τ : Type} (sp : SafePoint τ) (sourceHead : String)

lemma awaitReplay_readOnly (consumed target : String) (initialPendingCount polls : ℕ)
    (r : Replay) :
    (sp.awaitReplay sourceHead consumed target initialPendingCount polls r).ReadOnly := by
  induction polls generalizing r with
  | zero => trivial
  | succ polls ih =>
      rw [SafePoint.awaitReplay]
      refine .bind (.look _ _) fun _ => .bind (.look _ _) fun _ => .bind (.look _ _) fun _ => ?_
      split
      · trivial
      · refine .bind (.look _ _) fun _ => .bind (.look _ _) fun live => ?_
        split
        · trivial
        · split
          · exact .bind (.look _ _) fun _ => .bind (.look _ _) fun _ => .bind (.look _ _) fun _ =>
              .bind (.look _ _) fun _ => .bind trivial fun _ => ih _
          · split
            · trivial
            · exact .bind (.look _ _) fun _ => .bind (.look _ _) fun _ => ih _

variable [DecidableEq τ]

/-- A preparation only reads. -/
lemma prepare_readOnly (request : WorkerRequest τ) (polls : ℕ) :
    (sp.prepare sourceHead request polls).ReadOnly := by
  have hcover (consumed : String) (r : Replay) :
      (sp.cover sourceHead consumed polls r).ReadOnly := by
    rw [SafePoint.cover]
    split
    · exact awaitReplay_readOnly sp sourceHead _ _ _ _ _
    · trivial
  rw [SafePoint.prepare]
  refine .bind (.look _ _) fun _ => .bind (.look _ _) fun consumed => .bind (.look _ _)
    fun captured => .bind (.look _ _) fun _ => .bind (.look _ _) fun _ => .bind (.look _ _)
    fun _ => .bind trivial fun snapshot => .bind (hcover _ _) fun choice => ?_
  exact .bind (.look _ _) fun _ => .bind (.look _ _) fun _ => .bind (.look _ _) fun _ =>
    .bind (.look _ _) fun _ => .bind trivial fun _ => .bind (.look _ _) fun _ =>
    .bind trivial fun _ => .bind (.look _ _) fun _ => trivial

/-- A prepared input acknowledges nothing, or a revision that is pending. -/
lemma PreparedWorkerInput.Ready.cases {sp : SafePoint τ} {sourceHead consumed : String}
    {request : WorkerRequest τ} {prepared : PreparedWorkerInput τ} {before : List ReplayEvent}
    {w : BoundaryWorld} {c : RevisionConsumer}
    (h : prepared.Ready sp sourceHead request consumed before w)
    (hlive : w.inbox.live = some c) :
    prepared.ackRevision = none ∧ prepared.binding.revision = consumed ∧
        (sp.waits = false → before = []) ∨
      ∃ index : ℕ, prepared.ackRevision = some prepared.binding.revision ∧
        (revisions c.pending)[index]? = some prepared.binding.revision ∧
        (sp.waits = false → before.length ≤ index + 1) := by
  obtain ⟨captured, covered, ⟨-, c', hlive', -, hprefix⟩, hcovers, hack, hall⟩ := h.covers
  rw [hlive, Option.some.injEq] at hlive'
  subst hlive'
  obtain ⟨rfl, hconsumed⟩ | ⟨index, rfl, hindex⟩ := hcovers
  · exact Or.inl ⟨hack, hconsumed, fun hno => List.length_eq_zero_iff.mp (Nat.le_zero.mp (hall hno))⟩
  · refine Or.inr ⟨index, ?_, ?_, hall⟩
    · rw [hack, ackRevisionOf, if_neg (Nat.succ_ne_zero index), Nat.add_sub_cancel, hindex]
    · obtain ⟨more, hmore⟩ := hprefix
      have hlt := (List.getElem?_eq_some_iff.mp hindex).1
      rw [revisions] at hlt hindex ⊢
      rw [← hmore, List.map_append, List.getElem?_append_left hlt]
      exact hindex

/-- Among any moves of others, from any consumer of any run: a preparation consumes nothing.
If it succeeds, the input has the block of the bound snapshot, an answer of the provider,
exactly once, and the covered events are pending events from the first on, up to the one of
the revision of that snapshot, or none where the snapshot is at the consumed revision; they
are all that were pending at the start, unless the safe point waits for a replay. The
acknowledgement then consumes exactly the covered events, what came in meanwhile stays
pending, and the cursor is at the revision of the snapshot; or it consumes nothing. -/
theorem safe_point_boundary (request : WorkerRequest τ) (polls : ℕ) (file : Option ByteArray)
    (events : List ConsumerEvent) (c : RevisionConsumer) (cancelled late : Bool)
    (answer : Except SafePointFailure Snapshot)
    (schedule schedule' : List (List BoundaryMove)) :
    let inbox := Machine.run ConsumerWorld.step (.initial file) events
    inbox.live = some c →
      let (result, w) := (sp.prepare sourceHead request polls).among BoundaryWorld.step schedule
        ⟨inbox, cancelled, late, answer⟩
      ∃ c' arrived, inbox.Drift c w.inbox c' arrived ∧
        ∀ prepared, result = some (.ok prepared) →
          (∃ authoritative, sp.validatedAt sourceHead authoritative = .ok prepared.binding ∧
            prepared.binding.revision = authoritative.revision) ∧
          prepared.request =
            { request with renderedInput := prepared.request.renderedInput } ∧
          countText (sp.renderBlock prepared.binding).toList 0
            prepared.request.renderedInput.toList = 1 ∧
          prepared.covered c' <+: c'.pending ∧
          (sp.waits = false → c.pending <+: prepared.covered c') ∧
          (prepared.ackRevision = none ∧ prepared.binding.revision = c.consumed ∨
            prepared.ackRevision = some prepared.binding.revision ∧
              (prepared.covered c').getLast?.map (·.revision) =
                some prepared.binding.revision) ∧
          Settles w c' (prepared.covered c') prepared.binding.revision
            (prepared.acknowledge.among BoundaryWorld.step schedule' w) := by
  intro inbox hlive
  dsimp only
  have hsound : inbox.Sound := Machine.run_invariant (fun _ event h => h.step event)
    (ConsumerWorld.sound_of_none rfl) events
  obtain ⟨start, hstart⟩ : ∃ start : BoundaryWorld, start = ⟨inbox, cancelled, late, answer⟩ :=
    ⟨_, rfl⟩
  have hinbox : inbox = start.inbox := by rw [hstart]
  rw [← hstart, hinbox]
  rw [hinbox] at hsound hlive
  obtain ⟨moves, hmoves⟩ : ∃ moves,
      ((sp.prepare sourceHead request polls).among BoundaryWorld.step schedule start).2 =
        Machine.run BoundaryWorld.step start moves :=
    (prepare_readOnly sp sourceHead request polls).among schedule start
  obtain ⟨c', arrived, hdrift⟩ := BoundaryWorld.run_drift hsound hlive moves
  have hsound' := BoundaryWorld.run_sound hsound moves
  rw [← hmoves] at hdrift hsound'
  refine ⟨c', arrived, hdrift, fun prepared hprepared => ?_⟩
  have hready := (prepare_returns polls hsound hlive).among schedule hprepared
  obtain ⟨authoritative, hbinding⟩ := hready.binding
  obtain ⟨replacement, hbound⟩ := hready.bound
  obtain ⟨hblock, -, hkept⟩ := sp.validateReplacement_bound hbound
  refine ⟨⟨authoritative, hbinding, SafePoint.validatedAt_revision hbinding⟩, hkept, hblock, ?_⟩
  have hbefore : c.pending <+: c'.pending := by
    rw [hdrift.pending]
    exact List.prefix_append _ _
  obtain ⟨hnone, hrevision, hall⟩ | ⟨index, hsome, hindex, hall⟩ := hready.cases hdrift.live
  · have hcovered : prepared.covered c' = [] := by rw [PreparedWorkerInput.covered, hnone]
    have hsettles := prepared.acknowledge_settles hsound' hdrift.live
      (fun revision hrevision => by rw [hnone] at hrevision; cases hrevision) schedule'
    rw [hnone, Option.getD_none, hdrift.consumed, ← hrevision] at hsettles
    rw [hcovered] at hsettles ⊢
    exact ⟨List.nil_prefix, fun hno => by rw [hall hno], Or.inl ⟨hnone, hrevision⟩, hsettles⟩
  · obtain ⟨hcovered, -⟩ := (hsound'.chained c' hdrift.live).covered hindex
    have hsettles := prepared.acknowledge_settles hsound' hdrift.live
      (fun revision hrevision => by
        rw [hsome, Option.some.injEq] at hrevision
        exact ⟨index, hrevision ▸ hindex⟩) schedule'
    rw [hsome, Option.getD_some] at hsettles
    have htake : prepared.covered c' = c'.pending.take (index + 1) := by
      rw [PreparedWorkerInput.covered, hsome]
      exact hcovered
    refine ⟨?_, fun hno => ?_, Or.inr ⟨hsome, ?_⟩, hsettles⟩
    · rw [htake]
      exact List.take_prefix _ _
    · rw [htake]
      exact List.prefix_take_iff.mpr ⟨hbefore, hall hno⟩
    · rw [htake, ← List.getLast?_map, List.map_take, List.getLast?_take,
        if_neg (Nat.succ_ne_zero index), Nat.add_sub_cancel]
      rw [revisions] at hindex
      rw [hindex, Option.some_or]

end Boundaries

section Undisturbed

variable {κ ℓ σ ε α β : Type} {step : σ → κ → σ}

lemma among_look_ok {label : ℓ} {read : σ → Except ε α} {f : α → Prog ℓ σ ε β}
    {rest : List (List κ)} {s : σ} {a : α} (h : read s = .ok a) :
    (Prog.look label read >>= f).among step ([] :: rest) s = (f a).among step rest s := by
  show Prog.among step ((Prog.done (read s) : Prog ℓ σ ε α).bind f) rest s = _
  rw [h]
  rfl

lemma among_check_ok {result : Except ε α} {f : α → Prog ℓ σ ε β}
    {schedule : List (List κ)} {s : σ} {a : α} (h : result = .ok a) :
    (Prog.check result >>= f).among step schedule s = (f a).among step schedule s := by
  rw [h]
  rfl

variable {τ : Type} [DecidableEq τ] {sp : SafePoint τ} {w : BoundaryWorld} {c : RevisionConsumer}

/-- A preparation that nothing disturbs, at a snapshot that is validated and that the inbox
covers, prepares its input. -/
lemma prepare_undisturbed {sourceHead : String} {request replacement bound : WorkerRequest τ}
    {authoritative : Snapshot} {snapshot : SharedSnapshot} {covered : ℕ}
    (hwaits : sp.waits = true) (hlive : w.inbox.live = some c) (hrunnable : c.state.Runnable)
    (hcancel : w.cancelled = false)
    (hanswer : w.answer = .ok authoritative)
    (hsnapshot : sp.validatedAt sourceHead authoritative = .ok snapshot)
    (hcovered : Replay.coveredCount ⟨snapshot, c.pending, none, false⟩ c.consumed
      ((ackRevisionOf c.pending c.pending.length).getD c.consumed) c.pending.length = some covered)
    (hbind : sp.bindInput snapshot request = .ok replacement)
    (hbound : sp.validateReplacement request replacement snapshot = .ok bound) (polls : ℕ) :
    (sp.prepare sourceHead request (polls + 1)).among BoundaryWorld.step
        (List.replicate 15 []) w =
      (some (.ok ⟨bound, c.consumed, ackRevisionOf c.pending covered, snapshot⟩), w) := by
  have hcheck {β : Type} (f : Unit → Access β) (rest : List (List BoundaryMove)) :
      (checkCancel >>= f).among BoundaryWorld.step ([] :: rest) w =
        (f ()).among BoundaryWorld.step rest w :=
    among_look_ok (by rw [hcancel]; rfl)
  have hconsumer {β : Type} (f : Unit → Access β) (rest : List (List BoundaryMove)) :
      (checkConsumerStatus c.consumed >>= f).among BoundaryWorld.step ([] :: rest) w =
        (f ()).among BoundaryWorld.step rest w :=
    among_look_ok (by rw [hlive]; exact if_pos ⟨hrunnable, rfl⟩)
  have hstatus {β : Type} (f : String → Access β) (rest : List (List BoundaryMove)) :
      (runnableStatus >>= f).among BoundaryWorld.step ([] :: rest) w =
        (f c.consumed).among BoundaryWorld.step rest w :=
    among_look_ok (by rw [hlive]; exact if_pos hrunnable)
  have hpeek {β : Type} (f : List ReplayEvent → Access β) (rest : List (List BoundaryMove)) :
      (peek >>= f).among BoundaryWorld.step ([] :: rest) w =
        (f c.pending).among BoundaryWorld.step rest w :=
    among_look_ok (by rw [hlive])
  have hprovider {β : Type} (f : Snapshot → Access β) (rest : List (List BoundaryMove)) :
      (snapshotProvider >>= f).among BoundaryWorld.step ([] :: rest) w =
        (f authoritative).among BoundaryWorld.step rest w :=
    among_look_ok hanswer
  have hdeadline {β : Type} (f : Unit → Access β) (rest : List (List BoundaryMove)) :
      (checkDeadline false >>= f).among BoundaryWorld.step ([] :: rest) w =
        (f ()).among BoundaryWorld.step rest w :=
    among_look_ok rfl
  rw [SafePoint.prepare]
  refine (hcheck _ _).trans ((hstatus _ _).trans ((hpeek _ _).trans ((hprovider _ _).trans ?_)))
  refine (hcheck _ _).trans ((hconsumer _ _).trans ((among_check_ok hsnapshot).trans ?_))
  rw [SafePoint.cover, if_pos hwaits, SafePoint.awaitReplay]
  simp only [bind_assoc]
  refine (hcheck _ _).trans ((hconsumer _ _).trans ((hdeadline _ _).trans ?_))
  rw [hcovered]
  simp only [pure_bind]
  refine (hcheck _ _).trans ((hconsumer _ _).trans ((hdeadline _ _).trans ?_))
  refine (hcheck _ _).trans ((among_check_ok hbind).trans ((hcheck _ _).trans ?_))
  refine (among_check_ok hbound).trans ((hcheck _ _).trans ?_)
  rfl

end Undisturbed

section Samples

/-- A validated snapshot of the approved task. -/
lemma SafePoint.validatedAt_valid {τ : Type} {sp : SafePoint τ} {state : SessionState}
    {revision : String} (hstate : state.Valid) (hdrive : state.NoDrive)
    (hsha : isSha revision = true)
    (hhash : isContextHash (sp.contentHash state.context) = true)
    (htask : state.tasks[sp.approvedTask.id]? = some sp.approvedTask)
    (hidentity : sp.identity = ⟨state.sessionId, state.baseCommit, state.targetVersion⟩)
    (howner : sp.approvedTask.owner = sp.memberId)
    (hactive : sp.approvedTask.status ∈ activeStatuses) :
    sp.validatedAt state.baseCommit ⟨revision, state⟩ =
      .ok ⟨revision, sp.contentHash state.context, state, sp.approvedTask.id⟩ := by
  have hparse : parseStateDict state.toDict = .ok state :=
    (parseStateDict_document (stateDocument_toDict state)).mpr
      ⟨hstate.admissible_iff.mpr hdrive, hstate.normal.symm⟩
  have henvelope : parseSnapshotDict sp.contentHash
      (snapshotEnvelope sp.contentHash ⟨revision, state⟩ sp.approvedTask.id) =
        .ok ⟨revision, sp.contentHash state.context, state, sp.approvedTask.id⟩ :=
    parseSnapshotDict_toDict.mpr ⟨hsha, hhash, (hstate.tasks _ _ htask).1.id, hparse,
      by rw [htask]; rfl, rfl, rfl⟩
  have hselected : SharedSnapshot.selectedTask
      ⟨revision, sp.contentHash state.context, state, sp.approvedTask.id⟩ =
        some sp.approvedTask := htask
  rw [SafePoint.validatedAt, SafePoint.validated, henvelope]
  dsimp only
  rw [hselected]
  dsimp only
  rw [if_neg (not_not.mpr hidentity.symm), if_neg (by simp [howner]), if_neg (not_not.mpr hactive),
    if_neg (not_not.mpr rfl)]
  exact if_neg (not_not.mpr rfl)

lemma countText_skip (needle : List Char) (skip : ℕ) (text : List Char) :
    countText needle skip text = countText needle 0 (text.drop skip) := by
  induction text generalizing skip with
  | nil => cases skip <;> simp [countText]
  | cons c rest ih =>
      cases skip with
      | zero => rfl
      | succ skip => rw [countText, ih, List.drop_succ_cons]

lemma countText_self {needle : List Char} (h : needle ≠ []) : countText needle 0 needle = 1 := by
  cases needle with
  | nil => exact absurd rfl h
  | cons c rest =>
      have hprefix : (c :: rest).isPrefixOf (c :: rest) = true :=
        List.isPrefixOf_iff_prefix.mpr (List.prefix_refl _)
      rw [countText, if_pos hprefix, countText_skip, List.length_cons, Nat.add_sub_cancel,
        List.drop_length]
      rfl

def boundTask : Task := ⟨"t", "m", "", [], "queued", stateSha⟩

def boundState : SessionState :=
  ⟨"s", "", stateSha, ⟨"", [], []⟩, .ofList [("t", boundTask)]⟩

lemma boundTasks_getElem? {id : String} {task : Task} :
    boundState.tasks[id]? = some task ↔ id = "t" ∧ task = boundTask := by
  rw [boundState, @getElem?_ofList [("t", boundTask)] (List.nodup_singleton "t"),
    List.mem_singleton, Prod.mk.injEq]

lemma boundState_valid : boundState.Valid where
  sessionId := show isSafeId "s" = true by decide
  targetVersion := bounded_empty _
  baseCommit := isSha_stateSha
  context := {
    goal := bounded_empty _
    decisionsCount := Nat.zero_le _
    decisions := nofun
    interfacesCount := Nat.zero_le _
    interfaces := nofun
    distinct := List.nodup_nil
    sorted := List.Pairwise.nil }
  tasksCount := by
    rw [boundState, Std.ExtTreeMap.size_ofList
      (@distinct_of_nodup [("t", boundTask)] (List.nodup_singleton "t"))]
    decide
  tasks id task htask := by
    obtain ⟨rfl, rfl⟩ := boundTasks_getElem?.mp htask
    exact ⟨{
      owner := show isSafeId "m" = true by decide
      goal := bounded_empty _
      scopes := ⟨Nat.zero_le _, List.nodup_nil, nofun⟩
      status := show "queued" ∈ allStatuses by decide
      id := show isSafeId "t" = true by decide
      contextRevision := isSha_stateSha }, rfl⟩

/-- The checksum of the empty context. -/
def emptyContextHash : String :=
  "bdcb5af8ac0aeceb4dc1da24c3f834c8e720ccb243865d264cd31dac64ddb55f"

/-- A safe point that waits for a replay. -/
def waitingSafePoint : SafePoint Unit where
  identity := firstIdentity
  memberId := "m"
  approvedTask := boundTask
  waits := true
  contentHash _ := emptyContextHash
  renderBlock _ := snapshotSectionHeader
  bindInput _ request := .ok { request with renderedInput := snapshotSectionHeader }

def plainRequest : WorkerRequest Unit := ⟨"do it", none, none, none, "do it"⟩

def boundRequest : WorkerRequest Unit := { plainRequest with renderedInput := snapshotSectionHeader }

def bindingAt (revision : String) : SharedSnapshot := ⟨revision, emptyContextHash, boundState, "t"⟩

/-- The inbox has one event, and the provider answers with a snapshot of a revision. -/
def boundaryAt (revision : String) : BoundaryWorld :=
  ⟨receivedWorld, false, false, .ok ⟨revision, boundState⟩⟩

lemma prepare_boundaryAt {revision : String} {covered : ℕ} (hsha : isSha revision = true)
    (hcovered : Replay.coveredCount ⟨bindingAt revision, [nextEvent], none, false⟩ stateSha
      laterSha 1 = some covered) :
    (waitingSafePoint.prepare stateSha plainRequest 1).among BoundaryWorld.step
        (List.replicate 15 []) (boundaryAt revision) =
      (some (.ok ⟨boundRequest, stateSha, ackRevisionOf [nextEvent] covered, bindingAt revision⟩),
        boundaryAt revision) := by
  have hdrive : boundState.NoDrive := by
    intro id task htask
    obtain ⟨-, rfl⟩ := boundTasks_getElem?.mp htask
    exact nofun
  have hvalidated : waitingSafePoint.validatedAt stateSha ⟨revision, boundState⟩ =
      .ok (bindingAt revision) :=
    SafePoint.validatedAt_valid boundState_valid hdrive hsha
      (show isContextHash emptyContextHash = true by decide)
      (boundTasks_getElem?.mpr ⟨rfl, rfl⟩) rfl rfl (by decide)
  have hcount : countText snapshotSectionHeader.toList 0 snapshotSectionHeader.toList = 1 :=
    countText_self (by decide)
  have hbound : waitingSafePoint.validateReplacement plainRequest boundRequest
      (bindingAt revision) = .ok boundRequest := by
    rw [SafePoint.validateReplacement, if_neg (by decide), if_neg (by decide)]
    show (if countText snapshotSectionHeader.toList 0 snapshotSectionHeader.toList ≠ 1 ∨
      countText snapshotSectionHeader.toList 0 snapshotSectionHeader.toList ≠ 1 then _ else _) = _
    rw [hcount, if_neg (by decide), if_pos (by decide)]
  exact prepare_undisturbed (c := receivedConsumer) rfl rfl (by decide) rfl rfl hvalidated
    hcovered rfl hbound 0

theorem safe_point_boundary_sample :
    let (result, w) := (waitingSafePoint.prepare stateSha plainRequest 1).among
      BoundaryWorld.step (List.replicate 15 []) (boundaryAt laterSha)
    ∃ prepared, result = some (.ok prepared) ∧ prepared.ackRevision = some laterSha ∧
      prepared.covered receivedConsumer = [nextEvent] ∧
      Settles w receivedConsumer [nextEvent] laterSha
        (prepared.acknowledge.among BoundaryWorld.step (List.replicate 4 []) w) := by
  have h := @safe_point_boundary Unit waitingSafePoint stateSha _ plainRequest 1 none receiving
    receivedConsumer false false (.ok ⟨laterSha, boundState⟩) (List.replicate 15 [])
    (List.replicate 4 [])
  have hprepare := @prepare_boundaryAt laterSha 1 isSha_laterSha (by decide)
  unfold boundaryAt at hprepare ⊢
  rw [run_receiving] at h
  have hbound := h rfl
  rw [hprepare] at hbound ⊢
  obtain ⟨c', arrived, hdrift, hprepared⟩ := hbound
  obtain rfl : receivedConsumer = c' := Option.some.inj hdrift.live
  have hcovered : PreparedWorkerInput.covered (τ := Unit)
      ⟨boundRequest, stateSha, ackRevisionOf [nextEvent] 1, bindingAt laterSha⟩
        receivedConsumer = [nextEvent] := by decide
  obtain ⟨-, -, -, -, -, -, hsettles⟩ := hprepared _ rfl
  rw [hcovered] at hsettles
  exact ⟨_, rfl, rfl, hcovered, hsettles⟩

/-- A safe point that waits accepts a snapshot at the consumed revision while an event is
pending: it was captured, and nothing is consumed. -/
theorem captured_event_kept :
    Machine.run ConsumerWorld.step (.initial none) receiving = receivedWorld ∧
      receivedWorld.live = some receivedConsumer ∧ receivedConsumer.pending = [nextEvent] ∧
      ∃ prepared, (waitingSafePoint.prepare stateSha plainRequest 1).among BoundaryWorld.step
          (List.replicate 15 []) (boundaryAt stateSha) =
            (some (.ok prepared), boundaryAt stateSha) ∧
        prepared.binding.revision = receivedConsumer.consumed ∧ prepared.ackRevision = none ∧
        prepared.acknowledge.among BoundaryWorld.step (List.replicate 3 [])
          (boundaryAt stateSha) = (some (.ok ()), boundaryAt stateSha) :=
  ⟨run_receiving, rfl, rfl, _, @prepare_boundaryAt stateSha 0 isSha_stateSha (by decide), rfl, rfl,
    rfl⟩

end Samples

end Imece.CollabRuntime
