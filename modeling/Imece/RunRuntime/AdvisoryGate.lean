import Imece.RunRuntime.Advisory

/-!
# The gate over advised histories

A settlement attempt at a history with advisory events makes the decision it makes without
them, and its write, at a number that has moved, succeeds as it does there.
-/
namespace Imece.RunRuntime

open Lib RunStore

section Mirror

/-- Two stores in which a write of the run does the same: the rows differ in the number
reached, which no event of the second store passes, and the drawn identifiers are used in
both or in neither. -/
structure Mirror (runId : String) (ids : List String) (row : RunRecord) (m : ℕ)
    (store mirrored : RunStore) : Prop where
  row : mirrored.findRun runId = some { row with lastEventSeq := m }
  ids : ∀ id ∈ ids, id ∈ mirrored.runEvents.map (·.eventId) → id ∈ store.runEvents.map (·.eventId)
  below : ∀ event ∈ mirrored.runEvents, event.runId = runId → event.seq ≤ m

variable {runId : String} {ids : List String} {row updated : RunRecord} {m : ℕ}
  {store mirrored next : RunStore}

lemma buildEvent_moved {seq seq' : ℕ} {args : EventArgs} {fresh : Fresh} {event : RunEvent}
    (h : buildEvent runId seq args fresh = .ok event) (hseq : 1 ≤ seq') :
    buildEvent runId seq' args fresh = .ok { event with seq := seq' } := by
  unfold buildEvent at h ⊢
  repeat' split at h
  all_goals cases h
  have hpos : ¬ seq' < 1 := by omega
  simp_all

lemma insertEvent_eq_ok {event : RunEvent} (h : insertEvent event store = .ok () next) :
    fitsInt64 event.schemaVersion = true ∧ event.eventId ∉ store.runEvents.map (·.eventId) ∧
      event.runId ∈ store.runs.map (·.runId) := by
  unfold insertEvent at h
  split at h
  · cases h
  · rename_i hfits
    split at h
    · rename_i hkeys
      simp only [Bool.not_eq_true, Bool.not_eq_false', Bool.and_eq_true] at hfits
      exact ⟨hfits.2, hkeys.1, hkeys.2.2⟩
    · cases h

lemma insertEvent_returns {event : RunEvent} (hseq : fitsInt64 event.seq = true)
    (hversion : fitsInt64 event.schemaVersion = true)
    (hid : event.eventId ∉ store.runEvents.map (·.eventId))
    (hkey : (event.runId, event.seq) ∉ store.runEvents.map fun e => (e.runId, e.seq))
    (hrun : event.runId ∈ store.runs.map (·.runId)) :
    ∃ next, insertEvent event store = .ok () next ∧
      next.runEvents = store.runEvents ++ [event] ∧ next.runs = store.runs := by
  unfold insertEvent
  rw [if_neg (by simp [hseq, hversion]), dif_pos ⟨hid, hkey, hrun⟩]
  exact ⟨_, rfl, rfl, rfl⟩

lemma updateRun_eq_ok {record : RunRecord} (h : updateRun record store = .ok () next) :
    bindable record = true ∧ ¬ (record.costUsd = .nan ∨ record.latencyS = .nan) := by
  unfold updateRun at h
  split at h
  · cases h
  · rename_i hbind
    split at h
    · cases h
    · rename_i hnumbers
      exact ⟨by simpa using hbind, hnumbers⟩

lemma updateRun_returns {record : RunRecord} (hbind : bindable record = true)
    (hnumbers : ¬ (record.costUsd = .nan ∨ record.latencyS = .nan))
    (hparent : ∀ parent ∈ record.retryOfRunId, parent ∈ store.runs.map (·.runId)) :
    ∃ next, updateRun record store = .ok () next ∧
      next.runEvents = store.runEvents ∧ next.runs = store.runs.map (updatedRow record) := by
  unfold updateRun
  rw [if_neg (by simp [hbind]), if_neg hnumbers, dif_pos hparent]
  exact ⟨_, rfl, rfl, rfl⟩

/-- Where one event is written, it is written over the mirrored history too. -/
lemma writeEvent_mirror {args : EventArgs} {fresh : Fresh} {event : RunEvent}
    (hrow : store.findRun runId = some row) (h : Mirror runId ids row m store mirrored)
    (hwrite : writeEvent runId row args fresh store = .ok (event, updated) next)
    (hid : event.eventId ∈ ids) (hroom : fitsInt64 ((m + 1 : ℕ) : ℤ) = true) :
    ∃ mirroredNext,
      writeEvent runId { row with lastEventSeq := m } args fresh mirrored =
        .ok ({ event with seq := m + 1 }, { updated with lastEventSeq := m + 1 }) mirroredNext ∧
      Mirror runId ids updated (m + 1) next mirroredNext := by
  have hwrote := writeEvent_ok hrow hwrite
  simp only [writeEvent, bind_eq_ok, check_eq_ok, pure_eq_ok, Prod.mk.injEq] at hwrite
  obtain ⟨built, s₁, ⟨hbuilt, rfl⟩, projected, s₂, ⟨hprojected, rfl⟩, ⟨⟩, s₃, hinsert, ⟨⟩, s₄,
    hupdate, ⟨rfl, rfl⟩, rfl⟩ := hwrite
  have hrun : built.runId = runId := (buildEvent_ok hbuilt).1
  obtain ⟨hversion, hunused, -⟩ := insertEvent_eq_ok hinsert
  obtain ⟨hbind, hnumbers⟩ := updateRun_eq_ok hupdate
  have hbuilt' : buildEvent runId (m + 1) args fresh = .ok { built with seq := m + 1 } :=
    buildEvent_moved hbuilt (by omega)
  have hprojected' : projectRun { row with lastEventSeq := m } { built with seq := m + 1 } =
      .ok { projected with lastEventSeq := m } := by
    have hmoved : built.Moved { built with seq := m + 1 } := rfl
    rw [projectRun_moved hmoved, projectRun_setSeq, hprojected]
    rfl
  have hsame := (projectRun_ok hprojected).sameRun
  have hrows := findRun_some h.row
  obtain ⟨inserted, hinsert', hevents, hruns⟩ :=
    @insertEvent_returns mirrored { built with seq := m + 1 } hroom hversion
      (fun hused => hunused (h.ids _ hid hused))
      (by
        intro hused
        obtain ⟨other, hother, hkey⟩ := List.mem_map.mp hused
        simp only [Prod.mk.injEq] at hkey
        have hle := h.below other hother (hkey.1.trans hrun)
        omega)
      (List.mem_map.mpr ⟨_, hrows.1, hrows.2.trans hrun.symm⟩)
  obtain ⟨updatedStore, hupdate', hevents', hruns'⟩ :=
    @updateRun_returns inserted { projected with lastEventSeq := m + 1 }
      (by
        simp only [bindable, Bool.and_eq_true] at hbind ⊢
        exact ⟨⟨⟨⟨hbind.1.1.1.1, hroom⟩, hbind.1.1.2⟩, hbind.1.2⟩, hbind.2⟩)
      hnumbers
      (by
        intro parent hparent
        rw [hruns]
        refine mirrored.schema.run_retry _ hrows.1 parent ?_
        rw [← hsame.retryOfRunId]
        exact hparent)
  have hwrite' : writeEvent runId { row with lastEventSeq := m } args fresh mirrored =
      .ok ({ built with seq := m + 1 }, { projected with lastEventSeq := m + 1 }) updatedStore := by
    simp only [writeEvent, bind_eq_ok, check_eq_ok, pure_eq_ok, Prod.mk.injEq]
    exact ⟨_, _, ⟨hbuilt', rfl⟩, _, _, ⟨hprojected', rfl⟩, (), _, hinsert', (), _, hupdate',
      ⟨rfl, rfl⟩, rfl⟩
  have hwrote' := writeEvent_ok h.row hwrite'
  refine ⟨updatedStore, hwrite', hwrote'.appended.row, ?_, ?_⟩
  · intro id hid hused
    rw [hevents', hevents, List.map_append] at hused
    rw [(updateRun_ok hupdate).1, (insertEvent_ok hinsert).1, List.map_append]
    rcases List.mem_append.mp hused with hold | hnew
    · exact List.mem_append_left _ (h.ids id hid hold)
    · exact List.mem_append_right _ hnew
  · intro other hother hotherRun
    rw [hevents', hevents] at hother
    rcases List.mem_append.mp hother with hold | hnew
    · exact (h.below other hold hotherRun).trans (Nat.le_succ m)
    · rw [List.mem_singleton] at hnew
      rw [hnew]

lemma buildEvent_eventId {seq : ℕ} {args : EventArgs} {fresh : Fresh} {event : RunEvent}
    (h : buildEvent runId seq args fresh = .ok event) :
    event.eventId = orFresh args.eventId fresh.uuid := by
  unfold buildEvent at h
  repeat' split at h
  all_goals cases h
  rfl

/-- By induction on the batch: each event leaves the stores mirrored for the next. -/
lemma writeEvents_mirror {specs : List (RunEventSpec × Fresh)} {last : RunRecord}
    {events : List RunEvent} (hrow : store.findRun runId = some row)
    (h : Mirror runId ids row m store mirrored)
    (hwrite : writeEvents runId row specs store = .ok (events, last) next)
    (hids : ∀ spec ∈ specs, orFresh spec.1.eventId spec.2.uuid ∈ ids)
    (hroom : ((m + specs.length : ℕ) : ℤ) < 2 ^ 63) :
    ∃ result mirroredNext,
      writeEvents runId { row with lastEventSeq := m } specs mirrored = .ok result mirroredNext := by
  induction specs generalizing store mirrored row m events with
  | nil => exact ⟨_, _, rfl⟩
  | cons spec rest ih =>
      obtain ⟨spec, fresh⟩ := spec
      simp only [writeEvents, bind_eq_ok, pure_eq_ok, Prod.exists, Prod.mk.injEq] at hwrite
      obtain ⟨event, updated, middle, hone, more, row', final, hrest, ⟨rfl, rfl⟩, rfl⟩ := hwrite
      have hwrote := writeEvent_ok hrow hone
      have hid : event.eventId ∈ ids := by
        rw [buildEvent_eventId hwrote.built]
        exact hids (spec, fresh) List.mem_cons_self
      rw [List.length_cons] at hroom
      have hfits : fitsInt64 ((m + 1 : ℕ) : ℤ) = true := by
        simp only [fitsInt64, Bool.and_eq_true, decide_eq_true_eq]
        omega
      obtain ⟨mirroredMiddle, hone', hmiddle⟩ := writeEvent_mirror hrow h hone hid hfits
      obtain ⟨⟨events', last'⟩, mirroredNext, hrest'⟩ := ih hwrote.appended.row hmiddle hrest
        (fun other hother => hids other (List.mem_cons_of_mem _ hother)) (by omega)
      refine ⟨({ event with seq := m + 1 } :: events', last'), mirroredNext, ?_⟩
      simp only [writeEvents, bind_eq_ok, pure_eq_ok, Prod.exists]
      exact ⟨_, _, _, hone', events', last', _, hrest', rfl, rfl⟩

lemma expectedSeq_some (n : ℕ) : checkExpected (expectedSeq (some n)) = .ok (some (n : ℤ)) := by
  rw [expectedSeq, checkExpected, if_neg (by omega)]

/-- An append at the number the row shows is accepted over a mirrored history as well. -/
lemma appendEvents_mirror {specs : List (RunEventSpec × Fresh)}
    (hrow : store.findRun runId = some row) (h : Mirror runId ids row m store mirrored)
    (hids : ∀ spec ∈ specs, orFresh spec.1.eventId spec.2.uuid ∈ ids)
    (hroom : ((m + specs.length : ℕ) : ℤ) < 2 ^ 63)
    (hok : (result (appendEvents runId specs (expectedSeq (some row.lastEventSeq))) store).isOk =
      true) :
    (result (appendEvents runId specs (expectedSeq (some m))) mirrored).isOk = true := by
  cases happend : appendEvents runId specs (expectedSeq (some row.lastEventSeq)) store with
  | error err t => simp [result, happend, Except.isOk, Except.toBool] at hok
  | ok returned t =>
      obtain ⟨current, required, hspecs, hcurrent, -, -, hwrite⟩ := appendEvents_ok happend
      rw [hrow] at hcurrent
      cases hcurrent
      obtain ⟨returned', t', hwrite'⟩ := writeEvents_mirror hrow h hwrite hids hroom
      have happend' : appendEvents runId specs (expectedSeq (some m)) mirrored =
          .ok returned' t' := by
        have hnonempty : requireNonempty specs = .ok () := by
          rw [requireNonempty, if_neg (by simpa using hspecs)]
        have hget : RunStore.getRun runId mirrored =
            .ok { row with lastEventSeq := m } mirrored := by
          rw [RunStore.getRun, h.row]
        simp only [appendEvents, bind_eq_ok, check_eq_ok, atomically_eq_ok]
        refine ⟨(), _, ⟨hnonempty, rfl⟩, _, _, ⟨expectedSeq_some m, rfl⟩, _, _, hget, (), _,
          ⟨?_, rfl⟩, hwrite'⟩
        simp [checkSequence]
      simp [result, happend', Except.isOk, Except.toBool]

lemma appendEvent_mirror {args : EventArgs} {fresh : Fresh}
    (hrow : store.findRun runId = some row) (h : Mirror runId ids row m store mirrored)
    (hids : orFresh args.eventId fresh.uuid ∈ ids)
    (hroom : ((m + 1 : ℕ) : ℤ) < 2 ^ 63)
    (hok : (result (appendEvent runId args (expectedSeq (some row.lastEventSeq)) fresh) store).isOk =
      true) :
    (result (appendEvent runId args (expectedSeq (some m)) fresh) mirrored).isOk = true := by
  cases happend : appendEvent runId args (expectedSeq (some row.lastEventSeq)) fresh store with
  | error err t => simp [result, happend, Except.isOk, Except.toBool] at hok
  | ok returned t =>
      obtain ⟨event, updated⟩ := returned
      have hpayload : ∃ payload, validateEventPayload args.payload = .ok payload := by
        simp only [appendEvent, bind_eq_ok, check_eq_ok] at happend
        obtain ⟨payload, _, ⟨hpayload, -⟩, -⟩ := happend
        exact ⟨payload, hpayload⟩
      obtain ⟨current, required, hcurrent, -, -, hwrite⟩ := appendEvent_ok happend
      rw [hrow] at hcurrent
      cases hcurrent
      have hid : event.eventId ∈ ids := by
        rw [buildEvent_eventId (writeEvent_ok hrow hwrite).built]
        exact hids
      have hfits : fitsInt64 ((m + 1 : ℕ) : ℤ) = true := by
        simp only [fitsInt64, Bool.and_eq_true, decide_eq_true_eq]
        omega
      obtain ⟨t', hwrite', -⟩ := writeEvent_mirror hrow h hwrite hid hfits
      have happend' : ∃ returned', appendEvent runId args (expectedSeq (some m)) fresh mirrored =
          .ok returned' t' := by
        obtain ⟨payload, hpayload⟩ := hpayload
        have hget : RunStore.getRun runId mirrored =
            .ok { row with lastEventSeq := m } mirrored := by
          rw [RunStore.getRun, h.row]
        refine ⟨({ event with seq := m + 1 }, { updated with lastEventSeq := m + 1 }), ?_⟩
        simp only [appendEvent, bind_eq_ok, check_eq_ok, atomically_eq_ok]
        refine ⟨_, _, ⟨hpayload, rfl⟩, _, _, ⟨expectedSeq_some m, rfl⟩, _, _, hget, (), _,
          ⟨?_, rfl⟩, hwrite'⟩
        simp [checkSequence]
      obtain ⟨returned', happend'⟩ := happend'
      simp [result, happend', Except.isOk, Except.toBool]

end Mirror

/-- A call of the gate: the method, its arguments, and what its write draws. -/
inductive SettlementAttempt where
  | completeVerified (settlement : RunCompletionGate.Settlement) (verificationId : String)
      (fresh : Fresh × Fresh)
  | completeReviewed (settlement : RunCompletionGate.Settlement)
      (verificationId reviewId currentDiffSha256 : String) (fresh : Fresh × Fresh)
  | failExecution (executionId : String) (fresh : Fresh)
  | failVerification (verificationId : String) (fresh : Fresh)
  | failFixLoop (fixLoopId : String) (fresh : Fresh)

namespace SettlementAttempt

open RunCompletionGate

def program (runId : String) : SettlementAttempt → RunProg Unit
  | .completeVerified settlement verificationId fresh =>
      RunCompletionGate.completeVerified settlement runId verificationId fresh
  | .completeReviewed settlement verificationId reviewId currentDiffSha256 fresh =>
      RunCompletionGate.completeReviewed settlement runId verificationId reviewId
        currentDiffSha256 fresh
  | .failExecution executionId fresh => RunCompletionGate.failExecution runId executionId fresh
  | .failVerification verificationId fresh =>
      RunCompletionGate.failVerification runId verificationId fresh
  | .failFixLoop fixLoopId fresh => RunCompletionGate.failFixLoop runId fixLoopId fresh

/-- What the attempt decides from the history: the payload to write, or a refusal. -/
def decide (events : List RunEvent) : SettlementAttempt → Except RunRuntimeError PyValue
  | .completeVerified _ verificationId _ => verifiedPayload events verificationId
  | .completeReviewed _ verificationId reviewId currentDiffSha256 _ =>
      reviewedPayload events verificationId reviewId currentDiffSha256
  | .failExecution executionId _ => executionFailure events executionId
  | .failVerification verificationId _ => verificationFailure events verificationId
  | .failFixLoop fixLoopId _ => fixLoopFailure events fixLoopId

/-- The write of a failure. -/
def writeFailure (runId : String) (expected : ℕ) (payload : PyValue) (fresh : Fresh) :
    RunProg Unit := do
  let _ ← record runId {
    type := RunEventType.runFailed.value, payload, source := "run_gate" }
    (some expected) fresh
  return ()

/-- The write of an attempt, at the number it has decided at. -/
def write (runId : String) (expected : ℕ) (payload : PyValue) :
    SettlementAttempt → RunProg Unit
  | .completeVerified settlement _ fresh => settle settlement runId expected payload fresh
  | .completeReviewed settlement _ _ _ fresh => settle settlement runId expected payload fresh
  | .failExecution _ fresh => writeFailure runId expected payload fresh
  | .failVerification _ fresh => writeFailure runId expected payload fresh
  | .failFixLoop _ fresh => writeFailure runId expected payload fresh

/-- The event identifiers that the write draws. -/
def drawn : SettlementAttempt → List String
  | .completeVerified _ _ fresh => [fresh.1.uuid, fresh.2.uuid]
  | .completeReviewed _ _ _ _ fresh => [fresh.1.uuid, fresh.2.uuid]
  | .failExecution _ fresh => [fresh.uuid]
  | .failVerification _ fresh => [fresh.uuid]
  | .failFixLoop _ fresh => [fresh.uuid]

/-- Every method of the gate reads its evidence, decides, and writes. -/
lemma program_eq (runId : String) (attempt : SettlementAttempt) :
    attempt.program runId = (do
      let found ← evidence runId
      let payload ← Prog.check (attempt.decide found.events)
      attempt.write runId found.decisionSeq payload) := by
  cases attempt <;> rfl

/-- The attempt is made with nothing in between: whether it is accepted. -/
def accepted (attempt : SettlementAttempt) (runId : String) (store : RunStore) : Bool :=
  ((attempt.program runId).alone store).1.isOk

end SettlementAttempt

section Attempts

open RunCompletionGate

variable {runId : String} {row : RunRecord} {store : RunStore}

/-- Alone, the gate reads the row and the whole log of its run. -/
lemma evidence_alone (hstore : store.Consistent runId) (hrow : store.findRun runId = some row) :
    (evidence runId).alone store =
      (if row.status ≠ .running then
          .error (.invalidRunState "Run completion requires RUNNING status")
        else .ok ⟨runId, row.lastEventSeq, store.log runId⟩, store) := by
  have hget : (getRun runId).alone store = (.ok row, store) := by
    rw [getRun, Prog.alone_call, RunStore.getRun_after]
    rw [result, RunStore.getRun, hrow]
  unfold evidence
  rw [Prog.alone_bind, hget]
  by_cases hrunning : row.status ≠ .running
  · simp only [if_pos hrunning]
    rfl
  · simp only [if_neg hrunning]
    have hload := @loadFullEventHistory_safe (fun _ a b => b = a) runId (fun _ _ => rfl) store
      hstore (by simp [hrow])
    rw [Prog.alone_bind, (hstore.history row hrow).lastEventSeq]
    have hresult := hload.alone RunStore.Grows.refl
    have hsame := hload.alone_same RunStore.Grows.refl (fun _ _ _ h => h)
    rw [show (loadFullEventHistory runId (store.log runId).length).alone store =
      (.ok (store.log runId), store) from Prod.ext hresult hsame]
    rfl

lemma accepted_eq (hstore : store.Consistent runId) (hrow : store.findRun runId = some row)
    (attempt : SettlementAttempt) :
    attempt.accepted runId store =
      if row.status ≠ .running then false
      else
        match attempt.decide (store.log runId) with
        | .ok payload => ((attempt.write runId row.lastEventSeq payload).alone store).1.isOk
        | .error _ => false := by
  rw [SettlementAttempt.accepted, SettlementAttempt.program_eq, Prog.alone_bind,
    evidence_alone hstore hrow]
  by_cases hrunning : row.status ≠ .running
  · simp only [if_pos hrunning]
    rfl
  · simp only [if_neg hrunning]
    cases attempt.decide (store.log runId) with
    | ok payload => rfl
    | error err => rfl

lemma isOk_bind_unit {α : Type} (p : RunProg α) (store : RunStore) :
    ((p >>= fun _ => (pure () : RunProg Unit)).alone store).1.isOk = (p.alone store).1.isOk := by
  rw [Prog.alone_bind]
  rcases p.alone store with ⟨result, next⟩
  cases result <;> rfl

variable {ids : List String} {m : ℕ} {mirrored : RunStore}

lemma record_mirror (hrow : store.findRun runId = some row)
    (h : Mirror runId ids row m store mirrored) {args : EventArgs} {fresh : Fresh}
    (hids : orFresh args.eventId fresh.uuid ∈ ids) (hroom : ((m + 2 : ℕ) : ℤ) < 2 ^ 63)
    (hok : ((do
      let _ ← record runId args (some row.lastEventSeq) fresh
      return () : RunProg Unit).alone store).1.isOk = true) :
    ((do
      let _ ← record runId args (some m) fresh
      return () : RunProg Unit).alone mirrored).1.isOk = true := by
  rw [isOk_bind_unit, record, Prog.alone_call] at hok ⊢
  exact appendEvent_mirror hrow h hids (by omega) hok

lemma settle_mirror (hrow : store.findRun runId = some row)
    (h : Mirror runId ids row m store mirrored) (settlement : Settlement) (payload : PyValue)
    {fresh : Fresh × Fresh} (hfirst : fresh.1.uuid ∈ ids) (hsecond : fresh.2.uuid ∈ ids)
    (hroom : ((m + 2 : ℕ) : ℤ) < 2 ^ 63)
    (hok : ((settle settlement runId row.lastEventSeq payload fresh).alone store).1.isOk = true) :
    ((settle settlement runId m payload fresh).alone mirrored).1.isOk = true := by
  cases settlement with
  | complete => exact record_mirror hrow h hfirst hroom hok
  | awaitUser =>
      simp only [settle, CanonicalPipelineRecorder.needsUser,
        CanonicalPipelineRecorder.writeNeedsUser] at hok ⊢
      cases hready : RunEventSpec.ofArgs {
          type := RunEventType.proposalReady.value, payload, source := "run_gate"
          correlationId := some runId } with
      | error err =>
          rw [hready] at hok
          cases hok
      | ok ready =>
          cases hwaiting : RunEventSpec.ofArgs {
              type := RunEventType.runWaitingUser.value, payload := payloadOf []
              source := "run_gate", correlationId := some runId } with
          | error err =>
              rw [hready, hwaiting] at hok
              cases hok
          | ok waiting =>
              rw [hready, hwaiting] at hok
              have hreadyId := congrArg EventArgs.eventId (RunEventSpec.ofArgs_args hready)
              have hwaitingId := congrArg EventArgs.eventId (RunEventSpec.ofArgs_args hwaiting)
              change ((recordMany runId [(ready, fresh.1), (waiting, fresh.2)]
                (some row.lastEventSeq) >>= fun _ => pure ()).alone store).1.isOk = true at hok
              change ((recordMany runId [(ready, fresh.1), (waiting, fresh.2)]
                (some m) >>= fun _ => pure ()).alone mirrored).1.isOk = true
              rw [isOk_bind_unit, recordMany, Prog.alone_call] at hok ⊢
              refine appendEvents_mirror hrow h ?_ hroom hok
              intro spec hspec
              rcases List.mem_cons.mp hspec with rfl | hspec
              · change orFresh ready.eventId fresh.1.uuid ∈ ids
                rw [show ready.eventId = none from hreadyId]
                exact hfirst
              · rw [List.mem_singleton] at hspec
                subst hspec
                change orFresh waiting.eventId fresh.2.uuid ∈ ids
                rw [show waiting.eventId = none from hwaitingId]
                exact hsecond

lemma write_mirror (hrow : store.findRun runId = some row) (attempt : SettlementAttempt)
    (h : Mirror runId attempt.drawn row m store mirrored) (payload : PyValue)
    (hroom : ((m + 2 : ℕ) : ℤ) < 2 ^ 63)
    (hok : ((attempt.write runId row.lastEventSeq payload).alone store).1.isOk = true) :
    ((attempt.write runId m payload).alone mirrored).1.isOk = true := by
  cases attempt with
  | completeVerified settlement verificationId fresh =>
      exact settle_mirror hrow h settlement payload (by simp [SettlementAttempt.drawn])
        (by simp [SettlementAttempt.drawn]) hroom hok
  | completeReviewed settlement verificationId reviewId currentDiffSha256 fresh =>
      exact settle_mirror hrow h settlement payload (by simp [SettlementAttempt.drawn])
        (by simp [SettlementAttempt.drawn]) hroom hok
  | failExecution executionId fresh =>
      exact record_mirror hrow h (by simp [SettlementAttempt.drawn, orFresh]) hroom hok
  | failVerification verificationId fresh =>
      exact record_mirror hrow h (by simp [SettlementAttempt.drawn, orFresh]) hroom hok
  | failFixLoop fixLoopId fresh =>
      exact record_mirror hrow h (by simp [SettlementAttempt.drawn, orFresh]) hroom hok

end Attempts

section Rows

lemma RunRecord.SameRun.symm {a b : RunRecord} (h : a.SameRun b) : b.SameRun a where
  runId := h.runId.symm
  taskId := h.taskId.symm
  attempt := h.attempt.symm
  retryOfRunId := h.retryOfRunId.symm
  routing := h.routing.symm
  budget := h.budget.symm
  workspaceSnapshot := h.workspaceSnapshot.symm
  createdAt := h.createdAt.symm

/-- A new row is determined by the columns that no event changes. -/
lemma RunRecord.IsNew.eq {a b : RunRecord} (ha : a.IsNew) (hb : b.IsNew) (h : a.SameRun b) :
    b = a := by
  obtain ⟨ha₁, ha₂, ha₃, ha₄, ha₅, ha₆, ha₇, ha₈, ha₉, ha₁₀, ha₁₁, ha₁₂⟩ := ha
  obtain ⟨hb₁, hb₂, hb₃, hb₄, hb₅, hb₆, hb₇, hb₈, hb₉, hb₁₀, hb₁₁, hb₁₂⟩ := hb
  obtain ⟨h₁, h₂, h₃, h₄, h₅, h₆, h₇, h₈⟩ := h
  cases a
  cases b
  simp_all

lemma sameRun_of_replay {created row : RunRecord} {events : List RunEvent}
    (h : Lib.replay projectRun created events = .ok row) : created.SameRun row :=
  replay_invariant (P := fun s => created.SameRun s)
    (fun _ _ _ hs hstep => hs.trans (projectRun_ok hstep).sameRun) (.refl created) h

/-- The row of an advised history is the row of the history at another number. -/
theorem RunHistory.advised {row row' : RunRecord} {es fs : List RunEvent}
    (h : RunHistory row es) (h' : RunHistory row' fs) (hsame : row.SameRun row')
    (hlog : Advised es fs) : row' = { row with lastEventSeq := fs.length } := by
  obtain ⟨created, projected, hnew, hreplay, rfl⟩ := h.folded
  obtain ⟨created', projected', hnew', hreplay', rfl⟩ := h'.folded
  have hleft := sameRun_of_replay hreplay
  have hright := sameRun_of_replay hreplay'
  have hrows : projected.SameRun projected' :=
    ⟨hsame.runId, hsame.taskId, hsame.attempt, hsame.retryOfRunId, hsame.routing, hsame.budget,
      hsame.workspaceSnapshot, hsame.createdAt⟩
  have hcreated : created' = created := hnew.eq hnew' ((hleft.trans hrows).trans hright.symm)
  subst hcreated
  rw [hlog.replay, hreplay] at hreplay'
  cases hreplay'
  rfl

end Rows

section Inert

variable {runId : String} {row row' : RunRecord} {store advised : RunStore}

lemma decide_advised {es fs : List RunEvent} {pairs : List (RunEvent × RunEvent)}
    (h : Twins es fs pairs) (attempt : SettlementAttempt) :
    attempt.decide fs = attempt.decide es := by
  cases attempt with
  | completeVerified settlement verificationId fresh => exact (h.verifiedPayload_eq _).symm
  | completeReviewed settlement verificationId reviewId currentDiffSha256 fresh =>
      exact (h.reviewedPayload_eq _ _ _).symm
  | failExecution executionId fresh => exact (h.executionFailure_eq _).symm
  | failVerification verificationId fresh => exact (h.verificationFailure_eq _).symm
  | failFixLoop fixLoopId fresh => exact (h.fixLoopFailure_eq _).symm

/-- The events of a run do not pass the number its row shows. -/
lemma mirror_of_consistent (hadvised : advised.Consistent runId) {n : ℕ} {ids : List String}
    (hrow' : advised.findRun runId = some { row with lastEventSeq := n })
    (hids : ∀ id ∈ ids, id ∈ advised.runEvents.map (·.eventId) →
      id ∈ store.runEvents.map (·.eventId)) :
    Mirror runId ids row n store advised where
  row := hrow'
  ids := hids
  below event hevent hrun := by
    have hhistory := hadvised.history _ hrow'
    have hlength : n = (advised.log runId).length := hhistory.lastEventSeq
    have hmem : event ∈ advised.log runId := List.mem_filter.mpr ⟨hevent, decide_eq_true hrun⟩
    obtain ⟨i, hi, hat⟩ := List.mem_iff_getElem.mp hmem
    have hseq := numbered_getElem hhistory.numbered i hi
    simp only [hat] at hseq
    omega

/-- The number that an attempt needs room for. -/
def HasRoom (store : RunStore) (runId : String) : Prop :=
  (((store.log runId).length + 2 : ℕ) : ℤ) < 2 ^ 63

/-- An attempt accepted at a history is accepted at the advised history. -/
lemma accepted_advised (hstore : store.Consistent runId) (hadvised : advised.Consistent runId)
    (hrow : store.findRun runId = some row) {n : ℕ}
    (hrow' : advised.findRun runId = some { row with lastEventSeq := n })
    {attempt : SettlementAttempt}
    (hdecide : attempt.decide (advised.log runId) = attempt.decide (store.log runId))
    (hids : ∀ id ∈ attempt.drawn, id ∈ advised.runEvents.map (·.eventId) →
      id ∈ store.runEvents.map (·.eventId))
    (hroom : HasRoom advised runId) (hok : attempt.accepted runId store = true) :
    attempt.accepted runId advised = true := by
  rw [accepted_eq hstore hrow] at hok
  rw [accepted_eq hadvised hrow', hdecide]
  by_cases hrunning : row.status ≠ .running
  · rw [if_pos hrunning] at hok
    cases hok
  · rw [if_neg hrunning] at hok
    rw [if_neg hrunning]
    cases hpayload : attempt.decide (store.log runId) with
    | error err =>
        rw [hpayload] at hok
        cases hok
    | ok payload =>
        rw [hpayload] at hok
        have hlength : n = (advised.log runId).length := (hadvised.history _ hrow').lastEventSeq
        exact write_mirror hrow attempt (mirror_of_consistent hadvised hrow' hids) payload
          (by rw [hlength]; exact hroom) hok

lemma buildReceipt_finishedAt {snapshot : RunReadSnapshot} {receipt : Receipt}
    (h : buildReceipt snapshot = .ok receipt) :
    receipt.finishedAt = toEpochSeconds (finishedAt snapshot) := by
  simp only [buildReceipt, except_bind_eq_ok, except_pure_eq_ok] at h
  obtain ⟨plan, -, proposals, -, applied, -, rejected, -, rfl⟩ := h
  rfl

/-- Two histories of one run that differ in advisory events only: the projection folds both
to the same row, every settlement attempt is decided alike and, where the identifiers it
draws are as fresh and SQLite has a number for its events, accepted alike, and the receipt
and the history item are the same, but for the finish time of an unfinished run. -/
theorem advisory_events_inert (hstore : store.Consistent runId)
    (hadvised : advised.Consistent runId) (hrow : store.findRun runId = some row)
    (hrow' : advised.findRun runId = some row') (hsame : row.SameRun row')
    (hlog : Advised (store.log runId) (advised.log runId)) :
    (∀ start, Lib.replay projectRun start (advised.log runId) =
        Lib.replay projectRun start (store.log runId)) ∧
      row' = { row with lastEventSeq := (advised.log runId).length } ∧
      (∀ attempt : SettlementAttempt,
        attempt.decide (advised.log runId) = attempt.decide (store.log runId) ∧
        ((∀ id ∈ attempt.drawn, id ∈ advised.runEvents.map (·.eventId) ↔
            id ∈ store.runEvents.map (·.eventId)) →
          HasRoom store runId → HasRoom advised runId →
            attempt.accepted runId advised = attempt.accepted runId store)) ∧
      ∀ task,
        buildReceipt ⟨task, row', advised.log runId⟩ =
          (buildReceipt ⟨task, row, store.log runId⟩).map (fun receipt => { receipt with
            finishedAt := toEpochSeconds (finishedAt ⟨task, row', advised.log runId⟩) }) ∧
        (row.finishedAt.isSome → buildReceipt ⟨task, row', advised.log runId⟩ =
          buildReceipt ⟨task, row, store.log runId⟩) ∧
        buildHistoryItem ⟨task, row', advised.log runId⟩ =
          buildHistoryItem ⟨task, row, store.log runId⟩ := by
  have hrows := (hstore.history row hrow).advised (hadvised.history row' hrow') hsame hlog
  obtain ⟨pairs, htwins⟩ := hlog.twins (hstore.history row hrow).numbered
    (hadvised.history row' hrow').numbered
  generalize hn : (advised.log runId).length = n at hrows
  subst hrows
  have hrow₀ : store.findRun runId = some { { row with lastEventSeq := n } with
      lastEventSeq := row.lastEventSeq } := hrow
  refine ⟨hlog.replay, rfl, ?_, ?_⟩
  · intro attempt
    have hdecide := decide_advised htwins attempt
    refine ⟨hdecide, ?_⟩
    intro hids hroom hroom'
    rw [Bool.eq_iff_iff]
    constructor
    · exact accepted_advised hadvised hstore hrow' hrow₀ hdecide.symm
        (fun id hid => (hids id hid).mpr) hroom
    · exact accepted_advised hstore hadvised hrow hrow' hdecide
        (fun id hid => (hids id hid).mp) hroom'
  · intro task
    have hreceipt := htwins.buildReceipt_eq task row n
    refine ⟨hreceipt, ?_, htwins.buildHistoryItem_eq task row n⟩
    intro hfinished
    rw [hreceipt]
    obtain ⟨instant, hinstant⟩ := Option.isSome_iff_exists.mp hfinished
    cases hbuilt : buildReceipt ⟨task, row, store.log runId⟩ with
    | error err => rfl
    | ok receipt =>
        have htime := buildReceipt_finishedAt hbuilt
        have hboth : finishedAt ⟨task, { row with lastEventSeq := n }, advised.log runId⟩ =
            finishedAt ⟨task, row, store.log runId⟩ := by
          simp only [finishedAt, hinstant, Option.some_or]
        rw [hboth, ← htime]
        rfl

end Inert

section Sample

def sampleEvent (type : RunEventType) (eventId : String) (seq : ℕ) : RunEvent where
  eventId := eventId
  runId := "r"
  seq := seq
  type := type.value
  schemaVersion := 1
  createdAt := 0
  executionId := none
  turnId := none
  itemId := none
  causationId := none
  correlationId := none
  source := "system"
  payload := .empty

def sampleRun (status : RunStatus) (phase : RunPhase) (startedAt : Option Instant) (n : ℕ) :
    RunRecord where
  runId := "r"
  taskId := "t"
  status := status
  phase := phase
  attempt := 1
  retryOfRunId := none
  routing := .empty
  budget := none
  workspaceSnapshot := none
  lastEventSeq := n
  promptTokens := 0
  completionTokens := 0
  totalTokens := 0
  costUsd := .finite 0
  latencyS := .finite 0
  createdAt := 0
  startedAt := startedAt
  finishedAt := none
  errorCode := none
  errorMessage := none

def quietStore : RunStore where
  tasks := [⟨"t", "/p", "fix", 0⟩]
  runs := [sampleRun .running .starting (some 0) 1]
  runEvents := [sampleEvent .runStarted "e1" 1]
  schema := by constructor <;> simp [sampleRun, sampleEvent]

def advisedStore : RunStore where
  tasks := [⟨"t", "/p", "fix", 0⟩]
  runs := [sampleRun .running .starting (some 0) 3]
  runEvents := [sampleEvent .decisionMade "e0" 1, sampleEvent .runStarted "e1" 2,
    sampleEvent .agentActivity "e2" 3]
  schema := by constructor <;> simp [sampleRun, sampleEvent]

lemma consistent_of_row {store : RunStore} {row : RunRecord}
    (hrow : store.findRun "r" = some row) (h : RunHistory row (store.log "r")) :
    store.Consistent "r" where
  absent hnone := by
    rw [hrow] at hnone
    cases hnone
  history found hfound := by
    rw [hrow] at hfound
    cases hfound
    exact h

lemma sampleRun_isNew : (sampleRun .created .created none 0).IsNew := by
  constructor <;> rfl

theorem advisory_events_inert_sample :
    (quietStore.log "r").length < (advisedStore.log "r").length ∧
      ∀ attempt : SettlementAttempt,
        attempt.decide (advisedStore.log "r") = attempt.decide (quietStore.log "r") := by
  have hquiet : quietStore.Consistent "r" := consistent_of_row rfl
    ⟨rfl, sampleRun .created .created none 0, sampleRun .running .starting (some 0) 0,
      sampleRun_isNew, rfl, rfl⟩
  have hadvised : advisedStore.Consistent "r" := consistent_of_row rfl
    ⟨rfl, sampleRun .created .created none 0, sampleRun .running .starting (some 0) 0,
      sampleRun_isNew, rfl, rfl⟩
  have hlog : Advised (quietStore.log "r") (advisedStore.log "r") :=
    .advise rfl (.keep rfl (.advise rfl .nil))
  refine ⟨by decide +kernel, ?_⟩
  intro attempt
  exact ((advisory_events_inert hquiet hadvised rfl rfl (by constructor <;> rfl) hlog).2.2.1
    attempt).1

end Sample

end Imece.RunRuntime
