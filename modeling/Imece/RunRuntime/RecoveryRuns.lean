import Imece.RunRuntime.FullHistory
import Imece.RunRuntime.RecorderMoves
import Imece.RunRuntime.RecoveryEnds

/-!
# Recoveries among other writers

A recovery reads each candidate page by page and writes at the number the scan saw,
while other writers, and other recoveries, go on. A run it reports interrupted was
closed on the whole log of the scan; a run it skips has moved on since.
-/
namespace Imece.RunRuntime

open Lib

/-- Not the failed precondition of a conditional append. -/
def RunRuntimeError.Unsequenced (error : RunRuntimeError) : Prop :=
  ∀ expected actual, error ≠ .eventSequence expected actual

section Exceptions

lemma unsequenced_eventValidation (what : String) :
    (RunRuntimeError.eventValidation what).Unsequenced := by
  intro _ _ hsame
  cases hsame

lemma optionalStr_unsequenced {payload : JsonDict} {key eventType : String} {e : RunRuntimeError}
    (h : optionalStr payload key eventType = .error e) : e.Unsequenced := by
  unfold optionalStr at h
  split at h <;> cases h
  intro _ _ hsame
  cases hsame

lemma nonNegativeInt_unsequenced {value : PyValue} {field : String} {e : RunRuntimeError}
    (h : nonNegativeInt value field = .error e) : e.Unsequenced := by
  unfold nonNegativeInt at h
  repeat' split at h
  all_goals cases h
  all_goals (intro _ _ hsame; cases hsame)

lemma nonNegativeNumber_unsequenced {value : PyValue} {field : String} {e : RunRuntimeError}
    (h : nonNegativeNumber value field = .error e) : e.Unsequenced := by
  unfold nonNegativeNumber at h
  repeat' split at h
  all_goals cases h
  all_goals (intro _ _ hsame; cases hsame)

lemma costFromPayload_unsequenced {payload : JsonDict} {e : RunRuntimeError}
    (h : costFromPayload payload = .error e) : e.Unsequenced := by
  unfold costFromPayload at h
  split at h
  · cases h
  · exact nonNegativeNumber_unsequenced h

lemma usageFromPayload_unsequenced {payload : JsonDict} {e : RunRuntimeError}
    (h : usageFromPayload payload = .error e) : e.Unsequenced := by
  simp only [usageFromPayload, except_bind_eq_error] at h
  rcases h with h | ⟨_, -, h | ⟨_, -, h | ⟨_, -, h | ⟨_, -, h | ⟨_, -, h⟩⟩⟩⟩⟩
  · exact nonNegativeInt_unsequenced h
  · exact nonNegativeInt_unsequenced h
  · exact nonNegativeInt_unsequenced h
  · exact costFromPayload_unsequenced h
  · exact nonNegativeNumber_unsequenced h
  · cases h

theorem projectRun_unsequenced {current : RunRecord} {event : RunEvent} {e : RunRuntimeError}
    (h : projectRun current event = .error e) : e.Unsequenced := by
  unfold projectRun at h
  cases hkind : event.kind with
  | none => simp [hkind] at h
  | some kind =>
      rw [hkind, Option.bind_some] at h
      cases kind
      case runPhaseChanged =>
        simp only [handlerOf, onPhaseChanged, phaseFromPayload] at h
        repeat' split at h
        all_goals cases h
        all_goals (intro _ _ hsame; cases hsame)
      case runResumed =>
        simp only [handlerOf, onResumed] at h
        split at h <;> cases h
        intro _ _ hsame
        cases hsame
      case runFailed =>
        simp only [handlerOf, onFailed] at h
        split at h
        · rename_i hcode
          cases h
          exact optionalStr_unsequenced hcode
        · split at h
          · rename_i hmessage
            cases h
            exact optionalStr_unsequenced hmessage
          · cases h
      case usageRecorded =>
        simp only [handlerOf, onUsageRecorded] at h
        cases husage : usageFromPayload event.payload with
        | ok usage => simp [husage, Except.map] at h
        | error e' =>
            rw [husage] at h
            cases h
            exact usageFromPayload_unsequenced husage
      all_goals cases h

lemma validateEventPayload_unsequenced {payload : PyValue} {e : RunRuntimeError}
    (h : validateEventPayload payload = .error e) : e.Unsequenced := by
  unfold validateEventPayload at h
  cases hcopy : canonicalDictCopy payload "payload" with
  | ok d => simp [hcopy, Except.mapError] at h
  | error reason =>
      rw [hcopy] at h
      cases h
      cases reason <;> (intro _ _ hsame; cases hsame)

lemma resolveCreatedAt_unsequenced {given : Option PyDateTime} {fresh : Fresh}
    {e : RunRuntimeError} (h : resolveCreatedAt given fresh = .error e) : e.Unsequenced := by
  unfold resolveCreatedAt at h
  split at h
  · cases h
  · unfold toCanonicalUtc at h
    repeat' split at h
    all_goals cases h
    all_goals (intro _ _ hsame; cases hsame)

lemma buildEvent_unsequenced {runId : String} {seq : ℕ} {args : EventArgs} {fresh : Fresh}
    {e : RunRuntimeError} (h : buildEvent runId seq args fresh = .error e) : e.Unsequenced := by
  unfold buildEvent at h
  repeat' split at h
  all_goals try (cases h; exact unsequenced_eventValidation _)
  · rename_i hpayload
    cases h
    exact validateEventPayload_unsequenced hpayload
  · rename_i hcreated
    cases h
    exact resolveCreatedAt_unsequenced hcreated
  · cases h

lemma ofArgs_unsequenced {args : EventArgs} {e : RunRuntimeError}
    (h : RunEventSpec.ofArgs args = .error e) : e.Unsequenced := by
  unfold RunEventSpec.ofArgs at h
  repeat' split at h
  all_goals try (cases h; exact unsequenced_eventValidation _)
  · rename_i hpayload
    cases h
    exact validateEventPayload_unsequenced hpayload
  · cases h

namespace RunStore

lemma insertEvent_unsequenced (event : RunEvent) :
    Raises RunRuntimeError.Unsequenced (insertEvent event) := by
  intro store e next h
  unfold insertEvent at h
  repeat' split at h
  all_goals cases h
  all_goals (intro _ _ hsame; cases hsame)

lemma updateRun_unsequenced (record : RunRecord) :
    Raises RunRuntimeError.Unsequenced (updateRun record) := by
  intro store e next h
  unfold updateRun at h
  repeat' split at h
  all_goals cases h
  all_goals (intro _ _ hsame; cases hsame)

lemma writeEvent_unsequenced (runId : String) (current : RunRecord) (args : EventArgs)
    (fresh : Fresh) : Raises RunRuntimeError.Unsequenced (writeEvent runId current args fresh) := by
  unfold writeEvent
  apply raises_bind (raises_check fun e h => buildEvent_unsequenced h)
  intro event
  apply raises_bind (raises_check fun e h => projectRun_unsequenced h)
  intro projected
  apply raises_bind (insertEvent_unsequenced event)
  intro _
  apply raises_bind (updateRun_unsequenced _)
  intro _
  exact raises_pure _

lemma writeEvents_unsequenced (runId : String) (specs : List (RunEventSpec × Fresh))
    (current : RunRecord) :
    Raises RunRuntimeError.Unsequenced (writeEvents runId current specs) := by
  induction specs generalizing current with
  | nil => exact raises_pure _
  | cons spec rest ih =>
      unfold writeEvents
      apply raises_bind (writeEvent_unsequenced runId current _ _)
      intro wrote
      apply raises_bind (ih wrote.2)
      intro _
      exact raises_pure _

/-- A conditional append that fails on its precondition met a log of another length. -/
lemma append_stale {store next : RunStore} {runId : String} {α : Type} {seen : ℕ}
    {write : RunRecord → Call α} {expected actual : ℤ} (hstore : store.Consistent runId)
    (hwrite : ∀ current, Raises RunRuntimeError.Unsequenced (write current))
    (h : (atomically do
      let current ← getRun runId
      check (checkSequence (some (seen : ℤ)) current)
      write current : Call α) store = .error (.eventSequence expected actual) next) :
    seen ≠ (store.log runId).length := by
  obtain ⟨-, failed, herror⟩ := atomically_eq_error.mp h
  simp only [bind, EStateM.bind, getRun] at herror
  cases hrow : store.findRun runId with
  | none =>
      rw [hrow] at herror
      cases herror
  | some current =>
      simp only [hrow, check, checkSequence] at herror
      rintro rfl
      rw [if_pos (by rw [(hstore.history current hrow).lastEventSeq])] at herror
      exact hwrite current _ _ _ herror expected actual rfl

lemma appendEvent_stale {store next : RunStore} {runId : String} {args : EventArgs} {seen : ℕ}
    {fresh : Fresh} {expected actual : ℤ} (hstore : store.Consistent runId)
    (h : appendEvent runId args (expectedSeq (some seen)) fresh store =
      .error (.eventSequence expected actual) next) : seen ≠ (store.log runId).length := by
  unfold appendEvent at h
  cases hpayload : validateEventPayload args.payload with
  | error e =>
      simp only [bind, EStateM.bind, check, hpayload] at h
      cases h
      exact absurd rfl (validateEventPayload_unsequenced hpayload expected actual)
  | ok d =>
      have hexpected : checkExpected (expectedSeq (some seen)) = .ok (some (seen : ℤ)) := by
        simp [checkExpected, expectedSeq]
      rw [hpayload, hexpected] at h
      exact append_stale hstore (fun current => writeEvent_unsequenced runId current args fresh) h

lemma appendEvents_stale {store next : RunStore} {runId : String}
    {specs : List (RunEventSpec × Fresh)} {seen : ℕ} {expected actual : ℤ}
    (hstore : store.Consistent runId)
    (h : appendEvents runId specs (expectedSeq (some seen)) store =
      .error (.eventSequence expected actual) next) : seen ≠ (store.log runId).length := by
  unfold appendEvents at h
  cases hspecs : requireNonempty specs with
  | error e =>
      simp only [bind, EStateM.bind, check, hspecs] at h
      cases h
      unfold requireNonempty at hspecs
      split at hspecs <;> cases hspecs
  | ok _ =>
      have hexpected : checkExpected (expectedSeq (some seen)) = .ok (some (seen : ℤ)) := by
        simp [checkExpected, expectedSeq]
      rw [hspecs, hexpected] at h
      exact append_stale hstore (fun current => writeEvents_unsequenced runId specs current) h

end RunStore

end Exceptions

namespace Recovery

section Runs

variable {scan store : RunStore} {runId : String}

/-- The reading of a history: it is the start of the log, and has all that was there when it
began. -/
lemma readHistory_safe {pages : ℕ} {read : List RunEvent} (hsound : store.Sound)
    (hread : read <+: store.log runId) :
    (readHistory runId pages read.length read).Safe RunStore.Grows (fun _ a b => b = a)
      (fun r t => (∀ history, r = .ok history →
        history <+: t.log runId ∧ (store.log runId).length ≤ history.length) ∧
        ∀ e, r = .error e → e.Unsequenced) store := by
  induction pages generalizing store read with
  | zero =>
      intro t ht
      refine ⟨fun _ h => absurd h error_ne_ok, fun e h => ?_⟩
      cases h
      intro _ _ hsame
      cases hsame
  | succ pages ih =>
      unfold readHistory
      apply Prog.Safe.call_bind
      · exact fun t _ => RunStore.events_after _ _ _ _
      · intro t page ht hpage
        rw [RunStore.events_after]
        have hgrown := hread.trans (ht.log runId)
        have hsound' := hsound.grow ht
        have hrun : (t.findRun runId).isSome := by
          cases hfind : t.findRun runId with
          | some row => rfl
          | none =>
              unfold result RunStore.events at hpage
              rw [if_neg (by decide), if_pos (by simp [hfind])] at hpage
              cases hpage
        rw [RunStore.events_page hrun (hsound' runId) (by decide)] at hpage
        have hsize : (min 200 maxEventPageLimit).toNat = 200 := rfl
        simp only [hsize, Except.ok.injEq] at hpage
        subst hpage
        obtain ⟨hlonger, hlength, -⟩ := stretch_read hgrown (show 0 < 200 by omega)
        rw [cursor_append (hsound' runId).numbered hlonger]
        generalize read ++ ((t.log runId).drop read.length).take 200 = longer at *
        have hold := (ht.log runId).length_le
        by_cases hmore : 200 < (t.log runId).length - read.length
        · simp only [hmore, decide_true, Bool.not_true, Bool.false_eq_true, if_false]
          refine (ih hsound' hlonger).weaken fun r u hu => ⟨fun history h => ?_, hu.2⟩
          obtain ⟨hfront, hall⟩ := hu.1 history h
          exact ⟨hfront, by omega⟩
        · simp only [hmore, decide_false, Bool.not_false, if_true]
          intro u hu
          refine ⟨fun history h => ?_, fun _ h => absurd h ok_ne_error⟩
          cases h
          refine ⟨hlonger.trans (hu.log runId), ?_⟩
          omega
      · intro t e u ht herror hu
        refine ⟨fun _ h => absurd h error_ne_ok, fun e' h => ?_⟩
        cases h
        unfold result RunStore.events at herror
        by_cases hmissing : (t.findRun runId).isNone = true
        · rw [if_neg (by decide), if_pos hmissing] at herror
          cases herror
          intro _ _ hsame
          cases hsame
        · rw [if_neg (by decide), if_neg hmissing] at herror
          cases herror

/-- The run was closed on the log of the scan, in one write: an end for everything open in
it, then its own. -/
structure Interrupted (scan final : RunStore) (runId : String) : Prop where
  closed : ∃ batch, scan.log runId ++ batch <+: final.log runId ∧
    List.Forall₂ WrittenAs (openSpecs (scan.log runId) ++ [runInterrupted]) batch ∧
    Settled (scan.log runId ++ batch) ∧ statusOf (scan.log runId ++ batch) = .interrupted

/-- Others have written to the run since the scan. -/
def Moved (scan final : RunStore) (runId : String) : Prop :=
  (scan.log runId).length < (final.log runId).length

lemma Interrupted.grow {final later : RunStore} (h : Interrupted scan final runId)
    (hgrows : RunStore.Grows final later) : Interrupted scan later runId := by
  obtain ⟨batch, hlog, hrest⟩ := h.closed
  exact ⟨batch, hlog.trans (hgrows.log runId), hrest⟩

lemma Moved.grow {final later : RunStore} (h : Moved scan final runId)
    (hgrows : RunStore.Grows final later) : Moved scan later runId :=
  Nat.lt_of_lt_of_le h (hgrows.log runId).length_le

/-- A log without anything open is closed by the run's own event. -/
lemma interrupted_of_batch {next : RunStore} (batch : List RunEvent) (hnext : next.Sound)
    (hlog : next.log runId = scan.log runId ++ batch)
    (hbatch : List.Forall₂ WrittenAs (openSpecs (scan.log runId) ++ [runInterrupted]) batch) :
    Interrupted scan next runId := by
  have hnumbered := (hnext runId).numbered
  rw [hlog] at hnumbered
  refine ⟨batch, by rw [hlog], hbatch, settled_of_batch hnumbered hbatch, ?_⟩
  rw [statusOf_append_types (written_types hbatch), List.map_append, statusAfterTypes_append]
  rfl

/-- How a conditional append ended: its events stand right after a log of the expected length,
or it met a log of another length. -/
structure Conditional (runId : String) (expected : ℕ) (specs : List EventArgs) (store : RunStore)
    {α : Type} (r : Except RunRuntimeError α) (final : RunStore) : Prop where
  wrote : ∀ a, r = .ok a → ∃ met next batch, RunStore.Grows store met ∧
    expected = (met.log runId).length ∧ next.log runId = met.log runId ++ batch ∧
    List.Forall₂ WrittenAs specs batch ∧ next.Sound ∧ RunStore.Grows next final
  stale : ∀ wanted actual, r = .error (.eventSequence wanted actual) →
    ∃ met, RunStore.Grows store met ∧ expected ≠ (met.log runId).length ∧
      RunStore.Grows met final

lemma record_conditional {args : EventArgs} {expected : ℕ} {fresh : Fresh} (hsound : store.Sound) :
    (record runId args (some expected) fresh).Safe RunStore.Grows (fun _ => RunStore.Grows)
      (Conditional runId expected [args] store) store := by
  have hgrown := fun t => RunStore.grows_after
    (.appendEvent runId args (expectedSeq (some expected)) fresh) t
  simp only [RunStore.StoreCall.run, after_map] at hgrown
  apply Prog.Safe.call (fun t _ => hgrown t)
  intro t u ht hu
  constructor
  · intro wrote hwrote
    obtain ⟨event, updated⟩ := wrote
    have hok := result_eq_ok.mp hwrote
    obtain ⟨hlength, -, -⟩ := RunStore.appendEvent_extends (hsound.grow ht _) hok
    obtain ⟨current, required, hcurrent, -, -, hwrite⟩ := RunStore.appendEvent_ok hok
    have happended := RunStore.writeEvent_ok hcurrent hwrite
    exact ⟨t, _, [event], ht, hlength _ rfl, happended.appended.log,
      .cons (writtenAs_of_build _ _ _ _ happended.built) .nil,
      (hsound.grow ht).grow (hgrown t), hu⟩
  · intro wanted actual hstale
    have hfailed := result_eq_error.mp hstale
    rw [RunStore.appendEvent_failsClean _ _ _ _ _ _ _ hfailed] at hu
    exact ⟨t, ht, RunStore.appendEvent_stale (hsound.grow ht _) hfailed, hu⟩

lemma commitSpecs_conditional {specs : List EventArgs} {expected : ℕ} {fresh : ℕ → Fresh}
    (hsound : store.Sound) :
    (commitSpecs runId specs expected fresh).Safe RunStore.Grows (fun _ => RunStore.Grows)
      (Conditional runId expected specs store) store := by
  apply Prog.Safe.check_bind
  · intro built hbuilt
    have hargs := batch_args hbuilt fresh
    generalize List.map _ built.zipIdx = batch at hargs ⊢
    have hgrown := fun t => RunStore.grows_after
      (.appendEvents runId batch (expectedSeq (some expected))) t
    simp only [RunStore.StoreCall.run, after_map] at hgrown
    apply Prog.Safe.call_bind (fun t _ => hgrown t)
    · intro t wrote ht hwrote u hu
      obtain ⟨events, updated⟩ := wrote
      have hok := result_eq_ok.mp hwrote
      obtain ⟨hlength, -, hlog, -⟩ := RunStore.appendEvents_extends (hsound.grow ht _) hok
      obtain ⟨current, required, -, hcurrent, -, -, hwrite⟩ := RunStore.appendEvents_ok hok
      have hwritten := RunStore.writeEvents_each (fun _ _ _ _ => writtenAs_of_build _ _ _ _)
        hcurrent hwrite
      rw [hargs] at hwritten
      refine ⟨fun _ _ => ?_, fun _ _ h => absurd h ok_ne_error⟩
      exact ⟨t, _, events, ht, hlength _ rfl, hlog, hwritten, (hsound.grow ht).grow (hgrown t), hu⟩
    · intro t e u ht herror hu
      refine ⟨fun _ h => absurd h error_ne_ok, fun wanted actual h => ?_⟩
      cases h
      have hfailed := result_eq_error.mp herror
      rw [RunStore.appendEvents_failsClean _ _ _ _ _ _ hfailed] at hu
      exact ⟨t, ht, RunStore.appendEvents_stale (hsound.grow ht _) hfailed, hu⟩
  · intro e t hfailed ht
    refine ⟨fun _ h => absurd h error_ne_ok, fun wanted actual h => ?_⟩
    cases h
    obtain ⟨spec, -, hspec⟩ := mapM_raises hfailed
    exact absurd rfl (ofArgs_unsequenced hspec wanted actual)

/-- What one write of a recovery leaves: by its result, the run closed or moved on. -/
structure WriteLeaves (scan : RunStore) (runId : String) {α : Type}
    (r : Except RunRuntimeError α) (final : RunStore) : Prop where
  closed : ∀ a, r = .ok a → Interrupted scan final runId
  moved : ∀ wanted actual, r = .error (.eventSequence wanted actual) → Moved scan final runId

/-- A run that still has the length of the scan has the log of the scan, and it was read. -/
lemma log_of_scan {history : List RunEvent} (hscan : RunStore.Grows scan store)
    (hread : history <+: store.log runId)
    (hlong : (scan.log runId).length ≤ history.length)
    (hlength : (scan.log runId).length = (store.log runId).length) :
    store.log runId = scan.log runId ∧ history = scan.log runId := by
  have hsame := snapshot_eq_of_length (hscan.log runId) (by omega)
  refine ⟨hsame.symm, ?_⟩
  rw [hsame]
  exact snapshot_eq_of_length hread (by omega)

lemma Conditional.leaves {history : List RunEvent} {expected : ℕ} {α : Type}
    {r : Except RunRuntimeError α} {final : RunStore} (hscan : RunStore.Grows scan store)
    (hseq : expected = (scan.log runId).length) (hread : history <+: store.log runId)
    (hlong : (scan.log runId).length ≤ history.length)
    (h : Conditional runId expected (openSpecs history ++ [runInterrupted]) store r final) :
    WriteLeaves scan runId r final := by
  constructor
  · intro a ha
    obtain ⟨met, next, batch, hmet, hlength, hlog, hwritten, hsound, hfinal⟩ := h.wrote a ha
    obtain ⟨hsame, hhistory⟩ :=
      log_of_scan (hscan.trans hmet) (hread.trans (hmet.log _)) hlong (hseq.symm.trans hlength)
    rw [hhistory] at hwritten
    exact (interrupted_of_batch batch hsound (by rw [hlog, hsame]) hwritten).grow hfinal
  · intro wanted actual hstale
    obtain ⟨met, hmet, hne, hfinal⟩ := h.stale wanted actual hstale
    have hle := ((hscan.trans hmet).log runId).length_le
    have hmoved : Moved scan met runId := by
      unfold Moved
      omega
    exact hmoved.grow hfinal

/-- What a write returns plays no part in what it leaves. -/
lemma resultless_safe {α : Type} {p : RunProg α}
    (h : p.Safe RunStore.Grows (fun _ => RunStore.Grows) (WriteLeaves scan runId) store) :
    (p >>= fun _ => pure ()).Safe RunStore.Grows (fun _ => RunStore.Grows)
      (WriteLeaves scan runId (α := Unit)) store := by
  refine h.bind RunStore.Grows.refl ?_ ?_
  · exact fun a t hleft u hu => ⟨fun _ _ => (hleft.closed a rfl).grow hu,
      fun _ _ h => absurd h ok_ne_error⟩
  · exact fun e t hleft => ⟨fun _ h => absurd h error_ne_ok, fun wanted actual hstale =>
      hleft.moved wanted actual (by rw [Except.error.inj hstale])⟩

/-- The one write of a candidate, after a reading that has the log of the scan at least. -/
lemma interrupt_safe {candidate : RunRecord} {history : List RunEvent} {fresh : ℕ → Fresh}
    (hsound : store.Sound) (hscan : RunStore.Grows scan store)
    (hseq : candidate.lastEventSeq = (scan.log candidate.runId).length)
    (hread : history <+: store.log candidate.runId)
    (hlong : (scan.log candidate.runId).length ≤ history.length) :
    (interrupt candidate history fresh).Safe RunStore.Grows (fun _ => RunStore.Grows)
      (WriteLeaves scan candidate.runId) store := by
  unfold interrupt
  by_cases hopen : (openSpecs history).isEmpty = true
  · rw [if_pos hopen]
    apply resultless_safe
    refine (record_conditional hsound).weaken fun r t h => ?_
    refine Conditional.leaves hscan hseq hread hlong ?_
    rwa [List.isEmpty_iff.mp hopen]
  · rw [if_neg hopen]
    apply resultless_safe
    exact (commitSpecs_conditional hsound).weaken fun r t h => h.leaves hscan hseq hread hlong

/-- A program among writers that only append ends in a store that has grown. -/
lemma grown {α : Type} {p : RunProg α} {post : Except RunRuntimeError α → RunStore → Prop}
    (h : p.Safe RunStore.Grows (fun _ => RunStore.Grows) post store) :
    p.Safe RunStore.Grows (fun _ => RunStore.Grows)
      (fun r t => post r t ∧ RunStore.Grows store t) store := by
  apply Prog.Safe.reached
  · exact fun _ _ _ hab hbc => RunStore.Grows.trans hab hbc
  · exact fun _ _ _ hgrows => hgrows
  · exact h

/-- What a recovery does with one candidate of the scan. -/
lemma recoverRun_safe {candidate : RunRecord} {pages : ℕ} {fresh : ℕ → Fresh}
    (hsound : store.Sound) (hscan : RunStore.Grows scan store)
    (hseq : candidate.lastEventSeq = (scan.log candidate.runId).length) :
    (recoverRun candidate pages fresh).Safe RunStore.Grows (fun _ => RunStore.Grows)
      (fun r t => (r = .ok true → Interrupted scan t candidate.runId) ∧
        (r = .ok false → Moved scan t candidate.runId)) store := by
  unfold recoverRun
  refine Prog.Safe.attempt_bind RunStore.Grows.refl (Q := WriteLeaves scan candidate.runId) ?_ ?_
  · have hread := (readHistory_safe hsound List.nil_prefix : (readHistory candidate.runId pages
      (List.length ([] : List RunEvent)) []).Safe _ _ _ _)
    have hkept : ∀ (_ : StoreAccess) (a b : RunStore), b = a → RunStore.Grows a b := by
      rintro - a _ rfl
      exact RunStore.Grows.refl _
    refine (grown (hread.widen hkept)).bind RunStore.Grows.refl ?_ ?_
    · rintro history t ⟨⟨hhistory, -⟩, ht⟩
      obtain ⟨hfront, hlong⟩ := hhistory history rfl
      have hold := (hscan.log candidate.runId).length_le
      exact interrupt_safe (hsound.grow ht) (hscan.trans ht) hseq hfront (by omega)
    · rintro e t ⟨⟨-, hplain⟩, -⟩
      refine ⟨fun _ h => absurd h error_ne_ok, fun wanted actual hstale => ?_⟩
      exact absurd (Except.error.inj hstale) (hplain e rfl wanted actual)
  · intro attempted t hleft
    cases attempted with
    | ok u => exact fun v hv => ⟨fun _ => (hleft.closed u rfl).grow hv, by simp⟩
    | error e =>
        cases e with
        | eventSequence wanted actual =>
            have hmoved := hleft.moved wanted actual rfl
            apply Prog.Safe.call_bind
            · intro u _
              rw [RunStore.getRun_after]
              exact RunStore.Grows.refl u
            · intro u run hu _
              rw [RunStore.getRun_after]
              exact fun v hv => ⟨by simp, fun _ => hmoved.grow (hu.trans hv)⟩
            · exact fun u _ v _ _ _ => ⟨by simp, by simp⟩
        | _ => exact fun v _ => ⟨by simp, by simp⟩

/-- The report accounts for runs: each is closed as the scan saw it, or has moved on since. -/
structure Accounted (scan final : RunStore) (runIds : List String) (report : RecoveryReport) :
    Prop where
  all : (report.interruptedRunIds ++ report.skippedChangedRunIds).Perm runIds
  interrupted : ∀ runId ∈ report.interruptedRunIds, Interrupted scan final runId
  skipped : ∀ runId ∈ report.skippedChangedRunIds, Moved scan final runId

lemma Accounted.grow {final later : RunStore} {runIds : List String} {report : RecoveryReport}
    (h : Accounted scan final runIds report) (hgrows : RunStore.Grows final later) :
    Accounted scan later runIds report :=
  ⟨h.all, fun runId hrun => (h.interrupted runId hrun).grow hgrows,
    fun runId hrun => (h.skipped runId hrun).grow hgrows⟩

/-- One more run, closed. -/
lemma Accounted.interrupt {final : RunStore} {runIds : List String} {report : RecoveryReport}
    (h : Accounted scan final runIds report) (hrun : Interrupted scan final runId) :
    Accounted scan final (runIds ++ [runId])
      { report with interruptedRunIds := report.interruptedRunIds ++ [runId] } where
  all := by
    have hmove : (report.interruptedRunIds ++ [runId] ++ report.skippedChangedRunIds).Perm
        (report.interruptedRunIds ++ report.skippedChangedRunIds ++ [runId]) := by
      rw [List.append_assoc, List.append_assoc]
      exact List.perm_append_comm.append_left _
    exact hmove.trans (h.all.append_right _)
  interrupted other hother := by
    rcases List.mem_append.mp hother with hold | hnew
    · exact h.interrupted other hold
    · exact List.mem_singleton.mp hnew ▸ hrun
  skipped := h.skipped

/-- One more run, skipped. -/
lemma Accounted.skip {final : RunStore} {runIds : List String} {report : RecoveryReport}
    (h : Accounted scan final runIds report) (hrun : Moved scan final runId) :
    Accounted scan final (runIds ++ [runId])
      { report with skippedChangedRunIds := report.skippedChangedRunIds ++ [runId] } where
  all := by
    rw [← List.append_assoc]
    exact h.all.append_right _
  interrupted := h.interrupted
  skipped other hother := by
    rcases List.mem_append.mp hother with hold | hnew
    · exact h.skipped other hold
    · exact List.mem_singleton.mp hnew ▸ hrun

/-- By induction on the candidates that are left: those before are accounted for. -/
lemma recoverRuns_safe {pages : ℕ} {fresh : ℕ → ℕ → Fresh} {candidates : List (RunRecord × ℕ)}
    {runIds : List String} {report : RecoveryReport} (hsound : store.Sound)
    (hscan : RunStore.Grows scan store)
    (hseq : ∀ candidate ∈ candidates,
      candidate.1.lastEventSeq = (scan.log candidate.1.runId).length)
    (hdone : Accounted scan store runIds report) :
    (recoverRuns pages fresh candidates report).Safe RunStore.Grows (fun _ => RunStore.Grows)
      (fun r t => ∀ final, r = .ok final →
        Accounted scan t (runIds ++ candidates.map (·.1.runId)) final) store := by
  induction candidates generalizing store runIds report with
  | nil =>
      intro t ht final hfinal
      cases hfinal
      rw [List.map_nil, List.append_nil]
      exact hdone.grow ht
  | cons candidate rest ih =>
      obtain ⟨candidate, i⟩ := candidate
      unfold recoverRuns
      refine (grown (recoverRun_safe hsound hscan (hseq (candidate, i) List.mem_cons_self))).bind
        RunStore.Grows.refl ?_ (fun _ _ _ _ h => absurd h error_ne_ok)
      rintro interrupted t ⟨⟨hclosed, hmoved⟩, ht⟩
      have hrest := fun other hother => hseq other (List.mem_cons_of_mem _ hother)
      rw [List.map_cons, ← List.singleton_append, ← List.append_assoc]
      cases interrupted with
      | true =>
          rw [if_pos rfl]
          exact ih (hsound.grow ht) (hscan.trans ht) hrest
            ((hdone.grow ht).interrupt (hclosed rfl))
      | false =>
          rw [if_neg Bool.false_ne_true]
          exact ih (hsound.grow ht) (hscan.trans ht) hrest ((hdone.grow ht).skip (hmoved rfl))

/-- The runs a scan takes up. -/
def runningIds (store : RunStore) : List String :=
  (store.runs.filter (·.status = .running)).map (·.runId)

/-- What a recovery that returns has done, seen from the moment of its scan. -/
def Recovered (store : RunStore) (r : Except RunRuntimeError RecoveryReport) (final : RunStore) :
    Prop :=
  ∀ report, r = .ok report → ∃ scan, RunStore.Grows store scan ∧ RunStore.Grows scan final ∧
    Accounted scan final (runningIds scan) report

theorem recoverRunningRuns_safe (pages : ℕ) (fresh : ℕ → ℕ → Fresh) (hsound : store.Sound) :
    (recoverRunningRuns pages fresh).Safe RunStore.Grows (fun _ => RunStore.Grows)
      (Recovered store) store := by
  unfold recoverRunningRuns
  apply Prog.Safe.call_bind
  · intro t _
    rw [RunStore.activeRuns_after]
    exact RunStore.Grows.refl t
  · intro scan active hscan hactive
    rw [RunStore.activeRuns_after]
    obtain rfl := Except.ok.inj hactive
    have hsound' := hsound.grow hscan
    generalize hcandidates : List.filter (fun run : RunRecord => decide (run.status = .running))
      _ = candidates
    have hperm : candidates.Perm (scan.runs.filter (·.status = .running)) := by
      rw [← hcandidates]
      refine ((List.mergeSort_perm _ _).filter _).trans ?_
      rw [List.filter_filter]
      refine List.Perm.of_eq (List.filter_congr fun run _ => ?_)
      cases run.status <;> rfl
    have hzip : (candidates.zipIdx.map (·.1.runId)) = candidates.map (·.runId) := by
      conv_rhs => rw [← List.zipIdx_map_fst 0 candidates, List.map_map]
      rfl
    have hnone : Accounted scan scan [] ⟨[], []⟩ := ⟨List.Perm.refl _, by simp, by simp⟩
    refine (grown (recoverRuns_safe hsound' (RunStore.Grows.refl scan) ?_ hnone)).weaken ?_
    · intro candidate hcandidate
      have hmem : candidate.1 ∈ candidates :=
        (List.mem_zipIdx' hcandidate).2 ▸ List.getElem_mem _
      have hrow := RunStore.findRun_of_mem
        (List.mem_filter.mp (hperm.mem_iff.mp hmem)).1
      exact ((hsound' _).history _ hrow).lastEventSeq
    · rintro r t ⟨haccounted, ht⟩ report hreport
      obtain ⟨hall, hclosed, hmoved⟩ := haccounted report hreport
      rw [List.nil_append, hzip] at hall
      exact ⟨scan, hscan, ht, hall.trans (hperm.map _), hclosed, hmoved⟩
  · exact fun _ _ _ _ _ _ _ h => absurd h error_ne_ok

section Pools

variable {ι : Type}

/-- A run of a store with its recoveries, among any other calls. -/
abbrev recoveryPlay (client : ι → ℕ × (ℕ → ℕ → Fresh))
    (pool : Pool ι StoreAccess RunStore RunRuntimeError RecoveryReport)
    (choices : List (Choice ι RunStore.StoreCall)) :
    Pool ι StoreAccess RunStore RunRuntimeError RecoveryReport :=
  (Pool.play (fun call store => after call.run store)
    (fun name => recoverRunningRuns (client name).1 (client name).2) pool choices).2

theorem recoveryPool (client : ι → ℕ × (ℕ → ℕ → Fresh)) :
    SafePool (fun call store => after (RunStore.StoreCall.run call) store)
      (fun name => recoverRunningRuns (client name).1 (client name).2) RunStore.Grows
      (fun _ (_ : StoreAccess) => RunStore.Grows) RunStore.Sound (fun _ _ => True) where
  refl := .refl
  trans _ _ _ := .trans
  keeps _ _ hsound hgrows := hsound.grow hgrows
  env_rely call store _ := RunStore.grows_after call store
  guar_rely _ _ _ _ h := h
  safe _ _ hsound := (recoverRunningRuns_safe _ _ hsound).weaken fun _ _ _ => trivial

/-- However recoveries and other writers are interleaved: a recovery that returns accounts for
every run its scan saw running. A run it reports interrupted was closed on exactly the log of
the scan, and nothing in that log is left open; a run it skips was written to by others. -/
theorem recovery_settles (client : ι → ℕ × (ℕ → ℕ → Fresh))
    (earlier later : List (Choice ι RunStore.StoreCall)) (name : ι) :
    let before := recoveryPlay client ⟨.initial, []⟩ earlier
    let final := recoveryPlay client before (.spawn name :: later)
    ∃ rest, final.threads[before.threads.length]? = some (name, rest) ∧
      ∀ result, rest = .done result → Recovered before.shared result final.shared := by
  intro before final
  have hpool := recoveryPool client
  have hstart : PoolInvariant RunStore.Grows (fun _ (_ : StoreAccess) => RunStore.Grows)
      RunStore.Sound (fun _ _ => True)
      (⟨.initial, []⟩ : Pool ι StoreAccess RunStore RunRuntimeError RecoveryReport) :=
    PoolInvariant.start RunStore.initial_consistent
  obtain ⟨-, hbefore⟩ := Pool.play_safe hpool hstart earlier
  obtain ⟨-, hspawned⟩ := Pool.step_safe hpool hbefore (.spawn name)
  have hat : (before.threads ++ [(name, recoverRunningRuns (client name).1 (client name).2)])[
      before.threads.length]? = some (name, recoverRunningRuns (client name).1 (client name).2) :=
    List.getElem?_concat_length
  obtain ⟨rest, hrest, hsafe⟩ := Pool.play_at hpool hspawned later hat
    (recoverRunningRuns_safe _ _ hbefore.inv)
  refine ⟨rest, hrest, fun result heq => ?_⟩
  rw [heq] at hsafe
  exact hsafe _ (.refl _)

end Pools

end Runs

end Recovery

end Imece.RunRuntime
