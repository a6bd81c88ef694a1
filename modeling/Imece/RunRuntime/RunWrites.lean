import Imece.RunRuntime.GateRuns
import Imece.RunRuntime.Legacy
import Imece.RunRuntime.Recovery
import Imece.RunRuntime.Writes

/-!
# The writes of the run-level writers

The pipeline recorder, the completion gate, the legacy coordinator and startup
recovery. Two of their entries write without looking at the status: the legacy
event handler, and the pipeline recorder's `needs_user` when its caller supplies
the number.
-/
namespace Imece.RunRuntime

open Lib

variable {store : RunStore} {runId : String}

section Steps

variable {allowed : RunStatus → List String → Prop}

/-- A writer that reads the row and then runs on with what it read. -/
lemma read_then {α : Type} {post : Except RunRuntimeError α → RunStore → Prop}
    {rest : RunRecord → RunProg α} (hsound : store.Sound)
    (hrest : ∀ run t, SeenAt runId run.lastEventSeq run.status t →
      Guarded (rest run) t post)
    (herror : ∀ e t, post (.error e) t) : Guarded (getRun runId >>= rest) store post := by
  refine (getRun_safe hsound).bind RunStore.Grows.refl ?_ (fun e t _ => herror e t)
  exact fun run t ht => hrest run t (ht.2 run rfl)

/-- A compare-and-swap of one event at a number whose status is known. -/
lemma swap_one {args : EventArgs} {seq : ℕ} {status : RunStatus} {fresh : Fresh}
    (hseen : SeenAt runId seq status store) (hallowed : Allowed status [args.type]) :
    Guarded (record runId args (some seq) fresh) store
      (fun r t => t.Sound ∧ ∀ event row, r = .ok (event, row) →
        SeenAt runId row.lastEventSeq (statusAfterTypes status [args.type]) t) := by
  refine (record_safe hseen.sound fun t ht hseq => ?_).weaken fun r t h => ⟨h.1, ?_⟩
  · rw [(hseen.grow ht).exact (hseq _ rfl)]
    exact hallowed
  · exact fun event row hok => (h.2 event row hok).seenAt hseen

lemma forget {α : Type} {p : RunProg α} {post : Except RunRuntimeError α → RunStore → Prop}
    (h : p.Safe RunStore.Grows (Appends allowed) post store) :
    p.Safe RunStore.Grows (Appends allowed) (fun _ _ => True) store :=
  h.weaken fun _ _ _ => trivial

/-- The result of an append is dropped. -/
lemma swap_one_unit {args : EventArgs} {seq : ℕ} {status : RunStatus} {fresh : Fresh}
    (hseen : SeenAt runId seq status store) (hallowed : Allowed status [args.type]) :
    Guarded (do let _ ← record runId args (some seq) fresh; return ()) store
      (fun _ _ => True) :=
  (swap_one hseen hallowed).bind RunStore.Grows.refl (fun _ _ _ _ _ => trivial)
    (fun _ _ _ => trivial)

end Steps

namespace CanonicalPipelineRecorder

variable {allowed : RunStatus → List String → Prop}

lemma writeNeedsUser_safe {payload : PyValue} {source : String} {expected : ℕ}
    {fresh : Fresh × Fresh} (hsound : store.Sound)
    (hallowed : ∀ t, RunStore.Grows store t → expected = (t.log runId).length →
      allowed (statusOf (t.log runId)) proposalBatch) :
    (writeNeedsUser runId payload source expected fresh).Safe RunStore.Grows (Appends allowed)
      (fun _ _ => True) store := by
  refine Prog.Safe.check_bind (fun ready hready => ?_) (fun _ _ _ _ => trivial)
  refine Prog.Safe.check_bind (fun waiting hwaiting => ?_) (fun _ _ _ _ => trivial)
  refine Prog.Safe.call_bind (fun t ht => ?_) (fun _ _ _ _ _ _ => trivial)
    (fun _ _ _ _ _ _ => trivial)
  have hreadyType : ready.type = RunEventType.proposalReady.value :=
    congrArg EventArgs.type (RunEventSpec.ofArgs_args hready)
  have hwaitingType : waiting.type = RunEventType.runWaitingUser.value :=
    congrArg EventArgs.type (RunEventSpec.ofArgs_args hwaiting)
  have hcases := RunStore.appendEvents_cases (hsound.grow ht runId)
    [(ready, fresh.1), (waiting, fresh.2)] (some expected)
  simp only [List.map_cons, List.map_nil, hreadyType, hwaitingType] at hcases ⊢
  rcases hcases with hsame | ⟨hseq, hextends⟩
  · exact Or.inl hsame
  · exact Or.inr ⟨runId, _, rfl, hextends, hallowed t ht (hseq _ rfl)⟩

/-- `needs_user` at a number whose status is known not to be over. -/
lemma writeNeedsUser_guarded {payload : PyValue} {source : String} {seq : ℕ}
    {fresh : Fresh × Fresh} {status : RunStatus} (hseen : SeenAt runId seq status store)
    (hopen : status.isTerminal = false) :
    Guarded (writeNeedsUser runId payload source seq fresh) store (fun _ _ => True) :=
  writeNeedsUser_safe hseen.sound fun t ht hseq => by
    rw [(hseen.grow ht).exact hseq]
    exact .proposal hopen

theorem needsUser_guarded {payload : PyValue} {source : String} {fresh : Fresh × Fresh}
    (hsound : store.Sound) :
    Guarded (needsUser runId payload none source fresh) store (fun _ _ => True) := by
  refine read_then hsound (fun run t hseen => ?_) (fun _ _ => trivial)
  split
  · exact fun _ _ => trivial
  · rename_i hrunning
    rw [ne_eq, not_not] at hrunning
    exact writeNeedsUser_guarded (hrunning ▸ hseen) rfl

theorem resumed_guarded {reason : String} {fresh : Fresh} (hsound : store.Sound) :
    Guarded (resumed runId reason fresh) store (fun _ _ => True) := by
  refine read_then hsound (fun run t hseen => ?_) (fun _ _ => trivial)
  split
  · exact fun _ _ => trivial
  · rename_i hwaiting
    rw [ne_eq, not_not] at hwaiting
    exact swap_one_unit (hwaiting ▸ hseen) (.single .runResumed rfl (by decide) (by decide))

theorem recordIfRunning_guarded {type : RunEventType} {payload : PyValue} {fresh : Fresh}
    (hsound : store.Sound) (hwaits : type ≠ .runWaitingUser)
    (hdecides : type ≠ .proposalApplied ∧ type ≠ .proposalRejected) :
    Guarded (recordIfRunning runId type payload fresh) store (fun _ _ => True) := by
  refine read_then hsound (fun run t hseen => ?_) (fun _ _ => trivial)
  split
  · exact fun _ _ => trivial
  · rename_i hrunning
    rw [ne_eq, not_not] at hrunning
    exact swap_one_unit (hrunning ▸ hseen) (.single type rfl hwaits hdecides)

end CanonicalPipelineRecorder

namespace RunCompletionGate

/-- Every gate call reads a `RUNNING` row and its history before it writes. -/
lemma evidence_guarded (hsound : store.Sound) :
    Guarded (evidence runId) store
      (fun r t => ∀ found, r = .ok found → SeenAt runId found.decisionSeq .running t) := by
  have hevidence : Guarded (evidence runId) store
      (fun r t => ∀ found, r = .ok found → Snapshot runId found t) :=
    evidence_safe (fun access t => .refl _ access t) (fun _ _ _ h => h.grows) (hsound runId)
  refine hevidence.reached.weaken ?_
  rintro r t ⟨hsnapshot, hgrown⟩ found hfound
  have hfound := hsnapshot found hfound
  exact ⟨hsound.grow hgrown, found.events, hfound.seen, hfound.seq.symm, hfound.running⟩

lemma settle_guarded {settlement : Settlement} {seq : ℕ} {payload : PyValue}
    {fresh : Fresh × Fresh} (hseen : SeenAt runId seq .running store) :
    Guarded (settle settlement runId seq payload fresh) store (fun _ _ => True) := by
  cases settlement with
  | complete =>
      exact swap_one_unit hseen (.single .runCompleted rfl (by decide) (by decide))
  | awaitUser => exact CanonicalPipelineRecorder.writeNeedsUser_guarded hseen rfl

theorem settleCall_guarded (call : SettleCall) (hsound : store.Sound) :
    Guarded call.program store (fun _ _ => True) := by
  cases call with
  | verified settlement runId verificationId fresh =>
      refine (evidence_guarded hsound).bind RunStore.Grows.refl ?_ (fun _ _ _ => trivial)
      intro found t hfound
      refine Prog.Safe.check_bind (fun payload _ => ?_) (fun _ _ _ _ => trivial)
      exact settle_guarded (hfound found rfl)
  | reviewed settlement runId verificationId reviewId currentDiffSha256 fresh =>
      refine (evidence_guarded hsound).bind RunStore.Grows.refl ?_ (fun _ _ _ => trivial)
      intro found t hfound
      refine Prog.Safe.check_bind (fun payload _ => ?_) (fun _ _ _ _ => trivial)
      exact settle_guarded (hfound found rfl)

lemma failWith_guarded {decide : List RunEvent → Except RunRuntimeError PyValue}
    {fresh : Fresh} (hsound : store.Sound) :
    Guarded (failWith runId decide fresh) store (fun _ _ => True) := by
  refine (evidence_guarded hsound).bind RunStore.Grows.refl ?_ (fun _ _ _ => trivial)
  intro found t hfound
  refine Prog.Safe.check_bind (fun payload _ => ?_) (fun _ _ _ _ => trivial)
  exact swap_one_unit (hfound found rfl) (.single .runFailed rfl (by decide) (by decide))

theorem failExecution_guarded {executionId : String} {fresh : Fresh} (hsound : store.Sound) :
    Guarded (failExecution runId executionId fresh) store (fun _ _ => True) :=
  failWith_guarded hsound

theorem failVerification_guarded {verificationId : String} {fresh : Fresh}
    (hsound : store.Sound) :
    Guarded (failVerification runId verificationId fresh) store (fun _ _ => True) :=
  failWith_guarded hsound

theorem failFixLoop_guarded {fixLoopId : String} {fresh : Fresh} (hsound : store.Sound) :
    Guarded (failFixLoop runId fixLoopId fresh) store (fun _ _ => True) :=
  failWith_guarded hsound

end RunCompletionGate

namespace LegacyRunCoordinator

/-- What the legacy event handler may append: also the one event that parks a run,
at any status. -/
def LegacyAllowed (status : RunStatus) (types : List String) : Prop :=
  Allowed status types ∨ types = [RunEventType.runWaitingUser.value]

/-- The types a translation is made of. -/
def IsLegacyType (type : String) : Prop :=
  Neutral [type] ∨ type = RunEventType.runWaitingUser.value

lemma IsLegacyType.ofNeutral (type : RunEventType)
    (h : ∀ status, statusAfter status (some type) = status) : IsLegacyType type.value := by
  refine Or.inl ?_
  intro other hother status
  rw [List.mem_singleton.mp hother, RunEventType.ofString?_value]
  exact h status

lemma unknown_type (adapter : LegacyEventAdapter) (event : LegacyEvent) :
    IsLegacyType (adapter.unknown event).type :=
  Or.inl fun type htype status => by
    rw [List.mem_singleton.mp htype]
    rfl

lemma currentCloseSpec_types {adapter : LegacyEventAdapter} :
    ∀ spec ∈ adapter.currentCloseSpec, IsLegacyType spec.type := by
  unfold LegacyEventAdapter.currentCloseSpec
  split
  · simp
  · intro spec hspec
    rw [List.mem_singleton.mp hspec]
    exact .ofNeutral .executionCompleted fun _ => rfl

theorem translate_types {adapter : LegacyEventAdapter} {event : LegacyEvent}
    {newExecutionId : String} {specs : List CanonicalEventSpec}
    (h : adapter.translate event newExecutionId = .ok specs) :
    ∀ spec ∈ specs, IsLegacyType spec.type := by
  have hone : ∀ {made : CanonicalEventSpec}, IsLegacyType made.type → specs = [made] →
      ∀ spec ∈ specs, IsLegacyType spec.type := by
    rintro made hmade rfl spec hspec
    rwa [List.mem_singleton.mp hspec]
  unfold LegacyEventAdapter.translate at h
  split at h
  · unfold LegacyEventAdapter.onStage at h
    split at h
    · split at h
      · exact hone (unknown_type adapter event) (Except.ok.inj h).symm
      · obtain rfl := Except.ok.inj h
        intro spec hspec
        rcases List.mem_append.mp hspec with hclose | hspec
        · exact currentCloseSpec_types spec hclose
        · simp only [List.mem_cons, List.not_mem_nil, or_false] at hspec
          rcases hspec with rfl | rfl
          · exact .ofNeutral .runPhaseChanged fun _ => rfl
          · exact .ofNeutral .executionStarted fun _ => rfl
    · cases h
    · cases h
    · exact hone (unknown_type adapter event) (Except.ok.inj h).symm
  · exact hone (.ofNeutral .executionOutput fun _ => rfl) (Except.ok.inj h).symm
  · exact hone (.ofNeutral .executionOutput fun _ => rfl) (Except.ok.inj h).symm
  · simp only [LegacyEventAdapter.onMetric, except_map_eq_ok, except_bind_eq_ok,
      except_pure_eq_ok] at h
    obtain ⟨_, ⟨_, -, _, -, _, -, rfl⟩, h⟩ := h
    exact hone (.ofNeutral .usageRecorded fun _ => rfl) h.symm
  · simp only [LegacyEventAdapter.onPlan, except_map_eq_ok, except_bind_eq_ok,
      except_pure_eq_ok] at h
    obtain ⟨_, ⟨_, -, rfl⟩, h⟩ := h
    exact hone (.ofNeutral .planCompleted fun _ => rfl) h.symm
  · exact hone (.ofNeutral .changeProposed fun _ => rfl) (Except.ok.inj h).symm
  · exact hone (.ofNeutral .reviewCompleted fun _ => rfl) (Except.ok.inj h).symm
  · simp only [LegacyEventAdapter.onProposal, except_bind_eq_ok, except_pure_eq_ok] at h
    obtain ⟨items, -, proposals, -, totals, -, rfl⟩ := h
    intro spec hspec
    rcases List.mem_append.mp hspec with hspec | hspec
    · rcases List.mem_append.mp hspec with hclose | hspec
      · exact currentCloseSpec_types spec hclose
      · rw [List.mem_singleton.mp hspec]
        exact .ofNeutral .proposalReady fun _ => rfl
    · split at hspec
      · cases hspec
      · rw [List.mem_singleton.mp hspec]
        exact Or.inr rfl
  · cases h
  · cases h
  · exact hone (unknown_type adapter event) (Except.ok.inj h).symm

/-- By induction on the specs: each is recorded on its own, whatever the status. -/
lemma recordSpecs_safe {fresh : ℕ → Fresh} {adapter : LegacyEventAdapter}
    {specs : List (CanonicalEventSpec × ℕ)} (hsound : store.Sound)
    (htypes : ∀ spec ∈ specs, IsLegacyType spec.1.type) :
    (recordSpecs runId fresh adapter specs).Safe RunStore.Grows (Appends LegacyAllowed)
      (fun _ _ => True) store := by
  induction specs generalizing adapter store with
  | nil => exact fun _ _ => trivial
  | cons spec rest ih =>
      obtain ⟨spec, i⟩ := spec
      refine Prog.Safe.attempt_bind RunStore.Grows.refl
        (record_safe hsound fun t _ _ => ?_) ?_
      · rcases htypes (spec, i) (by simp) with hneutral | hwaits
        · exact Or.inl (.ofNeutral hneutral)
        · exact Or.inr (congrArg (fun type => [type]) hwaits)
      · intro result t ht
        cases result with
        | error e => exact fun _ _ => trivial
        | ok appended =>
            exact ih ht.1 fun other hother => htypes other (List.mem_cons_of_mem _ hother)

theorem handleLegacyEvent_safe {adapter : LegacyEventAdapter} {event : LegacyEvent}
    {newExecutionId : String} {fresh : ℕ → Fresh} (hsound : store.Sound) :
    (handleLegacyEvent runId adapter event newExecutionId fresh).Safe RunStore.Grows
      (Appends LegacyAllowed) (fun _ _ => True) store := by
  unfold handleLegacyEvent
  split
  · exact fun _ _ => trivial
  · rename_i specs hspecs
    refine recordSpecs_safe hsound fun spec hspec => translate_types hspecs spec.1 ?_
    exact (List.mem_zipIdx' hspec).2 ▸ List.getElem_mem _

theorem finishNormal_guarded {fresh : Fresh} (hsound : store.Sound) :
    Guarded (finishNormal runId fresh) store (fun _ _ => True) := by
  refine read_then hsound (fun run t hseen => ?_) (fun _ _ => trivial)
  split
  · exact fun _ _ => trivial
  · rename_i hrunning
    rw [ne_eq, not_not] at hrunning
    exact swap_one_unit (hrunning ▸ hseen) (.single .runCompleted rfl (by decide) (by decide))

lemma finish_guarded {type : RunEventType} {runFields : List (String × PyValue)}
    {fresh : ℕ → Fresh} {adapter : LegacyEventAdapter} {seq : ℕ} {status : RunStatus}
    (hseen : SeenAt runId seq status store) (hopen : status.isTerminal = false)
    (hwaits : type ≠ .runWaitingUser)
    (hdecides : type ≠ .proposalApplied ∧ type ≠ .proposalRejected) :
    Guarded (closeThen.finish runId type runFields fresh adapter seq) store
      (fun _ _ => True) := by
  refine Prog.Safe.attempt_bind RunStore.Grows.refl
    (swap_one hseen (.single type hopen hwaits hdecides)) ?_
  intro result t ht
  cases result <;> exact fun _ _ => trivial

theorem closeThen_guarded {adapter : LegacyEventAdapter} {type : RunEventType}
    {executionFields runFields : List (String × PyValue)} {fresh : ℕ → Fresh}
    (hsound : store.Sound) (hwaits : type ≠ .runWaitingUser)
    (hdecides : type ≠ .proposalApplied ∧ type ≠ .proposalRejected) :
    Guarded (closeThen runId adapter type executionFields runFields fresh) store
      (fun _ _ => True) := by
  refine Prog.Safe.attempt_bind RunStore.Grows.refl (getRun_safe hsound) ?_
  rintro result t ⟨-, hread⟩
  cases result with
  | error e => exact fun _ _ => trivial
  | ok current =>
      have hseen := hread current rfl
      dsimp only
      split
      · exact fun _ _ => trivial
      · rename_i hopen
        rw [Bool.not_eq_true] at hopen
        split
        · exact finish_guarded hseen hopen hwaits hdecides
        · refine Prog.Safe.attempt_bind RunStore.Grows.refl
            (swap_one hseen (.single .executionFailed hopen (by decide) (by decide))) ?_
          rintro result u ⟨-, happended⟩
          cases result with
          | error e => exact fun _ _ => trivial
          | ok appended =>
              have hafter := happended appended.1 appended.2 rfl
              exact finish_guarded hafter hopen hwaits hdecides

theorem recordDecision_guarded {type : RunEventType} {fields : List (String × PyValue)}
    {fresh : Fresh} (hsound : store.Sound) (hdecision : type.value ∈ decisions) :
    Guarded (recordDecision runId type fields fresh) store (fun _ _ => True) := by
  refine read_then hsound (fun run t hseen => ?_) (fun _ _ => trivial)
  split
  · exact fun _ _ => trivial
  · rename_i hwaiting
    rw [ne_eq, not_not] at hwaiting
    exact forget (swap_one (hwaiting ▸ hseen) (.decision hdecision))

end LegacyRunCoordinator

namespace Recovery

/-- The interruptions recovery writes before the run's own. -/
def interruptions : List RunEventType :=
  [.toolInterrupted, .planInterrupted, .verificationCheckInterrupted, .verificationInterrupted,
    .reviewInterrupted, .fixAttemptInterrupted, .fixLoopInterrupted]

/-- A spec of one of those types. -/
def IsInterruption (spec : EventArgs) : Prop := ∃ type ∈ interruptions, spec.type = type.value

lemma attemptSpec_types {history : List RunEvent} {key : String}
    {terminals : List RunEventType} {interrupted : RunEventType} {attempt : Attempt}
    (h : interrupted ∈ interruptions) :
    ∀ spec ∈ attemptSpec history key terminals interrupted attempt, IsInterruption spec := by
  unfold attemptSpec
  split
  · simp
  · intro spec hspec
    rw [List.mem_singleton.mp hspec]
    exact ⟨interrupted, h, rfl⟩

lemma openSpecs_types (history : List RunEvent) :
    ∀ spec ∈ openSpecs history, IsInterruption spec := by
  intro spec hspec
  simp only [openSpecs, List.mem_append] at hspec
  rcases hspec with (((htool | hplan) | hverification) | hreview) | hloop
  · simp only [toolSpecs, List.mem_map] at htool
    obtain ⟨item, -, rfl⟩ := htool
    exact ⟨.toolInterrupted, by decide, rfl⟩
  · simp only [planSpecs, List.mem_flatMap] at hplan
    obtain ⟨attempt, -, hspec⟩ := hplan
    exact attemptSpec_types (by decide) spec hspec
  · simp only [verificationSpecs, List.mem_flatMap, List.mem_append] at hverification
    obtain ⟨attempt, -, hcheck | hspec⟩ := hverification
    · simp only [checkSpecs, List.mem_map] at hcheck
      obtain ⟨start, -, rfl⟩ := hcheck
      exact ⟨.verificationCheckInterrupted, by decide, rfl⟩
    · exact attemptSpec_types (by decide) spec hspec
  · simp only [reviewSpecs, List.mem_flatMap] at hreview
    obtain ⟨attempt, -, hspec⟩ := hreview
    exact attemptSpec_types (by decide) spec hspec
  · simp only [fixLoopSpecs, List.mem_flatMap, List.mem_append] at hloop
    obtain ⟨attempt, -, hattempt | hspec⟩ := hloop
    · simp only [fixAttemptSpecs, List.mem_map] at hattempt
      obtain ⟨start, -, rfl⟩ := hattempt
      exact ⟨.fixAttemptInterrupted, by decide, rfl⟩
    · unfold fixLoopSpec at hspec
      split at hspec
      · cases hspec
      · rw [List.mem_singleton.mp hspec]
        exact ⟨.fixLoopInterrupted, by decide, rfl⟩

lemma openSpecs_neutral (history : List RunEvent) :
    Neutral ((openSpecs history).map (·.type)) := by
  intro type htype status
  obtain ⟨spec, hspec, rfl⟩ := List.mem_map.mp htype
  obtain ⟨type, htype, hvalue⟩ := openSpecs_types history spec hspec
  rw [hvalue, RunEventType.ofString?_value]
  simp only [interruptions, List.mem_cons, List.not_mem_nil, or_false] at htype
  rcases htype with rfl | rfl | rfl | rfl | rfl | rfl | rfl <;> rfl

lemma readHistory_readOnly (runId : String) (pages afterSeq : ℕ) (history : List RunEvent) :
    (readHistory runId pages afterSeq history).ReadOnly := by
  induction pages generalizing afterSeq history with
  | zero => trivial
  | succ pages ih =>
      refine (events_readOnly runId afterSeq 200).bind fun page => ?_
      dsimp only
      split
      · trivial
      · exact ih _ _

/-- The one write of a candidate, at the number of the scanned `RUNNING` row. -/
lemma interrupt_guarded {candidate : RunRecord} {history : List RunEvent} {fresh : ℕ → Fresh}
    (hseen : SeenAt candidate.runId candidate.lastEventSeq .running store) :
    Guarded (interrupt candidate history fresh) store (fun _ t => t.Sound) := by
  unfold interrupt
  split
  · refine (swap_one hseen (.single .runInterrupted rfl (by decide) (by decide))).bind
      RunStore.Grows.refl (fun _ t ht u hu => ht.1.grow hu) (fun _ _ h => h.1)
  · refine (commitSpecs_safe Allowed _ _ hseen.sound fun t ht hseq => ?_).bind RunStore.Grows.refl
      (fun _ t ht u hu => ht.1.grow hu) (fun _ _ h => h.1)
    rw [(hseen.grow ht).exact hseq, List.map_append]
    exact .closing .runInterrupted _ (openSpecs_neutral history) rfl (by decide) (by decide)

lemma recoverRun_guarded {candidate : RunRecord} {pages : ℕ} {fresh : ℕ → Fresh}
    (hseen : SeenAt candidate.runId candidate.lastEventSeq .running store) :
    Guarded (recoverRun candidate pages fresh) store
      (fun _ t => RunStore.Grows store t) := by
  refine Prog.Safe.attempt_bind RunStore.Grows.refl
    (Q := fun _ t => t.Sound ∧ RunStore.Grows store t) (Guarded.reached ?_) ?_
  · have hread := Guarded.reached
      (readOnly_safe (readHistory_readOnly candidate.runId pages 0 []) hseen.sound)
    exact hread.bind (R := fun _ t => t.Sound) RunStore.Grows.refl
      (fun history t ht => interrupt_guarded (hseen.grow ht.2)) (fun _ _ h => h.1)
  · rintro result t ⟨ht, hgrown⟩
    split
    · exact fun u hu => hgrown.trans hu
    · refine ((getRun_safe ht).reached (fun _ _ _ hab hbc => hab.trans hbc)
        (fun _ _ _ h => h.grows)).bind RunStore.Grows.refl ?_
        (fun _ _ h => hgrown.trans h.2)
      exact fun _ u hu v hv => (hgrown.trans hu.2).trans hv
    · exact fun u hu => hgrown.trans hu

/-- By induction on the candidates: each was `RUNNING` at the number of its row. -/
lemma recoverRuns_guarded {pages : ℕ} {fresh : ℕ → ℕ → Fresh}
    {candidates : List (RunRecord × ℕ)} {report : RecoveryReport}
    (hseen : ∀ candidate ∈ candidates,
      SeenAt candidate.1.runId candidate.1.lastEventSeq .running store) :
    Guarded (recoverRuns pages fresh candidates report) store (fun _ _ => True) := by
  induction candidates generalizing store report with
  | nil => exact fun _ _ => trivial
  | cons candidate rest ih =>
      obtain ⟨candidate, i⟩ := candidate
      refine (recoverRun_guarded (hseen (candidate, i) (by simp))).bind RunStore.Grows.refl ?_
        (fun _ _ _ => trivial)
      intro interrupted t ht
      exact ih fun other hother => (hseen other (List.mem_cons_of_mem _ hother)).grow ht

/-- The rows of the scan are the rows of their runs. -/
lemma seenAt_of_mem {run : RunRecord} (hsound : store.Sound) (hrun : run ∈ store.runs) :
    SeenAt run.runId run.lastEventSeq run.status store :=
  .ofRow hsound (RunStore.findRun_of_mem hrun)

theorem recoverRunningRuns_guarded {pages : ℕ} {fresh : ℕ → ℕ → Fresh} (hsound : store.Sound) :
    Guarded (recoverRunningRuns pages fresh) store (fun _ _ => True) := by
  refine Prog.Safe.call_bind (fun t _ => ?_) (fun t active ht hactive => ?_)
    (fun _ _ _ _ _ _ => trivial)
  · rw [RunStore.activeRuns_after]
    exact .refl _ _ _
  · rw [RunStore.activeRuns_after]
    have hscan : ∀ run ∈ active, run ∈ t.runs := by
      obtain rfl := Except.ok.inj hactive
      intro run hrun
      exact (List.mem_filter.mp ((List.mergeSort_perm _ _).mem_iff.mp hrun)).1
    refine recoverRuns_guarded fun candidate hcandidate => ?_
    have hmem : candidate.1 ∈ active.filter (·.status = .running) :=
      (List.mem_zipIdx' hcandidate).2 ▸ List.getElem_mem _
    obtain ⟨hrun, hrunning⟩ := List.mem_filter.mp hmem
    have hseen := seenAt_of_mem (hsound.grow ht) (hscan _ hrun)
    rwa [of_decide_eq_true hrunning] at hseen

end Recovery

end Imece.RunRuntime
