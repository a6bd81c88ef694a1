import Imece.RunRuntime.Acp
import Imece.RunRuntime.FixLoop
import Imece.RunRuntime.Planner
import Imece.RunRuntime.Reviewer
import Imece.RunRuntime.Verification
import Imece.RunRuntime.Writes

/-!
# The writes of the attempt recorders

Every recorder of an attempt, under any sequence of calls, appends only what a
guarded writer may. All but the native agent's sink append neutral events alone.
-/
namespace Imece.RunRuntime

open Lib

variable {store : RunStore}

namespace AttemptSink

variable {kind : AttemptKind} {sink : AttemptSink} {fresh : ℕ → Fresh}

lemma specs_neutral (attemptId : String) (event : AgentRuntime.AgentEventKind) :
    Neutral ((specs kind attemptId event).map (·.type)) := by
  cases event <;> simp [specs, spec, Neutral, statusAfter]

/-- A kind whose own events move no status. -/
def IsNeutral (kind : AttemptKind) : Prop :=
  Neutral [kind.started.value, kind.completed.value, kind.failed.value]

lemma commit_guarded {specs : List EventArgs} {then_ : AttemptSink → AttemptSink}
    (hsound : store.Sound) (hneutral : Neutral (specs.map (·.type))) :
    Guarded (sink.commit specs fresh then_) store (fun _ t => t.Sound) := by
  refine Prog.Safe.attempt_bind RunStore.Grows.refl (neutral_commit hsound hneutral) ?_
  intro result t ht
  cases result with
  | ok seq => exact ended_sound _ _ ht
  | error e => exact ended_sound _ _ ht

lemma appendTerminal_guarded {type : RunEventType} {payload : PyValue} (hsound : store.Sound)
    (htype : Neutral [type.value]) :
    Guarded (sink.appendTerminal kind type payload fresh) store (fun _ t => t.Sound) := by
  unfold appendTerminal
  split
  · exact ended_sound _ _ hsound
  · exact commit_guarded hsound htype

lemma fail_guarded (hkind : IsNeutral kind) {attemptId errorType message : String}
    (hsound : store.Sound) :
    Guarded (sink.fail kind attemptId errorType message fresh) store (fun _ t => t.Sound) := by
  unfold fail
  split
  · exact ended_sound _ _ hsound
  · split
    · exact ended_sound _ _ hsound
    · exact appendTerminal_guarded hsound fun t ht => hkind t (by simp_all)

lemma complete_guarded (hkind : IsNeutral kind) {reportId : String} {payload : PyValue}
    (hsound : store.Sound) :
    Guarded (sink.complete kind reportId payload fresh) store (fun _ t => t.Sound) := by
  unfold complete
  split
  · exact ended_sound _ _ hsound
  · split
    · exact ended_sound _ _ hsound
    · split
      · exact ended_sound _ _ hsound
      · exact appendTerminal_guarded hsound fun t ht => hkind t (by simp_all)

lemma start_guarded (hkind : IsNeutral kind) {pages : ℕ} (hsound : store.Sound) :
    Guarded (sink.start kind pages fresh) store (fun _ t => t.Sound) := by
  refine Prog.Safe.attempt_bind RunStore.Grows.refl
    (readOnly_safe (rejectReused_readOnly _ _ _ _ _) hsound) ?_
  intro result t ht
  cases result with
  | ok _ => exact commit_guarded ht fun t ht => hkind t (by simp_all [spec])
  | error e => exact ended_sound _ _ ht

lemma dispatch_guarded (hkind : IsNeutral kind) {event : AgentRuntime.AgentEventKind}
    {pages : ℕ} (hsound : store.Sound) :
    Guarded (sink.dispatch kind event pages fresh) store (fun _ t => t.Sound) := by
  unfold dispatch
  split
  · exact start_guarded hkind hsound
  · exact ended_sound _ _ hsound
  · exact fail_guarded hkind hsound
  · split
    · exact ended_sound _ _ hsound
    · exact commit_guarded hsound (specs_neutral _ _)

theorem emit_guarded (hkind : IsNeutral kind) {event : AgentRuntime.AgentEvent} {pages : ℕ}
    (hsound : store.Sound) :
    Guarded (sink.emit kind event pages fresh) store (fun _ t => t.Sound) := by
  unfold emit
  dsimp only
  split
  · exact ended_sound _ _ hsound
  · split
    · exact ended_sound _ _ hsound
    · split
      · exact ended_sound _ _ hsound
      · exact dispatch_guarded hkind hsound

end AttemptSink

theorem CanonicalPlannerEventSink.session_guarded (runId planId : String)
    (rulesSha256 : Option String) (pinnedPaths : List String)
    (calls : List CanonicalPlannerEventSink.Call) (hsound : store.Sound) :
    Guarded (CanonicalPlannerEventSink.new runId planId rulesSha256 pinnedPaths >>= fun sink =>
      session CanonicalPlannerEventSink.call sink calls) store (fun _ _ => True) := by
  have hkind : AttemptSink.IsNeutral CanonicalPlannerEventSink.kind := by
    simp [AttemptSink.IsNeutral, Neutral, CanonicalPlannerEventSink.kind, statusAfter]
  refine Prog.Safe.bind RunStore.Grows.refl (Q := fun _ t => t.Sound) ?_ ?_
    (fun _ _ _ => trivial)
  · unfold CanonicalPlannerEventSink.new
    split
    · exact fun t ht => hsound.grow ht
    · refine (runningSeq_safe hsound).bind RunStore.Grows.refl ?_ (fun _ _ h => h.1)
      exact fun seq t ht u hu => ht.1.grow hu
  · intro sink t ht
    refine session_safe (I := fun _ t => t.Sound) (fun sink call u hu => ?_) calls ht
    refine Prog.Safe.weaken (Q := fun _ t => t.Sound) ?_ fun _ _ h _ _ => h
    cases call with
    | emit event pages fresh => exact AttemptSink.emit_guarded hkind hu
    | complete report fresh => exact AttemptSink.complete_guarded hkind hu
    | fail planId errorType message fresh => exact AttemptSink.fail_guarded hkind hu
    | noteExternalAppend seq => exact ended_sound _ _ hu

theorem CanonicalReviewEventSink.session_guarded (runId reviewId : String)
    (rulesSha256 : Option String) (calls : List CanonicalReviewEventSink.Call)
    (hsound : store.Sound) :
    Guarded (CanonicalReviewEventSink.new runId reviewId rulesSha256 >>= fun sink =>
      session CanonicalReviewEventSink.call sink calls) store (fun _ _ => True) := by
  have hkind : AttemptSink.IsNeutral CanonicalReviewEventSink.kind := by
    simp [AttemptSink.IsNeutral, Neutral, CanonicalReviewEventSink.kind, statusAfter]
  refine Prog.Safe.bind RunStore.Grows.refl (Q := fun _ t => t.Sound) ?_ ?_
    (fun _ _ _ => trivial)
  · unfold CanonicalReviewEventSink.new
    split
    · exact fun t ht => hsound.grow ht
    · refine (runningSeq_safe hsound).bind RunStore.Grows.refl ?_ (fun _ _ h => h.1)
      exact fun seq t ht u hu => ht.1.grow hu
  · intro sink t ht
    refine session_safe (I := fun _ t => t.Sound) (fun sink call u hu => ?_) calls ht
    refine Prog.Safe.weaken (Q := fun _ t => t.Sound) ?_ fun _ _ h _ _ => h
    cases call with
    | emit event pages fresh => exact AttemptSink.emit_guarded hkind hu
    | complete report fresh => exact AttemptSink.complete_guarded hkind hu
    | fail reviewId errorType message fresh => exact AttemptSink.fail_guarded hkind hu
    | noteExternalAppend seq => exact ended_sound _ _ hu

/-- A verification event that is translated is neutral. -/
lemma CanonicalVerificationEventSink.specs_neutral {event : VerificationEvent} {spec : EventArgs}
    (h : CanonicalVerificationEventSink.specs event = .ok spec) : Neutral [spec.type] := by
  have hcheck : ∀ {result : Except RunRuntimeError Unit} {made : EventArgs},
      (result.map fun _ => made) = .ok spec → made = spec := by
    intro result made hmade
    cases result <;> cases hmade
    rfl
  unfold CanonicalVerificationEventSink.specs at h
  dsimp only at h
  split at h
  · cases h
    simp [CanonicalVerificationEventSink.spec, Neutral, statusAfter]
  · cases h
    simp [CanonicalVerificationEventSink.spec, Neutral, statusAfter]
  · rw [← hcheck h]
    simp [CanonicalVerificationEventSink.spec, Neutral, statusAfter]
  · rw [← hcheck h]
    simp [CanonicalVerificationEventSink.spec, Neutral, statusAfter]
  · split at h
    · cases h
    · cases h
      simp [CanonicalVerificationEventSink.spec, Neutral, statusAfter]
  · cases h
    simp [CanonicalVerificationEventSink.spec, Neutral, statusAfter]
  · cases h

theorem CanonicalVerificationEventSink.emit_guarded (sink : CanonicalVerificationEventSink)
    (input : VerificationEvent × ℕ × (ℕ → Fresh)) (hsound : store.Sound) :
    Guarded (sink.emit input) store (fun _ t => t.Sound) := by
  unfold CanonicalVerificationEventSink.emit
  dsimp only
  split
  · exact ended_sound _ _ hsound
  · refine Prog.Safe.attempt_bind RunStore.Grows.refl (Q := fun _ t => t.Sound) ?_ ?_
    · unfold CanonicalVerificationEventSink.requireFresh
      split
      · exact readOnly_safe (rejectReused_readOnly _ _ _ _ _) hsound
      · exact fun t ht => hsound.grow ht
    · intro result t ht
      cases result with
      | error e => exact ended_sound _ _ ht
      | ok _ =>
          dsimp only
          split
          · exact ended_sound _ _ ht
          · rename_i spec hspec
            refine Prog.Safe.attempt_bind RunStore.Grows.refl
              (neutral_commit ht (CanonicalVerificationEventSink.specs_neutral hspec)) ?_
            intro result u hu
            cases result with
            | ok seq => exact ended_sound _ _ hu
            | error e => exact ended_sound _ _ hu

theorem CanonicalVerificationEventSink.session_guarded (runId verificationId : String)
    (inputs : List (VerificationEvent × ℕ × (ℕ → Fresh))) (hsound : store.Sound) :
    Guarded (CanonicalVerificationEventSink.new runId verificationId >>= fun sink =>
      session CanonicalVerificationEventSink.emit sink inputs) store (fun _ _ => True) := by
  refine Prog.Safe.bind RunStore.Grows.refl (Q := fun _ t => t.Sound) ?_ ?_
    (fun _ _ _ => trivial)
  · unfold CanonicalVerificationEventSink.new
    split
    · exact fun t ht => hsound.grow ht
    · exact (runningSeq_safe hsound).bind RunStore.Grows.refl
        (fun _ t ht u hu => ht.1.grow hu) (fun _ _ h => h.1)
  · intro sink t ht
    refine session_safe (I := fun _ t => t.Sound) (fun sink input u hu => ?_) inputs ht
    exact (sink.emit_guarded input hu).weaken fun _ _ h _ _ => h

namespace CanonicalAcpEventSink

variable {sink : CanonicalAcpEventSink} {fresh : ℕ → Fresh}

lemma append_guarded {type : RunEventType} {payload : PyValue}
    {then_ : CanonicalAcpEventSink → CanonicalAcpEventSink} (hsound : store.Sound)
    (htype : Neutral [type.value]) :
    Guarded (sink.append type payload fresh then_) store (fun _ t => t.Sound) := by
  unfold append
  split
  · exact ended_sound _ _ hsound
  · refine Prog.Safe.attempt_bind RunStore.Grows.refl (neutral_commit hsound htype) ?_
    intro result t ht
    cases result with
    | ok seq => exact ended_sound _ _ ht
    | error e => exact ended_sound _ _ ht

lemma observed_neutral {event : AcpRuntimeEvent}
    {made : CanonicalAcpEventSink × RunEventType × PyValue}
    (h : sink.observed event = .ok made) : Neutral [made.2.1.value] := by
  cases event with
  | sessionUpdateObserved sessionId serialized serializedChars =>
      simp only [observed, except_bind_eq_ok] at h
      obtain ⟨_, -, _, -, _, -, h⟩ := h
      cases h
      simp [Neutral, statusAfter]
  | permissionRequested sessionId toolCallId title optionIds =>
      simp only [observed, except_bind_eq_ok] at h
      obtain ⟨_, -, _, -, _, -, _, -, _, -, h⟩ := h
      cases h
      simp [Neutral, statusAfter]
  | permissionResolved sessionId toolCallId outcome reason =>
      simp only [observed, except_bind_eq_ok] at h
      obtain ⟨_, -, _, -, _, -, _, -, _, -, h⟩ := h
      cases h
      simp [Neutral, statusAfter]
  | other className => cases h

theorem call_guarded (input : Call) (hsound : store.Sound) :
    Guarded (sink.call input) store (fun _ t => t.Sound) := by
  cases input with
  | start task fresh =>
      unfold call start
      dsimp only
      split
      · exact ended_sound _ _ hsound
      · split
        · exact ended_sound _ _ hsound
        · exact append_guarded hsound (by simp [Neutral, statusAfter])
  | emit event fresh =>
      unfold call emit
      dsimp only
      split
      · exact ended_sound _ _ hsound
      · split
        · exact ended_sound _ _ hsound
        · rename_i hmade
          exact append_guarded hsound (observed_neutral hmade)
  | complete result fresh =>
      unfold call complete
      dsimp only
      split
      · exact ended_sound _ _ hsound
      · split
        · exact ended_sound _ _ hsound
        · exact append_guarded hsound (by simp [Neutral, statusAfter])
  | fail errorType message fresh =>
      unfold call fail
      dsimp only
      split
      · exact ended_sound _ _ hsound
      · split
        · exact ended_sound _ _ hsound
        · exact append_guarded hsound (by simp [Neutral, statusAfter])

theorem session_guarded (runId executionId : String) (calls : List Call) (hsound : store.Sound) :
    Guarded (new runId executionId >>= fun sink => session call sink calls) store
      (fun _ _ => True) := by
  refine Prog.Safe.bind RunStore.Grows.refl (Q := fun _ t => t.Sound) ?_ ?_
    (fun _ _ _ => trivial)
  · exact (runningSeq_safe hsound).bind RunStore.Grows.refl
      (fun _ t ht u hu => ht.1.grow hu) (fun _ _ h => h.1)
  · intro sink t ht
    refine session_safe (I := fun _ t => t.Sound) (fun sink input u hu => ?_) calls ht
    exact (call_guarded input hu).weaken fun _ _ h _ _ => h

end CanonicalAcpEventSink

namespace CanonicalFixLoopRecorder

variable {recorder : CanonicalFixLoopRecorder} {fresh : Fresh}

lemma commit_guarded {runId fixLoopId : String} {type : RunEventType}
    {fields : List (String × PyValue)} (hsound : store.Sound) (htype : Neutral [type.value]) :
    Guarded (commit runId fixLoopId type fields fresh) store (fun _ t => t.Sound) := by
  refine (runningSeq_safe hsound).bind RunStore.Grows.refl ?_ (fun _ _ h => h.1)
  rintro expected t ⟨ht, -⟩
  refine (record_safe ht fun _ _ _ => .ofNeutral htype).bind RunStore.Grows.refl ?_
    (fun _ _ h => h.1)
  exact fun _ u hu v hv => hu.1.grow hv

lemma step_guarded {checks : Except RunRuntimeError Unit} {type : RunEventType}
    {fields : List (String × PyValue)}
    {then_ : CanonicalFixLoopRecorder → CanonicalFixLoopRecorder} (hsound : store.Sound)
    (htype : Neutral [type.value]) :
    Guarded (recorder.step checks type fields fresh then_) store (fun _ t => t.Sound) := by
  unfold step
  split
  · exact ended_sound _ _ hsound
  · refine Prog.Safe.attempt_bind RunStore.Grows.refl (commit_guarded hsound htype) ?_
    intro result t ht
    cases result with
    | ok seq => exact ended_sound _ _ ht
    | error e => exact ended_sound _ _ ht

theorem call_guarded (input : Call × Fresh) (hsound : store.Sound) :
    Guarded (recorder.call input) store (fun _ t => t.Sound) := by
  obtain ⟨call, fresh⟩ := input
  cases call with
  | start pages =>
      unfold CanonicalFixLoopRecorder.call start
      dsimp only
      split
      · exact ended_sound _ _ hsound
      · refine Prog.Safe.attempt_bind RunStore.Grows.refl
          (readOnly_safe (rejectReused_readOnly _ _ _ _ _) hsound) ?_
        intro result t ht
        cases result with
        | ok _ => exact step_guarded ht (by simp [Neutral, statusAfter])
        | error e => exact ended_sound _ _ ht
  | _ =>
      simp only [CanonicalFixLoopRecorder.call, attemptStarted, attemptCompleted,
        attemptInterrupted, completed, exhausted, failed, interrupted, appendTerminal]
      refine step_guarded hsound ?_
      simp [Neutral, statusAfter]

theorem session_guarded (runId fixLoopId : String) (calls : List (Call × Fresh))
    (hsound : store.Sound) :
    Guarded (new runId fixLoopId >>= fun recorder => session call recorder calls) store
      (fun _ _ => True) := by
  refine Prog.Safe.bind RunStore.Grows.refl (Q := fun _ t => t.Sound) ?_ ?_
    (fun _ _ _ => trivial)
  · unfold new
    split
    · exact fun t ht => hsound.grow ht
    · exact (runningSeq_safe hsound).bind RunStore.Grows.refl
        (fun _ t ht u hu => ht.1.grow hu) (fun _ _ h => h.1)
  · intro recorder t ht
    refine session_safe (I := fun _ t => t.Sound) (fun recorder input u hu => ?_) calls ht
    exact (call_guarded input hu).weaken fun _ _ h _ _ => h

end CanonicalFixLoopRecorder

namespace CanonicalAgentEventSink

/-- Every event's batch is allowed on a run that is not over, and leaves it so. -/
lemma specs_allowed (event : AgentRuntime.AgentEvent) {status : RunStatus}
    (hopen : status.isTerminal = false) :
    Allowed status ((specs event).map (·.type)) ∧
      (statusAfterTypes status ((specs event).map (·.type))).isTerminal = false := by
  obtain ⟨executionId, kind⟩ := event
  cases kind with
  | approvalRequested =>
      exact ⟨.approval hopen, by simp [specs, spec, statusAfterTypes, statusAfter, RunStatus.isTerminal]⟩
  | approvalResolved =>
      refine ⟨.ofOpen hopen ?_ ?_, ?_⟩
      · simp [specs, spec, RunEventType.value]
      · simp [specs, spec, decisions, RunEventType.value]
      · simp [specs, spec, statusAfterTypes, statusAfter, RunStatus.isTerminal]
  | _ =>
      refine ⟨.ofNeutral ?_, ?_⟩
      · simp [specs, spec, Neutral, statusAfter]
      · simpa [specs, spec, statusAfterTypes, statusAfter] using hopen

/-- What the sink knows between two events: the run was not over at its number. -/
def Knows (runId : String) (sink : CanonicalAgentEventSink) (store : RunStore) : Prop :=
  sink.runId = runId ∧ store.Sound ∧
    ∃ status, status.isTerminal = false ∧ SeenAt runId sink.expectedSeq status store

theorem Knows.grow {runId : String} {sink : CanonicalAgentEventSink} {store next : RunStore}
    (h : Knows runId sink store) (hgrows : RunStore.Grows store next) :
    Knows runId sink next := by
  obtain ⟨hrun, hsound, status, hopen, hseen⟩ := h
  exact ⟨hrun, hsound.grow hgrows, status, hopen, hseen.grow hgrows⟩

lemma ended_knows {runId : String} {sink : CanonicalAgentEventSink}
    {outcome : Except RunRuntimeError Unit} (h : Knows runId sink store) :
    Guarded (pure ⟨sink, outcome⟩ : RunProg (Ended CanonicalAgentEventSink)) store
      (fun r t => ∀ ended, r = .ok ended → Knows runId ended.object t) := by
  rintro t ht ended ⟨⟩
  exact h.grow ht

theorem emit_guarded {runId : String} {sink : CanonicalAgentEventSink}
    (input : AgentRuntime.AgentEvent × (ℕ → Fresh)) (h : Knows runId sink store) :
    Guarded (sink.emit input) store
      (fun r t => ∀ ended, r = .ok ended → Knows runId ended.object t) := by
  unfold emit
  dsimp only
  split
  · exact ended_knows h
  · split
    · exact ended_knows h
    · obtain ⟨hrun, hsound, status, hopen, hseen⟩ := h
      obtain ⟨hallowed, hstill⟩ := specs_allowed input.1 hopen
      rw [hrun]
      refine Prog.Safe.attempt_bind RunStore.Grows.refl
        (Q := fun r t => t.Sound ∧ SeenAt runId sink.expectedSeq status t ∧
          ∀ seq, r = .ok seq →
            SeenAt runId seq (statusAfterTypes status ((specs input.1).map (·.type))) t) ?_ ?_
      · have hcommit := commitSpecs_safe Allowed (specs input.1) input.2 hsound
          fun t ht hseq => by
            rw [(hseen.grow ht).exact hseq]
            exact hallowed
        refine (Guarded.reached hcommit).weaken ?_
        rintro r t ⟨⟨ht, hcommitted⟩, hgrown⟩
        exact ⟨ht, hseen.grow hgrown, fun seq hok => (hcommitted seq hok).seenAt hseen⟩
      · rintro result t ⟨ht, hbefore, hafter⟩
        cases result with
        | ok seq => exact ended_knows ⟨rfl, ht, _, hstill, hafter seq rfl⟩
        | error e => exact ended_knows ⟨rfl, ht, status, hopen, hbefore⟩

theorem session_guarded (runId : String) (executionId : Option String)
    (inputs : List (AgentRuntime.AgentEvent × (ℕ → Fresh))) (hsound : store.Sound) :
    Guarded (new runId executionId >>= fun sink => session emit sink inputs) store
      (fun _ _ => True) := by
  refine Prog.Safe.bind RunStore.Grows.refl
    (Q := fun r t => ∀ sink, r = .ok sink → Knows runId sink t) ?_ ?_ (fun _ _ _ => trivial)
  · refine (runningSeq_safe hsound).bind RunStore.Grows.refl ?_ (fun _ _ _ _ h => by cases h)
    rintro seq t ⟨ht, hseen⟩ u hu sink ⟨⟩
    exact ⟨rfl, ht.grow hu, _, rfl, (hseen seq rfl).grow hu⟩
  · intro sink t ht
    exact session_safe (I := Knows runId) (fun _ input u hu => emit_guarded input hu) inputs
      (ht sink rfl)

end CanonicalAgentEventSink

end Imece.RunRuntime
