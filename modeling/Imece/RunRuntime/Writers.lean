import Imece.RunRuntime.RunWrites
import Imece.RunRuntime.SinkWrites

/-!
# The writers of a run, together

All operations that write events to a run, as the programs of one pool; any number
of them are in flight at once. A run is looked at through the types in its log,
which determine its status.
-/
namespace Imece.RunRuntime

open Lib

/-- One operation in flight, with all it is given. A legacy operation starts from
whatever state the coordinator's adapter is in; the recorders of attempts make any
sequence of calls. -/
inductive Writer where
  | handleLegacyEvent (runId : String) (adapter : LegacyEventAdapter) (event : LegacyEvent)
      (newExecutionId : String) (fresh : ℕ → Fresh)
  | finishNormal (runId : String) (fresh : Fresh)
  | finishFailed (runId : String) (adapter : LegacyEventAdapter) (message : String)
      (fresh : ℕ → Fresh)
  | finishCancelled (runId : String) (adapter : LegacyEventAdapter) (fresh : ℕ → Fresh)
  | recordProposalApplied (runId : String) (appliedPaths : List String) (checkpointId : String)
      (fresh : Fresh)
  | recordProposalRejected (runId : String) (rejectedPaths : List String) (fresh : Fresh)
  | complete (call : RunCompletionGate.SettleCall)
  | failExecution (runId executionId : String) (fresh : Fresh)
  | failVerification (runId verificationId : String) (fresh : Fresh)
  | failFixLoop (runId fixLoopId : String) (fresh : Fresh)
  | needsUser (runId : String) (payload : PyValue) (expected : Option ℕ) (source : String)
      (fresh : Fresh × Fresh)
  | resumed (runId reason : String) (fresh : Fresh)
  | completedNoChanges (runId : String) (fresh : Fresh)
  | cancelled (runId : String) (fresh : Fresh)
  | failed (runId errorCode : String) (errorMessage : Option String) (fresh : Fresh)
  | nativeAgent (runId : String) (executionId : Option String)
      (inputs : List (AgentRuntime.AgentEvent × (ℕ → Fresh)))
  | acp (runId executionId : String) (calls : List CanonicalAcpEventSink.Call)
  | planner (runId planId : String) (rulesSha256 : Option String) (pinnedPaths : List String)
      (calls : List CanonicalPlannerEventSink.Call)
  | reviewer (runId reviewId : String) (rulesSha256 : Option String)
      (calls : List CanonicalReviewEventSink.Call)
  | verification (runId verificationId : String)
      (inputs : List (VerificationEvent × ℕ × (ℕ → Fresh)))
  | fixLoop (runId fixLoopId : String) (calls : List (CanonicalFixLoopRecorder.Call × Fresh))
  | recovery (pages : ℕ) (fresh : ℕ → ℕ → Fresh)

/-- Run a program for its writes. -/
def discard {α : Type} (p : RunProg α) : RunProg Unit := do
  let _ ← p
  return ()

namespace Writer

def program : Writer → RunProg Unit
  | .handleLegacyEvent runId adapter event newExecutionId fresh =>
      discard (LegacyRunCoordinator.handleLegacyEvent runId adapter event newExecutionId fresh)
  | .finishNormal runId fresh => LegacyRunCoordinator.finishNormal runId fresh
  | .finishFailed runId adapter message fresh =>
      discard (LegacyRunCoordinator.finishFailed runId adapter message fresh)
  | .finishCancelled runId adapter fresh =>
      discard (LegacyRunCoordinator.finishCancelled runId adapter fresh)
  | .recordProposalApplied runId appliedPaths checkpointId fresh =>
      discard (LegacyRunCoordinator.recordProposalApplied runId appliedPaths checkpointId fresh)
  | .recordProposalRejected runId rejectedPaths fresh =>
      discard (LegacyRunCoordinator.recordProposalRejected runId rejectedPaths fresh)
  | .complete call => call.program
  | .failExecution runId executionId fresh =>
      RunCompletionGate.failExecution runId executionId fresh
  | .failVerification runId verificationId fresh =>
      RunCompletionGate.failVerification runId verificationId fresh
  | .failFixLoop runId fixLoopId fresh => RunCompletionGate.failFixLoop runId fixLoopId fresh
  | .needsUser runId payload expected source fresh =>
      CanonicalPipelineRecorder.needsUser runId payload expected source fresh
  | .resumed runId reason fresh => CanonicalPipelineRecorder.resumed runId reason fresh
  | .completedNoChanges runId fresh => CanonicalPipelineRecorder.completedNoChanges runId fresh
  | .cancelled runId fresh => CanonicalPipelineRecorder.cancelled runId fresh
  | .failed runId errorCode errorMessage fresh =>
      CanonicalPipelineRecorder.failed runId errorCode errorMessage fresh
  | .nativeAgent runId executionId inputs => discard do
      let sink ← CanonicalAgentEventSink.new runId executionId
      session CanonicalAgentEventSink.emit sink inputs
  | .acp runId executionId calls => discard do
      let sink ← CanonicalAcpEventSink.new runId executionId
      session CanonicalAcpEventSink.call sink calls
  | .planner runId planId rulesSha256 pinnedPaths calls => discard do
      let sink ← CanonicalPlannerEventSink.new runId planId rulesSha256 pinnedPaths
      session CanonicalPlannerEventSink.call sink calls
  | .reviewer runId reviewId rulesSha256 calls => discard do
      let sink ← CanonicalReviewEventSink.new runId reviewId rulesSha256
      session CanonicalReviewEventSink.call sink calls
  | .verification runId verificationId inputs => discard do
      let sink ← CanonicalVerificationEventSink.new runId verificationId
      session CanonicalVerificationEventSink.emit sink inputs
  | .fixLoop runId fixLoopId calls => discard do
      let recorder ← CanonicalFixLoopRecorder.new runId fixLoopId
      session CanonicalFixLoopRecorder.call recorder calls
  | .recovery pages fresh => discard (Recovery.recoverRunningRuns pages fresh)

/-- The writers that park a run without having read its status: the legacy event
handler, and `needs_user` at a number its caller supplies. -/
def parksUnread : Writer → Bool
  | .handleLegacyEvent .. => true
  | .needsUser _ _ (some _) _ _ => true
  | _ => false

/-- The run and the sequence number a caller of `needs_user` supplies. -/
def givenSeq : Writer → Option (String × ℕ)
  | .needsUser runId _ (some seq) _ _ => some (runId, seq)
  | _ => none

/-- What a writer's accesses may append: an unread park is the one exception. -/
def Writes (writer : Writer) (status : RunStatus) (types : List String) : Prop :=
  Allowed status types ∨ writer.parksUnread = true ∧
    (types = [RunEventType.runWaitingUser.value] ∨ types = proposalBatch)

end Writer

section Safety

variable {store : RunStore}

lemma discard_safe {α : Type} {p : RunProg α} {allowed : RunStatus → List String → Prop}
    {post : Except RunRuntimeError α → RunStore → Prop}
    (h : p.Safe RunStore.Grows (Appends allowed) post store) :
    (discard p).Safe RunStore.Grows (Appends allowed) (fun _ _ => True) store :=
  h.bind RunStore.Grows.refl (fun _ _ _ _ _ => trivial) (fun _ _ _ => trivial)

theorem Writer.program_safe (writer : Writer) (hsound : store.Sound) :
    writer.program.Safe RunStore.Grows (Appends writer.Writes) (fun _ _ => True) store := by
  have guarded : ∀ {p : RunProg Unit}, Guarded p store (fun _ _ => True) →
      p.Safe RunStore.Grows (Appends writer.Writes) (fun _ _ => True) store :=
    fun h => h.widen fun _ _ _ happends => happends.weaken fun _ _ hallowed => Or.inl hallowed
  cases writer with
  | handleLegacyEvent runId adapter event newExecutionId fresh =>
      refine (discard_safe (LegacyRunCoordinator.handleLegacyEvent_safe hsound)).widen
        fun _ _ _ happends => happends.weaken ?_
      rintro status types (hallowed | hparks)
      · exact Or.inl hallowed
      · exact Or.inr ⟨rfl, Or.inl hparks⟩
  | needsUser runId payload expected source fresh =>
      cases expected with
      | none => exact guarded (CanonicalPipelineRecorder.needsUser_guarded hsound)
      | some seq =>
          exact CanonicalPipelineRecorder.writeNeedsUser_safe hsound
            fun _ _ _ => Or.inr ⟨rfl, Or.inr rfl⟩
  | finishNormal => exact guarded (LegacyRunCoordinator.finishNormal_guarded hsound)
  | finishFailed =>
      exact guarded (discard_safe
        (LegacyRunCoordinator.closeThen_guarded hsound (by decide) (by decide)))
  | finishCancelled =>
      exact guarded (discard_safe
        (LegacyRunCoordinator.closeThen_guarded hsound (by decide) (by decide)))
  | recordProposalApplied =>
      exact guarded (discard_safe
        (LegacyRunCoordinator.recordDecision_guarded hsound (by simp [decisions])))
  | recordProposalRejected =>
      exact guarded (discard_safe
        (LegacyRunCoordinator.recordDecision_guarded hsound (by simp [decisions])))
  | complete call => exact guarded (RunCompletionGate.settleCall_guarded call hsound)
  | failExecution runId executionId fresh =>
      exact guarded (RunCompletionGate.failExecution_guarded hsound)
  | failVerification runId verificationId fresh =>
      exact guarded (RunCompletionGate.failVerification_guarded hsound)
  | failFixLoop runId fixLoopId fresh =>
      exact guarded (RunCompletionGate.failFixLoop_guarded hsound)
  | resumed => exact guarded (CanonicalPipelineRecorder.resumed_guarded hsound)
  | completedNoChanges =>
      exact guarded
        (CanonicalPipelineRecorder.recordIfRunning_guarded hsound (by decide) (by decide))
  | cancelled =>
      exact guarded
        (CanonicalPipelineRecorder.recordIfRunning_guarded hsound (by decide) (by decide))
  | failed =>
      exact guarded
        (CanonicalPipelineRecorder.recordIfRunning_guarded hsound (by decide) (by decide))
  | nativeAgent runId executionId inputs =>
      exact guarded (discard_safe
        (CanonicalAgentEventSink.session_guarded runId executionId inputs hsound))
  | acp runId executionId calls =>
      exact guarded (discard_safe
        (CanonicalAcpEventSink.session_guarded runId executionId calls hsound))
  | planner runId planId rulesSha256 pinnedPaths calls =>
      exact guarded (discard_safe (CanonicalPlannerEventSink.session_guarded runId planId
        rulesSha256 pinnedPaths calls hsound))
  | reviewer runId reviewId rulesSha256 calls =>
      exact guarded (discard_safe
        (CanonicalReviewEventSink.session_guarded runId reviewId rulesSha256 calls hsound))
  | verification runId verificationId inputs =>
      exact guarded (discard_safe
        (CanonicalVerificationEventSink.session_guarded runId verificationId inputs hsound))
  | fixLoop runId fixLoopId calls =>
      exact guarded (discard_safe
        (CanonicalFixLoopRecorder.session_guarded runId fixLoopId calls hsound))
  | recovery => exact guarded (discard_safe (Recovery.recoverRunningRuns_guarded hsound))

/-- A write at a supplied number meets a log of that length, or changes nothing. -/
def AtGivenSeq (writer : Writer) (store next : RunStore) : Prop :=
  ∀ given ∈ writer.givenSeq, next = store ∨ given.2 = (store.log given.1).length

theorem Writer.program_numbered (writer : Writer) (hsound : store.Sound) :
    writer.program.Safe RunStore.Grows (fun _ => AtGivenSeq writer) (fun _ _ => True) store := by
  match writer with
  | .needsUser runId payload (some seq) source fresh =>
      refine Prog.Safe.check_bind (fun ready _ => ?_) (fun _ _ _ _ => trivial)
      refine Prog.Safe.check_bind (fun waiting _ => ?_) (fun _ _ _ _ => trivial)
      refine Prog.Safe.call_bind (fun t ht => ?_) (fun _ _ _ _ _ _ => trivial)
        (fun _ _ _ _ _ _ => trivial)
      rintro given ⟨⟩
      exact (RunStore.appendEvents_cases (hsound.grow ht runId) _ (some seq)).imp_right
        fun hcase => hcase.1 _ rfl
  | .needsUser _ _ none _ _ | .handleLegacyEvent .. | .finishNormal .. | .finishFailed ..
  | .finishCancelled .. | .recordProposalApplied .. | .recordProposalRejected .. | .complete _
  | .failExecution .. | .failVerification .. | .failFixLoop .. | .resumed ..
  | .completedNoChanges .. | .cancelled .. | .failed .. | .nativeAgent .. | .acp .. | .planner ..
  | .reviewer .. | .verification .. | .fixLoop .. | .recovery .. =>
      exact Prog.Safe.of_guar (fun _ _ _ _ hgiven => by cases hgiven) _ _

/-- What one access of a writer does. -/
structure WriterGuar (writer : Writer) (access : StoreAccess) (store next : RunStore) :
    Prop where
  appends : Appends writer.Writes access store next
  numbered : AtGivenSeq writer store next

end Safety

namespace RunStore

/-- The types a store call asks to append. -/
def StoreCall.types : StoreCall → List String
  | .createTask .. | .createRun .. => []
  | .appendEvent _ args _ _ => [args.type]
  | .appendEvents _ specs _ => specs.map (·.1.type)

/-- The types in a run's log, in order. -/
def logTypes (store : RunStore) (runId : String) : List String :=
  (store.log runId).map (·.type)

/-- The row of a run shows the status its log's types lead to. -/
theorem Sound.status_eq {store : RunStore} (h : store.Sound) {runId : String}
    (hrun : (store.findRun runId).isSome) :
    store.status runId = some (statusAfterTypes .created (store.logTypes runId)) := by
  rw [(h runId).status_eq hrun, ← List.nil_append (store.log runId), statusOf_append_types rfl]
  rfl

theorem Extends.logTypes {store next : RunStore} {target : String} {types : List String}
    (h : Extends store next target types) (runId : String) :
    next.logTypes runId = store.logTypes runId ++ if runId = target then types else [] := by
  split
  · rename_i hrun
    subst hrun
    obtain ⟨events, hlog, htypes⟩ := h.log
    rw [RunStore.logTypes, hlog, List.map_append, htypes]
    rfl
  · rename_i hrun
    rw [RunStore.logTypes, h.otherLog runId hrun, List.append_nil]
    rfl

lemma Appended.logTypes {store next : RunStore} {target : String} {events : List RunEvent}
    {row : RunRecord} (h : Appended store next target events row) (runId : String) :
    next.logTypes runId = store.logTypes runId ∨
      next.logTypes runId = store.logTypes runId ++ events.map (·.type) := by
  by_cases hrun : runId = target
  · subst hrun
    exact Or.inr (by rw [RunStore.logTypes, h.log, List.map_append]; rfl)
  · exact Or.inl (by rw [RunStore.logTypes, h.otherLog runId hrun]; rfl)

/-- A call of another writer appends nothing to a run, or the types it asks for. -/
theorem call_logTypes (call : StoreCall) (store : RunStore) (runId : String) :
    (after call.run store).logTypes runId = store.logTypes runId ∨
      (after call.run store).logTypes runId = store.logTypes runId ++ call.types := by
  rcases after_cases (failsClean_call call) store with hsame | ⟨⟨⟩, hok⟩
  · rw [hsame]
    exact Or.inl rfl
  · generalize after call.run store = next at hok
    cases call with
    | createTask args fresh =>
        obtain ⟨task, h⟩ := map_eq_ok hok
        simp only [createTask, bind_eq_ok, check_eq_ok, atomically_eq_ok, pure_eq_ok] at h
        obtain ⟨createdAt, s₁, ⟨-, rfl⟩, ⟨⟩, s₂, hinsert, -, rfl⟩ := h
        exact Or.inl (by simp [logTypes, log, (insertTask_ok hinsert).1])
    | createRun args fresh =>
        obtain ⟨record, h⟩ := map_eq_ok hok
        exact Or.inl (by rw [logTypes, (createRun_ok h).2.2.2.1 runId]; rfl)
    | appendEvent target args expected fresh =>
        obtain ⟨⟨event, updated⟩, h⟩ := map_eq_ok hok
        obtain ⟨current, required, hcurrent, -, -, hwrite⟩ := appendEvent_ok h
        have hwrote := writeEvent_ok hcurrent hwrite
        have htypes := hwrote.appended.logTypes runId
        rwa [List.map_singleton, (buildEvent_ok hwrote.built).2.2.1] at htypes
    | appendEvents target specs expected =>
        obtain ⟨⟨events, updated⟩, h⟩ := map_eq_ok hok
        obtain ⟨current, required, hspecs, hcurrent, -, -, hwrite⟩ := appendEvents_ok h
        have htypes := (writeEvents_ok hcurrent hwrite).1.logTypes runId
        rwa [writeEvents_types hcurrent hwrite] at htypes

end RunStore

/-- An event of a pool of the writers. -/
abbrev WriterEvent (κ : Type) := PoolEvent Writer κ StoreAccess RunStore

/-- The pool of the writers in which nothing is in flight yet. -/
abbrev startPool (store : RunStore) : Pool Writer StoreAccess RunStore RunRuntimeError Unit :=
  ⟨store, []⟩

section Steps

variable {κ : Type} {environment : κ → RunStore → RunStore}

/-- The writers over any environment that keeps logs growing form a safe pool. -/
theorem writerPool (environment : κ → RunStore → RunStore)
    (henv : ∀ move store, RunStore.Grows store (environment move store)) :
    SafePool environment Writer.program RunStore.Grows WriterGuar RunStore.Sound
      (fun _ _ => True) where
  refl := RunStore.Grows.refl
  trans _ _ _ := RunStore.Grows.trans
  keeps _ _ hsound hgrows := hsound.grow hgrows
  env_rely move store _ := henv move store
  guar_rely _ _ _ _ h := h.appends.grows
  safe writer _ hsound :=
    (((writer.program_safe hsound).and (writer.program_numbered hsound)).widen
      fun _ _ _ h => ⟨h.1, h.2⟩).weaken fun _ _ _ => trivial

/-- What an access of a writer appends to one run: nothing, or what it asked for,
under what it may write at the status of that run. -/
theorem access_logTypes {writer : Writer} {access : StoreAccess} {store next : RunStore}
    (h : Appends writer.Writes access store next) (runId : String) :
    next.logTypes runId = store.logTypes runId ∨
      ∃ types, access = .append runId types ∧ (store.findRun runId).isSome ∧
        next.logTypes runId = store.logTypes runId ++ types ∧
        writer.Writes (statusAfterTypes .created (store.logTypes runId)) types := by
  rcases h with rfl | ⟨target, types, haccess, hextends, hwrites⟩
  · exact Or.inl rfl
  · have htypes := hextends.logTypes runId
    by_cases hrun : runId = target
    · subst hrun
      rw [if_pos rfl] at htypes
      refine Or.inr ⟨types, haccess, hextends.exist, htypes, ?_⟩
      rw [← List.nil_append (store.log runId), statusOf_append_types rfl] at hwrites
      exact hwrites
    · rw [if_neg hrun, List.append_nil] at htypes
      exact Or.inl htypes

end Steps

end Imece.RunRuntime
