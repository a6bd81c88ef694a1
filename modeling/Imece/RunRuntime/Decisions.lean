import Imece.RunRuntime.Writers

/-!
# Decisions on a proposal

`record_proposal_applied` and `record_proposal_rejected` look at the status alone.
A run waits for the user because of a proposal or because of an approval request;
as long as no decision is asked for in the second case, each one answers a
proposal that is still outstanding.
-/
namespace Imece.RunRuntime

open Lib

/-- What settles a proposal without a decision, and the decisions themselves. -/
def superseding : List String := decisions ++ [
  RunEventType.runResumed.value, RunEventType.runCompleted.value, RunEventType.runFailed.value,
  RunEventType.runCancelled.value, RunEventType.runInterrupted.value]

def outstandingStep (pending : Bool) (type : String) : Bool :=
  if type = RunEventType.proposalReady.value then true
  else if superseding.contains type then false
  else pending

/-- The log's last `proposal.ready` is followed by nothing that supersedes it. -/
def outstanding (types : List String) : Bool := types.foldl outstandingStep false

def approvalStep (seen : String × Bool) (type : String) : String × Bool :=
  (type, if type = RunEventType.runWaitingUser.value then
    seen.1 == RunEventType.permissionRequested.value else seen.2)

/-- The log's last `run.waiting_user` directly follows an approval request. -/
def waitsForApproval (types : List String) : Bool := (types.foldl approvalStep ("", false)).2

section Logs

variable {types more : List String}

lemma outstanding_append :
    outstanding (types ++ more) = more.foldl outstandingStep (outstanding types) :=
  List.foldl_append

lemma foldl_outstanding (hkeep : ∀ type ∈ more, type ∉ superseding) :
    more.foldl outstandingStep true = true := by
  induction more with
  | nil => rfl
  | cons type rest ih =>
      have htype : outstandingStep true type = true := by
        unfold outstandingStep
        split
        · rfl
        · rw [if_neg (by simpa using hkeep type List.mem_cons_self)]
      rw [List.foldl_cons, htype]
      exact ih fun t ht => hkeep t (List.mem_cons_of_mem _ ht)

/-- An outstanding proposal stays so under types that do not supersede it. -/
lemma outstanding_keep (h : outstanding types = true)
    (hkeep : ∀ type ∈ more, type ∉ superseding) : outstanding (types ++ more) = true := by
  rw [outstanding_append, h]
  exact foldl_outstanding hkeep

/-- Between a log without an outstanding proposal and a longer one with it lies a
`proposal.ready`. -/
lemma ready_of_outstanding (hnone : outstanding types = false)
    (h : outstanding (types ++ more) = true) : RunEventType.proposalReady.value ∈ more := by
  by_contra hready
  have hstays : more.foldl outstandingStep false = false := by
    clear h
    induction more with
    | nil => rfl
    | cons type rest ih =>
        rw [List.mem_cons, not_or] at hready
        have htype : outstandingStep false type = false := by
          unfold outstandingStep
          rw [if_neg fun h => hready.1 h.symm]
          split <;> rfl
        rw [List.foldl_cons, htype]
        exact ih hready.2
  rw [outstanding_append, hnone, hstays] at h
  cases h

/-- What `outstanding` computes. -/
theorem outstanding_iff : outstanding types = true ↔
    ∃ front back, types = front ++ RunEventType.proposalReady.value :: back ∧
      ∀ type ∈ back, type ∉ superseding := by
  constructor
  · induction types using List.reverseRecOn with
    | nil => exact fun h => by cases h
    | append_singleton front last ih =>
        intro h
        rw [outstanding_append, List.foldl_cons, List.foldl_nil, outstandingStep] at h
        split at h
        · rename_i hready
          exact ⟨front, [], by rw [hready], by simp⟩
        · split at h
          · cases h
          · rename_i hlast
            obtain ⟨before, back, rfl, hback⟩ := ih h
            refine ⟨before, back ++ [last], by simp, fun type htype => ?_⟩
            rcases List.mem_append.mp htype with hmem | hmem
            · exact hback type hmem
            · rw [List.mem_singleton.mp hmem]
              simpa using hlast
  · rintro ⟨front, back, rfl, hback⟩
    rw [outstanding_append, List.foldl_cons]
    exact foldl_outstanding hback

lemma outstanding_decided {decision : String} (h : decision ∈ decisions) :
    outstanding (types ++ [decision]) = false := by
  simp only [decisions, List.mem_cons, List.not_mem_nil, or_false] at h
  rw [outstanding_append, List.foldl_cons, List.foldl_nil]
  rcases h with rfl | rfl <;> rfl

lemma outstanding_proposalBatch : outstanding (types ++ proposalBatch) = true := by
  rw [outstanding_append]
  cases outstanding types <;> rfl

lemma waitsForApproval_approvalBatch : waitsForApproval (types ++ approvalBatch) = true := by
  rw [waitsForApproval, List.foldl_append]
  rfl

/-- Only a `run.waiting_user` changes what a run waits for. -/
lemma waitsForApproval_keep (hwaits : RunEventType.runWaitingUser.value ∉ more) :
    waitsForApproval (types ++ more) = waitsForApproval types := by
  rw [waitsForApproval, List.foldl_append, waitsForApproval]
  generalize types.foldl approvalStep ("", false) = seen
  induction more generalizing seen with
  | nil => rfl
  | cons type rest ih =>
      rw [List.mem_cons, not_or] at hwaits
      rw [List.foldl_cons, ih hwaits.2, approvalStep, if_neg fun h => hwaits.1 h.symm]

lemma statusAfter_waiting {status : RunStatus} {type : String}
    (htype : type ≠ RunEventType.runWaitingUser.value)
    (h : statusAfter status (RunEventType.ofString? type) = .waitingUser) :
    status = .waitingUser ∧ type ∉ superseding := by
  constructor
  · unfold statusAfter at h
    split at h
    case h_3 hkind => exact absurd (RunEventType.eq_value_of_ofString? hkind) htype
    all_goals first | exact h | cases h
  · intro hmem
    simp only [superseding, decisions, List.cons_append, List.nil_append, List.mem_cons,
      List.not_mem_nil, or_false] at hmem
    rcases hmem with rfl | rfl | rfl | rfl | rfl | rfl | rfl <;> simp [statusAfter] at h

/-- Types without a `run.waiting_user` after which a run waits have left it waiting. -/
lemma stays_waiting {status : RunStatus} (hwaits : RunEventType.runWaitingUser.value ∉ more)
    (h : statusAfterTypes status more = .waitingUser) :
    status = .waitingUser ∧ ∀ type ∈ more, type ∉ superseding := by
  induction more generalizing status with
  | nil => exact ⟨h, by simp⟩
  | cons type rest ih =>
      rw [List.mem_cons, not_or] at hwaits
      obtain ⟨hstatus, hrest⟩ := ih hwaits.2 h
      obtain ⟨hfirst, htype⟩ := statusAfter_waiting (fun h => hwaits.1 h.symm) hstatus
      refine ⟨hfirst, fun t ht => ?_⟩
      rcases List.mem_cons.mp ht with rfl | hmem
      · exact htype
      · exact hrest t hmem

end Logs

/-- A log's reason to wait: a proposal nobody has settled, or an approval request. -/
def HasReason (types : List String) : Prop :=
  statusAfterTypes .created types = .waitingUser →
    outstanding types = true ∨ waitsForApproval types = true

lemma HasReason.append {types more : List String} (h : HasReason types)
    (hparks : RunEventType.runWaitingUser.value ∈ more → more = proposalBatch ∨
      more = approvalBatch ∨
      more = [RunEventType.runWaitingUser.value] ∧ outstanding types = true) :
    HasReason (types ++ more) := by
  intro hstatus
  by_cases hwaits : RunEventType.runWaitingUser.value ∈ more
  · rcases hparks hwaits with rfl | rfl | ⟨rfl, hpending⟩
    · exact Or.inl outstanding_proposalBatch
    · exact Or.inr waitsForApproval_approvalBatch
    · exact Or.inl (outstanding_keep hpending (by decide))
  · rw [statusAfterTypes_append] at hstatus
    obtain ⟨hbefore, hkeep⟩ := stays_waiting hwaits hstatus
    rw [waitsForApproval_keep hwaits]
    exact (h hbefore).imp_left fun hpending => outstanding_keep hpending hkeep

/-- A store call of other components, which neither park a run nor decide. -/
abbrev OtherCall := { call : RunStore.StoreCall //
  ∀ type ∈ call.types, type ∉ RunEventType.runWaitingUser.value :: decisions }

def otherCall (move : OtherCall) (store : RunStore) : RunStore := after move.val.run store

/-- The event asks for a decision on a run that waits for an approval and has no
outstanding proposal; or the legacy handler's own `run.waiting_user` finds the
proposal it belongs to superseded. -/
def misplaced {κ : Type} (event : WriterEvent κ) : Bool :=
  match event.cause with
  | .access _ (.append runId types) =>
      let log := event.before.logTypes runId
      !outstanding log && (decisions.any types.contains && waitsForApproval log ||
        types == [RunEventType.runWaitingUser.value])
  | _ => false

/-- The event has appended a decision to the log of a run. -/
def Decides {κ : Type} (event : WriterEvent κ) (runId : String) : Prop :=
  ∃ types, event.after.logTypes runId = event.before.logTypes runId ++ types ∧
    ∃ decision ∈ decisions, decision ∈ types

/-- The state every run of the pool keeps to. -/
def Reasons (store : RunStore) : Prop := ∀ runId, HasReason (store.logTypes runId)

section Steps

variable {event : WriterEvent OtherCall} {runId : String}
  (hok : EventOk otherCall RunStore.Grows WriterGuar RunStore.Sound event)
  (hplaced : misplaced event = false)

include hok hplaced

/-- One event keeps every waiting run's reason to wait. -/
theorem Reasons.step (h : Reasons event.before) : Reasons event.after := by
  intro runId
  have hbefore := h runId
  match hcause : event.cause with
  | .idle => rwa [hok.idle hcause]
  | .env ⟨call, hother⟩ =>
      rw [hok.env _ hcause]
      rcases RunStore.call_logTypes call event.before runId with hsame | hlonger
      · rwa [otherCall, hsame]
      · rw [otherCall, hlonger]
        exact hbefore.append fun hwaits => absurd List.mem_cons_self (hother _ hwaits)
  | .access writer access =>
      rcases access_logTypes (hok.access writer access hcause).appends runId
        with hsame | ⟨types, rfl, -, hlonger, hwrites⟩
      · rwa [hsame]
      · rw [hlonger]
        refine hbefore.append fun hwaits => ?_
        rcases hwrites with hallowed | ⟨-, hpark | hpark⟩
        · rcases hallowed.waits hwaits with hbatch | hbatch
          · exact Or.inl hbatch
          · exact Or.inr (Or.inl hbatch)
        · refine Or.inr (Or.inr ⟨hpark, ?_⟩)
          rw [misplaced, hcause] at hplaced
          simpa [hpark] using hplaced
        · exact Or.inl hpark

/-- A decision that is appended answers an outstanding proposal. -/
theorem Decides.outstanding (runId : String) (h : Reasons event.before) (hdecides : Decides event runId) :
    outstanding (event.before.logTypes runId) = true ∧
      ∃ decision ∈ decisions,
        event.after.logTypes runId = event.before.logTypes runId ++ [decision] := by
  obtain ⟨appended, hlog, decision, hdecision, hmem⟩ := hdecides
  have hunchanged : event.after.logTypes runId ≠ event.before.logTypes runId := by
    intro hsame
    rw [hsame, List.self_eq_append_right] at hlog
    rw [hlog] at hmem
    cases hmem
  match hcause : event.cause with
  | .idle => exact absurd (by rw [hok.idle hcause]) hunchanged
  | .env ⟨call, hother⟩ =>
      have hafter := hok.env _ hcause
      rcases RunStore.call_logTypes call event.before runId with hsame | hlonger
      · exact absurd (by rw [hafter]; exact hsame) hunchanged
      · have hcall : appended = call.types := by
          rw [hafter, otherCall, hlonger] at hlog
          exact (List.append_cancel_left hlog).symm
        exact absurd (List.mem_cons_of_mem _ hdecision) (hother decision (hcall ▸ hmem))
  | .access writer access =>
      rcases access_logTypes (hok.access writer access hcause).appends runId
        with hsame | ⟨types, rfl, -, hlonger, hwrites⟩
      · exact absurd hsame hunchanged
      · rw [hlonger] at hlog
        obtain rfl := List.append_cancel_left hlog
        rcases hwrites with hallowed | ⟨-, rfl | rfl⟩
        · obtain ⟨hwaiting, rfl⟩ := hallowed.decides decision hdecision hmem
          refine ⟨?_, decision, hdecision, hlonger⟩
          rcases h runId hwaiting with hpending | happroval
          · exact hpending
          · rw [misplaced, hcause] at hplaced
            by_contra hnone
            rw [Bool.not_eq_true] at hnone
            have hasks : decisions.any [decision].contains = true :=
              List.any_eq_true.mpr ⟨decision, hdecision, by simp⟩
            simp only [hnone, happroval, hasks] at hplaced
            cases hplaced
        · simp only [decisions, List.mem_cons, List.not_mem_nil, or_false] at hdecision hmem
          rcases hdecision with rfl | rfl <;> simp [RunEventType.value] at hmem
        · simp only [decisions, proposalBatch, List.mem_cons, List.not_mem_nil, or_false]
            at hdecision hmem
          rcases hdecision with rfl | rfl <;> simp [RunEventType.value] at hmem

end Steps

/-- The log of every run only grows along a stretch of a trace. -/
lemma logTypes_prefix {κ : Type} {start : RunStore} {stretch : List (WriterEvent κ)}
    (hchain : stretch.IsChain (fun a b => a.after = b.before))
    (hfirst : ∀ event ∈ stretch.head?, event.before = start)
    (hgrows : ∀ event ∈ stretch, RunStore.Grows event.before event.after) (runId : String) :
    ∀ event ∈ stretch, start.logTypes runId <+: event.before.logTypes runId := by
  have hholds := trace_invariant (I := fun store => start.logTypes runId <+:
      store.logTypes runId) hchain
    (fun event hevent => by rw [hfirst event hevent])
    (fun event hevent hbefore => hbefore.trans (((hgrows event hevent).log runId).map _))
  exact fun event hevent => (hholds event hevent).1

/-- Over every schedule of the writers, from an empty store: if no decision is asked
for on a run that waits for an approval alone, and no legacy proposal is superseded
before its own `run.waiting_user`, then each decision that is appended answers a
`proposal.ready` that nothing has superseded, and two decisions on a run have a
`proposal.ready` between them. -/
theorem decisions_answer_proposals (schedule : List (Choice Writer OtherCall)) :
    let trace := ((startPool .initial).play otherCall Writer.program schedule).1
    (∀ event ∈ trace, misplaced event = false) →
      (∀ event ∈ trace, ∀ runId, Decides event runId →
        (∃ front back,
          event.before.logTypes runId = front ++ RunEventType.proposalReady.value :: back ∧
            ∀ type ∈ back, type ∉ superseding) ∧
        ∃ decision ∈ decisions,
          event.after.logTypes runId = event.before.logTypes runId ++ [decision]) ∧
      ∀ front first between second back runId,
        trace = front ++ first :: (between ++ second :: back) →
        Decides first runId → Decides second runId →
        ∃ since, second.before.logTypes runId = first.after.logTypes runId ++ since ∧
          RunEventType.proposalReady.value ∈ since := by
  intro trace hplaced
  have hevents := (Pool.play_safe (writerPool otherCall
    fun move => RunStore.grows_after move.val)
    (PoolInvariant.start RunStore.initial_consistent) schedule).1
  have hchain : trace.IsChain (fun a b => a.after = b.before) := Pool.play_chain _ _ _ _
  have hreasons := trace_invariant (I := Reasons) hchain
    (fun event hevent => by
      rw [Pool.play_head _ _ event hevent]
      exact fun _ hwaiting => by cases hwaiting)
    (fun event hevent => Reasons.step (hevents event hevent) (hplaced event hevent))
  have hanswers := fun event hevent runId => Decides.outstanding
    (hevents event hevent) (hplaced event hevent) runId (hreasons event hevent).1
  refine ⟨fun event hevent runId hdecides => ?_, ?_⟩
  · obtain ⟨hpending, hdecided⟩ := hanswers event hevent runId hdecides
    exact ⟨outstanding_iff.mp hpending, hdecided⟩
  · intro front first between second back runId hsplit hfirst hsecond
    have hmem : ∀ event ∈ first :: (between ++ second :: back), event ∈ trace :=
      fun event hevent => hsplit ▸ List.mem_append_right front hevent
    have hsettled : outstanding (first.after.logTypes runId) = false := by
      obtain ⟨-, decision, hdecision, hlog⟩ := hanswers first (hmem _ (by simp)) runId hfirst
      rw [hlog]
      exact outstanding_decided hdecision
    have hpending := (hanswers second (hmem _ (by simp)) runId hsecond).1
    have hlater : (first :: (between ++ second :: back)).IsChain
        (fun a b => a.after = b.before) :=
      List.IsChain.right_of_append (hsplit ▸ hchain : (front ++ _).IsChain _)
    rw [List.isChain_cons] at hlater
    obtain ⟨since, hsince⟩ := logTypes_prefix hlater.2
      (fun event hevent => (hlater.1 event hevent).symm)
      (fun event hevent => (hevents event (hmem _ (List.mem_cons_of_mem _ hevent))).rely)
      runId second (by simp)
    rw [← hsince] at hpending
    exact ⟨since, hsince.symm, ready_of_outstanding hsettled hpending⟩

section Sample

def sampleArgs (type : RunEventType) : EventArgs where
  type := type.value
  payload := payloadOf []

/-- A run is created and started. -/
def startMoves : List (Choice Writer OtherCall) :=
  [.env ⟨.createTask { projectRoot := "/p", prompt := "fix", taskId := some "t" } ⟨"u0", 0⟩,
      by decide⟩,
   .env ⟨.createRun { taskId := "t", runId := some "r" } ⟨"u1", 0⟩, by decide⟩,
   .env ⟨.appendEvent "r" (sampleArgs .runCreated) .none ⟨"e0", 0⟩, by decide⟩,
   .env ⟨.appendEvent "r" (sampleArgs .runStarted) .none ⟨"e1", 0⟩, by decide⟩]

def applyWriter : Writer := .recordProposalApplied "r" ["a.py"] "c" ⟨"d", 0⟩

/-- The pipeline parks the run with a proposal, and the user applies it. -/
def appliedSchedule : List (Choice Writer OtherCall) :=
  startMoves ++ [.spawn (.needsUser "r" (payloadOf []) none "pipeline" (⟨"p0", 0⟩, ⟨"p1", 0⟩)),
    .act 0, .act 0, .spawn applyWriter, .act 1, .act 1]

/-- An agent asks for an approval, and the user's Apply arrives while it waits. -/
def approvalSchedule : List (Choice Writer OtherCall) :=
  let asks : AgentRuntime.AgentEvent :=
    ⟨"x", .approvalRequested 0 "turn" "item" "call" "shell" "fp" []⟩
  startMoves ++ [.spawn (.nativeAgent "r" (some "x") [(asks, fun i => ⟨"n" ++ toString i, 0⟩)]),
    .act 0, .act 0, .spawn applyWriter, .act 1, .act 1]

def traceOf (schedule : List (Choice Writer OtherCall)) : List (WriterEvent OtherCall) :=
  ((startPool .initial).play otherCall Writer.program schedule).1

theorem decisions_answer_proposals_sample :
    (traceOf appliedSchedule).map (fun event => (event.after.logTypes "r").drop 2) =
      [[], [], [], [], [], [], ["proposal.ready", "run.waiting_user"],
        ["proposal.ready", "run.waiting_user"], ["proposal.ready", "run.waiting_user"],
        ["proposal.ready", "run.waiting_user", "proposal.applied"]] ∧
    ∀ event ∈ traceOf appliedSchedule, ∀ runId, Decides event runId →
      (∃ front back,
        event.before.logTypes runId = front ++ RunEventType.proposalReady.value :: back ∧
          ∀ type ∈ back, type ∉ superseding) ∧
      ∃ decision ∈ decisions,
        event.after.logTypes runId = event.before.logTypes runId ++ [decision] :=
  ⟨by decide +kernel, (decisions_answer_proposals appliedSchedule (by decide +kernel)).1⟩

/-- A decision recorded on a run without any `proposal.ready`. -/
theorem approval_decided :
    ¬ ∀ event ∈ traceOf approvalSchedule, ∀ runId, Decides event runId →
      ∃ front back,
        event.before.logTypes runId = front ++ RunEventType.proposalReady.value :: back ∧
          ∀ type ∈ back, type ∉ superseding := by
  intro h
  have hlog : ((traceOf approvalSchedule).get ⟨9, by decide +kernel⟩).before.logTypes "r" =
      ["run.created", "run.started", "permission.requested", "run.waiting_user"] := by
    decide +kernel
  obtain ⟨front, back, hready, -⟩ := h _ (List.get_mem _ ⟨9, by decide +kernel⟩) "r"
    ⟨["proposal.applied"], by decide +kernel, "proposal.applied", by decide, by decide⟩
  have hmem : RunEventType.proposalReady.value ∈
      ["run.created", "run.started", "permission.requested", "run.waiting_user"] := by
    rw [← hlog, hready]
    simp
  exact absurd hmem (by decide)

end Sample

end Imece.RunRuntime
