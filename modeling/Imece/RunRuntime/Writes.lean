import Imece.RunRuntime.Sinks

/-!
# What the writers may append

The one fact about each writer that the properties of whole runs are derived from:
what its accesses append, and at which status of the run.
-/
namespace Imece.RunRuntime

open Lib

/-- Events of these types leave every status as it is. -/
def Neutral (types : List String) : Prop :=
  ∀ type ∈ types, ∀ status, statusAfter status (RunEventType.ofString? type) = status

theorem Neutral.statusAfterTypes {types : List String} (h : Neutral types) (status : RunStatus) :
    statusAfterTypes status types = status := by
  induction types with
  | nil => rfl
  | cons type rest ih =>
      have hrest := ih fun t ht => h t (List.mem_cons_of_mem _ ht)
      rw [RunRuntime.statusAfterTypes, List.foldl_cons, h type (by simp)]
      exact hrest

/-- The two batches that park a run in `WAITING_USER`. -/
def proposalBatch : List String :=
  [RunEventType.proposalReady.value, RunEventType.runWaitingUser.value]

def approvalBatch : List String :=
  [RunEventType.permissionRequested.value, RunEventType.runWaitingUser.value]

/-- The user's decisions on a proposal. -/
def decisions : List String :=
  [RunEventType.proposalApplied.value, RunEventType.proposalRejected.value]

/-- What a guarded writer appends: it moves the status only of a run that is not
over, it parks a run only by one of the two batches, and it records a decision
only on a run that waits. -/
structure Allowed (status : RunStatus) (types : List String) : Prop where
  moves : Neutral types ∨ status.isTerminal = false
  waits : RunEventType.runWaitingUser.value ∈ types →
    types = proposalBatch ∨ types = approvalBatch
  decides : ∀ decision ∈ decisions, decision ∈ types →
    status = .waitingUser ∧ types = [decision]

lemma Neutral.not_waits {types : List String} (h : Neutral types) :
    RunEventType.runWaitingUser.value ∉ types := by
  intro hmem
  have hwait := h _ hmem .created
  simp [statusAfter] at hwait

lemma Neutral.not_decides {types : List String} (h : Neutral types) :
    ∀ decision ∈ decisions, decision ∉ types := by
  intro decision hdecision hmem
  have hdecide := h _ hmem .created
  simp only [decisions, List.mem_cons, List.not_mem_nil, or_false] at hdecision
  rcases hdecision with rfl | rfl <;> simp [statusAfter] at hdecide

theorem Allowed.ofNeutral {status : RunStatus} {types : List String} (h : Neutral types) :
    Allowed status types where
  moves := Or.inl h
  waits hmem := absurd hmem h.not_waits
  decides decision hdecision hmem := absurd hmem (h.not_decides decision hdecision)

/-- A batch without waits and decisions, on a run that is not over. -/
theorem Allowed.ofOpen {status : RunStatus} {types : List String}
    (hopen : status.isTerminal = false)
    (hwaits : RunEventType.runWaitingUser.value ∉ types)
    (hdecides : ∀ decision ∈ decisions, decision ∉ types) : Allowed status types where
  moves := Or.inr hopen
  waits hmem := absurd hmem hwaits
  decides decision hdecision hmem := absurd hmem (hdecides decision hdecision)

theorem Allowed.proposal {status : RunStatus} (hopen : status.isTerminal = false) :
    Allowed status proposalBatch where
  moves := Or.inr hopen
  waits _ := Or.inl rfl
  decides decision hdecision hmem := by
    simp only [decisions, proposalBatch, List.mem_cons, List.not_mem_nil, or_false] at *
    rcases hdecision with rfl | rfl <;> simp [RunEventType.value] at hmem

theorem Allowed.approval {status : RunStatus} (hopen : status.isTerminal = false) :
    Allowed status approvalBatch where
  moves := Or.inr hopen
  waits _ := Or.inr rfl
  decides decision hdecision hmem := by
    simp only [decisions, approvalBatch, List.mem_cons, List.not_mem_nil, or_false] at *
    rcases hdecision with rfl | rfl <;> simp [RunEventType.value] at hmem

theorem Allowed.decision {type : String} (hdecision : type ∈ decisions) :
    Allowed .waitingUser [type] where
  moves := Or.inr rfl
  waits hmem := by
    simp only [decisions, List.mem_cons, List.not_mem_nil, or_false] at *
    rcases hdecision with rfl | rfl <;> simp [RunEventType.value] at hmem
  decides decision _ hmem := by
    rw [List.mem_singleton] at hmem
    exact ⟨rfl, by rw [hmem]⟩

/-- Neutral events, and after them one that ends or resumes a run that is not over. -/
theorem Allowed.closing (type : RunEventType) (front : List String) {status : RunStatus}
    (hfront : Neutral front) (hopen : status.isTerminal = false)
    (hwaits : type ≠ .runWaitingUser)
    (hdecides : type ≠ .proposalApplied ∧ type ≠ .proposalRejected) :
    Allowed status (front ++ [type.value]) := by
  have hinj : ∀ other : RunEventType, other.value = type.value → other = type := fun other h => by
    simpa using congrArg RunEventType.ofString? h
  refine .ofOpen hopen ?_ ?_
  · rw [List.mem_append, List.mem_singleton, not_or]
    exact ⟨hfront.not_waits, fun h => hwaits (hinj _ h).symm⟩
  · intro decision hdecision hmem
    rcases List.mem_append.mp hmem with hmem | hmem
    · exact hfront.not_decides decision hdecision hmem
    · rw [List.mem_singleton] at hmem
      simp only [decisions, List.mem_cons, List.not_mem_nil, or_false] at hdecision
      rcases hdecision with rfl | rfl
      · exact hdecides.1 (hinj _ hmem).symm
      · exact hdecides.2 (hinj _ hmem).symm

theorem Allowed.single (type : RunEventType) {status : RunStatus}
    (hopen : status.isTerminal = false) (hwaits : type ≠ .runWaitingUser)
    (hdecides : type ≠ .proposalApplied ∧ type ≠ .proposalRejected) :
    Allowed status [type.value] :=
  .closing type [] (by simp [Neutral]) hopen hwaits hdecides

/-- A safe program under a guarantee that is at most `Allowed`. -/
abbrev Guarded {α : Type} (p : RunProg α) (store : RunStore)
    (post : Except RunRuntimeError α → RunStore → Prop) : Prop :=
  p.Safe RunStore.Grows (Appends Allowed) post store

section Rules

variable {store : RunStore}

theorem Guarded.reached {α : Type} {p : RunProg α}
    {post : Except RunRuntimeError α → RunStore → Prop} (h : Guarded p store post) :
    Guarded p store (fun r t => post r t ∧ RunStore.Grows store t) :=
  Prog.Safe.reached (G := Appends Allowed) (fun _ _ _ hab hbc => hab.trans hbc)
    (fun _ _ _ hguar => hguar.grows) h

lemma readOnly_safe {α : Type} {p : RunProg α} (hp : p.ReadOnly) (hsound : store.Sound) :
    Guarded p store (fun _ t => t.Sound) :=
  (hp.safe (fun _ _ _ hab hbc => hab.trans hbc) (fun label a => .refl _ label a) store).weaken
    fun _ _ ht => hsound.grow ht

/-- A sink's batch of neutral events, wherever its number points. -/
lemma neutral_commit {runId : String} {specs : List EventArgs} {expected : ℕ}
    {fresh : ℕ → Fresh} (hsound : store.Sound) (hneutral : Neutral (specs.map (·.type))) :
    Guarded (commitSpecs runId specs expected fresh) store (fun _ t => t.Sound) :=
  (commitSpecs_safe Allowed _ _ hsound fun _ _ _ => .ofNeutral hneutral).weaken fun _ _ h => h.1

/-- A method that neither reads nor writes. -/
lemma ended_sound {α : Type} (object : α) (outcome : Except RunRuntimeError Unit)
    (hsound : store.Sound) :
    Guarded (pure ⟨object, outcome⟩ : RunProg (Ended α)) store (fun _ t => t.Sound) :=
  fun _ ht => hsound.grow ht

end Rules

end Imece.RunRuntime
