import Imece.CollabRuntime.HubRuns

/-!
# Who changes a hub

A coordinator's credentials authorize every change of the session it keeps, and a hub holds
a proposal exactly as its announcement has it.
-/
namespace Imece.CollabRuntime

open Lib

section Authority

variable {δ φ : Type} [DecidableEq δ]

/-- The operations of a coordinator. -/
inductive CoordinatorCall where
  | snapshot
  | updateContext (credential : String) (context : ContextInput) (expectedRevision : String)
  | updateTaskStatus (credential taskId status expectedRevision : String)
  | createTask (credential taskId owner goal : String) (scopes : List String)
      (expectedRevision : String)

def CoordinatorCall.hubCall (coordinator : Coordinator δ) : CoordinatorCall → HubCall δ φ
  | .snapshot => .sync
  | .updateContext credential context expected => .ownerContext coordinator credential context expected
  | .updateTaskStatus credential taskId status expected =>
      .taskStatus coordinator credential taskId status expected
  | .createTask credential taskId owner goal scopes expected =>
      .createTask coordinator credential taskId owner goal scopes expected

/-- The credential has the digest that the coordinator keeps for a member. -/
def Coordinator.Holds (sha256 : String → δ) (coordinator : Coordinator δ) (credential member : String) :
    Prop :=
  isCredential credential = true ∧ (member, sha256 credential) ∈ coordinator.credentialHashes

/-- A change of the session that its members may make: only with the owner's credential does
the context change or a task appear, and only with the owner's or the assignee's does a task
change, and then in its status. -/
structure Authorized (sha256 : String → δ) (coordinator : Coordinator δ) (call : CoordinatorCall)
    (old new : SessionState) : Prop where
  identity : new.pinnedIdentity = old.pinnedIdentity
  context : new.context ≠ old.context → ∃ credential context expected,
    call = .updateContext credential context expected ∧
      coordinator.Holds sha256 credential coordinator.ownerId
  created : ∀ (id : String) (task : Task), old.tasks[id]? = none → new.tasks[id]? = some task →
    task.status = "queued" ∧ task.owner ∈ coordinator.credentialHashes.map (·.1) ∧
      ∃ credential goal scopes expected,
        call = .createTask credential id task.owner goal scopes expected ∧
          coordinator.Holds sha256 credential coordinator.ownerId
  kept : ∀ (id : String) (task : Task), old.tasks[id]? = some task → ∃ status,
    new.tasks[id]? = some { task with status := status } ∧
      (status ≠ task.status → ∃ credential member expected,
        call = .updateTaskStatus credential id status expected ∧
          coordinator.Holds sha256 credential member ∧
          (member = coordinator.ownerId ∨ member = task.owner))

variable {sha256 : String → δ} {coordinator : Coordinator δ} {w : World} {head : String}
  {old source : SessionState}

lemma authenticate_ok {credential member : String}
    (h : coordinator.authenticate sha256 credential = .ok member) :
    coordinator.Holds sha256 credential member := by
  unfold Coordinator.authenticate credentialHash at h
  by_cases hcredential : isCredential credential = true
  swap
  · rw [if_neg hcredential] at h
    cases h
  rw [if_pos hcredential] at h
  simp only at h
  cases hlast : (coordinator.credentialHashes.filter
      fun entry => decide (entry.2 = sha256 credential)).getLast? with
  | none =>
      rw [hlast] at h
      cases h
  | some entry =>
      simp only [hlast, Except.ok.injEq] at h
      obtain ⟨hmem, hdigest⟩ := List.mem_filter.mp (List.mem_of_getLast? hlast)
      rw [decide_eq_true_eq] at hdigest
      refine ⟨hcredential, ?_⟩
      rw [← hdigest, ← h]
      exact hmem

lemma validatedContext_valid {input : ContextInput} {context : SharedContext}
    (h : validatedContext input = .ok context) : context.Valid := by
  cases input with
  | shared given =>
      change (if _ ≠ _ then _ else _) = _ at h
      by_cases hnames : (Json.dictOf given.interfaces).length ≠ given.interfaces.length
      · rw [if_pos hnames] at h
        cases h
      · rw [if_neg hnames] at h
        exact parseContext_valid h
  | dict raw =>
      cases raw with
      | obj members =>
          simp only [validatedContext] at h
          split_ifs at h
          simp only [buildContextOf, except_bind_eq_ok] at h
          obtain ⟨_, -, _, -, h⟩ := h
          exact parseContext_valid h
      | null | bool | int | float | str | arr => cases h

/-- A task of a valid session is its own normal form under its key. -/
lemma normal_of_task (hvalid : old.Valid) {id : String} {task : Task}
    (htask : old.tasks[id]? = some task) : task.normal id = task := by
  obtain ⟨hfine, hid⟩ := hvalid.tasks id task htask
  rw [← hid, hfine.normal]

/-- The tasks after one of them was set. -/
lemma tasks_withTask (hvalid : old.Valid) {task : Task} (htask : task.Valid) (id : String) :
    (old.withTask task).normal.tasks[id]? = if task.id = id then some task else old.tasks[id]? := by
  simp only [SessionState.normal, SessionState.withTask, Std.ExtTreeMap.getElem?_map,
    Std.ExtTreeMap.getElem?_insert, Std.LawfulEqCmp.compare_eq_iff_eq]
  by_cases hid : task.id = id
  · rw [if_pos hid, Option.map_some, ← hid, htask.normal]
  · rw [if_neg hid]
    cases hold : old.tasks[id]? with
    | none => rfl
    | some kept => rw [Option.map_some, normal_of_task hvalid hold]

lemma authorized_updateContext {credential expected : String} {input : ContextInput}
    (hvalid : old.Valid)
    (h : ((CoordinatorCall.updateContext credential input expected).hubCall coordinator :
      HubCall δ φ).Declares sha256 w head old source) :
    Authorized sha256 coordinator (.updateContext credential input expected) old source.normal := by
  obtain ⟨-, howner, context, hcontext, rfl⟩ := h
  have hnormal : (old.withContext context).normal = old.withContext context := by
    have hold := congrArg SessionState.tasks hvalid.normal
    have hnew := (validatedContext_valid hcontext).normal
    unfold SessionState.normal SessionState.withContext at *
    simp only [SessionState.mk.injEq, true_and]
    exact ⟨hnew, hold⟩
  rw [hnormal]
  refine ⟨rfl, fun _ => ⟨credential, input, expected, rfl, authenticate_ok howner⟩, ?_, ?_⟩
  · intro id task hnone hsome
    change old.tasks[id]? = some task at hsome
    rw [hnone] at hsome
    cases hsome
  · exact fun id task htask => ⟨task.status, htask, fun hne => absurd rfl hne⟩

lemma authorized_updateTaskStatus {credential taskId status expected : String} (hvalid : old.Valid)
    (h : ((CoordinatorCall.updateTaskStatus credential taskId status expected).hubCall coordinator :
      HubCall δ φ).Declares sha256 w head old source) :
    Authorized sha256 coordinator (.updateTaskStatus credential taskId status expected) old
      source.normal := by
  obtain ⟨-, hstatus, member, changed, hmember, hchanged, hallowed, -, rfl⟩ := h
  obtain ⟨hfine, hid⟩ := hvalid.tasks taskId changed hchanged
  have hmade : ({ changed with status := status } : Task).Valid :=
    ⟨hfine.owner, hfine.goal, hfine.scopes, hstatus, hfine.id, hfine.contextRevision⟩
  have htasks (id : String) : (old.withTask { changed with status := status }).normal.tasks[id]? =
      if taskId = id then some { changed with status := status } else old.tasks[id]? := by
    rw [← hid]
    exact tasks_withTask hvalid hmade id
  refine ⟨rfl, fun hne => absurd hvalid.context.normal hne, ?_, ?_⟩
  · intro id task hnone hsome
    rw [htasks id] at hsome
    by_cases hsame : taskId = id
    · rw [← hsame, hchanged] at hnone
      cases hnone
    · rw [if_neg hsame, hnone] at hsome
      cases hsome
  · intro id task htask
    by_cases hsame : taskId = id
    · subst hsame
      rw [hchanged] at htask
      cases htask
      refine ⟨status, by rw [htasks, if_pos rfl], fun _ => ?_⟩
      exact ⟨credential, member, expected, rfl, authenticate_ok hmember, hallowed⟩
    · exact ⟨task.status, by rw [htasks, if_neg hsame, htask], fun hne => absurd rfl hne⟩

lemma authorized_createTask {credential taskId owner goal expected : String}
    {scopes : List String} (hvalid : old.Valid)
    (h : ((CoordinatorCall.createTask credential taskId owner goal scopes expected).hubCall
      coordinator : HubCall δ φ).Declares sha256 w head old source) :
    Authorized sha256 coordinator (.createTask credential taskId owner goal scopes expected) old
      source.normal := by
  obtain ⟨-, howner, hassignee, hfresh, -, made, hmade, rfl⟩ := h
  obtain ⟨hfine, hid⟩ := parseTask_valid hmade
  obtain ⟨get, hobj, hfields⟩ :=
    taskDocument_toDict (⟨taskId, owner, goal, scopes, "queued", expected⟩ : Task)
  obtain ⟨-, hnormal⟩ := (@parseTask_document _ _ _ taskId _ hobj hfields).mp hmade
  have hassigned : made.owner = owner := by rw [hnormal]; rfl
  have hqueued : made.status = "queued" := by rw [hnormal]; rfl
  have htasks := tasks_withTask hvalid hfine
  simp only [hid] at htasks
  refine ⟨rfl, fun hne => absurd hvalid.context.normal hne, ?_, ?_⟩
  · intro id task hnone hsome
    rw [htasks id] at hsome
    by_cases hsame : taskId = id
    · rw [if_pos hsame, Option.some.injEq] at hsome
      subst hsome hsame
      rw [hassigned]
      exact ⟨hqueued, hassignee, credential, goal, scopes, expected, rfl, authenticate_ok howner⟩
    · rw [if_neg hsame, hnone] at hsome
      cases hsome
  · intro id task htask
    have hne : taskId ≠ id := by
      rintro rfl
      exact hfresh (Std.ExtTreeMap.mem_iff_isSome_getElem?.mpr (by rw [htask]; rfl))
    exact ⟨task.status, by rw [htasks, if_neg hne, htask], fun hne => absurd rfl hne⟩

/-- Every change of the session in a trace is one that its caller's credential authorizes
against the state that it replaces. -/
def AuthorizedTrace (sha256 : String → δ) (coordinator : Coordinator δ)
    (trace : List (PoolEvent (ℕ × CoordinatorCall) Weather GitStep World)) : Prop :=
  ∀ event ∈ trace, event.after.head ≠ event.before.head →
    ∃ (name : ℕ × CoordinatorCall) (label : GitStep) (parent commit : String)
        (old : SessionState),
      event.cause = .access name label ∧ event.before.head = some parent ∧
        event.after.head = some commit ∧ event.before.stateAt parent = .ok old ∧
        ∀ new, event.after.stateAt commit = .ok new →
          Authorized sha256 coordinator name.2 old new

/-- However the calls of a coordinator's members are interleaved, and whatever git commands
fail: the session changes only as the callers' credentials authorize. -/
theorem coordinator_authority (sha256 : String → δ) (format : ProposalFormat φ)
    (coordinator : Coordinator δ) (start : World)
    (choices : List (Choice (ℕ × CoordinatorCall) Weather)) :
    let client := fun name : ℕ × CoordinatorCall =>
      (⟨name.1, name.2.hubCall coordinator⟩ : ClientCall δ φ)
    AuthorizedTrace sha256 coordinator
      (HubPool.run sha256 format client ⟨start, []⟩ choices).1 := by
  intro client event hevent hmoved
  have hstart : PoolInvariant (HubMove format) _ (fun _ => True) _ _ :=
    hub_start sha256 format client start trivial
  obtain ⟨hevents, -⟩ := Pool.play_safe (hubPool sha256 format client fun _ _ _ _ => trivial) hstart choices
  have hok := hevents event hevent
  cases hcause : event.cause with
  | env weather =>
      rw [hok.env weather hcause] at hmoved
      exact absurd rfl hmoved
  | idle =>
      rw [hok.idle hcause] at hmoved
      exact absurd rfl hmoved
  | access name label =>
      obtain ⟨commit, message, source, hcommit, hmade, hfollows⟩ :=
        (hok.access name label hcause).head.resolve_left hmoved
      cases hparent : event.before.head with
      | none =>
          rw [hparent] at hfollows
          obtain ⟨store, call⟩ := name
          cases call <;> cases hfollows
      | some parent =>
          rw [hparent] at hfollows
          obtain ⟨old, hold, hidentity, hdeclares⟩ := hfollows
          have hbefore : event.before.stateAt parent = .ok old := by
            rw [← hold, World.stateAt_of_extends hok.rely.grows
              (event.before.head_known parent hparent)]
          refine ⟨name, label, parent, commit, old, rfl, rfl, hcommit, hbefore, fun new hnew => ?_⟩
          obtain ⟨-, rfl⟩ := hmade.read.mp hnew
          have hvalid := World.stateAt_valid hold
          obtain ⟨store, call⟩ := name
          cases call with
          | snapshot => exact hdeclares.elim
          | updateContext credential input expected => exact authorized_updateContext hvalid hdeclares
          | updateTaskStatus credential taskId status expected =>
              exact authorized_updateTaskStatus hvalid hdeclares
          | createTask credential taskId owner goal scopes expected =>
              exact authorized_createTask hvalid hdeclares

end Authority

section Announcements

variable {δ φ ι : Type} [DecidableEq δ]

/-- In every state that a fresh hub can reach, each proposal stands beside the revision that
announces it and has the provenance it records; it is never replaced, and only the call that
publishes a proposal adds one. -/
theorem proposals_announced (sha256 : String → δ) (format : ProposalFormat φ)
    (client : ι → ClientCall δ φ) (fresh : String) (choices : List (Choice ι Weather)) :
    let run := HubPool.run sha256 format client ⟨emptyWorld fresh, []⟩ choices
    AllAnnounced format run.2.shared ∧
      ∀ event ∈ run.1, AllAnnounced format event.after ∧
        (∀ id root : String, event.after.proposals[id]? = some root →
          run.2.shared.proposals[id]? = some root) ∧
        ∀ id root : String, event.before.proposals[id]? = none →
          event.after.proposals[id]? = some root → ∃ name label proposal expected,
            event.cause = .access name label ∧
              (client name).call = .publishProposal proposal expected := by
  have hnone : AllAnnounced format (emptyWorld fresh) := by
    intro id root hroot
    simp [emptyWorld] at hroot
  have hstart := hub_start sha256 format client _ hnone
  have hpool := hubPool sha256 format client (fun _ _ => AllAnnounced.later)
  obtain ⟨hevents, hlast⟩ := Pool.play_safe hpool hstart choices
  obtain ⟨hreached, -⟩ := Pool.play_reaches hpool hstart choices
  refine ⟨hlast.inv, fun event hevent => ?_⟩
  have hok := hevents event hevent
  refine ⟨hok.inv.later hok.rely, (hreached event hevent).kept, fun id root hbefore hafter => ?_⟩
  cases hcause : event.cause with
  | env weather =>
      rw [hok.env weather hcause] at hafter
      rw [show event.before.proposals[id]? = some root from hafter] at hbefore
      cases hbefore
  | idle =>
      rw [hok.idle hcause, hbefore] at hafter
      cases hafter
  | access name label =>
      rcases (hok.access name label hcause).announced id root hafter with
        hold | ⟨-, proposal, expected, hcall⟩
      · rw [hbefore] at hold
        cases hold
      · exact ⟨name, label, proposal, expected, rfl, hcall⟩

end Announcements

end Imece.CollabRuntime
