import Imece.CollabRuntime.Coordinator

/-!
# What a call may do to the hub

Every access of a call to the hub is quiet, or it is the step to the next revision: one
that the call declares, made from the revision the hub is at. A proposal comes with the
revision that announces it.
-/
namespace Imece.CollabRuntime

open Lib

section Revisions

/-- What `_commit` makes of a state over a parent. -/
def World.Revision (w : World) (commit : String) (parent : Option String) (message : String)
    (source : SessionState) : Prop :=
  ∃ payload, statePayload source = .ok payload ∧
    w.commits.find commit = some ⟨commit, parent.toList, ⟨statePath, payload, message⟩⟩

variable {w t : World} {commit message : String} {parent : Option String}
  {source state : SessionState}

lemma World.Revision.known (h : w.Revision commit parent message source) :
    commit ∈ w.commits.names := by
  obtain ⟨payload, -, hfind⟩ := h
  exact (Versions.find_some hfind).2

lemma World.Revision.later (h : w.Revision commit parent message source)
    (hgrows : w.commits.Extends t.commits) : t.Revision commit parent message source := by
  have hknown := h.known
  obtain ⟨payload, hpayload, hfind⟩ := h
  exact ⟨payload, hpayload, by rw [hgrows.find hknown, hfind]⟩

/-- A revision is read back in the normal form of the state it was made from, if at all. -/
theorem World.Revision.read (h : w.Revision commit parent message source) :
    w.stateAt commit = .ok state ↔ source.normal.NoDrive ∧ state = source.normal := by
  obtain ⟨payload, hpayload, hfind⟩ := h
  obtain ⟨hadmissible, heq, hsize⟩ := statePayload_eq_ok.mp hpayload
  have hread : w.stateAt commit = readPayload payload := World.stateAt_of_find hfind rfl
  rw [hread, heq]
  rw [heq] at hsize
  exact readPayload_normal hadmissible hsize

lemma World.stateAt_known (h : w.stateAt commit = .ok state) : commit ∈ w.commits.names := by
  rw [World.stateAt] at h
  cases hfind : w.commits.find commit with
  | some version => exact (Versions.find_some hfind).2
  | none =>
      rw [hfind] at h
      cases h

lemma World.stateAt_later (h : w.stateAt commit = .ok state)
    (hgrows : w.commits.Extends t.commits) : t.stateAt commit = .ok state := by
  rw [World.stateAt_of_extends hgrows (World.stateAt_known h), h]

lemma World.stateAt_valid (h : w.stateAt commit = .ok state) : state.Valid := by
  rw [World.stateAt] at h
  cases hfind : w.commits.find commit with
  | none =>
      rw [hfind] at h
      cases h
  | some version =>
      simp only [hfind] at h
      by_cases hpath : version.content.path = statePath
      · rw [if_pos hpath] at h
        exact readPayload_valid h
      · rw [if_neg hpath] at h
        cases h

/-- The hub's branch has, or had, a revision with this state. -/
structure World.Seen (w : World) (revision : String) (state : SessionState) : Prop where
  reached : ∃ head, w.head = some head ∧ w.commits.isAncestor revision head = true
  state : w.stateAt revision = .ok state

end Revisions

section Moves

variable {δ φ : Type} [DecidableEq δ] (sha256 : String → δ) (format : ProposalFormat φ)

/-- What a call may publish as the next state after `current`, which is read at `head`. -/
def HubCall.Declares (w : World) (head : String) (current source : SessionState) :
    HubCall δ φ → Prop
  | .sync => False
  | .initSession _ => False
  | .publish state expected => head = expected ∧ source = state
  | .updateContext context => source = current.withContext context
  | .upsertTask task =>
      source = current.withTask task ∧
        (task.id ∈ current.tasks ∨ current.tasks.size < maxTasks) ∧
        w.commits.isAncestor task.contextRevision head = true
  | .ownerContext coordinator credential input expected =>
      head = expected ∧ coordinator.authenticate sha256 credential = .ok coordinator.ownerId ∧
        ∃ context, validatedContext input = .ok context ∧ source = current.withContext context
  | .taskStatus coordinator credential taskId status expected =>
      head = expected ∧ status ∈ allStatuses ∧ ∃ principal task,
        coordinator.authenticate sha256 credential = .ok principal ∧
        current.tasks[taskId]? = some task ∧
        (principal = coordinator.ownerId ∨ principal = task.owner) ∧
        w.commits.isAncestor task.contextRevision head = true ∧
        source = current.withTask { task with status := status }
  | .createTask coordinator credential taskId owner goal scopes expected =>
      head = expected ∧ coordinator.authenticate sha256 credential = .ok coordinator.ownerId ∧
        owner ∈ coordinator.credentialHashes.map (·.1) ∧ taskId ∉ current.tasks ∧
        current.tasks.size < maxTasks ∧
        ∃ task, buildTask taskId owner goal scopes "queued" expected = .ok task ∧
          source = current.withTask task
  | .publishProposal _ expected => head = expected ∧ source = current

/-- The state that a call publishes is the next one after the parent's. -/
def HubCall.Follows (call : HubCall δ φ) (w : World) (parent : Option String)
    (source : SessionState) : Prop :=
  match parent with
  | none => call = .initSession source
  | some head => ∃ current, w.stateAt head = .ok current ∧
      source.pinnedIdentity = current.pinnedIdentity ∧ call.Declares sha256 w head current source

/-- A proposal on the hub: its own commit without history, the commit of the session branch
that announces it, and the recorded provenance. -/
structure Announced (w : World) (id root : String) : Prop where
  announced : ∃ (proposal : Proposal φ) (head child : String) (current historic : SessionState),
    proposal.proposalId = id ∧
    w.commits.find root =
      some ⟨root, [], ⟨proposalPath, format.bytes proposal, proposal.message⟩⟩ ∧
    w.stateAt head = .ok current ∧ w.Revision child (some head) proposal.message current ∧
    (∃ tip, w.head = some tip ∧ w.commits.isAncestor child tip = true) ∧
    w.commits.isAncestor proposal.contextRevision head = true ∧
    w.stateAt proposal.contextRevision = .ok historic ∧
    format.recorded proposal historic current = .ok () ∧
    proposal.contextHash = format.contextHashOf current.context

/-- What happens to the hub around a client. -/
structure HubMove (w t : World) : Prop where
  grows : w.commits.Extends t.commits
  head : ∀ old, w.head = some old →
    ∃ new, t.head = some new ∧ t.commits.isAncestor old new = true
  kept : ∀ id root : String, w.proposals[id]? = some root → t.proposals[id]? = some root
  announced : ∀ id root : String, t.proposals[id]? = some root →
    w.proposals[id]? = some root ∨ Announced format t id root

/-- What an access of a call does to the hub: nothing, or the step to the next revision. -/
structure HubStep (call : HubCall δ φ) (w t : World) : Prop where
  grows : w.commits.Extends t.commits
  head : t.head = w.head ∨ ∃ commit message source, t.head = some commit ∧
    t.Revision commit w.head message source ∧ call.Follows sha256 t w.head source
  kept : ∀ id root : String, w.proposals[id]? = some root → t.proposals[id]? = some root
  announced : ∀ id root : String, t.proposals[id]? = some root →
    w.proposals[id]? = some root ∨
      Announced format t id root ∧ ∃ proposal expected, call = .publishProposal proposal expected

/-- A revision that a call returns is part of the hub's history. -/
def Acknowledged (result : Except CollabError String) (w : World) : Prop :=
  ∀ revision, result = .ok revision →
    ∃ head, w.head = some head ∧ w.commits.isAncestor revision head = true

variable {sha256 format} {w t u : World} {call : HubCall δ φ}

lemma Announced.later {id root : String} (h : Announced format w id root)
    (hmove : HubMove format w t) : Announced format t id root := by
  obtain ⟨proposal, head, child, current, historic, hid, hroot, hstate, hchild, ⟨tip, htip, htipped⟩,
    hancestor, hhistoric, hrecorded, hhash⟩ := h.announced
  obtain ⟨new, hnew, hreach⟩ := hmove.head tip htip
  have hhead := World.stateAt_known hstate
  have htipKnown := (Versions.known_of_isAncestor htipped).2
  refine ⟨proposal, head, child, current, historic, hid, ?_, World.stateAt_later hstate hmove.grows,
    hchild.later hmove.grows, ⟨new, hnew, ?_⟩, ?_, World.stateAt_later hhistoric hmove.grows,
    hrecorded, hhash⟩
  · rw [hmove.grows.find (Versions.find_some hroot).2, hroot]
  · refine Versions.isAncestor_trans ?_ hreach
    rw [hmove.grows.isAncestor htipKnown]
    exact htipped
  · rw [hmove.grows.isAncestor hhead]
    exact hancestor

lemma HubMove.refl (w : World) : HubMove format w w where
  grows := .refl _
  head old hold := ⟨old, hold, Versions.isAncestor_refl (w.head_known old hold)⟩
  kept _ _ h := h
  announced _ _ h := .inl h

lemma HubMove.trans (h : HubMove format w t) (h' : HubMove format t u) : HubMove format w u where
  grows := h.grows.trans h'.grows
  head old hold := by
    obtain ⟨new, hnew, hreach⟩ := h.head old hold
    obtain ⟨latest, hlatest, hreach'⟩ := h'.head new hnew
    refine ⟨latest, hlatest, Versions.isAncestor_trans ?_ hreach'⟩
    rw [h'.grows.isAncestor (t.head_known new hnew)]
    exact hreach
  kept id root hroot := h'.kept id root (h.kept id root hroot)
  announced id root hroot := by
    rcases h'.announced id root hroot with hold | hnew
    · exact (h.announced id root hold).imp_right fun hbefore => hbefore.later h'
    · exact .inr hnew

/-- A parent of the next revision is an ancestor of it. -/
lemma World.Revision.descends {commit head message : String} {source : SessionState}
    (h : w.Revision commit (some head) message source) (hhead : head ∈ w.commits.names) :
    w.commits.isAncestor head commit = true := by
  obtain ⟨payload, -, hfind⟩ := h
  exact (Versions.isAncestor_child hfind rfl).mpr (.inr (Versions.isAncestor_refl hhead))

lemma HubStep.move (h : HubStep sha256 format call w t) : HubMove format w t where
  grows := h.grows
  head old hold := by
    have hknown := h.grows.known (w.head_known old hold)
    rcases h.head with hsame | ⟨commit, message, source, hcommit, hrevision, -⟩
    · exact ⟨old, hsame.trans hold, Versions.isAncestor_refl hknown⟩
    · rw [hold] at hrevision
      exact ⟨commit, hcommit, hrevision.descends hknown⟩
  kept := h.kept
  announced id root hroot := (h.announced id root hroot).imp_right And.left

/-- A step that leaves the hub as it is. -/
lemma HubStep.quiet (hgrows : w.commits.Extends t.commits) (hhead : t.head = w.head)
    (hproposals : t.proposals = w.proposals) : HubStep sha256 format call w t where
  grows := hgrows
  head := .inl hhead
  kept id root h := by rwa [hproposals]
  announced id root h := .inl (by rwa [← hproposals])

lemma HubStep.same (h : t = w) : HubStep sha256 format call w t := by
  subst h
  exact .quiet (.refl _) rfl rfl

lemma World.Seen.later {revision : String} {state : SessionState} (h : w.Seen revision state)
    (hmove : HubMove format w t) : t.Seen revision state := by
  obtain ⟨head, hhead, hancestor⟩ := h.reached
  obtain ⟨new, hnew, hreach⟩ := hmove.head head hhead
  refine ⟨⟨new, hnew, Versions.isAncestor_trans ?_ hreach⟩, World.stateAt_later h.state hmove.grows⟩
  rw [hmove.grows.isAncestor (w.head_known head hhead)]
  exact hancestor

end Moves

section Accesses

variable {w : World} {store : ℕ}

lemma localHead_after : after (localHead store) w = w := by
  simp only [localHead, check, after]
  cases w.answer none (w.mirror store) <;> rfl

/-- Whatever happens to a mirror, the hub is not touched. -/
lemma casRef_frame {new : String} {old : Option String} :
    (after (casRef store new old) w).commits = w.commits ∧
      (after (casRef store new old) w).head = w.head ∧
      (after (casRef store new old) w).proposals = w.proposals := by
  simp only [casRef, after]
  cases w.answer false (decide (w.mirror store = old)) with
  | error e => exact ⟨rfl, rfl, rfl⟩
  | ok held => cases held <;> exact ⟨rfl, rfl, rfl⟩

lemma deleteRef_frame {expected : String} :
    (after (deleteRef store expected) w).commits = w.commits ∧
      (after (deleteRef store expected) w).head = w.head ∧
      (after (deleteRef store expected) w).proposals = w.proposals := by
  simp only [deleteRef, after]
  cases w.answer false (decide (w.mirror store = some expected)) with
  | error e => exact ⟨rfl, rfl, rfl⟩
  | ok held => cases held <;> exact ⟨rfl, rfl, rfl⟩

lemma isAncestor_after {revision head : String} : after (isAncestor revision head) w = w := by
  simp only [isAncestor, check, after]
  cases w.answer false _ <;> rfl

lemma isAncestor_ok {revision head : String} {found : Bool}
    (h : result (isAncestor revision head) w = .ok found) :
    found = true → isSha revision = true → w.commits.isAncestor revision head = true := by
  rintro rfl hsha
  simp only [isAncestor, check, result] at h
  rw [if_pos hsha, World.answer] at h
  cases htrouble : w.weather.trouble with
  | none =>
      simp only [htrouble] at h
      exact Except.ok.inj h
  | some trouble => cases trouble <;> simp [htrouble] at h

lemma readState_after {commit : String} : after (readState commit) w = w := by
  simp only [readState, check, after]
  cases w.failure missingState with
  | some e => rfl
  | none => cases w.stateAt commit <;> rfl

lemma readState_ok {commit : String} {state : SessionState}
    (h : result (readState commit) w = .ok state) : w.stateAt commit = .ok state := by
  simp only [readState, check, result] at h
  cases hfailure : w.failure missingState with
  | some e =>
      rw [hfailure] at h
      cases h
  | none =>
      rw [hfailure] at h
      cases hstate : w.stateAt commit with
      | error e => simp [hstate] at h
      | ok found => simpa [hstate] using h

lemma remoteHead_after : after remoteHead w = w := by
  simp only [remoteHead, after]
  cases w.failure _ <;> rfl

lemma fetchBranch_after : after fetchBranch w = w := by
  simp only [fetchBranch, check, after]
  cases w.failure _ with
  | some e => rfl
  | none =>
      cases w.head with
      | none => rfl
      | some head =>
          simp only
          cases w.stateAt head <;> rfl

lemma fetchBranch_ok {head : String} {state : SessionState}
    (h : result fetchBranch w = .ok (head, state)) :
    w.head = some head ∧ w.Seen head state := by
  simp only [fetchBranch, check, result] at h
  cases hfailure : w.failure "could not fetch the session from the collaboration hub." with
  | some e =>
      rw [hfailure] at h
      cases h
  | none =>
      simp only [hfailure] at h
      cases hhead : w.head with
      | none =>
          rw [hhead] at h
          cases h
      | some fetched =>
          rw [hhead] at h
          cases hstate : w.stateAt fetched with
          | error e => simp [hstate, Except.map] at h
          | ok found =>
              simp only [hstate, Except.map, Except.ok.injEq, Prod.mk.injEq] at h
              obtain ⟨rfl, rfl⟩ := h
              exact ⟨rfl, ⟨_, hhead, Versions.isAncestor_refl (w.head_known _ hhead)⟩, hstate⟩

lemma proposalRef_after {id : String} : after (proposalRef id) w = w := by
  simp only [proposalRef, after]
  cases safeId (.str id) "proposal_id" with
  | error e => rfl
  | ok identifier =>
      simp only
      cases w.answer false (refNameOk identifier) with
      | error e => rfl
      | ok fine => cases fine <;> rfl

lemma proposalRef_ok {id identifier : String} (h : result (proposalRef id) w = .ok identifier) :
    identifier = id := by
  simp only [proposalRef, result] at h
  cases hsafe : safeId (.str id) "proposal_id" with
  | error e =>
      rw [hsafe] at h
      cases h
  | ok found =>
      obtain ⟨hsame, -⟩ := safeId_eq_ok.mp hsafe
      rw [Json.str.injEq] at hsame
      simp only [hsafe] at h
      cases hfine : w.answer false (refNameOk found) with
      | error e => simp [hfine] at h
      | ok fine =>
          cases fine with
          | false => simp [hfine] at h
          | true =>
              simp only [hfine, Except.ok.injEq] at h
              rw [← h, hsame]

lemma lsProposal_after {id : String} : after (lsProposal id) w = w := by
  simp only [lsProposal, after]
  cases w.failure _ <;> rfl

/-- A commit command adds to the commits and touches nothing else. -/
lemma commitPayload_frame {payload : ByteArray} {path message : String}
    {parent : Option String} :
    w.commits.Extends (after (commitPayload payload path parent message) w).commits ∧
      (after (commitPayload payload path parent message) w).head = w.head ∧
      (after (commitPayload payload path parent message) w).proposals = w.proposals := by
  simp only [after, commitPayload]
  cases w.failure gitFailed with
  | some e => exact ⟨.refl _, rfl, rfl⟩
  | none =>
      by_cases hname : isSha w.weather.fresh = true
      · simp only [dif_pos hname]
        cases w.commits.find w.weather.fresh with
        | some found =>
            simp only
            split_ifs <;> exact ⟨.refl _, rfl, rfl⟩
        | none =>
            simp only
            split_ifs with hadd
            · exact ⟨Versions.extends_add hadd.1 hadd.2, rfl, rfl⟩
            · exact ⟨.refl _, rfl, rfl⟩
      · simp only [dif_neg hname, and_true]
        exact .refl _

/-- A push moves the branch along its history, or nothing. -/
lemma pushCommit_cases (w : World) (commit message : String) :
    (after (pushCommit commit message) w = w ∧ ∃ e, result (pushCommit commit message) w = .error e) ∨
      ∃ h : commit ∈ w.commits.names, w.fastForward w.head commit = true ∧
        result (pushCommit commit message) w = .ok () ∧
        after (pushCommit commit message) w = w.setHead commit h := by
  simp only [pushCommit, after, result]
  cases w.failure transportFailed with
  | some e => exact .inl ⟨rfl, e, rfl⟩
  | none =>
      by_cases hknown : commit ∈ w.commits.names
      · by_cases hforward : w.fastForward w.head commit = true
        · right
          refine ⟨hknown, hforward, ?_, ?_⟩ <;> simp [hknown, hforward]
        · left
          simp [hknown, hforward]
      · left
        simp [hknown]

lemma atomicPush_cases (w : World) (child root id message : String) :
    (after (atomicPush child root id message) w = w ∧
        ∃ e, result (atomicPush child root id message) w = .error e) ∨
      ∃ (h : child ∈ w.commits.names) (h' : root ∈ w.commits.names),
        w.fastForward w.head child = true ∧ w.fastForward w.proposals[id]? root = true ∧
        result (atomicPush child root id message) w = .ok () ∧
        after (atomicPush child root id message) w =
          (w.setHead child h).setProposal id root h' := by
  simp only [atomicPush, after, result]
  cases w.failure transportFailed with
  | some e => exact .inl ⟨rfl, e, rfl⟩
  | none =>
      by_cases hknown : child ∈ w.commits.names ∧ root ∈ w.commits.names
      · by_cases hforward : (w.fastForward w.head child && w.fastForward w.proposals[id]? root) = true
        · right
          obtain ⟨hhead, hproposal⟩ := Bool.and_eq_true_iff.mp hforward
          refine ⟨hknown.1, hknown.2, hhead, hproposal, ?_, ?_⟩ <;>
            simp only [dif_pos hknown, if_pos hforward]
        · left
          refine ⟨?_, .staleRevision message, ?_⟩ <;>
            simp only [dif_pos hknown, if_neg hforward]
      · left
        simp [dif_neg hknown]

/-- The branch is at the parent of the commit that it may move to, or at this commit. -/
lemma fastForward_revision {commit head message : String} {source state : SessionState}
    (hseen : w.Seen head state) (hrevision : w.Revision commit (some head) message source)
    (hforward : w.fastForward w.head commit = true) : w.head = some head ∨ w.head = some commit := by
  obtain ⟨tip, htip, hbelow⟩ := hseen.reached
  rw [htip, World.fastForward] at hforward
  obtain ⟨payload, -, hfind⟩ := hrevision
  rcases (Versions.isAncestor_child hfind rfl).mp hforward with rfl | habove
  · exact .inr htip
  · rw [Versions.isAncestor_antisymm hbelow habove]
    exact .inl htip

end Accesses

end Imece.CollabRuntime
