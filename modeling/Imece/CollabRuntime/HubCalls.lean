import Imece.CollabRuntime.HubMoves

/-!
# The calls are steps of the hub

Each call of a client is safe: among any other calls, its accesses do to the hub what the
call declares, and nothing else.
-/
namespace Imece.CollabRuntime

open Lib

section Safety

variable {δ φ α β : Type} [DecidableEq δ] (sha256 : String → δ) (format : ProposalFormat φ)

/-- Whatever happens to the hub in between, every access of the program is a step of the
call. -/
structure HubSafe (call : HubCall δ φ) (post : Except CollabError α → World → Prop)
    (p : StoreProg α) (w : World) : Prop where
  safe : Prog.Safe (HubMove format) (fun _ => HubStep sha256 format call) post p w

variable {sha256 format} {call : HubCall δ φ} {w : World} {label : GitStep} {store : ℕ}
  {Q : Except CollabError β → World → Prop}

lemma HubSafe.bind {P : Except CollabError α → World → Prop} {p : StoreProg α}
    {f : α → StoreProg β} (hp : HubSafe sha256 format call P p w)
    (hok : ∀ a t, HubMove format w t → P (.ok a) t → HubSafe sha256 format call Q (f a) t)
    (herror : ∀ e t, Q (.error e) t) : HubSafe sha256 format call Q (p >>= f) w :=
  ⟨(hp.safe.reached (fun _ _ _ => .trans) fun _ _ _ h => h.move).bind .refl
    (fun a t h => (hok a t h.2 h.1).safe) fun e t _ => herror e t⟩

/-- An access that reads and changes nothing. -/
lemma HubSafe.read {body : GitCommand α} {f : α → StoreProg β}
    (hafter : ∀ t, after body t = t)
    (hok : ∀ t a, HubMove format w t → result body t = .ok a →
      HubSafe sha256 format call Q (f a) t)
    (herror : ∀ e t, Q (.error e) t) :
    HubSafe sha256 format call Q (Prog.call label body >>= f) w := by
  refine ⟨Prog.Safe.call_bind (fun t _ => .same (hafter t)) (fun t a ht ha => ?_)
    fun t e u _ _ _ => herror e u⟩
  rw [hafter t]
  exact (hok t a ht ha).safe

/-- An access to a mirror. -/
lemma HubSafe.mirror {body : GitCommand α} {f : α → StoreProg β}
    (hframe : ∀ t, (after body t).commits = t.commits ∧ (after body t).head = t.head ∧
      (after body t).proposals = t.proposals)
    (hok : ∀ t a, HubMove format w t → HubSafe sha256 format call Q (f a) t)
    (herror : ∀ e t, Q (.error e) t) :
    HubSafe sha256 format call Q (Prog.call label body >>= f) w := by
  have hstep (t : World) : HubStep sha256 format call t (after body t) := by
    obtain ⟨hcommits, hhead, hproposals⟩ := hframe t
    refine .quiet ?_ hhead hproposals
    rw [hcommits]
    exact .refl _
  exact ⟨Prog.Safe.call_bind (fun t _ => hstep t)
    (fun t a ht _ => (hok _ a (ht.trans (hstep t).move)).safe) fun t e u _ _ _ => herror e u⟩

lemma HubSafe.check {value : Except CollabError α} {f : α → StoreProg β}
    (hok : ∀ a, value = .ok a → HubSafe sha256 format call Q (f a) w)
    (herror : ∀ e t, Q (.error e) t) :
    HubSafe sha256 format call Q (Prog.check value >>= f) w :=
  ⟨Prog.Safe.check_bind (fun a ha => (hok a ha).safe) fun e t _ _ => herror e t⟩

lemma HubSafe.throw {e : CollabError} (herror : ∀ e t, Q (.error e) t) :
    HubSafe sha256 format call Q (Prog.throw e) w :=
  ⟨fun t _ => herror e t⟩

lemma HubSafe.pure {b : β} (hok : ∀ t, HubMove format w t → Q (.ok b) t) :
    HubSafe sha256 format call Q (pure b) w :=
  ⟨hok⟩

/-- The program goes on with the outcome of an attempt, whichever it is. -/
lemma HubSafe.attempt {P : Except CollabError α → World → Prop} {p : StoreProg α}
    {f : Except CollabError α → StoreProg β} (hp : HubSafe sha256 format call P p w)
    (hf : ∀ outcome t, P outcome t → HubSafe sha256 format call Q (f outcome) t) :
    HubSafe sha256 format call Q (p.attempt >>= f) w :=
  ⟨Prog.Safe.attempt_bind .refl hp.safe fun outcome t h => (hf outcome t h).safe⟩

/-- What a fetch returns was on the hub's branch, above whatever was there when it began. -/
def Fetched (w : World) (found : Except CollabError (String × SessionState)) (t : World) : Prop :=
  ∀ head state, found = .ok (head, state) → t.Seen head state ∧
    ∀ revision old, w.Seen revision old → t.commits.isAncestor revision head = true

theorem fetchState_safe :
    HubSafe sha256 format call (Fetched w) (fetchState store) w := by
  unfold fetchState
  refine HubSafe.read (fun t => fetchBranch_after) (fun t found ht hfound => ?_) fun e t => nofun
  obtain ⟨head, state⟩ := found
  obtain ⟨hat, hseen⟩ := fetchBranch_ok hfound
  refine @HubSafe.bind _ _ _ _ _ _ _ _ _ _ (fun _ _ => True) _ _ ?_ (fun _ u hu _ => ?_) fun e t => nofun
  · refine HubSafe.read (fun t => localHead_after) (fun t current ht _ => ?_) fun e t => trivial
    exact HubSafe.mirror (fun t => casRef_frame) (fun t _ ht => .pure fun _ _ => trivial)
      fun e t => trivial
  · refine .pure fun v hv other read heq => ?_
    cases heq
    have hmoved := hu.trans hv
    refine ⟨hseen.later hmoved, fun revision old hold => ?_⟩
    obtain ⟨tip, htip, hbelow⟩ := (hold.later ht).reached
    rw [hat] at htip
    cases htip
    rw [hmoved.grows.isAncestor (t.head_known _ hat)]
    exact hbelow

lemma casAdvance_safe {commit : String} :
    HubSafe sha256 format call (fun _ _ => True) (casAdvance store commit) w := by
  refine HubSafe.read (fun t => localHead_after) (fun t current ht _ => ?_) fun e t => trivial
  have hmoved : HubSafe sha256 format call (fun _ _ => True)
      (Prog.call .mirror (casRef store commit current) >>= fun moved => pure moved) t :=
    HubSafe.mirror (fun t => casRef_frame) (fun t _ _ => .pure fun _ _ => trivial) fun e t => trivial
  rwa [bind_pure] at hmoved

/-- What a commit command leaves of a payload. -/
lemma commitPayload_safe {payload : ByteArray} {path message : String} {parent : Option String}
    {f : String → StoreProg β}
    (hok : ∀ t commit, HubMove format w t →
      t.commits.find commit = some ⟨commit, parent.toList, ⟨path, payload, message⟩⟩ →
      HubSafe sha256 format call Q (f commit) t)
    (herror : ∀ e t, Q (.error e) t) :
    HubSafe sha256 format call Q
      (Prog.call .object (commitPayload payload path parent message) >>= f) w := by
  have hstep (t : World) : HubStep sha256 format call t
      (after (commitPayload payload path parent message) t) := by
    obtain ⟨hgrows, hhead, hproposals⟩ := @commitPayload_frame t payload path message parent
    exact .quiet hgrows hhead hproposals
  refine ⟨Prog.Safe.call_bind (fun t _ => hstep t) (fun t commit ht hcommit => ?_)
    fun t e u _ _ _ => herror e u⟩
  exact (hok _ commit (ht.trans (hstep t).move) (commitPayload_spec hcommit).2).safe

lemma commitState_safe {state : SessionState} {parent : Option String} {message : String}
    {f : String → StoreProg β}
    (hok : ∀ t commit, HubMove format w t → state.Admissible →
      t.Revision commit parent message state → HubSafe sha256 format call Q (f commit) t)
    (herror : ∀ e t, Q (.error e) t) :
    HubSafe sha256 format call Q (commitState state parent message >>= f) w := by
  simp only [commitState, bind_assoc]
  refine HubSafe.check (fun payload hpayload => ?_) herror
  refine commitPayload_safe (fun t commit ht hfind => ?_) herror
  exact hok t commit ht (statePayload_eq_ok.mp hpayload).1 ⟨payload, hpayload, hfind⟩

/-- The push of a revision: the hub steps to it from its parent, or the revision is there
already. -/
theorem push_safe {commit message stale : String} {parent : Option String}
    {source : SessionState} (hrevision : w.Revision commit parent message source)
    (hforward : ∀ t, HubMove format w t → t.fastForward t.head commit = true →
      t.head = parent ∨ t.head = some commit)
    (hfollows : ∀ t, HubMove format w t → t.head = parent → call.Follows sha256 t parent source) :
    HubSafe sha256 format call (fun pushed t => ∀ u, pushed = .ok u → Acknowledged (.ok commit) t)
      (Prog.call .push (pushCommit commit stale)) w := by
  refine ⟨Prog.Safe.call (fun t ht => ?_) fun t u ht hu => ?_⟩
  · rcases pushCommit_cases t commit stale with
      ⟨hsame, -⟩ | ⟨hknown, hfast, -, hafter⟩
    · exact .same hsame
    · rw [hafter]
      have hgrows : t.commits.Extends (t.setHead commit hknown).commits := .refl _
      refine ⟨hgrows, ?_, fun id root h => h, fun id root h => .inl h⟩
      rcases hforward t ht hfast with hparent | hthere
      · refine .inr ⟨commit, message, source, rfl, ?_, ?_⟩
        · rw [hparent]
          exact (hrevision.later ht.grows).later hgrows
        · rw [hparent]
          exact hfollows t ht hparent
      · exact .inl hthere.symm
  · rintro ⟨⟩ hpushed revision hrevision'
    cases hrevision'
    rcases pushCommit_cases t commit stale with
      ⟨-, e, herror⟩ | ⟨hknown, -, -, hafter⟩
    · rw [herror] at hpushed
      cases hpushed
    · rw [hafter] at hu
      exact hu.head commit rfl

/-- What a call publishes over the head it has fetched. -/
lemma follows_fetched {head : String} {current source : SessionState} (hseen : w.Seen head current)
    (hidentity : source.pinnedIdentity = current.pinnedIdentity)
    (hdeclares : ∀ t, HubMove format w t → t.head = some head →
      call.Declares sha256 t head current source) :
    ∀ t, HubMove format w t → t.head = some head → call.Follows sha256 t (some head) source :=
  fun t ht hhead => ⟨current, World.stateAt_later hseen.state ht.grows, hidentity, hdeclares t ht hhead⟩

lemma Acknowledged.later {revised : Except CollabError String} {t : World}
    (h : Acknowledged revised w) (hmove : HubMove format w t) : Acknowledged revised t := by
  intro revision hrevision
  obtain ⟨head, hhead, hbelow⟩ := h revision hrevision
  obtain ⟨new, hnew, hreach⟩ := hmove.head head hhead
  refine ⟨new, hnew, Versions.isAncestor_trans ?_ hreach⟩
  rw [hmove.grows.isAncestor (w.head_known head hhead)]
  exact hbelow

lemma Acknowledged.error {e : CollabError} {w : World} : Acknowledged (.error e) w := nofun

/-- A publication is a step of a call that declares its state at the expected revision. -/
theorem publish_safe {state : SessionState} {expected : String}
    (hdeclares : ∀ t current, HubMove format w t → t.head = some expected →
      t.stateAt expected = .ok current → state.Admissible →
      call.Declares sha256 t expected current state) :
    HubSafe sha256 format call Acknowledged (publish store state expected) w := by
  unfold publish
  refine HubSafe.check (fun revision hrevision => ?_) fun e t => .error
  obtain rfl : expected = revision := Json.str.inj (shaHex_eq_ok.mp hrevision).1
  refine HubSafe.bind fetchState_safe (fun found t ht hfound => ?_) fun e t => .error
  obtain ⟨head, current⟩ := found
  have hseen := (hfound head current rfl).1
  simp only
  by_cases hidentity : (state.sessionId, state.baseCommit, state.targetVersion) =
      (current.sessionId, current.baseCommit, current.targetVersion)
  swap
  · rw [if_pos hidentity]
    exact .throw fun e t => .error
  rw [if_neg (not_not.mpr hidentity)]
  by_cases hhead : head = expected
  swap
  · rw [if_pos hhead]
    exact .throw fun e t => .error
  rw [if_neg (not_not.mpr hhead)]
  subst hhead
  refine commitState_safe (fun u commit hu hadmissible hrevision => ?_) fun e t => .error
  refine HubSafe.bind casAdvance_safe (fun advanced v hv _ => ?_) fun e t => .error
  by_cases hadvanced : advanced = true
  swap
  · rw [if_pos (by simpa using hadvanced)]
    exact .throw fun e t => .error
  rw [if_neg (by simpa using hadvanced)]
  have hseenAt := (hseen.later hu).later hv
  have hrevisionAt := hrevision.later hv.grows
  refine HubSafe.attempt (push_safe hrevisionAt (fun x hx hfast => ?_) ?_)
    fun pushed x hpushed => ?_
  · exact fastForward_revision (hseenAt.later hx) (hrevisionAt.later hx.grows) hfast
  · refine follows_fetched hseenAt hidentity fun x hx hat => ?_
    exact hdeclares x current (((ht.trans hu).trans hv).trans hx) hat
      (hseenAt.later hx).state hadmissible
  · cases pushed with
    | ok u => exact .pure fun y hy => Acknowledged.later (hpushed () rfl) hy
    | error e =>
        exact HubSafe.mirror (fun t => casRef_frame) (fun t _ _ => .throw fun e t => .error)
          fun e t => .error

/-- The first revision of a session: the hub has none, or this one. -/
theorem initSession_safe {state : SessionState} (hcall : call = .initSession state) :
    HubSafe sha256 format call Acknowledged (initSession store state) w := by
  unfold initSession
  refine HubSafe.read (fun t => remoteHead_after) (fun t found ht hfound => ?_) fun e t => .error
  cases found with
  | some head => exact .throw fun e t => .error
  | none =>
      refine commitState_safe (fun u commit hu _ hrevision => ?_) fun e t => .error
      refine HubSafe.bind casAdvance_safe (fun advanced v hv _ => ?_) fun e t => .error
      by_cases hadvanced : advanced = true
      swap
      · rw [if_pos (by simpa using hadvanced)]
        exact .throw fun e t => .error
      rw [if_neg (by simpa using hadvanced)]
      have hrevisionAt := hrevision.later hv.grows
      refine HubSafe.attempt (push_safe hrevisionAt (fun x hx hfast => ?_) fun x _ _ => hcall)
        fun pushed x hpushed => ?_
      · obtain ⟨payload, -, hfind⟩ := hrevisionAt.later hx.grows
        cases htip : x.head with
        | none => exact .inl rfl
        | some tip =>
            rw [htip, World.fastForward] at hfast
            exact .inr (congrArg some ((Versions.isAncestor_root hfind rfl).mp hfast))
      · cases pushed with
        | ok u => exact .pure fun y hy => Acknowledged.later (hpushed () rfl) hy
        | error e =>
            exact HubSafe.mirror (fun t => deleteRef_frame) (fun t _ _ => .throw fun e t => .error)
              fun e t => .error

/-- A head above the expected revision is this revision, if the hub is there again. -/
lemma head_of_expected {head expected : String} {current : SessionState} {t : World}
    (hseen : w.Seen head current) (habove : w.commits.isAncestor expected head = true)
    (hmove : HubMove format w t) (hat : t.head = some expected) : head = expected := by
  obtain ⟨tip, htip, hbelow⟩ := (hseen.later hmove).reached
  rw [hat] at htip
  cases htip
  rw [← hmove.grows.isAncestor (World.stateAt_known hseen.state)] at habove
  exact Versions.isAncestor_antisymm hbelow habove

/-- A client that expects a revision it has fetched builds on that revision's state. -/
theorem updateContext_safe {context : SharedContext} (hcall : call = .updateContext context)
    {expected : String} {state : SessionState} (hseen : w.Seen expected state) :
    HubSafe sha256 format call Acknowledged (updateContext store context expected) w := by
  unfold updateContext
  refine HubSafe.bind fetchState_safe (fun found t ht hfound => ?_) fun e t => .error
  obtain ⟨head, current⟩ := found
  obtain ⟨hfetched, habove⟩ := hfound head current rfl
  refine publish_safe fun u now hu hat hnow _ => ?_
  have hhead := head_of_expected hfetched (habove expected state hseen) hu hat
  subst hhead
  have hsame := (hfetched.later hu).state
  rw [hnow] at hsame
  cases hsame
  rw [hcall]
  exact rfl

theorem upsertTask_safe {task : Task} (hcall : call = .upsertTask task)
    {expected : String} {state : SessionState} (hseen : w.Seen expected state) :
    HubSafe sha256 format call Acknowledged (upsertTask store task expected) w := by
  unfold upsertTask
  refine HubSafe.bind fetchState_safe (fun found t ht hfound => ?_) fun e t => .error
  obtain ⟨head, current⟩ := found
  obtain ⟨hfetched, habove⟩ := hfound head current rfl
  simp only
  by_cases hroom : task.id ∉ current.tasks ∧ maxTasks ≤ current.tasks.size
  · rw [if_pos hroom]
    exact .throw fun e t => .error
  rw [if_neg hroom]
  refine HubSafe.read (fun t => isAncestor_after) (fun v known hv hknown => ?_) fun e t => .error
  by_cases hfound' : known = true
  swap
  · rw [if_pos (by simpa using hfound')]
    exact .throw fun e t => .error
  rw [if_neg (by simpa using hfound')]
  have hancestor := isAncestor_ok hknown hfound'
  refine publish_safe fun u now hu hat hnow hadmissible => ?_
  have hhead := head_of_expected hfetched (habove expected state hseen) (hv.trans hu) hat
  subst hhead
  have hsame := (hfetched.later (hv.trans hu)).state
  rw [hnow] at hsame
  cases hsame
  rw [hcall]
  refine ⟨rfl, ?_, ?_⟩
  · by_cases hthere : task.id ∈ current.tasks
    · exact .inl hthere
    · exact .inr (Nat.lt_of_not_le fun hfull => hroom ⟨hthere, hfull⟩)
  · have htask : (current.withTask task).tasks[task.id]? = some task :=
      Std.ExtTreeMap.getElem?_insert_self
    have hknownHead := World.stateAt_known (hfetched.later hv).state
    rw [hu.grows.isAncestor hknownHead]
    exact hancestor (hadmissible.tasks _ _ htask).contextRevision

section Coordinators

variable {coordinator : Coordinator δ} {credential expected : String}

lemma checkedState_ok {identity : String × String × String} {raw state : SessionState}
    (hvalid : raw.Valid) (h : checkedState identity raw = .ok state) : state = raw := by
  simp only [checkedState, except_bind_eq_ok,
    parseStateDict_document (stateDocument_toDict raw), hvalid.normal] at h
  obtain ⟨parsed, ⟨-, hparsed⟩, h⟩ := h
  rw [hparsed] at h
  by_cases hidentity : raw.pinnedIdentity = identity
  · rw [if_neg (not_not.mpr hidentity)] at h
    exact (Except.ok.inj h).symm
  · rw [if_pos hidentity] at h
    cases h

theorem coordinatorFetch_safe :
    HubSafe sha256 format call
      (fun found t => ∀ head state, found = .ok (head, state) → t.Seen head state)
      (coordinator.fetchState store) w := by
  unfold Coordinator.fetchState
  refine HubSafe.bind fetchState_safe (fun found t ht hfound => ?_) fun e t => nofun
  obtain ⟨head, raw⟩ := found
  have hseen := (hfound head raw rfl).1
  refine HubSafe.check (fun revision hrevision => ?_) fun e t => nofun
  obtain rfl : head = revision := Json.str.inj (shaHex_eq_ok.mp hrevision).1
  refine HubSafe.check (fun state hstate => ?_) fun e t => nofun
  obtain rfl := checkedState_ok (World.stateAt_valid hseen.state) hstate
  refine .pure fun u hu other read heq => ?_
  cases heq
  exact hseen.later hu

lemma requireOwner_ok {u : Unit} (h : coordinator.requireOwner sha256 credential = .ok u) :
    coordinator.authenticate sha256 credential = .ok coordinator.ownerId := by
  rw [Coordinator.requireOwner, except_bind_eq_ok] at h
  obtain ⟨principal, hprincipal, h⟩ := h
  by_cases howner : principal = coordinator.ownerId
  · rw [← howner, hprincipal]
  · rw [if_pos howner] at h
    cases h

lemma requireCurrent_ok {revision : String} {u : Unit}
    (h : requireCurrent revision expected = .ok u) : revision = expected := by
  by_contra hne
  rw [requireCurrent, if_pos hne] at h
  cases h

theorem ownerContext_safe {input : ContextInput}
    (hcall : call = .ownerContext coordinator credential input expected) :
    HubSafe sha256 format call Acknowledged
      (coordinator.updateContext sha256 store credential input expected) w := by
  unfold Coordinator.updateContext
  refine HubSafe.check (fun u hu => ?_) fun e t => .error
  have howner := requireOwner_ok hu
  refine HubSafe.check (fun revision hrevision => ?_) fun e t => .error
  obtain rfl : expected = revision := Json.str.inj (shaHex_eq_ok.mp hrevision).1
  refine HubSafe.check (fun context hcontext => ?_) fun e t => .error
  refine HubSafe.bind coordinatorFetch_safe (fun found t ht hfound => ?_) fun e t => .error
  obtain ⟨head, current⟩ := found
  have hseen := hfound head current rfl
  refine HubSafe.check (fun _ hcurrent => ?_) fun e t => .error
  obtain rfl := requireCurrent_ok hcurrent
  refine publish_safe fun v now hv hat hnow _ => ?_
  have hsame := (hseen.later hv).state
  rw [hnow] at hsame
  cases hsame
  rw [hcall]
  exact ⟨rfl, howner, context, hcontext, rfl⟩

omit [DecidableEq δ] in
lemma permitted_ok {principal identifier : String} {current : SessionState} {task : Task}
    (h : coordinator.permitted principal identifier current = .ok task) :
    current.tasks[identifier]? = some task ∧
      (principal = coordinator.ownerId ∨ principal = task.owner) := by
  unfold Coordinator.permitted at h
  cases htask : current.tasks[identifier]? with
  | none =>
      rw [htask] at h
      cases h
  | some found =>
      simp only [htask] at h
      by_cases hrefused : principal ≠ coordinator.ownerId ∧ principal ≠ found.owner
      · rw [if_pos hrefused] at h
        cases h
      · rw [if_neg hrefused] at h
        cases h
        exact ⟨rfl, by tauto⟩

/-- The task that `update_task_status` builds is the same one with another status. -/
lemma buildTask_status {task updated : Task} {status : String} (hvalid : task.Valid)
    (h : buildTask task.id task.owner task.goal task.scopes status task.contextRevision =
      .ok updated) : updated = { task with status := status } := by
  obtain ⟨get, hobj, hfields⟩ := taskDocument_toDict { task with status := status }
  obtain ⟨-, hupdated⟩ := (@parseTask_document _ _ _ task.id _ hobj hfields).mp h
  rw [hupdated, Task.normal, hvalid.scopes.normalScopes]

theorem taskStatus_safe {taskId status : String}
    (hcall : call = .taskStatus coordinator credential taskId status expected) :
    HubSafe sha256 format call Acknowledged
      (coordinator.updateTaskStatus sha256 store credential taskId status expected) w := by
  unfold Coordinator.updateTaskStatus
  refine HubSafe.check (fun principal hprincipal => ?_) fun e t => .error
  refine HubSafe.check (fun identifier hidentifier => ?_) fun e t => .error
  obtain rfl : taskId = identifier := Json.str.inj (safeId_eq_ok.mp hidentifier).1
  refine HubSafe.check (fun parsed hstatus => ?_) fun e t => .error
  obtain ⟨hsame, hstatus⟩ := parseStatus_eq_ok.mp hstatus
  obtain rfl : status = parsed := Json.str.inj hsame
  refine HubSafe.check (fun revision hrevision => ?_) fun e t => .error
  obtain rfl : expected = revision := Json.str.inj (shaHex_eq_ok.mp hrevision).1
  refine HubSafe.bind coordinatorFetch_safe (fun found t ht hfound => ?_) fun e t => .error
  obtain ⟨head, current⟩ := found
  have hseen := hfound head current rfl
  refine HubSafe.check (fun task hpermitted => ?_) fun e t => .error
  obtain ⟨htask, hallowed⟩ := permitted_ok hpermitted
  refine HubSafe.check (fun _ hcurrent => ?_) fun e t => .error
  obtain rfl := requireCurrent_ok hcurrent
  refine HubSafe.read (fun t => isAncestor_after) (fun v known hv hknown => ?_) fun e t => .error
  by_cases hancestor : known = true
  swap
  · rw [if_pos (by simpa using hancestor)]
    exact .throw fun e t => .error
  rw [if_neg (by simpa using hancestor)]
  refine HubSafe.check (fun updated hupdated => ?_) fun e t => .error
  have hvalid := (World.stateAt_valid hseen.state).tasks _ _ htask
  rw [buildTask_status hvalid.1 hupdated]
  have hknownHead := World.stateAt_known (hseen.later hv).state
  refine publish_safe fun x now hx hat hnow _ => ?_
  have hsame := (hseen.later (hv.trans hx)).state
  rw [hnow] at hsame
  cases hsame
  rw [hcall]
  refine ⟨rfl, hstatus, principal, task, hprincipal, htask, hallowed, ?_, rfl⟩
  rw [hx.grows.isAncestor hknownHead]
  exact isAncestor_ok hknown hancestor hvalid.1.contextRevision

lemma newTask_ok {taskId owner goal : String} {scopes : List String} {task : Task}
    (h : coordinator.newTask sha256 credential taskId owner goal scopes expected = .ok task) :
    coordinator.authenticate sha256 credential = .ok coordinator.ownerId ∧
      owner ∈ coordinator.credentialHashes.map (·.1) ∧
      buildTask taskId owner goal scopes "queued" expected = .ok task := by
  simp only [Coordinator.newTask, except_bind_eq_ok] at h
  obtain ⟨_, howner, identifier, hidentifier, assignee, hassignee, h⟩ := h
  obtain rfl : taskId = identifier := Json.str.inj (safeId_eq_ok.mp hidentifier).1
  obtain rfl : owner = assignee := Json.str.inj (safeId_eq_ok.mp hassignee).1
  by_cases hmember : owner ∈ coordinator.credentialHashes.map (·.1)
  swap
  · rw [if_pos hmember] at h
    cases h
  rw [if_neg (not_not.mpr hmember)] at h
  by_cases hblank : blankText goal = true
  · rw [if_pos hblank] at h
    cases h
  rw [if_neg hblank, except_bind_eq_ok] at h
  obtain ⟨revision, hrevision, h⟩ := h
  obtain rfl : expected = revision := Json.str.inj (shaHex_eq_ok.mp hrevision).1
  exact ⟨requireOwner_ok howner, hmember, h⟩

lemma hasRoom_ok {current : SessionState} {task : Task} {u : Unit}
    (h : hasRoom current task = .ok u) : task.id ∉ current.tasks ∧ current.tasks.size < maxTasks := by
  unfold hasRoom at h
  by_cases hthere : task.id ∈ current.tasks
  · rw [if_pos hthere] at h
    cases h
  by_cases hfull : maxTasks ≤ current.tasks.size
  · rw [if_neg hthere, if_pos hfull] at h
    cases h
  · exact ⟨hthere, Nat.lt_of_not_le hfull⟩

theorem createTask_safe {taskId owner goal : String} {scopes : List String}
    (hcall : call = .createTask coordinator credential taskId owner goal scopes expected) :
    HubSafe sha256 format call Acknowledged
      (coordinator.createTask sha256 store credential taskId owner goal scopes expected) w := by
  unfold Coordinator.createTask
  refine HubSafe.check (fun task htask => ?_) fun e t => .error
  obtain ⟨howner, hmember, hbuilt⟩ := newTask_ok htask
  refine HubSafe.bind coordinatorFetch_safe (fun found t ht hfound => ?_) fun e t => .error
  obtain ⟨head, current⟩ := found
  have hseen := hfound head current rfl
  refine HubSafe.check (fun _ hcurrent => ?_) fun e t => .error
  obtain rfl := requireCurrent_ok hcurrent
  refine HubSafe.check (fun _ hroom => ?_) fun e t => .error
  obtain ⟨hfresh, hspace⟩ := hasRoom_ok hroom
  refine publish_safe fun v now hv hat hnow _ => ?_
  have hsame := (hseen.later hv).state
  rw [hnow] at hsame
  cases hsame
  rw [hcall]
  rw [(parseTask_valid hbuilt).2] at hfresh
  exact ⟨rfl, howner, hmember, hfresh, hspace, task, hbuilt, rfl⟩

end Coordinators

section Proposals

variable {proposal validated : Proposal φ} {expected head : String}
  {current historic : SessionState}

lemma payload_ok {payload : ByteArray} (h : format.payload proposal = .ok (validated, payload)) :
    payload = format.bytes validated := by
  simp only [ProposalFormat.payload, except_bind_eq_ok] at h
  obtain ⟨found, -, h⟩ := h
  by_cases hsize : maxProposalJsonBytes < (format.bytes found).size
  · rw [if_pos hsize] at h
    cases h
  · rw [if_neg hsize] at h
    cases h
    rfl

lemma admitted_ok {u : Unit} (h : format.admitted validated head expected current = .ok u) :
    head = expected ∧ validated.contextHash = format.contextHashOf current.context := by
  unfold ProposalFormat.admitted at h
  by_cases hhead : expected ≠ head
  · rw [if_pos hhead] at h
    cases h
  rw [if_neg hhead] at h
  by_cases hidentity : (validated.sessionId, validated.baseCommit) ≠
      (current.sessionId, current.baseCommit)
  · rw [if_pos hidentity] at h
    cases h
  rw [if_neg hidentity] at h
  by_cases hhash : validated.contextHash ≠ format.contextHashOf current.context
  · rw [if_pos hhash] at h
    cases h
  · exact ⟨(not_not.mp hhead).symm, not_not.mp hhash⟩

/-- What the recorded provenance of a proposal says of the history below a head. -/
structure Provenance (format : ProposalFormat φ) (proposal : Proposal φ) (head : String)
    (current : SessionState) (w : World) : Prop where
  known : ∃ historic, w.commits.isAncestor proposal.contextRevision head = true ∧
    w.stateAt proposal.contextRevision = .ok historic ∧
    format.recorded proposal historic current = .ok ()

lemma Provenance.later {t : World} (h : Provenance format proposal head current w)
    (hseen : w.Seen head current) (hmove : HubMove format w t) :
    Provenance format proposal head current t := by
  obtain ⟨historic, hancestor, hhistoric, hfine⟩ := h.known
  refine ⟨historic, ?_, World.stateAt_later hhistoric hmove.grows, hfine⟩
  rw [hmove.grows.isAncestor (World.stateAt_known hseen.state)]
  exact hancestor

theorem validateRecorded_safe (hseen : w.Seen head current) :
    HubSafe sha256 format call
      (fun checked t => ∀ u, checked = .ok u → Provenance format proposal head current t)
      (format.validateRecorded proposal head current) w := by
  unfold ProposalFormat.validateRecorded
  refine HubSafe.read (fun t => isAncestor_after) (fun t known ht hknown => ?_) fun e t => nofun
  by_cases hancestor : known = true
  swap
  · rw [if_pos (by simpa using hancestor)]
    exact .throw fun e t => nofun
  rw [if_neg (by simpa using hancestor)]
  refine HubSafe.read (fun t => readState_after) (fun u historic hu hhistoric => ?_) fun e t => nofun
  have hstate := readState_ok hhistoric
  refine ⟨fun v hv _ hrecorded => ⟨historic, ?_, World.stateAt_later hstate hv.grows, hrecorded⟩⟩
  have hsha : isSha proposal.contextRevision = true := u.named _ (World.stateAt_known hstate)
  have hknownHead := World.stateAt_known (hseen.later ht).state
  rw [(hu.trans hv).grows.isAncestor hknownHead]
  exact isAncestor_ok hknown hancestor hsha

/-- The push of a proposal: the hub takes the revision and the proposal it announces. -/
theorem atomicPush_safe {child root stale : String} (hseen : w.Seen head current)
    (hcall : call = .publishProposal proposal head)
    (hchild : w.Revision child (some head) validated.message current)
    (hroot : w.commits.find root =
      some ⟨root, [], ⟨proposalPath, format.bytes validated, validated.message⟩⟩)
    (hrecorded : Provenance format validated head current w)
    (hhash : validated.contextHash = format.contextHashOf current.context) :
    HubSafe sha256 format call (fun pushed t => ∀ u, pushed = .ok u → Acknowledged (.ok child) t)
      (Prog.call .push (atomicPush child root validated.proposalId stale)) w := by
  refine ⟨Prog.Safe.call (fun t ht => ?_) fun t u ht hu => ?_⟩
  · rcases atomicPush_cases t child root validated.proposalId stale with
      ⟨hsame, -⟩ | ⟨hknown, hknownRoot, hfast, hfastRoot, -, hafter⟩
    · exact .same hsame
    · rw [hafter]
      have hseenAt := hseen.later ht
      have hchildAt := hchild.later ht.grows
      have hrootAt : t.commits.find root =
          some ⟨root, [], ⟨proposalPath, format.bytes validated, validated.message⟩⟩ := by
        rw [ht.grows.find (Versions.find_some hroot).2, hroot]
      obtain ⟨historic, hancestor, hhistoric, hfine⟩ := hrecorded.known
      refine ⟨.refl _, ?_, fun id other hother => ?_, fun id other hother => ?_⟩
      · rcases fastForward_revision hseenAt hchildAt hfast with hparent | hthere
        · refine .inr ⟨child, validated.message, current, rfl, ?_, ?_⟩
          · rw [hparent]
            exact hchildAt
          · rw [hparent, hcall]
            exact ⟨current, hseenAt.state, rfl, rfl, rfl⟩
        · exact .inl hthere.symm
      · by_cases hid : validated.proposalId = id
        · -- a root without parents is above no other commit
          subst hid
          rw [hother, World.fastForward, Versions.isAncestor_root hrootAt rfl] at hfastRoot
          rw [hfastRoot]
          exact Std.ExtTreeMap.getElem?_insert_self
        · show (t.proposals.insert validated.proposalId root)[id]? = some other
          rw [Std.ExtTreeMap.getElem?_insert, if_neg (by simpa using hid)]
          exact hother
      · change (t.proposals.insert validated.proposalId root)[id]? = some other at hother
        rw [Std.ExtTreeMap.getElem?_insert] at hother
        by_cases hid : validated.proposalId = id
        · rw [if_pos (by simpa using hid), Option.some.injEq] at hother
          subst hother
          refine .inr ⟨⟨validated, head, child, current, historic, hid, hrootAt, hseenAt.state,
            hchildAt, ⟨child, rfl, Versions.isAncestor_refl hknown⟩, ?_,
            World.stateAt_later hhistoric ht.grows, hfine, hhash⟩, proposal, head, hcall⟩
          have hknownHead := World.stateAt_known hseen.state
          exact (ht.grows.isAncestor hknownHead).trans hancestor
        · rw [if_neg (by simpa using hid)] at hother
          exact .inl hother
  · rintro ⟨⟩ hpushed revision hrevision
    cases hrevision
    rcases atomicPush_cases t child root validated.proposalId stale with
      ⟨-, e, herror⟩ | ⟨hknown, hknownRoot, -, -, -, hafter⟩
    · rw [herror] at hpushed
      cases hpushed
    · rw [hafter] at hu
      exact hu.head child rfl

lemma pushProposal_safe {child root : String} (hseen : w.Seen head current)
    (hcall : call = .publishProposal proposal head)
    (hchild : w.Revision child (some head) validated.message current)
    (hroot : w.commits.find root =
      some ⟨root, [], ⟨proposalPath, format.bytes validated, validated.message⟩⟩)
    (hrecorded : Provenance format validated head current w)
    (hhash : validated.contextHash = format.contextHashOf current.context) :
    HubSafe sha256 format call (fun pushed t => ∀ u, pushed = .ok u → Acknowledged (.ok child) t)
      (pushProposal child root validated.proposalId) w := by
  unfold pushProposal
  refine HubSafe.read (fun t => proposalRef_after) (fun t id ht hid => ?_) fun e t => nofun
  obtain rfl := proposalRef_ok hid
  refine atomicPush_safe (hseen.later ht) hcall (hchild.later ht.grows) ?_
    (hrecorded.later hseen ht) hhash
  rw [ht.grows.find (Versions.find_some hroot).2, hroot]

theorem publishProposal_safe (hcall : call = .publishProposal proposal expected) :
    HubSafe sha256 format call
      (fun published t => ∀ child root, published = .ok (child, root) → Acknowledged (.ok child) t)
      (publishProposal format store proposal expected) w := by
  unfold publishProposal
  refine HubSafe.check (fun revision hrevision => ?_) fun e t => nofun
  obtain rfl : expected = revision := Json.str.inj (shaHex_eq_ok.mp hrevision).1
  refine HubSafe.check (fun written hpayload => ?_) fun e t => nofun
  obtain ⟨validated, payload⟩ := written
  obtain rfl := payload_ok hpayload
  refine HubSafe.bind fetchState_safe (fun found t ht hfound => ?_) fun e t => nofun
  obtain ⟨head, current⟩ := found
  have hseen := (hfound head current rfl).1
  refine HubSafe.check (fun _ hadmitted => ?_) fun e t => nofun
  obtain ⟨rfl, hhash⟩ := admitted_ok hadmitted
  refine HubSafe.bind (validateRecorded_safe hseen) (fun _ u hu hrecorded => ?_) fun e t => nofun
  have hprovenance := hrecorded _ rfl
  simp only [remoteProposalHead, bind_assoc]
  refine HubSafe.read (fun t => proposalRef_after) (fun v id hv _ => ?_) fun e t => nofun
  refine HubSafe.read (fun t => lsProposal_after) (fun v' found hv' _ => ?_) fun e t => nofun
  cases found with
  | some other => exact .throw fun e t => nofun
  | none =>
      refine commitState_safe (fun x child hx _ hchild => ?_) fun e t => nofun
      refine commitPayload_safe (fun y root hy hroot => ?_) fun e t => nofun
      refine HubSafe.bind casAdvance_safe (fun advanced z hz _ => ?_) fun e t => nofun
      by_cases hadvanced : advanced = true
      swap
      · rw [if_pos (by simpa using hadvanced)]
        exact .throw fun e t => nofun
      rw [if_neg (by simpa using hadvanced)]
      have hmoved := ((((hv.trans hv').trans hx).trans hy).trans hz)
      have hrootAt : z.commits.find root =
          some ⟨root, [], ⟨proposalPath, format.bytes validated, validated.message⟩⟩ := by
        rw [hz.grows.find (Versions.find_some hroot).2, hroot]
        rfl
      refine HubSafe.attempt (pushProposal_safe (hseen.later (hu.trans hmoved)) hcall
        (hchild.later (hy.trans hz).grows) hrootAt
        (hprovenance.later (hseen.later hu) hmoved) hhash) fun pushed v hpushed => ?_
      cases pushed with
      | ok _ =>
          refine .pure fun y hy other made heq => ?_
          cases heq
          exact Acknowledged.later (hpushed () rfl) hy
      | error e =>
          exact HubSafe.mirror (fun t => casRef_frame) (fun t _ _ => .throw fun e t => nofun)
            fun e t => nofun

end Proposals

/-- Every access of a call, whatever happens around it, is a step of the call; what it returns
is then part of the hub's history. -/
theorem program_safe (call : HubCall δ φ) (w : World) :
    HubSafe sha256 format call Acknowledged (call.program sha256 format store) w := by
  cases call with
  | sync =>
      refine HubSafe.bind fetchState_safe (fun found t ht hfound => ?_) fun e t => .error
      obtain ⟨head, state⟩ := found
      refine .pure fun u hu revision heq => ?_
      cases heq
      exact (((hfound head state rfl).1).later hu).reached
  | initSession state => exact initSession_safe rfl
  | publish state expected => exact publish_safe fun t current _ _ _ _ => ⟨rfl, rfl⟩
  | updateContext context =>
      refine HubSafe.bind fetchState_safe (fun found t ht hfound => ?_) fun e t => .error
      obtain ⟨seen, state⟩ := found
      exact updateContext_safe rfl (hfound seen state rfl).1
  | upsertTask task =>
      refine HubSafe.bind fetchState_safe (fun found t ht hfound => ?_) fun e t => .error
      obtain ⟨seen, state⟩ := found
      exact upsertTask_safe rfl (hfound seen state rfl).1
  | ownerContext coordinator credential context expected => exact ownerContext_safe rfl
  | taskStatus coordinator credential taskId status expected => exact taskStatus_safe rfl
  | createTask coordinator credential taskId owner goal scopes expected =>
      exact createTask_safe rfl
  | publishProposal proposal expected =>
      refine HubSafe.bind (publishProposal_safe rfl) (fun published t ht hfound => ?_)
        fun e t => .error
      obtain ⟨child, root⟩ := published
      exact .pure fun u hu => Acknowledged.later (hfound child root rfl) hu

end Safety

end Imece.CollabRuntime
