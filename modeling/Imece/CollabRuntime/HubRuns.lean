import Imece.CollabRuntime.HubCalls

/-!
# Runs of a hub

Any number of clients call the hub, each access of a call at any time. What the hub holds
after a run is what the pushes made of it, one after the other.
-/
namespace Imece.CollabRuntime

open Lib

section Pools

variable {δ φ : Type} [DecidableEq δ] (sha256 : String → δ) (format : ProposalFormat φ)

/-- A call and the store it is made on. -/
structure ClientCall (δ φ : Type) where
  store : ℕ
  call : HubCall δ φ

def ClientCall.program (client : ClientCall δ φ) : StoreProg String :=
  client.call.program sha256 format client.store

/-- Between the accesses the git commands get other weather. -/
def changeWeather (weather : Weather) (w : World) : World := w.setWeather weather

/-- Every proposal on the hub is announced. -/
def AllAnnounced (w : World) : Prop :=
  ∀ id root : String, w.proposals[id]? = some root → Announced format w id root

variable {ι : Type} (client : ι → ClientCall δ φ)

/-- The hub and the calls in flight, each under the name of a client's call. -/
abbrev HubPool (ι : Type) := Pool ι GitStep World CollabError String

/-- A run of the hub: calls start, make an access, or the weather changes. -/
abbrev HubPool.run (pool : HubPool ι) (choices : List (Choice ι Weather)) :
    List (PoolEvent ι Weather GitStep World) × HubPool ι :=
  Pool.play changeWeather (fun name => (client name).program sha256 format) pool choices

variable {sha256 format client}

variable (sha256 format client) in
/-- Any calls of any clients, interleaved in any way, keep what survives a move of the hub. -/
theorem hubPool {inv : World → Prop} (hkeeps : ∀ s t, inv s → HubMove format s t → inv t) :
    SafePool changeWeather (fun name => (client name).program sha256 format) (HubMove format)
      (fun name (_ : GitStep) => HubStep sha256 format (client name).call) inv Acknowledged where
  refl := .refl
  trans _ _ _ := .trans
  keeps := hkeeps
  env_rely _ s _ := ⟨.refl _, fun old hold =>
    ⟨old, hold, Versions.isAncestor_refl (s.head_known old hold)⟩, fun _ _ h => h,
    fun _ _ h => .inl h⟩
  guar_rely _ _ _ _ h := h.move
  safe name s _ := (program_safe (client name).call s).safe

lemma AllAnnounced.later {s t : World} (h : AllAnnounced format s) (hmove : HubMove format s t) :
    AllAnnounced format t := by
  intro id root hroot
  rcases hmove.announced id root hroot with hold | hnew
  · exact (h id root hold).later hmove
  · exact hnew

/-- The call that moved the hub, and the revision that it moved to. -/
def published (client : ι → ClientCall δ φ) (event : PoolEvent ι Weather GitStep World) :
    Option (HubCall δ φ × String) :=
  match event.cause, event.after.head with
  | .access name _, some commit =>
      if event.before.head = some commit then none else some ((client name).call, commit)
  | _, _ => none

/-- The revisions of a hub since some head, latest first, each declared by its call as the
next one after the one before it. -/
inductive HubHistory (sha256 : String → δ) (w : World) (first : Option String) :
    List (HubCall δ φ × String) → Option String → Prop
  | start : HubHistory sha256 w first [] first
  | next {log : List (HubCall δ φ × String)} {parent : Option String} {call : HubCall δ φ}
      {commit message : String} {source : SessionState}
      (before : HubHistory sha256 w first log parent)
      (made : w.Revision commit parent message source)
      (declared : call.Follows sha256 w parent source) :
      HubHistory sha256 w first ((call, commit) :: log) (some commit)

variable {w t : World} {first head : Option String} {log : List (HubCall δ φ × String)}

lemma HubCall.Follows.later {call : HubCall δ φ} {parent : Option String} {source : SessionState}
    (h : call.Follows sha256 w parent source) (hgrows : w.commits.Extends t.commits) :
    call.Follows sha256 t parent source := by
  cases parent with
  | none => exact h
  | some head =>
      obtain ⟨current, hcurrent, hidentity, hdeclares⟩ := h
      have hknown := World.stateAt_known hcurrent
      have hsame (revision : String) :
          t.commits.isAncestor revision head = w.commits.isAncestor revision head :=
        hgrows.isAncestor hknown
      refine ⟨current, World.stateAt_later hcurrent hgrows, hidentity, ?_⟩
      cases call with
      | upsertTask task =>
          obtain ⟨hsource, hroom, hancestor⟩ := hdeclares
          exact ⟨hsource, hroom, (hsame _).trans hancestor⟩
      | taskStatus coordinator credential taskId status expected =>
          obtain ⟨hhead, hstatus, principal, task, hprincipal, htask, hallowed, hancestor, hsource⟩ :=
            hdeclares
          exact ⟨hhead, hstatus, principal, task, hprincipal, htask, hallowed,
            (hsame _).trans hancestor, hsource⟩
      | sync => exact hdeclares
      | initSession state => exact hdeclares
      | publish state expected => exact hdeclares
      | updateContext context => exact hdeclares
      | ownerContext coordinator credential input expected => exact hdeclares
      | createTask coordinator credential taskId owner goal scopes expected => exact hdeclares
      | publishProposal proposal expected => exact hdeclares

lemma HubHistory.later (h : HubHistory sha256 w first log head)
    (hgrows : w.commits.Extends t.commits) : HubHistory sha256 t first log head := by
  induction h with
  | start => exact .start
  | next before made declared ih => exact .next ih (made.later hgrows) (declared.later hgrows)

variable (sha256 format client) in
lemma hub_start {inv : World → Prop} (start : World) (h : inv start) :
    PoolInvariant (HubMove format)
      (fun name (_ : GitStep) => HubStep sha256 format (client name).call) inv Acknowledged
      (⟨start, []⟩ : HubPool ι) :=
  PoolInvariant.start h

/-- One step of a run adds at most one revision to the history. -/
lemma HubHistory.step {inv : World → Prop} {event : PoolEvent ι Weather GitStep World}
    (hok : EventOk changeWeather (HubMove format)
      (fun name (_ : GitStep) => HubStep sha256 format (client name).call) inv event)
    (h : HubHistory sha256 event.before first log event.before.head) :
    HubHistory sha256 event.after first ((published client event).toList ++ log)
      event.after.head := by
  have hlater := h.later hok.rely.grows
  cases hcause : event.cause with
  | env weather =>
      have hafter : event.after.head = event.before.head := by
        rw [hok.env weather hcause]
        rfl
      rw [published, hcause, hafter]
      exact hlater
  | idle =>
      rw [published, hcause, hok.idle hcause]
      rw [hok.idle hcause] at hlater
      exact hlater
  | access name label =>
      have hstep := hok.access name label hcause
      by_cases hsame : event.after.head = event.before.head
      · have hquiet : published client event = none := by
          rw [published, hcause, hsame]
          cases event.before.head with
          | none => rfl
          | some commit => exact if_pos rfl
        rw [hquiet, hsame]
        exact hlater
      · obtain ⟨commit, message, source, hhead, hmade, hdeclared⟩ := hstep.head.resolve_left hsame
        have hmoved : published client event = some ((client name).call, commit) := by
          rw [published, hcause, hhead]
          exact if_neg fun hbefore => hsame (hhead.trans hbefore.symm)
        rw [hmoved, hhead]
        exact .next hlater hmade hdeclared

/-- The history of a whole run. -/
lemma HubHistory.play {pool : HubPool ι}
    (hpool : PoolInvariant (HubMove format)
      (fun name (_ : GitStep) => HubStep sha256 format (client name).call) (fun _ => True)
      Acknowledged pool) (choices : List (Choice ι Weather))
    (h : HubHistory sha256 pool.shared first log pool.shared.head) :
    HubHistory sha256 (pool.run sha256 format client choices).2.shared first
      (((pool.run sha256 format client choices).1.filterMap (published client)).reverse ++ log)
      (pool.run sha256 format client choices).2.shared.head := by
  induction choices generalizing pool log with
  | nil => exact h
  | cons choice choices ih =>
      obtain ⟨hevent, hnext⟩ := Pool.step_safe (hubPool sha256 format client fun _ _ _ _ => trivial) hpool choice
      obtain ⟨hbefore, hafter⟩ := pool.step_shared changeWeather
        (fun name => (client name).program sha256 format) choice
      have hold : HubHistory sha256 (pool.step changeWeather
          (fun name => (client name).program sha256 format) choice).1.before first log
          (pool.step changeWeather
            (fun name => (client name).program sha256 format) choice).1.before.head := by
        rwa [hbefore]
      have hstep := hold.step hevent
      rw [hafter] at hstep
      have hrest := ih hnext hstep
      simp only [HubPool.run, Pool.play, List.filterMap_cons] at hrest ⊢
      cases hpublished : published client (pool.step changeWeather
          (fun name => (client name).program sha256 format) choice).1 with
      | none => simpa [hpublished] using hrest
      | some entry => simpa [hpublished] using hrest

/-- The first parents of the head are the revisions of the history, and those of its start. -/
lemma HubHistory.firstParents (h : HubHistory sha256 w first log head) :
    (head.map w.commits.firstParents).getD [] =
      log.map (·.2) ++ (first.map w.commits.firstParents).getD [] := by
  induction h with
  | start => rfl
  | @next log parent call commit message source before made declared ih =>
      obtain ⟨payload, -, hfind⟩ := made
      rw [List.map_cons, List.cons_append, ← ih]
      cases parent with
      | none => exact Versions.firstParents_root hfind rfl
      | some name => exact Versions.firstParents_child hfind rfl

/-- However the calls of any clients are interleaved, and whatever git commands fail: the hub's
history is what its pushes have added, in their order, over what was there; each revision is
made from the one before it, as the call that pushed it declares from the state read there;
and a revision that a call has returned is part of the history ever after. -/
theorem hub_serial (sha256 : String → δ) (format : ProposalFormat φ)
    (client : ι → ClientCall δ φ) (start : World) (choices : List (Choice ι Weather)) :
    let run := HubPool.run sha256 format client ⟨start, []⟩ choices
    let log := (run.1.filterMap (published client)).reverse
    let hub := run.2.shared
    HubHistory sha256 hub start.head log hub.head ∧
      (hub.head.map hub.commits.firstParents).getD [] =
        log.map (·.2) ++ (start.head.map start.commits.firstParents).getD [] ∧
      ∀ thread ∈ run.2.threads, ∀ revision, thread.2 = .done (.ok revision) →
        ∃ head, hub.head = some head ∧ hub.commits.isAncestor revision head = true := by
  have hstart : PoolInvariant (HubMove format) _ (fun _ => True) _ _ :=
    hub_start sha256 format client start trivial
  have hhistory := HubHistory.play hstart choices .start
  rw [List.append_nil] at hhistory
  obtain ⟨-, hlast⟩ := Pool.play_safe (hubPool sha256 format client fun _ _ _ _ => trivial) hstart choices
  obtain ⟨-, hmoved⟩ := Pool.play_reaches (hubPool sha256 format client fun _ _ _ _ => trivial) hstart choices
  refine ⟨hhistory, ?_, fun thread hthread revision hdone => ?_⟩
  · rw [hhistory.firstParents]
    cases hhead : start.head with
    | none => rfl
    | some name =>
        have hknown := start.head_known name hhead
        exact congrArg (_ ++ ·) (hmoved.grows.firstParents hknown)
  · have hsafe := hlast.safe thread hthread
    rw [hdone] at hsafe
    exact hsafe _ (.refl _) revision rfl

end Pools

end Imece.CollabRuntime
