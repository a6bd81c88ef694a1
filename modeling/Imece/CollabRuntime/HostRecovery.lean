import Imece.CollabRuntime.HostSteps

/-!
# How a session ends

A consumer that asks for recovery has no worker any more, and keeps its state until it is
closed or reset. A deactivation keeps this state for later, unless it is interrupted
between the close of the consumer and the release of the lease.
-/
namespace Imece.CollabRuntime

open Lib

section Parking

/-- A consumer that asks for recovery has no worker. -/
def RevisionConsumer.Parked (c : RevisionConsumer) : Prop := c.state.Terminal → c.worker = none

/-- What becomes of a consumer that is not closed or reset: one that asks for recovery
keeps its state. -/
structure RevisionConsumer.Follows (c c' : RevisionConsumer) : Prop where
  parked : c.Parked → c'.Parked
  ended : c.Parked → c.state.Terminal → c'.state = c.state

variable {c c' c'' : RevisionConsumer}

lemma RevisionConsumer.Follows.refl (c : RevisionConsumer) : c.Follows c := ⟨id, fun _ _ => rfl⟩

lemma RevisionConsumer.Follows.trans (h : c.Follows c') (h' : c'.Follows c'') : c.Follows c'' where
  parked hc := h'.parked (h.parked hc)
  ended hc hterminal := by
    have hstate := h.ended hc hterminal
    exact (h'.ended (h.parked hc) (hstate ▸ hterminal)).trans hstate

/-- Only a consumer that has a worker has changed. -/
lemma RevisionConsumer.Follows.of_worker (hworker : c.worker ≠ none) (h : c'.Parked) :
    c.Follows c' :=
  ⟨fun _ => h, fun hc hterminal => absurd (hc hterminal) hworker⟩

lemma RevisionConsumer.settle_parked (h : ¬ c.state.Terminal) (outcome : Outcome) :
    (c.settle outcome).Parked := by
  unfold RevisionConsumer.settle
  split
  · exact fun _ => rfl
  · split_ifs
    · exact fun hterminal => absurd hterminal h
    · exact fun hterminal => absurd hterminal (by simp [ConsumerState.Terminal])

lemma RevisionConsumer.turn_follows (c : RevisionConsumer) : c.Follows c.turn := by
  unfold RevisionConsumer.turn
  split
  · rename_i hworker
    refine .of_worker (by rw [hworker]; nofun) ?_
    split_ifs
    · exact fun hterminal => absurd hterminal (by simp [ConsumerState.Terminal])
    · exact fun hterminal => absurd hterminal (by simp [ConsumerState.Terminal])
  · exact .refl c

lemma RevisionConsumer.answered_follows (c : RevisionConsumer) (outcome : Option Outcome) :
    c.Follows (c.answered outcome) := by
  unfold RevisionConsumer.answered
  split
  · rename_i hworker
    exact .of_worker (by rw [hworker]; nofun)
      fun hterminal => absurd hterminal (by simp [ConsumerState.Terminal])
  · rename_i hworker
    have hsome : c.worker ≠ none := by rw [hworker]; nofun
    refine ⟨fun hc => ?_, fun hc hterminal => absurd (hc hterminal) hsome⟩
    exact settle_parked (fun hterminal => hsome (hc hterminal)) _
  · exact .refl c

lemma RevisionConsumer.line_follows (c : RevisionConsumer) (line : List UInt8) :
    c.Follows (c.line line).1 := by
  unfold RevisionConsumer.line
  split
  · rename_i hworker
    have hsome : c.worker ≠ none := by rw [hworker]; nofun
    refine ⟨fun hc => ?_, fun hc hterminal => absurd (hc hterminal) hsome⟩
    have hstate : ¬ c.state.Terminal := fun hterminal => hsome (hc hterminal)
    split
    · exact settle_parked hstate _
    · split
      · exact fun hterminal => absurd hterminal hstate
      · exact settle_parked hstate _
      · split
        · exact settle_parked hstate _
        · rename_i haccept
          obtain ⟨-, rfl⟩ | ⟨-, -, -, -, -, rfl⟩ := RevisionConsumer.accept_cases haccept
          · exact fun hterminal => absurd hterminal hstate
          · exact fun hterminal => absurd hterminal hstate
  · exact .refl c

lemma RevisionConsumer.start_follows (spawns : Bool) (c : RevisionConsumer) :
    c.Follows (after (RevisionConsumer.start spawns) c) := by
  unfold after RevisionConsumer.start
  by_cases hclosed : c.closed = true
  · rw [if_pos hclosed]
    exact .refl c
  · rw [if_neg hclosed]
    by_cases hterminal : c.state.Terminal
    · rw [if_pos hterminal]
      exact .refl c
    · rw [if_neg hterminal]
      by_cases hworker : c.worker.isSome = true
      · rw [if_pos hworker]
        exact .refl c
      · rw [if_neg hworker]
        cases spawns with
        | true => exact ⟨fun _ => by simp [Parked, ConsumerState.Terminal],
            fun _ h => absurd h hterminal⟩
        | false => exact ⟨fun _ _ => rfl, fun _ h => absurd h hterminal⟩

lemma RevisionConsumer.stopWorker_follows (c : RevisionConsumer) :
    c.Follows (c.stopWorker true) := by
  unfold RevisionConsumer.stopWorker
  split_ifs with hterminal
  · exact ⟨fun _ _ => rfl, fun _ _ => rfl⟩
  · exact ⟨fun _ _ => rfl, fun _ h => absurd ⟨rfl, h⟩ hterminal⟩

lemma RevisionConsumer.close_parked (c : RevisionConsumer) (hc : c.Parked) : c.close.Parked := by
  unfold RevisionConsumer.close
  split_ifs
  · exact hc
  · exact fun hterminal => absurd hterminal (by simp [ConsumerState.Terminal])

end Parking

section Following

/-- What becomes of an inbox whose consumer is not closed or reset. -/
inductive ConsumerWorld.Follows (inbox inbox' : ConsumerWorld) : Prop where
  | gone (before : inbox.live = none) (after : inbox'.live = none)
  | held (c c' : RevisionConsumer) (before : inbox.live = some c) (after : inbox'.live = some c')
      (follows : c.Follows c')

variable {inbox inbox' inbox'' : ConsumerWorld}

lemma ConsumerWorld.Follows.of_live (h : inbox'.live = inbox.live) : inbox.Follows inbox' := by
  cases hlive : inbox.live with
  | none => exact .gone hlive (h.trans hlive)
  | some c => exact .held c c hlive (h.trans hlive) (.refl c)

lemma ConsumerWorld.Follows.change {f : RevisionConsumer → RevisionConsumer}
    (h : ∀ c : RevisionConsumer, c.Follows (f c)) : inbox.Follows (inbox.change f) := by
  cases hlive : inbox.live with
  | none => exact .gone hlive (by rw [ConsumerWorld.change, hlive, Option.map_none])
  | some c => exact .held c (f c) hlive (by rw [ConsumerWorld.change, hlive, Option.map_some]) (h c)

lemma ConsumerWorld.Follows.trans (h : inbox.Follows inbox') (h' : inbox'.Follows inbox'') :
    inbox.Follows inbox'' := by
  cases h with
  | gone before after =>
      cases h' with
      | gone _ last => exact .gone before last
      | held c c' found last _ => cases after.symm.trans found
  | held c c' before after follows =>
      cases h' with
      | gone found last => cases after.symm.trans found
      | held d d' found last follows' =>
          obtain rfl : c' = d := Option.some.inj (after.symm.trans found)
          exact .held c d' before last (follows.trans follows')

lemma ConsumerWorld.follows_acknowledge (inbox : ConsumerWorld) (revision : String) :
    inbox.Follows (inbox.step (.acknowledge revision)) := by
  rw [ConsumerWorld.step]
  cases hlive : inbox.live with
  | none => exact .gone hlive hlive
  | some c =>
      obtain ⟨e, herror⟩ | ⟨-, hok⟩ | ⟨_, _, _, -, -, -, -, -, hok⟩ :=
        acknowledgeAtSafePoint_cases revision ⟨c, inbox.disk⟩
      · simp only [herror]
        exact .held c c hlive rfl (.refl c)
      · simp only [hok]
        exact .held c c hlive rfl (.refl c)
      · simp only [hok]
        exact .held c _ hlive rfl ⟨id, fun _ _ => rfl⟩

lemma BoundaryWorld.worker_follows (b : BoundaryWorld) (move : WorkerMove) :
    b.inbox.Follows (b.worker move).inbox := by
  cases move with
  | disk reads writes => exact .of_live rfl
  | turn => exact .change RevisionConsumer.turn_follows
  | answered outcome => exact .change fun c => c.answered_follows outcome
  | line line =>
      show b.inbox.Follows (b.inbox.step (.line line))
      rw [ConsumerWorld.step]
      cases hlive : b.inbox.live with
      | none => exact .gone hlive hlive
      | some c => exact .held c _ hlive rfl (c.line_follows line)
  | cancel => exact .of_live rfl
  | pass => exact .of_live rfl
  | answer answer => exact .of_live rfl

lemma ConsumerWorld.Worked.follows (h : inbox.Worked inbox') : inbox.Follows inbox' := by
  obtain ⟨b, moves, rfl, rfl⟩ := h
  induction moves generalizing b with
  | nil => exact .of_live rfl
  | cons move rest ih => exact (b.worker_follows move).trans (ih (b.worker move))

lemma newConsumer_state {memberId : String} {initial : Snapshot} {disk disk' : Disk}
    {c : RevisionConsumer} (h : newConsumer memberId initial disk = .ok c disk') :
    c.state = .stopped := by
  unfold newConsumer at h
  split at h
  · dsimp only at h
    split at h
    · cases h
    · cases h
      rfl
    · split at h
      · cases h
      · cases h
        rfl
  · cases h
  · cases h

end Following

section Watching

variable {τ : Type}

/-- The state that asks for recovery, of the consumer of an active session. -/
def HostWorld.terminal (w : HostWorld τ) : Option ConsumerState :=
  if w.active then (w.inbox.live.map (·.state)).filter fun state => state.Terminal else none

/-- A session, and the state that asks for recovery in which it has ended: the last one that
its consumer has come to since it was activated or reset. -/
structure WatchedHost (τ : Type) where
  host : HostWorld τ
  ended : Option ConsumerState

variable [DecidableEq τ] (sp : SafePoint τ)

/-- The session starts anew: an activation succeeds, or a reset does. -/
def HostWorld.restarts (w : HostWorld τ) (event : HostEvent τ) : Bool :=
  match event with
  | .activate seen => (result (activate sp seen) w).isOk
  | .prepare _ _ => decide (w.record.id ∈ w.resets ∧ w.record.id ∉ (w.step sp event).resets)
  | _ => false

/-- The state a session comes to in an event: of a deactivation it is the one before the
consumer is closed. -/
def HostWorld.comesTo (w : HostWorld τ) (event : HostEvent τ) : Option ConsumerState :=
  match event with
  | .deactivate seen | .close seen => (w.moves seen.between).terminal
  | event => (w.step sp event).terminal

def WatchedHost.step (w : WatchedHost τ) (event : HostEvent τ) : WatchedHost τ where
  host := w.host.step sp event
  ended := (w.host.comesTo sp event).or (if w.host.restarts sp event then none else w.ended)

/-- The condition under which an event does not lose the state a session has ended in: no
consumer that asks for recovery is closed by a deactivation that cannot release the lease;
none comes to ask for it between the look at its status and its close; and once the session
has ended, an activation that has made a new consumer can close it and release the lease, if
it fails. -/
def WatchedHost.Kept (w : WatchedHost τ) : HostEvent τ → Prop
  | .deactivate seen | .close seen =>
      ∀ c, w.host.inbox.live = some c → seen.closes.consumerCloses = true →
        (c.state.Terminal → seen.closes.leaseCloses = true) ∧
          (¬ c.state.Terminal → (w.host.moves seen.between).terminal = none)
  | .activate seen =>
      w.ended.isSome = true →
        (∃ made disk, newConsumer w.host.record.memberId w.host.record.snapshot
          w.host.inbox.disk = .ok made disk) →
        seen.cleanup.consumerCloses = true ∧ seen.cleanup.leaseCloses = true
  | _ => True

/-- The state that a session has ended in is the one of its consumer, or the one it keeps. -/
def HostWorld.EndsAs (w : HostWorld τ) (state : ConsumerState) : Prop :=
  match w.inbox.live with
  | some c => c.state = state
  | none => w.last.state = some state

structure WatchedHost.Recovers (w : WatchedHost τ) : Prop where
  idle : w.host.active = false → w.host.inbox.live = none
  leased : w.host.active = true → w.host.lease = true
  parked : ∀ c, w.host.inbox.live = some c → c.Parked
  ended : ∀ state, w.ended = some state → state.Terminal ∧ w.host.EndsAs state

end Watching

section Carrying

variable {τ : Type}

/-- What an operation does that neither opens nor closes a session, nor resets it. -/
structure HostWorld.Carries (w w' : HostWorld τ) : Prop where
  active : w'.active = w.active
  lease : w'.lease = w.lease
  last : w'.last = w.last
  inbox : w.inbox.Follows w'.inbox

variable {w w' w'' : HostWorld τ} {ended : Option ConsumerState}

lemma HostWorld.Carries.of_inbox (hactive : w'.active = w.active) (hlease : w'.lease = w.lease)
    (hlast : w'.last = w.last) (hinbox : w'.inbox = w.inbox) : w.Carries w' :=
  ⟨hactive, hlease, hlast, .of_live (by rw [hinbox])⟩

lemma HostWorld.Carries.trans (h : w.Carries w') (h' : w'.Carries w'') : w.Carries w'' :=
  ⟨h'.active.trans h.active, h'.lease.trans h.lease, h'.last.trans h.last, h.inbox.trans h'.inbox⟩

lemma HostWorld.terminal_eq_some {state : ConsumerState} (h : w.terminal = some state) :
    state.Terminal ∧ w.active = true ∧ ∃ c, w.inbox.live = some c ∧ c.state = state := by
  unfold HostWorld.terminal at h
  split_ifs at h with hactive
  rw [Option.filter_eq_some_iff, Option.map_eq_some_iff] at h
  obtain ⟨⟨c, hlive, hstate⟩, hterminal⟩ := h
  exact ⟨of_decide_eq_true hterminal, hactive, c, hlive, hstate⟩

/-- A session that comes to a state has ended in it. -/
lemma WatchedHost.Recovers.of_terminal (hidle : w.active = false → w.inbox.live = none)
    (hleased : w.active = true → w.lease = true)
    (hparked : ∀ c, w.inbox.live = some c → c.Parked)
    (hended : ∀ state, ended = some state → state.Terminal ∧ w.EndsAs state) :
    WatchedHost.Recovers ⟨w, w.terminal.or ended⟩ where
  idle := hidle
  leased := hleased
  parked := hparked
  ended := by
    intro state hstate
    rcases Option.or_eq_some_iff.mp hstate with hterminal | ⟨-, hbefore⟩
    · obtain ⟨h, -, c, hlive, hc⟩ := HostWorld.terminal_eq_some hterminal
      refine ⟨h, ?_⟩
      show HostWorld.EndsAs w state
      rw [HostWorld.EndsAs, hlive]
      exact hc
    · exact hended state hbefore

lemma HostWorld.Carries.parked (h : w.Carries w') (hparked : ∀ c, w.inbox.live = some c → c.Parked) :
    ∀ c, w'.inbox.live = some c → c.Parked := by
  intro c hlive
  cases h.inbox with
  | gone _ after => cases after.symm.trans hlive
  | held d d' before after follows =>
      obtain rfl : d' = c := Option.some.inj (after.symm.trans hlive)
      exact follows.parked (hparked d before)

lemma HostWorld.Carries.idle (h : w.Carries w') (hidle : w.active = false → w.inbox.live = none) :
    w'.active = false → w'.inbox.live = none := by
  intro hactive
  have hnone := hidle (h.active.symm.trans hactive)
  cases h.inbox with
  | gone _ after => exact after
  | held c c' before _ _ => cases hnone.symm.trans before

lemma HostWorld.Carries.endsAs {state : ConsumerState} (h : w.Carries w')
    (hparked : ∀ c, w.inbox.live = some c → c.Parked) (hterminal : state.Terminal)
    (hends : w.EndsAs state) : w'.EndsAs state := by
  unfold HostWorld.EndsAs at hends ⊢
  cases h.inbox with
  | gone before after =>
      rw [before] at hends
      rw [after]
      exact (congrArg (·.state) h.last).trans hends
  | held c c' before after follows =>
      rw [before] at hends
      rw [after]
      have hc : c.state = state := hends
      exact (follows.ended (hparked c before) (hc ▸ hterminal)).trans hc

lemma WatchedHost.Recovers.carries (h : WatchedHost.Recovers ⟨w, ended⟩) (hcarries : w.Carries w')
    {kept : Option ConsumerState} (hkept : ∀ state, kept = some state → ended = some state) :
    WatchedHost.Recovers ⟨w', w'.terminal.or kept⟩ := by
  refine .of_terminal (hcarries.idle h.idle)
    (fun hactive => hcarries.lease.trans (h.leased (hcarries.active.symm.trans hactive)))
    (hcarries.parked h.parked) fun state hstate => ?_
  obtain ⟨hterminal, hends⟩ := h.ended state (hkept state hstate)
  exact ⟨hterminal, hcarries.endsAs h.parked hterminal hends⟩

lemma HostWorld.carries_moves (w : HostWorld τ) (moves : List WorkerMove) :
    w.Carries (w.moves moves) :=
  ⟨rfl, rfl, rfl, (w.worked_moves moves).follows⟩

lemma acknowledgeInput_carries (w : HostWorld τ) (index : ℕ) (s : Surroundings) :
    w.Carries (after (acknowledgeInput index s) w) := by
  rw [after]
  obtain ⟨e, inbox, hworked, hfailed⟩ | ⟨input, inbox, inbox', -, hworked, haccepts, hok⟩ :=
    acknowledgeInput_cases w index s
  · rw [hfailed]
    exact ⟨rfl, rfl, rfl, hworked.follows⟩
  · rw [hok]
    refine ⟨rfl, rfl, rfl, hworked.follows.trans ?_⟩
    obtain ⟨-, hsame⟩ | ⟨revision, _, _, -, -, -, hstep⟩ := haccepts
    · exact .of_live (by rw [hsame])
    · rw [hstep]
      exact inbox.follows_acknowledge revision

variable [DecidableEq τ] (sp : SafePoint τ)

lemma prepareInput_carries (w : HostWorld τ) (request : WorkerRequest τ) (seen : PrepareSeen) :
    w.Carries (after (prepareInput sp request seen) w) := by
  rw [after]
  obtain ⟨inbox, hworked, ⟨e, hfailed⟩ | ⟨prepared, -, hok⟩⟩ := prepareInput_cases w sp request seen
  · rw [hfailed]
    exact ⟨rfl, rfl, rfl, hworked.follows⟩
  · rw [hok]
    exact ⟨rfl, rfl, rfl, hworked.follows⟩

/-- A consumer that has just been reset asks for nothing. -/
lemma ConsumerWorld.reset_parked {inbox : ConsumerWorld} {c : RevisionConsumer} {held : Held}
    {snapshot : Snapshot} (hlive : inbox.live = some c)
    (h : resetAtSafePoint snapshot ⟨c, inbox.disk⟩ = .ok () held) :
    ∀ c, (inbox.step (.reset snapshot)).live = some c → c.Parked := by
  intro d hd hterminal
  simp only [ConsumerWorld.step, hlive, h, Option.some.injEq] at hd
  rw [← hd, (resetAtSafePoint_pins h).2.2] at hterminal
  exact absurd hterminal (by decide)

lemma prepareInput_resets (w : HostWorld τ) (request : WorkerRequest τ) (seen : PrepareSeen) :
    (after (prepareInput sp request seen) w).resets = w.resets := by
  rw [after]
  obtain ⟨inbox, -, ⟨e, hfailed⟩ | ⟨prepared, -, hok⟩⟩ := prepareInput_cases w sp request seen
  · rw [hfailed]
  · rw [hok]

/-- How a preparation goes: the session goes on, or it starts anew after a reset. -/
lemma prepare_carries (w : HostWorld τ) (request : WorkerRequest τ) (seen : PrepareSeen) :
    w.Carries (after (prepare sp request seen) w) ∨
      w.active = true ∧ w.record.id ∈ w.resets ∧
        w.record.id ∉ (after (prepare sp request seen) w).resets ∧
        ∃ spent : HostWorld τ, spent.active = true ∧ spent.lease = w.lease ∧
          (∀ c, spent.inbox.live = some c → c.Parked) ∧
          spent.Carries (after (prepare sp request seen) w) := by
  obtain ⟨e, hfailed⟩ | hprepare | ⟨hactive, hreset, result, inbox, ⟨before, hworked, hends⟩, h⟩ :=
    prepare_cases w sp request seen
  · left
    rw [after_error hfailed]
    exact .of_inbox rfl rfl rfl rfl
  · left
    have hcarries := prepareInput_carries sp w request seen
    rw [after] at hcarries ⊢
    rw [hprepare]
    exact hcarries
  · obtain ⟨hstop, e, hfailed⟩ | ⟨bound, hbound, h⟩ := h
    · left
      rw [after_error hfailed]
      refine ⟨rfl, rfl, rfl, hworked.follows.trans ?_⟩
      obtain ⟨-, hsame | hstopped⟩ | ⟨bound, _, _, hok, -⟩ := hends
      · exact .of_live (by rw [hsame])
      · rw [hstopped]
        exact .change RevisionConsumer.stopWorker_follows
      · exact absurd hok (hstop bound)
    · right
      obtain ⟨hstop, -⟩ | ⟨_, c, held, -, hlive, hok, hinbox⟩ := hends
      · exact absurd hbound (hstop bound)
      · refine ⟨hactive, hreset, ?_, ({ w with inbox := inbox } : HostWorld τ).spend, hactive, rfl,
          ?_, ?_⟩
        · have hgone : w.record.id ∉ w.resets.filter fun id => id ≠ w.record.id := by
            simp
          obtain ⟨e, hfailed⟩ | ⟨e, hfailed⟩ | hprepare := h
          · rw [after_error hfailed]
            exact hgone
          · rw [after_error hfailed]
            exact hgone
          · have hresets := prepareInput_resets sp
              ({ ({ w with inbox := inbox } : HostWorld τ).spend with
                inbox := inbox.step (.start seen.spawns) }) bound seen
            rw [after] at hresets ⊢
            rw [hprepare, hresets]
            exact hgone
        · show ∀ c, inbox.live = some c → c.Parked
          rw [hinbox]
          exact ConsumerWorld.reset_parked hlive hok
        · have hstarted : ({ w with inbox := inbox } : HostWorld τ).spend.Carries
              { ({ w with inbox := inbox } : HostWorld τ).spend with
                inbox := inbox.step (.start seen.spawns) } :=
            ⟨rfl, rfl, rfl, .change (RevisionConsumer.start_follows seen.spawns)⟩
          obtain ⟨e, hfailed⟩ | ⟨e, hfailed⟩ | hprepare := h
          · rw [after_error hfailed]
            exact .of_inbox rfl rfl rfl rfl
          · rw [after_error hfailed]
            exact hstarted
          · have hcarries := hstarted.trans (prepareInput_carries sp _ bound seen)
            rw [after] at hcarries ⊢
            rw [hprepare]
            exact hcarries

lemma WatchedHost.Recovers.prepare (h : WatchedHost.Recovers ⟨w, ended⟩)
    (request : WorkerRequest τ) (seen : PrepareSeen) :
    (WatchedHost.step sp ⟨w, ended⟩ (.prepare request seen)).Recovers := by
  obtain hcarries | ⟨hactive, hbefore, hafter, spent, hspent, hlease, hparked, hcarries⟩ :=
    prepare_carries sp w request seen
  · refine h.carries hcarries fun state hstate => ?_
    split at hstate
    · cases hstate
    · exact hstate
  · have hrestarts : w.restarts sp (.prepare request seen) = true :=
      decide_eq_true ⟨hbefore, hafter⟩
    unfold WatchedHost.step
    rw [if_pos hrestarts]
    refine .of_terminal ?_ ?_ (hcarries.parked hparked) nofun
    · intro hidle
      cases (hcarries.active.trans hspent).symm.trans hidle
    · intro _
      exact hcarries.lease.trans (hlease.trans (h.leased hactive))

end Carrying

section Steps

variable {τ : Type} {w : HostWorld τ} {ended : Option ConsumerState}

/-- What a cleanup leaves: nothing, or what it could not close, in an active session. -/
lemma HostWorld.cleanupPartial_cases (w : HostWorld τ) (consumer : Option RevisionConsumer)
    (seen : CleanupSeen) :
    let w' := w.cleanupPartial consumer true seen
    w'.last = w.last ∧
      (w'.inbox.live = none ∧ w'.active = w.active ∧ w'.lease = w.lease ∨
        w'.active = true ∧ w'.lease = true ∧
          (consumer = none ∧ w'.inbox.live = none ∨
            ¬ (seen.consumerCloses = true ∧ seen.leaseCloses = true) ∧
              ∃ c, consumer = some c ∧
                (w'.inbox.live = some c ∨ w'.inbox.live = some c.close))) := by
  obtain ⟨consumerCloses, leaseCloses⟩ := seen
  cases consumer with
  | none => cases leaseCloses <;> cases consumerCloses <;> simp [HostWorld.cleanupPartial]
  | some c => cases leaseCloses <;> cases consumerCloses <;> simp [HostWorld.cleanupPartial]

variable [DecidableEq τ] (sp : SafePoint τ)

lemma WatchedHost.Recovers.activate (h : WatchedHost.Recovers ⟨w, ended⟩) (seen : ActivateSeen)
    (hkept : WatchedHost.Kept ⟨w, ended⟩ (.activate seen)) :
    (WatchedHost.step sp ⟨w, ended⟩ (.activate seen)).Recovers := by
  have hrestarts : w.restarts sp (.activate seen) = (result (CollabRuntime.activate sp seen) w).isOk :=
    rfl
  have hcomes : w.comesTo sp (.activate seen) =
      (after (CollabRuntime.activate sp seen) w).terminal := rfl
  have hstep : w.step sp (.activate seen) = after (CollabRuntime.activate sp seen) w := rfl
  unfold WatchedHost.step
  rw [hrestarts, hcomes, hstep]
  obtain ⟨e, hfailed⟩ | ⟨hactive, ⟨e, disk, -, e', hfailed⟩ |
    ⟨made, disk, consumer, hnew, hconsumer, hopened⟩⟩ := activate_cases sp w seen
  · rw [after_error hfailed, result, hfailed]
    have hidle : w.Carries { w with tickets := [] } := .of_inbox rfl rfl rfl rfl
    exact h.carries hidle fun _ => id
  · rw [after_error hfailed, result, hfailed]
    have hnone := h.idle hactive
    have hends (state : ConsumerState) (hstate : ended = some state) :
        state.Terminal ∧ w.last.state = some state := by
      have hstate := h.ended state hstate
      unfold HostWorld.EndsAs at hstate
      rwa [hnone] at hstate
    obtain ⟨hlast, hclean⟩ := HostWorld.cleanupPartial_cases
      ({ w with tickets := [], inbox := { w.inbox with disk := disk } } : HostWorld τ) none
      seen.cleanup
    have hgone : ((HostWorld.cleanupPartial ({ w with
        tickets := []
        inbox := { w.inbox with disk := disk } } : HostWorld τ) none true
        seen.cleanup)).inbox.live = none := by
      obtain ⟨hlive, -⟩ | ⟨-, -, ⟨-, hlive⟩ | ⟨-, c, hc, -⟩⟩ := hclean
      · exact hlive
      · exact hlive
      · cases hc
    refine .of_terminal (fun _ => hgone) ?_ ?_ fun state hstate => ⟨(hends state hstate).1, ?_⟩
    · intro hopen
      obtain ⟨-, hsame, hlease⟩ | ⟨-, hlease, -⟩ := hclean
      · exact hlease.trans (h.leased (hsame.symm.trans hopen))
      · exact hlease
    · intro c hc
      cases hgone.symm.trans hc
    · rw [HostWorld.EndsAs, hgone]
      exact (congrArg (·.state) hlast).trans (hends state hstate).2
  · have hparked : consumer.Parked := by
      have hmade : made.Parked := fun hterminal => by
        rw [newConsumer_state hnew] at hterminal
        exact absurd hterminal (by decide)
      rcases hconsumer with rfl | rfl
      · exact hmade
      · exact (RevisionConsumer.start_follows _ made).parked hmade
    obtain ⟨e, hfailed⟩ | hok := hopened
    · rw [after_error hfailed, result, hfailed]
      obtain ⟨hlast, hclean⟩ := HostWorld.cleanupPartial_cases
        (HostWorld.newConsumer ({ w with tickets := [] } : HostWorld τ) made disk) (some consumer)
        seen.cleanup
      obtain ⟨hgone, hsame, hlease⟩ | ⟨hopen, hlease, ⟨hnone, -⟩ | ⟨hleft, c, hc, hlive⟩⟩ := hclean
      · refine .of_terminal (fun _ => hgone) (fun hopen => ?_) (fun c hc => ?_) fun state hstate => ?_
        · exact hlease.trans (h.leased (hsame.symm.trans hopen))
        · cases hgone.symm.trans hc
        · have hends := h.ended state hstate
          unfold HostWorld.EndsAs at hends ⊢
          rw [h.idle hactive] at hends
          rw [hgone]
          exact ⟨hends.1, (congrArg (·.state) hlast).trans hends.2⟩
      · cases hnone
      · have hended : ended = none := by
          by_contra hsome
          exact hleft (hkept (Option.isSome_iff_ne_none.mpr hsome) ⟨made, disk, hnew⟩)
        obtain rfl : consumer = c := Option.some.inj hc
        refine .of_terminal (fun hidle => ?_) (fun _ => hlease) (fun d hd => ?_) fun state hstate => ?_
        · cases hopen.symm.trans hidle
        · rcases hlive with hlive | hlive
          · obtain rfl : consumer = d := Option.some.inj (hlive.symm.trans hd)
            exact hparked
          · obtain rfl : consumer.close = d := Option.some.inj (hlive.symm.trans hd)
            exact consumer.close_parked hparked
        · cases hended.symm.trans hstate
    · rw [after_ok hok, result, hok]
      refine .of_terminal nofun (fun _ => rfl) (fun d hd => ?_) nofun
      obtain rfl : consumer = d := Option.some.inj hd
      exact hparked

omit [DecidableEq τ] in
/-- A release of the lease keeps the state, once the consumer is closed. -/
lemma WatchedHost.Recovers.release {kept : Option ConsumerState} {leaseCloses : Bool}
    (hactive : w.active = true) (hlease : w.lease = true)
    (hparked : ∀ c, w.inbox.live = some c → c.Parked)
    (hlast : ∀ state, kept = some state → state.Terminal ∧ w.last.state = some state)
    (hcloses : ∀ state, kept = some state → w.inbox.live = none ∨ leaseCloses = true) :
    WatchedHost.Recovers ⟨after (releaseLease leaseCloses) w, kept⟩ := by
  by_cases h : w.lease = true ∧ leaseCloses = true
  · rw [after_ok (show releaseLease leaseCloses w = .ok () w.released by rw [releaseLease, if_pos h])]
    refine ⟨fun _ => rfl, fun hopen => ?_, fun c hc => ?_, fun state hstate => ?_⟩
    · cases (show w.released.active = false from rfl).symm.trans hopen
    · cases (show w.released.inbox.live = none from rfl).symm.trans hc
    · exact hlast state hstate
  · rw [after_error (show releaseLease leaseCloses w = .error .storage w by
      rw [releaseLease, if_neg h])]
    refine ⟨fun hidle => ?_, fun _ => hlease, hparked, fun state hstate => ?_⟩
    · cases hactive.symm.trans hidle
    · refine ⟨(hlast state hstate).1, ?_⟩
      have hgone : w.inbox.live = none :=
        (hcloses state hstate).resolve_right fun hcloses => h ⟨hlease, hcloses⟩
      show HostWorld.EndsAs w state
      rw [HostWorld.EndsAs, hgone]
      exact (hlast state hstate).2

omit [DecidableEq τ] in
lemma keptStatus_state {before after : HostStatus} {state : ConsumerState}
    (h : before.state = some state) (hterminal : state.Terminal) :
    (keptStatus before after).state = some state := by
  rw [keptStatus, h, Option.any_some, if_pos (decide_eq_true hterminal)]

omit [DecidableEq τ] in
lemma WatchedHost.Recovers.deactivate (h : WatchedHost.Recovers ⟨w, ended⟩) (seen : DeactivateSeen)
    (hkept : ∀ c, w.inbox.live = some c → seen.closes.consumerCloses = true →
      (c.state.Terminal → seen.closes.leaseCloses = true) ∧
        (¬ c.state.Terminal → (w.moves seen.between).terminal = none)) :
    WatchedHost.Recovers ⟨after (CollabRuntime.deactivate seen) w,
      (w.moves seen.between).terminal.or ended⟩ := by
  have hmoved := h.carries (w.carries_moves seen.between) fun _ => id
  obtain ⟨hsame, hidle⟩ | ⟨hactive, ⟨hnone, hrelease⟩ | ⟨before, hbefore, ⟨e, hfailed, -⟩ |
    ⟨c, hc, hcloses, hrelease⟩⟩⟩ := deactivate_cases w seen
  · have hnone : (w.moves seen.between).terminal = none := by
      rw [HostWorld.terminal, if_neg]
      show ¬ w.active = true
      rw [hidle]
      nofun
    rw [after, hsame, hnone, Option.none_or]
    exact h
  · have hgone := (w.carries_moves seen.between).inbox
    have hterminal : (w.moves seen.between).terminal = none := by
      cases hgone with
      | gone _ hlive => simp [HostWorld.terminal, hlive]
      | held _ _ hlive _ _ => cases hnone.symm.trans hlive
    have hends (state : ConsumerState) (hstate : ended = some state) :
        state.Terminal ∧ w.last.state = some state := by
      have hstate := h.ended state hstate
      unfold HostWorld.EndsAs at hstate
      rwa [hnone] at hstate
    have hrecovers := @WatchedHost.Recovers.release τ { w with last := keptStatus w.last w.last }
      ended seen.closes.leaseCloses hactive (h.leased hactive) h.parked
      (fun state hstate => ⟨(hends state hstate).1,
        keptStatus_state (hends state hstate).2 (hends state hstate).1⟩)
      fun _ _ => Or.inl hnone
    rw [hterminal, Option.none_or, after, hrelease]
    exact hrecovers
  · rw [after_error hfailed]
    exact hmoved
  · have hstart (state : ConsumerState)
        (hstate : (w.moves seen.between).terminal.or ended = some state) :
        state.Terminal ∧ before.state = state := by
      obtain ⟨hterminal, hends⟩ := hmoved.ended state hstate
      unfold HostWorld.EndsAs at hends
      dsimp only at hends hterminal
      rw [hc] at hends
      have hstate' : c.state = state := hends
      refine ⟨hterminal, ?_⟩
      by_cases hbefore' : before.state.Terminal
      · cases (w.carries_moves seen.between).inbox with
        | gone hlive _ => cases hbefore.symm.trans hlive
        | held d d' hlive hlive' hfollows =>
            obtain rfl : before = d := Option.some.inj (hbefore.symm.trans hlive)
            obtain rfl : c = d' := Option.some.inj (hc.symm.trans hlive')
            exact (hfollows.ended (h.parked before hbefore) hbefore').symm.trans hstate'
      · have hnone := (hkept before hbefore hcloses).2 hbefore'
        rw [HostWorld.terminal, if_pos (show (w.moves seen.between).active = true from hactive),
          hc, Option.map_some, Option.filter_some, if_pos] at hnone
        · cases hnone
        · exact decide_eq_true (hstate' ▸ hterminal)
    have hrecovers := @WatchedHost.Recovers.release τ
      { w.moves seen.between with
        inbox := { (w.moves seen.between).inbox with live := some c.close }
        last := keptStatus before.status c.close.status }
      ((w.moves seen.between).terminal.or ended) seen.closes.leaseCloses hactive
      (h.leased hactive)
      (fun d hd => by
        obtain rfl : c.close = d := Option.some.inj hd
        exact c.close_parked (hmoved.parked c hc))
      (fun state hstate => ⟨(hstart state hstate).1,
        keptStatus_state (congrArg some (hstart state hstate).2) (hstart state hstate).1⟩)
      (fun state hstate => by
        obtain ⟨hterminal, rfl⟩ := hstart state hstate
        exact Or.inr ((hkept before hbefore hcloses).1 hterminal))
    rw [after, hrelease]
    exact hrecovers

/-- The other operations leave the consumer and the lease as they are. -/
lemma HostWorld.step_cases (w : HostWorld τ) (event : HostEvent τ) :
    (∃ seen, event = .activate seen) ∨ (∃ request seen, event = .prepare request seen) ∨
      (∃ seen, event = .deactivate seen) ∨ (∃ seen, event = .close seen) ∨
      w.restarts sp event = false ∧ w.comesTo sp event = (w.step sp event).terminal ∧
        w.Carries (w.step sp event) := by
  have hsame {w' : HostWorld τ} (hactive : w'.active = w.active) (hlease : w'.lease = w.lease)
      (hlast : w'.last = w.last) (hinbox : w'.inbox = w.inbox) : w.Carries w' :=
    .of_inbox hactive hlease hlast hinbox
  cases event with
  | activate seen => exact Or.inl ⟨seen, rfl⟩
  | prepare request seen => exact Or.inr (Or.inl ⟨request, seen, rfl⟩)
  | deactivate seen => exact Or.inr (Or.inr (Or.inl ⟨seen, rfl⟩))
  | close seen => exact Or.inr (Or.inr (Or.inr (Or.inl ⟨seen, rfl⟩)))
  | elapse time => exact Or.inr (Or.inr (Or.inr (Or.inr ⟨rfl, rfl, hsame rfl rfl rfl rfl⟩)))
  | worker move =>
      exact Or.inr (Or.inr (Or.inr (Or.inr ⟨rfl, rfl, w.carries_moves [move]⟩)))
  | preview root memberId taskId head answer =>
      refine Or.inr (Or.inr (Or.inr (Or.inr ⟨rfl, rfl, ?_⟩)))
      rw [HostWorld.step]
      obtain ⟨e, h⟩ | ⟨e, h⟩ | ⟨record, -, h⟩ := preview_cases w root memberId taskId head answer
      · rw [after_error h]
        exact hsame rfl rfl rfl rfl
      · rw [after_error h]
        exact hsame rfl rfl rfl rfl
      · rw [after_ok h]
        exact hsame rfl rfl rfl rfl
  | approve id root resetCursor head =>
      refine Or.inr (Or.inr (Or.inr (Or.inr ⟨rfl, rfl, ?_⟩)))
      rw [HostWorld.step]
      obtain ⟨e, h⟩ | ⟨record, -, -, h⟩ := approve_cases w id root resetCursor head
      · rw [after_error h]
        exact hsame rfl rfl rfl rfl
      · rw [after_ok h]
        exact hsame rfl rfl rfl rfl
  | dropPreview id => exact Or.inr (Or.inr (Or.inr (Or.inr ⟨rfl, rfl, hsame rfl rfl rfl rfl⟩)))
  | release id =>
      refine Or.inr (Or.inr (Or.inr (Or.inr ⟨rfl, rfl, ?_⟩)))
      rw [HostWorld.step]
      obtain ⟨e, h⟩ | h := release_cases w id
      · rw [after_error h]
        exact hsame rfl rfl rfl rfl
      · rw [after_ok h]
        exact hsame rfl rfl rfl rfl
  | clear root => exact Or.inr (Or.inr (Or.inr (Or.inr ⟨rfl, rfl, hsame rfl rfl rfl rfl⟩)))
  | reapprove id head =>
      refine Or.inr (Or.inr (Or.inr (Or.inr ⟨rfl, rfl, ?_⟩)))
      rw [HostWorld.step]
      obtain ⟨e, h⟩ | ⟨e, h⟩ | ⟨-, candidate, -, -, -, -, h⟩ := reapprove_cases w id head
      · rw [after_error h]
        exact hsame rfl rfl rfl rfl
      · rw [after_error h]
        exact hsame rfl rfl rfl rfl
      · rw [after_ok h]
        exact hsame rfl rfl rfl rfl
  | acknowledge index surroundings =>
      exact Or.inr (Or.inr (Or.inr (Or.inr ⟨rfl, rfl, acknowledgeInput_carries w _ _⟩)))
  | receipt index =>
      refine Or.inr (Or.inr (Or.inr (Or.inr ⟨rfl, rfl, ?_⟩)))
      rw [HostWorld.step]
      obtain ⟨receipts, -, h⟩ | ⟨receipt, detached, consumed, -, -, h⟩ :=
        readReceipt_cases w sp index
      · rw [after_ok h]
        exact hsame rfl rfl rfl rfl
      · rw [after_ok h]
        exact hsame rfl rfl rfl rfl
  | record index =>
      refine Or.inr (Or.inr (Or.inr (Or.inr ⟨rfl, rfl, ?_⟩)))
      rw [HostWorld.step]
      obtain ⟨receipts, -, h⟩ | ⟨input, detached, consumed, -, -, h⟩ :=
        recordAcceptedBinding_cases w index
      · rw [after_ok h]
        exact hsame rfl rfl rfl rfl
      · rw [after_ok h]
        exact hsame rfl rfl rfl rfl
  | previewTask targetStatus head headAgain fresh =>
      refine Or.inr (Or.inr (Or.inr (Or.inr ⟨rfl, rfl, ?_⟩)))
      rw [HostWorld.step]
      obtain ⟨e, h⟩ | ⟨-, -, ticket, -, -, h⟩ :=
        previewTaskStatus_cases w targetStatus head headAgain fresh
      · rw [after_error h]
        exact hsame rfl rfl rfl rfl
      · rw [after_ok h]
        exact hsame rfl rfl rfl rfl
  | confirmTask id head =>
      refine Or.inr (Or.inr (Or.inr (Or.inr ⟨rfl, rfl, ?_⟩)))
      rw [HostWorld.step]
      obtain ⟨e, h⟩ | ⟨e, h⟩ | ⟨-, -, ticket, -, -, -, -, -, h⟩ := confirmTaskStatus_cases w id head
      · rw [after_error h]
        exact hsame rfl rfl rfl rfl
      · rw [after_error h]
        exact hsame rfl rfl rfl rfl
      · rw [after_ok h]
        exact hsame rfl rfl rfl rfl
  | discardTask id => exact Or.inr (Or.inr (Or.inr (Or.inr ⟨rfl, rfl, hsame rfl rfl rfl rfl⟩)))

theorem WatchedHost.Recovers.step {w : WatchedHost τ} (h : w.Recovers) (event : HostEvent τ)
    (hkept : w.Kept event) : (w.step sp event).Recovers := by
  obtain ⟨host, ended⟩ := w
  obtain ⟨seen, rfl⟩ | ⟨request, seen, rfl⟩ | ⟨seen, rfl⟩ | ⟨seen, rfl⟩ |
    ⟨hrestarts, hcomes, hcarries⟩ := host.step_cases sp event
  · exact h.activate sp seen hkept
  · exact h.prepare sp request seen
  · exact h.deactivate seen hkept
  · have hidle : WatchedHost.Recovers (τ := τ) ⟨{ host with tickets := [] }, ended⟩ :=
      ⟨h.idle, h.leased, h.parked, h.ended⟩
    have hclosed := hidle.deactivate seen hkept
    have hstep : host.step sp (.close seen) = after (closeSession seen) host := rfl
    unfold WatchedHost.step
    rw [hstep]
    cases hdeactivate : CollabRuntime.deactivate seen { host with tickets := [] } with
    | error e w =>
        have hresult : closeSession seen host = .error e w := by
          rw [closeSession, hdeactivate]
        rw [after_error hdeactivate] at hclosed
        rw [after_error hresult]
        exact hclosed
    | ok u w =>
        have hresult : closeSession seen host = .ok () { w with closed := true } := by
          rw [closeSession, hdeactivate]
        rw [after_ok hdeactivate] at hclosed
        rw [after_ok hresult]
        exact ⟨hclosed.idle, hclosed.leased, hclosed.parked, hclosed.ended⟩
  · unfold WatchedHost.step
    rw [hrestarts, hcomes]
    exact h.carries hcarries fun _ => id

omit [DecidableEq τ] in
lemma WatchedHost.initial_recovers (host : BindingHost) (file : Option ByteArray) :
    WatchedHost.Recovers (τ := τ) ⟨.initial host file, none⟩ where
  idle _ := rfl
  leased h := absurd h (by simp [HostWorld.initial])
  parked c h := by
    rw [HostWorld.initial, ConsumerWorld.initial] at h
    cases h
  ended := nofun

omit [DecidableEq τ] in
/-- What is reported is the state the session has ended in. -/
lemma WatchedHost.Recovers.status {w : WatchedHost τ} (h : w.Recovers) {state : ConsumerState}
    (hstate : w.ended = some state) : w.host.status.state = some state := by
  have hends := (h.ended state hstate).2
  unfold HostWorld.EndsAs at hends
  unfold HostWorld.status
  cases hactive : w.host.active with
  | false =>
      rw [h.idle hactive] at hends
      exact hends
  | true =>
      rw [if_pos rfl]
      cases hlive : w.host.inbox.live with
      | none =>
          rw [hlive] at hends
          exact hends
      | some c =>
          rw [hlive] at hends
          exact congrArg some hends

/-- In every run of a session whose events meet the condition, a session that has ended in
a state that asks for recovery reports this state from then on, until it is activated or
reset again; in particular once a deactivation, however often it was tried, has let go of
the consumer and the lease. -/
theorem recovery_state_kept (host : BindingHost) (file : Option ByteArray)
    (events : List (HostEvent τ)) :
    Machine.Meets (WatchedHost.step sp) WatchedHost.Kept ⟨.initial host file, none⟩ events →
      let w := Machine.run (WatchedHost.step sp) ⟨.initial host file, none⟩ events
      ∀ state, w.ended = some state → w.host.status.state = some state := by
  intro hmeets
  have hrecovers := @Machine.Meets.invariant _ _ (WatchedHost.step sp) WatchedHost.Recovers
    WatchedHost.Kept (fun _ event h hkept => h.step sp event hkept) _
    (WatchedHost.initial_recovers host file) events hmeets
  exact fun state hstate => hrecovers.status hstate

end Steps

section Samples

/-- An approved record of the task. -/
def boundRecord : HostRecord := ⟨0, "/p", "m", "t", ⟨stateSha, boundState⟩, boundTask, 0⟩

/-- A host that binds a run to it. -/
def bindingHost : BindingHost where
  now := 0
  drawn := 1
  candidates := []
  approved := [boundRecord]
  resets := []
  record := boundRecord
  bound := List.mem_singleton_self _
  distinct := List.nodup_singleton _
  known := by
    intro other hother
    rw [List.nil_append, List.mem_singleton] at hother
    rw [hother]
    decide
  consented := nofun

/-- An activation that meets what it expects. -/
def openingSeen : ActivateSeen where
  workspaceRoot := "/p"
  workspaceHead := stateSha
  head := some stateSha
  fresh := some ⟨stateSha, boundState⟩
  storage := true
  leaseFree := true
  spawns := true
  cancelledAtFirst := false
  cancelledBeforeStart := false
  cancelledAfterStart := false
  cleanup := ⟨true, true⟩

/-- The session that it opens. -/
def openedHost : HostWorld Unit :=
  (HostWorld.newConsumer (.initial bindingHost none) firstConsumer ⟨some firstFile, true, true⟩).opened
    { firstConsumer with state := .connecting, worker := some .looping }

lemma boundState_noDrive : boundState.NoDrive := by
  intro id task htask
  obtain ⟨-, rfl⟩ := boundTasks_getElem?.mp htask
  exact fun scope hscope => absurd hscope List.not_mem_nil

lemma newConsumer_bound : newConsumer boundRecord.memberId boundRecord.snapshot ⟨none, true, true⟩ =
    .ok firstConsumer ⟨some firstFile, true, true⟩ := by
  have hsize := size_firstFile
  unfold firstFile at hsize ⊢
  exact newConsumer_starts (by decide)
    (snapshotBaseline_valid boundState_valid boundState_noDrive isSha_stateSha) hsize

lemma openingSeen_checks :
    (HostWorld.initial bindingHost none : HostWorld Unit).activateChecks openingSeen = .ok () := by
  have htask : boundState.tasks["t"]? = some boundTask := boundTasks_getElem?.mpr ⟨rfl, rfl⟩
  have hfresh : (HostWorld.initial bindingHost none : HostWorld Unit).freshApprovalCheck
      (some ⟨stateSha, boundState⟩) = .ok () := by
    simp only [HostWorld.freshApprovalCheck, HostWorld.initial, bindingHost, boundRecord, htask]
    exact if_neg (by simp [boundTask, activeStatuses])
  rw [HostWorld.activateChecks]
  simp only [openingSeen, HostWorld.initial, bindingHost, boundRecord, boundState] at hfresh ⊢
  rw [hfresh]
  rfl

lemma boundSnapshot_validated : ∃ snapshot, (boundRecord.safePoint waitingSafePoint).validated
    boundRecord.snapshot = .ok snapshot := by
  have htask : boundState.tasks["t"]? = some boundTask := boundTasks_getElem?.mpr ⟨rfl, rfl⟩
  have h := @SafePoint.validatedAt_valid Unit (boundRecord.safePoint waitingSafePoint) boundState
    stateSha boundState_valid boundState_noDrive isSha_stateSha
    (show isContextHash emptyContextHash = true by decide) htask rfl rfl (by decide)
  rw [SafePoint.validatedAt, except_bind_eq_ok] at h
  obtain ⟨snapshot, h, -⟩ := h
  exact ⟨snapshot, h⟩

lemma activate_opens {τ : Type} [DecidableEq τ] {sp : SafePoint τ} {seen : ActivateSeen}
    {w : HostWorld τ} {consumer started : RevisionConsumer} {disk : Disk}
    {snapshot : SharedSnapshot}
    (hopen : ¬ (w.closed ∨ w.active)) (htickets : { w with tickets := [] } = w)
    (hchecks : w.activateChecks seen = .ok ())
    (hnew : newConsumer w.record.memberId w.record.snapshot w.inbox.disk = .ok consumer disk)
    (hsnapshot : (w.record.safePoint sp).validated w.record.snapshot = .ok snapshot)
    (hreset : w.record.id ∉ w.resets) (hbefore : seen.cancelledBeforeStart = false)
    (hstart : RevisionConsumer.start seen.spawns consumer = .ok () started)
    (hafter : seen.cancelledAfterStart = false) :
    activate sp seen w = .ok () ((w.newConsumer consumer disk).opened started) := by
  have hvalidated : ((w.newConsumer consumer disk).record.safePoint sp).validated
      (w.newConsumer consumer disk).record.snapshot = .ok snapshot := hsnapshot
  have hresets : (w.newConsumer consumer disk).record.id ∉ (w.newConsumer consumer disk).resets :=
    hreset
  unfold activate
  rw [htickets, if_neg hopen, hchecks]
  simp only [hnew, hvalidated, hstart, hbefore, hafter, Bool.false_eq_true, if_false]
  rw [if_neg hresets]

lemma activate_openingSeen :
    activate waitingSafePoint openingSeen (.initial bindingHost none) = .ok () openedHost := by
  obtain ⟨snapshot, hsnapshot⟩ := boundSnapshot_validated
  exact activate_opens (by simp [HostWorld.initial]) rfl openingSeen_checks newConsumer_bound
    hsnapshot List.not_mem_nil rfl rfl rfl

lemma step_openingSeen :
    WatchedHost.step waitingSafePoint ⟨.initial bindingHost none, none⟩ (.activate openingSeen) =
      ⟨openedHost, none⟩ := by
  have hstep : HostWorld.step waitingSafePoint (.initial bindingHost none) (.activate openingSeen) =
      openedHost := by
    rw [HostWorld.step]
    exact after_ok activate_openingSeen
  have hcomes : HostWorld.comesTo waitingSafePoint (.initial bindingHost none)
      (.activate openingSeen) = none := by
    rw [HostWorld.comesTo, hstep]
    · simp [HostWorld.terminal, openedHost, HostWorld.opened, ConsumerState.Terminal]
    · nofun
    · nofun
  unfold WatchedHost.step
  rw [hstep, hcomes, Option.none_or, ite_self]

/-- The consumer is told to start from a new snapshot. -/
def resnapshotMoves : List (HostEvent Unit) :=
  [.worker .turn, .worker (.answered (some .resnapshotRequired))]

/-- The session after it: its consumer asks for a new snapshot. -/
def endedHost : HostWorld Unit :=
  { openedHost with
    inbox := { openedHost.inbox with
      live := some { firstConsumer with
        state := .resnapshotRequired
        code := some "resnapshot_required"
        worker := none } } }

lemma run_resnapshotMoves :
    Machine.run (WatchedHost.step waitingSafePoint) ⟨openedHost, none⟩ resnapshotMoves =
      ⟨endedHost, some .resnapshotRequired⟩ := by
  rfl

lemma run_recovery (events : List (HostEvent Unit)) :
    Machine.run (WatchedHost.step waitingSafePoint) ⟨.initial bindingHost none, none⟩
        (.activate openingSeen :: resnapshotMoves ++ events) =
      Machine.run (WatchedHost.step waitingSafePoint)
        ⟨endedHost, some .resnapshotRequired⟩ events := by
  rw [List.cons_append, Machine.run_cons, step_openingSeen, Machine.run_append,
    run_resnapshotMoves]

theorem recovery_state_kept_sample :
    let w := Machine.run (WatchedHost.step waitingSafePoint) ⟨.initial bindingHost none, none⟩
      (.activate openingSeen :: resnapshotMoves ++ [.deactivate ⟨[], true, true⟩])
    w.ended = some .resnapshotRequired ∧ w.host.active = false ∧
      w.host.status.state = some .resnapshotRequired := by
  have h := recovery_state_kept waitingSafePoint bindingHost none
    (.activate openingSeen :: resnapshotMoves ++ [.deactivate ⟨[], true, true⟩])
  rw [run_recovery] at h ⊢
  have hmeets : Machine.Meets (WatchedHost.step waitingSafePoint) WatchedHost.Kept
      ⟨.initial bindingHost none, none⟩
      (.activate openingSeen :: resnapshotMoves ++ [.deactivate ⟨[], true, true⟩]) := by
    refine ⟨nofun, ?_⟩
    rw [step_openingSeen]
    refine ⟨trivial, trivial, ?_, trivial⟩
    intro c hc _
    refine ⟨fun _ => rfl, fun hno => absurd ?_ hno⟩
    rw [← Option.some.inj hc]
    exact Or.inr (Or.inl rfl)
  exact ⟨rfl, rfl, h hmeets _ rfl⟩

/-- The consumer is closed, the lease is not released, and the retry finds the consumer
closed. -/
theorem recovery_state_lost :
    let w := Machine.run (WatchedHost.step waitingSafePoint) ⟨.initial bindingHost none, none⟩
      (.activate openingSeen :: resnapshotMoves ++
        [.deactivate ⟨[], true, false⟩, .deactivate ⟨[], true, true⟩])
    w.ended = some .resnapshotRequired ∧ w.host.active = false ∧
      w.host.status.state = some .closed := by
  rw [run_recovery]
  exact ⟨rfl, rfl, rfl⟩

end Samples

end Imece.CollabRuntime
