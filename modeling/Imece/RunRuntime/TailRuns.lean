import Imece.RunRuntime.Tail

/-!
# Runs of event tails

Whatever the interleaving, the pages of a tail are the events between its start and its
cursor, and a call does not sleep through a publication past the cursor.
-/
namespace Imece.RunRuntime

open Lib

section Reads

variable {store next : RunStore} {t : DurableEventTail}

/-- What a call may hold or wait for, given the events past the cursor: a page is the
beginning of them. -/
def PageCall.Holds (call : PageCall) (unread : List RunEvent) : Prop :=
  match call.phase with
  | .holding page => page.events <+: unread
  | _ => True

lemma PageCall.Holds.grow {call : PageCall} {unread more : List RunEvent}
    (h : call.Holds unread) (hmore : unread <+: more) : call.Holds more := by
  unfold PageCall.Holds at h ⊢
  cases hphase : call.phase with
  | holding page =>
      simp only [hphase] at h
      exact h.trans hmore
  | top => trivial
  | checked => trivial
  | waiting => trivial

namespace DurableEventTail

/-- The events past the cursor. -/
def unread (t : DurableEventTail) (store : RunStore) : List RunEvent :=
  (store.log t.runId).filter (fun e => decide (t.cursor < e.seq))

/-- What a tail of one consumer has read. The run of an opened tail exists, the cursor is
the start or the number of an event, and the events up to it have been delivered. -/
structure Reads (store : RunStore) (t : DurableEventTail) : Prop where
  consistent : store.Consistent t.runId
  exist : t.opened = true → (store.findRun t.runId).isSome
  idle : t.opened = false → t.calls = []
  start : t.afterSeq ≤ t.cursor
  reach : t.cursor = t.afterSeq ∨ t.cursor ≤ (store.log t.runId).length
  taken : t.delivered = ((store.log t.runId).drop t.afterSeq).take (t.cursor - t.afterSeq)
  single : t.calls.length ≤ 1
  held : ∀ call ∈ t.calls, call.Holds (t.unread store)

lemma Reads.unread (h : t.Reads store) : t.unread store = (store.log t.runId).drop t.cursor :=
  RunStore.filter_seq_gt h.consistent.numbered t.cursor

/-- Delivered and unread together are the events past the start. -/
theorem Reads.exact (h : t.Reads store) :
    t.delivered ++ t.unread store =
      (store.log t.runId).filter (fun e => decide (t.afterSeq < e.seq)) := by
  rw [h.unread, h.taken, RunStore.filter_seq_gt h.consistent.numbered]
  have hsplit := List.take_append_drop (t.cursor - t.afterSeq)
    ((store.log t.runId).drop t.afterSeq)
  rw [List.drop_drop, Nat.add_sub_cancel' h.start] at hsplit
  exact hsplit

/-- A stretch that ends within a list is the same stretch of a longer one. -/
lemma take_drop_within {α : Type} {xs ys : List α} (h : xs <+: ys) {s c : ℕ} (hs : s ≤ c)
    (hc : c ≤ xs.length) : (ys.drop s).take (c - s) = (xs.drop s).take (c - s) := by
  obtain ⟨more, rfl⟩ := h
  rw [List.drop_append_of_le_length (by omega), List.take_append_of_le_length]
  rw [List.length_drop]
  omega

/-- Appends of any writer keep what a tail has read. -/
theorem Reads.grow (h : t.Reads store) (hgrows : RunStore.Grows store next) : t.Reads next where
  consistent := hgrows.consistent t.runId h.consistent
  exist hopened := hgrows.exist t.runId (h.exist hopened)
  idle := h.idle
  start := h.start
  reach := h.reach.imp_right fun hle => hle.trans (hgrows.log t.runId).length_le
  taken := by
    rw [h.taken]
    rcases h.reach with hsame | hle
    · simp [hsame]
    · exact (take_drop_within (hgrows.log t.runId) h.start hle).symm
  single := h.single
  held call hcall := (h.held call hcall).grow ((hgrows.log t.runId).filter _)

/-- The steps that leave the run, the cursor and the pages. -/
lemma Reads.change {t' : DurableEventTail} (h : t.Reads store) (hrun : t'.runId = t.runId)
    (hafter : t'.afterSeq = t.afterSeq) (hcursor : t'.cursor = t.cursor)
    (hpages : t'.pages = t.pages)
    (hexist : t'.opened = true → (store.findRun t.runId).isSome)
    (hidle : t'.opened = false → t'.calls = []) (hsingle : t'.calls.length ≤ 1)
    (hheld : ∀ call ∈ t'.calls, call.Holds (t.unread store)) : t'.Reads store where
  consistent := hrun ▸ h.consistent
  exist hopened := hrun ▸ hexist hopened
  idle := hidle
  start := by rw [hafter, hcursor]; exact h.start
  reach := by rw [hafter, hcursor, hrun]; exact h.reach
  taken := by
    rw [hafter, hcursor, hrun, ← h.taken]
    simp only [delivered, hpages]
  single := hsingle
  held call hcall := by
    have hsame : t'.unread store = t.unread store := by
      simp only [DurableEventTail.unread, hrun, hcursor]
    rw [hsame]
    exact hheld call hcall

/-- The call a step is about is the only one under way. -/
lemma Reads.calls_eq (h : t.Reads store) {c : ℕ} {call : PageCall}
    (hc : t.calls[c]? = some call) : c = 0 ∧ t.calls = [call] ∧ t.opened = true := by
  obtain ⟨hlt, -⟩ := List.getElem?_eq_some_iff.mp hc
  have hsingle := h.single
  have hzero : c = 0 := by omega
  subst hzero
  refine ⟨rfl, ?_, ?_⟩
  · obtain ⟨only, hcalls⟩ := List.length_eq_one_iff.mp (show t.calls.length = 1 by omega)
    rw [hcalls] at hc ⊢
    simpa using hc
  · by_contra hopened
    rw [h.idle (by simpa using hopened)] at hlt
    exact absurd hlt (Nat.not_lt_zero _)

lemma Reads.finish (h : t.Reads store) {c : ℕ} {call : PageCall}
    (hc : t.calls[c]? = some call) : (t.finish c).Reads store := by
  obtain ⟨rfl, hcalls, hopened⟩ := h.calls_eq hc
  have hnone : (t.finish 0).calls = [] := by simp [DurableEventTail.finish, hcalls]
  refine h.change rfl rfl rfl rfl h.exist ?_ ?_ ?_
  · exact fun _ => hnone
  · simp [hnone]
  · simp [hnone]

lemma Reads.move (h : t.Reads store) {c : ℕ} {call : PageCall} {phase : CallPhase}
    (hc : t.calls[c]? = some call) (hphase : PageCall.Holds ⟨call.limit, phase⟩ (t.unread store)) :
    (t.move c call phase).Reads store := by
  obtain ⟨rfl, hcalls, hopened⟩ := h.calls_eq hc
  have hone : (t.move 0 call phase).calls = [⟨call.limit, phase⟩] := by
    simp [DurableEventTail.move, hcalls]
  refine h.change rfl rfl rfl rfl h.exist ?_ ?_ ?_
  · intro hclosed
    exact absurd hopened (by simpa [DurableEventTail.move] using hclosed)
  · simp [hone]
  · simpa [hone] using hphase

/-- A page with events moves the cursor to its end. -/
lemma Reads.settle (h : t.Reads store) {c : ℕ} {call : PageCall} {page : EventPage}
    (hc : t.calls[c]? = some call) (hphase : call.phase = .holding page) (expired : Bool) :
    (t.settle c call page expired).Reads store := by
  have hpage : page.events <+: t.unread store := by
    have hheld := h.held call (List.mem_of_getElem? hc)
    rwa [PageCall.Holds, hphase] at hheld
  unfold DurableEventTail.settle
  cases hlast : page.events.getLast? with
  | none =>
      cases expired with
      | true => exact h.finish hc
      | false => exact h.move hc trivial
  | some last =>
      obtain ⟨rfl, hcalls, hopened⟩ := h.calls_eq hc
      rw [h.unread] at hpage
      have hsize : page.events = ((store.log t.runId).drop t.cursor).take page.events.length :=
        List.prefix_iff_eq_take.mp hpage
      have hpos : 0 < page.events.length := by
        cases hevents : page.events with
        | nil => simp [hevents] at hlast
        | cons first rest => simp
      have hlength := hpage.length_le
      rw [List.length_drop] at hlength
      have hseq : last.seq = t.cursor + page.events.length := by
        have hupto := lastSeq_take h.consistent.numbered
          (show 0 < t.cursor + page.events.length by omega) (by omega)
        rw [List.take_add, ← hsize, List.getLast?_append, hlast] at hupto
        simpa using hupto
      refine ⟨h.consistent, h.exist, ?_, ?_, ?_, ?_, ?_, ?_⟩
      · intro hclosed
        exact absurd hopened (by simpa [DurableEventTail.finish] using hclosed)
      · have hstart := h.start
        simp only [hseq, DurableEventTail.finish]
        omega
      · right
        simp only [hseq, DurableEventTail.finish]
        change t.cursor + page.events.length ≤ (store.log t.runId).length
        omega
      · have hmore : t.cursor + page.events.length - t.afterSeq =
            (t.cursor - t.afterSeq) + page.events.length := by
          have hstart := h.start
          omega
        simp only [hseq, DurableEventTail.finish, hmore, List.take_add, List.drop_drop,
          Nat.add_sub_cancel' h.start]
        have htaken := h.taken
        simp only [delivered, List.flatMap_append, List.flatMap_singleton] at htaken ⊢
        change _ = List.take _ (List.drop _ (store.log t.runId)) ++
          List.take _ (List.drop _ (store.log t.runId))
        rw [← htaken, ← hsize]
      · simp [DurableEventTail.finish, hcalls]
      · simp [DurableEventTail.finish, hcalls]

/-- A page that the query returns is the beginning of what is unread, and it is empty only
when nothing is. -/
lemma Reads.page (h : t.Reads store) (hopened : t.opened = true) {limit : ℤ} {page : EventPage}
    (hpage : RunStore.events t.runId t.cursor limit store = .ok page next) :
    page.events <+: t.unread store ∧ (page.events = [] → t.unread store = []) := by
  have hlimit : 0 < limit := by
    by_contra hle
    rw [RunStore.events, if_pos (by omega)] at hpage
    cases hpage
  have hresult : result (RunStore.events t.runId t.cursor limit) store = .ok _ :=
    RunStore.events_page (h.exist hopened) h.consistent hlimit
  rw [result, hpage] at hresult
  cases hresult
  rw [h.unread]
  refine ⟨List.take_prefix _ _, ?_⟩
  intro hempty
  rcases List.take_eq_nil_iff.mp hempty with hzero | hnil
  · simp only [maxEventPageLimit] at hzero
    omega
  · exact hnil

theorem Reads.advance (h : t.Reads store) (c : ℕ) (step : CallStep) :
    (t.advance store c step).Reads store := by
  unfold DurableEventTail.advance
  cases hc : t.calls[c]? with
  | none => exact h
  | some call =>
      obtain ⟨rfl, hcalls, hopened⟩ := h.calls_eq hc
      dsimp only
      split
      · cases t.closed with
        | true => exact h.finish hc
        | false => exact h.move hc trivial
      · rename_i fails hphase
        cases hpage : RunStore.events t.runId t.cursor call.limit store with
        | error _ _ => exact h.finish hc
        | ok page _ =>
            cases fails with
            | true => exact h.finish hc
            | false => exact h.move hc (h.page hopened hpage).1
      · rename_i page expired hphase
        exact h.settle hc hphase expired
      · rename_i timedOut hphase
        cases hwait : t.subscription.wait timedOut with
        | none => exact h
        | some woken =>
            have hmoved := h.move hc (show PageCall.Holds ⟨call.limit, .top⟩ _ from trivial)
            have hrun : woken.2.runId = t.runId := by
              unfold EventSubscription.wait at hwait
              split at hwait
              · cases hwait
                rfl
              · split at hwait <;> cases hwait
                rfl
            refine hmoved.change hrun rfl rfl rfl h.exist ?_ hmoved.single hmoved.held
            exact hmoved.idle
      · exact h

theorem Reads.verify (h : t.Reads store) (fails : Bool) : (t.verify store fails).Reads store := by
  unfold DurableEventTail.verify
  split
  · exact h
  · rename_i hnew
    have hidle : t.calls = [] := h.idle (by simp_all)
    have hclosed : DurableEventTail.Reads store
        { t with subscription := { t.subscription with closed := true } } :=
      h.change rfl rfl rfl rfl h.exist h.idle h.single h.held
    split
    · rename_i row _ hrow
      cases fails with
      | true => exact hclosed
      | false =>
          refine h.change rfl rfl rfl rfl ?_ ?_ h.single h.held
          · intro _
            rw [(RunStore.getRun_ok hrow).1]
            rfl
          · exact fun _ => hidle
    · exact hclosed

theorem Reads.notify (h : t.Reads store) (latestSeq : ℕ) : (t.notify latestSeq).Reads store := by
  refine h.change ?_ rfl rfl rfl h.exist h.idle h.single h.held
  unfold DurableEventTail.notify DurableEventTail.runId EventSubscription.notify
  cases t.subscription.closed <;> rfl

end DurableEventTail

end Reads

section Waking

/-- The publication will still wake the subscription of tail `i`, or has done so. -/
def Publication.Reaches (p : Publication) (i : ℕ) (s : EventSubscription) : Prop :=
  p.pending = none ∨ (∃ rest, p.pending = some rest ∧ i ∈ rest) ∨ s.dirty = true ∨ s.closed = true

lemma Publication.Reaches.mono {p : Publication} {i : ℕ} {s s' : EventSubscription}
    (h : p.Reaches i s) (hdirty : s.dirty = true → s'.dirty = true)
    (hclosed : s.closed = true → s'.closed = true) : p.Reaches i s' :=
  h.imp_right fun h => h.imp_right fun h => h.imp hdirty hclosed

/-- The query of the call found nothing: it waits, or is about to. -/
def PageCall.Dry (call : PageCall) : Prop :=
  match call.phase with
  | .holding page => page.events = []
  | .waiting => True
  | _ => False

/-- The subscription of a tail that is not closed is known to the bus, and once a call has
found nothing, whatever is published past the cursor reaches the subscription. -/
structure Armed (subscriptions : List (String × ℕ)) (publications : List Publication) (i : ℕ)
    (t : DurableEventTail) : Prop where
  subscribed : t.subscription.closed = false → (t.runId, i) ∈ subscriptions
  armed : ∀ call ∈ t.calls, call.Dry → ∀ p ∈ publications, p.runId = t.runId →
    (∃ event ∈ p.events, t.cursor < event.seq) → p.Reaches i t.subscription

section

variable {store : RunStore} {subscriptions : List (String × ℕ)}
  {publications : List Publication} {i : ℕ} {t : DurableEventTail}

lemma Armed.change {t' : DurableEventTail} (h : Armed subscriptions publications i t)
    (hrun : t'.runId = t.runId) (hcursor : t'.cursor = t.cursor)
    (hdirty : t.subscription.dirty = true → t'.subscription.dirty = true)
    (hclosed : t.subscription.closed = true → t'.subscription.closed = true)
    (hcalls : ∀ call ∈ t'.calls, call.Dry → ∃ old ∈ t.calls, old.Dry) :
    Armed subscriptions publications i t' where
  subscribed hopen := by
    rw [hrun]
    refine h.subscribed ?_
    by_contra hshut
    rw [hclosed (by simpa using hshut)] at hopen
    cases hopen
  armed call hcall hdry p hp hprun hpast := by
    obtain ⟨old, hold, holdDry⟩ := hcalls call hcall hdry
    rw [hrun] at hprun
    rw [hcursor] at hpast
    exact (h.armed old hold holdDry p hp hprun hpast).mono hdirty hclosed

/-- A step after which no call is dry. -/
lemma Armed.wet {t' : DurableEventTail} (h : Armed subscriptions publications i t)
    (hrun : t'.runId = t.runId) (hclosed : t'.subscription.closed = t.subscription.closed)
    (hcalls : ∀ call ∈ t'.calls, ¬ call.Dry) : Armed subscriptions publications i t' where
  subscribed hopen := by
    rw [hrun]
    exact h.subscribed (hclosed ▸ hopen)
  armed call hcall hdry := absurd hdry (hcalls call hcall)

lemma calls_finish {call : PageCall} (hcalls : t.calls = [call]) : (t.finish 0).calls = [] := by
  simp [DurableEventTail.finish, hcalls]

lemma calls_move {call : PageCall} (hcalls : t.calls = [call]) (phase : CallPhase) :
    (t.move 0 call phase).calls = [⟨call.limit, phase⟩] := by
  simp [DurableEventTail.move, hcalls]

/-- The step of a call: a query that finds nothing leaves no published event unread, and
a call that leaves `wait` reads again. -/
theorem Armed.advance (h : Armed subscriptions publications i t) (hreads : t.Reads store)
    (hpublished : ∀ p ∈ publications, ∀ event ∈ p.events, event ∈ store.log p.runId)
    (c : ℕ) (step : CallStep) : Armed subscriptions publications i (t.advance store c step) := by
  unfold DurableEventTail.advance
  cases hc : t.calls[c]? with
  | none => exact h
  | some call =>
      obtain ⟨rfl, hcalls, hopened⟩ := hreads.calls_eq hc
      have hend : Armed subscriptions publications i (t.finish 0) :=
        h.wet rfl rfl (by simp [calls_finish hcalls])
      dsimp only
      split
      · cases t.closed with
        | true => exact hend
        | false => exact h.wet rfl rfl (by simp [calls_move hcalls, PageCall.Dry])
      · rename_i fails hphase
        cases hpage : RunStore.events t.runId t.cursor call.limit store with
        | error _ _ => exact hend
        | ok page _ =>
            cases fails with
            | true => exact hend
            | false =>
                change Armed _ _ i (t.move 0 call (.holding page))
                refine ⟨h.subscribed, ?_⟩
                intro held hheld hdry p hp hprun hpast
                rw [calls_move hcalls, List.mem_singleton] at hheld
                subst hheld
                -- whatever has been published was in the log that the query has read
                have hnone := (hreads.page hopened hpage).2 hdry
                obtain ⟨event, hevent, hseq⟩ := hpast
                have hmem : event ∈ t.unread store := by
                  have hlog := hpublished p hp event hevent
                  rw [show p.runId = t.runId from hprun] at hlog
                  exact List.mem_filter.mpr ⟨hlog, decide_eq_true hseq⟩
                rw [hnone] at hmem
                cases hmem
      · rename_i page expired hphase
        unfold DurableEventTail.settle
        cases hlast : page.events.getLast? with
        | some last => exact h.wet rfl rfl (by simp [DurableEventTail.finish, hcalls])
        | none =>
            cases expired with
            | true => exact hend
            | false =>
                refine h.change rfl rfl id id ?_
                intro _ _ _
                refine ⟨call, List.mem_of_getElem? hc, ?_⟩
                rw [PageCall.Dry, hphase]
                exact List.getLast?_eq_none_iff.mp hlast
      · rename_i timedOut hphase
        cases hwait : t.subscription.wait timedOut with
        | none => exact h
        | some woken =>
            unfold EventSubscription.wait at hwait
            split at hwait
            · cases hwait
              exact h.wet rfl rfl (by simp [DurableEventTail.move, hcalls, PageCall.Dry])
            · split at hwait <;> cases hwait
              exact h.wet rfl rfl (by simp [DurableEventTail.move, hcalls, PageCall.Dry])
      · exact h

theorem Armed.verify (h : Armed subscriptions publications i t) (fails : Bool) :
    Armed subscriptions publications i (t.verify store fails) := by
  have hclosed : Armed subscriptions publications i
      { t with subscription := { t.subscription with closed := true } } :=
    h.change rfl rfl id (fun _ => rfl) fun call hcall hdry => ⟨call, hcall, hdry⟩
  unfold DurableEventTail.verify
  split
  · exact h
  · split
    · cases fails with
      | true => exact hclosed
      | false => exact h.change rfl rfl id id fun call hcall hdry => ⟨call, hcall, hdry⟩
    · exact hclosed

lemma notify_flag (s : EventSubscription) (latestSeq : ℕ) :
    (s.notify latestSeq).runId = s.runId ∧ (s.notify latestSeq).closed = s.closed ∧
      ((s.notify latestSeq).dirty = true ∨ s.closed = true) ∧
      (s.dirty = true → (s.notify latestSeq).dirty = true) := by
  unfold EventSubscription.notify
  cases hclosed : s.closed with
  | true => simp [hclosed]
  | false => simp

/-- A wake-up takes the tail off the list of one publication and sets its flag. -/
theorem Armed.wake {events : List RunEvent} {runId : String} {p latestSeq : ℕ}
    {woken : ℕ} {rest : List ℕ} (h : Armed subscriptions publications i t)
    (hp : publications[p]? = some ⟨runId, events, some (woken :: rest)⟩)
    {t' : DurableEventTail} (ht' : t' = if woken = i then t.notify latestSeq else t) :
    Armed subscriptions (publications.set p ⟨runId, events, some rest⟩) i t' := by
  obtain ⟨hrun, hclosed, hflag, hdirty⟩ := notify_flag t.subscription latestSeq
  have hsame : Armed subscriptions publications i t' := by
    rw [ht']
    split
    · refine h.change hrun rfl hdirty ?_ fun call hcall hdry => ⟨call, hcall, hdry⟩
      intro hshut
      change (t.subscription.notify latestSeq).closed = true
      rw [hclosed, hshut]
    · exact h
  refine ⟨hsame.subscribed, ?_⟩
  intro call hcall hdry q hq hqrun hpast
  rcases List.mem_or_eq_of_mem_set hq with hold | rfl
  · exact hsame.armed call hcall hdry q hold hqrun hpast
  · by_cases hwoken : woken = i
    · have ht : t' = t.notify latestSeq := by rw [ht', if_pos hwoken]
      right; right
      rw [ht]
      exact hflag.imp id fun hshut => hclosed.trans hshut
    · rcases hsame.armed call hcall hdry _ (List.mem_of_getElem? hp) hqrun hpast with
        hnone | ⟨list, hlist, hi⟩ | hset
      · cases hnone
      · cases hlist
        rcases List.mem_cons.mp hi with rfl | hi
        · exact absurd rfl hwoken
        · exact Or.inr (Or.inl ⟨rest, rfl, hi⟩)
      · exact Or.inr (Or.inr hset)

end

lemma eq_of_getElem?_modify {α : Type} {xs : List α} {i j : ℕ} {f : α → α} {y : α}
    (h : (xs.modify i f)[j]? = some y) :
    ∃ x, xs[j]? = some x ∧ y = if i = j then f x else x := by
  rw [List.getElem?_modify] at h
  obtain ⟨x, hx, hy⟩ := Option.map_eq_some_iff.mp h
  exact ⟨x, hx, hy.symm⟩

namespace TailWorld

/-- What holds whenever the tails have one consumer each. -/
structure Sound (w : TailWorld) : Prop where
  consistent : ∀ runId, w.store.Consistent runId
  published : ∀ p ∈ w.publications, ∀ event ∈ p.events, event ∈ w.store.log p.runId
  reads : ∀ (i : ℕ) (t : DurableEventTail), w.tails[i]? = some t → t.Reads w.store
  armed : ∀ (i : ℕ) (t : DurableEventTail), w.tails[i]? = some t →
    Armed w.subscriptions w.publications i t

variable {w : TailWorld}

lemma initial_sound : initial.Sound where
  consistent := RunStore.initial_consistent
  published p hp := by cases hp
  reads i t ht := by cases ht
  armed i t ht := by cases ht

/-- A step of one tail. -/
lemma Sound.modifyTail (h : w.Sound) {i : ℕ} {f : DurableEventTail → DurableEventTail}
    (hf : ∀ t, w.tails[i]? = some t →
      (f t).Reads w.store ∧ Armed w.subscriptions w.publications i (f t)) :
    (w.modifyTail i f).Sound := by
  refine ⟨h.consistent, h.published, ?_, ?_⟩
  · intro j t' ht'
    obtain ⟨t, ht, rfl⟩ := eq_of_getElem?_modify ht'
    split
    · rename_i hij
      exact (hf t (hij ▸ ht)).1
    · exact h.reads j t ht
  · intro j t' ht'
    obtain ⟨t, ht, rfl⟩ := eq_of_getElem?_modify ht'
    split
    · rename_i hij
      subst hij
      exact (hf t ht).2
    · exact h.armed j t ht

/-- A write of the store, with the publications it starts. -/
lemma Sound.grow (h : w.Sound) {next : RunStore} (hgrows : RunStore.Grows w.store next)
    {started : List Publication} (hstarted : ∀ p ∈ started,
      p.pending = none ∧ ∀ event ∈ p.events, event ∈ next.log p.runId) :
    Sound { w with store := next, publications := w.publications ++ started } where
  consistent runId := hgrows.consistent runId (h.consistent runId)
  published p hp event hevent := by
    rcases List.mem_append.mp hp with hold | hnew
    · exact (hgrows.log p.runId).subset (h.published p hold event hevent)
    · exact (hstarted p hnew).2 event hevent
  reads i t ht := (h.reads i t ht).grow hgrows
  armed i t ht := by
    refine ⟨(h.armed i t ht).subscribed, ?_⟩
    intro call hcall hdry p hp hrun hpast
    rcases List.mem_append.mp hp with hold | hnew
    · exact (h.armed i t ht).armed call hcall hdry p hold hrun hpast
    · exact Or.inl (hstarted p hnew).1

lemma Sound.unpublished (h : w.Sound) {next : RunStore} (hgrows : RunStore.Grows w.store next) :
    Sound { w with store := next } := by
  have hgrown : Sound { w with store := next, publications := w.publications ++ [] } :=
    h.grow hgrows (by simp)
  rwa [List.append_nil] at hgrown

lemma mem_subscribers {runId : String} {i : ℕ} (h : (runId, i) ∈ w.subscriptions) :
    i ∈ w.subscribers runId := by
  refine List.mem_map.mpr ⟨(runId, i), List.mem_filter.mpr ⟨h, ?_⟩, rfl⟩
  simp

lemma Sound.publish (h : w.Sound) (p : ℕ) : (w.publish p).Sound := by
  have hback : ∀ q ∈ (w.publish p).publications, ∃ old ∈ w.publications,
      q.runId = old.runId ∧ q.events = old.events ∧
        (q.pending = old.pending ∨ q.pending = some (w.subscribers q.runId)) := by
    intro q hq
    obtain ⟨j, hj⟩ := List.mem_iff_getElem?.mp hq
    obtain ⟨old, hold, rfl⟩ := eq_of_getElem?_modify hj
    refine ⟨old, List.mem_of_getElem? hold, ?_⟩
    split
    · split
      · exact ⟨rfl, rfl, Or.inr rfl⟩
      · exact ⟨rfl, rfl, Or.inl rfl⟩
    · exact ⟨rfl, rfl, Or.inl rfl⟩
  refine ⟨h.consistent, ?_, h.reads, ?_⟩
  · intro q hq event hevent
    obtain ⟨old, hold, hrun, hevents, -⟩ := hback q hq
    rw [hrun]
    rw [hevents] at hevent
    exact h.published old hold event hevent
  · intro i t ht
    have harmed := h.armed i t ht
    refine ⟨harmed.subscribed, ?_⟩
    intro call hcall hdry q hq hqrun hpast
    obtain ⟨old, hold, hrun, hevents, hpending⟩ := hback q hq
    rw [hevents] at hpast
    rcases hpending with hsame | htaken
    · have hreach := harmed.armed call hcall hdry old hold (hrun ▸ hqrun) hpast
      unfold Publication.Reaches at hreach ⊢
      rw [hsame]
      exact hreach
    · cases hclosed : t.subscription.closed with
      | true => exact Or.inr (Or.inr (Or.inr hclosed))
      | false =>
          refine Or.inr (Or.inl ⟨_, htaken, ?_⟩)
          rw [hqrun]
          exact mem_subscribers (harmed.subscribed hclosed)

lemma Sound.wake (h : w.Sound) (p : ℕ) : (w.wake p).Sound := by
  unfold TailWorld.wake
  split
  · rename_i runId events i rest hp
    have hkept : ∀ q ∈ w.publications.set p ⟨runId, events, some rest⟩,
        ∃ old ∈ w.publications, q.runId = old.runId ∧ q.events = old.events := by
      intro q hq
      rcases List.mem_or_eq_of_mem_set hq with hold | rfl
      · exact ⟨q, hold, rfl, rfl⟩
      · exact ⟨_, List.mem_of_getElem? hp, rfl, rfl⟩
    refine ⟨h.consistent, ?_, ?_, ?_⟩
    · intro q hq event hevent
      obtain ⟨old, hold, hrun, hevents⟩ := hkept q hq
      rw [hrun]
      rw [hevents] at hevent
      exact h.published old hold event hevent
    · intro j t' ht'
      obtain ⟨t, ht, rfl⟩ := eq_of_getElem?_modify ht'
      split
      · exact (h.reads j t ht).notify _
      · exact h.reads j t ht
    · intro j t' ht'
      obtain ⟨t, ht, rfl⟩ := eq_of_getElem?_modify ht'
      exact (h.armed j t ht).wake hp rfl
  · exact h

lemma Sound.subscribe (h : w.Sound) (runId : String) (afterSeq : ℤ) :
    (w.subscribe runId afterSeq).Sound := by
  unfold TailWorld.subscribe
  split
  · exact h
  · refine ⟨h.consistent, h.published, ?_, ?_⟩
    · intro i t ht
      rcases List.mem_append.mp (List.mem_of_getElem? ht) with hold | hnew
      · obtain ⟨j, hj⟩ := List.mem_iff_getElem?.mp hold
        exact h.reads j t hj
      · rw [List.mem_singleton] at hnew
        subst hnew
        refine ⟨h.consistent runId, ?_, fun _ => rfl, le_rfl, Or.inl rfl, ?_, ?_, ?_⟩
        · exact fun hopened => by cases hopened
        · simp [DurableEventTail.delivered]
        · simp
        · simp
    · intro i t ht
      change (w.tails ++ [_])[i]? = some t at ht
      by_cases hi : i < w.tails.length
      · rw [List.getElem?_append_left hi] at ht
        have harmed := h.armed i t ht
        refine ⟨fun hopen => List.mem_append_left _ (harmed.subscribed hopen), harmed.armed⟩
      · rw [List.getElem?_append_right (by omega)] at ht
        have hlast : i = w.tails.length := by
          have hlt := (List.getElem?_eq_some_iff.mp ht).1
          rw [List.length_singleton] at hlt
          omega
        subst hlast
        simp only [Nat.sub_self, List.getElem?_cons_zero, Option.some.injEq] at ht
        subst ht
        refine ⟨fun _ => List.mem_append_right _ (List.mem_singleton_self _), ?_⟩
        simp

lemma Sound.unsubscribe (h : w.Sound) (i : ℕ) : (w.unsubscribe i).Sound := by
  unfold TailWorld.unsubscribe
  split
  · rename_i closing hclosing
    split
    · rename_i hclosed
      refine ⟨h.consistent, h.published, h.reads, ?_⟩
      intro j t ht
      have harmed := h.armed j t ht
      refine ⟨?_, harmed.armed⟩
      intro hopen
      refine List.mem_filter.mpr ⟨harmed.subscribed hopen, ?_⟩
      have hne : j ≠ i := by
        rintro rfl
        rw [hclosing] at ht
        cases ht
        rw [hclosed] at hopen
        cases hopen
      simp [hne]
    · exact h
  · exact h

/-- A write through the runtime. -/
lemma Sound.committed (h : w.Sound) {runId : String} {body : RunStore.Call (List RunEvent)}
    (hgrows : RunStore.Grows w.store (after body w.store))
    (hlog : ∀ events next, body w.store = .ok events next →
      ∀ event ∈ events, event ∈ next.log runId) : (w.committed runId (body w.store)).Sound := by
  unfold after at hgrows
  cases hbody : body w.store with
  | error err next =>
      rw [hbody] at hgrows
      exact h.unpublished hgrows
  | ok events next =>
      rw [hbody] at hgrows
      refine h.grow hgrows ?_
      intro p hp
      rw [List.mem_singleton] at hp
      subst hp
      exact ⟨rfl, hlog events next hbody⟩

lemma Sound.record (h : w.Sound) (runId : String) (args : EventArgs) (expected : PyValue)
    (fresh : Fresh) : (w.step (.record runId args expected fresh)).Sound := by
  refine h.committed ?_ ?_
  · have hgrows := RunStore.grows_after (.appendEvent runId args expected fresh) w.store
    rw [RunStore.StoreCall.run, after_map] at hgrows
    rwa [after_map]
  · intro events next hok event hevent
    simp only [Functor.map, EStateM.map] at hok
    split at hok
    · rename_i recorded _ happend
      cases hok
      obtain ⟨current, required, hcurrent, -, -, hwrite⟩ := RunStore.appendEvent_ok happend
      rw [(RunStore.writeEvent_ok hcurrent hwrite).appended.log]
      exact List.mem_append_right _ hevent
    · cases hok

lemma Sound.recordMany (h : w.Sound) (runId : String) (specs : List (RunEventSpec × Fresh))
    (expected : PyValue) : (w.step (.recordMany runId specs expected)).Sound := by
  refine h.committed ?_ ?_
  · have hgrows := RunStore.grows_after (.appendEvents runId specs expected) w.store
    rw [RunStore.StoreCall.run, after_map] at hgrows
    rwa [after_map]
  · intro events next hok event hevent
    simp only [Functor.map, EStateM.map] at hok
    split at hok
    · rename_i recorded _ happend
      cases hok
      obtain ⟨current, required, -, hcurrent, -, -, hwrite⟩ := RunStore.appendEvents_ok happend
      rw [(RunStore.writeEvents_ok hcurrent hwrite).1.log]
      exact List.mem_append_right _ hevent
    · cases hok

lemma Sound.call (h : w.Sound) {i : ℕ} {limit : ℤ} (hone : w.OneConsumer (.call i limit)) :
    (w.step (.call i limit)).Sound := by
  refine h.modifyTail fun t ht => ?_
  have hreads := h.reads i t ht
  have harmed := h.armed i t ht
  have hnone : t.calls = [] := by
    rw [TailWorld.OneConsumer, TailWorld.caller, ht] at hone
    simpa using hone
  by_cases hopened : t.opened = true
  · rw [if_pos hopened]
    refine ⟨hreads.change rfl rfl rfl rfl hreads.exist ?_ ?_ ?_, harmed.wet rfl rfl ?_⟩
    · exact fun hclosed => nomatch hopened.symm.trans hclosed
    · simp [hnone]
    · simp [hnone, PageCall.Holds]
    · simp [hnone, PageCall.Dry]
  · rw [if_neg hopened]
    exact ⟨hreads, harmed⟩

lemma Sound.close (h : w.Sound) (i : ℕ) : (w.step (.close i)).Sound := by
  refine h.modifyTail fun t ht => ?_
  have hreads := h.reads i t ht
  have harmed := h.armed i t ht
  split
  · exact ⟨hreads.change rfl rfl rfl rfl hreads.exist hreads.idle hreads.single hreads.held,
      harmed.change rfl rfl id id fun call hcall hdry => ⟨call, hcall, hdry⟩⟩
  · exact ⟨hreads, harmed⟩

lemma Sound.closeSubscription (h : w.Sound) (i : ℕ) : (w.step (.closeSubscription i)).Sound := by
  refine h.modifyTail fun t ht => ?_
  have hreads := h.reads i t ht
  have harmed := h.armed i t ht
  split
  · exact ⟨hreads.change rfl rfl rfl rfl hreads.exist hreads.idle hreads.single hreads.held,
      harmed.change rfl rfl id (fun _ => rfl) fun call hcall hdry => ⟨call, hcall, hdry⟩⟩
  · exact ⟨hreads, harmed⟩

theorem Sound.step (h : w.Sound) (event : TailEvent) (hone : w.OneConsumer event) :
    (w.step event).Sound := by
  cases event with
  | write call => exact h.unpublished (RunStore.grows_after call w.store)
  | record runId args expected fresh => exact h.record runId args expected fresh
  | recordMany runId specs expected => exact h.recordMany runId specs expected
  | publish p => exact h.publish p
  | wake p => exact h.wake p
  | subscribe runId afterSeq => exact h.subscribe runId afterSeq
  | verify i fails =>
      exact h.modifyTail fun t ht => ⟨(h.reads i t ht).verify fails, (h.armed i t ht).verify fails⟩
  | call i limit => exact h.call hone
  | advance i c step =>
      exact h.modifyTail fun t ht => ⟨(h.reads i t ht).advance c step,
        (h.armed i t ht).advance (h.reads i t ht) h.published c step⟩
  | close i => exact h.close i
  | closeSubscription i => exact h.closeSubscription i
  | unsubscribe i => exact h.unsubscribe i

theorem run_sound {events : List TailEvent}
    (hone : Machine.Meets step OneConsumer initial events) : (run initial events).Sound :=
  hone.invariant (fun _ event h hone => h.step event hone) initial_sound

/-- A call that sleeps in `wait` has not been passed by a finished publication. -/
lemma Sound.awake (h : w.Sound) {i : ℕ} {t : DurableEventTail} (ht : w.tails[i]? = some t)
    {call : PageCall} (hcall : call ∈ t.calls) (hwaiting : call.phase = .waiting)
    (hasleep : t.subscription.wait false = none) {p : Publication} (hp : p ∈ w.publications)
    (hrun : p.runId = t.runId) (hfinished : p.Finished) :
    ∀ event ∈ p.events, event.seq ≤ t.cursor := by
  intro event hevent
  by_contra hpast
  have hdry : call.Dry := by
    rw [PageCall.Dry, hwaiting]
    trivial
  have hreach := (h.armed i t ht).armed call hcall hdry p hp hrun ⟨event, hevent, by omega⟩
  rw [Publication.Finished] at hfinished
  unfold EventSubscription.wait at hasleep
  rcases hreach with hnone | ⟨rest, hrest, hi⟩ | hdirty | hclosed
  · rw [hnone] at hfinished
    cases hfinished
  · rw [hfinished] at hrest
    cases hrest
    cases hi
  · simp [hdirty] at hasleep
  · by_cases hdirty : t.subscription.dirty = true
    · simp [hdirty] at hasleep
    · simp [hdirty, hclosed] at hasleep

lemma modifyTail_self {i : ℕ} {t : DurableEventTail} {f : DurableEventTail → DurableEventTail}
    (ht : w.tails[i]? = some t) : (w.modifyTail i f).tails[i]? = some (f t) := by
  rw [TailWorld.modifyTail, List.getElem?_modify_eq, ht]
  rfl

/-- One call of `next_page` that nothing interrupts. -/
def nextPage (i : ℕ) (limit : ℤ) (expired : Bool) : List TailEvent :=
  [.call i limit, .advance i 0 .check, .advance i 0 (.query false), .advance i 0 (.settle expired)]

/-- A call on an open tail returns the next unread events, as many as fit on its page. -/
lemma Sound.nextPage (h : w.Sound) {i : ℕ} {t : DurableEventTail} (ht : w.tails[i]? = some t)
    (hopened : t.opened = true) (hclosed : t.closed = false) (hidle : t.calls = [])
    {limit : ℤ} (hlimit : 0 < limit) (expired : Bool) :
    ∃ next, (w.run (TailWorld.nextPage i limit expired)).tails[i]? = some next ∧
      next.delivered =
        t.delivered ++ (t.unread w.store).take (min limit maxEventPageLimit).toNat := by
  have hreads := h.reads i t ht
  have hpage : result (RunStore.events t.runId t.cursor limit) w.store = .ok _ :=
    RunStore.events_page (hreads.exist hopened) hreads.consistent hlimit
  rw [← hreads.unread, result_eq_ok, RunStore.events_after] at hpage
  obtain ⟨page, hevents, hfound⟩ : ∃ page : EventPage, page.events =
      (t.unread w.store).take (min limit maxEventPageLimit).toNat ∧
      RunStore.events t.runId t.cursor limit w.store = .ok page w.store := ⟨_, rfl, hpage⟩
  rw [← hevents]
  have hcalled : (w.run (TailWorld.nextPage i limit expired)).tails[i]? = some
      (({ t with calls := [⟨limit, .holding page⟩] } : DurableEventTail).settle 0
        ⟨limit, .holding page⟩ page expired) := by
    refine (modifyTail_self (modifyTail_self (modifyTail_self (modifyTail_self ht)))).trans ?_
    have hcall : (if t.opened = true then { t with calls := t.calls ++ [⟨limit, .top⟩] } else t) =
        { t with calls := [⟨limit, .top⟩] } := by
      rw [if_pos hopened, hidle, List.nil_append]
    have hcheck (store : RunStore) :
        ({ t with calls := [⟨limit, .top⟩] } : DurableEventTail).advance store 0 .check =
          { t with calls := [⟨limit, .checked⟩] } := by
      simp [DurableEventTail.advance, DurableEventTail.move, hclosed]
    have hquery :
        ({ t with calls := [⟨limit, .checked⟩] } : DurableEventTail).advance w.store 0
            (.query false) = { t with calls := [⟨limit, .holding page⟩] } := by
      simp only [DurableEventTail.advance, List.getElem?_cons_zero]
      rw [show RunStore.events ({ t with calls := [⟨limit, .checked⟩] } : DurableEventTail).runId
        t.cursor limit w.store = .ok page w.store from hfound]
      rfl
    rw [hcall, hcheck]
    exact congrArg some (congrArg (fun t' => t'.advance w.store 0 (.settle expired)) hquery)
  refine ⟨_, hcalled, ?_⟩
  unfold DurableEventTail.settle
  cases hlast : page.events.getLast? with
  | some last => simp [DurableEventTail.delivered]
  | none =>
      rw [List.getLast?_eq_none_iff.mp hlast, List.append_nil]
      cases expired <;> rfl

end TailWorld

end Waking

/-- In every run whose tails have one consumer each, the events of a run are numbered
without gap, what a tail has returned and what lies past its cursor are together exactly
the events after its start, no call sleeps in `wait` while a finished publication holds an
event past the cursor, and the next call returns the next page of what is unread. -/
theorem event_tail (events : List TailEvent)
    (hone : Machine.Meets TailWorld.step TailWorld.OneConsumer .initial events) :
    let w := TailWorld.initial.run events
    ∀ i t, w.tails[i]? = some t →
      Numbered (·.seq) (w.store.log t.runId) ∧
      t.delivered ++ t.unread w.store =
        (w.store.log t.runId).filter (fun e => decide (t.afterSeq < e.seq)) ∧
      (∀ call ∈ t.calls, call.phase = .waiting → t.subscription.wait false = none →
        ∀ p ∈ w.publications, p.runId = t.runId → p.Finished →
          ∀ event ∈ p.events, event.seq ≤ t.cursor) ∧
      (t.opened = true → t.closed = false → t.calls = [] → ∀ limit : ℤ, 0 < limit → ∀ expired,
        ∃ next, (w.run (TailWorld.nextPage i limit expired)).tails[i]? = some next ∧
          next.delivered =
            t.delivered ++ (t.unread w.store).take (min limit maxEventPageLimit).toNat) := by
  intro w i t ht
  have hsound : w.Sound := TailWorld.run_sound hone
  have hreads := hsound.reads i t ht
  refine ⟨hreads.consistent.numbered, hreads.exact, ?_, ?_⟩
  · intro call hcall hwaiting hasleep p hp hrun hfinished
    exact hsound.awake ht hcall hwaiting hasleep hp hrun hfinished
  · intro hopened hclosed hidle limit hlimit expired
    exact hsound.nextPage ht hopened hclosed hidle hlimit expired

/-- A run with one recorded event, and a tail of it opened at the start. -/
def recordedOnce : List TailEvent :=
  [.write (.createTask { projectRoot := "/p", prompt := "fix", taskId := some "t" } ⟨"u0", 0⟩),
   .write (.createRun { taskId := "t", runId := some "r" } ⟨"u1", 0⟩),
   .record "r" { type := "run.started", payload := .dict [] } (.int 0) ⟨"e1", 0⟩,
   .subscribe "r" 0, .verify 0 false]

/-- The one consumer reads the event and sleeps; a second event is recorded and published,
and the consumer wakes and reads it. -/
def readThenWoken : List TailEvent :=
  recordedOnce ++ TailWorld.nextPage 0 10 false ++
    [.publish 0, .call 0 10, .advance 0 0 .check, .advance 0 0 (.query false),
     .advance 0 0 (.settle false),
     .record "r" { type := "proposal.ready", payload := .dict [] } (.int 1) ⟨"e2", 0⟩,
     .publish 1, .wake 1, .advance 0 0 (.wait false), .advance 0 0 .check,
     .advance 0 0 (.query false), .advance 0 0 (.settle false)]

theorem event_tail_sample :
    ((TailWorld.initial.run readThenWoken).tails[0]?.map fun t => t.delivered.map (·.seq)) =
        some [1, 2] ∧
      ∀ t, (TailWorld.initial.run readThenWoken).tails[0]? = some t →
        Numbered (·.seq) ((TailWorld.initial.run readThenWoken).store.log t.runId) :=
  ⟨by decide +kernel, fun t ht => (event_tail readThenWoken (by decide +kernel) 0 t ht).1⟩

/-- Two calls of one tail that overlap: both query before either moves the cursor. -/
def readTwice : List TailEvent :=
  recordedOnce ++
    [.call 0 10, .call 0 10, .advance 0 0 .check, .advance 0 1 .check,
     .advance 0 0 (.query false), .advance 0 1 (.query false), .advance 0 0 (.settle false),
     .advance 0 0 (.settle false)]

/-- Then the tail returns the one event of the run twice. -/
theorem event_tail_overlapping :
    ∃ t, (TailWorld.initial.run readTwice).tails[0]? = some t ∧
      t.delivered.map (·.seq) = [1, 1] ∧
      t.delivered ++ t.unread (TailWorld.initial.run readTwice).store ≠
        ((TailWorld.initial.run readTwice).store.log t.runId).filter
          (fun e => decide (t.afterSeq < e.seq)) := by
  have hseen : ((TailWorld.initial.run readTwice).tails[0]?.map fun t =>
      (t.delivered.map (·.seq),
        (t.delivered ++ t.unread (TailWorld.initial.run readTwice).store).map (·.seq),
        (((TailWorld.initial.run readTwice).store.log t.runId).filter
          (fun e => decide (t.afterSeq < e.seq))).map (·.seq))) =
        some ([1, 1], [1, 1], [1]) := by
    decide +kernel
  obtain ⟨t, ht, hseqs⟩ := Option.map_eq_some_iff.mp hseen
  obtain ⟨hdelivered, hboth, hlog⟩ := by simpa only [Prod.mk.injEq] using hseqs
  refine ⟨t, ht, hdelivered, ?_⟩
  intro heq
  rw [heq, hlog] at hboth
  cases hboth

end Imece.RunRuntime
