import Mathlib.Data.List.Induction

/-!
# Runs of a machine

A machine takes one event at a time. What every event keeps holds after every run, and
what every event keeps under a condition holds after every run whose events meet it.
-/
namespace Imece.Lib.Machine

variable {σ ε : Type} (step : σ → ε → σ)

/-- The state after a list of events. -/
def run (s : σ) (events : List ε) : σ := events.foldl step s

/-- Every event of a run meets a condition in the state it comes to. -/
def Meets (ok : σ → ε → Prop) : σ → List ε → Prop
  | _, [] => True
  | s, event :: rest => ok s event ∧ Meets ok (step s event) rest

instance Meets.decidable {ok : σ → ε → Prop} [∀ s event, Decidable (ok s event)] :
    (s : σ) → (events : List ε) → Decidable (Meets step ok s events)
  | _, [] => isTrue trivial
  | s, event :: rest => @instDecidableAnd _ _ _ (Meets.decidable (step s event) rest)

variable {step}

lemma run_cons (s : σ) (event : ε) (rest : List ε) :
    run step s (event :: rest) = run step (step s event) rest :=
  rfl

lemma run_append (s : σ) (events more : List ε) :
    run step s (events ++ more) = run step (run step s events) more :=
  List.foldl_append

variable {I : σ → Prop} {ok : σ → ε → Prop}

theorem Meets.invariant (hstep : ∀ s event, I s → ok s event → I (step s event)) {s : σ}
    (hs : I s) {events : List ε} (h : Meets step ok s events) : I (run step s events) := by
  induction events generalizing s with
  | nil => exact hs
  | cons event rest ih => exact ih (hstep s event hs h.1) h.2

/-- What a run's events meet, up to one of them. -/
theorem Meets.split {s : σ} {before rest : List ε} {event : ε}
    (h : Meets step ok s (before ++ event :: rest)) :
    Meets step ok s before ∧ ok (run step s before) event := by
  induction before generalizing s with
  | nil => exact ⟨trivial, h.1⟩
  | cons first before ih =>
      obtain ⟨hbefore, hevent⟩ := ih h.2
      exact ⟨⟨h.1, hbefore⟩, hevent⟩

theorem run_invariant (hstep : ∀ s event, I s → I (step s event)) {s : σ} (hs : I s)
    (events : List ε) : I (run step s events) := by
  induction events generalizing s with
  | nil => exact hs
  | cons event rest ih => exact ih (hstep s event hs)

section Logs

variable {α : Type} {P : List α → α → Prop}

/-- Every entry of a log has what it needs before it. -/
def Justified (P : List α → α → Prop) (log : List α) : Prop :=
  ∀ before entry rest, log = before ++ entry :: rest → P before entry

lemma Justified.of_forall {log : List α} (h : ∀ entry ∈ log, ∀ before, P before entry) :
    Justified P log := by
  intro before entry rest hlog
  refine h entry ?_ before
  rw [hlog]
  exact List.mem_append_right before (List.mem_cons_self)

lemma Justified.append {log : List α} (h : Justified P log) {entry : α} (hentry : P log entry) :
    Justified P (log ++ [entry]) := by
  intro before found rest hlog
  rcases List.eq_nil_or_concat rest with rfl | ⟨more, last, rfl⟩
  · obtain ⟨rfl, hfound⟩ := List.append_inj' hlog rfl
    cases hfound
    exact hentry
  · rw [List.concat_eq_append, ← List.cons_append, ← List.append_assoc] at hlog
    exact h before found more (List.append_inj' hlog rfl).1

lemma Justified.of_append {log more : List α} (h : Justified P (log ++ more)) :
    Justified P log := by
  intro before found rest hrest
  exact h before found (rest ++ more) (by rw [hrest, List.append_assoc, List.cons_append])

/-- What an entry needs of each entry before it holds of any two entries in order. -/
lemma Justified.pairwise {R : α → α → Prop} {log : List α} (h : Justified P log)
    (hneeds : ∀ before entry, P before entry → ∀ earlier ∈ before, R earlier entry) :
    log.Pairwise R := by
  induction log using List.reverseRecOn with
  | nil => exact List.Pairwise.nil
  | append_singleton log entry ih =>
      rw [List.pairwise_append]
      refine ⟨ih h.of_append, List.pairwise_singleton R entry, ?_⟩
      intro earlier hearlier last hlast
      rw [List.mem_singleton.mp hlast]
      exact hneeds log entry (h log entry [] rfl) earlier hearlier

/-- What no entry shares with an earlier one happens once. -/
lemma countP_le_one {q : α → Bool} {log : List α}
    (h : log.Pairwise fun earlier entry => q earlier = true → q entry = false) :
    log.countP q ≤ 1 := by
  induction log with
  | nil => simp
  | cons entry rest ih =>
      have hcons := List.pairwise_cons.mp h
      rw [List.countP_cons]
      by_cases hentry : q entry = true
      · have hnone : rest.countP q = 0 := by
          rw [List.countP_eq_zero]
          intro later hlater
          simp [hcons.1 later hlater hentry]
        exact Nat.le_of_eq (by rw [hnone, if_pos hentry])
      · rw [if_neg hentry]
        exact ih hcons.2

/-- Where a label occurs once in a log, its entry is known. -/
lemma eq_of_nodup_filterMap {β : Type} {label : α → Option β} {log : List α}
    (h : (log.filterMap label).Nodup) {a b : α} {x : β} (ha : a ∈ log) (hb : b ∈ log)
    (hax : label a = some x) (hbx : label b = some x) : a = b := by
  induction log with
  | nil => cases ha
  | cons first rest ih =>
      have hmem {c : α} (hc : c ∈ rest) (hcx : label c = some x) : x ∈ rest.filterMap label :=
        List.mem_filterMap.mpr ⟨c, hc, hcx⟩
      rcases List.mem_cons.mp ha with rfl | ha'
      · rcases List.mem_cons.mp hb with rfl | hb'
        · rfl
        · rw [List.filterMap_cons, hax] at h
          exact absurd (hmem hb' hbx) (List.nodup_cons.mp h).1
      · rcases List.mem_cons.mp hb with rfl | hb'
        · rw [List.filterMap_cons, hbx] at h
          exact absurd (hmem ha' hax) (List.nodup_cons.mp h).1
        · refine ih (h.sublist ?_) ha' hb'
          exact List.Sublist.filterMap label (List.sublist_cons_self first rest)

end Logs

end Imece.Lib.Machine
