import Mathlib.Data.List.Basic

/-!
# Brackets in a trace

A trace starts once, may end once, and opens and closes one bracket at a time, each
under a label. An automaton reads the marks of a trace; what it accepts is well ordered.
-/
namespace Imece.Lib

variable {κ : Type}

/-- What an entry of a trace means for its brackets. -/
inductive Mark (κ : Type) where
  | started
  | opened (label : κ)
  | closed (label : κ)
  | ended
  | neutral
deriving DecidableEq

/-- Where a trace stands. -/
inductive Bracket (κ : Type) where
  | fresh
  | idle
  | within (label : κ)
  | finished
deriving DecidableEq

namespace Mark

/-- The mark asks for a closed bracket. -/
def stops : Mark κ → Bool
  | opened _ | ended => true
  | _ => false

def closes : Mark κ → Option κ
  | closed label => some label
  | _ => none

end Mark

namespace Bracket

variable [DecidableEq κ]

def next : Bracket κ → Mark κ → Option (Bracket κ)
  | fresh, .started => some idle
  | idle, .opened label => some (within label)
  | idle, .ended => some finished
  | idle, .neutral => some idle
  | within label, .closed other => if other = label then some idle else none
  | within label, .neutral => some (within label)
  | _, _ => none

def run : Bracket κ → List (Mark κ) → Option (Bracket κ)
  | b, [] => some b
  | b, mark :: rest =>
      match b.next mark with
      | some b' => run b' rest
      | none => none

lemma run_append {b : Bracket κ} (marks more : List (Mark κ)) :
    b.run (marks ++ more) = (b.run marks).bind fun b' => b'.run more := by
  induction marks generalizing b with
  | nil => rfl
  | cons mark rest ih =>
      rw [List.cons_append, run, run]
      cases b.next mark with
      | none => rfl
      | some b' => exact ih

lemma run_concat {b b' b'' : Bracket κ} {marks : List (Mark κ)} {mark : Mark κ}
    (h : b.run marks = some b') (hmark : b'.next mark = some b'') :
    b.run (marks ++ [mark]) = some b'' := by
  rw [run_append, h, Option.bind_some, run, hmark]
  rfl

end Bracket

/-- A trace whose first entry starts it and is the only one that does, with nothing after
its end, in which every opened bracket is closed exactly once, under its label, before
the next one opens or the trace ends. -/
structure WellOrdered (marks : List (Mark κ)) : Prop where
  starts : ∀ first rest, marks = first :: rest → first = .started ∧ .started ∉ rest
  ends : ∀ before after, marks = before ++ .ended :: after → after = []
  closed : ∀ before label between stop after,
    marks = before ++ .opened label :: (between ++ stop :: after) → stop.stops = true →
    (∀ mark ∈ between, mark.stops = false) → between.filterMap Mark.closes = [label]

section Accepted

variable [DecidableEq κ] {b b' : Bracket κ} {marks : List (Mark κ)}

/-- What an automaton accepts, split at an entry. -/
lemma run_split {before after : List (Mark κ)} {mark : Mark κ}
    (h : b.run (before ++ mark :: after) = some b') :
    ∃ mid next, b.run before = some mid ∧ mid.next mark = some next ∧ next.run after = some b' := by
  rw [Bracket.run_append, Option.bind_eq_some_iff] at h
  obtain ⟨mid, hmid, h⟩ := h
  rw [Bracket.run] at h
  cases hnext : mid.next mark with
  | none =>
      rw [hnext] at h
      cases h
  | some next =>
      rw [hnext] at h
      exact ⟨mid, next, hmid, hnext, h⟩

lemma next_started (h : b.next .started = some b') : b = .fresh ∧ b' = .idle := by
  cases b <;> cases h
  exact ⟨rfl, rfl⟩

/-- Nothing comes back to the start of a trace. -/
lemma run_ne_fresh (hb : b ≠ .fresh) (h : b.run marks = some b') : b' ≠ .fresh := by
  induction marks generalizing b with
  | nil =>
      cases h
      exact hb
  | cons mark rest ih =>
      have hsplit : b.run ([] ++ mark :: rest) = some b' := h
      obtain ⟨mid, next, hmid, hnext, hrest⟩ := run_split hsplit
      cases hmid
      refine ih ?_ hrest
      rintro rfl
      cases b <;> cases mark <;> simp [Bracket.next] at hnext

lemma run_finished (h : Bracket.finished.run marks = some b') : marks = [] := by
  cases marks with
  | nil => rfl
  | cons mark rest => cases mark <;> cases h

/-- Inside a bracket, up to the next entry that asks for it to be closed. -/
lemma run_between {label : κ} {between : List (Mark κ)}
    (hquiet : ∀ mark ∈ between, mark.stops = false)
    (h : (Bracket.within label).run between = some b') :
    b' = .within label ∧ between.filterMap Mark.closes = [] ∨
      b' = .idle ∧ between.filterMap Mark.closes = [label] := by
  have hidle {rest : List (Mark κ)} {last : Bracket κ}
      (hquiet : ∀ mark ∈ rest, mark.stops = false) (h : Bracket.idle.run rest = some last) :
      last = .idle ∧ rest.filterMap Mark.closes = [] := by
    induction rest with
    | nil =>
        cases h
        exact ⟨rfl, rfl⟩
    | cons mark rest ih =>
        rw [List.forall_mem_cons] at hquiet
        cases mark with
        | neutral => exact ih hquiet.2 h
        | opened label => cases hquiet.1
        | ended => cases hquiet.1
        | started => cases h
        | closed label => cases h
  induction between with
  | nil =>
      cases h
      exact Or.inl ⟨rfl, rfl⟩
  | cons mark rest ih =>
      rw [List.forall_mem_cons] at hquiet
      cases mark with
      | neutral => exact ih hquiet.2 h
      | closed other =>
          rw [Bracket.run, Bracket.next] at h
          split_ifs at h with hother
          · obtain ⟨hlast, hrest⟩ := hidle hquiet.2 h
            refine Or.inr ⟨hlast, ?_⟩
            rw [List.filterMap_cons, hrest, hother]
            rfl
      | opened label => cases hquiet.1
      | ended => cases hquiet.1
      | started => cases h

/-- What the automaton accepts is well ordered. -/
theorem wellOrdered_of_run (h : Bracket.fresh.run marks = some b') : WellOrdered marks := by
  constructor
  · intro first rest hmarks
    have hsplit : Bracket.fresh.run ([] ++ first :: rest) = some b' := hmarks ▸ h
    obtain ⟨mid, next, hmid, hnext, hrest⟩ := run_split hsplit
    cases hmid
    have hfirst : first = .started := by
      cases first <;> cases hnext
      rfl
    subst hfirst
    refine ⟨rfl, fun hmem => ?_⟩
    obtain ⟨before, after, hrestarts⟩ := List.append_of_mem hmem
    rw [hrestarts] at hrest
    obtain ⟨reached, later, hreached, hlater, -⟩ := run_split hrest
    cases hnext
    exact run_ne_fresh (by simp) hreached (next_started hlater).1
  · intro before after hmarks
    rw [hmarks] at h
    obtain ⟨mid, next, -, hnext, hrest⟩ := run_split h
    cases mid <;> cases hnext
    exact run_finished hrest
  · intro before label between stop after hmarks hstop hquiet
    rw [hmarks] at h
    obtain ⟨mid, next, -, hnext, hrest⟩ := run_split h
    obtain ⟨last, stopped, hlast, hstopped, -⟩ := run_split hrest
    have hwithin : next = .within label := by
      cases mid <;> cases hnext
      rfl
    subst hwithin
    rcases run_between hquiet hlast with ⟨rfl, -⟩ | ⟨-, hclosed⟩
    · cases stop <;> cases hstop <;> cases hstopped
    · exact hclosed

end Accepted

end Imece.Lib
