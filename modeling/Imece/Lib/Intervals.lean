import Mathlib.Data.List.Pairwise
import Mathlib.Data.List.Sort

/-!
# Merging intervals

Intervals of numbers, sorted by where they begin, are merged when they overlap or touch. What
comes out is apart, and every interval lies inside one of the merged ones.
-/
namespace Imece.Lib

/-- The merged intervals after one more, the last of them first. -/
def mergeNext (merged : List (ℕ × ℕ)) (next : ℕ × ℕ) : List (ℕ × ℕ) :=
  match merged with
  | [] => [next]
  | last :: rest =>
      if next.1 ≤ last.2 + 1 then (last.1, max last.2 next.2) :: rest else next :: last :: rest

/-- The order of pairs of numbers. -/
def pairLe (a b : ℕ × ℕ) : Prop := a.1 < b.1 ∨ a.1 = b.1 ∧ a.2 ≤ b.2

instance : DecidableRel pairLe := fun a b =>
  inferInstanceAs (Decidable (a.1 < b.1 ∨ a.1 = b.1 ∧ a.2 ≤ b.2))

instance : IsTrans (ℕ × ℕ) pairLe := ⟨fun a b c => by simp only [pairLe]; omega⟩

instance : Std.Total pairLe := ⟨fun a b => by simp only [pairLe]; omega⟩

def mergeIntervals (intervals : List (ℕ × ℕ)) : List (ℕ × ℕ) :=
  ((intervals.insertionSort pairLe).foldl mergeNext []).reverse

/-- `n` lies in the interval. -/
def Within (n : ℕ) (interval : ℕ × ℕ) : Prop := interval.1 ≤ n ∧ n ≤ interval.2

instance (n : ℕ) (interval : ℕ × ℕ) : Decidable (Within n interval) :=
  inferInstanceAs (Decidable (interval.1 ≤ n ∧ n ≤ interval.2))

/-- One interval lies in another. -/
def Inside (inner outer : ℕ × ℕ) : Prop := outer.1 ≤ inner.1 ∧ inner.2 ≤ outer.2

lemma Inside.refl (interval : ℕ × ℕ) : Inside interval interval :=
  ⟨Nat.le_refl _, Nat.le_refl _⟩

lemma Inside.trans {a b c : ℕ × ℕ} (hab : Inside a b) (hbc : Inside b c) : Inside a c :=
  ⟨Nat.le_trans hbc.1 hab.1, Nat.le_trans hab.2 hbc.2⟩

lemma Inside.within {n : ℕ} {inner outer : ℕ × ℕ} (h : Inside inner outer)
    (hn : Within n inner) : Within n outer :=
  ⟨Nat.le_trans h.1 hn.1, Nat.le_trans hn.2 h.2⟩

/-- The merged intervals lie apart, the last of them first; each begins and ends where given
intervals do. -/
structure Merged (low high : ℕ) (merged : List (ℕ × ℕ)) : Prop where
  apart : merged.Pairwise fun later earlier => earlier.2 + 1 < later.1
  proper : ∀ interval ∈ merged, low ≤ interval.1 ∧ interval.1 ≤ interval.2 ∧ interval.2 ≤ high

section Next

variable {low high : ℕ} {merged : List (ℕ × ℕ)} {next : ℕ × ℕ}

lemma Merged.mergeNext (h : Merged low high merged)
    (hnext : low ≤ next.1 ∧ next.1 ≤ next.2 ∧ next.2 ≤ high) :
    Merged low high (Lib.mergeNext merged next) := by
  cases merged with
  | nil => exact ⟨List.pairwise_singleton _ _, by simpa [Lib.mergeNext] using hnext⟩
  | cons last rest =>
      have hapart := List.pairwise_cons.mp h.apart
      have hlast := h.proper last List.mem_cons_self
      have hrest : ∀ interval ∈ rest, low ≤ interval.1 ∧ interval.1 ≤ interval.2 ∧
          interval.2 ≤ high := fun interval hmem => h.proper interval (List.mem_cons_of_mem _ hmem)
      rw [Lib.mergeNext]
      by_cases htouch : next.1 ≤ last.2 + 1
      · rw [if_pos htouch]
        refine ⟨List.pairwise_cons.mpr ⟨hapart.1, hapart.2⟩, ?_⟩
        refine List.forall_mem_cons.mpr ⟨?_, hrest⟩
        simp only
        omega
      · rw [if_neg htouch]
        refine ⟨List.pairwise_cons.mpr ⟨?_, h.apart⟩, List.forall_mem_cons.mpr ⟨hnext, h.proper⟩⟩
        refine List.forall_mem_cons.mpr ⟨by omega, ?_⟩
        intro earlier hmem
        have := hapart.1 earlier hmem
        omega

/-- What was merged stays inside what is merged. -/
lemma inside_mergeNext {interval : ℕ × ℕ} (h : interval ∈ merged) :
    ∃ outer ∈ mergeNext merged next, Inside interval outer := by
  cases merged with
  | nil => cases h
  | cons last rest =>
      rw [mergeNext]
      by_cases htouch : next.1 ≤ last.2 + 1
      · rw [if_pos htouch]
        rcases List.mem_cons.mp h with rfl | h
        · exact ⟨_, List.mem_cons_self, Nat.le_refl _, Nat.le_max_left _ _⟩
        · exact ⟨interval, List.mem_cons_of_mem _ h, Inside.refl _⟩
      · rw [if_neg htouch]
        exact ⟨interval, List.mem_cons_of_mem _ h, Inside.refl _⟩

lemma next_inside_mergeNext (h : ∀ interval ∈ merged, interval.1 ≤ next.1) :
    ∃ outer ∈ mergeNext merged next, Inside next outer := by
  cases merged with
  | nil => exact ⟨next, List.mem_cons_self, Inside.refl _⟩
  | cons last rest =>
      rw [mergeNext]
      by_cases htouch : next.1 ≤ last.2 + 1
      · rw [if_pos htouch]
        exact ⟨_, List.mem_cons_self, h last List.mem_cons_self, Nat.le_max_right _ _⟩
      · rw [if_neg htouch]
        exact ⟨next, List.mem_cons_self, Inside.refl _⟩

/-- No merged interval begins behind all that were merged. -/
lemma begin_mergeNext_le {bound : ℕ} (h : ∀ interval ∈ merged, interval.1 ≤ bound)
    (hnext : next.1 ≤ bound) : ∀ interval ∈ mergeNext merged next, interval.1 ≤ bound := by
  cases merged with
  | nil =>
      intro interval hmem
      rw [List.mem_singleton.mp hmem]
      exact hnext
  | cons last rest =>
      rw [mergeNext]
      by_cases htouch : next.1 ≤ last.2 + 1
      · rw [if_pos htouch]
        exact List.forall_mem_cons.mpr ⟨h last List.mem_cons_self,
          fun interval hmem => h interval (List.mem_cons_of_mem _ hmem)⟩
      · rw [if_neg htouch]
        exact List.forall_mem_cons.mpr ⟨hnext, h⟩

end Next

/-- The loop over sorted intervals. -/
lemma merged_foldl {low high : ℕ} {intervals merged : List (ℕ × ℕ)}
    (hsorted : intervals.Pairwise pairLe) (hmerged : Merged low high merged)
    (hbegin : ∀ interval ∈ intervals, ∀ earlier ∈ merged, earlier.1 ≤ interval.1)
    (hproper : ∀ interval ∈ intervals, low ≤ interval.1 ∧ interval.1 ≤ interval.2 ∧
      interval.2 ≤ high) :
    Merged low high (intervals.foldl mergeNext merged) ∧
      ∀ interval, interval ∈ merged ∨ interval ∈ intervals →
        ∃ outer ∈ intervals.foldl mergeNext merged, Inside interval outer := by
  induction intervals generalizing merged with
  | nil =>
      refine ⟨hmerged, ?_⟩
      rintro interval (h | h)
      · exact ⟨interval, h, Inside.refl _⟩
      · cases h
  | cons next rest ih =>
      have hsplit := List.pairwise_cons.mp hsorted
      have hfirst := hbegin next List.mem_cons_self
      have hlater : ∀ interval ∈ rest, ∀ earlier ∈ mergeNext merged next,
          earlier.1 ≤ interval.1 := by
        intro interval hmem
        have hle : next.1 ≤ interval.1 := by
          rcases hsplit.1 interval hmem with h | h
          · omega
          · omega
        exact begin_mergeNext_le (fun earlier hearlier =>
          hbegin interval (List.mem_cons_of_mem _ hmem) earlier hearlier) hle
      obtain ⟨hdone, hcover⟩ := ih hsplit.2 (hmerged.mergeNext (hproper next List.mem_cons_self)) hlater
        fun interval hmem => hproper interval (List.mem_cons_of_mem _ hmem)
      refine ⟨hdone, ?_⟩
      intro interval hmem
      have hstep : ∃ outer ∈ mergeNext merged next, Inside interval outer ∨ interval ∈ rest := by
        rcases hmem with h | h
        · obtain ⟨outer, houter, hinside⟩ := @inside_mergeNext merged next interval h
          exact ⟨outer, houter, Or.inl hinside⟩
        · obtain ⟨outer, houter, hinside⟩ := next_inside_mergeNext hfirst
          rcases List.mem_cons.mp h with rfl | h
          · exact ⟨outer, houter, Or.inl hinside⟩
          · exact ⟨outer, houter, Or.inr h⟩
      obtain ⟨outer, houter, hinside | hrest⟩ := hstep
      · obtain ⟨last, hlast, hlater⟩ := hcover outer (Or.inl houter)
        exact ⟨last, hlast, hinside.trans hlater⟩
      · exact hcover interval (Or.inr hrest)

section Merge

variable {low high : ℕ} {intervals : List (ℕ × ℕ)}

private lemma mergeIntervals_spec (hproper : ∀ interval ∈ intervals, low ≤ interval.1 ∧
    interval.1 ≤ interval.2 ∧ interval.2 ≤ high) :
    Merged low high (mergeIntervals intervals).reverse ∧ ∀ interval ∈ intervals,
      ∃ outer ∈ mergeIntervals intervals, Inside interval outer := by
  have hempty : Merged low high [] := ⟨List.Pairwise.nil, fun _ h => absurd h List.not_mem_nil⟩
  obtain ⟨hmerged, hcover⟩ := merged_foldl (List.pairwise_insertionSort pairLe intervals) hempty
    (fun _ _ _ h => absurd h List.not_mem_nil)
    fun interval hmem => hproper interval ((List.mem_insertionSort pairLe).mp hmem)
  refine ⟨by rwa [mergeIntervals, List.reverse_reverse], ?_⟩
  intro interval hmem
  obtain ⟨outer, houter, hinside⟩ := hcover interval
    (Or.inr ((List.mem_insertionSort pairLe).mpr hmem))
  exact ⟨outer, List.mem_reverse.mpr houter, hinside⟩

theorem mergeIntervals_proper (hproper : ∀ interval ∈ intervals, low ≤ interval.1 ∧
    interval.1 ≤ interval.2 ∧ interval.2 ≤ high) :
    ∀ interval ∈ mergeIntervals intervals, low ≤ interval.1 ∧ interval.1 ≤ interval.2 ∧
      interval.2 ≤ high := by
  intro interval hmem
  exact (mergeIntervals_spec hproper).1.proper interval (List.mem_reverse.mpr hmem)

/-- Every interval lies inside each merged one that holds a number of it. -/
theorem inside_of_within (hproper : ∀ interval ∈ intervals, low ≤ interval.1 ∧
    interval.1 ≤ interval.2 ∧ interval.2 ≤ high) {interval outer : ℕ × ℕ} {n : ℕ}
    (hmem : interval ∈ intervals) (hn : Within n interval)
    (houter : outer ∈ mergeIntervals intervals) (hn' : Within n outer) :
    Inside interval outer := by
  obtain ⟨hmerged, hcover⟩ := mergeIntervals_spec hproper
  obtain ⟨other, hother, hinside⟩ := hcover interval hmem
  have hwithin := hinside.within hn
  have hapart := List.pairwise_reverse.mp hmerged.apart
  by_cases heq : outer = other
  · rwa [heq]
  · have hsymm : Std.Symm fun a b : ℕ × ℕ => a.2 + 1 < b.1 ∨ b.2 + 1 < a.1 :=
      ⟨fun _ _ h => h.symm⟩
    have heither : (mergeIntervals intervals).Pairwise
        fun a b => a.2 + 1 < b.1 ∨ b.2 + 1 < a.1 := hapart.imp fun h => Or.inl h
    have := heither.forall houter hother heq
    simp only [Within] at hn' hwithin
    omega

theorem exists_within (hproper : ∀ interval ∈ intervals, low ≤ interval.1 ∧
    interval.1 ≤ interval.2 ∧ interval.2 ≤ high) {interval : ℕ × ℕ} {n : ℕ}
    (hmem : interval ∈ intervals) (hn : Within n interval) :
    ∃ outer ∈ mergeIntervals intervals, Within n outer := by
  obtain ⟨outer, houter, hinside⟩ := (mergeIntervals_spec hproper).2 interval hmem
  exact ⟨outer, houter, hinside.within hn⟩

end Merge

end Imece.Lib
