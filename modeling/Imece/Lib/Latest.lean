import Mathlib.Data.List.Basic
import Mathlib.Tactic.Common

/-!
# The latest match in a log

`latest p` picks the last event that satisfies `p`. A log splits at it: what
follows has no match. Where the events carry increasing numbers, a comparison of
numbers selects one side of such a split.
-/
namespace Imece.Lib

variable {E : Type*} {p : E → Bool}

def latest (p : E → Bool) (es : List E) : Option E := (es.filter p).getLast?

theorem latest_eq_some {es : List E} {x : E} :
    latest p es = some x ↔
      ∃ pre post, es = pre ++ x :: post ∧ p x = true ∧ ∀ y ∈ post, p y = false := by
  unfold latest
  constructor
  · intro h
    obtain ⟨front, hfront⟩ := List.getLast?_eq_some_iff.mp h
    obtain ⟨pre, rest, rfl, -, hrest⟩ := List.filter_eq_append_iff.mp hfront
    obtain ⟨mid, post, rfl, -, hx, hpost⟩ := List.filter_eq_cons_iff.mp hrest
    refine ⟨pre ++ mid, post, by simp, hx, fun y hy => ?_⟩
    have hnone := List.filter_eq_nil_iff.mp hpost y hy
    simpa using hnone
  · rintro ⟨pre, post, rfl, hx, hpost⟩
    have hnil : post.filter p = [] := by
      rw [List.filter_eq_nil_iff]
      intro y hy
      simp [hpost y hy]
    simp [List.filter_append, hx, hnil]

theorem latest_eq_none {es : List E} : latest p es = none ↔ ∀ y ∈ es, p y = false := by
  unfold latest
  rw [List.getLast?_eq_none_iff, List.filter_eq_nil_iff]
  simp

/-- What was matched later comes first. -/
theorem latest_append (es fs : List E) : latest p (es ++ fs) = (latest p fs).or (latest p es) := by
  rw [latest, latest, latest, List.filter_append, List.getLast?_append]

/-- The latest match among what a log's entries show, at the entry that shows it. -/
theorem latest_filterMap_eq_some {F : Type*} {show_ : F → Option E} {fs : List F} {x : E}
    (h : latest p (fs.filterMap show_) = some x) :
    ∃ pre entry post, fs = pre ++ entry :: post ∧ show_ entry = some x ∧ p x = true ∧
      ∀ later ∈ post, ∀ y, show_ later = some y → p y = false := by
  obtain ⟨shown, rest, heq, hx, hrest⟩ := latest_eq_some.mp h
  obtain ⟨pre, tail, rfl, -, htail⟩ := List.filterMap_eq_append_iff.mp heq
  obtain ⟨hidden, entry, post, rfl, hhidden, hentry, rfl⟩ := List.filterMap_eq_cons_iff.mp htail
  refine ⟨pre ++ hidden, entry, post, by simp, hentry, hx, fun later hlater y hy => ?_⟩
  exact hrest y (List.mem_filterMap.mpr ⟨later, hlater, hy⟩)

section Split

variable {seq : E → ℕ} {pre post : List E} {x : E}
  (h : (pre ++ x :: post).Pairwise fun a b => seq a < seq b)
include h

lemma seq_before {y : E} (hy : y ∈ pre) : seq y < seq x := by
  rw [List.pairwise_append] at h
  exact h.2.2 y hy x (by simp)

lemma seq_after {y : E} (hy : y ∈ post) : seq x < seq y := by
  rw [List.pairwise_append, List.pairwise_cons] at h
  exact h.2.1.1 y hy

/-- The events numbered before `x`. -/
theorem filter_before (q : E → Bool) :
    (pre ++ x :: post).filter (fun y => decide (seq y < seq x) && q y) = pre.filter q := by
  have hpre : pre.filter (fun y => decide (seq y < seq x) && q y) = pre.filter q := by
    apply List.filter_congr
    intro y hy
    simp [seq_before h hy]
  have hpost : (x :: post).filter (fun y => decide (seq y < seq x) && q y) = [] := by
    rw [List.filter_eq_nil_iff]
    intro y hy
    rcases List.mem_cons.mp hy with rfl | hy
    · simp
    · have hlt := seq_after h hy
      simp [Nat.not_lt.mpr (Nat.le_of_lt hlt)]
  rw [List.filter_append, hpre, hpost, List.append_nil]

/-- The events from `x` on. -/
theorem filter_from (q : E → Bool) :
    (pre ++ x :: post).filter (fun y => decide (seq x ≤ seq y) && q y) =
      (x :: post).filter q := by
  have hpre : pre.filter (fun y => decide (seq x ≤ seq y) && q y) = [] := by
    rw [List.filter_eq_nil_iff]
    intro y hy
    have hlt := seq_before h hy
    simp [Nat.not_le.mpr hlt]
  have hpost : (x :: post).filter (fun y => decide (seq x ≤ seq y) && q y) =
      (x :: post).filter q := by
    apply List.filter_congr
    intro y hy
    rcases List.mem_cons.mp hy with rfl | hy
    · simp
    · simp [Nat.le_of_lt (seq_after h hy)]
  rw [List.filter_append, hpre, List.nil_append, hpost]

/-- Looking for the latest match from `x` on, or before `x`, or whether there is
one after `x`, is looking on one side of the split. -/
theorem latest_from (q : E → Bool) :
    latest (fun y => decide (seq x ≤ seq y) && q y) (pre ++ x :: post) =
      latest q (x :: post) := by
  unfold latest
  rw [filter_from h]

theorem latest_before (q : E → Bool) :
    latest (fun y => decide (seq y < seq x) && q y) (pre ++ x :: post) = latest q pre := by
  unfold latest
  rw [filter_before h]

theorem none_after {q : E → Bool}
    (hnone : (pre ++ x :: post).any (fun y => decide (seq x < seq y) && q y) = false) :
    ∀ y ∈ post, q y = false := by
  intro y hy
  have hnot := List.any_eq_false.mp hnone y (by simp [hy])
  simpa [seq_after h hy] using hnot

end Split

section Aligned

variable {F : Type*} {es : List E} {fs : List F} {kept : E → Bool} {kept' : F → Bool}
  {pairs : List (E × F)} {q : F → Bool}

/-- What two logs have in common, where their other events are set aside: the pairs. -/
structure Aligned (kept : E → Bool) (kept' : F → Bool) (es : List E) (fs : List F)
    (pairs : List (E × F)) : Prop where
  left : es.filter kept = pairs.map Prod.fst
  right : fs.filter kept' = pairs.map Prod.snd

/-- A selection among the common events that treats both sides of a pair alike. -/
lemma Aligned.filter (h : Aligned kept kept' es fs pairs)
    (hp : ∀ e, p e = true → kept e = true) (hq : ∀ f, q f = true → kept' f = true)
    (hpq : ∀ x ∈ pairs, p x.1 = q x.2) : Aligned p q es fs (pairs.filter (p ·.1)) where
  left := by
    have hboth : es.filter p = (es.filter kept).filter p := by
      rw [List.filter_filter]
      refine List.filter_congr fun e _ => ?_
      cases he : p e with
      | false => rfl
      | true => simp [hp e he]
    rw [hboth, h.left, List.filter_map]
    rfl
  right := by
    have hboth : fs.filter q = (fs.filter kept').filter q := by
      rw [List.filter_filter]
      refine List.filter_congr fun f _ => ?_
      cases hf : q f with
      | false => rfl
      | true => simp [hq f hf]
    rw [hboth, h.right, List.filter_map]
    congr 1
    refine List.filter_congr fun x hx => ?_
    exact (hpq x hx).symm

/-- The latest match is on both sides of one pair, or there is none on either side. -/
theorem Aligned.latest (h : Aligned kept kept' es fs pairs)
    (hp : ∀ e, p e = true → kept e = true) (hq : ∀ f, q f = true → kept' f = true)
    (hpq : ∀ x ∈ pairs, p x.1 = q x.2) :
    (latest p es = none ∧ latest q fs = none) ∨
      ∃ x ∈ pairs, p x.1 = true ∧ latest p es = some x.1 ∧ latest q fs = some x.2 := by
  obtain ⟨hleft, hright⟩ := h.filter hp hq hpq
  unfold Lib.latest
  rw [hleft, hright, List.getLast?_map, List.getLast?_map]
  cases hlast : (pairs.filter (p ·.1)).getLast? with
  | none => exact Or.inl ⟨rfl, rfl⟩
  | some x =>
      obtain ⟨hmem, hx⟩ := List.mem_filter.mp (List.mem_of_getLast? hlast)
      exact Or.inr ⟨x, hmem, hx, rfl, rfl⟩

theorem Aligned.any (h : Aligned kept kept' es fs pairs)
    (hp : ∀ e, p e = true → kept e = true) (hq : ∀ f, q f = true → kept' f = true)
    (hpq : ∀ x ∈ pairs, p x.1 = q x.2) : es.any p = fs.any q := by
  obtain ⟨hleft, hright⟩ := h.filter hp hq hpq
  rw [Bool.eq_iff_iff, List.any_eq_true, List.any_eq_true]
  have hmem : (∃ e ∈ es, p e = true) ↔ es.filter p ≠ [] := by
    simp [List.filter_eq_nil_iff]
  have hmem' : (∃ f ∈ fs, q f = true) ↔ fs.filter q ≠ [] := by
    simp [List.filter_eq_nil_iff]
  rw [hmem, hmem', hleft, hright]
  simp

end Aligned

end Imece.Lib
