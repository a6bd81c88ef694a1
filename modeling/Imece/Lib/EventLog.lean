import Mathlib.Data.List.Nodup
import Mathlib.Data.List.Range
import Mathlib.Data.List.Infix

/-!
# Append-only event logs

A state is the fold of a fallible `apply` over a list of events. The log only
grows at its end, so what a prefix says stays true, and a writer that checks the
length of the log it has read before it appends has read the whole log.
-/
namespace Imece.Lib

section Replay

variable {S E ε : Type*}

/-- The fold of `apply` over the events in order. -/
@[grind =] def replay (apply : S → E → Except ε S) : S → List E → Except ε S
  | s, [] => .ok s
  | s, e :: es =>
      match apply s e with
      | .error err => .error err
      | .ok t => replay apply t es

variable {apply : S → E → Except ε S}

theorem replay_append (s : S) (es fs : List E) :
    replay apply s (es ++ fs) =
      match replay apply s es with
      | .error err => .error err
      | .ok t => replay apply t fs := by
  induction es generalizing s with
  | nil => rfl
  | cons e es ih =>
      simp only [List.cons_append, replay]
      cases apply s e with
      | error err => rfl
      | ok t => exact ih t

theorem replay_append_ok {s u : S} {es fs : List E} :
    replay apply s (es ++ fs) = .ok u ↔
      ∃ t, replay apply s es = .ok t ∧ replay apply t fs = .ok u := by
  rw [replay_append]
  cases replay apply s es <;> simp

theorem replay_singleton (s : S) (e : E) : replay apply s [e] = apply s e := by
  simp only [replay]
  cases apply s e <;> rfl

/-- One more event is one more step of the fold. -/
theorem replay_snoc {s t u : S} {es : List E} {e : E}
    (hes : replay apply s es = .ok t) (he : apply t e = .ok u) :
    replay apply s (es ++ [e]) = .ok u := by
  rw [replay_append_ok]
  exact ⟨t, hes, by rw [replay_singleton, he]⟩

/-- A relation kept by every step is kept by the fold. -/
theorem replay_invariant {P : S → Prop} (hstep : ∀ s e t, P s → apply s e = .ok t → P t)
    {s t : S} {es : List E} (hs : P s) (h : replay apply s es = .ok t) : P t := by
  induction es generalizing s with
  | nil =>
      cases h
      exact hs
  | cons e es ih =>
      simp only [replay] at h
      split at h
      · cases h
      · rename_i u hu
        exact ih (hstep s e u hs hu) h

/-- An observation that commutes with each step commutes with the fold. -/
theorem replay_observe {O : Type*} (observe : S → O) (step : O → E → O)
    (hstep : ∀ s e t, apply s e = .ok t → observe t = step (observe s) e)
    {s t : S} {es : List E} (h : replay apply s es = .ok t) :
    observe t = es.foldl step (observe s) := by
  induction es generalizing s with
  | nil =>
      cases h
      rfl
  | cons e es ih =>
      simp only [replay] at h
      split at h
      · cases h
      · rename_i u hu
        rw [List.foldl_cons, ih h, hstep s e u hu]

end Replay

section Numbering

variable {E : Type*} (seq : E → ℕ)

/-- The events carry the numbers `1 .. n` in order, without gap or repeat. -/
@[grind =] def Numbered (es : List E) : Prop := es.map seq = List.range' 1 es.length

@[simp] theorem numbered_nil : Numbered seq [] := rfl

variable {seq}

theorem numbered_snoc {es : List E} {e : E} (h : Numbered seq es)
    (he : seq e = es.length + 1) : Numbered seq (es ++ [e]) := by
  unfold Numbered at h ⊢
  rw [List.map_append, h, List.length_append, List.map_singleton, List.length_singleton,
    List.range'_concat, he]
  simp [Nat.add_comm]

theorem numbered_getElem {es : List E} (h : Numbered seq es) (i : ℕ) (hi : i < es.length) :
    seq es[i] = i + 1 := by
  have hmap : (es.map seq)[i]? = some (i + 1) := by
    rw [h, List.getElem?_range' hi]
    simp only [Nat.one_mul, Nat.add_comm]
  rw [List.getElem?_map, List.getElem?_eq_getElem hi] at hmap
  exact Option.some.inj hmap

theorem numbered_pairwise {es : List E} (h : Numbered seq es) :
    es.Pairwise (fun x y => seq x < seq y) := by
  have hmap : (es.map seq).Pairwise (· < ·) := by
    rw [show es.map seq = List.range' 1 es.length from h]
    exact List.pairwise_lt_range'
  exact List.pairwise_map.mp hmap

theorem numbered_take {es : List E} (h : Numbered seq es) (n : ℕ) :
    Numbered seq (es.take n) := by
  unfold Numbered at h ⊢
  rw [List.map_take, h, List.length_take]
  rcases Nat.le_total n es.length with hn | hn
  · rw [List.take_range'_of_length_ge hn, Nat.min_eq_left hn]
  · rw [List.take_range'_of_length_le hn, Nat.min_eq_right hn]

end Numbering

section Optimistic

variable {E : Type*}

/-- A snapshot of a growing log that has the log's length is the log. -/
theorem snapshot_eq_of_length {seen now : List E} (h : seen <+: now)
    (hlength : now.length ≤ seen.length) : seen = now :=
  h.eq_of_length_le hlength

/-- What was read at the front of a log stays there as the log grows. -/
theorem take_of_grows {seen now : List E} (h : seen <+: now) {n : ℕ} (hn : n ≤ seen.length) :
    now.take n = seen.take n := by
  obtain ⟨rest, rfl⟩ := h
  rw [List.take_append_of_le_length hn]

end Optimistic

end Imece.Lib
