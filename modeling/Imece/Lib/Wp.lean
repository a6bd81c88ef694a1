import Imece.Lib.Transaction

/-!
# Weakest preconditions

What a state-passing computation guarantees of its result, or of its exception, and of
the state it leaves, with one rule for each way a computation is built.
-/
namespace Imece.Lib

variable {ε σ α β : Type}

/-- From `s`, a result meets `Q` and an exception meets `E`. -/
def wp (body : EStateM ε σ α) (Q : α → σ → Prop) (E : ε → σ → Prop) (s : σ) : Prop :=
  match body s with
  | .ok a t => Q a t
  | .error e t => E e t

/-- What a body comes to: its exception becomes a value. -/
def caught (body : EStateM ε σ α) : EStateM ε σ (Except ε α) := fun s =>
  match body s with
  | .ok a t => .ok (.ok a) t
  | .error e t => .ok (.error e) t

section Rules

variable {Q : α → σ → Prop} {R : β → σ → Prop} {E : ε → σ → Prop} {s : σ}

@[simp] theorem wp_pure (a : α) : wp (pure a : EStateM ε σ α) Q E s ↔ Q a s := Iff.rfl

@[simp] theorem wp_throw (e : ε) : wp (throw e : EStateM ε σ α) Q E s ↔ E e s := Iff.rfl

@[simp] theorem wp_get {Q : σ → σ → Prop} : wp (get : EStateM ε σ σ) Q E s ↔ Q s s := Iff.rfl

@[simp] theorem wp_modify {Q : Unit → σ → Prop} (f : σ → σ) :
    wp (modify f : EStateM ε σ Unit) Q E s ↔ Q () (f s) := Iff.rfl

theorem wp_bind {body : EStateM ε σ α} {f : α → EStateM ε σ β} :
    wp (body >>= f) R E s ↔ wp body (fun a t => wp (f a) R E t) E s := by
  simp only [wp, bind, EStateM.bind]
  cases body s <;> rfl

theorem wp_caught {body : EStateM ε σ α} {Q : Except ε α → σ → Prop} :
    wp (caught body) Q E s ↔
      wp body (fun a t => Q (.ok a) t) (fun e t => Q (.error e) t) s := by
  simp only [wp, caught]
  cases body s <;> rfl

theorem wp_mono {body : EStateM ε σ α} {Q₂ : α → σ → Prop} {E₂ : ε → σ → Prop}
    (h : wp body Q E s) (hok : ∀ a t, Q a t → Q₂ a t) (herror : ∀ e t, E e t → E₂ e t) :
    wp body Q₂ E₂ s := by
  unfold wp at h ⊢
  cases hbody : body s with
  | ok a t =>
      rw [hbody] at h
      exact hok a t h
  | error e t =>
      rw [hbody] at h
      exact herror e t h

end Rules

end Imece.Lib
