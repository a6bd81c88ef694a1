import Mathlib.Data.List.Forall2
import Mathlib.Data.List.Perm.Basic
import Mathlib.Tactic.Basic

/-!
# Transactions over a mutable store

A transaction body is a state-passing computation that may fail after some of
its writes. `atomically` commits the writes of a body that succeeds and undoes
those of a body that fails. The lemmas below invert a successful run, one for
each way a body is built.
-/
namespace Imece.Lib

section Except

variable {ε ε' α β : Type}

/-- A check that raises lets the rest give the result. -/
lemma ite_error_eq_ok {p : Prop} [Decidable p] {e : ε} {rest : Except ε α} {a : α} :
    (if p then .error e else rest) = .ok a ↔ ¬ p ∧ rest = .ok a := by
  by_cases hp : p <;> simp [hp]

lemma error_ne_ok {e : ε} {a : α} : (Except.error e : Except ε α) ≠ .ok a := nofun

lemma ok_ne_error {e : ε} {a : α} : (Except.ok a : Except ε α) ≠ .error e := by
  intro h
  cases h

theorem except_bind_eq_ok {x : Except ε α} {f : α → Except ε β} {b : β} :
    (x >>= f) = .ok b ↔ ∃ a, x = .ok a ∧ f a = .ok b := by
  cases x with
  | error e => simp [bind, Except.bind]
  | ok a => simp [bind, Except.bind]

theorem except_bind_eq_error {x : Except ε α} {f : α → Except ε β} {e : ε} :
    (x >>= f) = .error e ↔ x = .error e ∨ ∃ a, x = .ok a ∧ f a = .error e := by
  cases x <;> simp [bind, Except.bind]

theorem except_pure_eq_ok {a b : α} : (pure a : Except ε α) = .ok b ↔ a = b := by
  simp [pure, Except.pure]

theorem except_mapError_eq_ok {x : Except ε α} {f : ε → ε'} {a : α} :
    x.mapError f = .ok a ↔ x = .ok a := by
  cases x <;> simp [Except.mapError]

theorem except_map_eq_ok {x : Except ε α} {f : α → β} {b : β} :
    x.map f = .ok b ↔ ∃ a, x = .ok a ∧ f a = b := by
  cases x <;> simp [Except.map]

/-- A loop that raises at the first failing element, and collects otherwise. -/
lemma mapM_eq_ok {f : α → Except ε β} {items : List α} {results : List β} :
    items.mapM f = .ok results ↔ List.Forall₂ (fun a b => f a = .ok b) items results := by
  induction items generalizing results with
  | nil =>
      rw [List.mapM_nil, except_pure_eq_ok, List.forall₂_nil_left_iff]
      exact eq_comm
  | cons a rest ih =>
      simp only [List.mapM_cons, except_bind_eq_ok, except_pure_eq_ok, ih,
        List.forall₂_cons_left_iff]
      constructor
      · rintro ⟨b, hb, more, hmore, rfl⟩
        exact ⟨b, more, hb, hmore, rfl⟩
      · rintro ⟨b, more, hb, hmore, rfl⟩
        exact ⟨b, hb, more, hmore, rfl⟩

lemma mapM_returns {f : α → Except ε β} {items : List α} :
    (∃ results, items.mapM f = .ok results) ↔ ∀ a ∈ items, ∃ b, f a = .ok b := by
  simp only [mapM_eq_ok]
  induction items with
  | nil => exact iff_of_true ⟨[], .nil⟩ (by simp)
  | cons a rest ih =>
      simp only [List.forall₂_cons_left_iff, List.forall_mem_cons, ← ih]
      constructor
      · rintro ⟨_, b, more, hb, hmore, -⟩
        exact ⟨⟨b, hb⟩, more, hmore⟩
      · rintro ⟨⟨b, hb⟩, more, hmore⟩
        exact ⟨b :: more, b, more, hb, hmore, rfl⟩

lemma mapM_mem {f : α → Except ε β} {items : List α} {results : List β}
    (h : items.mapM f = .ok results) : ∀ b ∈ results, ∃ a ∈ items, f a = .ok b := by
  rw [mapM_eq_ok] at h
  induction h with
  | nil => simp
  | cons hhead _ ih =>
      rw [List.forall_mem_cons]
      refine ⟨⟨_, List.mem_cons_self, hhead⟩, fun b hb => ?_⟩
      obtain ⟨a, ha, hfound⟩ := ih b hb
      exact ⟨a, List.mem_cons_of_mem _ ha, hfound⟩

/-- A loop that raises has an element at which it raised. -/
lemma mapM_raises {f : α → Except ε β} {items : List α} {e : ε} (h : items.mapM f = .error e) :
    ∃ a ∈ items, f a = .error e := by
  induction items with
  | nil => cases h
  | cons a rest ih =>
      rw [List.mapM_cons, except_bind_eq_error] at h
      rcases h with hfirst | ⟨b, -, hrest⟩
      · exact ⟨a, List.mem_cons_self, hfirst⟩
      · rw [except_bind_eq_error] at hrest
        rcases hrest with hlater | ⟨bs, -, hdone⟩
        · obtain ⟨other, hother, herror⟩ := ih hlater
          exact ⟨other, List.mem_cons_of_mem a hother, herror⟩
        · cases hdone

section Mapped

variable {γ : Type} {f : α → Except ε β} {source : List γ} {embed : γ → α} {fine : γ → Prop}
  {image : γ → β}

/-- A loop over the image of a list whose elements it treats one by one. -/
lemma mapM_map_eq_ok (source : List γ) (embed : γ → α)
    (hspec : ∀ c ∈ source, ∀ b, f (embed c) = .ok b ↔ fine c ∧ b = image c) {results : List β} :
    (source.map embed).mapM f = .ok results ↔
      (∀ c ∈ source, fine c) ∧ results = source.map image := by
  rw [mapM_eq_ok]
  induction source generalizing results with
  | nil => simp
  | cons c rest ih =>
      have hrest := fun results : List β => @ih
        (fun d hd => hspec d (List.mem_cons_of_mem c hd)) results
      simp only [List.map_cons, List.forall₂_cons_left_iff, hspec c List.mem_cons_self, hrest,
        List.forall_mem_cons]
      constructor
      · rintro ⟨_, _, ⟨hfine, rfl⟩, ⟨hmore, rfl⟩, rfl⟩
        exact ⟨⟨hfine, hmore⟩, rfl⟩
      · rintro ⟨⟨hfine, hmore⟩, rfl⟩
        exact ⟨_, _, ⟨hfine, rfl⟩, ⟨hmore, rfl⟩, rfl⟩

/-- The same, over any order of the image. -/
lemma mapM_perm_eq_ok
    (hspec : ∀ c ∈ source, ∀ b, f (embed c) = .ok b ↔ fine c ∧ b = image c) {items : List α}
    (hperm : items.Perm (source.map embed)) :
    (∀ results, items.mapM f = .ok results →
      (∀ c ∈ source, fine c) ∧ results.Perm (source.map image)) ∧
    ((∀ c ∈ source, fine c) → ∃ results, items.mapM f = .ok results) := by
  constructor
  · intro results h
    obtain ⟨found, hfound, hresults⟩ := List.perm_comp_forall₂ hperm.symm (mapM_eq_ok.mp h)
    obtain ⟨hfine, rfl⟩ := (mapM_map_eq_ok source embed hspec).mp (mapM_eq_ok.mpr hfound)
    exact ⟨hfine, hresults.symm⟩
  · intro hfine
    rw [mapM_returns]
    intro a ha
    obtain ⟨c, hc, rfl⟩ := List.mem_map.mp (hperm.mem_iff.mp ha)
    exact ⟨image c, (hspec c hc _).mpr ⟨hfine c hc, rfl⟩⟩

end Mapped

end Except

section Bodies

variable {ε σ α β : Type}

/-- A check or a pure result: it leaves the store alone. -/
def check (result : Except ε α) : EStateM ε σ α := fun s =>
  match result with
  | .ok a => .ok a s
  | .error e => .error e s

/-- Commit the writes of a successful body; undo those of a failing one. -/
def atomically (body : EStateM ε σ α) : EStateM ε σ α := fun s =>
  match body s with
  | .ok a t => .ok a t
  | .error e _ => .error e s

/-- The store a call leaves behind, whether it succeeds or fails. -/
def after (body : EStateM ε σ α) (s : σ) : σ :=
  match body s with
  | .ok _ t => t
  | .error _ t => t

/-- What a call returns or raises. -/
def result (body : EStateM ε σ α) (s : σ) : Except ε α :=
  match body s with
  | .ok a _ => .ok a
  | .error e _ => .error e

theorem after_ok {body : EStateM ε σ α} {s t : σ} {a : α} (h : body s = .ok a t) :
    after body s = t := by
  rw [after, h]

theorem after_error {body : EStateM ε σ α} {s t : σ} {e : ε} (h : body s = .error e t) :
    after body s = t := by
  rw [after, h]

theorem result_eq_ok {body : EStateM ε σ α} {s : σ} {a : α} :
    result body s = .ok a ↔ body s = .ok a (after body s) := by
  unfold result after
  cases body s <;> simp

theorem result_eq_error {body : EStateM ε σ α} {s : σ} {e : ε} :
    result body s = .error e ↔ body s = .error e (after body s) := by
  unfold result after
  cases body s <;> simp

theorem bind_eq_ok {x : EStateM ε σ α} {f : α → EStateM ε σ β} {s t : σ} {b : β} :
    (x >>= f) s = .ok b t ↔ ∃ a u, x s = .ok a u ∧ f a u = .ok b t := by
  simp only [bind, EStateM.bind]
  cases h : x s with
  | ok a u =>
      simp only [EStateM.Result.ok.injEq]
      constructor
      · intro hf
        exact ⟨a, u, ⟨rfl, rfl⟩, hf⟩
      · rintro ⟨_, _, ⟨rfl, rfl⟩, hf⟩
        exact hf
  | error e u => simp

theorem pure_eq_ok {a b : α} {s t : σ} :
    (pure a : EStateM ε σ α) s = .ok b t ↔ a = b ∧ s = t := by
  simp [pure, EStateM.pure]

theorem check_eq_ok {result : Except ε α} {s t : σ} {a : α} :
    (check result : EStateM ε σ α) s = .ok a t ↔ result = .ok a ∧ s = t := by
  cases result <;> simp [check]

@[simp] theorem atomically_eq_ok {body : EStateM ε σ α} {s t : σ} {a : α} :
    atomically body s = .ok a t ↔ body s = .ok a t := by
  unfold atomically
  cases body s <;> simp

theorem atomically_eq_error {body : EStateM ε σ α} {s t : σ} {e : ε} :
    atomically body s = .error e t ↔ t = s ∧ ∃ u, body s = .error e u := by
  unfold atomically
  cases body s <;> simp [eq_comm, and_comm]

/-- A body that fails leaves the store exactly as it was. -/
def FailsClean (body : EStateM ε σ α) : Prop :=
  ∀ s e t, body s = .error e t → t = s

theorem failsClean_atomically (body : EStateM ε σ α) : FailsClean (atomically body) := by
  intro s e t h
  exact (atomically_eq_error.mp h).1

/-- Checks that write nothing may precede a clean body. -/
theorem failsClean_bind {result : Except ε α} {f : α → EStateM ε σ β}
    (hf : ∀ a, FailsClean (f a)) :
    FailsClean ((check result : EStateM ε σ α) >>= f) := by
  intro s e t h
  cases result with
  | ok a => exact hf a s e t h
  | error e' =>
      simp only [bind, EStateM.bind, check, EStateM.Result.error.injEq] at h
      exact h.2.symm

theorem failsClean_map {body : EStateM ε σ α} (f : α → β) (h : FailsClean body) :
    FailsClean (f <$> body) := by
  intro s e t ht
  simp only [Functor.map, EStateM.map] at ht
  split at ht
  · cases ht
  · rename_i e' u hu
    cases ht
    exact h s _ _ hu

/-- The store after a call is the one before it or the committed one. -/
theorem after_cases {body : EStateM ε σ α} (hclean : FailsClean body) (s : σ) :
    after body s = s ∨ ∃ a, body s = .ok a (after body s) := by
  unfold after
  cases h : body s with
  | ok a t => exact Or.inr ⟨a, rfl⟩
  | error e t => exact Or.inl (hclean s e t h)

theorem after_map (f : α → β) (body : EStateM ε σ α) (s : σ) :
    after (f <$> body) s = after body s := by
  unfold after
  simp only [Functor.map, EStateM.map]
  cases body s <;> rfl

end Bodies

section Raising

variable {ε σ α β : Type} {allowed : ε → Prop}

/-- Every exception of the body is of a kind. -/
def Raises (allowed : ε → Prop) (body : EStateM ε σ α) : Prop :=
  ∀ s e t, body s = .error e t → allowed e

theorem raises_check {result : Except ε α} (h : ∀ e, result = .error e → allowed e) :
    Raises allowed (check result : EStateM ε σ α) := by
  intro s e t herror
  cases result with
  | ok a => simp [check] at herror
  | error e' =>
      simp only [check, EStateM.Result.error.injEq] at herror
      exact h e (by rw [herror.1])

theorem raises_pure (a : α) : Raises allowed (pure a : EStateM ε σ α) := by
  intro s e t herror
  simp [pure, EStateM.pure] at herror

theorem raises_bind {x : EStateM ε σ α} {f : α → EStateM ε σ β} (hx : Raises allowed x)
    (hf : ∀ a, Raises allowed (f a)) : Raises allowed (x >>= f) := by
  intro s e t herror
  simp only [bind, EStateM.bind] at herror
  cases hfirst : x s with
  | ok a u =>
      rw [hfirst] at herror
      exact hf a u e t herror
  | error e' u =>
      rw [hfirst] at herror
      cases herror
      exact hx s e t hfirst

end Raising

end Imece.Lib
