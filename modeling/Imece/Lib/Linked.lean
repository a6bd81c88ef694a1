import Mathlib.Data.List.Basic

/-!
# Linked steps

A list of steps, each of which leads from one point to another, is linked if every step
starts where the one before it ended.
-/
namespace Imece.Lib

variable {α κ : Type} (source target : α → κ)

/-- The steps lead from the first point to the last. -/
def Linked : κ → List α → κ → Prop
  | a, [], b => a = b
  | a, step :: rest, b => source step = a ∧ Linked (target step) rest b

variable {source target} {a b : κ} {steps : List α}

theorem linked_append {more : List α} :
    Linked source target a (steps ++ more) b ↔
      ∃ m, Linked source target a steps m ∧ Linked source target m more b := by
  induction steps generalizing a with
  | nil => simp [Linked]
  | cons step rest ih =>
      simp only [List.cons_append, Linked, ih]
      constructor
      · rintro ⟨hstart, m, hrest, hmore⟩
        exact ⟨m, ⟨hstart, hrest⟩, hmore⟩
      · rintro ⟨m, ⟨hstart, hrest⟩, hmore⟩
        exact ⟨hstart, m, hrest, hmore⟩

theorem Linked.concat {step : α} (h : Linked source target a steps (source step)) :
    Linked source target a (steps ++ [step]) (target step) :=
  linked_append.mpr ⟨source step, h, rfl, rfl⟩

/-- Linked steps are linked up to each of them and from there on. -/
theorem Linked.split (h : Linked source target a steps b) {index : ℕ} {step : α}
    (hstep : steps[index]? = some step) :
    Linked source target a (steps.take (index + 1)) (target step) ∧
      Linked source target (target step) (steps.drop (index + 1)) b := by
  induction steps generalizing a index with
  | nil => simp at hstep
  | cons first rest ih =>
      cases index with
      | zero =>
          rw [List.getElem?_cons_zero, Option.some.injEq] at hstep
          subst hstep
          exact ⟨⟨h.1, rfl⟩, h.2⟩
      | succ index =>
          rw [List.getElem?_cons_succ] at hstep
          obtain ⟨hbefore, hafter⟩ := ih h.2 hstep
          exact ⟨⟨h.1, hbefore⟩, hafter⟩

end Imece.Lib
