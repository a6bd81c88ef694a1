import Imece.Lib.JsonRoundTrip

/-!
# Rendered texts are single lines

No control character stands in the text of a value: those of its strings are escaped.
-/
namespace Imece.Lib.Json

/-- A character that ends no line and starts no escape of a terminal. -/
def Printable (c : Char) : Prop := 32 ≤ c.toNat

instance (c : Char) : Decidable (Printable c) := inferInstanceAs (Decidable (32 ≤ c.toNat))

lemma printable_of_all {cs : List Char} (h : (cs.all fun c => decide (Printable c)) = true) :
    ∀ c ∈ cs, Printable c := by
  simpa using h

lemma printable_of_isDigit {c : Char} (h : c.isDigit = true) : Printable c := by
  rw [Char.isDigit, Bool.and_eq_true, decide_eq_true_eq, decide_eq_true_eq] at h
  have hle : (48 : ℕ) ≤ c.val.toNat := h.1
  show 32 ≤ c.val.toNat
  omega

lemma printable_escape (c : Char) : ∀ d ∈ escape c, Printable d := by
  unfold escape
  split_ifs with _ _ _ _ _ _ _ hcontrol
  · exact printable_of_all (by decide)
  · exact printable_of_all (by decide)
  · exact printable_of_all (by decide)
  · exact printable_of_all (by decide)
  · exact printable_of_all (by decide)
  · exact printable_of_all (by decide)
  · exact printable_of_all (by decide)
  · have hhex (n : ℕ) (hn : n < 16) : Printable (hexDigit n) := by
      revert n
      decide
    simp only [List.forall_mem_cons, List.not_mem_nil, false_implies, implies_true, and_true]
    exact ⟨by decide, by decide, by decide, by decide, hhex _ (by omega), hhex _ (by omega)⟩
  · intro d hd
    rw [List.mem_singleton.mp hd]
    exact Nat.le_of_not_lt hcontrol

lemma printable_renderString (text : String) : ∀ c ∈ renderString text, Printable c := by
  intro c hc
  rw [renderString, List.mem_cons, List.mem_append, List.mem_singleton, List.mem_flatMap] at hc
  rcases hc with rfl | ⟨d, -, hd⟩ | rfl
  · decide
  · exact printable_escape d c hd
  · decide

lemma printable_renderInt (n : ℤ) : ∀ c ∈ renderInt n, Printable c := by
  have hdigits (m : ℕ) : ∀ c ∈ Nat.toDigits 10 m, Printable c := fun c hc =>
    printable_of_isDigit (Nat.isDigit_of_mem_toDigits (by omega) (by omega) hc)
  cases n with
  | ofNat m => exact hdigits m
  | negSucc m =>
      rw [renderInt, List.forall_mem_cons]
      exact ⟨by decide, hdigits (m + 1)⟩

mutual

/-- The text of a plain value is one line. -/
theorem printable_render : ∀ (value : Json), value.plain = true →
    ∀ c ∈ value.render, Printable c
  | .null, _ => printable_of_all (by decide)
  | .bool true, _ => printable_of_all (by decide)
  | .bool false, _ => printable_of_all (by decide)
  | .int n, _ => printable_renderInt n
  | .float _, hplain => by cases hplain
  | .str text, _ => printable_renderString text
  | .arr items, hplain => by
      rw [render, List.forall_mem_cons, List.forall_mem_append, List.forall_mem_singleton]
      exact ⟨by decide, printable_renderItems items hplain, by decide⟩
  | .obj members, hplain => by
      rw [plain, Bool.and_eq_true] at hplain
      rw [render, List.forall_mem_cons, List.forall_mem_append, List.forall_mem_singleton]
      exact ⟨by decide, printable_renderMembers members hplain.2, by decide⟩

theorem printable_renderItems : ∀ (items : List Json), plainItems items = true →
    ∀ c ∈ renderItems items, Printable c
  | [], _ => by simp [renderItems]
  | [item], hplain => by
      rw [plainItems, Bool.and_eq_true] at hplain
      exact printable_render item hplain.1
  | item :: next :: rest, hplain => by
      rw [plainItems, Bool.and_eq_true] at hplain
      rw [renderItems, List.forall_mem_append, List.forall_mem_cons]
      exact ⟨printable_render item hplain.1, by decide,
        printable_renderItems (next :: rest) hplain.2⟩

theorem printable_renderMembers : ∀ (members : List (String × Json)),
    plainMembers members = true → ∀ c ∈ renderMembers members, Printable c
  | [], _ => by simp [renderMembers]
  | [(key, value)], hplain => by
      rw [plainMembers, Bool.and_eq_true] at hplain
      rw [renderMembers, List.forall_mem_append, List.forall_mem_cons]
      exact ⟨printable_renderString key, by decide, printable_render value hplain.1⟩
  | (key, value) :: next :: rest, hplain => by
      rw [plainMembers, Bool.and_eq_true] at hplain
      rw [renderMembers, List.forall_mem_append, List.forall_mem_cons, List.forall_mem_append,
        List.forall_mem_cons]
      exact ⟨printable_renderString key, by decide, printable_render value hplain.1, by decide,
        printable_renderMembers (next :: rest) hplain.2⟩

end

lemma printable_canonical {value : Json} (h : value.plain = true) :
    ∀ c ∈ (canonical value).toList, Printable c := by
  rw [canonical, String.toList_ofList]
  exact printable_render value.sortKeys (plain_sortKeys h)

end Imece.Lib.Json
