import Mathlib.Data.List.Basic

/-!
# Characters of composed texts

Which characters a text built from others can hold.
-/
namespace Imece.Lib

lemma mem_toList_intercalate {c : Char} {sep : String} {parts : List String}
    (h : c ∈ (sep.intercalate parts).toList) :
    c ∈ sep.toList ∨ ∃ part ∈ parts, c ∈ part.toList := by
  induction parts with
  | nil => simp at h
  | cons part rest ih =>
      cases rest with
      | nil => exact Or.inr ⟨part, by simp, by simpa using h⟩
      | cons next rest =>
          rw [String.intercalate_cons_cons, String.toList_append, String.toList_append] at h
          rcases List.mem_append.mp h with h | h
          · rcases List.mem_append.mp h with h | h
            · exact Or.inr ⟨part, by simp, h⟩
            · exact Or.inl h
          · rcases ih h with hsep | ⟨other, hother, hc⟩
            · exact Or.inl hsep
            · exact Or.inr ⟨other, List.mem_cons_of_mem _ hother, hc⟩

/-- A text without a character. -/
def Avoids (c : Char) (text : String) : Prop := c ∉ text.toList

section Avoids

variable {c : Char}

instance (text : String) : Decidable (Avoids c text) :=
  inferInstanceAs (Decidable (c ∉ text.toList))

theorem avoids_append {first second : String} :
    Avoids c (first ++ second) ↔ Avoids c first ∧ Avoids c second := by
  simp [Avoids, not_or]

theorem avoids_intercalate {sep : String} {parts : List String} (hsep : Avoids c sep)
    (hparts : ∀ part ∈ parts, Avoids c part) : Avoids c (sep.intercalate parts) := by
  intro hmem
  rcases mem_toList_intercalate hmem with h | ⟨part, hpart, h⟩
  · exact hsep h
  · exact hparts part hpart h

/-- Splitting a text adds no character. -/
theorem avoids_split {text : String} (h : Avoids c text) (sep : Char) :
    ∀ part ∈ (text.toList.splitOn sep).map String.ofList, Avoids c part := by
  intro part hpart
  obtain ⟨chars, hchars, rfl⟩ := List.mem_map.mp hpart
  rw [Avoids, String.toList_ofList]
  intro hc
  have hjoined : c ∈ [sep].intercalate (text.toList.splitOn sep) := by
    obtain ⟨i, hi⟩ := List.mem_iff_getElem?.mp hchars
    rw [← @List.getElem?_intersperse_two_mul _ _ [sep]] at hi
    rw [List.intercalate, List.mem_flatten]
    exact ⟨chars, List.mem_of_getElem? hi, hc⟩
  rw [List.intercalate_splitOn] at hjoined
  exact h hjoined

/-- The decimal digits of a number. -/
theorem avoids_toString (hc : c.isDigit = false) (n : ℕ) : Avoids c (toString n) := by
  intro hmem
  rw [Nat.toString_eq_ofList_toDigits, String.toList_ofList] at hmem
  rw [Nat.isDigit_of_mem_toDigits (by omega) (by omega) hmem] at hc
  cases hc

end Avoids

/-- `str.isspace` of one character. -/
def isSpaceChar (c : Char) : Bool :=
  (9 ≤ c.toNat && c.toNat ≤ 13) || (28 ≤ c.toNat && c.toNat ≤ 32) ||
    (0x2000 ≤ c.toNat && c.toNat ≤ 0x200a) ||
    [0x85, 0xa0, 0x1680, 0x2028, 0x2029, 0x202f, 0x205f, 0x3000].contains c.toNat

/-- `not text.strip()` -/
def blankText (text : String) : Bool := text.toList.all isSpaceChar

lemma blankText_of_mem {text : String} {c : Char} (hc : c ∈ text.toList)
    (hspace : isSpaceChar c = false) : blankText text = false := by
  rw [blankText, List.all_eq_false]
  exact ⟨c, hc, by simp [hspace]⟩

/-- `str.count` of a text that is not empty: occurrences that do not overlap, from the left;
`skip` characters belong to the last one. -/
def countText (needle : List Char) : ℕ → List Char → ℕ
  | _, [] => 0
  | skip + 1, _ :: rest => countText needle skip rest
  | 0, c :: rest =>
      if needle.isPrefixOf (c :: rest) then 1 + countText needle (needle.length - 1) rest
      else countText needle 0 rest

end Imece.Lib
