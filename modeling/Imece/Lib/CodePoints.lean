import Mathlib.Data.List.Sort
import Mathlib.Data.String.Basic

/-!
# Strings of code points

Strings that may hold surrogates, as the strings of some languages do. UTF-8 encodes
all of their code points but the surrogates.
-/
namespace Imece.Lib

/-- A code point: a scalar value, or one of the 2048 surrogates. -/
inductive CodePoint where
  | char (c : Char)
  | surrogate (offset : Fin 2048)
deriving DecidableEq, Repr

abbrev Points := List CodePoint

namespace CodePoint

def value : CodePoint → ℕ
  | char c => c.toNat
  | surrogate offset => 0xD800 + offset

@[grind =] def isSurrogate : CodePoint → Bool
  | char _ => false
  | surrogate _ => true

/-- The UTF-8 bytes of a code point. -/
@[grind =] def encode : CodePoint → Option (List UInt8)
  | char c => some (String.utf8EncodeChar c)
  | surrogate _ => none

end CodePoint

namespace Points

open CodePoint

def ofChars (cs : List Char) : Points := cs.map char

def ofString (text : String) : Points := ofChars text.toList

/-- Strings compare as the sequences of their code points' values. -/
def le (a b : Points) : Bool := decide (a.map value ≤ b.map value)

@[grind =] def encodeUtf8 : Points → Option (List UInt8)
  | [] => some []
  | point :: rest => do
      let bytes ← point.encode
      return bytes ++ (← encodeUtf8 rest)

@[grind =] def hasSurrogate (text : Points) : Bool := text.any isSurrogate

@[simp] lemma hasSurrogate_nil : hasSurrogate [] = false := rfl

@[simp] lemma hasSurrogate_cons (point : CodePoint) (rest : Points) :
    hasSurrogate (point :: rest) = (point.isSurrogate || hasSurrogate rest) := by
  rw [hasSurrogate, List.any_cons]
  rfl

@[simp] lemma hasSurrogate_append (a b : Points) :
    hasSurrogate (a ++ b) = (hasSurrogate a || hasSurrogate b) := by
  rw [hasSurrogate, List.any_append]
  rfl

@[simp] lemma hasSurrogate_ofChars (cs : List Char) : hasSurrogate (ofChars cs) = false := by
  simp [hasSurrogate, ofChars, isSurrogate]

@[simp] lemma hasSurrogate_ofString (text : String) : hasSurrogate (ofString text) = false :=
  hasSurrogate_ofChars text.toList

/-- A string has no bytes exactly where it holds a surrogate. -/
theorem encodeUtf8_eq_none {text : Points} :
    encodeUtf8 text = none ↔ hasSurrogate text = true := by
  induction text with
  | nil => simp [encodeUtf8]
  | cons point rest ih =>
      rw [hasSurrogate_cons, Bool.or_eq_true, ← ih]
      cases point with
      | char c => cases h : encodeUtf8 rest <;> simp [encodeUtf8, encode, isSurrogate, h]
      | surrogate offset => simp [encodeUtf8, encode, isSurrogate]

/-- A string with bytes is one of characters, and the bytes are those of its characters. -/
theorem encodeUtf8_eq_some {text : Points} {bytes : List UInt8}
    (h : encodeUtf8 text = some bytes) :
    ∃ cs, text = ofChars cs ∧ bytes = cs.flatMap String.utf8EncodeChar := by
  induction text generalizing bytes with
  | nil => exact ⟨[], rfl, by simpa [encodeUtf8] using h.symm⟩
  | cons point rest ih =>
      cases point with
      | surrogate offset => simp [encodeUtf8, encode] at h
      | char c =>
          cases hrest : encodeUtf8 rest with
          | none => simp [encodeUtf8, encode, hrest] at h
          | some tail =>
              obtain ⟨cs, rfl, rfl⟩ := ih hrest
              refine ⟨c :: cs, rfl, ?_⟩
              simpa [encodeUtf8, encode, hrest] using h.symm

theorem encodeUtf8_injective {a b : Points} {bytes : List UInt8}
    (ha : encodeUtf8 a = some bytes) (hb : encodeUtf8 b = some bytes) : a = b := by
  obtain ⟨cs, rfl, hcs⟩ := encodeUtf8_eq_some ha
  obtain ⟨ds, rfl, hds⟩ := encodeUtf8_eq_some hb
  have hencoded : cs.utf8Encode = ds.utf8Encode := by
    rw [List.utf8Encode, List.utf8Encode, ← hcs, ← hds]
  have hstrings : String.ofList cs = String.ofList ds := by
    rw [← String.toByteArray_inj, String.toByteArray_ofList, String.toByteArray_ofList, hencoded]
  rw [String.ofList_injective hstrings]

end Points

end Imece.Lib
