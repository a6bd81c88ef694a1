import Imece.Lib.CodePoints

/-!
# Decoding UTF-8 with replacement

Bytes that are not UTF-8 are replaced: each longest beginning of a character becomes one
replacement character. What was encoded is decoded to itself.
-/
namespace Imece.Lib.Utf8

/-- How many more bytes a character takes that begins with `b`, and the range of the next one. -/
def lead (b : UInt8) : ℕ × UInt8 × UInt8 :=
  if 0xC2 ≤ b ∧ b ≤ 0xDF then (1, 0x80, 0xBF)
  else if b = 0xE0 then (2, 0xA0, 0xBF)
  else if b = 0xED then (2, 0x80, 0x9F)
  else if 0xE1 ≤ b ∧ b ≤ 0xEF then (2, 0x80, 0xBF)
  else if b = 0xF0 then (3, 0x90, 0xBF)
  else if b = 0xF4 then (3, 0x80, 0x8F)
  else if 0xF1 ≤ b ∧ b ≤ 0xF3 then (3, 0x80, 0xBF)
  else (0, 0, 0)

/-- How many bytes of an undecodable head are replaced at once. -/
def replaced : List UInt8 → ℕ
  | b :: next :: rest =>
      let (more, low, high) := lead b
      if 2 ≤ more ∧ low ≤ next ∧ next ≤ high then
        match rest with
        | third :: _ => if more = 3 ∧ 0x80 ≤ third ∧ third ≤ 0xBF then 3 else 2
        | [] => 2
      else 1
  | _ => 1

/-- The rounds of a decoder, each of which takes a character or an undecodable head. -/
def decodeRounds : ℕ → List UInt8 → List Char
  | 0, _ => []
  | _ + 1, [] => []
  | fuel + 1, byte :: rest =>
      match (byte :: rest).toByteArray.utf8DecodeChar? 0 with
      | some c => c :: decodeRounds fuel ((byte :: rest).drop c.utf8Size)
      | none => Char.ofNat 0xFFFD :: decodeRounds fuel ((byte :: rest).drop (replaced (byte :: rest)))

/-- `bytes.decode("utf-8", errors="replace")`. -/
def decodeReplace (bytes : List UInt8) : List Char := decodeRounds bytes.length bytes

/-- The rounds of a decoder that leaves undecodable heads out. -/
def ignoreRounds : ℕ → List UInt8 → List Char
  | 0, _ => []
  | _ + 1, [] => []
  | fuel + 1, byte :: rest =>
      match (byte :: rest).toByteArray.utf8DecodeChar? 0 with
      | some c => c :: ignoreRounds fuel ((byte :: rest).drop c.utf8Size)
      | none => ignoreRounds fuel ((byte :: rest).drop (replaced (byte :: rest)))

/-- `bytes.decode("utf-8", errors="ignore")`. -/
def decodeIgnore (bytes : List UInt8) : List Char := ignoreRounds bytes.length bytes

lemma decodeRounds_encode {cs : List Char} {fuel : ℕ}
    (hfuel : (cs.flatMap String.utf8EncodeChar).length ≤ fuel) :
    decodeRounds fuel (cs.flatMap String.utf8EncodeChar) = cs := by
  induction cs generalizing fuel with
  | nil => cases fuel <;> rfl
  | cons c cs ih =>
      rw [List.flatMap_cons] at hfuel ⊢
      have hsize := String.length_utf8EncodeChar c
      have hpos := Char.utf8Size_pos c
      obtain ⟨byte, more, hbytes⟩ := List.exists_cons_of_ne_nil
        (List.ne_nil_of_length_pos (by omega : 0 < (String.utf8EncodeChar c).length))
      rw [List.length_append, hsize] at hfuel
      obtain ⟨fuel, rfl⟩ := Nat.exists_eq_add_of_lt (by omega : 0 < fuel)
      have hdecode : (String.utf8EncodeChar c ++
          cs.flatMap String.utf8EncodeChar).toByteArray.utf8DecodeChar? 0 = some c := by
        rw [List.toByteArray_append]
        exact ByteArray.utf8DecodeChar?_utf8EncodeChar_append
      have hdrop : (String.utf8EncodeChar c ++ cs.flatMap String.utf8EncodeChar).drop c.utf8Size =
          cs.flatMap String.utf8EncodeChar := by
        rw [← hsize, List.drop_left]
      rw [hbytes, List.cons_append] at hdecode hdrop ⊢
      rw [Nat.zero_add, decodeRounds]
      simp only [hdecode, hdrop]
      rw [ih (by omega)]

/-- `text.encode("utf-8")`, of characters. -/
def encode (text : List Char) : List UInt8 := text.flatMap String.utf8EncodeChar

theorem decodeReplace_encode (text : List Char) : decodeReplace (encode text) = text :=
  decodeRounds_encode (le_refl _)

/-- A strict decoder reads back what was encoded. -/
theorem fromUTF8?_encode (text : String) :
    String.fromUTF8? (encode text.toList).toByteArray = some text := by
  have hbytes : (encode text.toList).toByteArray = text.toUTF8 := by
    rw [String.toUTF8_eq_toByteArray, ← String.utf8Encode_toList, List.utf8Encode, encode]
  rw [hbytes, String.fromUTF8?, String.toUTF8_eq_toByteArray, dif_pos text.isValidUTF8]
  rfl

lemma encode_injective : Function.Injective encode := by
  intro first second h
  rw [← decodeReplace_encode first, h, decodeReplace_encode]

/-- What was encoded is decoded to itself. -/
theorem decodeReplace_encodeUtf8 {text : Points} {bytes : List UInt8}
    (h : text.encodeUtf8 = some bytes) : Points.ofChars (decodeReplace bytes) = text := by
  obtain ⟨cs, rfl, rfl⟩ := Points.encodeUtf8_eq_some h
  rw [decodeReplace, decodeRounds_encode (le_refl _)]

end Imece.Lib.Utf8
