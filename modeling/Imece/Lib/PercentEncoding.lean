import Imece.Lib.Utf8

/-!
# Percent-encoding

Characters that are not kept are spelled by the bytes of their UTF-8 form. What was encoded is
decoded to itself, whichever characters were kept.
-/
namespace Imece.Lib.Percent

def hexDigit (n : ℕ) : Char := Char.ofNat (if n < 10 then 48 + n else 55 + n)

def hexValue (c : Char) : Option ℕ :=
  if '0' ≤ c ∧ c ≤ '9' then some (c.toNat - 48)
  else if 'A' ≤ c ∧ c ≤ 'F' then some (c.toNat - 55)
  else if 'a' ≤ c ∧ c ≤ 'f' then some (c.toNat - 87)
  else none

def encodeByte (b : UInt8) : List Char := ['%', hexDigit (b.toNat / 16), hexDigit (b.toNat % 16)]

/-- The text with every character spelled that is not kept. -/
@[grind =] def encode (keep : Char → Bool) (text : List Char) : List Char :=
  text.flatMap fun c => if keep c then [c] else (String.utf8EncodeChar c).flatMap encodeByte

/-- The bytes that a text spells; none where a percent sign is not followed by two digits. -/
@[grind =] def bytes : List Char → Option (List UInt8)
  | [] => some []
  | '%' :: high :: low :: rest =>
      match hexValue high, hexValue low with
      | some high, some low => (bytes rest).map (UInt8.ofNat (16 * high + low) :: ·)
      | _, _ => none
  | c :: rest => if c = '%' then none else (bytes rest).map (String.utf8EncodeChar c ++ ·)

/-- `decodeURIComponent`; none is its `URIError`. -/
def decode (text : List Char) : Option (List Char) :=
  (bytes text).bind fun bytes => (String.fromUTF8? bytes.toByteArray).map String.toList

/-- A piece that cannot be decoded stands for itself. -/
def decodeOrSelf (text : List Char) : List Char := (decode text).getD text

lemma hexValue_hexDigit {n : ℕ} (h : n < 16) : hexValue (hexDigit n) = some n := by
  revert n
  decide

lemma bytes_encodeByte (b : UInt8) (rest : List Char) :
    bytes (encodeByte b ++ rest) = (bytes rest).map (b :: ·) := by
  have hbyte : UInt8.ofNat (16 * (b.toNat / 16) + b.toNat % 16) = b := by
    rw [Nat.div_add_mod, UInt8.ofNat_toNat]
  have hlt := b.toNat_lt
  change bytes ('%' :: hexDigit (b.toNat / 16) :: hexDigit (b.toNat % 16) :: rest) = _
  rw [bytes, hexValue_hexDigit (by omega), hexValue_hexDigit (by omega)]
  simp only [hbyte]

lemma bytes_flatMap (bs : List UInt8) (rest : List Char) :
    bytes (bs.flatMap encodeByte ++ rest) = (bytes rest).map (bs ++ ·) := by
  induction bs with
  | nil => simp
  | cons b bs ih =>
      rw [List.flatMap_cons, List.append_assoc, bytes_encodeByte, ih, Option.map_map]
      rfl

lemma bytes_cons {c : Char} (hc : c ≠ '%') (rest : List Char) :
    bytes (c :: rest) = (bytes rest).map (String.utf8EncodeChar c ++ ·) := by
  rw [bytes.eq_def]
  split
  · next heq => cases heq
  · next heq => exact absurd (List.cons.inj heq).1 hc
  · next heq =>
      cases heq
      rw [if_neg hc]

section Keep

variable {keep : Char → Bool}

lemma bytes_encode (hkeep : keep '%' = false) (text rest : List Char) :
    bytes (encode keep text ++ rest) = (bytes rest).map (Utf8.encode text ++ ·) := by
  induction text with
  | nil => simp [encode, Utf8.encode]
  | cons c text ih =>
      have htail : encode keep (c :: text) ++ rest =
          (if keep c then [c] else (String.utf8EncodeChar c).flatMap encodeByte) ++
            (encode keep text ++ rest) := by
        rw [encode, List.flatMap_cons, List.append_assoc]
        rfl
      have hchars : (bytes (encode keep text ++ rest)).map (String.utf8EncodeChar c ++ ·) =
          (bytes rest).map (Utf8.encode (c :: text) ++ ·) := by
        rw [ih, Option.map_map]
        congr 1
        funext more
        simp [Utf8.encode]
      rw [htail, ← hchars]
      by_cases hc : keep c = true
      · have hpercent : c ≠ '%' := by
          rintro rfl
          rw [hkeep] at hc
          cases hc
        rw [if_pos hc, List.singleton_append, bytes_cons hpercent]
      · rw [if_neg hc, bytes_flatMap]

theorem decode_encode (hkeep : keep '%' = false) (text : List Char) :
    decode (encode keep text) = some text := by
  have hbytes := bytes_encode hkeep text []
  have hutf := Utf8.fromUTF8?_encode (String.ofList text)
  rw [String.toList_ofList] at hutf
  rw [List.append_nil, bytes, Option.map_some, List.append_nil] at hbytes
  rw [decode, hbytes, Option.bind_some, hutf, Option.map_some, String.toList_ofList]

lemma decodeOrSelf_encode (hkeep : keep '%' = false) (text : List Char) :
    decodeOrSelf (encode keep text) = text := by
  rw [decodeOrSelf, decode_encode hkeep, Option.getD_some]

lemma encode_append (text more : List Char) :
    encode keep (text ++ more) = encode keep text ++ encode keep more :=
  List.flatMap_append

/-- The slashes that are kept separate the encoded names. -/
lemma encode_intercalate (hslash : keep '/' = true) (names : List (List Char)) :
    encode keep (['/'].intercalate names) = ['/'].intercalate (names.map (encode keep)) := by
  have hone : encode keep ['/'] = ['/'] := by simp [encode, hslash]
  match names with
  | [] => rfl
  | [name] => simp
  | name :: next :: rest =>
      have ih := encode_intercalate hslash (next :: rest)
      rw [List.map_cons] at ih
      rw [List.intercalate_cons_cons, encode_append, encode_append, hone, ih, List.map_cons,
        List.map_cons, List.intercalate_cons_cons]

lemma slash_not_mem_encodeByte (b : UInt8) : '/' ∉ encodeByte b := by
  have hdigit : ∀ n < 16, hexDigit n ≠ '/' := by decide
  have hlt := b.toNat_lt
  have hhigh := hdigit (b.toNat / 16) (by omega)
  have hlow := hdigit (b.toNat % 16) (by omega)
  simp [encodeByte, hhigh.symm, hlow.symm]

/-- An encoded name has no slash. -/
lemma slash_not_mem_encode {text : List Char} (h : '/' ∉ text) : '/' ∉ encode keep text := by
  intro hmem
  obtain ⟨c, hc, hmem⟩ := List.mem_flatMap.mp hmem
  by_cases hkeep : keep c = true
  · rw [if_pos hkeep] at hmem
    exact h (List.mem_singleton.mp hmem ▸ hc)
  · rw [if_neg hkeep] at hmem
    obtain ⟨b, _, hmem⟩ := List.mem_flatMap.mp hmem
    exact slash_not_mem_encodeByte b hmem

end Keep

/-- Without a percent sign there is nothing to decode. -/
lemma decodeOrSelf_plain {text : List Char} (h : '%' ∉ text) : decodeOrSelf text = text := by
  have hself : encode (fun c => c ≠ '%') text = text := by
    induction text with
    | nil => rfl
    | cons c rest ih =>
        have hc : c ≠ '%' := fun hc => h (hc ▸ List.mem_cons_self)
        have hrest := ih fun hmem => h (List.mem_cons_of_mem c hmem)
        rw [encode] at hrest ⊢
        rw [List.flatMap_cons, hrest, if_pos (by simpa using hc), List.singleton_append]
  conv_lhs => rw [← hself]
  exact decodeOrSelf_encode (by decide) text

/-- Only the empty text stands for the empty one. -/
lemma decodeOrSelf_eq_nil {text : List Char} (h : decodeOrSelf text = []) : text = [] := by
  by_contra hne
  have hbytes : ∀ bs, bytes text = some bs → bs ≠ [] := by
    intro bs hbs
    rw [bytes.eq_def] at hbs
    split at hbs
    · exact absurd rfl hne
    · split at hbs
      · obtain ⟨more, _, rfl⟩ := Option.map_eq_some_iff.mp hbs
        exact List.cons_ne_nil _ _
      · cases hbs
    · split at hbs
      · cases hbs
      · obtain ⟨more, _, rfl⟩ := Option.map_eq_some_iff.mp hbs
        simp [String.utf8EncodeChar_ne_nil]
  rw [decodeOrSelf, decode] at h
  cases hbs : bytes text with
  | none =>
      rw [hbs] at h
      exact hne h
  | some bs =>
      rw [hbs, Option.bind_some] at h
      cases hutf : String.fromUTF8? bs.toByteArray with
      | none =>
          rw [hutf] at h
          exact hne h
      | some decoded =>
          rw [hutf, Option.map_some, Option.getD_some, String.toList_eq_nil_iff] at h
          have hsame : decoded.toByteArray = bs.toByteArray := by
            rw [String.fromUTF8?] at hutf
            split at hutf
            · cases hutf
              rfl
            · cases hutf
          rw [h] at hsame
          have hsize := congrArg ByteArray.size hsame
          rw [List.size_toByteArray] at hsize
          exact hbytes bs hbs (List.length_eq_zero_iff.mp hsize.symm)

end Imece.Lib.Percent
