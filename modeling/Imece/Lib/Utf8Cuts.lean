import Imece.Lib.Utf8

/-!
# Decoding in pieces

Where bytes may be cut so that the pieces decode to the text of the whole: at the ends of the units
that the decoder takes. Every other cut leaves replacement characters.
-/
namespace Imece.Lib.Utf8

/-- How many bytes the decoder takes first. -/
def unit (bytes : List UInt8) : ℕ :=
  match bytes.toByteArray.utf8DecodeChar? 0 with
  | some c => c.utf8Size
  | none => replaced bytes

/-- The character that they become. -/
def unitChar (bytes : List UInt8) : Char :=
  (bytes.toByteArray.utf8DecodeChar? 0).getD (Char.ofNat 0xFFFD)

/-- A place between two units. -/
inductive Boundary : List UInt8 → ℕ → Prop
  | start (bytes : List UInt8) : Boundary bytes 0
  | next {bytes : List UInt8} {i : ℕ} (hne : bytes ≠ []) (h : Boundary (bytes.drop (unit bytes)) i) :
      Boundary bytes (unit bytes + i)

section Units

variable {bytes a b : List UInt8} {c : Char}

lemma decode_some :
    bytes.toByteArray.utf8DecodeChar? 0 = some c ↔ ∃ rest, bytes = String.utf8EncodeChar c ++ rest := by
  constructor
  · intro h
    obtain ⟨rest, hrest⟩ := ByteArray.exists_of_utf8DecodeChar?_eq_some h
    refine ⟨rest.data.toList, ?_⟩
    rw [← List.toByteArray_inj, hrest, List.toByteArray_append]
    congr 1
    ext1
    rw [List.data_toByteArray]
  · rintro ⟨rest, rfl⟩
    rw [List.toByteArray_append]
    exact ByteArray.utf8DecodeChar?_utf8EncodeChar_append

lemma forall_byte {p : UInt8 → Prop} (h : ∀ n : Fin 256, p (UInt8.ofFin n)) (byte : UInt8) :
    p byte := by
  rw [← UInt8.ofFin_toFin byte]
  exact h byte.toFin

lemma inner_of_range : ∀ byte : UInt8, 0x80 ≤ byte → byte ≤ 0xBF → ¬ byte.IsUTF8FirstByte :=
  forall_byte (by decide +kernel)

lemma lead_first : ∀ byte : UInt8, 2 ≤ (lead byte).1 →
    byte.IsUTF8FirstByte ∧ 0x80 ≤ (lead byte).2.1 ∧ (lead byte).2.2 ≤ 0xBF :=
  forall_byte (by decide +kernel)

lemma head_first {first : UInt8} {rest : List UInt8}
    (h : (first :: rest).toByteArray.utf8DecodeChar? 0 = some c) : first.IsUTF8FirstByte := by
  obtain ⟨rest', hbytes⟩ := decode_some.mp h
  have hpos : 0 < (String.utf8EncodeChar c).length := by
    rw [String.length_utf8EncodeChar]
    exact c.utf8Size_pos
  have hhead : first = (String.utf8EncodeChar c)[0] := by
    have hget := congrArg (·[0]?) hbytes
    simp only [List.getElem?_cons_zero, List.getElem?_append_left hpos,
      List.getElem?_eq_getElem hpos] at hget
    exact Option.some.inj hget
  rw [hhead]
  exact UInt8.isUTF8FirstByte_getElem_utf8EncodeChar.mpr rfl

/-- A byte that begins no character is a unit of its own. -/
lemma unit_of_inner {first : UInt8} (h : ¬ first.IsUTF8FirstByte) (rest : List UInt8) :
    unit (first :: rest) = 1 := by
  rw [unit]
  split
  · rename_i c hc
    exact absurd (head_first hc) h
  · cases rest with
    | nil => rfl
    | cons next rest =>
        have hlead : ¬ 2 ≤ (lead first).1 := fun hlead => h (lead_first first hlead).1
        simp only [replaced]
        rw [if_neg fun hrange => hlead hrange.1]

lemma replaced_pos (bytes : List UInt8) : 1 ≤ replaced bytes := by
  fun_cases replaced bytes <;> omega

lemma replaced_le (hne : bytes ≠ []) : replaced bytes ≤ bytes.length := by
  have hpos := List.length_pos_of_ne_nil hne
  fun_cases replaced bytes with
  | case5 => omega
  | _ => simp only [List.length_cons]; omega

lemma replaced_inner {i : ℕ} (hi : 0 < i) (hlength : i < bytes.length) :
    i < replaced bytes → ¬ bytes[i].IsUTF8FirstByte := by
  fun_cases replaced bytes with
  | case1 first next more low high hlead hnext third rest hthird =>
      intro h
      have hrange := lead_first first (by rw [hlead]; exact hnext.1)
      rw [hlead] at hrange
      have hinner := inner_of_range next (UInt8.le_trans hrange.2.1 hnext.2.1)
        (UInt8.le_trans hnext.2.2 hrange.2.2)
      match i, hi, h with
      | 1, _, _ => exact hinner
      | 2, _, _ => exact inner_of_range third hthird.2.1 hthird.2.2
  | case2 first next more low high hlead hnext third rest hthird =>
      intro h
      have hrange := lead_first first (by rw [hlead]; exact hnext.1)
      rw [hlead] at hrange
      obtain rfl : i = 1 := by omega
      exact inner_of_range next (UInt8.le_trans hrange.2.1 hnext.2.1)
        (UInt8.le_trans hnext.2.2 hrange.2.2)
  | case3 first next more low high hlead hnext =>
      intro h
      have hrange := lead_first first (by rw [hlead]; exact hnext.1)
      rw [hlead] at hrange
      obtain rfl : i = 1 := by omega
      exact inner_of_range next (UInt8.le_trans hrange.2.1 hnext.2.1)
        (UInt8.le_trans hnext.2.2 hrange.2.2)
  | case4 => intro h; omega
  | case5 => intro h; omega

/-- Behind the first byte of a unit no character begins. -/
lemma unit_inner {i : ℕ} (hi : 0 < i) (h : i < unit bytes) (hlength : i < bytes.length) :
    ¬ bytes[i].IsUTF8FirstByte := by
  rw [unit] at h
  split at h
  · rename_i c hc
    obtain ⟨rest, rfl⟩ := decode_some.mp hc
    rw [List.getElem_append_left (by rwa [String.length_utf8EncodeChar]),
      UInt8.isUTF8FirstByte_getElem_utf8EncodeChar]
    omega
  · exact replaced_inner hi hlength h

lemma unit_pos (bytes : List UInt8) : 1 ≤ unit bytes := by
  rw [unit]
  split
  · rename_i c _
    exact c.utf8Size_pos
  · exact replaced_pos bytes

lemma unit_le (hne : bytes ≠ []) : unit bytes ≤ bytes.length := by
  rw [unit]
  split
  · rename_i c hc
    obtain ⟨rest, rfl⟩ := decode_some.mp hc
    rw [List.length_append, String.length_utf8EncodeChar]
    omega
  · exact replaced_le hne

lemma replaced_front (hne : a ≠ []) (h : replaced (a ++ b) ≤ a.length) :
    replaced a = replaced (a ++ b) := by
  match a, hne, h with
  | [first], _, h =>
      have := replaced_pos ([first] ++ b)
      simp only [List.length_singleton] at h
      have hsame : replaced ([first] ++ b) = 1 := by omega
      rw [hsame]
      rfl
  | [first, next], _, h =>
      cases b with
      | nil => rfl
      | cons third rest =>
          simp only [List.cons_append, List.nil_append, replaced, List.length_cons,
            List.length_nil] at h ⊢
          split
          · rename_i hnext
            rw [if_pos hnext] at h
            split at h
            · omega
            · rename_i hthird
              rw [if_neg hthird]
          · rfl
  | first :: next :: third :: rest, _, h => simp only [List.cons_append, replaced]

/-- A unit that ends within the front is the unit of the front alone. -/
lemma unit_front (hne : a ≠ []) (h : unit (a ++ b) ≤ a.length) :
    unit a = unit (a ++ b) ∧ unitChar a = unitChar (a ++ b) := by
  cases hwhole : (a ++ b).toByteArray.utf8DecodeChar? 0 with
  | some c =>
      have hfront : a.toByteArray.utf8DecodeChar? 0 = some c := by
        obtain ⟨rest, hrest⟩ := decode_some.mp hwhole
        rw [unit, hwhole] at h
        have hinside : String.utf8EncodeChar c <+: a ++ b := by
          rw [hrest]
          exact List.prefix_append _ _
        obtain ⟨rest', rfl⟩ := List.prefix_of_prefix_length_le hinside (List.prefix_append a b)
          (by rwa [String.length_utf8EncodeChar])
        exact decode_some.mpr ⟨rest', rfl⟩
      simp only [unit, unitChar, hwhole, hfront]
      exact ⟨trivial, trivial⟩
  | none =>
      have hfront : a.toByteArray.utf8DecodeChar? 0 = none := by
        cases hfront : a.toByteArray.utf8DecodeChar? 0 with
        | none => rfl
        | some c =>
            obtain ⟨rest, rfl⟩ := decode_some.mp hfront
            rw [List.append_assoc, decode_some.mpr ⟨rest ++ b, rfl⟩] at hwhole
            cases hwhole
      simp only [unit, unitChar, hwhole, hfront] at h ⊢
      exact ⟨replaced_front hne h, trivial⟩

end Units

section Decoding

variable {bytes a b : List UInt8}

lemma decodeRounds_unit (fuel : ℕ) (hne : bytes ≠ []) :
    decodeRounds (fuel + 1) bytes = unitChar bytes :: decodeRounds fuel (bytes.drop (unit bytes)) := by
  cases bytes with
  | nil => exact absurd rfl hne
  | cons first rest =>
      rw [decodeRounds, unit, unitChar]
      cases (first :: rest).toByteArray.utf8DecodeChar? 0 <;> rfl

lemma decodeRounds_nil (fuel : ℕ) : decodeRounds fuel [] = [] := by
  cases fuel <;> rfl

/-- More rounds than bytes make no difference. -/
lemma decodeRounds_enough {fuel more : ℕ} (h : bytes.length ≤ fuel) (hmore : bytes.length ≤ more) :
    decodeRounds fuel bytes = decodeRounds more bytes := by
  induction fuel generalizing more bytes with
  | zero =>
      obtain rfl := List.eq_nil_of_length_eq_zero (Nat.le_zero.mp h)
      rw [decodeRounds_nil, decodeRounds_nil]
  | succ fuel ih =>
      by_cases hne : bytes = []
      · rw [hne, decodeRounds_nil, decodeRounds_nil]
      · have hpos := List.length_pos_of_ne_nil hne
        have hunit := unit_pos bytes
        obtain ⟨more, rfl⟩ := Nat.exists_eq_add_of_lt (Nat.lt_of_lt_of_le hpos hmore)
        rw [Nat.zero_add, decodeRounds_unit fuel hne, decodeRounds_unit more hne]
        congr 1
        apply ih
        · rw [List.length_drop]
          omega
        · rw [List.length_drop]
          omega

@[simp] lemma decodeReplace_nil : decodeReplace [] = [] := rfl

/-- The decoder takes a unit, and goes on behind it. -/
lemma decodeReplace_unit (hne : bytes ≠ []) :
    decodeReplace bytes = unitChar bytes :: decodeReplace (bytes.drop (unit bytes)) := by
  have hpos := List.length_pos_of_ne_nil hne
  have hunit := unit_pos bytes
  rw [decodeReplace, decodeRounds_enough (le_refl _) (Nat.le_succ _), decodeRounds_unit _ hne,
    decodeReplace]
  congr 1
  apply decodeRounds_enough
  · rw [List.length_drop]
    omega
  · exact le_refl _

/-- Bytes that begin no character become a character each. -/
lemma length_decode_inner {i : ℕ} (h : ∀ j (hj : j < bytes.length), j < i →
    ¬ bytes[j].IsUTF8FirstByte) (hi : i ≤ bytes.length) :
    (decodeReplace bytes).length = i + (decodeReplace (bytes.drop i)).length := by
  induction i generalizing bytes with
  | zero => simp
  | succ i ih =>
      cases bytes with
      | nil => simp at hi
      | cons first rest =>
          have hunit : unit (first :: rest) = 1 := unit_of_inner (h 0 (by simp) (by omega)) rest
          rw [decodeReplace_unit (List.cons_ne_nil _ _), hunit, List.length_cons, List.drop_succ_cons,
            List.drop_zero, List.drop_succ_cons, ih]
          · omega
          · intro j hj hji
            exact h (j + 1) (by simpa using hj) (by omega)
          · simpa using hi

lemma boundary_front {i : ℕ} (h : Boundary bytes i) (hi : 0 < i) :
    bytes ≠ [] ∧ ∃ j, i = unit bytes + j ∧ Boundary (bytes.drop (unit bytes)) j := by
  cases h with
  | start => omega
  | next hne h => exact ⟨hne, _, rfl, h⟩

/-- A cut between two units changes nothing; any other one leaves more characters. -/
theorem decode_cut (a b : List UInt8) :
    (Boundary (a ++ b) a.length → decodeReplace (a ++ b) = decodeReplace a ++ decodeReplace b) ∧
      (¬ Boundary (a ++ b) a.length →
        (decodeReplace (a ++ b)).length < (decodeReplace a).length + (decodeReplace b).length) := by
  induction hsize : a.length using Nat.strong_induction_on generalizing a with
  | _ size ih =>
      by_cases hne : a = []
      · subst hne
        refine ⟨fun _ => by simp, fun hnot => ?_⟩
        rw [← hsize] at hnot
        exact absurd (Boundary.start _) hnot
      · have hpos := List.length_pos_of_ne_nil hne
        have hwhole : a ++ b ≠ [] := by simp [hne]
        have hunit := unit_pos (a ++ b)
        by_cases hfront : unit (a ++ b) ≤ a.length
        · obtain ⟨hsame, hchar⟩ := unit_front hne hfront
          have hdrop : (a ++ b).drop (unit (a ++ b)) = a.drop (unit a) ++ b := by
            rw [hsame, List.drop_append_of_le_length hfront]
          have hshort : (a.drop (unit a)).length < size := by
            rw [List.length_drop, hsame]
            omega
          have hrest := ih _ hshort (a.drop (unit a)) rfl
          have hboundary : Boundary (a ++ b) size ↔
              Boundary (a.drop (unit a) ++ b) (a.drop (unit a)).length := by
            rw [← hdrop, List.length_drop, hsame]
            constructor
            · intro h
              obtain ⟨-, j, hj, hrest⟩ := boundary_front h (by omega)
              obtain rfl : j = a.length - unit (a ++ b) := by omega
              exact hrest
            · intro h
              have hnext := Boundary.next hwhole h
              rwa [Nat.add_sub_cancel' hfront, hsize] at hnext
          rw [decodeReplace_unit hwhole, decodeReplace_unit hne, hdrop, hchar, hboundary]
          constructor
          · intro h
            rw [hrest.1 h, List.cons_append]
          · intro h
            have := hrest.2 h
            simp only [List.length_cons]
            omega
        · -- the unit reaches over the cut, and what is behind the cut is no beginning
          have hinside := Nat.lt_of_not_le hfront
          have hlength := unit_le hwhole
          rw [List.length_append] at hlength
          refine ⟨fun h => ?_, fun _ => ?_⟩
          · obtain ⟨-, j, hj, -⟩ := boundary_front h (by omega)
            omega
          · have hfirst : 1 ≤ (decodeReplace a).length := by
              rw [decodeReplace_unit hne, List.length_cons]
              omega
            have hbehind := @length_decode_inner b (unit (a ++ b) - a.length) (by
              intro j hj hji
              have hinner := @unit_inner (a ++ b) (a.length + j) (by omega) (by omega)
                (by rw [List.length_append]; omega)
              simpa [List.getElem_append_right, Nat.add_sub_cancel_left] using hinner) (by omega)
            have hdrop : (a ++ b).drop (unit (a ++ b)) = b.drop (unit (a ++ b) - a.length) := by
              rw [List.drop_append, List.drop_eq_nil_of_le (Nat.le_of_lt hinside), List.nil_append]
            rw [decodeReplace_unit hwhole, hdrop, List.length_cons]
            omega

lemma length_decode_append (a b : List UInt8) :
    (decodeReplace (a ++ b)).length ≤ (decodeReplace a).length + (decodeReplace b).length := by
  by_cases h : Boundary (a ++ b) a.length
  · rw [(decode_cut a b).1 h, List.length_append]
  · exact Nat.le_of_lt ((decode_cut a b).2 h)

lemma length_decode_flatten (pieces : List (List UInt8)) :
    (decodeReplace pieces.flatten).length ≤ ((pieces.map decodeReplace).flatten).length := by
  induction pieces with
  | nil => simp
  | cons piece pieces ih =>
      rw [List.flatten_cons, List.map_cons, List.flatten_cons, List.length_append]
      have := length_decode_append piece pieces.flatten
      omega

/-- Before a byte that begins a character there is a boundary. -/
theorem boundary_of_first {i : ℕ} (hlength : i < bytes.length) (h : bytes[i].IsUTF8FirstByte) :
    Boundary bytes i := by
  induction i using Nat.strong_induction_on generalizing bytes with
  | _ i ih =>
      rcases Nat.eq_zero_or_pos i with rfl | hpos
      · exact Boundary.start bytes
      · have hne : bytes ≠ [] := List.ne_nil_of_length_pos (Nat.zero_lt_of_lt hlength)
        have hunit := unit_pos bytes
        have hbehind : unit bytes ≤ i := by
          by_contra hinside
          exact unit_inner hpos (by omega) hlength h
        obtain ⟨j, rfl⟩ := Nat.exists_eq_add_of_le hbehind
        have hrest : j < (bytes.drop (unit bytes)).length := by
          rw [List.length_drop]
          omega
        refine Boundary.next hne (ih j (by omega) hrest ?_)
        rw [List.getElem_drop]
        exact h

/-- What was encoded is decoded to itself, whatever follows it. -/
theorem decodeReplace_encode_append (text : List Char) (after : List UInt8) :
    decodeReplace (encode text ++ after) = text ++ decodeReplace after := by
  induction text with
  | nil => rfl
  | cons c text ih =>
      have hbytes : encode (c :: text) ++ after = String.utf8EncodeChar c ++ (encode text ++ after) := by
        rw [encode, List.flatMap_cons, List.append_assoc]
        rfl
      have hdecode : (encode (c :: text) ++ after).toByteArray.utf8DecodeChar? 0 = some c :=
        decode_some.mpr ⟨_, hbytes⟩
      have hne : encode (c :: text) ++ after ≠ [] := by
        intro hnil
        have hlength := congrArg List.length (hbytes.symm.trans hnil)
        have hpos := c.utf8Size_pos
        rw [List.length_append, String.length_utf8EncodeChar, List.length_nil] at hlength
        omega
      have hunit : unit (encode (c :: text) ++ after) = (String.utf8EncodeChar c).length := by
        rw [unit, hdecode, String.length_utf8EncodeChar]
      rw [decodeReplace_unit hne, hunit, unitChar, hdecode, hbytes, List.drop_left, ih]
      rfl

lemma boundary_behind {i j : ℕ} (h : Boundary bytes i) (hmore : Boundary bytes (i + j)) :
    Boundary (bytes.drop i) j := by
  induction h with
  | start bytes => simpa using hmore
  | @next bytes i hne h ih =>
      have hunit := unit_pos bytes
      obtain ⟨-, k, hk, hrest⟩ := boundary_front hmore (by omega)
      obtain rfl : k = i + j := by omega
      rw [← List.drop_drop]
      exact ih hrest

/-- The pieces decode to the text of the whole exactly if each ends between two units. -/
theorem decode_pieces (pieces : List (List UInt8)) :
    (pieces.map decodeReplace).flatten = decodeReplace pieces.flatten ↔
      ∀ front back, pieces = front ++ back → Boundary pieces.flatten front.flatten.length := by
  constructor
  · intro h front back hpieces
    by_contra hcut
    have hlength := congrArg List.length h
    rw [hpieces, List.flatten_append] at hcut hlength
    rw [List.map_append, List.flatten_append, List.length_append] at hlength
    have hwhole := (decode_cut _ _).2 hcut
    have hfront := length_decode_flatten front
    have hback := length_decode_flatten back
    omega
  · intro h
    induction pieces with
    | nil => rfl
    | cons piece pieces ih =>
        have hfirst := h [piece] pieces rfl
        rw [List.flatten_cons, List.flatten_singleton] at hfirst
        rw [List.map_cons, List.flatten_cons, List.flatten_cons, (decode_cut _ _).1 hfirst, ih]
        intro front back hpieces
        have hmore := h (piece :: front) back (by rw [hpieces, List.cons_append])
        rw [List.flatten_cons, List.flatten_cons, List.length_append] at hmore
        have hbehind := boundary_behind hfirst hmore
        rwa [List.drop_left] at hbehind

end Decoding

end Imece.Lib.Utf8
