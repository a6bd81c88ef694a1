import Imece.Lib.Json
import Mathlib.Data.List.TakeDrop

/-!
# What is written is read back

A value without floats and with distinct keys is read back from its text, whatever
follows the text.
-/
namespace Imece.Lib.Json

section Strings

lemma hexValue_hexDigit {n : ℕ} (h : n < 16) : hexValue (hexDigit n) = some n := by
  revert h n
  decide

lemma scanString_escape (c : Char) (tail : List Char) :
    scanString (escape c ++ tail) = consChar c (scanString tail) := by
  unfold escape
  split
  · subst_vars; rfl
  split
  · subst_vars; rfl
  split
  · subst_vars; rfl
  split
  · subst_vars; rfl
  split
  · subst_vars; rfl
  split
  · subst_vars; rfl
  split
  · subst_vars; rfl
  split
  · rename_i hcontrol
    have hhex : hex4 '0' '0' (hexDigit (c.toNat / 16)) (hexDigit (c.toNat % 16)) =
        some c.toNat := by
      have hzero : hexValue '0' = some 0 := by decide
      rw [hex4, hzero, hexValue_hexDigit (by omega), hexValue_hexDigit (by omega)]
      simp only [Option.pure_def, Option.bind_eq_bind, Option.bind_some, Option.some.injEq]
      omega
    have hhigh : isHighSurrogate c.toNat = false := by
      rw [isHighSurrogate, Bool.and_eq_false_iff]
      exact Or.inl (by simp; omega)
    have hlow : isLowSurrogate c.toNat = false := by
      rw [isLowSurrogate, Bool.and_eq_false_iff]
      exact Or.inl (by simp; omega)
    simp only [List.cons_append, List.nil_append]
    rw [scanString]
    simp only [hhex, hhigh, hlow, Char.ofNat_toNat]
    rfl
  · rename_i hquote hback hn hr ht hf hb hcontrol
    rw [List.singleton_append, scanString]
    · rw [if_neg (by rw [not_or]; exact ⟨hback, hcontrol⟩)]
    · exact fun h => hquote h
    · intro a b c d rest h
      exact absurd h hback
    · intro c' rest h
      exact absurd h hback

lemma scanString_render (chars tail : List Char) :
    scanString (chars.flatMap escape ++ '"' :: tail) = .ok (chars, tail) := by
  induction chars with
  | nil => rfl
  | cons c chars ih =>
      rw [List.flatMap_cons, List.append_assoc, scanString_escape, ih]
      rfl

end Strings

section Numbers

/-- What may follow a value in a text. -/
def Stops (rest : List Char) : Prop :=
  rest = [] ∨ ∃ c more, rest = c :: more ∧ (c = ',' ∨ c = ']' ∨ c = '}')

/-- The text does not go on with a digit. -/
def EndsDigits (rest : List Char) : Prop := ∀ c more, rest = c :: more → c.isDigit = false

lemma Stops.endsDigits {rest : List Char} (h : Stops rest) : EndsDigits rest := by
  rcases h with rfl | ⟨c, more, rfl, hc⟩
  · intro c more h
    cases h
  · intro d more' h
    obtain ⟨rfl, -⟩ := List.cons.inj h
    rcases hc with rfl | rfl | rfl <;> rfl

lemma takeDigits_append {digits rest : List Char} (hdigits : ∀ c ∈ digits, c.isDigit = true)
    (hrest : EndsDigits rest) : takeDigits (digits ++ rest) = (digits, rest) := by
  rw [takeDigits, List.span_eq_takeWhile_dropWhile]
  have hstop : rest.takeWhile Char.isDigit = [] ∧ rest.dropWhile Char.isDigit = rest := by
    cases rest with
    | nil => exact ⟨rfl, rfl⟩
    | cons c more =>
        have hc := hrest c more rfl
        simp [hc]
  rw [List.takeWhile_append_of_pos hdigits, List.dropWhile_append_of_pos hdigits, hstop.1,
    hstop.2, List.append_nil]

lemma toDigits_head {n : ℕ} (hn : 0 < n) :
    ∃ c more, Nat.toDigits 10 n = c :: more ∧ c ≠ '0' ∧ c.isDigit = true := by
  induction n using Nat.strongRecOn with
  | ind n ih =>
      by_cases hlt : n < 10
      · rw [Nat.toDigits_of_lt_base hlt]
        have hdigit : ∀ n < 10, 0 < n → n.digitChar ≠ '0' ∧ n.digitChar.isDigit = true := by
          decide +kernel
        exact ⟨n.digitChar, [], rfl, hdigit n hlt hn⟩
      · rw [Nat.toDigits_of_base_le (by omega) (by omega)]
        obtain ⟨c, more, hdigits, hc⟩ := ih (n / 10) (by omega) (by omega)
        rw [hdigits]
        exact ⟨c, _, rfl, hc⟩

lemma scanWhole_toDigits {rest : List Char} (hrest : EndsDigits rest) (n : ℕ) :
    scanWhole (Nat.toDigits 10 n ++ rest) = some (Nat.toDigits 10 n, rest) := by
  rcases Nat.eq_zero_or_pos n with rfl | hn
  · rfl
  · obtain ⟨c, more, hdigits, hc, hdigit⟩ := toDigits_head hn
    have hmore : ∀ d ∈ more, d.isDigit = true := by
      intro d hd
      exact Nat.isDigit_of_mem_toDigits (b := 10) (n := n) (by omega) (by omega)
        (by rw [hdigits]; exact List.mem_cons_of_mem c hd)
    rw [hdigits, List.cons_append, scanWhole]
    · rw [if_pos hdigit, takeDigits_append hmore hrest]
    · exact hc

lemma scanNumber_toDigits (floats negative : Bool) {rest : List Char} (hrest : Stops rest)
    {n : ℕ} (hn : (Nat.toDigits 10 n).length ≤ maxIntDigits) :
    scanNumber floats negative (Nat.toDigits 10 n ++ rest) =
      .ok (int (if negative then -n else n), rest) := by
  have hfraction : scanFraction rest = ([], rest) := by
    rcases hrest with rfl | ⟨c, more, rfl, rfl | rfl | rfl⟩ <;> rfl
  have hexponent : scanExponent rest = ([], rest) := by
    rcases hrest with rfl | ⟨c, more, rfl, rfl | rfl | rfl⟩ <;> rfl
  rw [scanNumber, scanWhole_toDigits hrest.endsDigits]
  simp only [hfraction, hexponent, List.isEmpty_nil, Bool.and_self, if_true,
    Nat.ofDigitChars_ten_toDigits]
  rw [if_neg (by omega)]

/-- Whether the literal of an integer is read back. -/
def fitsInt (n : ℤ) : Bool := (Nat.toDigits 10 n.natAbs).length ≤ maxIntDigits

lemma scanScalar_of_digit {floats : Bool} {cs rest more : List Char} {c : Char}
    (hdigit : c.isDigit = true) (hcs : cs = c :: more) :
    scanScalar floats (cs ++ rest) = scanNumber floats false (cs ++ rest) := by
  subst hcs
  unfold scanScalar
  split <;> first | rfl | simp_all

lemma scanScalar_int {floats : Bool} {rest : List Char} (hrest : Stops rest) {n : ℤ}
    (hn : fitsInt n = true) : scanScalar floats (renderInt n ++ rest) = .ok (int n, rest) := by
  rw [fitsInt, decide_eq_true_eq] at hn
  cases n with
  | ofNat n =>
      have hnumber := scanNumber_toDigits floats false hrest hn
      obtain ⟨c, more, hdigits, hdigit⟩ : ∃ c more, Nat.toDigits 10 n = c :: more ∧
          c.isDigit = true := by
        rcases Nat.eq_zero_or_pos n with rfl | hpos
        · exact ⟨'0', [], rfl, rfl⟩
        · obtain ⟨c, more, hdigits, -, hdigit⟩ := toDigits_head hpos
          exact ⟨c, more, hdigits, hdigit⟩
      rw [renderInt, scanScalar_of_digit hdigit hdigits]
      exact hnumber
  | negSucc n =>
      have hnumber := scanNumber_toDigits floats true hrest hn
      obtain ⟨c, more, hdigits, -, hdigit⟩ := toDigits_head (n := n + 1) (by omega)
      rw [renderInt, List.cons_append]
      have hminus : scanScalar floats ('-' :: (Nat.toDigits 10 (n + 1) ++ rest)) =
          scanNumber floats true (Nat.toDigits 10 (n + 1) ++ rest) := by
        rw [hdigits, List.cons_append, scanScalar]
        intro more' heq
        rw [(List.cons.inj heq).1] at hdigit
        cases hdigit
      rw [hminus]
      exact hnumber

end Numbers

section Values

mutual

/-- No floats, integers that are read back, and distinct keys in every object. -/
def plain : Json → Bool
  | float _ => false
  | int n => fitsInt n
  | arr items => plainItems items
  | obj members => decide (members.map (·.1)).Nodup && plainMembers members
  | _ => true

def plainItems : List Json → Bool
  | [] => true
  | item :: rest => plain item && plainItems rest

def plainMembers : List (String × Json) → Bool
  | [] => true
  | (_, value) :: rest => plain value && plainMembers rest

end

/-- A text that starts neither with a blank nor with a closing bracket. -/
def Opens (cs : List Char) : Prop :=
  ∃ c more, cs = c :: more ∧ isBlank c = false ∧ c ≠ ']' ∧ c ≠ '}'

lemma Opens.append {cs : List Char} (h : Opens cs) (rest : List Char) : Opens (cs ++ rest) := by
  obtain ⟨c, more, rfl, hc⟩ := h
  exact ⟨c, more ++ rest, rfl, hc⟩

lemma Opens.skipBlanks {cs : List Char} (h : Opens cs) : skipBlanks cs = cs := by
  obtain ⟨c, more, rfl, hc, -⟩ := h
  rw [Json.skipBlanks, List.dropWhile_cons_of_neg (by simp [hc])]

lemma opens_renderString (text : String) : Opens (renderString text) :=
  ⟨'"', _, rfl, rfl, by decide, by decide⟩

lemma opens_of_digit {c : Char} {more : List Char} (h : c.isDigit = true) : Opens (c :: more) := by
  refine ⟨c, more, rfl, ?_, ?_, ?_⟩
  · rw [← Bool.not_eq_true]
    intro hblank
    simp only [isBlank, Bool.or_eq_true, beq_iff_eq] at hblank
    rcases hblank with ((rfl | rfl) | rfl) | rfl <;> cases h
  · rintro rfl
    cases h
  · rintro rfl
    cases h

lemma opens_render {value : Json} (h : plain value = true) : Opens (render value) := by
  cases value with
  | null => exact ⟨'n', _, rfl, rfl, by decide, by decide⟩
  | bool b => cases b <;> exact ⟨_, _, rfl, rfl, by decide, by decide⟩
  | int n =>
      cases n with
      | ofNat n =>
          rcases Nat.eq_zero_or_pos n with rfl | hpos
          · exact opens_of_digit (c := '0') rfl
          · obtain ⟨c, more, hdigits, -, hdigit⟩ := toDigits_head hpos
            rw [render, renderInt, hdigits]
            exact opens_of_digit hdigit
      | negSucc n => exact ⟨'-', _, rfl, rfl, by decide, by decide⟩
  | float literal => cases h
  | str text => exact opens_renderString text
  | arr items => exact ⟨'[', _, rfl, rfl, by decide, by decide⟩
  | obj members => exact ⟨'{', _, rfl, rfl, by decide, by decide⟩

lemma stops_comma (rest : List Char) : Stops (',' :: rest) := Or.inr ⟨_, _, rfl, Or.inl rfl⟩

lemma scanValue_string (floats : Bool) (fuel : ℕ) (text : String) (rest : List Char) :
    scanValue floats (fuel + 1) (renderString text ++ rest) = .ok (str text, rest) := by
  rw [renderString, List.cons_append, List.append_assoc, List.singleton_append, scanValue]
  rw [scanString_render]
  simp [bind, Except.bind, pure, Except.pure]

lemma scanValue_scalar {floats : Bool} {fuel : ℕ} {c : Char} {more : List Char}
    (hquote : c ≠ '"') (hbracket : c ≠ '[') (hbrace : c ≠ '{') :
    scanValue floats (fuel + 1) (c :: more) = scanScalar floats (c :: more) := by
  rw [scanValue]
  · exact fun _ h => hquote (List.cons.inj h).1
  · exact fun _ h => hbracket (List.cons.inj h).1
  · exact fun _ h => hbrace (List.cons.inj h).1

lemma scanValue_int {floats : Bool} {fuel : ℕ} {rest : List Char} (hrest : Stops rest) {n : ℤ}
    (hn : fitsInt n = true) :
    scanValue floats (fuel + 1) (renderInt n ++ rest) = .ok (int n, rest) := by
  have hscalar : scanValue floats (fuel + 1) (renderInt n ++ rest) =
      scanScalar floats (renderInt n ++ rest) := by
    cases n with
    | ofNat n =>
        rcases Nat.eq_zero_or_pos n with rfl | hpos
        · exact scanValue_scalar (by decide) (by decide) (by decide)
        · obtain ⟨c, more, hdigits, -, hdigit⟩ := toDigits_head hpos
          rw [renderInt, hdigits, List.cons_append]
          refine scanValue_scalar ?_ ?_ ?_ <;>
          · rintro rfl
            cases hdigit
    | negSucc n => exact scanValue_scalar (by decide) (by decide) (by decide)
  rw [hscalar, scanScalar_int hrest hn]

lemma opens_renderItems {item : Json} (h : plain item = true) (more : List Json) :
    Opens (renderItems (item :: more)) := by
  cases more with
  | nil => exact opens_render h
  | cons next more => exact (opens_render h).append _

lemma opens_renderMembers (member : String × Json) (more : List (String × Json)) :
    Opens (renderMembers (member :: more)) := by
  obtain ⟨key, value⟩ := member
  cases more with
  | nil => exact (opens_renderString key).append _
  | cons next more => exact (opens_renderString key).append _

lemma skipBlanks_cons {c : Char} (more : List Char) (h : isBlank c = false) :
    skipBlanks (c :: more) = c :: more := by
  rw [skipBlanks, List.dropWhile_cons_of_neg (by simp [h])]

/-- A key and its value, up to the character after the value. -/
lemma scanMembers_key {floats : Bool} {fuel : ℕ} {key : String} {value : Json}
    {cs rest : List Char} (hopens : Opens cs)
    (hvalue : scanValue floats fuel cs = .ok (value, rest)) :
    scanMembers floats (fuel + 1) (renderString key ++ ':' :: cs) =
      match skipBlanks rest with
      | '}' :: rest => .ok ([(key, value)], rest)
      | ',' :: rest => do
          let (members, rest) ← scanMembers floats fuel (skipBlanks rest)
          return ((key, value) :: members, rest)
      | _ => .error .malformed := by
  rw [renderString, List.cons_append, List.append_assoc, List.singleton_append, scanMembers,
    scanString_render]
  simp only [bind, Except.bind, skipBlanks_cons _ (show isBlank ':' = false from rfl),
    hopens.skipBlanks, hvalue, String.ofList_toList]
  rfl

/-- A list of items between its brackets. -/
lemma scanValue_arr {floats : Bool} {fuel : ℕ} {items : List Json} {cs rest : List Char}
    (hopens : Opens cs) (hitems : scanItems floats fuel cs = .ok (items, rest)) :
    scanValue floats (fuel + 1) ('[' :: cs) = .ok (arr items, rest) := by
  obtain ⟨c, more, rfl, hblank, hclose, -⟩ := hopens
  have hskip := skipBlanks_cons more hblank
  rw [scanValue]
  split
  · rename_i rest' heq
    rw [hskip] at heq
    exact absurd (List.cons.inj heq).1 hclose
  · rw [hskip, hitems]
    rfl

lemma scanValue_obj {floats : Bool} {fuel : ℕ} {members : List (String × Json)}
    {cs rest : List Char} (hopens : Opens cs) (hdistinct : (members.map (·.1)).Nodup)
    (hmembers : scanMembers floats fuel cs = .ok (members, rest)) :
    scanValue floats (fuel + 1) ('{' :: cs) = .ok (obj members, rest) := by
  obtain ⟨c, more, rfl, hblank, -, hclose⟩ := hopens
  have hskip := skipBlanks_cons more hblank
  rw [scanValue]
  split
  · rename_i rest' heq
    rw [hskip] at heq
    exact absurd (List.cons.inj heq).1 hclose
  · rw [hskip, hmembers]
    simp only [bind, Except.bind, if_pos hdistinct]
    rfl

mutual

theorem scanValue_render (floats : Bool) : ∀ (value : Json), plain value = true →
    ∀ (fuel : ℕ) (rest : List Char), (render value).length ≤ fuel → Stops rest →
      scanValue floats fuel (render value ++ rest) = .ok (value, rest)
  | null, _, fuel + 1, rest, _, _ => scanValue_scalar (by decide) (by decide) (by decide)
  | bool true, _, fuel + 1, rest, _, _ => scanValue_scalar (by decide) (by decide) (by decide)
  | bool false, _, fuel + 1, rest, _, _ => scanValue_scalar (by decide) (by decide) (by decide)
  | int n, hplain, fuel + 1, rest, _, hrest => scanValue_int hrest hplain
  | float _, hplain, _, _, _, _ => by cases hplain
  | str text, _, fuel + 1, rest, _, _ => scanValue_string floats fuel text rest
  | arr [], _, fuel + 1, rest, _, _ => rfl
  | arr (item :: more), hplain, fuel + 1, rest, hfuel, _ => by
      rw [render, List.cons_append, List.append_assoc, List.singleton_append]
      rw [render, List.length_cons, List.length_append, List.length_singleton] at hfuel
      refine scanValue_arr ?_ (scanItems_render floats (item :: more) (by simp) hplain fuel rest
        (by omega))
      rw [plain, plainItems, Bool.and_eq_true] at hplain
      exact (opens_renderItems hplain.1 more).append _
  | obj [], _, fuel + 1, rest, _, _ => rfl
  | obj (member :: more), hplain, fuel + 1, rest, hfuel, _ => by
      rw [plain, Bool.and_eq_true, decide_eq_true_eq] at hplain
      rw [render, List.cons_append, List.append_assoc, List.singleton_append]
      rw [render, List.length_cons, List.length_append, List.length_singleton] at hfuel
      refine scanValue_obj ?_ hplain.1 (scanMembers_render floats (member :: more) (by simp)
        hplain.2 fuel rest (by omega))
      exact (opens_renderMembers member more).append _
  | value, hplain, 0, _, hfuel, _ => by
      obtain ⟨c, more, h, -⟩ := opens_render hplain
      rw [h] at hfuel
      cases hfuel

theorem scanItems_render (floats : Bool) : ∀ (items : List Json), items ≠ [] →
    plainItems items = true → ∀ (fuel : ℕ) (rest : List Char),
      (renderItems items).length < fuel →
        scanItems floats fuel (renderItems items ++ ']' :: rest) = .ok (items, rest)
  | [], h, _, _, _, _ => absurd rfl h
  | [item], _, hplain, fuel + 1, rest, hfuel => by
      rw [plainItems, Bool.and_eq_true] at hplain
      rw [renderItems] at hfuel ⊢
      rw [scanItems, scanValue_render floats item hplain.1 fuel (']' :: rest) (by omega)
        (Or.inr ⟨_, _, rfl, Or.inr (Or.inl rfl)⟩)]
      rfl
  | item :: next :: more, _, hplain, fuel + 1, rest, hfuel => by
      rw [plainItems, Bool.and_eq_true] at hplain
      rw [renderItems, List.append_assoc, List.cons_append]
      rw [renderItems, List.length_append, List.length_cons] at hfuel
      rw [scanItems, scanValue_render floats item hplain.1 fuel _ (by omega) (stops_comma _)]
      have hrest := scanItems_render floats (next :: more) (by simp) hplain.2 fuel rest (by omega)
      have hopens : Opens (renderItems (next :: more) ++ ']' :: rest) := by
        rw [plainItems, Bool.and_eq_true] at hplain
        exact (opens_renderItems hplain.2.1 more).append _
      simp only [bind, Except.bind, skipBlanks_cons _ (show isBlank ',' = false from rfl),
        hopens.skipBlanks, hrest]
      rfl

theorem scanMembers_render (floats : Bool) : ∀ (members : List (String × Json)), members ≠ [] →
    plainMembers members = true → ∀ (fuel : ℕ) (rest : List Char),
      (renderMembers members).length < fuel →
        scanMembers floats fuel (renderMembers members ++ '}' :: rest) = .ok (members, rest)
  | [], h, _, _, _, _ => absurd rfl h
  | [(key, value)], _, hplain, fuel + 1, rest, hfuel => by
      rw [plainMembers, Bool.and_eq_true] at hplain
      rw [renderMembers, List.append_assoc, List.cons_append]
      rw [renderMembers, List.length_append, List.length_cons] at hfuel
      rw [scanMembers_key ((opens_render hplain.1).append _) (scanValue_render floats value hplain.1
        fuel ('}' :: rest) (by omega) (Or.inr ⟨_, _, rfl, Or.inr (Or.inr rfl)⟩))]
      rfl
  | (key, value) :: next :: more, _, hplain, fuel + 1, rest, hfuel => by
      rw [plainMembers, Bool.and_eq_true] at hplain
      rw [renderMembers, List.append_assoc, List.cons_append, List.append_assoc, List.cons_append]
      rw [renderMembers, List.length_append, List.length_cons, List.length_append,
        List.length_cons] at hfuel
      have hrest := scanMembers_render floats (next :: more) (by simp) hplain.2 fuel rest
        (by omega)
      have hopens := (opens_renderMembers next more).append ('}' :: rest)
      rw [scanMembers_key ((opens_render hplain.1).append _) (scanValue_render floats value hplain.1
        fuel _ (by omega) (stops_comma _))]
      simp only [bind, Except.bind, skipBlanks_cons _ (show isBlank ',' = false from rfl),
        hopens.skipBlanks, hrest]
      rfl

end

/-- A whole text is read back. -/
theorem decode_render {floats : Bool} {value : Json} (h : plain value = true) :
    decode floats (String.ofList (render value)) = .ok value := by
  have hscan := scanValue_render floats value h ((render value).length + 1) [] (by omega)
    (Or.inl rfl)
  rw [List.append_nil] at hscan
  rw [decode, String.toList_ofList, (opens_render h).skipBlanks, hscan]
  rfl

end Values

section Sorting

lemma sortItems_eq_map (items : List Json) : sortItems items = items.map sortKeys := by
  induction items with
  | nil => rfl
  | cons item rest ih => rw [sortItems, ih, List.map_cons]

lemma sortMembers_eq_map (members : List (String × Json)) :
    sortMembers members = members.map fun member => (member.1, sortKeys member.2) := by
  induction members with
  | nil => rfl
  | cons member rest ih =>
      obtain ⟨key, value⟩ := member
      rw [sortMembers, ih, List.map_cons]

lemma plainItems_iff {items : List Json} :
    plainItems items = true ↔ ∀ item ∈ items, plain item = true := by
  induction items with
  | nil => simp [plainItems]
  | cons item rest ih => simp [plainItems, ih]

lemma plainMembers_iff {members : List (String × Json)} :
    plainMembers members = true ↔ ∀ member ∈ members, plain member.2 = true := by
  induction members with
  | nil => simp [plainMembers]
  | cons member rest ih => simp [plainMembers, ih]

/-- The members of a sorted object, in some order. -/
lemma sortKeys_obj_perm (members : List (String × Json)) :
    ∃ sorted, sortKeys (obj members) = obj sorted ∧
      sorted.Perm (members.map fun member => (member.1, sortKeys member.2)) :=
  ⟨_, rfl, by rw [sortMembers_eq_map]; exact List.perm_insertionSort _ _⟩

theorem plain_sortKeys {value : Json} (h : plain value = true) :
    plain (sortKeys value) = true := by
  induction value using Json.induction with
  | null | bool | str => rfl
  | int | float => exact h
  | arr items ih =>
      rw [plain, plainItems_iff] at h
      rw [sortKeys, plain, plainItems_iff, sortItems_eq_map]
      intro item hitem
      obtain ⟨original, horiginal, rfl⟩ := List.mem_map.mp hitem
      exact ih original horiginal (h original horiginal)
  | obj members ih =>
      rw [plain, Bool.and_eq_true, decide_eq_true_eq, plainMembers_iff] at h
      obtain ⟨sorted, hsorted, hperm⟩ := sortKeys_obj_perm members
      rw [hsorted, plain, Bool.and_eq_true, decide_eq_true_eq, plainMembers_iff]
      constructor
      · rw [(hperm.map _).nodup_iff, List.map_map]
        exact h.1
      · intro member hmember
        obtain ⟨original, horiginal, rfl⟩ := List.mem_map.mp (hperm.mem_iff.mp hmember)
        exact ih original horiginal (h.2 original horiginal)

/-- The canonical text of a value is read back with its members sorted. -/
theorem decode_canonical {floats : Bool} {value : Json} (h : plain value = true) :
    decode floats (canonical value) = .ok (sortKeys value) :=
  decode_render (plain_sortKeys h)

end Sorting

end Imece.Lib.Json
