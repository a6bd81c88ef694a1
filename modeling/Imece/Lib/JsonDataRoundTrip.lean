import Imece.Lib.JsonData

/-!
# What the codec writes it reads back

A value that is written, whose floats are finite and whose dicts have distinct keys, is read back
from its text, whatever follows the text.
-/
namespace Imece.Lib.JsonData

open CodePoint Points

section Strings

lemma consUnit_of_low {unit : ℕ} (h : Json.isHighSurrogate unit = false) (rest : Points)
    (scanned : Option (Points × Points)) :
    consUnit unit rest scanned = consPoint (ofUnit unit) scanned := by
  unfold consUnit
  split
  · simp only [h, Bool.false_and]
    rfl
  · rfl

lemma scanString_escape (point : CodePoint) (tail : Points) :
    scanString (escapePoint point ++ tail) = consPoint point (scanString tail) := by
  cases point with
  | surrogate offset => rfl
  | char c =>
      change scanString (ofChars (Json.escape c) ++ tail) = _
      unfold Json.escape
      split
      · subst_vars; rfl
      split
      · subst_vars; rfl
      split
      · subst_vars; rfl
      split
      · subst_vars; rfl
      split
      · subst_vars; rfl
      split
      · subst_vars; rfl
      split
      · subst_vars; rfl
      split
      · rename_i hcontrol
        have hhex : Json.hex4 '0' '0' (Json.hexDigit (c.toNat / 16))
            (Json.hexDigit (c.toNat % 16)) = some c.toNat := by
          have hzero : Json.hexValue '0' = some 0 := by decide
          rw [Json.hex4, hzero, Json.hexValue_hexDigit (by omega),
            Json.hexValue_hexDigit (by omega)]
          simp only [Option.pure_def, Option.bind_eq_bind, Option.bind_some, Option.some.injEq]
          omega
        have hhigh : Json.isHighSurrogate c.toNat = false := by
          rw [Json.isHighSurrogate, Bool.and_eq_false_iff]
          exact Or.inl (by simp; omega)
        have hunit : ofUnit c.toNat = char c := by
          rw [ofUnit, dif_neg (by omega), Char.ofNat_toNat]
        simp only [ofChars, List.map_cons, List.map_nil, List.cons_append, List.nil_append]
        rw [scanString]
        simp only [hhex]
        rw [consUnit_of_low hhigh, hunit]
      · rename_i hquote hback hn hr ht hf hb hcontrol
        rw [ofChars, List.map_singleton, List.singleton_append, scanString]
        · rw [if_neg (by rw [not_or]; exact ⟨hback, hcontrol⟩)]
        · exact fun h => hquote h
        · intros
          exact hback (by assumption)
        · intros
          exact hback (by assumption)

lemma scanString_quote (text tail : Points) :
    scanString (text.flatMap escapePoint ++ char '"' :: tail) = some (text, tail) := by
  induction text with
  | nil => rfl
  | cons point text ih =>
      rw [List.flatMap_cons, List.append_assoc, scanString_escape, ih]
      rfl

end Strings

section Scalars

variable {φ : Type} {codec : FloatCodec φ} {rest : Points}

lemma takeChars_append (cs : List Char) (text : Points) :
    takeChars (ofChars cs ++ text) = (cs ++ (takeChars text).1, (takeChars text).2) := by
  induction cs with
  | nil => rfl
  | cons c cs ih =>
      change ((c :: (takeChars (ofChars cs ++ text)).1), (takeChars (ofChars cs ++ text)).2) = _
      rw [ih]
      rfl

lemma takeChars_join (text : Points) :
    ofChars (takeChars text).1 ++ (takeChars text).2 = text := by
  induction text with
  | nil => rfl
  | cons point text ih =>
      cases point with
      | surrogate offset => rfl
      | char c =>
          change char c :: (ofChars (takeChars text).1 ++ (takeChars text).2) = _
          rw [ih]

/-- What may follow a value in a text. -/
def Stops (rest : Points) : Prop :=
  rest = [] ∨ ∃ c more, rest = char c :: more ∧ (c = ',' ∨ c = ']' ∨ c = '}')

lemma Stops.chars (h : Stops rest) : Json.Stops (takeChars rest).1 := by
  rcases h with rfl | ⟨c, more, rfl, hc⟩
  · exact Or.inl rfl
  · exact Or.inr ⟨c, _, rfl, hc⟩

lemma scanFraction_literal {fraction after : List Char} (hafter : Json.EndsDigits after)
    (hpoint : ∀ more, after ≠ '.' :: more)
    (h : fraction = [] ∨ ∃ digits, digits ≠ [] ∧ (∀ c ∈ digits, c.isDigit = true) ∧
      fraction = '.' :: digits) :
    Json.scanFraction (fraction ++ after) = (fraction, after) := by
  rcases h with rfl | ⟨digits, hne, hdigits, rfl⟩
  · rw [List.nil_append]
    unfold Json.scanFraction
    split
    · exact absurd rfl (hpoint _)
    · rfl
  · rw [List.cons_append, Json.scanFraction]
    simp [Json.takeDigits_append hdigits hafter, hne]

lemma scanExponent_literal {exponent after : List Char} (hafter : Json.Stops after)
    (h : exponent = [] ∨ ∃ sign digits, (sign = [] ∨ sign = ['-'] ∨ sign = ['+']) ∧
      digits ≠ [] ∧ (∀ c ∈ digits, c.isDigit = true) ∧ exponent = 'e' :: (sign ++ digits)) :
    Json.scanExponent (exponent ++ after) = (exponent, after) := by
  rcases h with rfl | ⟨sign, digits, hsign, hne, hdigits, rfl⟩
  · rcases hafter with rfl | ⟨c, more, rfl, rfl | rfl | rfl⟩ <;> rfl
  · have htake := Json.takeDigits_append hdigits hafter.endsDigits
    rcases hsign with rfl | rfl | rfl
    · obtain ⟨d, more, rfl⟩ := List.exists_cons_of_ne_nil hne
      have hd : ¬ (d = '-' ∨ d = '+') := by
        have hdigit := hdigits d (List.mem_cons_self)
        rintro (rfl | rfl) <;> cases hdigit
      simp only [List.nil_append, List.cons_append] at htake ⊢
      simp [Json.scanExponent, if_neg hd, htake]
    · simp [Json.scanExponent, htake, hne]
    · simp [Json.scanExponent, htake, hne]

/-- A literal is read whole. -/
lemma scanScalar_literal {cs after : List Char} (hafter : Json.Stops after)
    (h : FloatLiteral cs) :
    Json.scanScalar true (cs ++ after) = .ok (.float (String.ofList cs), after) := by
  obtain ⟨negative, n, fraction, exponent, rfl, hfraction, hexponent, hsome⟩ := h.parts
  have hend : Json.EndsDigits (exponent ++ after) ∧ ∀ more, exponent ++ after ≠ '.' :: more := by
    rcases hexponent with rfl | ⟨sign, digits, -, -, -, rfl⟩
    · refine ⟨hafter.endsDigits, fun more h => ?_⟩
      rcases hafter with rfl | ⟨c, more, rfl, rfl | rfl | rfl⟩ <;> cases h
    · exact ⟨fun c more h => by rw [← (List.cons.inj h).1]; rfl, fun more h => by cases h⟩
  have hwhole : Json.EndsDigits (fraction ++ (exponent ++ after)) := by
    rcases hfraction with rfl | ⟨digits, -, -, rfl⟩
    · exact hend.1
    · exact fun c more h => by rw [← (List.cons.inj h).1]; rfl
  have hnumber : Json.scanNumber true negative
      (Nat.toDigits 10 n ++ (fraction ++ (exponent ++ after))) =
        .ok (.float (String.ofList ((if negative then ['-'] else []) ++ (Nat.toDigits 10 n ++
          (fraction ++ exponent)))), after) := by
    rw [Json.scanNumber, Json.scanWhole_toDigits hwhole]
    simp only [scanFraction_literal hend.1 hend.2 hfraction,
      scanExponent_literal hafter hexponent]
    have hnot : (fraction.isEmpty && exponent.isEmpty) = false := by
      rcases hsome with h | h <;> simp [h]
    rw [hnot]
    simp [List.append_assoc]
  obtain ⟨c, more, hdigits, hdigit⟩ : ∃ c more, Nat.toDigits 10 n = c :: more ∧
      c.isDigit = true := by
    rcases Nat.eq_zero_or_pos n with rfl | hpos
    · exact ⟨'0', [], rfl, rfl⟩
    · obtain ⟨c, more, hdigits, -, hdigit⟩ := Json.toDigits_head hpos
      exact ⟨c, more, hdigits, hdigit⟩
  simp only [List.append_assoc] at hnumber ⊢
  rw [← hnumber]
  cases negative with
  | false =>
      change Json.scanScalar true (Nat.toDigits 10 n ++ _) = _
      exact Json.scanScalar_of_digit hdigit hdigits
  | true =>
      change Json.scanScalar true ('-' :: (Nat.toDigits 10 n ++ _)) = _
      rw [hdigits, List.cons_append, Json.scanScalar]
      intro more' heq
      rw [(List.cons.inj heq).1] at hdigit
      cases hdigit

lemma scanScalar_eq {cs : List Char} {value : JsonData φ} {scalar : Json} (hrest : Stops rest)
    (hscalar : ∀ after, Json.Stops after → Json.scanScalar true (cs ++ after) = .ok (scalar, after))
    (hvalue : ofScalar codec scalar = .ok value) :
    scanScalar codec (ofChars cs ++ rest) = .ok (value, rest) := by
  unfold scanScalar
  rw [takeChars_append]
  simp only [hscalar _ hrest.chars, hvalue]
  rw [Except.map, takeChars_join]

end Scalars

section Values

variable {φ : Type} (codec : FloatCodec φ)

mutual

/-- Finite floats, integers that are read back, and distinct keys in every dict. -/
def plain : JsonData φ → Bool
  | float x => codec.isFinite x
  | int n => Json.fitsInt n
  | arr items => plainItems items
  | obj members => decide (members.map (·.1)).Nodup && plainMembers members
  | _ => true

def plainItems : List (JsonData φ) → Bool
  | [] => true
  | item :: rest => plain item && plainItems rest

def plainMembers : List (Points × JsonData φ) → Bool
  | [] => true
  | (_, value) :: rest => plain value && plainMembers rest

end

variable {codec} {rest : Points} {fuel levels : ℕ}

/-- A text that starts neither with a blank nor with a closing bracket. -/
def Opens (text : Points) : Prop :=
  ∃ c more, text = char c :: more ∧ Json.isBlank c = false ∧ c ≠ ']' ∧ c ≠ '}'

lemma Opens.append {text : Points} (h : Opens text) (rest : Points) : Opens (text ++ rest) := by
  obtain ⟨c, more, rfl, hc⟩ := h
  exact ⟨c, more ++ rest, rfl, hc⟩

lemma skipBlanks_char {c : Char} (more : Points) (h : Json.isBlank c = false) :
    skipBlanks (char c :: more) = char c :: more := by
  rw [Points.skipBlanks, List.dropWhile_cons_of_neg (by simp [isBlankPoint, h])]

lemma Opens.skipBlanks {text : Points} (h : Opens text) : skipBlanks text = text := by
  obtain ⟨c, more, rfl, hc, -⟩ := h
  exact skipBlanks_char more hc

/-- After a separator and its blank. -/
lemma Opens.skipBlank {text : Points} (h : Opens text) :
    Points.skipBlanks (char ' ' :: text) = text := by
  rw [Points.skipBlanks, List.dropWhile_cons_of_pos rfl]
  exact h.skipBlanks

lemma opens_quote (text : Points) : Opens (quote text) :=
  ⟨'"', _, rfl, rfl, by decide, by decide⟩

lemma opens_of_chars {cs : List Char} (h : Json.Opens cs) : Opens (ofChars cs) := by
  obtain ⟨c, more, rfl, hc⟩ := h
  exact ⟨c, ofChars more, rfl, hc⟩

/-- What a scalar's text begins with. -/
def StartsScalar (cs : List Char) : Prop :=
  ∃ c more, cs = c :: more ∧ (c.isDigit = true ∨ c = '-')

lemma startsScalar_toDigits (n : ℕ) (more : List Char) :
    StartsScalar (Nat.toDigits 10 n ++ more) := by
  rcases Nat.eq_zero_or_pos n with rfl | hpos
  · exact ⟨'0', more, rfl, Or.inl rfl⟩
  · obtain ⟨c, digits, hdigits, -, hdigit⟩ := Json.toDigits_head hpos
    exact ⟨c, digits ++ more, by rw [hdigits]; rfl, Or.inl hdigit⟩

lemma startsScalar_renderInt (n : ℤ) : StartsScalar (Json.renderInt n) := by
  cases n with
  | ofNat n => simpa [Json.renderInt] using startsScalar_toDigits n []
  | negSucc n => exact ⟨'-', _, rfl, Or.inr rfl⟩

lemma startsScalar_literal {cs : List Char} (h : FloatLiteral cs) : StartsScalar cs := by
  obtain ⟨negative, n, fraction, exponent, rfl, -⟩ := h.parts
  cases negative with
  | false => exact startsScalar_toDigits n _
  | true => exact ⟨'-', _, rfl, Or.inr rfl⟩

lemma StartsScalar.opens {cs : List Char} (h : StartsScalar cs) : Opens (ofChars cs) := by
  obtain ⟨c, more, rfl, hdigit | rfl⟩ := h
  · exact opens_of_chars (Json.opens_of_digit hdigit)
  · exact ⟨'-', _, rfl, rfl, by decide, by decide⟩

lemma scanValue_char {c : Char} {more : Points} (hquote : c ≠ '"') (hbracket : c ≠ '[')
    (hbrace : c ≠ '{') :
    scanValue codec (fuel + 1) levels (char c :: more) = scanScalar codec (char c :: more) := by
  rw [scanValue]
  all_goals simp [hquote, hbracket, hbrace]

lemma StartsScalar.scanValue {cs : List Char} (h : StartsScalar cs) (more : Points) :
    scanValue codec (fuel + 1) levels (ofChars cs ++ more) =
      scanScalar codec (ofChars cs ++ more) := by
  obtain ⟨c, tail, rfl, hdigit | rfl⟩ := h
  · refine scanValue_char ?_ ?_ ?_ <;>
    · rintro rfl
      cases hdigit
  · exact scanValue_char (by decide) (by decide) (by decide)

lemma scanValue_quote (text : Points) :
    scanValue codec (fuel + 1) levels (quote text ++ rest) = .ok (str text, rest) := by
  rw [quote, List.cons_append, List.append_assoc, List.singleton_append, scanValue,
    scanString_quote]

lemma opens_render {value : JsonData φ} (h : plain codec value = true) :
    Opens (render codec value) := by
  cases value with
  | null => exact ⟨'n', _, rfl, rfl, by decide, by decide⟩
  | bool b => cases b <;> exact ⟨_, _, rfl, rfl, by decide, by decide⟩
  | int n => exact (startsScalar_renderInt n).opens
  | float x => exact (startsScalar_literal (codec.literal x h)).opens
  | str text => exact opens_quote text
  | arr items => exact ⟨'[', _, rfl, rfl, by decide, by decide⟩
  | obj members => exact ⟨'{', _, rfl, rfl, by decide, by decide⟩

lemma opens_renderItems {item : JsonData φ} (h : plain codec item = true)
    (more : List (JsonData φ)) : Opens (renderItems codec (item :: more)) := by
  cases more with
  | nil => exact opens_render h
  | cons next more => exact (opens_render h).append _

lemma opens_renderMembers (member : Points × JsonData φ) (more : List (Points × JsonData φ)) :
    Opens (renderMembers codec (member :: more)) := by
  obtain ⟨key, value⟩ := member
  cases more with
  | nil => exact (opens_quote key).append _
  | cons next more => exact (opens_quote key).append _

lemma stops_comma (rest : Points) : Stops (char ',' :: rest) := Or.inr ⟨_, _, rfl, Or.inl rfl⟩

/-- A scalar that is not a string. -/
lemma scanValue_int (hrest : Stops rest) {n : ℤ} (hn : Json.fitsInt n = true) :
    scanValue codec (fuel + 1) levels (ofChars (Json.renderInt n) ++ rest) = .ok (int n, rest) := by
  rw [(startsScalar_renderInt n).scanValue]
  exact scanScalar_eq hrest (fun _ hafter => Json.scanScalar_int hafter hn) rfl

lemma scanValue_float (hrest : Stops rest) {x : φ} (hx : codec.isFinite x = true) :
    scanValue codec (fuel + 1) levels (ofChars (codec.text x) ++ rest) = .ok (float x, rest) := by
  rw [(startsScalar_literal (codec.literal x hx)).scanValue]
  refine scanScalar_eq hrest (fun _ hafter => scanScalar_literal hafter (codec.literal x hx)) ?_
  rw [ofScalar, String.toList_ofList, codec.parse_text x hx]

lemma scanValue_word {word : List Char} {value : JsonData φ} {scalar : Json} (hrest : Stops rest)
    (hfirst : ∃ c more, word = c :: more ∧ c ≠ '"' ∧ c ≠ '[' ∧ c ≠ '{')
    (hscalar : ∀ after, Json.scanScalar true (word ++ after) = .ok (scalar, after))
    (hvalue : ofScalar codec scalar = .ok value) :
    scanValue codec (fuel + 1) levels (ofChars word ++ rest) = .ok (value, rest) := by
  obtain ⟨c, more, rfl, hquote, hbracket, hbrace⟩ := hfirst
  have hchar : scanValue codec (fuel + 1) levels (ofChars (c :: more) ++ rest) =
      scanScalar codec (ofChars (c :: more) ++ rest) := scanValue_char hquote hbracket hbrace
  rw [hchar]
  exact scanScalar_eq hrest (fun after _ => hscalar after) hvalue

/-- A key and its value, up to the character after the value. -/
lemma scanMembers_key {key : Points} {value : JsonData φ} {text : Points} (hopens : Opens text)
    (hvalue : scanValue codec fuel levels text = .ok (value, rest)) :
    scanMembers codec (fuel + 1) levels (quote key ++ (char ':' :: char ' ' :: text)) =
      match skipBlanks rest with
      | char '}' :: rest => .ok ([(key, value)], rest)
      | char ',' :: rest => do
          let (members, rest) ← scanMembers codec fuel levels (skipBlanks rest)
          return ((key, value) :: members, rest)
      | _ => .error .malformed := by
  rw [quote, List.cons_append, List.append_assoc, List.singleton_append, scanMembers,
    scanString_quote]
  simp only [skipBlanks_char _ (show Json.isBlank ':' = false from rfl), hopens.skipBlank, hvalue,
    bind, Except.bind]
  rfl

/-- A list of items between its brackets. -/
lemma scanValue_arr {items : List (JsonData φ)} {text : Points} (hopens : Opens text)
    (hitems : scanItems codec fuel levels text = .ok (items, rest)) :
    scanValue codec (fuel + 1) (levels + 1) (char '[' :: text) = .ok (arr items, rest) := by
  obtain ⟨c, more, rfl, hblank, hclose, -⟩ := hopens
  have hskip := skipBlanks_char more hblank
  rw [scanValue]
  split
  · rename_i rest' heq
    rw [hskip] at heq
    exact absurd (CodePoint.char.inj (List.cons.inj heq).1) hclose
  · rw [hskip, hitems]
    rfl

lemma scanValue_obj {members : List (Points × JsonData φ)} {text : Points} (hopens : Opens text)
    (hdistinct : (members.map (·.1)).Nodup)
    (hmembers : scanMembers codec fuel levels text = .ok (members, rest)) :
    scanValue codec (fuel + 1) (levels + 1) (char '{' :: text) = .ok (obj members, rest) := by
  obtain ⟨c, more, rfl, hblank, -, hclose⟩ := hopens
  have hskip := skipBlanks_char more hblank
  rw [scanValue]
  split
  · rename_i rest' heq
    rw [hskip] at heq
    exact absurd (CodePoint.char.inj (List.cons.inj heq).1) hclose
  · rw [hskip, hmembers]
    simp only [bind, Except.bind, Json.dictOf_eq_self hdistinct]
    rfl

mutual

theorem scanValue_render : ∀ (value : JsonData φ), plain codec value = true →
    ∀ (fuel levels : ℕ) (rest : Points), (render codec value).length ≤ fuel →
      nesting value ≤ levels → Stops rest →
        scanValue codec fuel levels (render codec value ++ rest) = .ok (value, rest)
  | null, _, fuel + 1, levels, rest, _, _, hrest =>
      scanValue_word hrest ⟨'n', _, rfl, by decide, by decide, by decide⟩ (fun _ => rfl) rfl
  | bool true, _, fuel + 1, levels, rest, _, _, hrest =>
      scanValue_word hrest ⟨'t', _, rfl, by decide, by decide, by decide⟩ (fun _ => rfl) rfl
  | bool false, _, fuel + 1, levels, rest, _, _, hrest =>
      scanValue_word hrest ⟨'f', _, rfl, by decide, by decide, by decide⟩ (fun _ => rfl) rfl
  | int n, hplain, fuel + 1, levels, rest, _, _, hrest => scanValue_int hrest hplain
  | float x, hplain, fuel + 1, levels, rest, _, _, hrest => scanValue_float hrest hplain
  | str text, _, fuel + 1, levels, rest, _, _, _ => scanValue_quote text
  | arr [], _, fuel + 1, levels + 1, rest, _, _, _ => rfl
  | arr (item :: more), hplain, fuel + 1, levels + 1, rest, hfuel, hlevels, _ => by
      rw [render, List.cons_append, List.append_assoc, List.singleton_append]
      rw [render, List.length_cons, List.length_append, List.length_singleton] at hfuel
      rw [nesting] at hlevels
      refine scanValue_arr ?_ (scanItems_render (item :: more) (by simp) hplain fuel levels rest
        (by omega) (by omega))
      rw [plain, plainItems, Bool.and_eq_true] at hplain
      exact (opens_renderItems hplain.1 more).append _
  | obj [], _, fuel + 1, levels + 1, rest, _, _, _ => rfl
  | obj (member :: more), hplain, fuel + 1, levels + 1, rest, hfuel, hlevels, _ => by
      rw [plain, Bool.and_eq_true, decide_eq_true_eq] at hplain
      rw [render, List.cons_append, List.append_assoc, List.singleton_append]
      rw [render, List.length_cons, List.length_append, List.length_singleton] at hfuel
      rw [nesting] at hlevels
      refine scanValue_obj ?_ hplain.1 (scanMembers_render (member :: more) (by simp)
        hplain.2 fuel levels rest (by omega) (by omega))
      exact (opens_renderMembers member more).append _
  | arr items, _, fuel + 1, 0, _, _, hlevels, _ => by
      rw [nesting] at hlevels
      omega
  | obj members, _, fuel + 1, 0, _, _, hlevels, _ => by
      rw [nesting] at hlevels
      omega
  | value, hplain, 0, _, _, hfuel, _, _ => by
      obtain ⟨c, more, h, -⟩ := opens_render hplain
      rw [h] at hfuel
      cases hfuel

theorem scanItems_render : ∀ (items : List (JsonData φ)), items ≠ [] →
    plainItems codec items = true → ∀ (fuel levels : ℕ) (rest : Points),
      (renderItems codec items).length < fuel → nestingItems items ≤ levels →
        scanItems codec fuel levels (renderItems codec items ++ char ']' :: rest) =
          .ok (items, rest)
  | [], h, _, _, _, _, _, _ => absurd rfl h
  | [item], _, hplain, fuel + 1, levels, rest, hfuel, hlevels => by
      rw [plainItems, Bool.and_eq_true] at hplain
      rw [renderItems] at hfuel ⊢
      rw [nestingItems, max_le_iff] at hlevels
      rw [scanItems, scanValue_render item hplain.1 fuel levels (char ']' :: rest) (by omega)
        hlevels.1 (Or.inr ⟨_, _, rfl, Or.inr (Or.inl rfl)⟩)]
      rfl
  | item :: next :: more, _, hplain, fuel + 1, levels, rest, hfuel, hlevels => by
      rw [plainItems, Bool.and_eq_true] at hplain
      rw [renderItems, List.append_assoc, List.cons_append, List.cons_append]
      rw [renderItems, List.length_append, List.length_cons, List.length_cons] at hfuel
      rw [nestingItems, max_le_iff] at hlevels
      rw [scanItems, scanValue_render item hplain.1 fuel levels _ (by omega) hlevels.1
        (stops_comma _)]
      have hrest := scanItems_render (next :: more) (by simp) hplain.2 fuel levels rest (by omega)
        hlevels.2
      have hopens : Opens (renderItems codec (next :: more) ++ char ']' :: rest) := by
        rw [plainItems, Bool.and_eq_true] at hplain
        exact (opens_renderItems hplain.2.1 more).append _
      simp only [bind, Except.bind, skipBlanks_char _ (show Json.isBlank ',' = false from rfl),
        hopens.skipBlank, hrest]
      rfl

theorem scanMembers_render : ∀ (members : List (Points × JsonData φ)), members ≠ [] →
    plainMembers codec members = true → ∀ (fuel levels : ℕ) (rest : Points),
      (renderMembers codec members).length < fuel → nestingMembers members ≤ levels →
        scanMembers codec fuel levels (renderMembers codec members ++ char '}' :: rest) =
          .ok (members, rest)
  | [], h, _, _, _, _, _, _ => absurd rfl h
  | [(key, value)], _, hplain, fuel + 1, levels, rest, hfuel, hlevels => by
      rw [plainMembers, Bool.and_eq_true] at hplain
      rw [renderMembers, List.append_assoc, List.cons_append, List.cons_append]
      rw [renderMembers, List.length_append, List.length_cons, List.length_cons] at hfuel
      rw [nestingMembers, max_le_iff] at hlevels
      rw [scanMembers_key ((opens_render hplain.1).append _) (scanValue_render value hplain.1
        fuel levels (char '}' :: rest) (by omega) hlevels.1
        (Or.inr ⟨_, _, rfl, Or.inr (Or.inr rfl)⟩))]
      rfl
  | (key, value) :: next :: more, _, hplain, fuel + 1, levels, rest, hfuel, hlevels => by
      rw [plainMembers, Bool.and_eq_true] at hplain
      rw [renderMembers, List.append_assoc, List.cons_append, List.cons_append, List.append_assoc,
        List.cons_append, List.cons_append]
      rw [renderMembers, List.length_append, List.length_cons, List.length_cons,
        List.length_append, List.length_cons, List.length_cons] at hfuel
      rw [nestingMembers, max_le_iff] at hlevels
      have hrest := scanMembers_render (next :: more) (by simp) hplain.2 fuel levels rest
        (by omega) hlevels.2
      have hopens := (@opens_renderMembers φ codec next more).append (char '}' :: rest)
      rw [scanMembers_key ((opens_render hplain.1).append _) (scanValue_render value hplain.1
        fuel levels _ (by omega) hlevels.1 (stops_comma _))]
      simp only [bind, Except.bind, skipBlanks_char _ (show Json.isBlank ',' = false from rfl),
        hopens.skipBlank, hrest]
      rfl

end

/-- A whole text is read back. -/
theorem loads_render {value : JsonData φ} (hplain : plain codec value = true)
    (hlevels : nesting value ≤ levels) : loads codec levels (render codec value) = .ok value := by
  have hscan := scanValue_render value hplain ((render codec value).length + 1) levels []
    (by omega) hlevels (Or.inl rfl)
  rw [List.append_nil] at hscan
  rw [loads, (opens_render hplain).skipBlanks, hscan]
  rfl

section Written

mutual

/-- Finite floats, and distinct keys in every dict. -/
def valid (codec : FloatCodec φ) : JsonData φ → Bool
  | float x => codec.isFinite x
  | arr items => validItems codec items
  | obj members => decide (members.map (·.1)).Nodup && validMembers codec members
  | _ => true

def validItems (codec : FloatCodec φ) : List (JsonData φ) → Bool
  | [] => true
  | item :: rest => valid codec item && validItems codec rest

def validMembers (codec : FloatCodec φ) : List (Points × JsonData φ) → Bool
  | [] => true
  | (_, value) :: rest => valid codec value && validMembers codec rest

end

mutual

/-- A valid value that is written is plain, and nested no deeper than the writer could go. -/
theorem plain_of_refused {allowNan : Bool} : ∀ (value : JsonData φ) (levels : ℕ),
    refused codec allowNan levels value = none → valid codec value = true →
      plain codec value = true ∧ nesting value ≤ levels
  | null, _, _, _ => ⟨rfl, Nat.zero_le _⟩
  | bool _, _, _, _ => ⟨rfl, Nat.zero_le _⟩
  | str _, _, _, _ => ⟨rfl, Nat.zero_le _⟩
  | float x, _, _, hvalid => ⟨hvalid, Nat.zero_le _⟩
  | int n, _, hwritten, _ => by
      refine ⟨?_, Nat.zero_le _⟩
      by_contra hfits
      rw [plain] at hfits
      rw [refused, if_neg hfits] at hwritten
      cases hwritten
  | arr items, 0, hwritten, _ => by cases hwritten
  | obj members, 0, hwritten, _ => by cases hwritten
  | arr items, levels + 1, hwritten, hvalid => by
      obtain ⟨hplain, hnesting⟩ := plainItems_of_refused items levels hwritten hvalid
      exact ⟨hplain, Nat.succ_le_succ hnesting⟩
  | obj members, levels + 1, hwritten, hvalid => by
      rw [valid, Bool.and_eq_true] at hvalid
      obtain ⟨hplain, hnesting⟩ := plainMembers_of_refused members levels hwritten hvalid.2
      refine ⟨?_, Nat.succ_le_succ hnesting⟩
      rw [plain, hvalid.1, hplain, Bool.and_self]

theorem plainItems_of_refused {allowNan : Bool} : ∀ (items : List (JsonData φ)) (levels : ℕ),
    refusedItems codec allowNan levels items = none → validItems codec items = true →
      plainItems codec items = true ∧ nestingItems items ≤ levels
  | [], _, _, _ => ⟨rfl, Nat.zero_le _⟩
  | item :: rest, levels, hwritten, hvalid => by
      rw [refusedItems, Option.or_eq_none_iff] at hwritten
      rw [validItems, Bool.and_eq_true] at hvalid
      obtain ⟨hitem, hdepth⟩ := plain_of_refused item levels hwritten.1 hvalid.1
      obtain ⟨hrest, hdepths⟩ := plainItems_of_refused rest levels hwritten.2 hvalid.2
      refine ⟨?_, max_le hdepth hdepths⟩
      rw [plainItems, hitem, hrest, Bool.and_self]

theorem plainMembers_of_refused {allowNan : Bool} : ∀ (members : List (Points × JsonData φ))
    (levels : ℕ), refusedMembers codec allowNan levels members = none →
      validMembers codec members = true →
        plainMembers codec members = true ∧ nestingMembers members ≤ levels
  | [], _, _, _ => ⟨rfl, Nat.zero_le _⟩
  | (_, value) :: rest, levels, hwritten, hvalid => by
      rw [refusedMembers, Option.or_eq_none_iff] at hwritten
      rw [validMembers, Bool.and_eq_true] at hvalid
      obtain ⟨hvalue, hdepth⟩ := plain_of_refused value levels hwritten.1 hvalid.1
      obtain ⟨hrest, hdepths⟩ := plainMembers_of_refused rest levels hwritten.2 hvalid.2
      refine ⟨?_, max_le hdepth hdepths⟩
      rw [plainMembers, hvalue, hrest, Bool.and_self]

end

lemma refusedItems_eq_none {allowNan : Bool} {items : List (JsonData φ)} :
    refusedItems codec allowNan levels items = none ↔
      ∀ item ∈ items, refused codec allowNan levels item = none := by
  induction items with
  | nil => simp [refusedItems]
  | cons item rest ih => rw [refusedItems, Option.or_eq_none_iff, ih, List.forall_mem_cons]

lemma refusedMembers_eq_none {allowNan : Bool} {members : List (Points × JsonData φ)} :
    refusedMembers codec allowNan levels members = none ↔
      ∀ member ∈ members, refused codec allowNan levels member.2 = none := by
  induction members with
  | nil => simp [refusedMembers]
  | cons member rest ih =>
      rw [refusedMembers, Option.or_eq_none_iff, ih, List.forall_mem_cons]

lemma plainItems_eq_true {items : List (JsonData φ)} :
    plainItems codec items = true ↔ ∀ item ∈ items, plain codec item = true := by
  induction items with
  | nil => simp [plainItems]
  | cons item rest ih => rw [plainItems, Bool.and_eq_true, ih, List.forall_mem_cons]

lemma plainMembers_eq_true {members : List (Points × JsonData φ)} :
    plainMembers codec members = true ↔ ∀ member ∈ members, plain codec member.2 = true := by
  induction members with
  | nil => simp [plainMembers]
  | cons member rest ih => rw [plainMembers, Bool.and_eq_true, ih, List.forall_mem_cons]

lemma nestingItems_le {items : List (JsonData φ)} :
    nestingItems items ≤ levels ↔ ∀ item ∈ items, nesting item ≤ levels := by
  induction items with
  | nil => simp [nestingItems]
  | cons item rest ih => rw [nestingItems, max_le_iff, ih, List.forall_mem_cons]

lemma nestingMembers_le {members : List (Points × JsonData φ)} :
    nestingMembers members ≤ levels ↔ ∀ member ∈ members, nesting member.2 ≤ levels := by
  induction members with
  | nil => simp [nestingMembers]
  | cons member rest ih => rw [nestingMembers, max_le_iff, ih, List.forall_mem_cons]

/-- A plain value is written where the writer can go as deep as it is nested. -/
theorem refused_of_plain {allowNan : Bool} {value : JsonData φ} (hplain : plain codec value = true)
    (hlevels : nesting value ≤ levels) : refused codec allowNan levels value = none := by
  induction value using JsonData.induction generalizing levels with
  | null | bool | str => rfl
  | int n =>
      rw [plain] at hplain
      rw [refused, if_pos hplain]
  | float x =>
      rw [plain] at hplain
      rw [refused, hplain]
      rfl
  | arr items ih =>
      rw [plain, plainItems_eq_true] at hplain
      cases levels with
      | zero => simp [nesting] at hlevels
      | succ levels =>
          rw [nesting, Nat.succ_le_succ_iff, nestingItems_le] at hlevels
          rw [refused, refusedItems_eq_none]
          exact fun item hitem => ih item hitem (hplain item hitem) (hlevels item hitem)
  | obj members ih =>
      rw [plain, Bool.and_eq_true, plainMembers_eq_true] at hplain
      cases levels with
      | zero => simp [nesting] at hlevels
      | succ levels =>
          rw [nesting, Nat.succ_le_succ_iff, nestingMembers_le] at hlevels
          rw [refused, refusedMembers_eq_none]
          exact fun member hmember =>
            ih member hmember (hplain.2 member hmember) (hlevels member hmember)

lemma renderItems_hasSurrogate {items : List (JsonData φ)}
    (h : ∀ item ∈ items, (render codec item).hasSurrogate = item.hasSurrogate) :
    (renderItems codec items).hasSurrogate = itemsHaveSurrogate items := by
  induction items with
  | nil => rfl
  | cons item rest ih =>
      rw [List.forall_mem_cons] at h
      have hrest := ih h.2
      cases rest with
      | nil => rw [renderItems, itemsHaveSurrogate, h.1, itemsHaveSurrogate, Bool.or_false]
      | cons next rest =>
          rw [renderItems, itemsHaveSurrogate, ← hrest]
          simp [h.1, CodePoint.isSurrogate]

lemma renderMembers_hasSurrogate {members : List (Points × JsonData φ)}
    (h : ∀ member ∈ members, (render codec member.2).hasSurrogate = member.2.hasSurrogate) :
    (renderMembers codec members).hasSurrogate = membersHaveSurrogate members := by
  induction members with
  | nil => rfl
  | cons member rest ih =>
      obtain ⟨key, value⟩ := member
      rw [List.forall_mem_cons] at h
      have hrest := ih h.2
      cases rest with
      | nil =>
          simp [renderMembers, membersHaveSurrogate, h.1, Points.quote_hasSurrogate,
            CodePoint.isSurrogate]
      | cons next rest =>
          rw [renderMembers, membersHaveSurrogate, ← hrest]
          simp [h.1, Points.quote_hasSurrogate, CodePoint.isSurrogate, Bool.or_assoc]

/-- The text of a value holds a surrogate exactly where the value does. -/
theorem render_hasSurrogate (value : JsonData φ) :
    (render codec value).hasSurrogate = value.hasSurrogate := by
  induction value using JsonData.induction with
  | null => exact Points.hasSurrogate_ofString _
  | bool b => cases b <;> exact Points.hasSurrogate_ofString _
  | int n => exact Points.hasSurrogate_ofChars _
  | float x => exact Points.hasSurrogate_ofChars _
  | str text => exact Points.quote_hasSurrogate text
  | arr items ih =>
      simp [render, hasSurrogate, renderItems_hasSurrogate ih, CodePoint.isSurrogate]
  | obj members ih =>
      simp [render, hasSurrogate, renderMembers_hasSurrogate ih, CodePoint.isSurrogate]

/-- A valid value is written exactly where its integers fit and the writer can go as deep as it
is nested. -/
theorem dumps_eq_ok {allowNan : Bool} {value : JsonData φ} {text : Points}
    (hvalid : valid codec value = true) :
    dumps codec allowNan levels value = .ok text ↔
      (plain codec value = true ∧ nesting value ≤ levels) ∧ text = render codec value := by
  unfold dumps
  cases hrefused : refused codec allowNan levels value with
  | none => simp [plain_of_refused value levels hrefused hvalid, eq_comm]
  | some e =>
      have hfails : ¬ (plain codec value = true ∧ nesting value ≤ levels) := by
        intro h
        rw [refused_of_plain h.1 h.2] at hrefused
        cases hrefused
      simp [hfails]

/-- A valid value that is written is read back where the reader can go as deep as it is nested. -/
theorem loads_dumps {allowNan : Bool} {value : JsonData φ} {text : Points} {written : ℕ}
    (hvalid : valid codec value = true) (h : dumps codec allowNan written value = .ok text)
    (hlevels : nesting value ≤ levels) : loads codec levels text = .ok value := by
  unfold dumps at h
  split at h
  · cases h
  · rename_i hwritten
    cases h
    exact loads_render (plain_of_refused value written hwritten hvalid).1 hlevels

end Written

end Values

end Imece.Lib.JsonData
