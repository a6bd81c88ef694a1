import Imece.Lib.JsonText
import Imece.Lib.Transaction

/-!
# Values and their JSON texts

The Python objects that reach the tool contract, and `json.dumps` and `json.loads` on
them. A finite float is held as its `repr`.
-/
namespace Imece.ToolRuntime

open Lib Lib.CodePoint Lib.Points

/-- A Python object as the tool contract sees it. `object` is any value that is none of
the JSON types. -/
inductive Value where
  | none
  | bool (b : Bool)
  | int (n : ℤ)
  | float (repr : String)
  | nonFinite (repr : String)
  | str (text : Points)
  | list (items : List Value)
  | dict (entries : List (Value × Value))
  | object (typeName : String)

/-! ## Writing -/

def tooManyDigits : String :=
  "Exceeds the limit (4300 digits) for integer string conversion; " ++
    "use sys.set_int_max_str_digits() to increase the limit"

def dumpsInt (n : ℤ) : Except String Points :=
  if Json.maxIntDigits < (Nat.toDigits 10 n.natAbs).length then .error tooManyDigits
  else .ok (Points.ofChars (Json.renderInt n))

def dumpsMembers (members : List (Points × Points)) : Points :=
  let sorted := members.insertionSort fun a b => a.1.le b.1
  char '{' :: ([char ','].intercalate
    (sorted.map fun member => quote member.1 ++ char ':' :: member.2) ++ [char '}'])

mutual

/-- `json.dumps(value, sort_keys=True, separators=(",", ":"), ensure_ascii=False,
allow_nan=False)`; the texts of its errors. -/
def dumps : Value → Except String Points
  | .none => .ok (Points.ofString "null")
  | .bool true => .ok (Points.ofString "true")
  | .bool false => .ok (Points.ofString "false")
  | .int n => dumpsInt n
  | .float repr => .ok (Points.ofString repr)
  | .nonFinite repr => .error s!"Out of range float values are not JSON compliant: {repr}"
  | .str text => .ok (quote text)
  | .list items => do
      let texts ← dumpsItems items
      return char '[' :: ([char ','].intercalate texts ++ [char ']'])
  | .dict entries => do
      let members ← dumpsEntries entries
      return dumpsMembers members
  | .object typeName => .error s!"Object of type {typeName} is not JSON serializable"

def dumpsItems : List Value → Except String (List Points)
  | [] => .ok []
  | item :: rest => do
      let text ← dumps item
      return text :: (← dumpsItems rest)

/-- The members by key; the keys are strings, as `_validate_json_value` has checked. -/
def dumpsEntries : List (Value × Value) → Except String (List (Points × Points))
  | [] => .ok []
  | (.str key, value) :: rest => do
      let text ← dumps value
      return (key, text) :: (← dumpsEntries rest)
  | _ :: _ => .error "keys must be str, int, float, bool or None"

end

/-! ## Reading -/

/-- A value that is no string, list or dict. The constants outside the grammar are read. -/
def scanScalar (text : Points) : Option (Value × Points) :=
  let (cs, after) := takeChars text
  match Json.scanScalar true cs with
  | .ok (.null, rest) => some (.none, Points.ofChars rest ++ after)
  | .ok (.bool b, rest) => some (.bool b, Points.ofChars rest ++ after)
  | .ok (.int n, rest) => some (.int n, Points.ofChars rest ++ after)
  | .ok (.float literal, rest) => some (.float literal, Points.ofChars rest ++ after)
  | .error (.constant name) => some (.nonFinite name, text.drop name.length)
  | _ => none

/-- The dict that pairs build: the last value of each key, at the key's first place. -/
def dictOf (pairs : List (Points × Value)) : List (Points × Value) :=
  let set (dict : List (Points × Value)) (pair : Points × Value) :=
    if pair.1 ∈ dict.map (·.1) then dict.map fun other => if other.1 = pair.1 then pair else other
    else dict ++ [pair]
  pairs.foldl set []

def ofMembers (members : List (Points × Value)) : Value :=
  .dict ((dictOf members).map fun member => (.str member.1, member.2))

mutual

/-- The value at the head of a text. Each call spends fuel; the length of the text is
enough. -/
def scanValue : ℕ → Points → Option (Value × Points)
  | 0, _ => none
  | _ + 1, char '"' :: rest => do
      let (text, rest) ← scanString rest
      return (.str text, rest)
  | fuel + 1, char '[' :: rest =>
      match skipBlanks rest with
      | char ']' :: rest => some (.list [], rest)
      | rest => do
          let (items, rest) ← scanItems fuel rest
          return (.list items, rest)
  | fuel + 1, char '{' :: rest =>
      match skipBlanks rest with
      | char '}' :: rest => some (.dict [], rest)
      | rest => do
          let (members, rest) ← scanMembers fuel rest
          return (ofMembers members, rest)
  | _ + 1, text => scanScalar text

/-- Items up to the closing bracket; there is at least one. -/
def scanItems : ℕ → Points → Option (List Value × Points)
  | 0, _ => none
  | fuel + 1, text => do
      let (item, rest) ← scanValue fuel text
      match skipBlanks rest with
      | char ']' :: rest => return ([item], rest)
      | char ',' :: rest =>
          let (items, rest) ← scanItems fuel (skipBlanks rest)
          return (item :: items, rest)
      | _ => none

/-- Members up to the closing brace; there is at least one. -/
def scanMembers : ℕ → Points → Option (List (Points × Value) × Points)
  | fuel + 1, char '"' :: text => do
      let (key, rest) ← scanString text
      match skipBlanks rest with
      | char ':' :: rest =>
          let (value, rest) ← scanValue fuel (skipBlanks rest)
          match skipBlanks rest with
          | char '}' :: rest => return ([(key, value)], rest)
          | char ',' :: rest =>
              let (members, rest) ← scanMembers fuel (skipBlanks rest)
              return ((key, value) :: members, rest)
          | _ => none
      | _ => none
  | _, _ => none

end

/-- `json.loads`; `none` is one of Python's `ValueError`s. -/
def loads (text : Points) : Option Value := do
  let (value, rest) ← scanValue (text.length + 1) (skipBlanks text)
  if (skipBlanks rest).isEmpty then return value else none

/-! ## Surrogates -/

mutual

/-- Some string or key of a value holds a surrogate. -/
def Value.hasSurrogate : Value → Bool
  | .str text => text.hasSurrogate
  | .list items => itemsHaveSurrogate items
  | .dict entries => entriesHaveSurrogate entries
  | _ => false

def itemsHaveSurrogate : List Value → Bool
  | [] => false
  | item :: rest => item.hasSurrogate || itemsHaveSurrogate rest

def entriesHaveSurrogate : List (Value × Value) → Bool
  | [] => false
  | (key, value) :: rest =>
      key.hasSurrogate || value.hasSurrogate || entriesHaveSurrogate rest

end

lemma hasSurrogate_intercalate (texts : List Points) :
    Points.hasSurrogate ([char ','].intercalate texts) = texts.any Points.hasSurrogate := by
  induction texts with
  | nil => rfl
  | cons text rest ih =>
      cases rest with
      | nil => simp
      | cons next rest =>
          rw [List.intercalate_cons_cons, Points.hasSurrogate_append, Points.hasSurrogate_append,
            ih]
          simp [isSurrogate]

lemma dumpsMembers_hasSurrogate (members : List (Points × Points)) :
    (dumpsMembers members).hasSurrogate =
      members.any fun member => member.1.hasSurrogate || member.2.hasSurrogate := by
  have hsorted := List.Perm.any_eq
    (List.perm_insertionSort (fun a b : Points × Points => a.1.le b.1) members)
    (f := fun member => member.1.hasSurrogate || member.2.hasSurrogate)
  rw [← hsorted]
  simp [dumpsMembers, hasSurrogate_intercalate, List.any_map, Function.comp_def,
    quote_hasSurrogate, isSurrogate]

mutual

/-- The text of a value holds a surrogate exactly where the value does. -/
theorem dumps_hasSurrogate {value : Value} {raw : Points} (h : dumps value = .ok raw) :
    raw.hasSurrogate = value.hasSurrogate := by
  cases value with
  | none =>
      cases h
      simp [Value.hasSurrogate]
  | bool b =>
      cases b <;> cases h <;> simp [Value.hasSurrogate]
  | int n =>
      rw [dumps, dumpsInt] at h
      split at h
      · cases h
      · cases h
        simp [Value.hasSurrogate]
  | float repr =>
      cases h
      simp [Value.hasSurrogate]
  | nonFinite repr => cases h
  | str text =>
      cases h
      exact quote_hasSurrogate text
  | list items =>
      rw [dumps, except_bind_eq_ok] at h
      obtain ⟨texts, htexts, hraw⟩ := h
      cases hraw
      rw [Value.hasSurrogate, ← dumpsItems_haveSurrogate htexts]
      simp [hasSurrogate_intercalate, isSurrogate]
  | dict entries =>
      rw [dumps, except_bind_eq_ok] at h
      obtain ⟨members, hmembers, hraw⟩ := h
      cases hraw
      rw [Value.hasSurrogate, ← dumpsEntries_haveSurrogate hmembers]
      exact dumpsMembers_hasSurrogate members
  | object typeName => cases h

theorem dumpsItems_haveSurrogate {items : List Value} {texts : List Points}
    (h : dumpsItems items = .ok texts) :
    texts.any Points.hasSurrogate = itemsHaveSurrogate items := by
  cases items with
  | nil =>
      cases h
      rfl
  | cons item rest =>
      rw [dumpsItems, except_bind_eq_ok] at h
      obtain ⟨text, htext, h⟩ := h
      rw [except_bind_eq_ok] at h
      obtain ⟨others, hothers, h⟩ := h
      cases h
      rw [List.any_cons, itemsHaveSurrogate, dumps_hasSurrogate htext,
        dumpsItems_haveSurrogate hothers]

theorem dumpsEntries_haveSurrogate {entries : List (Value × Value)}
    {members : List (Points × Points)} (h : dumpsEntries entries = .ok members) :
    (members.any fun member => member.1.hasSurrogate || member.2.hasSurrogate) =
      entriesHaveSurrogate entries := by
  cases entries with
  | nil =>
      cases h
      rfl
  | cons entry rest =>
      obtain ⟨key, value⟩ := entry
      cases key with
      | str key =>
          rw [dumpsEntries, except_bind_eq_ok] at h
          obtain ⟨text, htext, h⟩ := h
          rw [except_bind_eq_ok] at h
          obtain ⟨others, hothers, h⟩ := h
          cases h
          rw [List.any_cons, entriesHaveSurrogate, dumps_hasSurrogate htext,
            dumpsEntries_haveSurrogate hothers, Value.hasSurrogate]
      | _ => cases h

end

end Imece.ToolRuntime
