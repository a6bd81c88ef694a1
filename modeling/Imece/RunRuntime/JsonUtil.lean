import Mathlib.Data.Rat.Floor
import Mathlib.Data.Int.Log

/-!
# Canonical JSON values

The dynamic values that reach the run store, and the strict JSON contract every
persisted dictionary satisfies. A float is a binary64 number: a finite rational,
an infinity or a NaN. The sign of zero is not represented; nothing compares it.
-/
namespace Imece.RunRuntime

inductive PyFloat where
  | finite (value : ℚ)
  | inf (negative : Bool)
  | nan
deriving DecidableEq, Repr

namespace PyFloat

/-- Round half to even, as the IEEE default rounding mode does. -/
def roundHalfEven (q : ℚ) : ℤ :=
  let low := ⌊q⌋
  let rest := q - low
  if rest < 1 / 2 then low
  else if 1 / 2 < rest then low + 1
  else if low % 2 = 0 then low else low + 1

/-- The binary64 number nearest to `q`; values past the largest finite one
become infinite. Subnormals share the exponent `-1074`. -/
def round (q : ℚ) : PyFloat :=
  if q = 0 then .finite 0
  else
    let ulp : ℚ := (2 : ℚ) ^ (max (Int.log 2 |q| - 52) (-1074))
    let rounded := roundHalfEven (q / ulp) * ulp
    if (2 : ℚ) ^ (1024 : ℤ) ≤ |rounded| then .inf (rounded < 0) else .finite rounded

def isFinite : PyFloat → Bool
  | .finite _ => true
  | _ => false

def add : PyFloat → PyFloat → PyFloat
  | .finite x, .finite y => round (x + y)
  | .nan, _ => .nan
  | _, .nan => .nan
  | .inf x, .inf y => if x = y then .inf x else .nan
  | .inf x, .finite _ => .inf x
  | .finite _, .inf y => .inf y

/-- `float(n)`: `none` is Python's `OverflowError`. -/
def ofInt (n : ℤ) : Option PyFloat :=
  match round n with
  | .finite x => some (.finite x)
  | _ => none

end PyFloat

/-- A Python object as the store's validators see it. `object` is any value that
is none of the JSON types (a tuple, bytes, a path, a datetime). -/
inductive PyValue where
  | none
  | bool (b : Bool)
  | int (n : ℤ)
  | float (x : PyFloat)
  | str (s : String)
  | list (items : List PyValue)
  | dict (entries : List (PyValue × PyValue))
  | object (typeName : String)
deriving Repr

/-- `value == text` for a dynamic value and a string. -/
def PyValue.eqStr : PyValue → String → Bool
  | .str s, text => s == text
  | _, _ => false

@[simp] theorem PyValue.eqStr_iff {value : PyValue} {text : String} :
    value.eqStr text = true ↔ value = .str text := by
  cases value <;> simp [PyValue.eqStr]

/-- What `validate_json_value` and `validate_json_dict` reject. -/
inductive JsonError where
  | notFinite (path : String)
  | keyNotString (path : String)
  | notJson (path : String)
  | notDict (field : String)
deriving DecidableEq, Repr

mutual

/-- Recursive check of the JSON contract; errors carry the path of the value. -/
def validateJsonValue (path : String) : PyValue → Except JsonError Unit
  | .none | .bool _ | .int _ | .str _ => .ok ()
  | .float (.finite _) => .ok ()
  | .float _ => .error (.notFinite path)
  | .dict entries => validateJsonEntries path entries
  | .list items => validateJsonItems path 0 items
  | .object _ => .error (.notJson path)

def validateJsonItems (path : String) (index : ℕ) : List PyValue → Except JsonError Unit
  | [] => .ok ()
  | item :: rest =>
      match validateJsonValue (path ++ "[" ++ toString index ++ "]") item with
      | .error e => .error e
      | .ok () => validateJsonItems path (index + 1) rest

def validateJsonEntries (path : String) :
    List (PyValue × PyValue) → Except JsonError Unit
  | [] => .ok ()
  | (.str key, item) :: rest =>
      match validateJsonValue (path ++ "." ++ key) item with
      | .error e => .error e
      | .ok () => validateJsonEntries path rest
  | (_, _) :: _ => .error (.keyNotString path)

end

mutual

/-- The JSON contract as a predicate, without the error paths. -/
def isJson : PyValue → Bool
  | .none | .bool _ | .int _ | .str _ => true
  | .float x => x.isFinite
  | .dict entries => isJsonEntries entries
  | .list items => isJsonItems items
  | .object _ => false

def isJsonItems : List PyValue → Bool
  | [] => true
  | item :: rest => isJson item && isJsonItems rest

def isJsonEntries : List (PyValue × PyValue) → Bool
  | [] => true
  | (.str _, item) :: rest => isJson item && isJsonEntries rest
  | (_, _) :: _ => false

end

mutual

/-- The validator accepts exactly the canonical values, whatever the path. -/
theorem validateJsonValue_ok (path : String) (value : PyValue) :
    validateJsonValue path value = .ok () ↔ isJson value = true := by
  cases value with
  | float x => cases x <;> simp [validateJsonValue, isJson, PyFloat.isFinite]
  | list items =>
      simp only [validateJsonValue, isJson]
      exact validateJsonItems_ok path 0 items
  | dict entries =>
      simp only [validateJsonValue, isJson]
      exact validateJsonEntries_ok path entries
  | _ => simp [validateJsonValue, isJson]

theorem validateJsonItems_ok (path : String) (index : ℕ) (items : List PyValue) :
    validateJsonItems path index items = .ok () ↔ isJsonItems items = true := by
  cases items with
  | nil => simp [validateJsonItems, isJsonItems]
  | cons item rest =>
      have hitem := validateJsonValue_ok (path ++ "[" ++ toString index ++ "]") item
      have hrest := validateJsonItems_ok path (index + 1) rest
      simp only [validateJsonItems, isJsonItems, Bool.and_eq_true, ← hitem, ← hrest]
      split <;> simp_all

theorem validateJsonEntries_ok (path : String) (entries : List (PyValue × PyValue)) :
    validateJsonEntries path entries = .ok () ↔ isJsonEntries entries = true := by
  cases entries with
  | nil => simp [validateJsonEntries, isJsonEntries]
  | cons entry rest =>
      obtain ⟨key, item⟩ := entry
      cases key with
      | str key =>
          have hitem := validateJsonValue_ok (path ++ "." ++ key) item
          have hrest := validateJsonEntries_ok path rest
          simp only [validateJsonEntries, isJsonEntries, Bool.and_eq_true, ← hitem, ← hrest]
          split <;> simp_all
      | _ => simp [validateJsonEntries, isJsonEntries]

end

/-- A dictionary that passed `validate_json_dict`. Key order is not observable:
the store writes keys sorted. -/
structure JsonDict where
  entries : List (PyValue × PyValue)
  canonical : isJsonEntries entries = true

namespace JsonDict

/-- `payload.get(key)`: a missing key reads as `None`. -/
def get (d : JsonDict) (key : String) (default : PyValue := .none) : PyValue :=
  go d.entries
where
  go : List (PyValue × PyValue) → PyValue
    | [] => default
    | (.str k, v) :: rest => if k = key then v else go rest
    | _ :: rest => go rest

def empty : JsonDict := ⟨[], rfl⟩

end JsonDict

/-- `canonical_dict_copy`: validate, then copy. Copying is the identity here,
since Lean values are never mutated. -/
def canonicalDictCopy (value : PyValue) (field : String) : Except JsonError JsonDict :=
  match value with
  | .dict entries =>
      match h : validateJsonEntries field entries with
      | .error e => .error e
      | .ok () => .ok ⟨entries, (validateJsonEntries_ok field entries).mp h⟩
  | _ => .error (.notDict field)

def canonicalOptionalDictCopy (value : Option PyValue) (field : String) :
    Except JsonError (Option JsonDict) :=
  match value with
  | none => .ok none
  | some v => (canonicalDictCopy v field).map some

end Imece.RunRuntime
