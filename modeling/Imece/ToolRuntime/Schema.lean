import Imece.ToolRuntime.Json

/-!
# Strict JSON and JSON Schema

The typed errors of the tool runtime, the strict JSON contract of its values, and the
validation of a call's arguments.
-/
namespace Imece.ToolRuntime

open Lib Lib.Points

/-- The subclasses of `ToolRuntimeError`. -/
inductive ToolErrorKind where
  | registration
  | notFound
  | inputValidation
  | policy
  | denied
  | approvalRequired
  | approvalMismatch
  | execution
  | preparedCall
  | callConsumed
  | observation
deriving DecidableEq, Repr

/-- What a call raises: one of the typed errors, or any other exception by the name of
its class. -/
inductive Raised where
  | tool (kind : ToolErrorKind) (message : Points)
  | other (className : String)
deriving DecidableEq, Repr

abbrev Raised.text (kind : ToolErrorKind) (message : String) : Raised :=
  .tool kind (ofString message)

/-- The exception is none of the runtime's own. -/
def Raised.untyped : Raised → Bool
  | .tool .. => false
  | .other _ => true

mutual

/-- `_validate_json_value`; errors carry the path of the value. -/
def validateJsonValue (kind : ToolErrorKind) (path : Points) : Value → Except Raised Unit
  | .none | .bool _ | .int _ | .float _ | .str _ => .ok ()
  | .nonFinite _ =>
      .error (.tool kind (path ++ ofString " yalnızca sonlu JSON sayıları içerebilir."))
  | .dict entries => validateJsonEntries kind path entries
  | .list items => validateJsonItems kind path 0 items
  | .object typeName =>
      .error (.tool kind
        (path ++ ofString s!" JSON ile uyumlu olmayan bir değer içeriyor: {typeName}."))

def validateJsonItems (kind : ToolErrorKind) (path : Points) (index : ℕ) :
    List Value → Except Raised Unit
  | [] => .ok ()
  | item :: rest => do
      validateJsonValue kind (path ++ ofString s!"[{index}]") item
      validateJsonItems kind path (index + 1) rest

def validateJsonEntries (kind : ToolErrorKind) (path : Points) :
    List (Value × Value) → Except Raised Unit
  | [] => .ok ()
  | (.str key, value) :: rest => do
      validateJsonValue kind (path ++ ofString "." ++ key) value
      validateJsonEntries kind path rest
  | _ :: _ =>
      .error (.tool kind (path ++ ofString " içindeki tüm nesne anahtarları string olmalı."))

end

/-- Validate a strict JSON value and return deterministic compact JSON. -/
def canonicalJson (kind : ToolErrorKind) (value : Value) : Except Raised Points := do
  validateJsonValue kind (ofString "$") value
  match dumps value with
  | .ok raw => return raw
  | .error exc => throw (.text kind s!"Değer strict JSON olarak kodlanamadı: {exc}")

/-- Validate a JSON object and return canonical JSON plus a defensive copy. -/
def canonicalObject (kind : ToolErrorKind) : Value → Except Raised (Points × Value)
  | .dict entries => do
      let raw ← canonicalJson kind (.dict entries)
      match loads raw with
      | some decoded => return (raw, decoded)
      | none => throw (.text kind "JSON nesnesi çözülemedi: ")
  | _ => .error (.text kind "Tool argümanları üst düzeyde JSON nesnesi olmalı.")

/-- What `Draft202012Validator(schema).validate(instance)` does. -/
inductive SchemaVerdict where
  | valid
  | validationError (location message : Points)
  | schemaError (message : Points)
  | raises (className : String)
deriving DecidableEq, Repr

/-- The code outside the repository: the JSON Schema validator on a schema and an
instance, and the hexadecimal SHA-256 of some bytes. -/
structure Toolkit where
  validate : Value → Value → SchemaVerdict
  sha256 : List UInt8 → Points

/-- Validate arguments with jsonschema and return their canonical copy. -/
def validateArguments (kit : Toolkit) (inputSchema arguments : Value) :
    Except Raised (Points × Value) := do
  let (canonical, decoded) ← canonicalObject .inputValidation arguments
  match kit.validate inputSchema decoded with
  | .valid => return (canonical, decoded)
  | .validationError location message =>
      let suffix := if location.isEmpty then [] else ofString " at " ++ location
      throw (.tool .inputValidation
        (ofString "Tool argümanları şemaya uymuyor" ++ suffix ++ ofString ": " ++ message))
  | .schemaError message =>
      throw (.tool .inputValidation (ofString "Tool şeması geçersiz: " ++ message))
  | .raises className => throw (.other className)

section Errors

mutual

lemma validateJsonValue_typed {kind : ToolErrorKind} {path : Points} {value : Value}
    {raised : Raised} (h : validateJsonValue kind path value = .error raised) :
    raised.untyped = false := by
  cases value with
  | list items => exact validateJsonItems_typed h
  | dict entries => exact validateJsonEntries_typed h
  | _ =>
      cases h
      try rfl

lemma validateJsonItems_typed {kind : ToolErrorKind} {path : Points} {index : ℕ}
    {items : List Value} {raised : Raised}
    (h : validateJsonItems kind path index items = .error raised) :
    raised.untyped = false := by
  cases items with
  | nil => cases h
  | cons item rest =>
      rw [validateJsonItems] at h
      cases hitem : validateJsonValue kind (path ++ ofString s!"[{index}]") item with
      | error e =>
          rw [hitem] at h
          cases h
          exact validateJsonValue_typed hitem
      | ok _ =>
          rw [hitem] at h
          exact validateJsonItems_typed h

lemma validateJsonEntries_typed {kind : ToolErrorKind} {path : Points}
    {entries : List (Value × Value)} {raised : Raised}
    (h : validateJsonEntries kind path entries = .error raised) :
    raised.untyped = false := by
  cases entries with
  | nil => cases h
  | cons entry rest =>
      obtain ⟨key, value⟩ := entry
      cases key with
      | str key =>
          rw [validateJsonEntries] at h
          cases hvalue : validateJsonValue kind (path ++ ofString "." ++ key) value with
          | error e =>
              rw [hvalue] at h
              cases h
              exact validateJsonValue_typed hvalue
          | ok _ =>
              rw [hvalue] at h
              exact validateJsonEntries_typed h
      | _ =>
          cases h
          rfl

end

/-- The canonical encoder raises typed errors only. -/
theorem canonicalObject_typed {kind : ToolErrorKind} {value : Value} {raised : Raised}
    (h : canonicalObject kind value = .error raised) : raised.untyped = false := by
  cases value with
  | dict entries =>
      rw [canonicalObject, canonicalJson] at h
      cases hvalue : validateJsonValue kind (ofString "$") (.dict entries) with
      | error e =>
          rw [hvalue] at h
          cases h
          exact validateJsonValue_typed hvalue
      | ok _ =>
          rw [hvalue] at h
          cases hraw : dumps (.dict entries) with
          | error exc =>
              simp only [hraw] at h
              cases h
              rfl
          | ok raw =>
              simp only [hraw] at h
              cases hloads : loads raw with
              | none =>
                  simp only [bind, Except.bind, pure, Except.pure, hloads] at h
                  cases h
                  rfl
              | some decoded =>
                  simp only [bind, Except.bind, pure, Except.pure, hloads] at h
                  cases h
  | _ =>
      cases h
      rfl

/-- A canonical text holds a surrogate exactly where the value does. -/
theorem canonicalObject_hasSurrogate {kind : ToolErrorKind} {value : Value} {raw : Points}
    {decoded : Value} (h : canonicalObject kind value = .ok (raw, decoded)) :
    raw.hasSurrogate = value.hasSurrogate := by
  cases value with
  | dict entries =>
      rw [canonicalObject, except_bind_eq_ok] at h
      obtain ⟨text, htext, h⟩ := h
      have hraw : text = raw := by
        split at h
        · cases h
          rfl
        · cases h
      rw [canonicalJson, except_bind_eq_ok] at htext
      obtain ⟨_, -, htext⟩ := htext
      split at htext
      · rename_i found hdumps
        cases htext
        rw [← hraw]
        exact dumps_hasSurrogate hdumps
      · cases htext
  | _ => cases h

/-- Besides typed errors, only the validator's own exceptions come out of a validation. -/
theorem validateArguments_untyped {kit : Toolkit} {inputSchema arguments : Value}
    {raised : Raised} (h : validateArguments kit inputSchema arguments = .error raised)
    (huntyped : raised.untyped = true) :
    ∃ raw decoded className, canonicalObject .inputValidation arguments = .ok (raw, decoded) ∧
      kit.validate inputSchema decoded = .raises className := by
  rw [validateArguments] at h
  cases hobject : canonicalObject .inputValidation arguments with
  | error e =>
      rw [hobject] at h
      cases h
      rw [canonicalObject_typed hobject] at huntyped
      cases huntyped
  | ok found =>
      obtain ⟨raw, decoded⟩ := found
      rw [hobject] at h
      cases hverdict : kit.validate inputSchema decoded with
      | raises className => exact ⟨raw, decoded, className, rfl, hverdict⟩
      | _ =>
          simp only [bind, Except.bind, hverdict] at h
          cases h <;> cases huntyped

theorem validateArguments_eq_ok {kit : Toolkit} {inputSchema arguments : Value}
    {raw : Points} {decoded : Value} :
    validateArguments kit inputSchema arguments = .ok (raw, decoded) ↔
      canonicalObject .inputValidation arguments = .ok (raw, decoded) ∧
        kit.validate inputSchema decoded = .valid := by
  rw [validateArguments, except_bind_eq_ok]
  constructor
  · intro h
    obtain ⟨⟨found, copy⟩, hobject, h⟩ := h
    cases hverdict : kit.validate inputSchema copy <;> simp only [hverdict] at h <;> cases h
    exact ⟨hobject, hverdict⟩
  · intro h
    refine ⟨(raw, decoded), h.1, ?_⟩
    simp only [h.2]
    rfl

lemma validateArguments_raises {kit : Toolkit} {inputSchema arguments : Value}
    {raw : Points} {decoded : Value} {className : String}
    (hobject : canonicalObject .inputValidation arguments = .ok (raw, decoded))
    (hverdict : kit.validate inputSchema decoded = .raises className) :
    validateArguments kit inputSchema arguments = .error (.other className) := by
  rw [validateArguments, hobject]
  simp only [bind, Except.bind, hverdict]
  rfl

end Errors

end Imece.ToolRuntime
