import Imece.Lib.JsonFields
import Imece.Lib.JsonText

/-!
# The JSON codec of a dynamic language

Values whose strings may hold surrogates and whose floats are a type of their own, how a codec
writes them with its default separators, and how it reads a text. Both go down one level of
recursion for each list or dict they enter.
-/
namespace Imece.Lib

open CodePoint Points

/-- The literals of the floats: a number with a fraction or an exponent. -/
structure FloatLiteral (cs : List Char) : Prop where
  parts : ∃ (negative : Bool) (n : ℕ) (fraction exponent : List Char),
    cs = (if negative then ['-'] else []) ++ (Nat.toDigits 10 n ++ (fraction ++ exponent)) ∧
      (fraction = [] ∨ ∃ digits, digits ≠ [] ∧ (∀ c ∈ digits, c.isDigit = true) ∧
        fraction = '.' :: digits) ∧
      (exponent = [] ∨ ∃ sign digits, (sign = [] ∨ sign = ['-'] ∨ sign = ['+']) ∧
        digits ≠ [] ∧ (∀ c ∈ digits, c.isDigit = true) ∧ exponent = 'e' :: (sign ++ digits)) ∧
      (fraction ≠ [] ∨ exponent ≠ [])

/-- A float type: the texts of its numbers, and the numbers of texts. A finite number is the
one that its literal denotes. -/
structure FloatCodec (φ : Type) where
  isFinite : φ → Bool
  text : φ → List Char
  parse : List Char → φ
  constant : String → φ
  literal : ∀ x, isFinite x = true → FloatLiteral (text x)
  parse_text : ∀ x, isFinite x = true → parse (text x) = x

/-- The values of the codec. A dict keeps its members in order. -/
inductive JsonData (φ : Type) where
  | null
  | bool (value : Bool)
  | int (value : ℤ)
  | float (value : φ)
  | str (text : Points)
  | arr (items : List (JsonData φ))
  | obj (members : List (Points × JsonData φ))

/-- Why a call of the codec raises. -/
inductive JsonDataError where
  | malformed
  | digits
  | notFinite
  | recursion
deriving DecidableEq, Repr

namespace JsonData

variable {φ : Type}

/-- A property of all values, from those of the items and of the members. -/
@[elab_as_elim]
theorem induction {motive : JsonData φ → Prop} (null : motive null)
    (bool : ∀ b, motive (bool b)) (int : ∀ n, motive (int n)) (float : ∀ x, motive (float x))
    (str : ∀ text, motive (str text))
    (arr : ∀ items, (∀ item ∈ items, motive item) → motive (arr items))
    (obj : ∀ members, (∀ member ∈ members, motive member.2) → motive (obj members)) :
    ∀ value, motive value
  | .null => null
  | .bool b => bool b
  | .int n => int n
  | .float x => float x
  | .str text => str text
  | .arr items => arr items fun item _ => induction null bool int float str arr obj item
  | .obj members => obj members fun member _ => induction null bool int float str arr obj member.2
termination_by value => sizeOf value
decreasing_by
  · have hitem := List.sizeOf_lt_of_mem ‹item ∈ items›
    simp only [JsonData.arr.sizeOf_spec]
    omega
  · have hmember := List.sizeOf_lt_of_mem ‹member ∈ members›
    have hvalue : sizeOf member.2 < sizeOf member := by
      cases member
      simp
    simp only [JsonData.obj.sizeOf_spec]
    omega

mutual

/-- How many lists and dicts are nested in a value. -/
def nesting : JsonData φ → ℕ
  | arr items => nestingItems items + 1
  | obj members => nestingMembers members + 1
  | _ => 0

def nestingItems : List (JsonData φ) → ℕ
  | [] => 0
  | item :: rest => max (nesting item) (nestingItems rest)

def nestingMembers : List (Points × JsonData φ) → ℕ
  | [] => 0
  | (_, value) :: rest => max (nesting value) (nestingMembers rest)

end

mutual

/-- Some string or key of a value holds a surrogate. -/
def hasSurrogate : JsonData φ → Bool
  | str text => text.hasSurrogate
  | arr items => itemsHaveSurrogate items
  | obj members => membersHaveSurrogate members
  | _ => false

def itemsHaveSurrogate : List (JsonData φ) → Bool
  | [] => false
  | item :: rest => hasSurrogate item || itemsHaveSurrogate rest

def membersHaveSurrogate : List (Points × JsonData φ) → Bool
  | [] => false
  | (key, value) :: rest =>
      key.hasSurrogate || hasSurrogate value || membersHaveSurrogate rest

end

section Writing

variable (codec : FloatCodec φ)

mutual

/-- The text of a value, with blanks after commas and colons. -/
def render : JsonData φ → Points
  | null => ofString "null"
  | bool true => ofString "true"
  | bool false => ofString "false"
  | int n => ofChars (Json.renderInt n)
  | float x => ofChars (codec.text x)
  | str text => quote text
  | arr items => char '[' :: (renderItems items ++ [char ']'])
  | obj members => char '{' :: (renderMembers members ++ [char '}'])

def renderItems : List (JsonData φ) → Points
  | [] => []
  | [item] => render item
  | item :: next :: rest => render item ++ (char ',' :: char ' ' :: renderItems (next :: rest))

def renderMembers : List (Points × JsonData φ) → Points
  | [] => []
  | [(key, value)] => quote key ++ (char ':' :: char ' ' :: render value)
  | (key, value) :: next :: rest =>
      quote key ++ (char ':' :: char ' ' ::
        (render value ++ (char ',' :: char ' ' :: renderMembers (next :: rest))))

end

mutual

/-- The first exception of a write, in the order of the text, with the levels of recursion
that are left. -/
def refused (allowNan : Bool) (levels : ℕ) : JsonData φ → Option JsonDataError
  | int n => if Json.fitsInt n then none else some .digits
  | float x => if codec.isFinite x || allowNan then none else some .notFinite
  | arr items =>
      match levels with
      | 0 => some .recursion
      | levels + 1 => refusedItems allowNan levels items
  | obj members =>
      match levels with
      | 0 => some .recursion
      | levels + 1 => refusedMembers allowNan levels members
  | _ => none

def refusedItems (allowNan : Bool) (levels : ℕ) : List (JsonData φ) → Option JsonDataError
  | [] => none
  | item :: rest => (refused allowNan levels item).or (refusedItems allowNan levels rest)

def refusedMembers (allowNan : Bool) (levels : ℕ) :
    List (Points × JsonData φ) → Option JsonDataError
  | [] => none
  | (_, value) :: rest => (refused allowNan levels value).or (refusedMembers allowNan levels rest)

end

/-- `json.dumps(value, ensure_ascii=False, allow_nan=…)`. -/
def dumps (allowNan : Bool) (levels : ℕ) (value : JsonData φ) : Except JsonDataError Points :=
  match refused codec allowNan levels value with
  | some e => .error e
  | none => .ok (render codec value)

end Writing

section Reading

variable (codec : FloatCodec φ)

/-- A scalar that is not a string. -/
def ofScalar : Json → Except JsonDataError (JsonData φ)
  | .null => .ok null
  | .bool b => .ok (bool b)
  | .int n => .ok (int n)
  | .float literal => .ok (float (codec.parse literal.toList))
  | _ => .error .malformed

/-- A value that is no string, list or dict. The constants outside the grammar are read. -/
def scanScalar (text : Points) : Except JsonDataError (JsonData φ × Points) :=
  let (cs, after) := takeChars text
  match Json.scanScalar true cs with
  | .ok (scalar, rest) =>
      (ofScalar codec scalar).map fun value => (value, ofChars rest ++ after)
  | .error (.constant name) => .ok (float (codec.constant name), text.drop name.length)
  | .error .digits => .error .digits
  | .error _ => .error .malformed

mutual

/-- The value at the head of a text. Each call spends fuel; the length of the text is
enough. -/
def scanValue : ℕ → ℕ → Points → Except JsonDataError (JsonData φ × Points)
  | 0, _, _ => .error .malformed
  | _ + 1, _, char '"' :: rest =>
      match scanString rest with
      | none => .error .malformed
      | some (text, rest) => .ok (str text, rest)
  | _ + 1, 0, char '[' :: _ => .error .recursion
  | _ + 1, 0, char '{' :: _ => .error .recursion
  | fuel + 1, levels + 1, char '[' :: rest =>
      match skipBlanks rest with
      | char ']' :: rest => .ok (arr [], rest)
      | rest => do
          let (items, rest) ← scanItems fuel levels rest
          return (arr items, rest)
  | fuel + 1, levels + 1, char '{' :: rest =>
      match skipBlanks rest with
      | char '}' :: rest => .ok (obj [], rest)
      | rest => do
          let (members, rest) ← scanMembers fuel levels rest
          return (obj (Json.dictOf members), rest)
  | _ + 1, _, text => scanScalar codec text

/-- Items up to the closing bracket; there is at least one. -/
def scanItems : ℕ → ℕ → Points → Except JsonDataError (List (JsonData φ) × Points)
  | 0, _, _ => .error .malformed
  | fuel + 1, levels, text => do
      let (item, rest) ← scanValue fuel levels text
      match skipBlanks rest with
      | char ']' :: rest => return ([item], rest)
      | char ',' :: rest =>
          let (items, rest) ← scanItems fuel levels (skipBlanks rest)
          return (item :: items, rest)
      | _ => throw .malformed

/-- Members up to the closing brace; there is at least one. -/
def scanMembers : ℕ → ℕ → Points → Except JsonDataError (List (Points × JsonData φ) × Points)
  | fuel + 1, levels, char '"' :: text =>
      match scanString text with
      | none => .error .malformed
      | some (key, rest) =>
          match skipBlanks rest with
          | char ':' :: rest => do
              let (value, rest) ← scanValue fuel levels (skipBlanks rest)
              match skipBlanks rest with
              | char '}' :: rest => return ([(key, value)], rest)
              | char ',' :: rest =>
                  let (members, rest) ← scanMembers fuel levels (skipBlanks rest)
                  return ((key, value) :: members, rest)
              | _ => throw .malformed
          | _ => .error .malformed
  | _, _, _ => .error .malformed

end

/-- `json.loads`, with the value alone in its text. -/
def loads (levels : ℕ) (text : Points) : Except JsonDataError (JsonData φ) := do
  let (value, rest) ← scanValue codec (text.length + 1) levels (skipBlanks text)
  if (skipBlanks rest).isEmpty then return value else throw .malformed

end Reading

end JsonData

end Imece.Lib
