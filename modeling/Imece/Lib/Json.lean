import Mathlib.Data.List.Sort
import Mathlib.Data.String.Basic

/-!
# JSON texts

The values of JSON texts, how they are written with neither blanks nor needless
escapes, and a scanner for them. The scanner reads a text as the JSON grammar has it,
accepts no member twice and none of the constants outside the grammar, and reads a
number with a fraction or an exponent as its literal, or refuses it.
-/
namespace Imece.Lib

/-- Values of JSON texts. An object keeps its members in order. -/
inductive Json where
  | null
  | bool (value : Bool)
  | int (value : ℤ)
  | float (literal : String)
  | str (text : String)
  | arr (items : List Json)
  | obj (members : List (String × Json))

/-- Why a text has no value. -/
inductive JsonError where
  | malformed
  | duplicateKeys
  | constant (name : String)
  | float
  | surrogate
  | digits
deriving DecidableEq, Repr

namespace Json

/-- A property of all values, from those of the items and of the members. -/
@[elab_as_elim]
theorem induction {motive : Json → Prop} (null : motive null)
    (bool : ∀ b, motive (bool b)) (int : ∀ n, motive (int n))
    (float : ∀ literal, motive (float literal)) (str : ∀ text, motive (str text))
    (arr : ∀ items, (∀ item ∈ items, motive item) → motive (arr items))
    (obj : ∀ members, (∀ member ∈ members, motive member.2) → motive (obj members)) :
    ∀ value, motive value
  | .null => null
  | .bool b => bool b
  | .int n => int n
  | .float literal => float literal
  | .str text => str text
  | .arr items => arr items fun item _ => induction null bool int float str arr obj item
  | .obj members => obj members fun member _ => induction null bool int float str arr obj member.2
termination_by value => sizeOf value
decreasing_by
  · have hitem := List.sizeOf_lt_of_mem ‹item ∈ items›
    simp only [Json.arr.sizeOf_spec]
    omega
  · have hmember := List.sizeOf_lt_of_mem ‹member ∈ members›
    have hvalue : sizeOf member.2 < sizeOf member := by
      cases member
      simp
    simp only [Json.obj.sizeOf_spec]
    omega

/-! ## Writing -/

def hexDigit (n : ℕ) : Char := Nat.digitChar n

/-- How a character stands in a string: quotes, backslashes and control characters
are escaped, all others stand for themselves. -/
def escape (c : Char) : List Char :=
  if c = '"' then ['\\', '"']
  else if c = '\\' then ['\\', '\\']
  else if c = '\n' then ['\\', 'n']
  else if c = '\r' then ['\\', 'r']
  else if c = '\t' then ['\\', 't']
  else if c = Char.ofNat 12 then ['\\', 'f']
  else if c = Char.ofNat 8 then ['\\', 'b']
  else if c.toNat < 32 then
    ['\\', 'u', '0', '0', hexDigit (c.toNat / 16), hexDigit (c.toNat % 16)]
  else [c]

def renderString (text : String) : List Char := '"' :: (text.toList.flatMap escape ++ ['"'])

def renderInt : ℤ → List Char
  | .ofNat n => Nat.toDigits 10 n
  | .negSucc n => '-' :: Nat.toDigits 10 (n + 1)

mutual

/-- A value without blanks, members in the order they have. -/
def render : Json → List Char
  | null => ['n', 'u', 'l', 'l']
  | bool true => ['t', 'r', 'u', 'e']
  | bool false => ['f', 'a', 'l', 's', 'e']
  | int n => renderInt n
  | float literal => literal.toList
  | str text => renderString text
  | arr items => '[' :: (renderItems items ++ [']'])
  | obj members => '{' :: (renderMembers members ++ ['}'])

def renderItems : List Json → List Char
  | [] => []
  | [item] => render item
  | item :: next :: rest => render item ++ ',' :: renderItems (next :: rest)

def renderMembers : List (String × Json) → List Char
  | [] => []
  | [(key, value)] => renderString key ++ ':' :: render value
  | (key, value) :: next :: rest =>
      renderString key ++ ':' :: (render value ++ ',' :: renderMembers (next :: rest))

end

mutual

/-- Every object's members in the order of their keys. -/
def sortKeys : Json → Json
  | arr items => arr (sortItems items)
  | obj members => obj ((sortMembers members).insertionSort fun a b => a.1 ≤ b.1)
  | other => other

def sortItems : List Json → List Json
  | [] => []
  | item :: rest => sortKeys item :: sortItems rest

def sortMembers : List (String × Json) → List (String × Json)
  | [] => []
  | (key, value) :: rest => (key, sortKeys value) :: sortMembers rest

end

/-- The canonical text of a value. -/
def canonical (value : Json) : String := String.ofList (render (sortKeys value))

/-! ## Reading -/

def isBlank (c : Char) : Bool := c == ' ' || c == '\t' || c == '\n' || c == '\r'

def skipBlanks (cs : List Char) : List Char := cs.dropWhile isBlank

def hexValue (c : Char) : Option ℕ :=
  if '0' ≤ c ∧ c ≤ '9' then some (c.toNat - 48)
  else if 'a' ≤ c ∧ c ≤ 'f' then some (c.toNat - 87)
  else if 'A' ≤ c ∧ c ≤ 'F' then some (c.toNat - 55)
  else none

def hex4 (a b c d : Char) : Option ℕ := do
  return (((← hexValue a) * 16 + (← hexValue b)) * 16 + (← hexValue c)) * 16 + (← hexValue d)

def isHighSurrogate (n : ℕ) : Bool := 0xD800 ≤ n && n ≤ 0xDBFF

def isLowSurrogate (n : ℕ) : Bool := 0xDC00 ≤ n && n ≤ 0xDFFF

def joinSurrogates (high low : ℕ) : Char :=
  Char.ofNat (0x10000 + (high - 0xD800) * 0x400 + (low - 0xDC00))

def simpleEscape (c : Char) : Option Char :=
  if c = '"' then some '"'
  else if c = '\\' then some '\\'
  else if c = '/' then some '/'
  else if c = 'b' then some (Char.ofNat 8)
  else if c = 'f' then some (Char.ofNat 12)
  else if c = 'n' then some '\n'
  else if c = 'r' then some '\r'
  else if c = 't' then some '\t'
  else none

/-- What a scanner leaves: what it read, and the rest of the text. -/
abbrev Scanned (α : Type) := Except JsonError (α × List Char)

def consChar (c : Char) (scanned : Scanned (List Char)) : Scanned (List Char) :=
  scanned.map fun (chars, rest) => (c :: chars, rest)

/-- The rest of a string, after its opening quote. -/
def scanString : List Char → Scanned (List Char)
  | [] => .error .malformed
  | '"' :: rest => .ok ([], rest)
  | '\\' :: 'u' :: a :: b :: c :: d :: rest =>
      match hex4 a b c d with
      | none => .error .malformed
      | some unit =>
          if isHighSurrogate unit then
            match rest with
            | '\\' :: 'u' :: e :: f :: g :: h :: rest =>
                match hex4 e f g h with
                | none => .error .malformed
                | some low =>
                    if isLowSurrogate low then
                      consChar (joinSurrogates unit low) (scanString rest)
                    else .error .surrogate
            | _ => .error .surrogate
          else if isLowSurrogate unit then .error .surrogate
          else consChar (Char.ofNat unit) (scanString rest)
  | '\\' :: c :: rest =>
      match simpleEscape c with
      | none => .error .malformed
      | some c => consChar c (scanString rest)
  | c :: rest =>
      if c = '\\' ∨ c.toNat < 32 then .error .malformed else consChar c (scanString rest)

def takeDigits (cs : List Char) : List Char × List Char := cs.span Char.isDigit

/-- `(\.[0-9]+)?` -/
def scanFraction (cs : List Char) : List Char × List Char :=
  match cs with
  | '.' :: rest =>
      let (digits, after) := takeDigits rest
      if digits.isEmpty then ([], cs) else ('.' :: digits, after)
  | _ => ([], cs)

/-- `([eE][-+]?[0-9]+)?` -/
def scanExponent (cs : List Char) : List Char × List Char :=
  match cs with
  | e :: rest =>
      if e = 'e' ∨ e = 'E' then
        let (sign, unsigned) := match rest with
          | s :: more => if s = '-' ∨ s = '+' then ([s], more) else ([], rest)
          | [] => ([], [])
        let (digits, after) := takeDigits unsigned
        if digits.isEmpty then ([], cs) else (e :: (sign ++ digits), after)
      else ([], cs)
  | [] => ([], cs)

/-- `(?:0|[1-9][0-9]*)` -/
def scanWhole (cs : List Char) : Option (List Char × List Char) :=
  match cs with
  | '0' :: rest => some (['0'], rest)
  | c :: rest =>
      if c.isDigit then
        let (digits, after) := takeDigits rest
        some (c :: digits, after)
      else none
  | [] => none

/-- How many digits an integer literal may have. -/
def maxIntDigits : ℕ := 4300

/-- The number at the head of a text, after its sign. -/
def scanNumber (floats negative : Bool) (cs : List Char) : Scanned Json :=
  match scanWhole cs with
  | none => .error .malformed
  | some (whole, rest) =>
      let (fraction, rest) := scanFraction rest
      let (exponent, rest) := scanExponent rest
      if fraction.isEmpty && exponent.isEmpty then
        if maxIntDigits < whole.length then .error .digits
        else
          let value := Nat.ofDigitChars 10 whole 0
          .ok (int (if negative then -value else value), rest)
      else if floats then
        let sign := if negative then ['-'] else []
        .ok (float (String.ofList (sign ++ whole ++ fraction ++ exponent)), rest)
      else .error .float

/-- A scalar that is not a string. -/
def scanScalar (floats : Bool) : List Char → Except JsonError (Json × List Char)
  | 'n' :: 'u' :: 'l' :: 'l' :: rest => .ok (null, rest)
  | 't' :: 'r' :: 'u' :: 'e' :: rest => .ok (bool true, rest)
  | 'f' :: 'a' :: 'l' :: 's' :: 'e' :: rest => .ok (bool false, rest)
  | 'N' :: 'a' :: 'N' :: _ => .error (.constant "NaN")
  | 'I' :: 'n' :: 'f' :: 'i' :: 'n' :: 'i' :: 't' :: 'y' :: _ => .error (.constant "Infinity")
  | '-' :: 'I' :: 'n' :: 'f' :: 'i' :: 'n' :: 'i' :: 't' :: 'y' :: _ =>
      .error (.constant "-Infinity")
  | '-' :: rest => scanNumber floats true rest
  | cs => scanNumber floats false cs

mutual

/-- The value at the head of a text. Each call spends fuel; the length of the text is
enough. -/
def scanValue (floats : Bool) : ℕ → List Char → Except JsonError (Json × List Char)
  | 0, _ => .error .malformed
  | _ + 1, '"' :: rest => do
      let (chars, rest) ← scanString rest
      return (str (String.ofList chars), rest)
  | fuel + 1, '[' :: rest =>
      match skipBlanks rest with
      | ']' :: rest => .ok (arr [], rest)
      | rest => do
          let (items, rest) ← scanItems floats fuel rest
          return (arr items, rest)
  | fuel + 1, '{' :: rest =>
      match skipBlanks rest with
      | '}' :: rest => .ok (obj [], rest)
      | rest => do
          let (members, rest) ← scanMembers floats fuel rest
          if (members.map (·.1)).Nodup then return (obj members, rest)
          else throw .duplicateKeys
  | _ + 1, cs => scanScalar floats cs

/-- Items up to the closing bracket; there is at least one. -/
def scanItems (floats : Bool) : ℕ → List Char → Except JsonError (List Json × List Char)
  | 0, _ => .error .malformed
  | fuel + 1, cs => do
      let (item, rest) ← scanValue floats fuel cs
      match skipBlanks rest with
      | ']' :: rest => return ([item], rest)
      | ',' :: rest =>
          let (items, rest) ← scanItems floats fuel (skipBlanks rest)
          return (item :: items, rest)
      | _ => throw .malformed

/-- Members up to the closing brace; there is at least one. -/
def scanMembers (floats : Bool) : ℕ → List Char → Except JsonError (List (String × Json) × List Char)
  | 0, _ => .error .malformed
  | fuel + 1, '"' :: cs => do
      let (key, rest) ← scanString cs
      match skipBlanks rest with
      | ':' :: rest =>
          let (value, rest) ← scanValue floats fuel (skipBlanks rest)
          match skipBlanks rest with
          | '}' :: rest => return ([(String.ofList key, value)], rest)
          | ',' :: rest =>
              let (members, rest) ← scanMembers floats fuel (skipBlanks rest)
              return ((String.ofList key, value) :: members, rest)
          | _ => throw .malformed
      | _ => throw .malformed
  | _ + 1, _ => .error .malformed

end

/-- `json.loads`, with the value alone in its text. -/
def decode (floats : Bool) (text : String) : Except JsonError Json := do
  let (value, rest) ← scanValue floats (text.toList.length + 1) (skipBlanks text.toList)
  if (skipBlanks rest).isEmpty then return value else throw .malformed

end Json

end Imece.Lib
