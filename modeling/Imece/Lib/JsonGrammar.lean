import Mathlib.Data.List.Basic
import Mathlib.Data.Nat.Notation

/-!
# The grammar of JSON texts

Which texts are JSON, and how deep their arrays and objects are nested. Blanks stand between the
tokens, and the strings keep their escapes.
-/
namespace Imece.Lib.JsonGrammar

/-- A blank between tokens. -/
def Blank (c : Char) : Prop := c = ' ' ∨ c = '\t' ∨ c = '\n' ∨ c = '\r'

def Blanks (cs : List Char) : Prop := ∀ c ∈ cs, Blank c

def HexDigit (c : Char) : Prop :=
  c.isDigit = true ∨ c ∈ ['a', 'b', 'c', 'd', 'e', 'f'] ∨ c ∈ ['A', 'B', 'C', 'D', 'E', 'F']

/-- What may follow a backslash. -/
inductive Escape : List Char → Prop
  | short (c : Char) (h : c ∈ ['"', '\\', '/', 'b', 'f', 'n', 'r', 't']) : Escape [c]
  | unicode (digits : List Char) (hlength : digits.length = 4) (h : ∀ c ∈ digits, HexDigit c) :
      Escape ('u' :: digits)

/-- The text between the quotes of a string. -/
inductive Body : List Char → Prop
  | nil : Body []
  | char {c : Char} {rest : List Char} (hquote : c ≠ '"') (hback : c ≠ '\\')
      (hcontrol : 32 ≤ c.toNat) (h : Body rest) : Body (c :: rest)
  | escape {escape rest : List Char} (hescape : Escape escape) (h : Body rest) :
      Body ('\\' :: (escape ++ rest))

def Digits (cs : List Char) : Prop := ∀ c ∈ cs, c.isDigit = true

/-- The digits before the point: no zero leads others. -/
inductive Whole : List Char → Prop
  | zero : Whole ['0']
  | digits {c : Char} {rest : List Char} (hc : c.isDigit = true) (hzero : c ≠ '0')
      (h : Digits rest) : Whole (c :: rest)

inductive Fraction : List Char → Prop
  | none : Fraction []
  | digits {digits : List Char} (hne : digits ≠ []) (h : Digits digits) :
      Fraction ('.' :: digits)

inductive Exponent : List Char → Prop
  | none : Exponent []
  | digits {mark : Char} {sign digits : List Char} (hmark : mark = 'e' ∨ mark = 'E')
      (hsign : sign = [] ∨ sign = ['+'] ∨ sign = ['-']) (hne : digits ≠ []) (h : Digits digits) :
      Exponent (mark :: (sign ++ digits))

/-- A number: a sign, the digits before the point, a fraction and an exponent. -/
inductive Number : List Char → Prop
  | mk {sign whole fraction exponent : List Char} (hsign : sign = [] ∨ sign = ['-'])
      (hwhole : Whole whole) (hfraction : Fraction fraction) (hexponent : Exponent exponent) :
      Number (sign ++ (whole ++ (fraction ++ exponent)))

/-- What a piece of a text is. -/
inductive Part where
  /-- A value. -/
  | value
  /-- A value with the blanks around it. -/
  | element
  /-- The elements between the brackets of an array. -/
  | elements
  /-- A key and its element. -/
  | member
  /-- The members between the braces of an object. -/
  | members

/-- A piece of a text, and how deep the arrays and objects in it are nested. -/
inductive Text : Part → List Char → ℕ → Prop
  | true : Text .value ['t', 'r', 'u', 'e'] 0
  | false : Text .value ['f', 'a', 'l', 's', 'e'] 0
  | null : Text .value ['n', 'u', 'l', 'l'] 0
  | number {cs : List Char} (h : Number cs) : Text .value cs 0
  | string {body : List Char} (h : Body body) : Text .value ('"' :: (body ++ ['"'])) 0
  | emptyArray {blanks : List Char} (h : Blanks blanks) : Text .value ('[' :: (blanks ++ [']'])) 1
  | array {cs : List Char} {depth : ℕ} (h : Text .elements cs depth) :
      Text .value ('[' :: (cs ++ [']'])) (depth + 1)
  | emptyObject {blanks : List Char} (h : Blanks blanks) :
      Text .value ('\x7b' :: (blanks ++ ['\x7d'])) 1
  | object {cs : List Char} {depth : ℕ} (h : Text .members cs depth) :
      Text .value ('\x7b' :: (cs ++ ['\x7d'])) (depth + 1)
  | element {before cs after : List Char} {depth : ℕ} (hbefore : Blanks before)
      (h : Text .value cs depth) (hafter : Blanks after) :
      Text .element (before ++ (cs ++ after)) depth
  | lastElement {cs : List Char} {depth : ℕ} (h : Text .element cs depth) :
      Text .elements cs depth
  | moreElements {cs rest : List Char} {depth more : ℕ} (h : Text .element cs depth)
      (hrest : Text .elements rest more) : Text .elements (cs ++ ',' :: rest) (max depth more)
  | member {before key colon cs : List Char} {depth : ℕ} (hbefore : Blanks before)
      (hkey : Body key) (hcolon : Blanks colon) (h : Text .element cs depth) :
      Text .member (before ++ '"' :: (key ++ '"' :: (colon ++ ':' :: cs))) depth
  | lastMember {cs : List Char} {depth : ℕ} (h : Text .member cs depth) : Text .members cs depth
  | moreMembers {cs rest : List Char} {depth more : ℕ} (h : Text .member cs depth)
      (hrest : Text .members rest more) : Text .members (cs ++ ',' :: rest) (max depth more)

end Imece.Lib.JsonGrammar
