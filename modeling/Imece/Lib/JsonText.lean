import Imece.Lib.CodePoints
import Imece.Lib.Json

/-!
# Strings in JSON texts

Strings of code points as JSON texts hold them: how they are quoted and how they are read.
A surrogate may stand for itself or as an escape.
-/
namespace Imece.Lib.Points

open CodePoint

def escapePoint : CodePoint → Points
  | char c => Points.ofChars (Json.escape c)
  | surrogate offset => [surrogate offset]

def quote (text : Points) : Points :=
  char '"' :: (text.flatMap escapePoint ++ [char '"'])

lemma quote_hasSurrogate (text : Points) : (quote text).hasSurrogate = text.hasSurrogate := by
  have hescape (points : Points) :
      Points.hasSurrogate (points.flatMap escapePoint) = points.hasSurrogate := by
    induction points with
    | nil => rfl
    | cons point rest ih =>
        rw [List.flatMap_cons, Points.hasSurrogate_append, Points.hasSurrogate_cons, ih]
        cases point <;> simp [escapePoint, isSurrogate]
  simp [quote, hescape, isSurrogate]

def isBlankPoint : CodePoint → Bool
  | char c => Json.isBlank c
  | surrogate _ => false

def skipBlanks (text : Points) : Points := text.dropWhile isBlankPoint

def ofUnit (n : ℕ) : CodePoint :=
  if h : 0xD800 ≤ n ∧ n < 0xD800 + 2048 then surrogate ⟨n - 0xD800, by omega⟩
  else char (Char.ofNat n)

def consPoint (point : CodePoint) (scanned : Option (Points × Points)) :
    Option (Points × Points) :=
  scanned.map fun (points, rest) => (point :: points, rest)

/-- A text goes on with an escape that names its code unit. -/
def startsWithUnit : Points → Bool
  | char '\\' :: char 'u' :: _ => true
  | _ => false

/-- An escaped code unit before what was scanned of the rest of the text. A high surrogate
joins the low one whose escape comes next; any other stands for itself. -/
def consUnit (unit : ℕ) (rest : Points) (scanned : Option (Points × Points)) :
    Option (Points × Points) :=
  match scanned with
  | some (surrogate low :: points, after) =>
      if Json.isHighSurrogate unit && startsWithUnit rest && Json.isLowSurrogate (0xD800 + low) then
        some (char (Json.joinSurrogates unit (0xD800 + low)) :: points, after)
      else some (ofUnit unit :: surrogate low :: points, after)
  | _ => consPoint (ofUnit unit) scanned

/-- The rest of a string, after its opening quote. -/
def scanString : Points → Option (Points × Points)
  | [] => none
  | char '"' :: rest => some ([], rest)
  | char '\\' :: char 'u' :: char a :: char b :: char c :: char d :: rest =>
      match Json.hex4 a b c d with
      | none => none
      | some unit => consUnit unit rest (scanString rest)
  | char '\\' :: char c :: rest =>
      match Json.simpleEscape c with
      | none => none
      | some c => consPoint (char c) (scanString rest)
  | char c :: rest =>
      if c = '\\' ∨ c.toNat < 32 then none else consPoint (char c) (scanString rest)
  | surrogate offset :: rest => consPoint (surrogate offset) (scanString rest)

def takeChars : Points → List Char × Points
  | char c :: rest =>
      let (cs, after) := takeChars rest
      (c :: cs, after)
  | text => ([], text)

end Imece.Lib.Points
