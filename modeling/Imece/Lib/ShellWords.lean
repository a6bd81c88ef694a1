import Imece.Lib.CodePoints
import Mathlib.Algebra.GroupWithZero.Nat

/-!
# Words of a shell command

How a POSIX shell splits one simple command into words, where nothing in it is expanded,
substituted, or read as an operator. In double quotes four characters keep a meaning.
-/
namespace Imece.Lib.Shell

open CodePoint

inductive Quoting where
  | bare
  | single
  | double
deriving DecidableEq

/-- The words that are complete, and the one that is open. -/
structure Reading where
  words : List Points
  word : Option Points
  quoting : Quoting

/-- An operator, a comment, a pattern, a tilde, or the end of a line. -/
def isActive (c : CodePoint) : Bool :=
  ("&|;<>()#*?[~\n".toList.map char).contains c

/-- A `$` before one of these begins an expansion; before another it stands for itself. POSIX
leaves `$[` open, and some shells read an arithmetic expansion there. -/
def introduces : CodePoint → Bool
  | char c => c.isAlphanum || "_\x7b([@*#?-$!".toList.contains c
  | surrogate _ => false

/-- Outside quotes a `$` may also begin a quoted text. -/
def introducesBare (c : CodePoint) : Bool := introduces c || c = char '\'' || c = char '"'

/-- A backslash in double quotes escapes these. -/
def isEscaped (c : CodePoint) : Bool := ("$`\"\\\n".toList.map char).contains c

/-- A character that stands for itself outside quotes. -/
def isOrdinary (c : CodePoint) : Bool :=
  !isActive c && !("'\"`$\\ \t".toList.map char).contains c

namespace Reading

@[grind =] def add (reading : Reading) (c : CodePoint) : Reading :=
  { reading with word := some (reading.word.getD [] ++ [c]) }

/-- Quotes begin a word, even an empty one. -/
def turn (reading : Reading) (quoting : Quoting) : Reading :=
  { reading with word := some (reading.word.getD []), quoting }

@[grind =] def blank (reading : Reading) : Reading :=
  { reading with words := reading.words ++ reading.word.toList, word := none }

/-- How many characters the words hold. -/
@[grind =] def size (reading : Reading) : ℕ :=
  (reading.words.map List.length).sum + (reading.word.getD []).length

end Reading

/-- The rest of a command; `none` if it holds more than plain words. -/
@[grind =] def read (reading : Reading) : Points → Option (List Points)
  | [] =>
      match reading.quoting with
      | .bare => some (reading.words ++ reading.word.toList)
      | _ => none
  | c :: rest =>
      match reading.quoting with
      | .single =>
          if c = char '\'' then read (reading.turn .bare) rest else read (reading.add c) rest
      | .double =>
          if c = char '"' then read (reading.turn .bare) rest
          else if c = char '`' then none
          else if c = char '$' then
            if rest.head?.any introduces then none else read (reading.add c) rest
          else if c = char '\\' then
            match rest with
            | next :: rest =>
                if next = char '\n' then read reading rest
                else if isEscaped next then read (reading.add next) rest
                else read (reading.add c) (next :: rest)
            | [] => none
          else read (reading.add c) rest
      | .bare =>
          if c = char '\'' then read (reading.turn .single) rest
          else if c = char '"' then read (reading.turn .double) rest
          else if c = char '`' || isActive c then none
          else if c = char '$' then
            if rest.head?.any introducesBare then none else read (reading.add c) rest
          else if c = char '\\' then
            match rest with
            | next :: rest =>
                if next = char '\n' then read reading rest else read (reading.add next) rest
            | [] => none
          else if c = char ' ' || c = char '\t' then read reading.blank rest
          else read (reading.add c) rest

/-- The words of a command that is nothing but plain words. -/
def plainWords (command : Points) : Option (List Points) := read ⟨[], none, .bare⟩ command

/-- A text that stands for itself between double quotes. -/
@[grind =] def literal : Points → Bool
  | [] => true
  | c :: rest =>
      c ≠ char '"' && c ≠ char '`' && (c ≠ char '$' || !rest.head?.any introduces) &&
        (c ≠ char '\\' || rest.head?.any fun next => !isEscaped next) && literal rest

section Sizes

variable {reading : Reading} {words : List Points} {rest : Points}

@[simp] lemma size_add (reading : Reading) (c : CodePoint) : (reading.add c).size = reading.size + 1 := by
  simp only [Reading.size, Reading.add, Option.getD_some, List.length_append, List.length_singleton]
  omega

@[simp] lemma size_turn (reading : Reading) (quoting : Quoting) :
    (reading.turn quoting).size = reading.size := by
  simp [Reading.size, Reading.turn]

@[simp] lemma size_blank (reading : Reading) : reading.blank.size = reading.size := by
  cases h : reading.word <;> simp [Reading.size, Reading.blank, h]

@[simp] lemma quoting_add (reading : Reading) (c : CodePoint) :
    (reading.add c).quoting = reading.quoting := rfl

@[simp] lemma quoting_turn (reading : Reading) (quoting : Quoting) :
    (reading.turn quoting).quoting = quoting := rfl

@[simp] lemma quoting_blank (reading : Reading) : reading.blank.quoting = reading.quoting := rfl

/-- No character is read as more than one, and a quote that is open has to be closed. -/
lemma read_size (h : read reading rest = some words) :
    (words.map List.length).sum + (if reading.quoting = .bare then 0 else 1) ≤
      reading.size + rest.length := by
  fun_induction read reading rest with
  | case1 reading hquoting =>
      obtain rfl := Option.some.inj h
      rw [if_pos hquoting]
      cases hword : reading.word <;> simp [Reading.size, hword]
  | _ =>
      first
      | cases h
      | rename_i hquoting _ ih
        have hrest := ih h
        simp only [size_add, size_turn, size_blank, quoting_add, quoting_turn, quoting_blank,
          List.length_cons, *] at hrest ⊢
        first | omega | (simp at hrest ⊢; omega)

/-- Outside quotes, a double quote in the rest is not read as a character, or the backslash before
it is not. -/
lemma read_size_quote (h : read reading rest = some words) (hbare : reading.quoting = .bare)
    (hquote : char '"' ∈ rest) : (words.map List.length).sum + 1 ≤ reading.size + rest.length := by
  fun_induction read reading rest with
  | case1 => simp at hquote
  | case13 | case4 | case8 | case11 => simp_all
  | case18 reading rest _ _ _ _ _ ih =>
      have hrest := ih h hbare (by simpa using hquote)
      simp only [size_add, List.length_cons] at hrest ⊢
      omega
  | case23 reading c rest _ _ hdouble _ _ _ _ ih =>
      have hrest := ih h hbare ((List.mem_cons.mp hquote).resolve_left (Ne.symm hdouble))
      simp only [size_add, List.length_cons] at hrest ⊢
      omega
  | _ =>
      first
      | cases h
      | have hrest := read_size h
        simp only [size_add, size_turn, size_blank, quoting_add, quoting_turn, quoting_blank,
          List.length_cons, *] at hrest ⊢
        omega

end Sizes

section Quoted

variable {words : List Points} {word text name : Points} {out : List Points}

/-- The next character in double quotes. -/
lemma read_double (reading : Reading) (h : reading.quoting = .double) (c : CodePoint)
    (rest : Points) :
    read reading (c :: rest) =
      if c = char '"' then read (reading.turn .bare) rest
      else if c = char '`' then none
      else if c = char '$' then
        if rest.head?.any introduces then none else read (reading.add c) rest
      else if c = char '\\' then
        match rest with
        | next :: rest =>
            if next = char '\n' then read reading rest
            else if isEscaped next then read (reading.add next) rest
            else read (reading.add c) (next :: rest)
        | [] => none
      else read (reading.add c) rest := by
  rw [read.eq_def]
  simp only [h]
  rfl

/-- A literal text between double quotes is read as it stands. -/
lemma read_literal (h : literal text = true) (rest : Points) :
    read ⟨words, some word, .double⟩ (text ++ char '"' :: rest) =
      read ⟨words, some (word ++ text), .bare⟩ rest := by
  induction text generalizing word with
  | nil =>
      rw [List.nil_append, read_double _ rfl, if_pos rfl]
      simp [Reading.turn]
  | cons c text ih =>
      simp only [literal, Bool.and_eq_true, decide_eq_true_eq, Bool.or_eq_true, Bool.not_eq_true',
        ne_eq] at h
      obtain ⟨⟨⟨⟨hquote, hback⟩, hdollar⟩, hslash⟩, hrest⟩ := h
      have hstep : read ⟨words, some word, .double⟩ (c :: text ++ char '"' :: rest) =
          read ⟨words, some (word ++ [c]), .double⟩ (text ++ char '"' :: rest) := by
        rw [List.cons_append, read_double _ rfl, if_neg hquote, if_neg hback]
        by_cases hc : c = char '$'
        · subst hc
          have hhead : (text ++ char '"' :: rest).head?.any introduces = false := by
            cases text with
            | nil => rfl
            | cons next text => simpa using hdollar
          rw [if_pos rfl, hhead]
          rfl
        rw [if_neg hc]
        by_cases hc' : c = char '\\'
        · subst hc'
          cases text with
          | nil => simp at hslash
          | cons next text =>
              have hnext : isEscaped next = false := by simpa using hslash
              have hline : next ≠ char '\n' := by
                rintro rfl
                exact absurd hnext (by decide)
              rw [if_pos rfl, List.cons_append]
              simp only [if_neg hline, hnext]
              rfl
        · rw [if_neg hc']
          rfl
      rw [hstep, ih hrest]
      simp

/-- Any other text between double quotes loses a character, or is no plain word. -/
lemma read_not_literal (h : literal text = false)
    (hread : read ⟨words, some word, .double⟩ (text ++ [char '"']) = some out) :
    (out.map List.length).sum + 1 ≤ (words.map List.length).sum + word.length + text.length := by
  induction text generalizing word with
  | nil => cases h
  | cons c text ih =>
      -- every way on either drops a character or leaves the rest to be not literal
      have hsize (word : Points) (quoting : Quoting) :
          Reading.size ⟨words, some word, quoting⟩ = (words.map List.length).sum + word.length := rfl
      have hstep : literal text = false → read ⟨words, some (word ++ [c]), .double⟩
          (text ++ [char '"']) = some out → (out.map List.length).sum + 1 ≤
            (words.map List.length).sum + word.length + (c :: text).length := by
        intro htext hout
        have hrest := ih htext hout
        simp only [List.length_append, List.length_cons, List.length_nil] at hrest ⊢
        omega
      rw [List.cons_append, read_double _ rfl] at hread
      by_cases hquote : c = char '"'
      · rw [if_pos hquote] at hread
        have hrest := read_size_quote hread rfl (by simp)
        simp only [size_turn, hsize, List.length_append, List.length_cons, List.length_nil]
          at hrest ⊢
        omega
      rw [if_neg hquote] at hread
      by_cases hback : c = char '`'
      · rw [if_pos hback] at hread
        cases hread
      rw [if_neg hback] at hread
      by_cases hdollar : c = char '$'
      · rw [if_pos hdollar] at hread
        split at hread
        · cases hread
        · rename_i hhead
          apply hstep _ hread
          subst hdollar
          have hnext : text.head?.any introduces = false := by
            cases text with
            | nil => rfl
            | cons next text => simpa using hhead
          simpa [literal, hnext] using h
      rw [if_neg hdollar] at hread
      by_cases hslash : c = char '\\'
      · rw [if_pos hslash] at hread
        cases text with
        | nil => cases hread
        | cons next text =>
            rw [List.cons_append] at hread
            simp only at hread
            split at hread
            · have hrest := read_size hread
              simp only [hsize, List.length_append, List.length_cons, List.length_nil] at hrest ⊢
              simp at hrest
              omega
            · split at hread
              · have hrest := read_size hread
                simp only [size_add, quoting_add, hsize, List.length_append, List.length_cons,
                  List.length_nil] at hrest ⊢
                simp at hrest
                omega
              · rename_i hescaped
                apply hstep _ hread
                subst hslash
                simpa [literal, hescaped] using h
      · rw [if_neg hslash] at hread
        apply hstep _ hread
        simpa [literal, hquote, hback, hdollar, hslash] using h

lemma read_ordinary {c : CodePoint} (h : isOrdinary c = true) (reading : Reading)
    (hbare : reading.quoting = .bare) (rest : Points) :
    read reading (c :: rest) = read (reading.add c) rest := by
  simp only [isOrdinary, Bool.and_eq_true, Bool.not_eq_true'] at h
  obtain ⟨hactive, hspecial⟩ := h
  have hne : ∀ special ∈ "'\"`$\\ \t".toList, c ≠ char special := by
    intro special hmem heq
    rw [Bool.eq_false_iff, ne_eq, List.contains_iff_mem] at hspecial
    exact hspecial (heq ▸ List.mem_map_of_mem hmem)
  rw [read.eq_def]
  simp only [hbare, hactive]
  rw [if_neg (hne '\'' (by decide)), if_neg (hne '"' (by decide)), if_neg (by
    simpa using hne '`' (by decide)), if_neg (hne '$' (by decide)), if_neg (hne '\\' (by decide)),
    if_neg (by
      simp only [Bool.or_eq_true, decide_eq_true_eq, not_or]
      exact ⟨hne ' ' (by decide), hne '\t' (by decide)⟩)]

lemma read_name (h : name.all isOrdinary = true) (hne : name ≠ []) (reading : Reading)
    (hbare : reading.quoting = .bare) (rest : Points) :
    read reading (name ++ rest) =
      read { reading with word := some (reading.word.getD [] ++ name) } rest := by
  induction name generalizing reading with
  | nil => exact absurd rfl hne
  | cons c name ih =>
      rw [List.all_cons, Bool.and_eq_true] at h
      rw [List.cons_append, read_ordinary h.1 reading hbare]
      cases name with
      | nil => rfl
      | cons next name =>
          rw [ih h.2 (List.cons_ne_nil _ _) (reading.add c) hbare]
          simp [Reading.add]

lemma read_space (reading : Reading) (hbare : reading.quoting = .bare) (rest : Points) :
    read reading (char ' ' :: rest) = read reading.blank rest := by
  rw [read.eq_def]
  simp only [hbare]
  rw [if_neg (by decide), if_neg (by decide), if_neg (by decide), if_neg (by decide),
    if_neg (by decide), if_pos (by decide)]

lemma read_quote (reading : Reading) (hbare : reading.quoting = .bare) (rest : Points) :
    read reading (char '"' :: rest) = read (reading.turn .double) rest := by
  rw [read.eq_def]
  simp only [hbare]
  rw [if_neg (by decide), if_pos trivial]

/-- A command of a plain name and a text in double quotes has that text for its argument exactly
if the text is literal. -/
theorem plainWords_quoted (hname : name.all isOrdinary = true) (hne : name ≠ []) :
    plainWords (name ++ char ' ' :: char '"' :: (text ++ [char '"'])) = some [name, text] ↔
      literal text = true := by
  have hread : plainWords (name ++ char ' ' :: char '"' :: (text ++ [char '"'])) =
      read ⟨[name], some [], .double⟩ (text ++ [char '"']) := by
    rw [plainWords, read_name hname hne _ rfl, read_space _ rfl, read_quote _ rfl]
    rfl
  rw [hread]
  constructor
  · intro hout
    by_contra hliteral
    have hsize := read_not_literal (Bool.not_eq_true _ ▸ hliteral) hout
    simp at hsize
  · intro hliteral
    rw [read_literal hliteral]
    rfl

end Quoted

end Imece.Lib.Shell
