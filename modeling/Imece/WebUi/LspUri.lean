import Imece.Lib.PathTree
import Imece.Lib.PercentEncoding
import Mathlib.Data.List.DropRight
import Mathlib.Algebra.GroupWithZero.Nat

/-!
# File URIs of the language client

The client makes the URI of a file from the root and a relative path, and takes the root off the
URIs that the server sends. The host has told the server the root's URI as `pathlib` spells it.
-/
namespace Imece.WebUi

open Lib

section Client

/-- `toLowerCase`, of which nothing is said here but that it leaves `/` and `:` alone. -/
structure LowerCase where
  lower : List Char → List Char
  nil : lower [] = []
  slash : ∀ before after, lower (before ++ '/' :: after) = lower before ++ '/' :: lower after
  keeps : ∀ text, ∀ c ∈ ['/', ':'], c ∈ lower text ↔ c ∈ text

def norm (p : List Char) : List Char :=
  (p.map fun c => if c = '\\' then '/' else c).rdropWhile (· = '/')

/-- What `encodeURIComponent` leaves as it is. -/
def keepsComponent (c : Char) : Bool :=
  c.isAlphanum || ['-', '_', '.', '!', '~', '*', '\'', '(', ')'].contains c

def scheme : List Char := ['f', 'i', 'l', 'e', ':', '/', '/']

def toLspUri (root rel : List Char) : List Char :=
  scheme ++ '/' :: ['/'].intercalate
    (((root ++ '/' :: rel).splitOn '/').map (Percent.encode keepsComponent))

def units (text : List Char) : ℕ := (text.map fun c => if c.toNat < 0x10000 then 1 else 2).sum

/-- `text.slice(n)`, in units of UTF-16; half of a pair is no character. -/
def slice : ℕ → List Char → List Char
  | 0, text => text
  | _ + 1, [] => []
  | n + 1, c :: text =>
      if c.toNat < 0x10000 then slice n text
      else
        match n with
        | 0 => Char.ofNat 0xfffd :: text
        | n + 1 => slice n text

variable (case : LowerCase)

def fromLspUri (root uri : List Char) : Option (List Char) :=
  if ¬ scheme <+: uri then none
  else
    let body :=
      match uri.drop scheme.length with
      | '/' :: rest => rest
      | rest => rest
    let path := norm (['/'].intercalate ((body.splitOn '/').map Percent.decodeOrSelf))
    if ¬ case.lower root ++ ['/'] <+: case.lower path then none
    else some (slice (units root + 1) path)

end Client

section Paths

inductive Flavour where
  | posix
  | windows

/-- The name of a file or of a folder. -/
structure Name (flavour : Flavour) where
  chars : List Char
  nonempty : chars ≠ []
  slash : '/' ∉ chars
  backslash : flavour = .windows → '\\' ∉ chars
  colon : flavour = .windows → ':' ∉ chars

/-- An absolute path: one of POSIX, one on a drive, or one of a share. -/
inductive AbsPath : Flavour → Type
  | posix (names : List (Name .posix)) : AbsPath .posix
  | drive (letter : Char) (hletter : letter.isAlpha = true) (names : List (Name .windows)) :
      AbsPath .windows
  | share (server share : Name .windows) (names : List (Name .windows)) : AbsPath .windows

structure RelPath (flavour : Flavour) where
  names : List (Name flavour)
  nonempty : names ≠ []

variable {flavour : Flavour}

def charsOf (names : List (Name flavour)) : List (List Char) := names.map Name.chars

/-- A segment that names no file. -/
def Name.isDots (name : Name flavour) : Bool := name.chars = ['.'] || name.chars = ['.', '.']

/-- `..` takes the name before it away. -/
def resolveNames (names : List (Name flavour)) : List (Name flavour) :=
  names.foldl (fun kept name =>
    if name.chars = ['.'] then kept
    else if name.chars = ['.', '.'] then kept.dropLast
    else kept ++ [name]) []

def RelPath.text (rel : RelPath flavour) : List Char := ['/'].intercalate (charsOf rel.names)

namespace AbsPath

def IsDrive : AbsPath flavour → Prop
  | posix _ => False
  | drive .. => True
  | share .. => False

def join : {flavour : Flavour} → AbsPath flavour → RelPath flavour → AbsPath flavour
  | _, posix names, rel => posix (names ++ rel.names)
  | _, drive letter hletter names, rel => drive letter hletter (names ++ rel.names)
  | _, share server name names, rel => share server name (names ++ rel.names)

def namesOf : {flavour : Flavour} → AbsPath flavour → List (Name flavour)
  | _, posix names => names
  | _, drive _ _ names => names
  | _, share _ _ names => names

/-- The path without its dot segments. -/
def resolve : {flavour : Flavour} → AbsPath flavour → AbsPath flavour
  | _, posix names => posix (resolveNames names)
  | _, drive letter hletter names => drive letter hletter (resolveNames names)
  | _, share server name names => share server name (resolveNames names)

def NoDots (path : AbsPath flavour) : Prop := ∀ name ∈ namesOf path, name.isDots = false

/-- The path as the host's `str` of it. -/
def text : AbsPath flavour → List Char
  | posix names => '/' :: ['/'].intercalate (charsOf names)
  | drive letter _ names => letter :: ':' :: '\\' :: ['\\'].intercalate (charsOf names)
  | share server name names =>
      '\\' :: '\\' :: ['\\'].intercalate (server.chars :: name.chars :: charsOf names)

/-- What `quote` leaves as it is. -/
def keepsQuoted (c : Char) : Bool := c.isAlphanum || ['_', '.', '-', '~', '/'].contains c

def quote (text : List Char) : List Char := Percent.encode keepsQuoted text

/-- `Path.as_uri` -/
def asUri : AbsPath flavour → List Char
  | posix names => scheme ++ quote ('/' :: ['/'].intercalate (charsOf names))
  | drive letter _ names =>
      scheme ++ '/' :: letter :: ':' :: quote ('/' :: ['/'].intercalate (charsOf names))
  | share server name names =>
      scheme ++ quote (server.chars ++ '/' :: (name.chars ++ '/' ::
        ['/'].intercalate (charsOf names)))

/-- The URI of a file under a root, from the root's. -/
def standardUri (root : AbsPath flavour) (rel : RelPath flavour) : List Char :=
  (if root.asUri.getLast? = some '/' then root.asUri else root.asUri ++ ['/']) ++ quote rel.text

end AbsPath

/-- The same up to percent-encoding. -/
def SameUri (uri other : List Char) : Prop :=
  (uri.splitOn '/').map Percent.decodeOrSelf = (other.splitOn '/').map Percent.decodeOrSelf

/-- A file URI that denotes a path. -/
def Denotes (uri : List Char) (path : AbsPath flavour) : Prop :=
  scheme <+: uri ∧ SameUri uri path.asUri

/-- What the two translations owe to a file under the root. -/
structure Translates (case : LowerCase) (root : AbsPath flavour) (rel : RelPath flavour) :
    Prop where
  denotes : SameUri (toLspUri (norm root.text) rel.text) (root.standardUri rel)
  standard : fromLspUri case (norm root.text) (root.standardUri rel) = some rel.text
  back : fromLspUri case (norm root.text) (toLspUri (norm root.text) rel.text) = some rel.text

/-- A path below a root on a drive, where names that differ in case alone are the same. -/
def InsideUpToCase (case : LowerCase) : AbsPath flavour → AbsPath flavour → Prop
  | .drive letter _ names, .drive other _ path =>
      case.lower [letter, ':'] = case.lower [other, ':'] ∧
      ∃ front rest, path = front ++ rest ∧ rest ≠ [] ∧
        (charsOf front).map case.lower = (charsOf names).map case.lower
  | _, _ => False

/-- A URI of a file that is not below the root is mapped to nothing. -/
def NullOutside (case : LowerCase) (root : AbsPath flavour) (uri : List Char)
    (path : AbsPath flavour) : Prop :=
  ¬ InsideUpToCase case root.resolve path.resolve → fromLspUri case (norm root.text) uri = none

/-- The path begins with the root, and its dot segments lead out again. -/
def Leaves (case : LowerCase) (root path : AbsPath flavour) : Prop :=
  InsideUpToCase case root path ∧ ¬ InsideUpToCase case root.resolve path.resolve

end Paths

section Splitting

lemma intercalate_cons {name : List Char} {names : List (List Char)} (h : names ≠ []) :
    ['/'].intercalate (name :: names) = name ++ '/' :: ['/'].intercalate names := by
  rw [List.intercalate_cons_of_ne_nil h, List.append_assoc]
  rfl

lemma intercalate_append {names rest : List (List Char)} (hne : names ≠ []) (hrest : rest ≠ []) :
    ['/'].intercalate (names ++ rest) =
      ['/'].intercalate names ++ '/' :: ['/'].intercalate rest := by
  induction names with
  | nil => exact absurd rfl hne
  | cons name names ih =>
      by_cases hnil : names = []
      · rw [hnil, List.singleton_append, intercalate_cons hrest, List.intercalate_singleton]
      · have hmore : names ++ rest ≠ [] := by simp [hnil]
        rw [List.cons_append, intercalate_cons hmore, ih hnil, intercalate_cons hnil,
          List.append_assoc, List.cons_append]

/-- The pieces after the slash of a path: an empty one if nothing follows. -/
def tail (names : List (List Char)) : List (List Char) := if names = [] then [[]] else names

lemma tail_ne_nil (names : List (List Char)) : tail names ≠ [] := by
  unfold tail
  by_cases h : names = []
  · rw [if_pos h]
    exact List.cons_ne_nil _ _
  · rw [if_neg h]
    exact h

lemma intercalate_tail (names : List (List Char)) :
    ['/'].intercalate (tail names) = ['/'].intercalate names := by
  unfold tail
  by_cases h : names = []
  · rw [if_pos h, h]
    rfl
  · rw [if_neg h]

lemma splitOn_tail {names : List (List Char)} (h : ∀ name ∈ names, '/' ∉ name) :
    (['/'].intercalate names).splitOn '/' = tail names := by
  rw [← intercalate_tail, List.splitOn_intercalate]
  · unfold tail
    by_cases hnil : names = []
    · rw [if_pos hnil]
      simp
    · rw [if_neg hnil]
      exact h
  · exact tail_ne_nil names

lemma splitOn_slash (text : List Char) : ('/' :: text).splitOn '/' = [] :: text.splitOn '/' := by
  have hsplit := List.splitOn_append_cons_self_of_not_mem (@List.not_mem_nil Char '/') text
  rw [List.nil_append] at hsplit
  exact hsplit

lemma splitOn_scheme (body : List Char) :
    (scheme ++ body).splitOn '/' = ['f', 'i', 'l', 'e', ':'] :: [] :: body.splitOn '/' := by
  have hfile : '/' ∉ ['f', 'i', 'l', 'e', ':'] := by decide
  have htext : scheme ++ body = ['f', 'i', 'l', 'e', ':'] ++ '/' :: ([] ++ '/' :: body) := rfl
  rw [htext, List.splitOn_append_cons_self_of_not_mem hfile,
    List.splitOn_append_cons_self_of_not_mem List.not_mem_nil]

/-- A list of names is a first part of another as their texts are, up to the next slash. -/
lemma intercalate_prefix_iff {names path : List (List Char)} (hnames : ∀ name ∈ names, '/' ∉ name)
    (hpath : ∀ name ∈ path, '/' ∉ name) (hne : names ≠ []) (hpathne : path ≠ []) :
    ['/'].intercalate names ++ ['/'] <+: ['/'].intercalate path ↔
      ∃ rest, path = names ++ rest ∧ rest ≠ [] := by
  constructor
  · rintro ⟨after, hafter⟩
    rw [List.append_assoc] at hafter
    have hrest := intercalate_append hne (List.splitOn_ne_nil '/' after)
    rw [List.intercalate_splitOn] at hrest
    refine ⟨after.splitOn '/', ?_, List.splitOn_ne_nil '/' after⟩
    have hsplit := List.splitOn_intercalate '/' hpath hpathne
    rw [← hafter] at hsplit
    rw [← hsplit]
    change (['/'].intercalate names ++ '/' :: after).splitOn '/' = _
    rw [← hrest, List.splitOn_intercalate]
    · intro piece hpiece
      rcases List.mem_append.mp hpiece with hpiece | hpiece
      · exact hnames piece hpiece
      · exact not_mem_of_mem_splitOn hpiece
    · simp [hne]
  · rintro ⟨rest, rfl, hrest⟩
    rw [intercalate_append hne hrest]
    exact ⟨['/'].intercalate rest, by simp⟩

end Splitting

section Segments

variable {flavour : Flavour}

lemma charsOf_append (names more : List (Name flavour)) :
    charsOf (names ++ more) = charsOf names ++ charsOf more := List.map_append

lemma slash_not_mem_charsOf {names : List (Name flavour)} :
    ∀ name ∈ charsOf names, '/' ∉ name := by
  intro name hname
  obtain ⟨original, _, rfl⟩ := List.mem_map.mp hname
  exact original.slash

open AbsPath (quote keepsQuoted namesOf)

lemma quote_slash (before after : List Char) :
    quote (before ++ '/' :: after) = quote before ++ '/' :: quote after := by
  rw [quote, Percent.encode_append]
  rfl

lemma decode_quote (name : List Char) : Percent.decodeOrSelf (quote name) = name :=
  Percent.decodeOrSelf_encode (by decide) name

lemma slash_not_mem_quote {name : List Char} (h : '/' ∉ name) : '/' ∉ quote name :=
  Percent.slash_not_mem_encode h

/-- The names of a quoted text are found again. -/
lemma decoded_quote {names : List (List Char)} (h : ∀ name ∈ names, '/' ∉ name) :
    ((quote (['/'].intercalate names)).splitOn '/').map Percent.decodeOrSelf = tail names := by
  have hquoted : ∀ name ∈ names.map quote, '/' ∉ name := by
    intro name hname
    obtain ⟨original, horiginal, rfl⟩ := List.mem_map.mp hname
    exact slash_not_mem_quote (h original horiginal)
  have hjoin : quote (['/'].intercalate names) = ['/'].intercalate (names.map quote) :=
    Percent.encode_intercalate (by decide) names
  rw [hjoin, splitOn_tail hquoted]
  unfold tail
  by_cases hnil : names = []
  · rw [hnil]
    rfl
  · have hmap : names.map quote ≠ [] := by simpa using hnil
    rw [if_neg hmap, if_neg hnil, List.map_map]
    conv_rhs => rw [← List.map_id names]
    apply List.map_congr_left
    intro name _
    exact decode_quote name

lemma decode_file : Percent.decodeOrSelf ['f', 'i', 'l', 'e', ':'] = ['f', 'i', 'l', 'e', ':'] :=
  Percent.decodeOrSelf_plain (by decide)

lemma decode_empty : Percent.decodeOrSelf [] = [] := Percent.decodeOrSelf_plain List.not_mem_nil

/-- What follows the scheme in the URI of a path, in pieces without their encoding. -/
def segments : AbsPath flavour → List (List Char)
  | .posix names => [] :: tail (charsOf names)
  | .drive letter _ names => [] :: [letter, ':'] :: tail (charsOf names)
  | .share server name names => server.chars :: name.chars :: tail (charsOf names)

lemma letter_plain {letter c : Char} (h : letter.isAlpha = true)
    (hc : c ∈ ['/', '%', '\\', ':']) : letter ≠ c := by
  rintro rfl
  simp only [List.mem_cons, List.not_mem_nil, or_false] at hc
  rcases hc with rfl | rfl | rfl | rfl <;> revert h <;> decide

lemma drive_plain {letter c : Char} (h : letter.isAlpha = true) (hc : c ∈ ['/', '%', '\\']) :
    c ∉ [letter, ':'] := by
  intro hmem
  simp only [List.mem_cons, List.not_mem_nil, or_false] at hmem
  rcases hmem with rfl | rfl
  · exact letter_plain h (List.mem_of_mem_take (i := 3) hc) rfl
  · revert hc
    decide

lemma decoded_asUri (path : AbsPath flavour) :
    (path.asUri.splitOn '/').map Percent.decodeOrSelf =
      ['f', 'i', 'l', 'e', ':'] :: [] :: segments path := by
  cases path with
  | posix names =>
      have hslash : quote ('/' :: ['/'].intercalate (charsOf names)) =
          '/' :: quote (['/'].intercalate (charsOf names)) := quote_slash [] _
      rw [AbsPath.asUri, splitOn_scheme, hslash, splitOn_slash, List.map_cons, List.map_cons,
        List.map_cons, decoded_quote slash_not_mem_charsOf, decode_file, decode_empty]
      rfl
  | drive letter hletter names =>
      have hslash : letter :: ':' :: quote ('/' :: ['/'].intercalate (charsOf names)) =
          [letter, ':'] ++ '/' :: quote (['/'].intercalate (charsOf names)) := by
        have hquote := quote_slash [] (['/'].intercalate (charsOf names))
        rw [List.nil_append] at hquote
        rw [hquote]
        rfl
      rw [AbsPath.asUri, splitOn_scheme, splitOn_slash, hslash,
        List.splitOn_append_cons_self_of_not_mem (drive_plain hletter (by decide)),
        List.map_cons, List.map_cons, List.map_cons, List.map_cons,
        decoded_quote slash_not_mem_charsOf, decode_file, decode_empty,
        Percent.decodeOrSelf_plain (drive_plain hletter (by decide))]
      rfl
  | share server name names =>
      rw [AbsPath.asUri, splitOn_scheme, quote_slash, quote_slash,
        List.splitOn_append_cons_self_of_not_mem (slash_not_mem_quote server.slash),
        List.splitOn_append_cons_self_of_not_mem (slash_not_mem_quote name.slash),
        List.map_cons, List.map_cons, List.map_cons, List.map_cons,
        decoded_quote slash_not_mem_charsOf, decode_file, decode_empty, decode_quote, decode_quote]
      rfl

/-- The URI of a path up to the slash in front of its names. -/
def base : AbsPath flavour → List Char
  | .posix _ => scheme
  | .drive letter _ _ => scheme ++ ['/', letter, ':']
  | .share server name _ => scheme ++ (quote server.chars ++ '/' :: quote name.chars)

lemma asUri_base (path : AbsPath flavour) :
    path.asUri = base path ++ '/' :: ['/'].intercalate ((charsOf (namesOf path)).map quote) := by
  have hjoin (names : List (List Char)) :
      quote (['/'].intercalate names) = ['/'].intercalate (names.map quote) :=
    Percent.encode_intercalate (by decide) names
  have hslash (text : List Char) : quote ('/' :: text) = '/' :: quote text := quote_slash [] text
  cases path with
  | posix names => rw [AbsPath.asUri, hslash, hjoin, base, namesOf]
  | drive letter hletter names =>
      rw [AbsPath.asUri, hslash, hjoin, base, namesOf, List.append_assoc]
      rfl
  | share server name names =>
      rw [AbsPath.asUri, quote_slash, quote_slash, hjoin, base, namesOf, List.append_assoc,
        List.append_assoc, List.cons_append]

lemma base_join (root : AbsPath flavour) (rel : RelPath flavour) :
    base (root.join rel) = base root ∧ namesOf (root.join rel) = namesOf root ++ rel.names := by
  cases root <;> exact ⟨rfl, rfl⟩

/-- A text of names does not end with a slash. -/
lemma getLast?_intercalate {names : List (List Char)} (hne : names ≠ [])
    (h : ∀ name ∈ names, name ≠ [] ∧ '/' ∉ name) :
    (['/'].intercalate names).getLast? ≠ some '/' ∧ ['/'].intercalate names ≠ [] := by
  obtain ⟨front, last, rfl⟩ : ∃ front last, names = front ++ [last] :=
    ⟨names.dropLast, names.getLast hne, (List.dropLast_append_getLast hne).symm⟩
  obtain ⟨hlast, hslash⟩ := h last (by simp)
  have hend : ∃ before, ['/'].intercalate (front ++ [last]) = before ++ last := by
    by_cases hfront : front = []
    · exact ⟨[], by rw [hfront]; simp⟩
    · refine ⟨['/'].intercalate front ++ ['/'], ?_⟩
      rw [intercalate_append hfront (List.cons_ne_nil _ _), List.intercalate_singleton,
        List.append_assoc]
      rfl
  obtain ⟨before, hbefore⟩ := hend
  rw [hbefore]
  constructor
  · intro heq
    rw [List.getLast?_append_of_ne_nil _ hlast] at heq
    exact hslash (List.mem_of_getLast? heq)
  · simp [hlast]

lemma charsOf_valid {names : List (Name flavour)} :
    ∀ name ∈ charsOf names, name ≠ [] ∧ '/' ∉ name := by
  intro name hname
  obtain ⟨original, _, rfl⟩ := List.mem_map.mp hname
  exact ⟨original.nonempty, original.slash⟩

/-- The URI that is made from the root's is that of the path. -/
lemma standardUri_eq (root : AbsPath flavour) (rel : RelPath flavour) :
    root.standardUri rel = (root.join rel).asUri := by
  obtain ⟨hbase, hnames⟩ := base_join root rel
  have hrel : quote rel.text = ['/'].intercalate ((charsOf rel.names).map quote) :=
    Percent.encode_intercalate (by decide) _
  have hrelne : (charsOf rel.names).map quote ≠ [] := by
    simpa [charsOf] using rel.nonempty
  rw [asUri_base (root.join rel), hbase, hnames, charsOf_append, List.map_append,
    AbsPath.standardUri, asUri_base root, hrel]
  by_cases hnil : (charsOf (namesOf root)).map quote = []
  · have hlast : (base root ++ '/' :: ['/'].intercalate
        ((charsOf (namesOf root)).map quote)).getLast? = some '/' := by
      rw [hnil]
      simp
    rw [if_pos hlast, hnil, List.nil_append, List.append_assoc]
    rfl
  · have hvalid : ∀ name ∈ (charsOf (namesOf root)).map quote, name ≠ [] ∧ '/' ∉ name := by
      intro name hname
      obtain ⟨original, horiginal, rfl⟩ := List.mem_map.mp hname
      obtain ⟨hne, hslash⟩ := charsOf_valid original horiginal
      refine ⟨?_, slash_not_mem_quote hslash⟩
      intro hquote
      have hdecode := decode_quote original
      rw [hquote, decode_empty] at hdecode
      exact hne hdecode.symm
    obtain ⟨hlast, hne⟩ := getLast?_intercalate hnil hvalid
    have hend : (base root ++ '/' :: ['/'].intercalate
        ((charsOf (namesOf root)).map quote)).getLast? ≠ some '/' := by
      rw [List.getLast?_append_of_ne_nil _ (List.cons_ne_nil _ _), List.getLast?_cons_of_ne_nil hne]
      exact hlast
    rw [if_neg hend, intercalate_append hnil hrelne]
    simp

lemma decoded_toLspUri (root rel : List Char) :
    ((toLspUri root rel).splitOn '/').map Percent.decodeOrSelf =
      ['f', 'i', 'l', 'e', ':'] :: [] :: [] :: (root ++ '/' :: rel).splitOn '/' := by
  have hpieces : ∀ piece ∈ ((root ++ '/' :: rel).splitOn '/').map (Percent.encode keepsComponent),
      '/' ∉ piece := by
    intro piece hpiece
    obtain ⟨original, horiginal, rfl⟩ := List.mem_map.mp hpiece
    exact Percent.slash_not_mem_encode (not_mem_of_mem_splitOn horiginal)
  have hne : ((root ++ '/' :: rel).splitOn '/').map (Percent.encode keepsComponent) ≠ [] := by
    simp
  have hdecode : (((root ++ '/' :: rel).splitOn '/').map (Percent.encode keepsComponent)).map
      Percent.decodeOrSelf = (root ++ '/' :: rel).splitOn '/' := by
    rw [List.map_map]
    conv_rhs => rw [← List.map_id ((root ++ '/' :: rel).splitOn '/')]
    apply List.map_congr_left
    intro piece _
    exact Percent.decodeOrSelf_encode (by decide) piece
  rw [toLspUri, splitOn_scheme, splitOn_slash, List.splitOn_intercalate '/' hpieces hne,
    List.map_cons, List.map_cons, List.map_cons, hdecode, decode_file, decode_empty]

end Segments

section Client

variable {flavour : Flavour} {case : LowerCase}

/-- The pieces of a path that the client is left with once it has taken the scheme off. -/
def remaining : AbsPath flavour → List (List Char)
  | .posix names => tail (charsOf names)
  | .drive letter _ names => [letter, ':'] :: tail (charsOf names)
  | .share server name names => server.chars :: name.chars :: tail (charsOf names)

lemma splitOn_nil_cons {body : List Char} {rest : List (List Char)}
    (h : body.splitOn '/' = [] :: rest) (hne : rest ≠ []) :
    ∃ after, body = '/' :: after ∧ after.splitOn '/' = rest := by
  have hjoin := @List.intercalate_splitOn Char body _ _ '/'
  rw [h, intercalate_cons hne, List.nil_append] at hjoin
  refine ⟨['/'].intercalate rest, hjoin.symm, ?_⟩
  rw [← hjoin, splitOn_slash, List.cons.injEq] at h
  exact h.2

/-- What the client reads of a URI depends on the path that it denotes alone. -/
lemma fromLspUri_denotes {uri root : List Char} {path : AbsPath flavour} (h : Denotes uri path) :
    fromLspUri case root uri =
      if ¬ case.lower root ++ ['/'] <+: case.lower (norm (['/'].intercalate (remaining path))) then
        none
      else some (slice (units root + 1) (norm (['/'].intercalate (remaining path)))) := by
  obtain ⟨⟨body, rfl⟩, hsame⟩ := h
  rw [SameUri, decoded_asUri, splitOn_scheme, List.map_cons, List.map_cons, decode_file,
    decode_empty] at hsame
  have hsegments := (List.cons.inj (List.cons.inj hsame).2).2
  have hdrop : (scheme ++ body).drop scheme.length = body := List.drop_left
  have hfirst (first : List Char) (rest : List (List Char))
      (hsplit : body.splitOn '/' = first :: rest) (hdecode : Percent.decodeOrSelf first = [])
      (hne : rest ≠ []) :
      ∃ after, body = '/' :: after ∧ after.splitOn '/' = rest := by
    rw [Percent.decodeOrSelf_eq_nil hdecode] at hsplit
    exact splitOn_nil_cons hsplit hne
  have hbody : ∃ text, (match body with
      | '/' :: rest => rest
      | rest => rest) = text ∧ (text.splitOn '/').map Percent.decodeOrSelf = remaining path := by
    obtain ⟨first, rest, hsplit⟩ := List.exists_cons_of_ne_nil (List.splitOn_ne_nil '/' body)
    rw [hsplit, List.map_cons] at hsegments
    cases path with
    | posix names =>
        rw [segments, List.cons.injEq] at hsegments
        have hne : rest ≠ [] := by
          rintro rfl
          exact tail_ne_nil _ hsegments.2.symm
        obtain ⟨after, rfl, hafter⟩ := hfirst first rest hsplit hsegments.1 hne
        exact ⟨after, rfl, by rw [hafter]; exact hsegments.2⟩
    | drive letter hletter names =>
        rw [segments, List.cons.injEq] at hsegments
        have hne : rest ≠ [] := by
          rintro rfl
          exact List.cons_ne_nil _ _ hsegments.2.symm
        obtain ⟨after, rfl, hafter⟩ := hfirst first rest hsplit hsegments.1 hne
        exact ⟨after, rfl, by rw [hafter]; exact hsegments.2⟩
    | share server name names =>
        refine ⟨body, ?_, by rw [hsplit, List.map_cons]; exact hsegments⟩
        split
        · rw [segments, List.cons.injEq] at hsegments
          rw [splitOn_slash, List.cons.injEq] at hsplit
          rw [← hsplit.1, decode_empty] at hsegments
          exact absurd hsegments.1.symm server.nonempty
        · rfl
  obtain ⟨text, htext, hremaining⟩ := hbody
  rw [fromLspUri, if_neg (by simp), hdrop]
  simp only [htext, hremaining]

lemma mem_intercalate {c sep : Char} {names : List (List Char)} (h : c ∈ [sep].intercalate names) :
    c = sep ∨ ∃ name ∈ names, c ∈ name := by
  induction names with
  | nil => simp at h
  | cons name names ih =>
      by_cases hnil : names = []
      · rw [hnil, List.intercalate_singleton] at h
        exact Or.inr ⟨name, List.mem_cons_self, h⟩
      · rw [List.intercalate_cons_of_ne_nil hnil, List.append_assoc, List.mem_append,
          List.mem_append, List.mem_singleton] at h
        rcases h with h | h | h
        · exact Or.inr ⟨name, List.mem_cons_self, h⟩
        · exact Or.inl h
        · rcases ih h with h | ⟨other, hother, hc⟩
          · exact Or.inl h
          · exact Or.inr ⟨other, List.mem_cons_of_mem _ hother, hc⟩

lemma map_slash_self {text : List Char} (h : '\\' ∉ text) :
    (text.map fun c => if c = '\\' then '/' else c) = text := by
  conv_rhs => rw [← List.map_id text]
  apply List.map_congr_left
  intro c hc
  rw [if_neg (by rintro rfl; exact h hc)]
  rfl

/-- Names between backslashes become names between slashes. -/
lemma map_slash_intercalate {names : List (List Char)} (h : ∀ name ∈ names, '\\' ∉ name) :
    ((['\\'].intercalate names).map fun c => if c = '\\' then '/' else c) =
      ['/'].intercalate names := by
  induction names with
  | nil => rfl
  | cons name names ih =>
      have hname := map_slash_self (h name List.mem_cons_self)
      have hnames := ih fun other hother => h other (List.mem_cons_of_mem _ hother)
      by_cases hnil : names = []
      · rw [hnil, List.intercalate_singleton, List.intercalate_singleton, hname]
      · rw [List.intercalate_cons_of_ne_nil hnil, List.intercalate_cons_of_ne_nil hnil,
          List.map_append, List.map_append, hname, hnames]
        rfl

/-- A normal text of names: no slash at its end, and no backslash. -/
lemma norm_names {front names : List (List Char)} (hne : front ≠ [])
    (hfront : ∀ name ∈ front, name ≠ [] ∧ '/' ∉ name ∧ '\\' ∉ name)
    (hnames : ∀ name ∈ names, name ≠ [] ∧ '/' ∉ name ∧ '\\' ∉ name) :
    norm (['/'].intercalate (front ++ tail names)) = ['/'].intercalate (front ++ names) := by
  have hall : ∀ name ∈ front ++ names, name ≠ [] ∧ '/' ∉ name ∧ '\\' ∉ name := by
    intro name hname
    rcases List.mem_append.mp hname with hname | hname
    · exact hfront name hname
    · exact hnames name hname
  have hback : '\\' ∉ ['/'].intercalate (front ++ names) := by
    intro hmem
    rcases mem_intercalate hmem with heq | ⟨name, hname, hc⟩
    · exact absurd heq (by decide)
    · exact (hall name hname).2.2 hc
  have hboth : front ++ names ≠ [] := by simp [hne]
  have hlast := (getLast?_intercalate hboth
    (fun name hname => ⟨(hall name hname).1, (hall name hname).2.1⟩)).1
  have hkeep : (['/'].intercalate (front ++ names)).rdropWhile (· = '/') =
      ['/'].intercalate (front ++ names) := by
    rw [List.rdropWhile_eq_self_iff]
    intro hnonempty hslash
    apply hlast
    rw [List.getLast?_eq_some_getLast hnonempty]
    exact congrArg some (of_decide_eq_true hslash)
  by_cases hnil : names = []
  · have htext : ['/'].intercalate (front ++ tail names) =
        ['/'].intercalate (front ++ names) ++ ['/'] := by
      rw [hnil, tail, if_pos rfl, intercalate_append hne (List.cons_ne_nil _ _), List.append_nil]
      rfl
    rw [htext, norm, List.map_append, map_slash_self hback]
    change List.rdropWhile _ (['/'].intercalate (front ++ names) ++ ['/']) = _
    rw [List.rdropWhile_concat_pos _ _ _ (by decide), hkeep]
  · rw [tail, if_neg hnil, norm, map_slash_self hback, hkeep]

/-- The names of a path of Windows, the drive or the server first. -/
def winNames : AbsPath .windows → List (List Char)
  | .drive letter _ names => [letter, ':'] :: charsOf names
  | .share server name names => server.chars :: name.chars :: charsOf names

lemma winNames_valid (path : AbsPath .windows) :
    ∀ name ∈ winNames path, name ≠ [] ∧ '/' ∉ name ∧ '\\' ∉ name := by
  have hchars : ∀ names : List (Name .windows), ∀ name ∈ charsOf names,
      name ≠ [] ∧ '/' ∉ name ∧ '\\' ∉ name := by
    intro names name hname
    obtain ⟨original, _, rfl⟩ := List.mem_map.mp hname
    exact ⟨original.nonempty, original.slash, original.backslash rfl⟩
  intro name hname
  cases path with
  | drive letter hletter names =>
      rcases List.mem_cons.mp hname with rfl | hname
      · exact ⟨List.cons_ne_nil _ _, drive_plain hletter (by decide),
          drive_plain hletter (by decide)⟩
      · exact hchars names name hname
  | share server other names =>
      rcases List.mem_cons.mp hname with rfl | hname
      · exact ⟨server.nonempty, server.slash, server.backslash rfl⟩
      · rcases List.mem_cons.mp hname with rfl | hname
        · exact ⟨other.nonempty, other.slash, other.backslash rfl⟩
        · exact hchars names name hname

lemma winNames_ne_nil (path : AbsPath .windows) : winNames path ≠ [] := by
  cases path <;> exact List.cons_ne_nil _ _

lemma norm_remaining (path : AbsPath .windows) :
    norm (['/'].intercalate (remaining path)) = ['/'].intercalate (winNames path) := by
  have hvalid := winNames_valid path
  cases path with
  | drive letter hletter names =>
      have hparts := List.forall_mem_cons.mp hvalid
      exact @norm_names [[letter, ':']] _ (List.cons_ne_nil _ _) (by simpa using hparts.1) hparts.2
  | share server name names =>
      have hparts := List.forall_mem_cons.mp hvalid
      have hrest := List.forall_mem_cons.mp hparts.2
      exact @norm_names [server.chars, name.chars] _ (List.cons_ne_nil _ _)
        (by simpa using ⟨hparts.1, hrest.1⟩) hrest.2

lemma norm_drive {letter : Char} (hletter : letter.isAlpha = true) (names : List (Name .windows)) :
    norm (AbsPath.drive letter hletter names).text =
      ['/'].intercalate ([letter, ':'] :: charsOf names) := by
  have hback : ∀ name ∈ charsOf names, '\\' ∉ name := fun name hname =>
    (winNames_valid (.drive letter hletter names) name (List.mem_cons_of_mem _ hname)).2.2
  have hplain : letter ≠ '\\' := letter_plain hletter (by decide)
  have hmap : ((AbsPath.drive letter hletter names).text.map
      fun c => if c = '\\' then '/' else c) =
        ['/'].intercalate ([letter, ':'] :: tail (charsOf names)) := by
    rw [intercalate_cons (tail_ne_nil _), intercalate_tail, AbsPath.text, List.map_cons,
      List.map_cons, List.map_cons, map_slash_intercalate hback, if_neg hplain]
    rfl
  have hback' : '\\' ∉ ['/'].intercalate ([letter, ':'] :: tail (charsOf names)) := by
    intro hmem
    rw [← hmap] at hmem
    obtain ⟨c, _, hc⟩ := List.mem_map.mp hmem
    by_cases heq : c = '\\'
    · rw [if_pos heq] at hc
      exact absurd hc (by decide)
    · rw [if_neg heq] at hc
      exact heq hc
  have hnorm := norm_remaining (.drive letter hletter names)
  rw [remaining, norm, map_slash_self hback'] at hnorm
  rw [norm, hmap]
  exact hnorm

lemma lower_intercalate {names : List (List Char)} (hne : names ≠ []) :
    case.lower (['/'].intercalate names) = ['/'].intercalate (names.map case.lower) := by
  induction names with
  | nil => exact absurd rfl hne
  | cons name names ih =>
      by_cases hnil : names = []
      · rw [hnil]
        simp
      · have hmap : names.map case.lower ≠ [] := by simpa using hnil
        rw [intercalate_cons hnil, case.slash, ih hnil, List.map_cons, intercalate_cons hmap]

/-- The texts compare as the names do. -/
lemma lower_prefix_iff (root path : AbsPath .windows) :
    case.lower (['/'].intercalate (winNames root)) ++ ['/'] <+:
        case.lower (['/'].intercalate (winNames path)) ↔
      ∃ rest, (winNames path).map case.lower = (winNames root).map case.lower ++ rest ∧
        rest ≠ [] := by
  have hslash (names : List (List Char)) (h : ∀ name ∈ names, '/' ∉ name) :
      ∀ name ∈ names.map case.lower, '/' ∉ name := by
    intro name hname
    obtain ⟨original, horiginal, rfl⟩ := List.mem_map.mp hname
    rw [case.keeps original '/' (by decide)]
    exact h original horiginal
  rw [lower_intercalate (winNames_ne_nil root), lower_intercalate (winNames_ne_nil path)]
  apply intercalate_prefix_iff
  · exact hslash _ fun name hname => (winNames_valid root name hname).2.1
  · exact hslash _ fun name hname => (winNames_valid path name hname).2.1
  · simpa using winNames_ne_nil root
  · simpa using winNames_ne_nil path

lemma inside_iff {letter : Char} (hletter : letter.isAlpha = true) (names : List (Name .windows))
    (path : AbsPath .windows) :
    InsideUpToCase case (.drive letter hletter names) path ↔
      ∃ rest, (winNames path).map case.lower =
        (winNames (.drive letter hletter names)).map case.lower ++ rest ∧ rest ≠ [] := by
  cases path with
  | drive other hother names' =>
      constructor
      · rintro ⟨hdrive, front, rest, rfl, hrest, hnames⟩
        refine ⟨(charsOf rest).map case.lower, ?_, by simpa [charsOf] using hrest⟩
        rw [winNames, winNames, List.map_cons, List.map_cons, hdrive, charsOf_append,
          List.map_append, hnames, List.cons_append]
      · rintro ⟨rest, hmap, hrest⟩
        rw [winNames, winNames, List.map_cons, List.map_cons, List.cons_append,
          List.cons.injEq] at hmap
        obtain ⟨front, back, hsplit, hfront, hback⟩ := List.map_eq_append_iff.mp hmap.2
        obtain ⟨front', back', rfl, rfl, rfl⟩ := List.map_eq_append_iff.mp hsplit
        refine ⟨hmap.1.symm, front', back', rfl, ?_, hfront⟩
        rintro rfl
        exact hrest hback.symm
  | share server name names' =>
      constructor
      · intro h
        cases h
      · rintro ⟨rest, hmap, _⟩
        rw [winNames, winNames, List.map_cons, List.map_cons, List.map_cons, List.cons_append,
          List.cons.injEq] at hmap
        have hcolon : ':' ∈ case.lower [letter, ':'] :=
          (case.keeps _ ':' (by decide)).mpr (by simp)
        rw [← hmap.1, case.keeps _ ':' (by decide)] at hcolon
        exact absurd hcolon (server.colon rfl)

/-- Under a root on a drive the client finds the files below the root and no others. -/
lemma fromLspUri_drive {letter : Char} (hletter : letter.isAlpha = true)
    (names : List (Name .windows)) {uri : List Char} {path : AbsPath .windows}
    (h : Denotes uri path) :
    fromLspUri case (norm (AbsPath.drive letter hletter names).text) uri = none ↔
      ¬ InsideUpToCase case (.drive letter hletter names) path := by
  rw [fromLspUri_denotes h, norm_remaining, norm_drive hletter, inside_iff, ← lower_prefix_iff]
  change (if _ then none else some _) = none ↔ _
  by_cases hinside :
      case.lower (['/'].intercalate (winNames (.drive letter hletter names))) ++ ['/'] <+:
        case.lower (['/'].intercalate (winNames path))
  · have hshown := hinside
    rw [winNames] at hshown
    rw [if_neg (by simpa using hshown)]
    simp [hinside]
  · have hshown := hinside
    rw [winNames] at hshown
    rw [if_pos hshown]
    simp [hinside]

lemma slice_units (text rest : List Char) : slice (units text) (text ++ rest) = rest := by
  induction text with
  | nil => cases rest <;> rfl
  | cons c text ih =>
      by_cases hc : c.toNat < 0x10000
      · have hunits : units (c :: text) = units text + 1 := by
          simp [units, hc, Nat.add_comm]
        rw [hunits, List.cons_append]
        unfold slice
        rw [if_pos hc, ih]
      · have hunits : units (c :: text) = units text + 1 + 1 := by
          simp only [units, List.map_cons, List.sum_cons, hc, if_false]
          omega
        rw [hunits, List.cons_append]
        unfold slice
        rw [if_neg hc]
        exact ih

lemma units_slash (text : List Char) : units text + 1 = units (text ++ ['/']) := by
  have hslash : ((if '/'.toNat < 0x10000 then 1 else 2 : ℕ)) = 1 := by decide
  rw [units, units, List.map_append, List.sum_append, List.map_singleton, List.sum_singleton,
    hslash]

/-- Under a root on a drive a file's URI is found again, however it is encoded. -/
lemma fromLspUri_join {letter : Char} (hletter : letter.isAlpha = true)
    (names : List (Name .windows)) (rel : RelPath .windows) {uri : List Char}
    (h : Denotes uri ((AbsPath.drive letter hletter names).join rel)) :
    fromLspUri case (norm (AbsPath.drive letter hletter names).text) uri = some rel.text := by
  have hrel : charsOf rel.names ≠ [] := by
    simpa [charsOf] using rel.nonempty
  have hjoin : winNames ((AbsPath.drive letter hletter names).join rel) =
      winNames (.drive letter hletter names) ++ charsOf rel.names := by
    rw [AbsPath.join, winNames, winNames, charsOf_append, List.cons_append]
  have hroot := winNames_ne_nil (.drive letter hletter names)
  have hinside :
      case.lower (['/'].intercalate (winNames (.drive letter hletter names))) ++ ['/'] <+:
        case.lower (['/'].intercalate
          (winNames ((AbsPath.drive letter hletter names).join rel))) := by
    rw [lower_prefix_iff, hjoin, List.map_append]
    exact ⟨_, rfl, by simpa using hrel⟩
  rw [fromLspUri_denotes h, norm_remaining, norm_drive hletter]
  rw [winNames] at hinside
  rw [if_neg (by simpa using hinside), hjoin, intercalate_append hroot hrel, winNames, units_slash]
  have hslice := slice_units (['/'].intercalate ([letter, ':'] :: charsOf names) ++ ['/'])
    (['/'].intercalate (charsOf rel.names))
  rw [List.append_assoc] at hslice
  exact congrArg some hslice

lemma norm_head {c : Char} (hc : c = '/' ∨ c = '\\') (text : List Char) (rest : List Char) :
    ∃ after, norm (c :: text) ++ '/' :: rest = '/' :: after := by
  have hmap : ((c :: text).map fun c => if c = '\\' then '/' else c) =
      '/' :: text.map fun c => if c = '\\' then '/' else c := by
    rcases hc with rfl | rfl <;> rfl
  have hprefix := List.rdropWhile_prefix (fun c => decide (c = '/'))
    (l := '/' :: text.map fun c => if c = '\\' then '/' else c)
  rw [norm, hmap]
  cases hnorm : ('/' :: text.map fun c => if c = '\\' then '/' else c).rdropWhile (· = '/') with
  | nil => exact ⟨rest, rfl⟩
  | cons d more =>
      rw [hnorm] at hprefix
      have hd : d = '/' := (List.cons_prefix_cons.mp hprefix).1
      exact ⟨more ++ '/' :: rest, by rw [hd]; rfl⟩

lemma resolveNames_plain {names : List (Name flavour)} (h : ∀ name ∈ names, name.isDots = false) :
    resolveNames names = names := by
  have hkept (kept : List (Name flavour)) :
      names.foldl (fun kept name =>
        if name.chars = ['.'] then kept
        else if name.chars = ['.', '.'] then kept.dropLast
        else kept ++ [name]) kept = kept ++ names := by
    induction names generalizing kept with
    | nil => rw [List.foldl_nil, List.append_nil]
    | cons name names ih =>
        have hname := h name List.mem_cons_self
        rw [Name.isDots, Bool.or_eq_false_iff, decide_eq_false_iff_not,
          decide_eq_false_iff_not] at hname
        rw [List.foldl_cons, if_neg hname.1, if_neg hname.2,
          ih fun other hother => h other (List.mem_cons_of_mem _ hother), List.append_assoc]
        rfl
  exact hkept []

lemma resolve_plain {path : AbsPath flavour} (h : path.NoDots) : path.resolve = path := by
  cases path with
  | posix names => exact congrArg AbsPath.posix (resolveNames_plain h)
  | drive letter hletter names =>
      exact congrArg (AbsPath.drive letter hletter) (resolveNames_plain h)
  | share server name names =>
      exact congrArg (AbsPath.share server name) (resolveNames_plain h)

end Client

section Samples

def asciiLower (c : Char) : Char :=
  if 65 ≤ c.toNat ∧ c.toNat ≤ 90 then Char.ofNat (c.toNat + 32) else c

lemma asciiLower_mark {c d : Char} (hd : d ∈ ['/', ':']) : asciiLower c = d ↔ c = d := by
  have hletters : ∀ n < 26, Char.ofNat (n + 97) ∉ ['/', ':'] := by decide
  constructor
  · intro h
    rw [asciiLower] at h
    by_cases hupper : 65 ≤ c.toNat ∧ c.toNat ≤ 90
    · have hletter := hletters (c.toNat - 65) (by omega)
      have hcode : c.toNat - 65 + 97 = c.toNat + 32 := by omega
      rw [if_pos hupper] at h
      rw [hcode, h] at hletter
      exact absurd hd hletter
    · rwa [if_neg hupper] at h
  · rintro rfl
    simp only [List.mem_cons, List.not_mem_nil, or_false] at hd
    rcases hd with rfl | rfl <;> rfl

/-- The letters of ASCII in lower case. -/
def asciiCase : LowerCase where
  lower := List.map asciiLower
  nil := rfl
  slash before after := by rw [List.map_append]; rfl
  keeps text c hc := by
    constructor
    · intro hmem
      obtain ⟨d, hd, hlower⟩ := List.mem_map.mp hmem
      rwa [← (asciiLower_mark hc).mp hlower]
    · intro hmem
      exact List.mem_map.mpr ⟨c, hmem, (asciiLower_mark hc).mpr rfl⟩

def sampleName (flavour : Flavour) : Name flavour :=
  ⟨['p'], by decide, by decide, fun _ => by decide, fun _ => by decide⟩

def sampleRel (flavour : Flavour) : RelPath flavour := ⟨[sampleName flavour], List.cons_ne_nil _ _⟩

def upName : Name .windows :=
  ⟨['.', '.'], by decide, by decide, fun _ => by decide, fun _ => by decide⟩

def otherName : Name .windows :=
  ⟨['q'], by decide, by decide, fun _ => by decide, fun _ => by decide⟩

end Samples

end Imece.WebUi
