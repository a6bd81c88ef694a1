import Imece.CollabRuntime.CanonicalJson
import Imece.Lib.PathTree

/-!
# Paths of scopes and of proposals

Both are relative, are cleaned of empty and `.` parts, and reject drive letters in the
spelling they are given. What cleaning leaves is clean, but may start with a drive
letter that the spelling had behind a `.` part.
-/
namespace Imece.CollabRuntime

open Lib

section Parts

/-- A path with backslashes folded. -/
def slashed (raw : List Char) : List Char := raw.map fun c => if c = '\\' then '/' else c

def pathParts (normalized : List Char) : List (List Char) :=
  (normalized.splitOn '/').filter fun p => decide (p ≠ [] ∧ p ≠ ['.'])

def joinParts (parts : List (List Char)) : List Char := ['/'].intercalate parts

/-- `^[a-zA-Z]:` -/
def hasDrive : List Char → Bool
  | letter :: ':' :: _ =>
      decide (('a' ≤ letter ∧ letter ≤ 'z') ∨ ('A' ≤ letter ∧ letter ≤ 'Z'))
  | _ => false

/-- `str.casefold`, as far as the ASCII names it is compared with can tell. -/
def casefold (part : List Char) : List Char :=
  part.map fun c =>
    if c = Char.ofNat 0x17F then 's' else if c = Char.ofNat 0x212A then 'k' else c.toLower

lemma mem_slashed {c : Char} {raw : List Char} (h : c ∈ slashed raw) : c = '/' ∨ c ∈ raw := by
  obtain ⟨d, hd, rfl⟩ := List.mem_map.mp h
  by_cases hback : d = '\\'
  · exact Or.inl (if_pos hback)
  · rw [if_neg hback]
    exact Or.inr hd

lemma backslash_not_mem_slashed (raw : List Char) : '\\' ∉ slashed raw := by
  intro h
  obtain ⟨d, -, hd⟩ := List.mem_map.mp h
  by_cases hback : d = '\\'
  · rw [if_pos hback] at hd
    exact absurd hd (by decide)
  · rw [if_neg hback] at hd
    exact hback hd

lemma slashed_eq_self {raw : List Char} (h : '\\' ∉ raw) : slashed raw = raw := by
  rw [slashed, List.map_congr_left (g := id), List.map_id]
  intro c hc
  rw [if_neg, id]
  rintro rfl
  exact h hc

/-- The parts of a path that needs no cleaning. -/
structure CleanParts (parts : List (List Char)) : Prop where
  nonempty : parts ≠ []
  named : ∀ p ∈ parts, p ≠ [] ∧ p ≠ ['.']
  whole : ∀ p ∈ parts, '/' ∉ p
  folded : ∀ p ∈ parts, '\\' ∉ p

lemma joinParts_cons {part : List Char} {parts : List (List Char)} (h : parts ≠ []) :
    joinParts (part :: parts) = part ++ '/' :: joinParts parts := by
  rw [joinParts, List.intercalate_cons_of_ne_nil h, List.append_assoc, List.singleton_append,
    joinParts]

lemma sublist_joinParts {part : List Char} {parts : List (List Char)} (h : part ∈ parts) :
    part.Sublist (joinParts parts) := by
  induction parts with
  | nil => cases h
  | cons first rest ih =>
      by_cases hrest : rest = []
      · subst hrest
        rw [List.mem_singleton.mp h, joinParts, List.intercalate_singleton]
      · rw [joinParts_cons hrest]
        rcases List.mem_cons.mp h with rfl | h
        · exact List.sublist_append_left _ _
        · exact (ih h).trans (((List.Sublist.refl _).cons _).trans (List.sublist_append_right _ _))

/-- Parts that are left out leave a part of the path. -/
lemma joinParts_filter_sublist (keep : List Char → Bool) (parts : List (List Char)) :
    (joinParts (parts.filter keep)).Sublist (joinParts parts) := by
  induction parts with
  | nil => exact List.Sublist.refl _
  | cons first rest ih =>
      by_cases hrest : rest = []
      · subst hrest
        by_cases hkeep : keep first
        · rw [List.filter_cons_of_pos hkeep, List.filter_nil]
        · rw [List.filter_cons_of_neg hkeep, List.filter_nil]
          exact List.nil_sublist _
      · rw [joinParts_cons hrest]
        by_cases hkeep : keep first
        · rw [List.filter_cons_of_pos hkeep]
          by_cases hnone : rest.filter keep = []
          · rw [hnone, joinParts, List.intercalate_singleton]
            exact List.sublist_append_left _ _
          · rw [joinParts_cons hnone]
            exact (List.Sublist.refl first).append (ih.cons_cons '/')
        · rw [List.filter_cons_of_neg hkeep]
          exact (ih.cons '/').trans (List.sublist_append_right _ _)

lemma cleanParts_pathParts {raw : List Char} (h : pathParts (slashed raw) ≠ []) :
    CleanParts (pathParts (slashed raw)) where
  nonempty := h
  named p hp := by
    rw [pathParts, List.mem_filter, decide_eq_true_eq] at hp
    exact hp.2
  whole p hp := by
    rw [pathParts, List.mem_filter] at hp
    exact not_mem_of_mem_splitOn hp.1
  folded p hp := by
    rw [pathParts, List.mem_filter] at hp
    have hsub := sublist_joinParts hp.1
    rw [joinParts, List.intercalate_splitOn] at hsub
    intro hback
    exact backslash_not_mem_slashed raw (hsub.subset hback)

/-- A clean path: its parts, and a slash at its end where it names a directory. -/
def cleanPath (parts : List (List Char)) (directory : Bool) : List Char :=
  if directory then joinParts parts ++ ['/'] else joinParts parts

def namesDirectory (normalized : List Char) : Bool := normalized.getLast? = some '/'

lemma splitOn_slash_end (body : List Char) :
    (body ++ ['/']).splitOn '/' = body.splitOn '/' ++ [[]] := by
  rw [List.splitOn_append_cons_self, List.splitOn_nil]

lemma namesDirectory_iff {normalized : List Char} :
    namesDirectory normalized = true ↔ ∃ body, normalized = body ++ ['/'] := by
  rw [namesDirectory, decide_eq_true_eq, List.getLast?_eq_some_iff]

lemma pathParts_slash_end (body : List Char) : pathParts (body ++ ['/']) = pathParts body := by
  rw [pathParts, splitOn_slash_end, List.filter_append, pathParts]
  exact List.append_nil _

/-- Cleaning only leaves characters out. -/
lemma cleanPath_sublist (normalized : List Char) :
    (cleanPath (pathParts normalized) (namesDirectory normalized)).Sublist normalized := by
  have hsub (text : List Char) : (joinParts (pathParts text)).Sublist text := by
    have hfilter := joinParts_filter_sublist (fun p => decide (p ≠ [] ∧ p ≠ ['.']))
      (text.splitOn '/')
    rwa [show joinParts (text.splitOn '/') = text from List.intercalate_splitOn '/'] at hfilter
  unfold cleanPath
  by_cases hdirectory : namesDirectory normalized = true
  · rw [if_pos hdirectory]
    obtain ⟨body, rfl⟩ := namesDirectory_iff.mp hdirectory
    rw [pathParts_slash_end]
    exact (hsub body).append (List.Sublist.refl _)
  · rw [if_neg hdirectory]
    exact hsub normalized

lemma mem_joinParts {c : Char} {parts : List (List Char)} (h : c ∈ joinParts parts) :
    c = '/' ∨ ∃ p ∈ parts, c ∈ p := by
  induction parts with
  | nil => cases h
  | cons first rest ih =>
      by_cases hrest : rest = []
      · subst hrest
        rw [joinParts, List.intercalate_singleton] at h
        exact Or.inr ⟨first, List.mem_cons_self, h⟩
      · rw [joinParts_cons hrest, List.mem_append, List.mem_cons] at h
        rcases h with h | rfl | h
        · exact Or.inr ⟨first, List.mem_cons_self, h⟩
        · exact Or.inl rfl
        · obtain rfl | ⟨p, hp, hc⟩ := ih h
          · exact Or.inl rfl
          · exact Or.inr ⟨p, List.mem_cons_of_mem first hp, hc⟩

namespace CleanParts

variable {parts : List (List Char)}

lemma head_cleanPath (h : CleanParts parts) (directory : Bool) :
    ∃ c rest, cleanPath parts directory = c :: rest ∧ c ≠ '/' := by
  obtain ⟨first, rest, rfl⟩ := List.exists_cons_of_ne_nil h.nonempty
  obtain ⟨c, part, rfl⟩ := List.exists_cons_of_ne_nil (h.named first List.mem_cons_self).1
  have hc : c ≠ '/' := fun hc => h.whole _ List.mem_cons_self (hc ▸ List.mem_cons_self)
  have hjoin : ∃ tail, joinParts ((c :: part) :: rest) = c :: tail := by
    by_cases hrest : rest = []
    · subst hrest
      exact ⟨part, List.intercalate_singleton⟩
    · exact ⟨_, joinParts_cons hrest⟩
  obtain ⟨tail, htail⟩ := hjoin
  rw [cleanPath, htail]
  cases directory with
  | false => exact ⟨c, tail, rfl, hc⟩
  | true => exact ⟨c, tail ++ ['/'], rfl, hc⟩

lemma slashed_cleanPath (h : CleanParts parts) (directory : Bool) :
    slashed (cleanPath parts directory) = cleanPath parts directory := by
  have hjoin : '\\' ∉ joinParts parts := by
    intro hmem
    obtain hslash | ⟨p, hp, hc⟩ := mem_joinParts hmem
    · exact absurd hslash (by decide)
    · exact h.folded p hp hc
  refine slashed_eq_self ?_
  cases directory with
  | false => exact hjoin
  | true =>
      rw [cleanPath, if_pos rfl, List.mem_append, not_or]
      exact ⟨hjoin, by decide⟩

lemma splitOn_joinParts (h : CleanParts parts) : (joinParts parts).splitOn '/' = parts :=
  List.splitOn_intercalate '/' h.whole h.nonempty

lemma pathParts_cleanPath (h : CleanParts parts) (directory : Bool) :
    pathParts (cleanPath parts directory) = parts := by
  have hjoin : pathParts (joinParts parts) = parts := by
    rw [pathParts, h.splitOn_joinParts, List.filter_eq_self]
    intro p hp
    rw [decide_eq_true_eq]
    exact h.named p hp
  cases directory with
  | false => exact hjoin
  | true =>
      rw [cleanPath, if_pos rfl, pathParts_slash_end]
      exact hjoin

lemma namesDirectory_cleanPath (h : CleanParts parts) (directory : Bool) :
    namesDirectory (cleanPath parts directory) = directory := by
  cases directory with
  | false =>
      rw [← Bool.not_eq_true, namesDirectory_iff]
      rintro ⟨body, hbody⟩
      have hsplit := h.splitOn_joinParts
      rw [show joinParts parts = body ++ ['/'] from hbody, splitOn_slash_end] at hsplit
      have hempty : [] ∈ parts := by
        rw [← hsplit]
        exact List.mem_append_right _ List.mem_cons_self
      exact (h.named [] hempty).1 rfl
  | true => exact namesDirectory_iff.mpr ⟨_, rfl⟩

end CleanParts

end Parts

section Policies

/-- What a path must satisfy, and how each failure is worded. -/
structure PathPolicy where
  badChar : Char → Bool
  maxChars : ℕ
  reserved : List (List Char)
  notString : String
  badChars : String
  tooLong : String
  absolute : String
  drive : String
  glob : String
  empty : String
  parent : String
  reference : String
  slash_fine : badChar '/' = false

def maxScopeChars : ℕ := 512

lemma lawfulBEq_part : LawfulBEq (List Char) := inferInstance

attribute [local instance] lawfulBEq_part

variable (policy : PathPolicy)

/-- The checks that scopes and proposals share, in their order: what is left is the
folded path and its parts. -/
def PathPolicy.check (value : Json) : Except CollabError (List Char × List (List Char)) :=
  match value with
  | .str text =>
      let raw := text.toList
      if raw.any policy.badChar then .error (.validation policy.badChars)
      else if policy.maxChars < raw.length then .error (.validation policy.tooLong)
      else
        let normalized := slashed raw
        if normalized.head? = some '/' then .error (.validation policy.absolute)
        else if hasDrive normalized then .error (.validation policy.drive)
        else if normalized.any (fun ch => ch == '*' || ch == '?' || ch == '[') then
          .error (.validation policy.glob)
        else
          let parts := pathParts normalized
          if parts = [] then .error (.validation policy.empty)
          else if ['.', '.'] ∈ parts then .error (.validation policy.parent)
          else if parts.any (fun p => casefold p ∈ policy.reserved) then
            .error (.validation policy.reference)
          else .ok (normalized, parts)
  | _ => .error (.validation policy.notString)

/-- What the shared checks establish. -/
structure PathPolicy.Accepts (raw : List Char) : Prop where
  chars : ∀ c ∈ raw, policy.badChar c = false
  length : raw.length ≤ policy.maxChars
  relative : (slashed raw).head? ≠ some '/'
  noDrive : hasDrive (slashed raw) = false
  noGlob : ∀ c ∈ slashed raw, c ≠ '*' ∧ c ≠ '?' ∧ c ≠ '['
  nonempty : pathParts (slashed raw) ≠ []
  noParent : ['.', '.'] ∉ pathParts (slashed raw)
  unreserved : ∀ p ∈ pathParts (slashed raw), casefold p ∉ policy.reserved

variable {policy}

theorem PathPolicy.check_eq_ok {value : Json} {normalized : List Char}
    {parts : List (List Char)} :
    policy.check value = .ok (normalized, parts) ↔
      ∃ text, value = .str text ∧ policy.Accepts text.toList ∧
        normalized = slashed text.toList ∧ parts = pathParts normalized := by
  cases value with
  | str text =>
      constructor
      · intro h
        simp only [PathPolicy.check, ite_error_eq_ok, Except.ok.injEq, Prod.mk.injEq] at h
        obtain ⟨hchars, hlength, habsolute, hdrive, hglob, hempty, hparent, hreserved, rfl, rfl⟩ := h
        refine ⟨text, rfl, ⟨?_, by omega, habsolute, by simpa using hdrive, ?_, hempty, hparent,
          ?_⟩, rfl, rfl⟩
        · simpa using hchars
        · simpa [and_assoc] using hglob
        · simpa using hreserved
      · rintro ⟨_, heq, h, rfl, rfl⟩
        cases heq
        have hchars : ¬ text.toList.any policy.badChar = true := by simpa using h.chars
        have hglob : ¬ (slashed text.toList).any
            (fun ch => ch == '*' || ch == '?' || ch == '[') = true := by
          simpa [and_assoc] using h.noGlob
        have hreserved : ¬ (pathParts (slashed text.toList)).any
            (fun p => casefold p ∈ policy.reserved) = true := by simpa using h.unreserved
        simp only [PathPolicy.check]
        rw [if_neg hchars, if_neg (by have := h.length; omega), if_neg h.relative,
          if_neg (by rw [h.noDrive]; decide), if_neg hglob, if_neg h.nonempty,
          if_neg h.noParent, if_neg hreserved]
  | null | bool | int | float | arr | obj => simp [PathPolicy.check]

/-- A cleaned path is accepted as it is, unless a drive letter has come to its front. -/
theorem PathPolicy.Accepts.clean {raw : List Char} (h : policy.Accepts raw)
    (hdrive : hasDrive (cleanPath (pathParts (slashed raw)) (namesDirectory (slashed raw))) = false) :
    policy.Accepts (cleanPath (pathParts (slashed raw)) (namesDirectory (slashed raw))) := by
  have hclean := cleanParts_pathParts h.nonempty
  have hsub := cleanPath_sublist (slashed raw)
  have hslashed := hclean.slashed_cleanPath (namesDirectory (slashed raw))
  have hparts := hclean.pathParts_cleanPath (namesDirectory (slashed raw))
  refine ⟨?_, ?_, ?_, ?_, ?_, ?_, ?_, ?_⟩
  · intro c hc
    obtain rfl | hraw := mem_slashed (hsub.subset hc)
    · exact policy.slash_fine
    · exact h.chars c hraw
  · have hlength := hsub.length_le
    rw [slashed, List.length_map] at hlength
    exact hlength.trans h.length
  · rw [hslashed]
    obtain ⟨c, rest, hcons, hc⟩ := hclean.head_cleanPath (namesDirectory (slashed raw))
    rw [hcons, List.head?_cons]
    intro heq
    exact hc (Option.some.inj heq)
  · rw [hslashed]
    exact hdrive
  · rw [hslashed]
    exact fun c hc => h.noGlob c (hsub.subset hc)
  · rw [hslashed, hparts]
    exact h.nonempty
  · rw [hslashed, hparts]
    exact h.noParent
  · rw [hslashed, hparts]
    exact h.unreserved

end Policies

section Scopes

/-- Control characters other than the newline, and DEL. -/
def badChar (c : Char) : Bool := (c.toNat < 32 && c != '\n') || c.toNat == 0x7F

def scopePolicy : PathPolicy where
  badChar := badChar
  maxChars := maxScopeChars
  reserved := [".git".toList]
  notString := "task scope must be a string."
  badChars := "task scope must not contain control characters or surrogates."
  tooLong := s!"task scope exceeds the {maxScopeChars}-character limit."
  absolute := "task scope must be relative (absolute paths rejected)."
  drive := "task scope must be relative (drive paths rejected)."
  glob := "task scope must not contain glob characters (*, ?, [)."
  empty := "task scope must name a file or directory."
  parent := "task scope must not contain '..' (traversal rejected)."
  reference := "task scope must not reference .git."
  slash_fine := rfl

/-- One task scope: a repo-relative file path or a directory prefix that ends in `/`. -/
def scopePath (value : Json) : Except CollabError String := do
  let (normalized, parts) ← scopePolicy.check value
  let cleaned := joinParts parts
  return String.ofList (if normalized.getLast? = some '/' then cleaned ++ ['/'] else cleaned)

/-- The spelling a scope is given after cleaning. -/
def cleanScope (raw : List Char) : List Char :=
  cleanPath (pathParts (slashed raw)) (namesDirectory (slashed raw))

theorem scopePath_eq_ok {value : Json} {scope : String} :
    scopePath value = .ok scope ↔
      ∃ text, value = .str text ∧ scopePolicy.Accepts text.toList ∧
        scope.toList = cleanScope text.toList := by
  rw [scopePath]
  simp only [except_bind_eq_ok, except_pure_eq_ok, Prod.exists, PathPolicy.check_eq_ok]
  have hclean (raw : List Char) :
      (if (slashed raw).getLast? = some '/' then joinParts (pathParts (slashed raw)) ++ ['/']
        else joinParts (pathParts (slashed raw))) = cleanScope raw := by
    simp only [cleanScope, cleanPath, namesDirectory, decide_eq_true_eq]
  constructor
  · rintro ⟨_, _, ⟨text, rfl, haccepts, rfl, rfl⟩, rfl⟩
    exact ⟨text, rfl, haccepts, by rw [String.toList_ofList, hclean]⟩
  · rintro ⟨text, rfl, haccepts, hscope⟩
    refine ⟨_, _, ⟨text, rfl, haccepts, rfl, rfl⟩, ?_⟩
    rw [hclean, ← hscope, String.ofList_toList]

lemma cleanScope_again {raw : List Char} (h : scopePolicy.Accepts raw) :
    slashed (cleanScope raw) = cleanScope raw ∧ cleanScope (cleanScope raw) = cleanScope raw := by
  have hclean := cleanParts_pathParts h.nonempty
  have hslashed : slashed (cleanScope raw) = cleanScope raw := hclean.slashed_cleanPath _
  refine ⟨hslashed, ?_⟩
  have hparts : pathParts (cleanScope raw) = pathParts (slashed raw) := hclean.pathParts_cleanPath _
  have hdirectory : namesDirectory (cleanScope raw) = namesDirectory (slashed raw) :=
    hclean.namesDirectory_cleanPath _
  rw [cleanScope, hslashed, hparts, hdirectory, ← cleanScope]

end Scopes

end Imece.CollabRuntime
