import Mathlib.Order.Basic

/-!
# Paths as a tree

The names above a path, and a table that gives every key one holder.
-/
namespace Imece.Lib

section Prefixes

variable {sep : α}

lemma intercalate_append {front back : List (List α)} (hfront : front ≠ []) (hback : back ≠ []) :
    [sep].intercalate (front ++ back) =
      [sep].intercalate front ++ sep :: [sep].intercalate back := by
  induction front with
  | nil => exact absurd rfl hfront
  | cons first rest ih =>
      by_cases hrest : rest = []
      · subst hrest
        rw [List.singleton_append, List.intercalate_cons_of_ne_nil hback, List.intercalate_singleton,
          List.append_assoc, List.singleton_append]
      · have happend : rest ++ back ≠ [] := by simp [hrest]
        rw [List.cons_append, List.intercalate_cons_of_ne_nil happend, ih hrest,
          List.intercalate_cons_of_ne_nil hrest]
        simp only [List.append_assoc]

variable [DecidableEq α]

/-- The proper prefixes of a path that end before a separator, from the shortest on. -/
def properPrefixes (sep : α) (path : List α) : List (List α) :=
  let parts := path.splitOn sep
  (List.range' 1 (parts.length - 1)).map fun index => [sep].intercalate (parts.take index)

lemma splitOn_ne_nil (sep : α) (path : List α) : path.splitOn sep ≠ [] := by
  rw [List.splitOn_eq_splitOnP]
  exact List.splitOnP_ne_nil _ _

/-- The parts between separators have none. -/
lemma not_mem_of_mem_splitOn {text part : List Char} {sep : Char} (h : part ∈ text.splitOn sep) :
    sep ∉ part := by
  rw [List.splitOn_eq_splitOnP] at h
  induction text generalizing part with
  | nil =>
      rw [List.splitOnP_nil, List.mem_singleton] at h
      simp [h]
  | cons c rest ih =>
      rw [List.splitOnP_cons_eq_if_modifyHead] at h
      obtain ⟨first, more, hsplit⟩ := List.exists_cons_of_ne_nil
        (List.splitOnP_ne_nil (fun x => x == sep) rest)
      rw [hsplit] at h ih
      by_cases hc : c == sep
      · rw [if_pos hc] at h
        rcases List.mem_cons.mp h with rfl | h
        · simp
        · exact ih h
      · rw [if_neg hc, List.modifyHead_cons] at h
        rcases List.mem_cons.mp h with rfl | h
        · have hfirst := ih List.mem_cons_self
          intro hmem
          rcases List.mem_cons.mp hmem with rfl | hmem
          · exact hc (by simp)
          · exact hfirst hmem
        · exact ih (List.mem_cons_of_mem first h)

/-- The proper prefixes of a path are what stands before each of its separators. -/
theorem mem_properPrefixes {front path : List α} :
    front ∈ properPrefixes sep path ↔ ∃ back, path = front ++ sep :: back := by
  simp only [properPrefixes, List.mem_map, List.mem_range'_1]
  constructor
  · rintro ⟨index, hindex, rfl⟩
    have htake : (path.splitOn sep).take index ≠ [] := by
      rw [← List.length_pos_iff, List.length_take]
      omega
    have hdrop : (path.splitOn sep).drop index ≠ [] := by
      rw [← List.length_pos_iff, List.length_drop]
      omega
    refine ⟨[sep].intercalate ((path.splitOn sep).drop index), ?_⟩
    rw [← intercalate_append htake hdrop, List.take_append_drop, List.intercalate_splitOn]
  · rintro ⟨back, rfl⟩
    have hfront := List.length_pos_iff.mpr (splitOn_ne_nil sep front)
    have hback := List.length_pos_iff.mpr (splitOn_ne_nil sep back)
    refine ⟨(front.splitOn sep).length, ?_, ?_⟩
    · rw [List.splitOn_append_cons_self, List.length_append]
      omega
    · rw [List.splitOn_append_cons_self, List.take_left, List.intercalate_splitOn]

lemma self_not_mem_properPrefixes (path : List α) : path ∉ properPrefixes sep path := by
  intro h
  obtain ⟨back, hback⟩ := mem_properPrefixes.mp h
  have hlength := congrArg List.length hback
  rw [List.length_append, List.length_cons] at hlength
  omega

end Prefixes

section Holders

variable [DecidableEq κ]

/-- No two of the names share a key. -/
def Consistent (key : ν → κ) (names : List ν) : Prop :=
  ∀ a ∈ names, ∀ b ∈ names, key a = key b → a = b

/-- Which name holds each key, the latest first. -/
abbrev Holders (κ ν : Type*) := List (κ × ν)

/-- Another name holds the key of this one. -/
def Holders.taken [DecidableEq ν] (table : Holders κ ν) (key : ν → κ) (name : ν) : Bool :=
  match table.lookup (key name) with
  | some holder => decide (holder ≠ name)
  | none => false

def Holders.enter (table : Holders κ ν) (key : ν → κ) (name : ν) : Holders κ ν :=
  (key name, name) :: table

/-- The table holds exactly these names, each under its key. -/
structure Holders.Holds (table : Holders κ ν) (key : ν → κ) (names : List ν) : Prop where
  entered : ∀ k name, table.lookup k = some name → name ∈ names ∧ key name = k
  found : ∀ name ∈ names, table.lookup (key name) = some name

variable {key : ν → κ} {table : Holders κ ν} {names : List ν}

namespace Holders

lemma holds_nil (key : ν → κ) : Holds ([] : Holders κ ν) key [] where
  entered k name h := by simp at h
  found name h := by simp at h

lemma Holds.consistent (h : table.Holds key names) : Consistent key names := by
  intro a ha b hb hkey
  have hfound := h.found a ha
  rw [hkey, h.found b hb] at hfound
  exact (Option.some.inj hfound).symm

/-- A name whose key no other name holds is entered beside the others. -/
lemma Holds.enter [DecidableEq ν] (h : table.Holds key names) {name : ν} (hfree : table.taken key name = false) :
    (table.enter key name).Holds key (names ++ [name]) := by
  have hholder : ∀ holder, table.lookup (key name) = some holder → holder = name := by
    intro holder hlookup
    rw [taken, hlookup] at hfree
    simpa using hfree
  constructor
  · intro k other hlookup
    rw [Holders.enter, List.lookup_cons] at hlookup
    by_cases hk : k == key name
    · simp only [hk, Option.some.injEq] at hlookup
      subst hlookup
      exact ⟨List.mem_append_right _ List.mem_cons_self, (beq_iff_eq.mp hk).symm⟩
    · simp only [Bool.not_eq_true] at hk
      simp only [hk] at hlookup
      obtain ⟨hmem, hkey⟩ := h.entered k other hlookup
      exact ⟨List.mem_append_left _ hmem, hkey⟩
  · intro other hother
    rw [Holders.enter, List.lookup_cons]
    by_cases hk : key other == key name
    · simp only [hk, Option.some.injEq]
      rcases List.mem_append.mp hother with hold | hnew
      · have hfound := h.found other hold
        rw [beq_iff_eq.mp hk] at hfound
        exact (hholder other hfound).symm
      · exact (List.mem_singleton.mp hnew).symm
    · rcases List.mem_append.mp hother with hold | hnew
      · simp only [Bool.not_eq_true] at hk
        simp only [hk]
        exact h.found other hold
      · rw [List.mem_singleton.mp hnew] at hk
        exact absurd (beq_self_eq_true _) hk

/-- A taken key belongs to another of the names. -/
lemma Holds.taken [DecidableEq ν] (h : table.Holds key names) {name : ν}
    (htaken : table.taken key name = true) :
    ∃ other ∈ names, key other = key name ∧ other ≠ name := by
  rw [Holders.taken] at htaken
  cases hlookup : table.lookup (key name) with
  | none =>
      simp [hlookup] at htaken
  | some holder =>
      rw [hlookup] at htaken
      obtain ⟨hmem, hkey⟩ := h.entered _ holder hlookup
      exact ⟨holder, hmem, hkey, by simpa using htaken⟩

end Holders

end Holders

end Imece.Lib
