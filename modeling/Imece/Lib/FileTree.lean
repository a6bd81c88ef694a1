import Mathlib.Data.List.AList

/-!
# File trees

What a directory holds, as a finite map from paths to nodes. A path is the list of
the names that lead to it. Links are nodes of their own: a path that leads through
one is not in the tree, whatever a system may find behind it.
-/
namespace Imece.Lib

/-- What a directory entry is. -/
inductive Node (Raw : Type) where
  | file (mode : ℕ) (bytes : Raw)
  | link (target : Raw)
  | dir
  | other
deriving DecidableEq, Repr

namespace Node

variable {Raw : Type}

/-- Files and links are what a version control system keeps. -/
def isLeaf : Node Raw → Bool
  | file .. | link _ => true
  | dir | other => false

end Node

/-- The paths strictly between the root and a path, from the root on. -/
def ancestors {Name : Type} (path : List Name) : List (List Name) := path.inits.tail.dropLast

/-- The nodes of a directory, by path. -/
abbrev FileTree (Name Raw : Type) := AList fun _ : List Name => Node Raw

/-- Where a path leads: to a node of the tree, to nothing, or through a link. -/
inductive Found (Raw : Type) where
  | node (node : Node Raw)
  | absent
  | behindLink
deriving DecidableEq, Repr

namespace FileTree

variable {Name Raw : Type} [DecidableEq Name] [DecidableEq Raw]

/-- The first ancestor that is no directory decides; without one, the path itself. -/
def find (tree : FileTree Name Raw) (path : List Name) : Found Raw :=
  match (ancestors path).find? fun ancestor => tree.lookup ancestor ≠ some .dir with
  | some ancestor =>
      match tree.lookup ancestor with
      | some (.link _) => .behindLink
      | _ => .absent
  | none =>
      match tree.lookup path with
      | some node => .node node
      | none => .absent

/-- The file or link that is at a path of the tree. -/
def leaf? (tree : FileTree Name Raw) (path : List Name) : Option (Node Raw) :=
  match tree.find path with
  | .node node => if node.isLeaf then some node else none
  | _ => none

theorem lookup_of_find {tree : FileTree Name Raw} {path : List Name} {node : Node Raw}
    (h : tree.find path = .node node) : tree.lookup path = some node := by
  unfold find at h
  split at h
  · split at h <;> cases h
  · split at h
    · rename_i found hfound
      cases h
      exact hfound
    · cases h

theorem mem_keys_of_find {tree : FileTree Name Raw} {path : List Name} {node : Node Raw}
    (h : tree.find path = .node node) : path ∈ tree.keys :=
  AList.mem_keys.mp (AList.lookup_isSome.mp (by rw [lookup_of_find h]; rfl))

theorem leaf?_eq_some {tree : FileTree Name Raw} {path : List Name} {node : Node Raw} :
    tree.leaf? path = some node ↔ tree.find path = .node node ∧ node.isLeaf = true := by
  unfold leaf?
  cases tree.find path with
  | node found =>
      simp only [Option.ite_none_right_eq_some, Option.some.injEq, Found.node.injEq]
      constructor
      · rintro ⟨hleaf, rfl⟩
        exact ⟨rfl, hleaf⟩
      · rintro ⟨rfl, hleaf⟩
        exact ⟨hleaf, rfl⟩
  | absent => simp
  | behindLink => simp

end FileTree

section Dictionaries

variable {α β γ : Type} [DecidableEq β]

/-- A dictionary filled under new keys, looked up at a key no other one meets. -/
lemma lookup_foldl_insert [DecidableEq α] (f : α → β) (key : α)
    (entries : List (Sigma fun _ : α => γ)) (found : AList fun _ : β => γ)
    (hinj : ∀ entry ∈ entries, f entry.1 = f key → entry.1 = key)
    (hnodup : entries.NodupKeys) :
    (entries.foldl (fun d entry => d.insert (f entry.1) entry.2) found).lookup (f key) =
      (entries.dlookup key).or (found.lookup (f key)) := by
  induction entries generalizing found with
  | nil => simp
  | cons entry rest ih =>
      obtain ⟨name, value⟩ := entry
      rw [List.nodupKeys_cons] at hnodup
      rw [List.foldl_cons, ih _ (fun e he => hinj e (List.mem_cons_of_mem _ he)) hnodup.2]
      by_cases hname : name = key
      · subst hname
        rw [List.dlookup_cons_eq, List.dlookup_eq_none.mpr hnodup.1, AList.lookup_insert]
        rfl
      · have hother : f key ≠ f name := fun h => hname (hinj ⟨name, value⟩ List.mem_cons_self h.symm)
        rw [List.dlookup_cons_ne _ _ (Ne.symm hname), AList.lookup_insert_ne hother]

lemma mem_foldl_insert (f : α → β) (text : β)
    (entries : List (Sigma fun _ : α => γ)) (found : AList fun _ : β => γ) :
    text ∈ entries.foldl (fun d entry => d.insert (f entry.1) entry.2) found ↔
      text ∈ found ∨ ∃ key ∈ entries.keys, f key = text := by
  induction entries generalizing found with
  | nil => simp
  | cons entry rest ih =>
      rw [List.foldl_cons, ih, AList.mem_insert]
      simp only [List.keys_cons, List.mem_cons, exists_eq_or_imp]
      constructor
      · rintro ((rfl | h) | h)
        · exact Or.inr (Or.inl rfl)
        · exact Or.inl h
        · exact Or.inr (Or.inr h)
      · rintro (h | rfl | h)
        · exact Or.inl (Or.inr h)
        · exact Or.inl (Or.inl rfl)
        · exact Or.inr h

end Dictionaries

end Imece.Lib
