import Mathlib.Data.List.Basic
import Mathlib.Data.List.Infix

/-!
# Version histories

Immutable versions, each under a name of its own and made from versions that were there
before it. What a version descends from does not change when others are added.
-/
namespace Imece.Lib

/-- A version, the names of those it was made from, and its content. -/
structure Version (κ α : Type) where
  name : κ
  parents : List κ
  content : α
deriving DecidableEq

section Lists

variable {κ α : Type}

/-- Every version has a fresh name and known parents. The latest comes first. -/
def Grown : List (Version κ α) → Prop
  | [] => True
  | version :: older =>
      version.name ∉ older.map (·.name) ∧ (∀ p ∈ version.parents, p ∈ older.map (·.name)) ∧
        Grown older

lemma Grown.parent_known {versions : List (Version κ α)} (hgrown : Grown versions)
    {version : Version κ α} (h : version ∈ versions) {p : κ} (hp : p ∈ version.parents) :
    p ∈ versions.map (·.name) := by
  induction versions with
  | nil => cases h
  | cons first older ih =>
      rcases List.mem_cons.mp h with rfl | h
      · exact List.mem_cons_of_mem _ (hgrown.2.1 p hp)
      · exact List.mem_cons_of_mem _ (ih hgrown.2.2 h)

/-- What versions are asked by a name they know does not depend on later versions. -/
lemma suffix_induction {β : Type} {f : List (Version κ α) → κ → β}
    (hcons : ∀ version older, Grown (version :: older) → ∀ name, version.name ≠ name →
      f (version :: older) name = f older name)
    {versions older : List (Version κ α)} (hgrown : Grown versions) (h : older <:+ versions)
    {name : κ} (hknown : name ∈ older.map (·.name)) :
    f versions name = f older name := by
  obtain ⟨newer, rfl⟩ := h
  induction newer with
  | nil => rfl
  | cons version newer ih =>
      have hgrown' : Grown (version :: (newer ++ older)) := hgrown
      have hne : version.name ≠ name := by
        rintro rfl
        refine hgrown'.1 ?_
        rw [List.map_append]
        exact List.mem_append_right _ hknown
      exact (hcons version (newer ++ older) hgrown' name hne).trans (ih hgrown'.2.2)

variable [DecidableEq κ]

@[grind =] def findVersion (versions : List (Version κ α)) (name : κ) : Option (Version κ α) :=
  versions.find? fun version => version.name = name

/-- A version and all it descends from. -/
@[grind =] def ancestry : List (Version κ α) → κ → List κ
  | [], _ => []
  | version :: older, name =>
      if version.name = name then name :: version.parents.flatMap (ancestry older)
      else ancestry older name

/-- A version and what it descends from by first parents, in this order. -/
@[grind =] def firstParents : List (Version κ α) → κ → List κ
  | [], _ => []
  | version :: older, name =>
      if version.name = name then
        name :: (version.parents.head?.map (firstParents older)).getD []
      else firstParents older name

variable {versions older : List (Version κ α)} {name : κ}

lemma mem_ancestry_self (h : name ∈ versions.map (·.name)) : name ∈ ancestry versions name := by
  induction versions with
  | nil => cases h
  | cons version older ih =>
      rw [ancestry]
      split_ifs with heq
      · exact List.mem_cons_self
      · rw [List.map_cons, List.mem_cons] at h
        exact ih (h.resolve_left fun hname => heq hname.symm)

lemma known_of_mem_ancestry {a : κ} (h : a ∈ ancestry versions name) :
    a ∈ versions.map (·.name) ∧ name ∈ versions.map (·.name) := by
  induction versions generalizing name with
  | nil => cases h
  | cons version older ih =>
      rw [ancestry] at h
      split_ifs at h with heq
      · subst heq
        refine ⟨?_, List.mem_cons_self⟩
        rcases List.mem_cons.mp h with rfl | h
        · exact List.mem_cons_self
        · obtain ⟨p, -, hp⟩ := List.mem_flatMap.mp h
          exact List.mem_cons_of_mem _ (ih hp).1
      · obtain ⟨ha, hname⟩ := ih h
        exact ⟨List.mem_cons_of_mem _ ha, List.mem_cons_of_mem _ hname⟩

/-- Later versions change no version's descent. -/
theorem ancestry_cons_of_known {version : Version κ α} (hgrown : Grown (version :: older))
    (h : name ∈ older.map (·.name)) : ancestry (version :: older) name = ancestry older name := by
  rw [ancestry, if_neg]
  rintro rfl
  exact hgrown.1 h

theorem ancestry_of_suffix (hgrown : Grown versions) (h : older <:+ versions)
    (hknown : name ∈ older.map (·.name)) : ancestry versions name = ancestry older name :=
  suffix_induction (fun _ _ _ _ hne => if_neg hne) hgrown h hknown

theorem firstParents_of_suffix (hgrown : Grown versions) (h : older <:+ versions)
    (hknown : name ∈ older.map (·.name)) :
    firstParents versions name = firstParents older name :=
  suffix_induction (fun _ _ _ _ hne => if_neg hne) hgrown h hknown

theorem findVersion_of_suffix (hgrown : Grown versions) (h : older <:+ versions)
    (hknown : name ∈ older.map (·.name)) :
    findVersion versions name = findVersion older name :=
  suffix_induction
    (fun _ _ _ _ hne => List.find?_cons_of_neg (by rwa [decide_eq_true_eq])) hgrown h hknown

lemma findVersion_some {version : Version κ α} (h : findVersion versions name = some version) :
    version ∈ versions ∧ version.name = name := by
  have hname := List.find?_some h
  rw [decide_eq_true_eq] at hname
  exact ⟨List.mem_of_find?_eq_some h, hname⟩

/-- A version descends from itself and from what its parents descend from. -/
theorem ancestry_of_find (hgrown : Grown versions) {version : Version κ α}
    (h : findVersion versions name = some version) :
    ancestry versions name = name :: version.parents.flatMap (ancestry versions) := by
  induction versions with
  | nil => cases h
  | cons first older ih =>
      have hparents {version : Version κ α}
          (hknown : ∀ p ∈ version.parents, p ∈ older.map (·.name)) :
          version.parents.flatMap (ancestry older) =
            version.parents.flatMap (ancestry (first :: older)) :=
        List.flatMap_congr fun p hp => (ancestry_cons_of_known hgrown (hknown p hp)).symm
      by_cases heq : first.name = name
      · rw [findVersion, List.find?_cons_of_pos (by simpa using heq)] at h
        cases h
        rw [ancestry, if_pos heq, hparents hgrown.2.1]
      · rw [findVersion, List.find?_cons_of_neg (by simpa using heq), ← findVersion] at h
        rw [ancestry, if_neg heq, ih hgrown.2.2 h, hparents]
        exact fun p hp => hgrown.2.2.parent_known (findVersion_some h).1 hp

theorem ancestry_trans (hgrown : Grown versions) {a b c : κ} (hab : a ∈ ancestry versions b)
    (hbc : b ∈ ancestry versions c) : a ∈ ancestry versions c := by
  induction versions generalizing c with
  | nil => cases hab
  | cons first older ih =>
      by_cases hb : b ∈ older.map (·.name)
      · rw [ancestry_cons_of_known hgrown hb] at hab
        rw [ancestry] at hbc ⊢
        split_ifs at hbc ⊢ with hc
        · rcases List.mem_cons.mp hbc with rfl | hbc
          · exact absurd (hc ▸ hb) hgrown.1
          · obtain ⟨p, hp, hbp⟩ := List.mem_flatMap.mp hbc
            exact List.mem_cons_of_mem _ (List.mem_flatMap.mpr ⟨p, hp, ih hgrown.2.2 hab hbp⟩)
        · exact ih hgrown.2.2 hab hbc
      · rw [ancestry] at hbc
        split_ifs at hbc with hc
        · rcases List.mem_cons.mp hbc with rfl | hbc
          · exact hab
          · obtain ⟨p, -, hbp⟩ := List.mem_flatMap.mp hbc
            exact absurd (known_of_mem_ancestry hbp).1 hb
        · exact absurd (known_of_mem_ancestry hbc).1 hb

theorem ancestry_antisymm (hgrown : Grown versions) {a b : κ} (hab : a ∈ ancestry versions b)
    (hba : b ∈ ancestry versions a) : a = b := by
  induction versions generalizing a b with
  | nil => cases hab
  | cons first older ih =>
      by_cases ha : first.name = a
      · by_cases hb : first.name = b
        · exact ha.symm.trans hb
        · rw [ancestry, if_neg hb] at hab
          exact absurd (ha ▸ (known_of_mem_ancestry hab).1) hgrown.1
      · by_cases hb : first.name = b
        · rw [ancestry, if_neg ha] at hba
          exact absurd (hb ▸ (known_of_mem_ancestry hba).1) hgrown.1
        · rw [ancestry, if_neg hb] at hab
          rw [ancestry, if_neg ha] at hba
          exact ih hgrown.2.2 hab hba

lemma firstParents_cons_of_known {version : Version κ α} (hgrown : Grown (version :: older))
    (h : name ∈ older.map (·.name)) :
    firstParents (version :: older) name = firstParents older name := by
  rw [firstParents, if_neg]
  rintro rfl
  exact hgrown.1 h

lemma known_of_mem_firstParents {a : κ} (h : a ∈ firstParents versions name) :
    a ∈ versions.map (·.name) := by
  induction versions generalizing name with
  | nil => cases h
  | cons version older ih =>
      rw [firstParents] at h
      split_ifs at h with heq
      · rcases List.mem_cons.mp h with rfl | h
        · exact heq ▸ List.mem_cons_self
        · cases hparent : version.parents.head? with
          | none =>
              rw [hparent] at h
              cases h
          | some p =>
              rw [hparent] at h
              exact List.mem_cons_of_mem _ (ih h)
      · exact List.mem_cons_of_mem _ (ih h)

lemma firstParents_self (h : name ∈ versions.map (·.name)) :
    ∃ older, firstParents versions name = name :: older := by
  induction versions with
  | nil => cases h
  | cons version older ih =>
      rw [firstParents]
      split_ifs with heq
      · exact ⟨_, rfl⟩
      · rw [List.map_cons, List.mem_cons] at h
        exact ih (h.resolve_left fun hname => heq hname.symm)

/-- A version's first parents go on with those of each of them. -/
theorem firstParents_split (hgrown : Grown versions) {a : κ}
    (h : a ∈ firstParents versions name) :
    ∃ newer, firstParents versions name = newer ++ firstParents versions a := by
  induction versions generalizing name with
  | nil => cases h
  | cons version older ih =>
      by_cases heq : version.name = name
      · by_cases ha : a = name
        · exact ⟨[], by rw [ha, List.nil_append]⟩
        · rw [firstParents, if_pos heq, List.mem_cons] at h
          have h := h.resolve_left ha
          cases hparent : version.parents.head? with
          | none =>
              rw [hparent] at h
              cases h
          | some p =>
              rw [hparent] at h
              obtain ⟨newer, hnewer⟩ := ih hgrown.2.2 h
              refine ⟨name :: newer, ?_⟩
              rw [firstParents_cons_of_known hgrown (known_of_mem_firstParents h), firstParents,
                if_pos heq, hparent]
              exact congrArg (List.cons name) hnewer
      · rw [firstParents, if_neg heq] at h
        obtain ⟨newer, hnewer⟩ := ih hgrown.2.2 h
        refine ⟨newer, ?_⟩
        rw [firstParents_cons_of_known hgrown (known_of_mem_firstParents h), firstParents,
          if_neg heq, hnewer]

theorem firstParents_nodup (hgrown : Grown versions) : (firstParents versions name).Nodup := by
  induction versions generalizing name with
  | nil => exact List.nodup_nil
  | cons version older ih =>
      rw [firstParents]
      split_ifs with heq
      · cases hparent : version.parents.head? with
        | none => simp
        | some p =>
            refine List.nodup_cons.mpr ⟨fun hmem => ?_, ih hgrown.2.2⟩
            exact hgrown.1 (heq ▸ known_of_mem_firstParents hmem)
      · exact ih hgrown.2.2

/-- A version's first parents are itself and those of its first parent. -/
theorem firstParents_of_find (hgrown : Grown versions) {version : Version κ α}
    (h : findVersion versions name = some version) :
    firstParents versions name =
      name :: (version.parents.head?.map (firstParents versions)).getD [] := by
  induction versions with
  | nil => cases h
  | cons first older ih =>
      have hparents {found : Version κ α} (hknown : ∀ p ∈ found.parents, p ∈ older.map (·.name)) :
          (found.parents.head?.map (firstParents older)).getD [] =
            (found.parents.head?.map (firstParents (first :: older))).getD [] := by
        cases hhead : found.parents.head? with
        | none => rfl
        | some p =>
            have hmem := List.mem_of_head? hhead
            exact (firstParents_cons_of_known hgrown (hknown p hmem)).symm
      by_cases heq : first.name = name
      · rw [findVersion, List.find?_cons_of_pos (by simpa using heq)] at h
        cases h
        rw [firstParents, if_pos heq, hparents hgrown.2.1]
      · rw [findVersion, List.find?_cons_of_neg (by simpa using heq), ← findVersion] at h
        rw [firstParents, if_neg heq, ih hgrown.2.2 h, hparents]
        exact fun p hp => hgrown.2.2.parent_known (findVersion_some h).1 hp

end Lists

/-- Versions in the order in which they were made, the latest first. -/
structure Versions (κ α : Type) where
  entries : List (Version κ α)
  grown : Grown entries

namespace Versions

variable {κ α : Type}

def names (versions : Versions κ α) : List κ := versions.entries.map (·.name)

/-- The versions that were there before are there later. -/
def Extends (versions later : Versions κ α) : Prop := versions.entries <:+ later.entries

theorem Extends.refl (versions : Versions κ α) : versions.Extends versions := List.suffix_rfl

theorem Extends.trans {versions later latest : Versions κ α} (h : versions.Extends later)
    (h' : later.Extends latest) : versions.Extends latest :=
  List.IsSuffix.trans h h'

lemma Extends.known {versions later : Versions κ α} (h : versions.Extends later) {name : κ}
    (hname : name ∈ versions.names) : name ∈ later.names :=
  (h.map _).subset hname

def add (versions : Versions κ α) (version : Version κ α)
    (hfresh : version.name ∉ versions.names) (hparents : ∀ p ∈ version.parents, p ∈ versions.names) :
    Versions κ α :=
  ⟨version :: versions.entries, hfresh, hparents, versions.grown⟩

theorem extends_add {versions : Versions κ α} {version : Version κ α}
    (hfresh : version.name ∉ versions.names)
    (hparents : ∀ p ∈ version.parents, p ∈ versions.names) :
    versions.Extends (versions.add version hfresh hparents) :=
  List.suffix_cons _ _

variable [DecidableEq κ]

def find (versions : Versions κ α) (name : κ) : Option (Version κ α) :=
  findVersion versions.entries name

/-- A version and what it descends from by first parents. -/
def firstParents (versions : Versions κ α) (name : κ) : List κ :=
  Lib.firstParents versions.entries name

/-- Whether one version is another or one that it descends from. -/
def isAncestor (versions : Versions κ α) (ancestor name : κ) : Bool :=
  ancestor ∈ ancestry versions.entries name

variable {versions later : Versions κ α} {a b c name : κ}

lemma isAncestor_iff : versions.isAncestor a b = true ↔ a ∈ ancestry versions.entries b :=
  decide_eq_true_iff

lemma isAncestor_refl (h : name ∈ versions.names) : versions.isAncestor name name = true :=
  isAncestor_iff.mpr (mem_ancestry_self h)

theorem isAncestor_trans (hab : versions.isAncestor a b = true)
    (hbc : versions.isAncestor b c = true) : versions.isAncestor a c = true :=
  isAncestor_iff.mpr (ancestry_trans versions.grown (isAncestor_iff.mp hab)
    (isAncestor_iff.mp hbc))

theorem isAncestor_antisymm (hab : versions.isAncestor a b = true)
    (hba : versions.isAncestor b a = true) : a = b :=
  ancestry_antisymm versions.grown (isAncestor_iff.mp hab) (isAncestor_iff.mp hba)

lemma known_of_isAncestor (h : versions.isAncestor a b = true) :
    a ∈ versions.names ∧ b ∈ versions.names :=
  known_of_mem_ancestry (isAncestor_iff.mp h)

theorem Extends.isAncestor (h : versions.Extends later) (hname : b ∈ versions.names) :
    later.isAncestor a b = versions.isAncestor a b := by
  unfold Versions.isAncestor
  rw [ancestry_of_suffix later.grown h hname]

theorem Extends.find (h : versions.Extends later) (hname : name ∈ versions.names) :
    later.find name = versions.find name :=
  findVersion_of_suffix later.grown h hname

theorem Extends.firstParents (h : versions.Extends later) (hname : name ∈ versions.names) :
    later.firstParents name = versions.firstParents name :=
  firstParents_of_suffix later.grown h hname

theorem firstParents_child {version : Version κ α} (h : versions.find name = some version)
    (hparent : version.parents = [b]) :
    versions.firstParents name = name :: versions.firstParents b := by
  rw [Versions.firstParents, firstParents_of_find versions.grown h, hparent]
  rfl

theorem firstParents_root {version : Version κ α} (h : versions.find name = some version)
    (hparent : version.parents = []) : versions.firstParents name = [name] := by
  rw [Versions.firstParents, firstParents_of_find versions.grown h, hparent]
  rfl

lemma find_some {version : Version κ α} (h : versions.find name = some version) :
    version.name = name ∧ name ∈ versions.names := by
  obtain ⟨hmem, rfl⟩ := findVersion_some h
  exact ⟨rfl, List.mem_map_of_mem hmem⟩

/-- A version with one parent descends from itself and from what its parent descends
from. -/
theorem isAncestor_child {version : Version κ α} (h : versions.find name = some version)
    (hparent : version.parents = [b]) :
    versions.isAncestor a name = true ↔ a = name ∨ versions.isAncestor a b = true := by
  rw [isAncestor_iff, ancestry_of_find versions.grown h, hparent, List.flatMap_singleton,
    List.mem_cons, isAncestor_iff]

theorem isAncestor_root {version : Version κ α} (h : versions.find name = some version)
    (hparent : version.parents = []) : versions.isAncestor a name = true ↔ a = name := by
  rw [isAncestor_iff, ancestry_of_find versions.grown h, hparent, List.flatMap_nil,
    List.mem_singleton]

lemma find_add {version : Version κ α} (hfresh : version.name ∉ versions.names)
    (hparents : ∀ p ∈ version.parents, p ∈ versions.names) :
    (versions.add version hfresh hparents).find version.name = some version := by
  unfold find findVersion add
  simp

end Versions

end Imece.Lib
