import Mathlib.Data.List.Nodup
import Imece.Lib.JsonRoundTrip

/-!
# Members of objects

A member is found by its key, so the order of an object's members does not matter to
whoever looks them up; lists of members with distinct keys have one sorted order.
-/
namespace Imece.Lib.Json

section Dicts

variable {κ α : Type} [DecidableEq κ]

def dictSet (dict : List (κ × α)) (pair : κ × α) : List (κ × α) :=
  if pair.1 ∈ dict.map (·.1) then dict.map fun other => if other.1 = pair.1 then pair else other
  else dict ++ [pair]

/-- The dict that pairs build: the last value of each key, at the key's first place. -/
def dictOf (pairs : List (κ × α)) : List (κ × α) := pairs.foldl dictSet []

lemma dictSet_nodup {dict : List (κ × α)} (h : (dict.map (·.1)).Nodup)
    (pair : κ × α) : ((dictSet dict pair).map (·.1)).Nodup := by
  unfold dictSet
  split_ifs with hkey
  · have hkeys : (dict.map fun other => if other.1 = pair.1 then pair else other).map (·.1) =
        dict.map (·.1) := by
      rw [List.map_map]
      refine List.map_congr_left fun other _ => ?_
      simp only [Function.comp_apply]
      split_ifs with heq
      · exact heq.symm
      · rfl
    rwa [hkeys]
  · rw [List.map_append, List.map_singleton, List.nodup_append]
    exact ⟨h, List.nodup_singleton _, fun a ha b hb => by
      rw [List.mem_singleton] at hb
      rintro rfl
      exact hkey (hb ▸ ha)⟩

lemma foldl_dictSet_nodup {dict pairs : List (κ × α)} (h : (dict.map (·.1)).Nodup) :
    ((pairs.foldl dictSet dict).map (·.1)).Nodup := by
  induction pairs generalizing dict with
  | nil => exact h
  | cons pair rest ih => exact ih (dictSet_nodup h pair)

theorem dictOf_nodup (pairs : List (κ × α)) : ((dictOf pairs).map (·.1)).Nodup :=
  foldl_dictSet_nodup List.nodup_nil

lemma foldl_dictSet_eq {dict pairs : List (κ × α)}
    (h : ((dict ++ pairs).map (·.1)).Nodup) : pairs.foldl dictSet dict = dict ++ pairs := by
  induction pairs generalizing dict with
  | nil => rw [List.foldl_nil, List.append_nil]
  | cons pair rest ih =>
      have hfresh : pair.1 ∉ dict.map (·.1) := by
        rw [List.map_append, List.nodup_append] at h
        exact fun hmem => h.2.2 _ hmem _ (by simp) rfl
      rw [List.foldl_cons, dictSet, if_neg hfresh, ih, List.append_assoc, List.singleton_append]
      rwa [List.append_assoc, List.singleton_append]

theorem dictOf_eq_self {pairs : List (κ × α)} (h : (pairs.map (·.1)).Nodup) :
    dictOf pairs = pairs :=
  foldl_dictSet_eq h

/-- Changing values does not change which of them a dict keeps. -/
lemma dictOf_map {β : Type} (change : α → β) (pairs : List (κ × α)) :
    dictOf (pairs.map fun pair => (pair.1, change pair.2)) =
      (dictOf pairs).map fun pair => (pair.1, change pair.2) := by
  have hstep (dict : List (κ × α)) (pair : κ × α) :
      dictSet (dict.map fun pair => (pair.1, change pair.2)) (pair.1, change pair.2) =
        (dictSet dict pair).map fun pair => (pair.1, change pair.2) := by
    have hkeys : (dict.map fun pair => (pair.1, change pair.2)).map (·.1) = dict.map (·.1) := by
      rw [List.map_map]
      rfl
    rw [dictSet, dictSet, hkeys]
    split_ifs
    · rw [List.map_map, List.map_map]
      refine List.map_congr_left fun other _ => ?_
      simp only [Function.comp_apply]
      split_ifs <;> rfl
    · rw [List.map_append, List.map_singleton]
  have hfold (dict : List (κ × α)) :
      (pairs.map fun pair => (pair.1, change pair.2)).foldl dictSet
        (dict.map fun pair => (pair.1, change pair.2)) =
      (pairs.foldl dictSet dict).map fun pair => (pair.1, change pair.2) := by
    induction pairs generalizing dict with
    | nil => rfl
    | cons pair rest ih =>
        rw [List.map_cons, List.foldl_cons, List.foldl_cons, hstep]
        exact ih (dictSet dict pair)
  exact hfold []

end Dicts

/-- The member of a key. -/
def field (members : List (String × Json)) (key : String) : Json :=
  ((members.find? fun member => member.1 = key).map (·.2)).getD null

lemma field_eq {members : List (String × Json)} (hnodup : (members.map (·.1)).Nodup)
    {member : String × Json} (h : member ∈ members) : field members member.1 = member.2 := by
  have hfind : members.find? (fun other => other.1 = member.1) = some member := by
    induction members with
    | nil => cases h
    | cons first rest ih =>
        rw [List.map_cons, List.nodup_cons] at hnodup
        rcases List.mem_cons.mp h with rfl | h
        · exact List.find?_cons_of_pos (by simp)
        · rw [List.find?_cons_of_neg, ih hnodup.2 h]
          rw [decide_eq_true_eq]
          intro heq
          exact hnodup.1 (heq ▸ List.mem_map_of_mem h)
  rw [field, hfind]
  rfl

lemma field_of_not_mem {members : List (String × Json)} {key : String}
    (h : key ∉ members.map (·.1)) : field members key = null := by
  rw [field, List.find?_eq_none.mpr]
  · rfl
  · intro member hmember
    rw [decide_eq_true_eq]
    rintro rfl
    exact h (List.mem_map_of_mem hmember)

/-- Whatever the order of the members, each is found by its key. -/
theorem field_perm {members members' : List (String × Json)}
    (hnodup : (members.map (·.1)).Nodup) (hperm : members'.Perm members) (key : String) :
    field members' key = field members key := by
  have hnodup' : (members'.map (·.1)).Nodup := (hperm.map _).nodup_iff.mpr hnodup
  by_cases hkey : key ∈ members.map (·.1)
  · obtain ⟨member, hmember, rfl⟩ := List.mem_map.mp hkey
    rw [field_eq hnodup hmember, field_eq hnodup' (hperm.mem_iff.mpr hmember)]
  · rw [field_of_not_mem hkey, field_of_not_mem]
    rwa [(hperm.map _).mem_iff]

lemma field_map {change : Json → Json} (hnull : change null = null)
    (members : List (String × Json)) (key : String) :
    field (members.map fun member => (member.1, change member.2)) key =
      change (field members key) := by
  rw [field, field, List.find?_map]
  show (((members.find? fun member => member.1 = key).map _).map _).getD null = _
  cases members.find? fun member => member.1 = key with
  | none => exact hnull.symm
  | some member => rfl

theorem field_sorted {members sorted : List (String × Json)} (hnodup : (members.map (·.1)).Nodup)
    (hperm : sorted.Perm (members.map fun member => (member.1, sortKeys member.2)))
    (key : String) : field sorted key = sortKeys (field members key) := by
  have hkeys : (members.map fun member => (member.1, sortKeys member.2)).map (·.1) =
      members.map (·.1) := by
    rw [List.map_map]
    rfl
  rw [field_perm (hkeys ▸ hnodup) hperm key, field_map rfl]

@[simp] lemma sortKeys_str (text : String) : (str text).sortKeys = str text := rfl

@[simp] lemma sortKeys_int (n : ℤ) : (int n).sortKeys = int n := rfl

/-- An object with exactly the given keys, each with its value. -/
def ObjectOf (keys : List String) (get : String → Json) (value : Json) : Prop :=
  ∃ members, value = obj members ∧ (members.map (·.1)).Nodup ∧
    (∀ key, key ∈ members.map (·.1) ↔ key ∈ keys) ∧ ∀ key ∈ keys, field members key = get key

lemma objectOf_obj {members : List (String × Json)} (hnodup : (members.map (·.1)).Nodup) :
    ObjectOf (members.map (·.1)) (field members) (obj members) :=
  ⟨members, rfl, hnodup, fun _ => Iff.rfl, fun _ _ => rfl⟩

theorem ObjectOf.sortKeys {keys : List String} {get : String → Json} {value : Json}
    (h : ObjectOf keys get value) :
    ObjectOf keys (fun key => (get key).sortKeys) value.sortKeys := by
  obtain ⟨members, rfl, hnodup, hkeys, hfields⟩ := h
  obtain ⟨sorted, hsorted, hperm⟩ := sortKeys_obj_perm members
  have hmap : (members.map fun member => (member.1, Json.sortKeys member.2)).map (·.1) =
      members.map (·.1) := by
    rw [List.map_map]
    rfl
  have hpermKeys : (sorted.map (·.1)).Perm (members.map (·.1)) := by
    rw [← hmap]
    exact hperm.map _
  refine ⟨sorted, hsorted, hpermKeys.nodup_iff.mpr hnodup, fun key => ?_, fun key hkey => ?_⟩
  · rw [hpermKeys.mem_iff, hkeys]
  · rw [field_sorted hnodup hperm, hfields key hkey]

section Sorting

variable {α : Type}

/-- Pairs in the order of their keys. -/
def sortPairs (pairs : List (String × α)) : List (String × α) :=
  pairs.insertionSort fun a b => a.1 ≤ b.1

lemma sortPairs_perm (pairs : List (String × α)) : (sortPairs pairs).Perm pairs :=
  List.perm_insertionSort _ _

lemma pairwise_sortPairs (pairs : List (String × α)) :
    (sortPairs pairs).Pairwise fun a b => a.1 ≤ b.1 := by
  have : Std.Total fun a b : String × α => a.1 ≤ b.1 := ⟨fun a b => le_total a.1 b.1⟩
  have : IsTrans (String × α) fun a b => a.1 ≤ b.1 := ⟨fun _ _ _ => le_trans⟩
  exact List.pairwise_insertionSort _ pairs

/-- Pairs with distinct keys that are in order already are left as they are, and so is
every other order of them put into this one. -/
theorem sortPairs_eq {pairs sorted : List (String × α)} (hnodup : (pairs.map (·.1)).Nodup)
    (hperm : pairs.Perm sorted) (hsorted : sorted.Pairwise fun a b => a.1 ≤ b.1) :
    sortPairs pairs = sorted := by
  refine @List.Perm.eq_of_pairwise _ (fun a b => a.1 ≤ b.1) _ _ ?_ (pairwise_sortPairs pairs)
    hsorted ((sortPairs_perm pairs).trans hperm)
  intro a b ha hb hab hba
  refine List.inj_on_of_nodup_map hnodup ((sortPairs_perm pairs).mem_iff.mp ha)
    (hperm.mem_iff.mpr hb) (le_antisymm hab hba)

end Sorting

section Equality

mutual

/-- Whether two values are written alike. -/
def same : Json → Json → Bool
  | null, null => true
  | bool a, bool b => a == b
  | int a, int b => a == b
  | float a, float b => a == b
  | str a, str b => a == b
  | arr a, arr b => sameItems a b
  | obj a, obj b => sameMembers a b
  | _, _ => false

def sameItems : List Json → List Json → Bool
  | [], [] => true
  | a :: as, b :: bs => same a b && sameItems as bs
  | _, _ => false

def sameMembers : List (String × Json) → List (String × Json) → Bool
  | [], [] => true
  | (key, a) :: as, (key', b) :: bs => key == key' && same a b && sameMembers as bs
  | _, _ => false

end

lemma sameItems_iff {a : List Json} (h : ∀ item ∈ a, ∀ b, same item b = true ↔ item = b) :
    ∀ b, sameItems a b = true ↔ a = b := by
  induction a with
  | nil => intro b; cases b <;> simp [sameItems]
  | cons item rest ih =>
      intro b
      have hitem := h item List.mem_cons_self
      have hrest := ih fun other hother => h other (List.mem_cons_of_mem _ hother)
      cases b <;> simp [sameItems, hitem, hrest]

lemma sameMembers_iff {a : List (String × Json)}
    (h : ∀ member ∈ a, ∀ b, same member.2 b = true ↔ member.2 = b) :
    ∀ b, sameMembers a b = true ↔ a = b := by
  induction a with
  | nil => intro b; cases b <;> simp [sameMembers]
  | cons member rest ih =>
      intro b
      have hmember := h member List.mem_cons_self
      have hrest := ih fun other hother => h other (List.mem_cons_of_mem _ hother)
      cases b with
      | nil => simp [sameMembers]
      | cons other others =>
          rw [sameMembers, Bool.and_eq_true, Bool.and_eq_true, hmember, hrest, List.cons.injEq,
            Prod.ext_iff, beq_iff_eq]

theorem same_iff (a : Json) : ∀ b, same a b = true ↔ a = b := by
  induction a using Json.induction with
  | arr items ih => intro b; cases b <;> simp [same, sameItems_iff ih]
  | obj members ih => intro b; cases b <;> simp [same, sameMembers_iff ih]
  | null | bool | int | float | str => intro b; cases b <;> simp [same]

instance : DecidableEq Json := fun a b => decidable_of_iff (same a b = true) (same_iff a b)

/-- Whether two values are equal, whatever the order of the members of their objects. -/
def equal (a b : Json) : Bool := a.sortKeys = b.sortKeys

end Equality

end Imece.Lib.Json
