import Mathlib.Algebra.BigOperators.Group.List.Lemmas
import Mathlib.Algebra.Order.BigOperators.Group.List
import Mathlib.Data.List.TakeWhile
import Imece.Lib.JsonRoundTrip
import Imece.Lib.Transaction
import Mathlib.Algebra.GroupWithZero.Nat

/-!
# The room a text takes

The bytes of the text a value is written as are those of its parts and of what separates
them, whatever the order of an object's members.
-/
namespace Imece.Lib.Json

/-- The length of a text in UTF-8. -/
def bytes (cs : List Char) : ℕ := (cs.map Char.utf8Size).sum

@[simp] lemma bytes_nil : bytes [] = 0 := rfl

@[simp] lemma bytes_cons (c : Char) (cs : List Char) : bytes (c :: cs) = c.utf8Size + bytes cs := by
  simp [bytes]

@[simp] lemma bytes_append (cs ds : List Char) : bytes (cs ++ ds) = bytes cs + bytes ds := by
  simp [bytes]

/-- A character that needs no escape stands for itself. -/
lemma escape_of_plain {c : Char} (hquote : c ≠ '"') (hback : c ≠ '\\') (h : ¬ c.toNat < 32) :
    escape c = [c] := by
  unfold escape
  rw [if_neg hquote, if_neg hback]
  have hnot (d : Char) (hd : d.toNat < 32) : c ≠ d := by
    rintro rfl
    exact h hd
  rw [if_neg (hnot _ (by decide)), if_neg (hnot _ (by decide)), if_neg (hnot _ (by decide)),
    if_neg (hnot _ (by decide)), if_neg (hnot _ (by decide)), if_neg h]

lemma bytes_renderString (text : String) :
    bytes (renderString text) = bytes (text.toList.flatMap escape) + 2 := by
  have hquote : '"'.utf8Size = 1 := by decide
  simp only [renderString, bytes_cons, bytes_append, bytes_nil, hquote]
  omega

lemma bytes_renderItems_cons (item : Json) (items : List Json) (hitems : items ≠ []) :
    bytes (renderItems (item :: items)) = bytes (render item) + 1 + bytes (renderItems items) := by
  have hcomma : ','.utf8Size = 1 := by decide
  cases items with
  | nil => exact absurd rfl hitems
  | cons next rest =>
      rw [renderItems, bytes_append, bytes_cons, hcomma]
      omega

lemma bytes_renderMembers_cons (member : String × Json) (members : List (String × Json))
    (hmembers : members ≠ []) :
    bytes (renderMembers (member :: members)) =
      bytes (renderString member.1) + 1 + bytes (render member.2) + 1 +
        bytes (renderMembers members) := by
  have hsize : ','.utf8Size = 1 ∧ ':'.utf8Size = 1 := by decide
  cases members with
  | nil => exact absurd rfl hmembers
  | cons next rest =>
      rw [renderMembers, bytes_append, bytes_cons, bytes_append, bytes_cons, hsize.1, hsize.2]
      omega

lemma bytes_renderItems (items : List Json) :
    bytes (renderItems items) =
      (items.map fun item => bytes (render item)).sum + (items.length - 1) := by
  induction items with
  | nil => rfl
  | cons item rest ih =>
      cases rest with
      | nil => simp [renderItems]
      | cons next rest =>
          rw [bytes_renderItems_cons item (next :: rest) (by simp), ih]
          simp only [List.map_cons, List.sum_cons, List.length_cons]
          omega

/-- The room a member takes, without what separates it from the next. -/
def memberBytes (member : String × Json) : ℕ :=
  bytes (renderString member.1) + 1 + bytes (render member.2)

lemma bytes_renderMembers (members : List (String × Json)) :
    bytes (renderMembers members) = (members.map memberBytes).sum + (members.length - 1) := by
  have hcolon : ':'.utf8Size = 1 := by decide
  induction members with
  | nil => rfl
  | cons member rest ih =>
      cases rest with
      | nil =>
          simp only [renderMembers, bytes_append, bytes_cons, hcolon, memberBytes, List.map_cons,
            List.map_nil, List.sum_cons, List.sum_nil, List.length_cons, List.length_nil]
          omega
      | cons next rest =>
          rw [bytes_renderMembers_cons member (next :: rest) (by simp), ih]
          simp only [List.map_cons, List.sum_cons, List.length_cons, memberBytes]
          omega

lemma bytes_render_arr (items : List Json) :
    bytes (render (arr items)) =
      (items.map fun item => bytes (render item)).sum + (items.length - 1) + 2 := by
  have hsize : '['.utf8Size = 1 ∧ ']'.utf8Size = 1 := by decide
  rw [render, bytes_cons, bytes_append, bytes_cons, bytes_nil, bytes_renderItems, hsize.1, hsize.2]
  omega

lemma bytes_render_obj (members : List (String × Json)) :
    bytes (render (obj members)) = (members.map memberBytes).sum + (members.length - 1) + 2 := by
  have hsize : '{'.utf8Size = 1 ∧ '}'.utf8Size = 1 := by decide
  rw [render, bytes_cons, bytes_append, bytes_cons, bytes_nil, bytes_renderMembers, hsize.1,
    hsize.2]
  omega

/-- The order of an object's members takes no room. -/
lemma bytes_render_obj_perm {members members' : List (String × Json)}
    (h : members.Perm members') :
    bytes (render (obj members)) = bytes (render (obj members')) := by
  rw [bytes_render_obj, bytes_render_obj, (h.map _).sum_eq, h.length_eq]

theorem bytes_render_sortKeys (value : Json) :
    bytes (render (sortKeys value)) = bytes (render value) := by
  induction value using Json.induction with
  | null | bool | int | float | str => rfl
  | arr items ih =>
      rw [sortKeys, bytes_render_arr, bytes_render_arr, sortItems_eq_map, List.map_map,
        List.length_map]
      have hmap := List.map_congr_left (g := fun item => bytes (render item)) ih
      rw [show (fun item => bytes (render item)) ∘ sortKeys =
        fun item => bytes (render (sortKeys item)) from rfl, hmap]
  | obj members ih =>
      obtain ⟨sorted, hsorted, hperm⟩ := sortKeys_obj_perm members
      rw [hsorted, bytes_render_obj_perm hperm, bytes_render_obj, bytes_render_obj, List.map_map,
        List.length_map]
      have hmember (member) (hmem : member ∈ members) :
          (memberBytes ∘ fun member : String × Json => (member.1, sortKeys member.2)) member =
            memberBytes member := by
        simp only [Function.comp_apply, memberBytes, ih member hmem]
      rw [List.map_congr_left hmember]

/-- The canonical text of a value takes the room of any other. -/
theorem bytes_canonical (value : Json) :
    bytes (canonical value).toList = bytes (render value) := by
  rw [canonical, String.toList_ofList, bytes_render_sortKeys]

end Imece.Lib.Json
