import Imece.Lib.JsonSize

/-!
# Canonical JSON

How the documents of a session become bytes, and how bytes are read back under a
bound on their length and on their nesting.
-/
namespace Imece.CollabRuntime

open Lib

/-- What the calls of the collaboration runtime raise. The tasks' two errors are
validation errors with a text of their own; `valueError` is Python's, which no handler
turns into one of the others. -/
inductive CollabError where
  | validation (message : String)
  | taskExists
  | taskCapacity
  | staleRevision (message : String)
  | sessionNotFound (message : String)
  | sessionAlreadyExists (message : String)
  | projectState (message : String)
  | gitOperation (message : String)
  | replayUnavailable (message : String)
  | accessDenied (message : String)
  | valueError
deriving DecidableEq, Repr

def maxJsonBytes : ℕ := 64 * 1024
def maxFramedJsonBytes : ℕ := maxJsonBytes + 256
def maxJsonDepth : ℕ := 64

def canonicalJsonBytes (value : Json) : ByteArray := (Json.canonical value).toUTF8

section Depth

/-- Where the loop of `_validate_json_depth` stands. -/
structure DepthScan where
  depth : ℕ
  inString : Bool
  escaped : Bool

def DepthScan.next (what : String) (scan : DepthScan) (char : Char) :
    Except CollabError DepthScan :=
  if scan.inString then
    if scan.escaped then .ok { scan with escaped := false }
    else if char = '\\' then .ok { scan with escaped := true }
    else if char = '"' then .ok { scan with inString := false }
    else .ok scan
  else if char = '"' then .ok { scan with inString := true }
  else if char = '[' ∨ char = '{' then
    if maxJsonDepth < scan.depth + 1 then .error (.validation s!"{what} is nested too deeply.")
    else .ok { scan with depth := scan.depth + 1 }
  else if char = ']' ∨ char = '}' then .ok { scan with depth := scan.depth - 1 }
  else .ok scan

def DepthScan.run (what : String) : DepthScan → List Char → Except CollabError DepthScan
  | scan, [] => .ok scan
  | scan, char :: rest => do run what (← scan.next what char) rest

def validateJsonDepth (text what : String) : Except CollabError Unit := do
  let _ ← DepthScan.run what ⟨0, false, false⟩ text.toList
  return ()

lemma DepthScan.run_append {what : String} {scan scan' : DepthScan} {cs : List Char}
    (h : scan.run what cs = .ok scan') (rest : List Char) :
    scan.run what (cs ++ rest) = scan'.run what rest := by
  induction cs generalizing scan with
  | nil =>
      cases h
      rfl
  | cons c cs ih =>
      rw [DepthScan.run, except_bind_eq_ok] at h
      obtain ⟨next, hnext, hrest⟩ := h
      rw [List.cons_append, DepthScan.run, hnext]
      exact ih hrest

/-- Between values. -/
def DepthScan.outside (depth : ℕ) : DepthScan := ⟨depth, false, false⟩

/-- A text that the scan passes without leaving a trace, from a given depth. -/
def Balanced (what : String) (depth : ℕ) (cs : List Char) : Prop :=
  (DepthScan.outside depth).run what cs = .ok (DepthScan.outside depth)

lemma Balanced.nil (what : String) (depth : ℕ) : Balanced what depth [] := rfl

lemma Balanced.append {what : String} {depth : ℕ} {cs ds : List Char}
    (hcs : Balanced what depth cs) (hds : Balanced what depth ds) :
    Balanced what depth (cs ++ ds) := by
  rw [Balanced, DepthScan.run_append hcs]
  exact hds

/-- A character that the scan ignores. -/
lemma Balanced.cons {what : String} {depth : ℕ} {c : Char} {cs : List Char}
    (hquote : c ≠ '"') (hopen : ¬ (c = '[' ∨ c = '{')) (hclose : ¬ (c = ']' ∨ c = '}'))
    (hcs : Balanced what depth cs) : Balanced what depth (c :: cs) := by
  have hnext : (DepthScan.outside depth).next what c = .ok (DepthScan.outside depth) := by
    simp [DepthScan.next, DepthScan.outside, hquote, hopen, hclose]
  rw [Balanced, DepthScan.run, hnext]
  exact hcs

lemma Balanced.brackets {what : String} {depth : ℕ} {opening closing : Char} {cs : List Char}
    (hopening : opening = '[' ∨ opening = '{') (hclosing : closing = ']' ∨ closing = '}')
    (hdepth : depth + 1 ≤ maxJsonDepth) (hcs : Balanced what (depth + 1) cs) :
    Balanced what depth (opening :: (cs ++ [closing])) := by
  have hopen : (DepthScan.outside depth).next what opening =
      .ok (DepthScan.outside (depth + 1)) := by
    rcases hopening with rfl | rfl <;>
      simp [DepthScan.next, DepthScan.outside, show ¬ maxJsonDepth < depth + 1 by omega]
  have hclose : (DepthScan.outside (depth + 1)).next what closing =
      .ok (DepthScan.outside depth) := by
    rcases hclosing with rfl | rfl <;> simp [DepthScan.next, DepthScan.outside]
  rw [Balanced, DepthScan.run, hopen]
  show (DepthScan.outside (depth + 1)).run what (cs ++ [closing]) = _
  rw [DepthScan.run_append hcs, DepthScan.run, hclose]
  rfl

/-- The scan stays inside a string over the text of each of its characters. -/
lemma run_escape (what : String) (depth : ℕ) (c : Char) :
    DepthScan.run what ⟨depth, true, false⟩ (Json.escape c) = .ok ⟨depth, true, false⟩ := by
  unfold Json.escape
  split_ifs with hquote hback _ _ _ _ _ hcontrol
  · rfl
  · rfl
  · rfl
  · rfl
  · rfl
  · rfl
  · rfl
  · have hhex (n : ℕ) (hn : n < 16) : Json.hexDigit n ≠ '\\' ∧ Json.hexDigit n ≠ '"' := by
      revert n
      decide
    have hhigh := hhex (c.toNat / 16) (by omega)
    have hlow := hhex (c.toNat % 16) (by omega)
    simp [DepthScan.run, DepthScan.next, bind, Except.bind, hhigh, hlow]
  · simp [DepthScan.run, DepthScan.next, bind, Except.bind, hquote, hback]

lemma run_escapes (what : String) (depth : ℕ) (chars : List Char) :
    DepthScan.run what ⟨depth, true, false⟩ (chars.flatMap Json.escape) =
      .ok ⟨depth, true, false⟩ := by
  induction chars with
  | nil => rfl
  | cons c chars ih =>
      rw [List.flatMap_cons, DepthScan.run_append (run_escape what depth c)]
      exact ih

lemma balanced_renderString (what : String) (depth : ℕ) (text : String) :
    Balanced what depth (Json.renderString text) := by
  have hopen : (DepthScan.outside depth).next what '"' = .ok ⟨depth, true, false⟩ := rfl
  rw [Balanced, Json.renderString, DepthScan.run, hopen]
  show DepthScan.run what ⟨depth, true, false⟩ (text.toList.flatMap Json.escape ++ ['"']) = _
  rw [DepthScan.run_append (run_escapes what depth text.toList)]
  rfl

lemma balanced_digits (what : String) (depth : ℕ) {cs : List Char}
    (h : ∀ c ∈ cs, c.isDigit = true) : Balanced what depth cs := by
  induction cs with
  | nil => exact Balanced.nil what depth
  | cons c cs ih =>
      have hc := h c List.mem_cons_self
      refine Balanced.cons ?_ ?_ ?_ (ih fun d hd => h d (List.mem_cons_of_mem c hd))
      · rintro rfl
        cases hc
      · rintro (rfl | rfl) <;> cases hc
      · rintro (rfl | rfl) <;> cases hc

lemma balanced_renderInt (what : String) (depth : ℕ) (n : ℤ) :
    Balanced what depth (Json.renderInt n) := by
  have hdigits (m : ℕ) : Balanced what depth (Nat.toDigits 10 m) :=
    balanced_digits what depth fun c hc => Nat.isDigit_of_mem_toDigits (by omega) (by omega) hc
  cases n with
  | ofNat n => exact hdigits n
  | negSucc n => exact (hdigits (n + 1)).cons (by decide) (by decide) (by decide)

mutual

/-- How deep the lists and objects of a value are nested. -/
def nesting : Json → ℕ
  | .arr items => nestingItems items + 1
  | .obj members => nestingMembers members + 1
  | _ => 0

def nestingItems : List Json → ℕ
  | [] => 0
  | item :: rest => max (nesting item) (nestingItems rest)

def nestingMembers : List (String × Json) → ℕ
  | [] => 0
  | (_, value) :: rest => max (nesting value) (nestingMembers rest)

end

lemma nestingItems_le {items : List Json} {n : ℕ} :
    nestingItems items ≤ n ↔ ∀ item ∈ items, nesting item ≤ n := by
  induction items with
  | nil => simp [nestingItems]
  | cons item rest ih => rw [nestingItems, max_le_iff, ih, List.forall_mem_cons]

lemma nestingMembers_le {members : List (String × Json)} {n : ℕ} :
    nestingMembers members ≤ n ↔ ∀ member ∈ members, nesting member.2 ≤ n := by
  induction members with
  | nil => simp [nestingMembers]
  | cons member rest ih =>
      obtain ⟨key, value⟩ := member
      rw [nestingMembers, max_le_iff, ih, List.forall_mem_cons]

lemma nesting_sortKeys_le {value : Json} {n : ℕ} (h : nesting value ≤ n) :
    nesting value.sortKeys ≤ n := by
  induction value using Json.induction generalizing n with
  | null | bool | int | float | str => exact h
  | arr items ih =>
      rw [nesting] at h
      have hitems := nestingItems_le.mp (show nestingItems items ≤ n - 1 by omega)
      have hsorted : nestingItems (Json.sortItems items) ≤ n - 1 := by
        rw [nestingItems_le, Json.sortItems_eq_map]
        intro item hitem
        obtain ⟨original, horiginal, rfl⟩ := List.mem_map.mp hitem
        exact ih original horiginal (hitems original horiginal)
      rw [Json.sortKeys, nesting]
      omega
  | obj members ih =>
      rw [nesting] at h
      have hmembers := nestingMembers_le.mp (show nestingMembers members ≤ n - 1 by omega)
      obtain ⟨sorted, hsorted, hperm⟩ := Json.sortKeys_obj_perm members
      have hle : nestingMembers sorted ≤ n - 1 := by
        rw [nestingMembers_le]
        intro member hmember
        obtain ⟨original, horiginal, rfl⟩ := List.mem_map.mp (hperm.mem_iff.mp hmember)
        exact ih original horiginal (hmembers original horiginal)
      rw [hsorted, nesting]
      omega

mutual

theorem balanced_render (what : String) : ∀ (value : Json) (depth : ℕ),
    value.plain = true → nesting value + depth ≤ maxJsonDepth →
      Balanced what depth value.render
  | .null, _, _, _ => rfl
  | .bool true, _, _, _ => rfl
  | .bool false, _, _, _ => rfl
  | .int n, depth, _, _ => balanced_renderInt what depth n
  | .float _, _, hplain, _ => by cases hplain
  | .str text, depth, _, _ => balanced_renderString what depth text
  | .arr items, depth, hplain, hdepth => by
      rw [nesting] at hdepth
      rw [Json.render]
      exact Balanced.brackets (Or.inl rfl) (Or.inl rfl) (by omega)
        (balanced_renderItems what items (depth + 1) hplain (by omega))
  | .obj members, depth, hplain, hdepth => by
      rw [Json.plain, Bool.and_eq_true] at hplain
      rw [nesting] at hdepth
      rw [Json.render]
      exact Balanced.brackets (Or.inr rfl) (Or.inr rfl) (by omega)
        (balanced_renderMembers what members (depth + 1) hplain.2 (by omega))

theorem balanced_renderItems (what : String) : ∀ (items : List Json) (depth : ℕ),
    Json.plainItems items = true → nestingItems items + depth ≤ maxJsonDepth →
      Balanced what depth (Json.renderItems items)
  | [], depth, _, _ => Balanced.nil what depth
  | [item], depth, hplain, hdepth => by
      rw [Json.plainItems, Bool.and_eq_true] at hplain
      rw [nestingItems] at hdepth
      rw [Json.renderItems]
      exact balanced_render what item depth hplain.1 (by omega)
  | item :: next :: rest, depth, hplain, hdepth => by
      rw [Json.plainItems, Bool.and_eq_true] at hplain
      rw [nestingItems] at hdepth
      have hrest := balanced_renderItems what (next :: rest) depth hplain.2 (by omega)
      rw [Json.renderItems]
      exact (balanced_render what item depth hplain.1 (by omega)).append
        (hrest.cons (by decide) (by decide) (by decide))

theorem balanced_renderMembers (what : String) : ∀ (members : List (String × Json)) (depth : ℕ),
    Json.plainMembers members = true → nestingMembers members + depth ≤ maxJsonDepth →
      Balanced what depth (Json.renderMembers members)
  | [], depth, _, _ => Balanced.nil what depth
  | [(key, value)], depth, hplain, hdepth => by
      rw [Json.plainMembers, Bool.and_eq_true] at hplain
      rw [nestingMembers] at hdepth
      have hvalue := balanced_render what value depth hplain.1 (by omega)
      rw [Json.renderMembers]
      exact (balanced_renderString what depth key).append
        (hvalue.cons (by decide) (by decide) (by decide))
  | (key, value) :: next :: rest, depth, hplain, hdepth => by
      rw [Json.plainMembers, Bool.and_eq_true] at hplain
      rw [nestingMembers] at hdepth
      have hvalue := balanced_render what value depth hplain.1 (by omega)
      have hrest := balanced_renderMembers what (next :: rest) depth hplain.2 (by omega)
      rw [Json.renderMembers]
      exact (balanced_renderString what depth key).append
        ((hvalue.append (hrest.cons (by decide) (by decide) (by decide))).cons (by decide)
          (by decide) (by decide))

end

end Depth

section Bytes

/-- The errors of `json.loads` and of its hooks. -/
def ofJsonError (what : String) : JsonError → CollabError
  | .malformed => .validation s!"{what} is not valid JSON."
  | .duplicateKeys => .validation s!"{what} contains duplicate object keys."
  | .constant name => .validation s!"{what} contains the non-standard JSON constant {name}."
  | .float => .validation s!"{what} must not contain float values."
  | .surrogate => .validation s!"{what} contains unpaired Unicode surrogate characters."
  | .digits => .valueError

def parseJsonBytes (raw : ByteArray) (what : String) (maxBytes : ℕ := maxJsonBytes) :
    Except CollabError Json :=
  if ¬ (1 ≤ maxBytes ∧ maxBytes ≤ maxFramedJsonBytes) then
    .error (.validation "the JSON byte limit is invalid.")
  else if maxBytes < raw.size then
    .error (.validation s!"{what} exceeds the {maxBytes}-byte limit.")
  else match String.fromUTF8? raw with
    | none => .error (.validation s!"{what} is not valid UTF-8.")
    | some text => do
        validateJsonDepth text what
        (Json.decode true text).mapError (ofJsonError what)

lemma fromUTF8?_toUTF8 (text : String) : String.fromUTF8? text.toUTF8 = some text := by
  rw [String.fromUTF8?, String.toUTF8_eq_toByteArray, dif_pos text.isValidUTF8]
  rfl

lemma size_toUTF8 (text : String) : text.toUTF8.size = Json.bytes text.toList := by
  have hencode (cs : List Char) : cs.utf8Encode.size = Json.bytes cs := by
    rw [List.utf8Encode, List.size_toByteArray, List.length_flatMap, Json.bytes]
    simp only [String.length_utf8EncodeChar]
  rw [String.toUTF8_eq_toByteArray, ← String.utf8Encode_toList, hencode]

/-- A bounded document of plain values is read back from its canonical bytes. -/
theorem parseJsonBytes_canonical {value : Json} {what : String} (hplain : value.plain = true)
    (hdepth : nesting value ≤ maxJsonDepth)
    (hsize : (canonicalJsonBytes value).size ≤ maxJsonBytes) :
    parseJsonBytes (canonicalJsonBytes value) what = .ok value.sortKeys := by
  have hbalanced := balanced_render what value.sortKeys 0 (Json.plain_sortKeys hplain)
    (nesting_sortKeys_le hdepth)
  have hscan : validateJsonDepth (Json.canonical value) what = .ok () := by
    rw [validateJsonDepth, Json.canonical, String.toList_ofList]
    show (do let _ ← (DepthScan.outside 0).run what _; return ()) = _
    rw [hbalanced]
    rfl
  rw [parseJsonBytes, if_neg (by decide), if_neg (by omega), canonicalJsonBytes,
    fromUTF8?_toUTF8]
  simp only [hscan, Json.decode_canonical hplain]
  rfl

end Bytes

end Imece.CollabRuntime
