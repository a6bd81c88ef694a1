import Mathlib.Data.List.Sort
import Imece.RunRuntime.Receipts

/-!
# One history from two records

The canonical history items and the entries of the older `history.json` under one limit. The
canonical page is the database's: its items are valid and come newest first. The legacy list is
read as it lies in the file, so an entry may be anything; only a dictionary with a number under
`ts` counts. What the merged page shows is compared with the two lists it came from.
-/
namespace Imece.RunRuntime

namespace PyFloat

/-- `x < y` for two floats; NaN is below nothing and above nothing. -/
@[grind =] def lt : PyFloat → PyFloat → Bool
  | .nan, _ | _, .nan => false
  | .finite x, .finite y => x < y
  | .inf negative, .finite _ => negative
  | .finite _, .inf negative => !negative
  | .inf x, .inf y => x && !y

/-- The order of a descending sort. No NaN reaches the sort; it stands last here. -/
@[grind =] def notBefore (x y : PyFloat) : Bool :=
  match x, y with
  | _, .nan => true
  | .nan, _ => false
  | x, y => !x.lt y

lemma notBefore_trans {x y z : PyFloat} (hxy : x.notBefore y) (hyz : y.notBefore z) :
    x.notBefore z := by
  cases x <;> cases y <;> cases z <;> simp_all [notBefore, lt]
  · exact le_trans hyz hxy
  · rename_i a b c
    cases a <;> cases b <;> simp_all

lemma notBefore_total (x y : PyFloat) : x.notBefore y ∨ y.notBefore x := by
  cases x <;> cases y <;> simp [notBefore, lt]
  · exact le_total _ _
  · rename_i a b
    cases a <;> cases b <;> simp

lemma notBefore_of_lt {x y : PyFloat} (h : x.lt y) : y.notBefore x := by
  cases x <;> cases y <;> simp_all [notBefore, lt]
  exact le_of_lt h

/-- What is below a number is below every number that is not before it. -/
lemma lt_of_lt_of_notBefore {x y z : PyFloat} (hxy : x.lt y) (hzy : z.notBefore y)
    (hz : z ≠ .nan) : x.lt z := by
  cases x <;> cases y <;> cases z <;> simp_all [notBefore, lt]
  exact lt_of_lt_of_le hxy hzy

end PyFloat

/-- `item.get("ts")` of a dictionary, when it is an int or a float. A bool is neither here. -/
def readStamp : PyValue → Option PyFloat
  | .dict entries =>
      match JsonDict.get.go "ts" .none entries with
      | .int n => some (.finite n)
      | .float x => some x
      | _ => none
  | _ => none

/-- A usable entry of `history.json`. -/
structure LegacyItem where
  value : PyValue
  ts : PyFloat
  reads : readStamp value = some ts

/-- `_is_valid_legacy_history_item`, which keeps the time it found. -/
def validLegacyHistoryItem? (item : PyValue) : Option LegacyItem :=
  match h : readStamp item with
  | some ts => some ⟨item, ts, h⟩
  | none => none

/-- The entries of `history.json` the merge looks at, in stored order. -/
def validLegacy (legacyItems : List PyValue) : List LegacyItem :=
  legacyItems.filterMap validLegacyHistoryItem?

/-- One entry of the merged page. -/
inductive HistoryEntry where
  | canonical (item : HistoryItem)
  | legacy (item : LegacyItem)

def HistoryEntry.ts : HistoryEntry → PyFloat
  | .canonical item => item.ts
  | .legacy item => item.ts

/-- The relation the page is sorted by: `ts` descending. -/
abbrev newestFirst (a b : HistoryEntry) : Prop := a.ts.notBefore b.ts

/-- `items[:limit]`; a negative limit leaves out that many from the end. -/
def firstItems (limit : ℤ) (items : List α) : List α :=
  if 0 ≤ limit then items.take limit.toNat else items.take (items.length - (-limit).toNat)

/-- `min(item["ts"] for item in canonical_items)`. -/
@[grind =] def canonicalCutoff (first : HistoryItem) (rest : List HistoryItem) : PyFloat :=
  rest.foldl (fun cutoff item => if item.ts.lt cutoff then item.ts else cutoff) first.ts

@[grind =] def mergeCanonicalAndLegacyHistory (canonicalItems : List HistoryItem)
    (legacyItems : List PyValue) (limit : ℤ) : List HistoryEntry :=
  let legacyItems := validLegacy legacyItems
  if limit ≤ canonicalItems.length then (firstItems limit canonicalItems).map .canonical
  else
    match canonicalItems with
    | [] => (firstItems limit legacyItems).map .legacy
    | first :: rest =>
        let cutoff := canonicalCutoff first rest
        let legacyPrecanonical := legacyItems.filter (·.ts.lt cutoff)
        let merged := (first :: rest).map .canonical ++ legacyPrecanonical.map .legacy
        firstItems limit (merged.insertionSort newestFirst)

/-- What the docstring assumes of the canonical items: usable times, newest first. -/
structure CanonicalPage (items : List HistoryItem) : Prop where
  valid : ∀ item ∈ items, item.ts ≠ .nan
  descending : items.Pairwise fun a b => a.ts.notBefore b.ts

instance : Std.Total newestFirst := ⟨fun a b => PyFloat.notBefore_total a.ts b.ts⟩

instance : IsTrans HistoryEntry newestFirst := ⟨fun _ _ _ => PyFloat.notBefore_trans⟩

section Lists

variable {r : α → α → Prop} [DecidableRel r]

/-- A sorted block that comes before all of the rest stays where it is in a stable sort. -/
lemma insertionSort_append_of_sorted {front back : List α} (hfront : front.Pairwise r)
    (hbefore : ∀ a ∈ front, ∀ b ∈ back, r a b) :
    (front ++ back).insertionSort r = front ++ back.insertionSort r := by
  induction front with
  | nil => rfl
  | cons a front ih =>
      have hfirst := List.pairwise_cons.mp hfront
      have hall : ∀ b ∈ front ++ back, r a b := by
        intro b hb
        rcases List.mem_append.mp hb with hb | hb
        · exact hfirst.1 b hb
        · exact hbefore a (by simp) b hb
      rw [List.cons_append, List.insertionSort_cons_of_forall_rel r hall,
        ih hfirst.2 (fun a ha => hbefore a (by simp [ha])), List.cons_append]

end Lists

@[simp] lemma firstItems_of_nonneg {limit : ℤ} (h : 0 ≤ limit) (items : List α) :
    firstItems limit items = items.take limit.toNat := if_pos h

lemma foldl_cutoff_le (rest : List HistoryItem) (start : PyFloat) (hstart : start ≠ .nan)
    (hvalid : ∀ item ∈ rest, item.ts ≠ .nan) :
    let cutoff := rest.foldl (fun cutoff item => if item.ts.lt cutoff then item.ts else cutoff) start
    start.notBefore cutoff ∧ ∀ item ∈ rest, item.ts.notBefore cutoff := by
  induction rest generalizing start with
  | nil => simpa using (PyFloat.notBefore_total start start)
  | cons item rest ih =>
      simp only [List.foldl_cons]
      by_cases hlt : item.ts.lt start
      · simp only [hlt, ↓reduceIte]
        obtain ⟨hitem, hrest⟩ := ih item.ts (hvalid item (by simp))
          (fun other h => hvalid other (by simp [h]))
        refine ⟨PyFloat.notBefore_trans (PyFloat.notBefore_of_lt hlt) hitem, ?_⟩
        intro other hother
        rcases List.mem_cons.mp hother with rfl | hother
        · exact hitem
        · exact hrest other hother
      · simp only [hlt]
        obtain ⟨hkept, hrest⟩ := ih start hstart (fun other h => hvalid other (by simp [h]))
        refine ⟨hkept, ?_⟩
        intro other hother
        rcases List.mem_cons.mp hother with rfl | hother
        · refine PyFloat.notBefore_trans ?_ hkept
          have hvalid := hvalid other (by simp)
          cases hstamp : other.ts <;> cases start <;> simp_all [PyFloat.notBefore]
        · exact hrest other hother

lemma foldl_cutoff_mem (rest : List HistoryItem) (start : PyFloat) :
    let cutoff := rest.foldl (fun cutoff item => if item.ts.lt cutoff then item.ts else cutoff) start
    cutoff = start ∨ ∃ item ∈ rest, cutoff = item.ts := by
  induction rest generalizing start with
  | nil => exact Or.inl rfl
  | cons item rest ih =>
      simp only [List.foldl_cons]
      rcases ih (if item.ts.lt start then item.ts else start) with h | ⟨other, hother, h⟩
      · by_cases hlt : item.ts.lt start
        · exact Or.inr ⟨item, by simp, by rw [h, if_pos hlt]⟩
        · exact Or.inl (by rw [h, if_neg hlt])
      · exact Or.inr ⟨other, by simp [hother], h⟩

/-- The entry is older than every canonical item: it lies before the horizon. -/
@[grind =] def Precanonical (canonicalItems : List HistoryItem) (entry : LegacyItem) : Prop :=
  ∀ item ∈ canonicalItems, entry.ts.lt item.ts

instance (canonicalItems : List HistoryItem) : DecidablePred (Precanonical canonicalItems) :=
  fun _ => inferInstanceAs (Decidable (∀ item ∈ canonicalItems, _))

/-- An entry is older than the cutoff exactly when it is older than every canonical item. -/
lemma lt_cutoff_iff {first : HistoryItem} {rest : List HistoryItem}
    (hvalid : ∀ item ∈ first :: rest, item.ts ≠ .nan) (entry : LegacyItem) :
    entry.ts.lt (canonicalCutoff first rest) ↔ Precanonical (first :: rest) entry := by
  constructor
  · intro h item hitem
    obtain ⟨hfirst, hrest⟩ := foldl_cutoff_le rest first.ts (hvalid first (by simp))
      (fun item hitem => hvalid item (by simp [hitem]))
    refine PyFloat.lt_of_lt_of_notBefore h ?_ (hvalid item hitem)
    rcases List.mem_cons.mp hitem with rfl | hitem
    · exact hfirst
    · exact hrest item hitem
  · intro h
    rcases foldl_cutoff_mem rest first.ts with hcutoff | ⟨item, hitem, hcutoff⟩
    · rw [canonicalCutoff, hcutoff]
      exact h first (by simp)
    · rw [canonicalCutoff, hcutoff]
      exact h item (by simp [hitem])

/-- The legacy entries before the horizon, newest first. -/
def olderEntries (canonicalItems : List HistoryItem) (legacyItems : List PyValue) :
    List LegacyItem :=
  ((validLegacy legacyItems).filter fun entry => Precanonical canonicalItems entry).insertionSort
    fun a b => a.ts.notBefore b.ts

lemma insertionSort_map_legacy (items : List LegacyItem) :
    (items.map .legacy).insertionSort newestFirst =
      (items.insertionSort fun a b => a.ts.notBefore b.ts).map .legacy := by
  symm
  exact List.map_insertionSort _ newestFirst HistoryEntry.legacy items fun _ _ _ _ => Iff.rfl

/-- Below the limit the page is the canonical items and, behind them, the newest of the
entries before the horizon. -/
lemma merge_of_short {canonicalItems : List HistoryItem} {legacyItems : List PyValue} {limit : ℤ}
    (hpage : CanonicalPage canonicalItems) (hsome : canonicalItems ≠ [])
    (hshort : canonicalItems.length < limit) :
    mergeCanonicalAndLegacyHistory canonicalItems legacyItems limit =
      canonicalItems.map .canonical ++
        ((olderEntries canonicalItems legacyItems).take
          (limit.toNat - canonicalItems.length)).map .legacy := by
  obtain ⟨first, rest, rfl⟩ := List.exists_cons_of_ne_nil hsome
  have hsorted : (((first :: rest).map HistoryEntry.canonical)).Pairwise newestFirst :=
    List.pairwise_map.mpr hpage.descending
  have hbefore : ∀ a ∈ (first :: rest).map HistoryEntry.canonical,
      ∀ b ∈ ((validLegacy legacyItems).filter fun entry =>
        Precanonical (first :: rest) entry).map HistoryEntry.legacy, newestFirst a b := by
    intro a ha b hb
    obtain ⟨item, hitem, rfl⟩ := List.mem_map.mp ha
    obtain ⟨entry, hentry, rfl⟩ := List.mem_map.mp hb
    have hold : Precanonical (first :: rest) entry := by simpa using (List.mem_filter.mp hentry).2
    exact PyFloat.notBefore_of_lt (hold item hitem)
  have hfilter : ((validLegacy legacyItems).filter fun entry =>
        entry.ts.lt (canonicalCutoff first rest)) =
      (validLegacy legacyItems).filter fun entry => Precanonical (first :: rest) entry := by
    refine List.filter_congr fun entry _ => ?_
    rw [Bool.eq_iff_iff, decide_eq_true_iff]
    exact lt_cutoff_iff hpage.valid entry
  have hlimit : 0 ≤ limit := by omega
  have hlong : ¬ limit ≤ (first :: rest).length := by omega
  simp only [mergeCanonicalAndLegacyHistory, if_neg hlong, firstItems_of_nonneg hlimit, hfilter]
  rw [insertionSort_append_of_sorted hsorted hbefore, insertionSort_map_legacy, List.take_append,
    List.take_of_length_le (by simp only [List.length_map]; omega), List.length_map, List.map_take]
  rfl

/-- How a page stands to the two lists it was made from: `older` are the legacy entries on it,
`left` those before the horizon that it leaves out. -/
structure MergedPage (canonicalItems : List HistoryItem) (legacyItems : List PyValue) (limit : ℤ)
    (page : List HistoryEntry) (older left : List LegacyItem) : Prop where
  /-- The canonical items come first, as many as fit, and only then the legacy entries. -/
  shown : page = (canonicalItems.take limit.toNat).map .canonical ++ older.map .legacy
  bounded : page.length ≤ limit
  /-- Every valid entry before the horizon is either shown or left out, and no other is. -/
  split : (older ++ left).Perm
    ((validLegacy legacyItems).filter fun entry => Precanonical canonicalItems entry)
  /-- Only a full page leaves an entry out. -/
  full : left ≠ [] → page.length = limit
  descending : canonicalItems ≠ [] → page.Pairwise newestFirst
  newest : canonicalItems ≠ [] → ∀ entry ∈ older, ∀ other ∈ left, entry.ts.notBefore other.ts
  /-- Without canonical items the stored order stands. -/
  stored : canonicalItems = [] → older ++ left = validLegacy legacyItems

namespace MergedPage

variable {canonicalItems : List HistoryItem} {legacyItems : List PyValue} {limit : ℤ}
  {page : List HistoryEntry} {older left : List LegacyItem}

lemma before_horizon (h : MergedPage canonicalItems legacyItems limit page older left) :
    ∀ entry ∈ older, Precanonical canonicalItems entry := by
  intro entry hentry
  have hmem := h.split.subset (List.mem_append_left left hentry)
  simpa using (List.mem_filter.mp hmem).2

/-- Lists that repeat nothing make a page that repeats nothing. -/
lemma nodup (h : MergedPage canonicalItems legacyItems limit page older left)
    (hcanonical : canonicalItems.Nodup) (hlegacy : (validLegacy legacyItems).Nodup) :
    page.Nodup := by
  have holder : older.Nodup :=
    ((h.split.nodup_iff.mpr (hlegacy.filter _)).sublist (List.sublist_append_left older left))
  rw [h.shown, List.nodup_append]
  refine ⟨?_, ?_, ?_⟩
  · refine List.Nodup.map (fun a b hab => by injection hab) ?_
    exact hcanonical.sublist (List.take_sublist _ _)
  · exact List.Nodup.map (fun a b hab => by injection hab) holder
  · intro a ha b hb hab
    obtain ⟨item, _, rfl⟩ := List.mem_map.mp ha
    obtain ⟨entry, _, rfl⟩ := List.mem_map.mp hb
    exact HistoryEntry.noConfusion hab

end MergedPage

/-- The canonical items fill the page. -/
lemma merged_page_full {canonicalItems : List HistoryItem} (legacyItems : List PyValue)
    {limit : ℤ} (hpage : CanonicalPage canonicalItems) (hlimit : 0 ≤ limit)
    (hfull : limit ≤ canonicalItems.length) :
    MergedPage canonicalItems legacyItems limit
      (mergeCanonicalAndLegacyHistory canonicalItems legacyItems limit) []
      ((validLegacy legacyItems).filter fun entry => Precanonical canonicalItems entry) := by
  have hmerged : mergeCanonicalAndLegacyHistory canonicalItems legacyItems limit =
      (canonicalItems.take limit.toNat).map .canonical := by
    unfold mergeCanonicalAndLegacyHistory
    rw [if_pos hfull, firstItems_of_nonneg hlimit]
  have hlength : (((canonicalItems.take limit.toNat).map HistoryEntry.canonical).length : ℤ) =
      limit := by
    rw [List.length_map, List.length_take]
    omega
  rw [hmerged]
  refine ⟨by simp, by omega, by simp, fun _ => hlength, ?_, by simp, ?_⟩
  · intro _
    exact List.pairwise_map.mpr (hpage.descending.sublist (List.take_sublist _ _))
  · rintro rfl
    simp [Precanonical]

/-- There is no canonical item: the first entries of the file are the page. -/
lemma merged_page_legacy (legacyItems : List PyValue) {limit : ℤ} (hlimit : 0 < limit) :
    MergedPage [] legacyItems limit (mergeCanonicalAndLegacyHistory [] legacyItems limit)
      ((validLegacy legacyItems).take limit.toNat)
      ((validLegacy legacyItems).drop limit.toNat) := by
  have hmerged : mergeCanonicalAndLegacyHistory [] legacyItems limit =
      ((validLegacy legacyItems).take limit.toNat).map .legacy := by
    have hlong : ¬ limit ≤ ([] : List HistoryItem).length := by simpa using hlimit
    simp only [mergeCanonicalAndLegacyHistory, if_neg hlong, firstItems_of_nonneg hlimit.le]
  rw [hmerged]
  refine ⟨by simp, ?_, by simp [Precanonical], ?_, by simp, by simp, by simp⟩
  · rw [List.length_map, List.length_take]
    omega
  · intro hleft
    have hmore := List.drop_eq_nil_iff.not.mp hleft
    rw [List.length_map, List.length_take]
    omega

/-- Both lists share the page. -/
lemma merged_page_shared {canonicalItems : List HistoryItem} (legacyItems : List PyValue)
    {limit : ℤ} (hpage : CanonicalPage canonicalItems) (hsome : canonicalItems ≠ [])
    (hshort : canonicalItems.length < limit) :
    MergedPage canonicalItems legacyItems limit
      (mergeCanonicalAndLegacyHistory canonicalItems legacyItems limit)
      ((olderEntries canonicalItems legacyItems).take (limit.toNat - canonicalItems.length))
      ((olderEntries canonicalItems legacyItems).drop (limit.toNat - canonicalItems.length)) := by
  let entries := olderEntries canonicalItems legacyItems
  let room := limit.toNat - canonicalItems.length
  have hperm : entries.Perm
      ((validLegacy legacyItems).filter fun entry => Precanonical canonicalItems entry) :=
    List.perm_insertionSort _ _
  have hsorted : entries.Pairwise fun a b => a.ts.notBefore b.ts := by
    have : Std.Total fun a b : LegacyItem => (a.ts.notBefore b.ts : Prop) :=
      ⟨fun a b => PyFloat.notBefore_total a.ts b.ts⟩
    have : IsTrans LegacyItem fun a b => (a.ts.notBefore b.ts : Prop) :=
      ⟨fun _ _ _ => PyFloat.notBefore_trans⟩
    exact List.pairwise_insertionSort _ _
  have hall : canonicalItems.take limit.toNat = canonicalItems :=
    List.take_of_length_le (by omega)
  rw [merge_of_short hpage hsome hshort]
  refine ⟨by rw [hall], ?_, ?_, ?_, ?_, ?_, fun hnone => absurd hnone hsome⟩
  · simp only [List.length_append, List.length_map, List.length_take]
    omega
  · rw [List.take_append_drop]
    exact hperm
  · intro hleft
    have hmore := List.drop_eq_nil_iff.not.mp hleft
    simp only [List.length_append, List.length_map, List.length_take]
    omega
  · intro _
    rw [List.pairwise_append]
    refine ⟨List.pairwise_map.mpr hpage.descending, ?_, ?_⟩
    · exact List.pairwise_map.mpr (hsorted.sublist (List.take_sublist room entries))
    · intro a ha b hb
      obtain ⟨item, hitem, rfl⟩ := List.mem_map.mp ha
      obtain ⟨entry, hentry, rfl⟩ := List.mem_map.mp hb
      have hmem := hperm.subset (List.mem_of_mem_take hentry)
      have hold : Precanonical canonicalItems entry := by
        simpa using (List.mem_filter.mp hmem).2
      exact PyFloat.notBefore_of_lt (hold item hitem)
  · intro _ entry hentry other hother
    have hsplit : (entries.take room ++ entries.drop room).Pairwise
        fun a b => a.ts.notBefore b.ts := by
      rw [List.take_append_drop]
      exact hsorted
    exact (List.pairwise_append.mp hsplit).2.2 entry hentry other hother

/-- On a documented canonical page, under a limit that is not negative: the canonical items
that fit, then the newest entries before the horizon, and nothing twice. -/
theorem merged_history_sound {canonicalItems : List HistoryItem} (legacyItems : List PyValue)
    {limit : ℤ} (hpage : CanonicalPage canonicalItems) (hlimit : 0 ≤ limit) :
    let page := mergeCanonicalAndLegacyHistory canonicalItems legacyItems limit
    (∃ older left, MergedPage canonicalItems legacyItems limit page older left ∧
      ∀ entry ∈ older, Precanonical canonicalItems entry) ∧
    (canonicalItems.Nodup → (validLegacy legacyItems).Nodup → page.Nodup) := by
  have hmerged : ∃ older left, MergedPage canonicalItems legacyItems limit
      (mergeCanonicalAndLegacyHistory canonicalItems legacyItems limit) older left := by
    by_cases hfull : limit ≤ canonicalItems.length
    · exact ⟨_, _, merged_page_full legacyItems hpage hlimit hfull⟩
    by_cases hnone : canonicalItems = []
    · subst hnone
      have hpos : 0 < limit := by simpa using hfull
      exact ⟨_, _, merged_page_legacy legacyItems hpos⟩
    · exact ⟨_, _, merged_page_shared legacyItems hpage hnone (by omega)⟩
  obtain ⟨older, left, h⟩ := hmerged
  exact ⟨⟨older, left, h, h.before_horizon⟩, fun hcanonical hlegacy => h.nodup hcanonical hlegacy⟩

/-- An entry of `history.json` with only a time. -/
def stampedEntry (ts : ℤ) : PyValue := .dict [(.str "ts", .int ts)]

/-- The item of an untitled run. -/
@[grind =] def stampedItem (ts : ℤ) (receiptId : String) : HistoryItem :=
  ⟨.finite ts, "", .str "UNKNOWN", 0, .finite 0, [], receiptId, "completed"⟩

theorem merged_history_sample :
    CanonicalPage [stampedItem 200 "run_b", stampedItem 100 "run_a"] ∧ (0 : ℤ) ≤ 3 ∧
    ∃ older left, MergedPage [stampedItem 200 "run_b", stampedItem 100 "run_a"]
      [stampedEntry 40, stampedEntry 150, .none, stampedEntry 50] 3
      (mergeCanonicalAndLegacyHistory [stampedItem 200 "run_b", stampedItem 100 "run_a"]
        [stampedEntry 40, stampedEntry 150, .none, stampedEntry 50] 3) older left := by
  have hpage : CanonicalPage [stampedItem 200 "run_b", stampedItem 100 "run_a"] := by
    constructor
    · simp [stampedItem]
    · simp only [stampedItem, PyFloat.notBefore, PyFloat.lt, List.pairwise_cons]
      norm_num
  obtain ⟨⟨older, left, h, _⟩, _⟩ := merged_history_sound
    [stampedEntry 40, stampedEntry 150, .none, stampedEntry 50] hpage (by decide : (0 : ℤ) ≤ 3)
  exact ⟨hpage, by decide, older, left, h⟩

/-- Without canonical items the page keeps the order of the file, whatever the times are. -/
theorem stored_order_is_not_sorted :
    ¬ (mergeCanonicalAndLegacyHistory [] [stampedEntry 1, stampedEntry 2] 100).Pairwise
      newestFirst := by
  decide

end Imece.RunRuntime
