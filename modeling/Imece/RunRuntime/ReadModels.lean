import Mathlib.Data.List.Sort
import Imece.RunRuntime.Service

/-!
# Reading histories

Paged reads of a run's events, and the loop that reads the exact prefix `1 .. n`
page by page while other writers may append between two pages.
-/
namespace Imece.RunRuntime

open Lib

structure EventPage where
  events : List RunEvent
  hasMore : Bool

def maxEventPageLimit : ℤ := 200

namespace RunStore

/-- `events(run_id, after_seq, limit)`: the rows past `after_seq` by ascending
sequence number; one row more than the limit is fetched to see whether any is
left. -/
def events (runId : String) (afterSeq : ℕ) (limit : ℤ) : Call EventPage := fun store =>
  if limit ≤ 0 then .error (.runStore "limit pozitif olmalı") store
  else if (store.findRun runId).isNone then .error (.runNotFound runId) store
  else
    let limit := (min limit maxEventPageLimit).toNat
    let rows := (((store.log runId).filter (fun e => decide (afterSeq < e.seq))).insertionSort
      (fun a b => a.seq ≤ b.seq)).take (limit + 1)
    .ok { events := rows.take limit, hasMore := decide (limit < rows.length) } store

end RunStore

/-- The check that closes `load_full_event_history`. -/
def finishHistory (throughSeq : ℕ) (events : List RunEvent) : RunProg (List RunEvent) :=
  let finalSeq := (events.getLast?.map (·.seq)).getD 0
  if finalSeq ≠ throughSeq then
    Prog.throw (.runStore "Döndürülen son seq, through_seq ile eşleşmiyor")
  else pure events

/-- The page loop. Each page moves the cursor on, so `throughSeq` rounds suffice
(`loadPages_safe`); the first branch is never taken. -/
def loadPages (runId : String) (throughSeq : ℕ) :
    ℕ → ℕ → List RunEvent → RunProg (List RunEvent)
  | 0, _, _ => Prog.throw (.runStore "sayfa sınırı aşıldı")
  | fuel + 1, afterSeq, acc => do
      let page ← Prog.call .read
        (RunStore.events runId afterSeq (min maxEventPageLimit (throughSeq - afterSeq)))
      if page.hasMore && page.events.isEmpty then
        Prog.throw (.runStore "Event sayfalama tutarsız")
      else
        let acc := acc ++ page.events
        let afterSeq := (page.events.getLast?.map (·.seq)).getD afterSeq
        if throughSeq ≤ afterSeq then finishHistory throughSeq acc
        else if !page.hasMore then
          Prog.throw (.runStore "through_seq, dayanıklı akıştan daha ileride")
        else loadPages runId throughSeq fuel afterSeq acc

/-- `load_full_event_history(store, run_id, through_seq=n)`. -/
def loadFullEventHistory (runId : String) (throughSeq : ℕ) : RunProg (List RunEvent) :=
  if throughSeq = 0 then pure [] else loadPages runId throughSeq throughSeq 0 []

namespace RunStore

lemma events_after (runId : String) (afterSeq : ℕ) (limit : ℤ) (store : RunStore) :
    after (events runId afterSeq limit) store = store := by
  unfold after events
  by_cases hlimit : limit ≤ 0
  · simp [hlimit]
  · by_cases hrun : (store.findRun runId).isNone = true
    · simp [hlimit, hrun]
    · simp [hlimit, hrun]

/-- In a numbered log, the rows past `n` are the log without its first `n`. -/
lemma filter_seq_gt {log : List RunEvent} (h : Numbered (·.seq) log) (n : ℕ) :
    log.filter (fun e => decide (n < e.seq)) = log.drop n := by
  conv_lhs => rw [← List.take_append_drop n log]
  rw [List.filter_append]
  have hsplit := h
  rw [← List.take_append_drop n log] at hsplit
  have htake : (log.take n).filter (fun e => decide (n < e.seq)) = [] := by
    rw [List.filter_eq_nil_iff]
    intro e he
    obtain ⟨i, hi, rfl⟩ := List.mem_iff_getElem.mp he
    have hlen : i < n ∧ i < log.length := by
      rw [List.length_take] at hi
      omega
    rw [List.getElem_take, numbered_getElem h i hlen.2]
    simp only [decide_eq_true_eq]
    omega
  have hdrop : (log.drop n).filter (fun e => decide (n < e.seq)) = log.drop n := by
    rw [List.filter_eq_self]
    intro e he
    obtain ⟨i, hi, rfl⟩ := List.mem_iff_getElem.mp he
    have hlen : n + i < log.length := by
      rw [List.length_drop] at hi
      omega
    rw [List.getElem_drop, numbered_getElem h (n + i) hlen]
    simp only [decide_eq_true_eq]
    omega
  rw [htake, hdrop, List.nil_append]

/-- A page of a consistent run is the next stretch of its log. -/
theorem events_page {store : RunStore} {runId : String} {afterSeq : ℕ} {limit : ℤ}
    (hrun : (store.findRun runId).isSome) (hstore : store.Consistent runId) (hlimit : 0 < limit) :
    result (events runId afterSeq limit) store = .ok
      { events := ((store.log runId).drop afterSeq).take (min limit maxEventPageLimit).toNat
        hasMore := decide ((min limit maxEventPageLimit).toNat <
          ((store.log runId).length - afterSeq)) } := by
  obtain ⟨row, hrow⟩ := Option.isSome_iff_exists.mp hrun
  have hnumbered := (hstore.history row hrow).numbered
  have hsorted : (((store.log runId).drop afterSeq).insertionSort
      (fun a b => a.seq ≤ b.seq)) = (store.log runId).drop afterSeq := by
    apply List.Pairwise.insertionSort_eq
    exact ((numbered_pairwise hnumbered).sublist (List.drop_sublist _ _)).imp fun h => h.le
  unfold result events
  rw [if_neg (by omega), if_neg (by simp [hrow])]
  simp only [filter_seq_gt hnumbered, hsorted]
  congr 2
  · rw [List.take_take, Nat.min_eq_left (by omega)]
  · rw [List.length_take, List.length_drop]
    congr 1
    apply propext
    omega

end RunStore

section Loading

variable {guar : StoreAccess → RunStore → RunStore → Prop} {runId : String} {seen : List RunEvent}

/-- The number of the last of the first `n` events is `n`. -/
lemma lastSeq_take {log : List RunEvent} (h : Numbered (·.seq) log) {n : ℕ} (hpos : 0 < n)
    (hn : n ≤ log.length) : (log.take n).getLast?.map (·.seq) = some n := by
  have hlast : (log.take n).getLast? = some log[n - 1] := by
    rw [List.getLast?_eq_getElem?, List.length_take, Nat.min_eq_left hn,
      List.getElem?_eq_getElem (by rw [List.length_take]; omega), List.getElem_take]
  rw [hlast, Option.map_some, numbered_getElem h (n - 1) (by omega)]
  congr 1
  omega

lemma finishHistory_eq (h : Numbered (·.seq) seen) (hpos : 0 < seen.length) :
    finishHistory seen.length seen = pure seen := by
  have hlast := lastSeq_take h hpos le_rfl
  rw [List.take_length] at hlast
  simp [finishHistory, hlast]

/-- By induction on the fuel: the pages read so far are the first `afterSeq`
events that were in the log when reading began, whatever was appended since. -/
theorem loadPages_safe (hguar : ∀ access t, guar access t t) (hnumbered : Numbered (·.seq) seen)
    {fuel afterSeq : ℕ} {store : RunStore} (hstore : store.Consistent runId)
    (hrun : (store.findRun runId).isSome) (hseen : seen <+: store.log runId)
    (hcursor : afterSeq < seen.length) (hfuel : seen.length ≤ fuel + afterSeq) :
    (loadPages runId seen.length fuel afterSeq (seen.take afterSeq)).Safe RunStore.Grows guar
      (fun r _ => r = .ok seen) store := by
  induction fuel generalizing afterSeq store with
  | zero => omega
  | succ fuel ih =>
      unfold loadPages
      have hlimit : 0 < min maxEventPageLimit ((seen.length : ℤ) - afterSeq) := by
        unfold maxEventPageLimit
        omega
      refine Prog.Safe.call_bind (fun t _ => ?_) (fun t page ht hpage => ?_)
        (fun t e u ht herror _ => ?_)
      · rw [RunStore.events_after]
        exact hguar .read t
      · rw [RunStore.events_after]
        have hconsistent := ht.consistent runId hstore
        have hgrown := hseen.trans (ht.log runId)
        rw [RunStore.events_page (ht.exist runId hrun) hconsistent hlimit] at hpage
        obtain ⟨size, hsize⟩ : ∃ size, (min (min maxEventPageLimit ((seen.length : ℤ) - afterSeq))
            maxEventPageLimit).toNat = size ∧ 0 < size ∧ afterSeq + size ≤ seen.length := by
          refine ⟨_, rfl, ?_, ?_⟩ <;> unfold maxEventPageLimit at hlimit ⊢ <;> omega
        obtain ⟨hsize, hpos, hbound⟩ := hsize
        rw [hsize] at hpage
        cases hpage
        have hlength : seen.length ≤ (t.log runId).length := hgrown.length_le
        have hrows : seen.take afterSeq ++ ((t.log runId).drop afterSeq).take size =
            seen.take (afterSeq + size) := by
          rw [← take_of_grows hgrown hcursor.le, ← take_of_grows hgrown hbound, List.take_add]
        have hlast : ((((t.log runId).drop afterSeq).take size).getLast?.map (·.seq)).getD
            afterSeq = afterSeq + size := by
          have hseq := lastSeq_take hnumbered (n := afterSeq + size) (by omega) hbound
          rw [← hrows, List.getLast?_append_of_ne_nil] at hseq
          · simp [hseq]
          · simp only [ne_eq, List.take_eq_nil_iff, List.drop_eq_nil_iff, not_or]
            omega
        have hnonempty : (((t.log runId).drop afterSeq).take size).isEmpty = false := by
          rw [List.isEmpty_eq_false_iff]
          simp only [ne_eq, List.take_eq_nil_iff, List.drop_eq_nil_iff, not_or]
          omega
        simp only [hnonempty, Bool.and_false, Bool.false_eq_true, if_false, hrows, hlast]
        by_cases hdone : seen.length ≤ afterSeq + size
        · have hfull : afterSeq + size = seen.length := by omega
          rw [if_pos hdone, hfull, List.take_length, finishHistory_eq hnumbered (by omega)]
          exact fun u _ => rfl
        · have hmore : size < (t.log runId).length - afterSeq := by omega
          rw [if_neg hdone]
          simp only [hmore, decide_true, Bool.not_true, Bool.false_eq_true, if_false]
          exact ih hconsistent (ht.exist runId hrun) hgrown (by omega) (by omega)
      · rw [RunStore.events_page (ht.exist runId hrun) (ht.consistent runId hstore) hlimit]
          at herror
        cases herror

/-- The full read returns exactly the log as it was when the read began. -/
theorem loadFullEventHistory_safe (hguar : ∀ access t, guar access t t) {store : RunStore}
    (hstore : store.Consistent runId) (hrun : (store.findRun runId).isSome) :
    (loadFullEventHistory runId (store.log runId).length).Safe RunStore.Grows guar
      (fun r _ => r = .ok (store.log runId)) store := by
  obtain ⟨row, hrow⟩ := Option.isSome_iff_exists.mp hrun
  unfold loadFullEventHistory
  split
  · rename_i hzero
    rw [List.length_eq_zero_iff.mp hzero]
    exact fun u _ => rfl
  · rename_i hpos
    exact loadPages_safe hguar (hstore.history row hrow).numbered hstore hrun
      List.prefix_rfl (by omega) (by omega)

end Loading

end Imece.RunRuntime
