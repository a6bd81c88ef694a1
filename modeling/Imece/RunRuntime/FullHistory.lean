import Imece.RunRuntime.ReadModels

/-!
# The exact prefix of a growing history

`load_full_event_history` with every page size and bound, over reads that may fail on
their own. Other writers append between two pages.
-/
namespace Imece.RunRuntime

open Lib

section Reader

/-- What a read may raise on its own, a database error or a row that does not decode: the
reads are numbered by the rounds left. -/
abbrev ReadFaults := ℕ → Option RunRuntimeError

variable (faults : ReadFaults) (runId : String) (pageSize : ℤ)

def readPage (round afterSeq : ℕ) (limit : ℤ) : RunStore.Call EventPage := fun store =>
  match faults round with
  | some e => .error e store
  | none => RunStore.events runId afterSeq limit store

/-- `through_seq`: absent, or a number of events. -/
def checkThrough : PyValue → Except RunRuntimeError (Option ℕ)
  | .none => .ok none
  | .int n =>
      if n < 0 then .error (.runStore s!"through_seq >= 0 olmalı: {n}") else .ok (some n.toNat)
  | _ => .error (.runStore "through_seq bir tam sayı olmalı")

/-- The rest of the history up to the bound. -/
def pageLimit (through : Option ℕ) (afterSeq : ℕ) : ℤ :=
  match through with
  | some n => min pageSize (n - afterSeq)
  | none => pageSize

/-- The page loop, for so many rounds: `none` if they do not suffice. -/
def historyLoop (through : Option ℕ) : ℕ → ℕ → List RunEvent → RunProg (Option (List RunEvent))
  | 0, _, _ => pure none
  | fuel + 1, afterSeq, acc => do
      let page ← Prog.call .read
        (readPage faults runId fuel afterSeq (pageLimit pageSize through afterSeq))
      if page.hasMore && page.events.isEmpty then
        Prog.throw (.runStore (s!"Event sayfalama tutarsız: run_id={runId} " ++
          s!"after_seq={afterSeq} boş sayfa ile has_more=True bildirildi."))
      else
        let acc := acc ++ page.events
        let afterSeq := (page.events.getLast?.map (·.seq)).getD afterSeq
        match through with
        | some n =>
            if n ≤ afterSeq then some <$> finishHistory n acc
            else if !page.hasMore then
              Prog.throw (.runStore (s!"through_seq={n}, dayanıklı akıştan (son " ++
                s!"seq={afterSeq}) daha ileride: run_id={runId}"))
            else historyLoop through fuel afterSeq acc
        | none =>
            if page.hasMore then historyLoop through fuel afterSeq acc else pure (some acc)

/-- `load_full_event_history(store, run_id, page_size, through_seq)` -/
def loadHistoryThrough (throughSeq : PyValue) (fuel : ℕ) : RunProg (Option (List RunEvent)) := do
  let through ← Prog.check (checkThrough throughSeq)
  if through = some 0 then pure (some [])
  else historyLoop faults runId pageSize through fuel 0 []

end Reader

section Exactness

variable {faults : ReadFaults} {runId : String} {pageSize : ℤ} {through : Option ℕ}

lemma readPage_after (faults : ReadFaults) (runId : String) (round afterSeq : ℕ) (limit : ℤ)
    (store : RunStore) : after (readPage faults runId round afterSeq limit) store = store := by
  unfold after readPage
  cases faults round with
  | some e => rfl
  | none => exact RunStore.events_after runId afterSeq limit store

/-- Nothing stands in the way of the reader: no read fails on its own, pages have a size, and
the run has as many events as are asked for. -/
structure Readable (faults : ReadFaults) (runId : String) (pageSize : ℤ) (through : Option ℕ)
    (store : RunStore) : Prop where
  sound : ∀ round, faults round = none
  size : 0 < pageSize
  present : (store.findRun runId).isSome
  long : ∀ n, through = some n → n ≤ (store.log runId).length

lemma Readable.grow {store next : RunStore} (h : Readable faults runId pageSize through store)
    (hgrows : RunStore.Grows store next) : Readable faults runId pageSize through next where
  sound := h.sound
  size := h.size
  present := hgrows.exist runId h.present
  long n hn := (h.long n hn).trans (hgrows.log runId).length_le

/-- What a read may return: a stretch of the log from its start, as long as asked for, or,
where something stands in the way, an exception. -/
def HistoryRead (readable : Prop) (runId : String) (through : Option ℕ)
    (result : Except RunRuntimeError (Option (List RunEvent))) (store : RunStore) : Prop :=
  match result with
  | .error _ => ¬ readable
  | .ok none => through = none
  | .ok (some events) => events <+: store.log runId ∧ ∀ n, through = some n → events.length = n

lemma cursor_append {log acc rows : List RunEvent} (hnumbered : Numbered (·.seq) log)
    (hfront : acc ++ rows <+: log) :
    (rows.getLast?.map (·.seq)).getD acc.length = (acc ++ rows).length := by
  by_cases hrows : rows = []
  · subst hrows
    simp
  · have hlength := hfront.length_le
    have hpos : 0 < (acc ++ rows).length := by
      have := List.length_pos_iff.mpr hrows
      rw [List.length_append]
      omega
    have hseq := lastSeq_take hnumbered hpos hlength
    rw [← List.prefix_iff_eq_take.mp hfront, List.getLast?_append_of_ne_nil _ hrows] at hseq
    rw [hseq, Option.getD_some]

/-- The page that a read of a consistent run gives, if nothing stands in its way. -/
lemma readPage_cases {round afterSeq : ℕ} {limit : ℤ} {store : RunStore}
    (hstore : store.Consistent runId) :
    (∃ e, result (readPage faults runId round afterSeq limit) store = .error e ∧
      ¬ (faults round = none ∧ 0 < limit ∧ (store.findRun runId).isSome)) ∨
    ∃ size : ℕ, 0 < size ∧ (size : ℤ) ≤ limit ∧ (store.findRun runId).isSome ∧
      result (readPage faults runId round afterSeq limit) store = .ok
        { events := ((store.log runId).drop afterSeq).take size
          hasMore := decide (size < ((store.log runId).length - afterSeq)) } := by
  cases hfault : faults round with
  | some e =>
      refine Or.inl ⟨e, ?_, by simp⟩
      simp [result, readPage, hfault]
  | none =>
      have hread : result (readPage faults runId round afterSeq limit) store =
          result (RunStore.events runId afterSeq limit) store := by
        simp [result, readPage, hfault]
      by_cases hlimit : 0 < limit
      · by_cases hrun : (store.findRun runId).isSome = true
        · refine Or.inr ⟨(min limit maxEventPageLimit).toNat, ?_, ?_, hrun,
            hread.trans (RunStore.events_page hrun hstore hlimit)⟩
          · unfold maxEventPageLimit
            omega
          · unfold maxEventPageLimit
            omega
        · refine Or.inl ⟨.runNotFound runId, hread.trans ?_, by simp [hrun]⟩
          rw [Bool.not_eq_true, ← Bool.not_eq_true', Option.not_isSome] at hrun
          simp [result, RunStore.events, not_le.mpr hlimit, hrun]
      · refine Or.inl ⟨.runStore "limit pozitif olmalı", hread.trans ?_, by simp [hlimit]⟩
        have hle : limit ≤ 0 := by omega
        simp [result, RunStore.events, hle]

lemma finishHistory_last {n : ℕ} {log acc : List RunEvent} (hnumbered : Numbered (·.seq) log)
    (hfront : acc <+: log) (hpos : 0 < n) (hlength : acc.length = n) :
    finishHistory n acc = pure acc := by
  subst hlength
  rw [List.prefix_iff_eq_take.mp hfront] at hpos ⊢
  exact finishHistory_eq (numbered_take hnumbered _) hpos

/-- The next stretch of a log, appended to the start that has been read. -/
lemma stretch_read {log acc : List RunEvent} {size : ℕ} (hfront : acc <+: log) (hpos : 0 < size) :
    acc ++ (log.drop acc.length).take size <+: log ∧
      (acc ++ (log.drop acc.length).take size).length = min (acc.length + size) log.length ∧
      (decide (size < log.length - acc.length) && ((log.drop acc.length).take size).isEmpty) =
        false := by
  have hrows : acc ++ (log.drop acc.length).take size = log.take (acc.length + size) := by
    rw [List.take_add, ← List.prefix_iff_eq_take.mp hfront]
  refine ⟨?_, ?_, ?_⟩
  · rw [hrows]
    exact List.take_prefix _ _
  · rw [hrows, List.length_take]
  · rw [Bool.and_eq_false_iff, decide_eq_false_iff_not, List.isEmpty_eq_false_iff]
    by_cases hmore : size < log.length - acc.length
    · right
      rw [← List.length_pos_iff, List.length_take, List.length_drop]
      omega
    · exact Or.inl hmore

/-- By induction on the rounds left: what has been read is the start of the log, and each
round that goes on has read at least one event more, so that `n` rounds suffice for `n`. -/
lemma historyLoop_safe {fuel : ℕ} {store : RunStore} {acc : List RunEvent} {readable : Prop}
    (hstore : store.Consistent runId) (hfront : acc <+: store.log runId)
    (hreadable : readable → Readable faults runId pageSize through store)
    (hbound : ∀ n, through = some n → acc.length < n ∧ n ≤ fuel + acc.length) :
    (historyLoop faults runId pageSize through fuel acc.length acc).Safe RunStore.Grows
      (fun _ a b => b = a) (HistoryRead readable runId through) store := by
  induction fuel generalizing acc store with
  | zero =>
      intro t ht
      cases through with
      | none => rfl
      | some n =>
          have := hbound n rfl
          omega
  | succ fuel ih =>
      unfold historyLoop
      refine Prog.Safe.call_bind (fun t _ => readPage_after _ _ _ _ _ t) (fun t page ht hpage => ?_)
        (fun t e u ht herror _ => ?_)
      · rw [readPage_after]
        have hconsistent := ht.consistent runId hstore
        have hgrown := hfront.trans (ht.log runId)
        rcases readPage_cases hconsistent with ⟨e, herror, -⟩ | ⟨size, hpos, hlimit, hrun, hread⟩
        · rw [herror] at hpage
          cases hpage
        · rw [hread] at hpage
          cases hpage
          obtain ⟨row, hrow⟩ := Option.isSome_iff_exists.mp hrun
          have hnumbered := (hconsistent.history row hrow).numbered
          obtain ⟨hread', hlonger, hempty⟩ := stretch_read hgrown hpos
          have hnow (hgood : readable) := (hreadable hgood).grow ht
          simp only [hempty, Bool.false_eq_true, if_false, cursor_append hnumbered hread']
          generalize acc ++ ((t.log runId).drop acc.length).take size = read at *
          have hlonger' := hgrown.length_le
          cases through with
          | none =>
              simp only [decide_eq_true_eq]
              by_cases hmore : size < (t.log runId).length - acc.length
              · rw [if_pos hmore]
                exact ih hconsistent hread' hnow nofun
              · rw [if_neg hmore]
                exact fun u hu => ⟨hread'.trans (hu.log runId), nofun⟩
          | some n =>
              obtain ⟨hshort, hrounds⟩ := hbound n rfl
              have hroom : acc.length + size ≤ n := by
                unfold pageLimit at hlimit
                simp only at hlimit
                omega
              by_cases hdone : n ≤ read.length
              · have hexact : read.length = n := by omega
                simp only [if_pos hdone]
                rw [finishHistory_last hnumbered hread' (by omega) hexact]
                intro u hu
                refine ⟨hread'.trans (hu.log runId), ?_⟩
                rintro m ⟨⟩
                exact hexact
              · simp only [if_neg hdone, Bool.not_eq_true', decide_eq_false_iff_not]
                by_cases hmore : size < (t.log runId).length - acc.length
                · rw [if_neg (not_not.mpr hmore)]
                  refine ih hconsistent hread' hnow ?_
                  rintro m ⟨⟩
                  omega
                · rw [if_pos hmore]
                  intro u hu hgood
                  have := (hnow hgood).long n rfl
                  omega
      · rw [readPage_after] at *
        have hcases := @readPage_cases faults runId fuel acc.length
          (pageLimit pageSize through acc.length) t (ht.consistent runId hstore)
        rcases hcases with ⟨_, _, hobstacle⟩ | ⟨size, _, _, _, hread⟩
        · intro hgood
          have hnow := (hreadable hgood).grow ht
          refine hobstacle ⟨hnow.sound fuel, ?_, hnow.present⟩
          unfold pageLimit
          cases through with
          | none => exact hnow.size
          | some n =>
              have := hbound n rfl
              have := hnow.size
              simp only
              omega
        · rw [hread] at herror
          cases herror

lemma historyLoop_within (through : Option ℕ) (fuel afterSeq : ℕ) (acc : List RunEvent) :
    (historyLoop faults runId pageSize through fuel afterSeq acc).Within fuel := by
  induction fuel generalizing afterSeq acc with
  | zero => trivial
  | succ fuel ih =>
      unfold historyLoop
      refine Prog.Within.call_bind fun page => ?_
      split
      · cases fuel <;> trivial
      · cases through with
        | none =>
            simp only
            split
            · exact ih _ _
            · cases fuel <;> trivial
        | some n =>
            simp only
            split
            · unfold finishHistory
              simp only
              split <;> cases fuel <;> trivial
            · split
              · cases fuel <;> trivial
              · exact ih _ _

lemma loadHistoryThrough_negative {n : ℤ} (hn : n < 0) (fuel : ℕ) :
    loadHistoryThrough faults runId pageSize (.int n) fuel =
      Prog.throw (.runStore s!"through_seq >= 0 olmalı: {n}") := by
  simp only [loadHistoryThrough, checkThrough, if_pos hn]
  rfl

lemma loadHistoryThrough_count {n : ℤ} (hn : ¬ n < 0) (fuel : ℕ) :
    loadHistoryThrough faults runId pageSize (.int n) fuel =
      if some n.toNat = some 0 then pure (some [])
      else historyLoop faults runId pageSize (some n.toNat) fuel 0 [] := by
  simp only [loadHistoryThrough, checkThrough, if_neg hn]
  rfl

lemma loadHistoryThrough_within (n : ℤ) (fuel : ℕ) :
    (loadHistoryThrough faults runId pageSize (.int n) fuel).Within fuel := by
  by_cases hn : n < 0
  · rw [loadHistoryThrough_negative hn]
    cases fuel <;> trivial
  · rw [loadHistoryThrough_count hn]
    split
    · cases fuel <;> trivial
    · exact historyLoop_within _ _ _ _

lemma loadHistoryThrough_safe {n : ℤ} {fuel : ℕ} (hn : ¬ n < 0) (hfuel : n ≤ fuel)
    {store : RunStore} (hstore : store.Consistent runId) :
    (loadHistoryThrough faults runId pageSize (.int n) fuel).Safe RunStore.Grows
      (fun _ a b => b = a)
      (HistoryRead (Readable faults runId pageSize (some n.toNat) store) runId (some n.toNat))
      store := by
  rw [loadHistoryThrough_count hn]
  split
  · rename_i hzero
    intro t ht
    refine ⟨List.nil_prefix, ?_⟩
    rintro m ⟨⟩
    exact (Option.some.inj hzero).symm
  · rename_i hpos
    refine @historyLoop_safe faults runId pageSize _ fuel store [] _ hstore List.nil_prefix id ?_
    rintro m ⟨⟩
    have : n.toNat ≠ 0 := fun hzero => hpos (congrArg some hzero)
    simp only [List.length_nil]
    omega

/-- One call of another writer between two reads. -/
def writerCall (store : RunStore) (call : RunStore.StoreCall) : RunStore := after call.run store

/-- Reading the first `n` events, from any store that calls can make, with any page size,
while others write between the reads: `n` rounds end it, and it raises or returns exactly the
events `1 .. n` of the run in their order. It returns them if no read fails on its own, pages
have a size and the run has `n` events. -/
theorem loadHistoryThrough_exact (faults : ReadFaults) (runId : String) (pageSize n : ℤ)
    (fuel : ℕ) (hfuel : n ≤ fuel) (calls : List RunStore.StoreCall)
    (schedule : List (List RunStore.StoreCall)) :
    let store := RunStore.runCalls .initial calls
    let run := (loadHistoryThrough faults runId pageSize (.int n) fuel).among writerCall schedule
      store
    (fuel ≤ schedule.length → ∃ result, run.1 = some result) ∧
    (∀ result, run.1 = some result → (∃ e, result = .error e) ∨
      ∃ events, result = .ok (some events) ∧ 0 ≤ n ∧
        events = (run.2.log runId).take n.toNat ∧
        events.map (·.seq) = List.range' 1 n.toNat) ∧
    ((∀ round, faults round = none) → 0 < pageSize → (store.findRun runId).isSome → 0 ≤ n →
      n ≤ (store.log runId).length → ∀ e, run.1 ≠ some (.error e)) := by
  intro store run
  have hconsistent : store.Consistent runId :=
    RunStore.runCalls_consistent calls (RunStore.initial_consistent runId)
  have hmoves (s : RunStore) (moves : List RunStore.StoreCall) :
      RunStore.Grows s (Machine.run writerCall s moves) := by
    induction moves generalizing s with
    | nil => exact RunStore.Grows.refl s
    | cons call rest ih => exact (RunStore.grows_after call s).trans (ih _)
  refine ⟨fun hlength => (loadHistoryThrough_within n fuel).finishes hlength store, ?_⟩
  by_cases hnegative : n < 0
  · have hraise : run = (some (.error (.runStore s!"through_seq >= 0 olmalı: {n}")), store) := by
      simp only [run, loadHistoryThrough_negative hnegative]
      rfl
    rw [hraise]
    refine ⟨?_, fun _ _ _ hn => by omega⟩
    rintro result ⟨⟩
    exact Or.inl ⟨_, rfl⟩
  · have hsafe := @loadHistoryThrough_safe faults runId pageSize n fuel hnegative hfuel store
      hconsistent
    have htrans : ∀ a b c, RunStore.Grows a b → RunStore.Grows b c → RunStore.Grows a c :=
      fun _ _ _ => RunStore.Grows.trans
    have hkept : ∀ (_ : StoreAccess) (a b : RunStore), b = a → RunStore.Grows a b := by
      rintro - a _ rfl
      exact RunStore.Grows.refl _
    have hreached := hsafe.reached htrans hkept
    have hends := hreached.among hmoves schedule
    refine ⟨?_, ?_⟩
    · intro result hresult
      obtain ⟨hpost, hgrows⟩ := hends result hresult
      cases result with
      | error e => exact Or.inl ⟨e, rfl⟩
      | ok found =>
          cases found with
          | none => cases hpost
          | some events =>
              obtain ⟨hfront, hlength⟩ := hpost
              have hexact := hlength n.toNat rfl
              have htake : events = (run.2.log runId).take n.toNat := by
                rw [← hexact]
                exact List.prefix_iff_eq_take.mp hfront
              refine Or.inr ⟨events, rfl, by omega, htake, ?_⟩
              have hnumbered : Numbered (·.seq) events := by
                rw [htake]
                exact numbered_take ((hgrows.consistent runId hconsistent).numbered) _
              rw [hnumbered, hexact]
    · intro hsound hsize hpresent hzero hlong e herror
      refine (hends _ herror).1 ⟨hsound, hsize, hpresent, ?_⟩
      rintro m ⟨⟩
      omega

theorem loadHistoryThrough_sample :
    ∃ events, ((loadHistoryThrough (fun _ => none) "r" 2 (.int 3) 3).among writerCall [[], [], []]
        (RunStore.runCalls .initial RunStore.sampleCalls)).1 = some (.ok (some events)) ∧
      events.map (·.seq) = [1, 2, 3] := by
  obtain ⟨hends, hexact, hreads⟩ := loadHistoryThrough_exact (fun _ => none) "r" 2 3 3 (by decide)
    RunStore.sampleCalls [[], [], []]
  obtain ⟨result, hresult⟩ := hends (by decide)
  rcases hexact result hresult with ⟨e, rfl⟩ | ⟨events, rfl, -, -, hseqs⟩
  · exact absurd hresult (hreads (fun _ => rfl) (by decide) (by decide +kernel) (by decide)
      (by decide +kernel) e)
  · exact ⟨events, hresult, hseqs⟩

end Exactness

end Imece.RunRuntime
