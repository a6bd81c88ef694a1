import Imece.Lib.Interleaving
import Imece.RunRuntime.StoreHistory

/-!
# Programs over the run store

`RunRuntime` delegates to the store and then wakes in-memory subscribers, which
change no stored state. A program of the runtime is a sequence of store calls,
with the calls of other writers in between.
-/
namespace Imece.RunRuntime

open Lib

/-- What a store call asks for: to read, or to append events of given types. -/
inductive StoreAccess where
  | read
  | append (runId : String) (types : List String)
deriving DecidableEq

/-- Programs of the run runtime: each access is one call of the store. -/
abbrev RunProg (α : Type) := Prog StoreAccess RunStore RunRuntimeError α

def getRun (runId : String) : RunProg RunRecord := Prog.call .read (RunStore.getRun runId)

/-- `expected_last_event_seq`: absent, or the sequence number the caller saw. -/
def expectedSeq : Option ℕ → PyValue
  | none => .none
  | some n => .int n

def record (runId : String) (args : EventArgs) (expected : Option ℕ) (fresh : Fresh) :
    RunProg (RunEvent × RunRecord) :=
  Prog.call (.append runId [args.type])
    (RunStore.appendEvent runId args (expectedSeq expected) fresh)

def recordMany (runId : String) (specs : List (RunEventSpec × Fresh)) (expected : Option ℕ) :
    RunProg (List RunEvent × RunRecord) :=
  Prog.call (.append runId (specs.map (·.1.type)))
    (RunStore.appendEvents runId specs (expectedSeq expected))

/-- A payload literal: string keys. -/
def payloadOf (fields : List (String × PyValue)) : PyValue :=
  .dict (fields.map fun field => (.str field.1, field.2))

/-- The payload a validated spec carries is the one it was given. -/
lemma validateEventPayload_entries {payload : PyValue} {d : JsonDict}
    (h : validateEventPayload payload = .ok d) : payload = .dict d.entries := by
  simp only [validateEventPayload, except_mapError_eq_ok, canonicalDictCopy] at h
  split at h
  · split at h
    · cases h
    · cases h
      rfl
  · cases h

/-- A spec passes on exactly the arguments it was built from. -/
theorem RunEventSpec.ofArgs_args {args : EventArgs} {spec : RunEventSpec}
    (h : RunEventSpec.ofArgs args = .ok spec) : spec.args = args := by
  unfold RunEventSpec.ofArgs at h
  repeat' split at h
  all_goals cases h
  rename_i payload hpayload
  simp only [RunEventSpec.args, ← validateEventPayload_entries hpayload]

/-- The status a log leads to depends on the types of its events alone. -/
def statusAfterTypes (status : RunStatus) (types : List String) : RunStatus :=
  types.foldl (fun s type => statusAfter s (RunEventType.ofString? type)) status

lemma statusAfterTypes_append (status : RunStatus) (first second : List String) :
    statusAfterTypes status (first ++ second) =
      statusAfterTypes (statusAfterTypes status first) second :=
  List.foldl_append

theorem statusOf_append_types {events more : List RunEvent} {types : List String}
    (h : more.map (·.type) = types) :
    statusOf (events ++ more) = statusAfterTypes (statusOf events) types := by
  rw [statusOf_append, ← h, statusAfterTypes, List.foldl_map]
  rfl

namespace RunStore

lemma getRun_after (runId : String) (store : RunStore) : after (getRun runId) store = store := by
  unfold after getRun
  cases store.findRun runId <;> rfl

lemma getRun_result {runId : String} {store : RunStore} {row : RunRecord}
    (h : result (getRun runId) store = .ok row) : store.findRun runId = some row := by
  rw [result_eq_ok, getRun_after] at h
  exact (getRun_ok h).1

/-- A successful append call: events of the given types at the end of one log. -/
structure Extends (store next : RunStore) (runId : String) (types : List String) : Prop where
  grows : Grows store next
  exist : (store.findRun runId).isSome
  log : ∃ events, next.log runId = store.log runId ++ events ∧ events.map (·.type) = types
  otherLog : ∀ other, other ≠ runId → next.log other = store.log other

theorem Extends.status {store next : RunStore} {runId : String} {types : List String}
    (h : Extends store next runId types) :
    statusOf (next.log runId) = statusAfterTypes (statusOf (store.log runId)) types := by
  obtain ⟨events, hlog, htypes⟩ := h.log
  rw [hlog, statusOf_append_types htypes]

lemma expectedSeq_length {expected : Option ℕ} {length : ℕ}
    (h : expectedSeq expected = .none ∨ expectedSeq expected = .int length) :
    ∀ n ∈ expected, n = length := by
  rintro n rfl
  rcases h with h | h
  · cases h
  · simpa [expectedSeq] using h

/-- What a successful append of one event returns and leaves. -/
theorem appendEvent_extends {store next : RunStore} {runId : String}
    (hstore : store.Consistent runId) {args : EventArgs} {expected : Option ℕ} {fresh : Fresh}
    {event : RunEvent} {updated : RunRecord}
    (hok : appendEvent runId args (expectedSeq expected) fresh store = .ok (event, updated) next) :
    (∀ n ∈ expected, n = (store.log runId).length) ∧ Extends store next runId [args.type] ∧
      next.findRun runId = some updated := by
  have hgrows := grows_after (.appendEvent runId args (expectedSeq expected) fresh) store
  rw [StoreCall.run, after_map, after, hok] at hgrows
  obtain ⟨current, required, hcurrent, hrequired, hsequence, hwrite⟩ := appendEvent_ok hok
  have hwrote := writeEvent_ok hcurrent hwrite
  refine ⟨expectedSeq_length (checkSequence_length hstore hcurrent hrequired hsequence),
    ⟨hgrows, by simp [hcurrent], ⟨[event], hwrote.appended.log, ?_⟩, hwrote.appended.otherLog⟩,
    hwrote.appended.row⟩
  simp [(buildEvent_ok hwrote.built).2.2.1]

/-- An append call of one event: it raised and left the store, or the log had
the expected length and is one event longer. -/
theorem appendEvent_cases {store : RunStore} {runId : String} (hstore : store.Consistent runId)
    (args : EventArgs) (expected : Option ℕ) (fresh : Fresh) :
    after (appendEvent runId args (expectedSeq expected) fresh) store = store ∨
      (∀ n ∈ expected, n = (store.log runId).length) ∧
        Extends store (after (appendEvent runId args (expectedSeq expected) fresh) store) runId
          [args.type] := by
  rcases after_cases (appendEvent_failsClean runId args (expectedSeq expected) fresh) store
    with hsame | ⟨⟨event, updated⟩, hok⟩
  · exact Or.inl hsame
  · obtain ⟨hseq, hextends, -⟩ := appendEvent_extends hstore hok
    exact Or.inr ⟨hseq, hextends⟩

/-- What a successful batch returns and leaves. -/
theorem appendEvents_extends {store next : RunStore} {runId : String}
    (hstore : store.Consistent runId) {specs : List (RunEventSpec × Fresh)}
    {expected : Option ℕ} {events : List RunEvent} {updated : RunRecord}
    (hok : appendEvents runId specs (expectedSeq expected) store = .ok (events, updated) next) :
    (∀ n ∈ expected, n = (store.log runId).length) ∧
      Extends store next runId (specs.map (·.1.type)) ∧
      next.log runId = store.log runId ++ events ∧ events ≠ [] := by
  have hgrows := grows_after (.appendEvents runId specs (expectedSeq expected)) store
  rw [StoreCall.run, after_map, after, hok] at hgrows
  obtain ⟨current, required, hspecs, hcurrent, hrequired, hsequence, hwrite⟩ := appendEvents_ok hok
  have happended := (writeEvents_ok hcurrent hwrite).1
  have htypes := writeEvents_types hcurrent hwrite
  refine ⟨expectedSeq_length (checkSequence_length hstore hcurrent hrequired hsequence),
    ⟨hgrows, by simp [hcurrent], ⟨events, happended.log, htypes⟩, happended.otherLog⟩,
    happended.log, ?_⟩
  rintro rfl
  exact hspecs (List.map_eq_nil_iff.mp htypes.symm)

theorem appendEvents_cases {store : RunStore} {runId : String} (hstore : store.Consistent runId)
    (specs : List (RunEventSpec × Fresh)) (expected : Option ℕ) :
    after (appendEvents runId specs (expectedSeq expected)) store = store ∨
      (∀ n ∈ expected, n = (store.log runId).length) ∧
        Extends store (after (appendEvents runId specs (expectedSeq expected)) store) runId
          (specs.map (·.1.type)) := by
  rcases after_cases (appendEvents_failsClean runId specs (expectedSeq expected)) store
    with hsame | ⟨⟨events, updated⟩, hok⟩
  · exact Or.inl hsame
  · obtain ⟨hseq, hextends, -⟩ := appendEvents_extends hstore hok
    exact Or.inr ⟨hseq, hextends⟩

end RunStore

end Imece.RunRuntime
