import Imece.RunRuntime.Store

/-!
# Histories of the run store

What each call does to the rows and the log of every run, and the invariant that
follows for any sequence of calls: a run row is the fold of its log. Calls of
several writers are serialised by SQLite, so an interleaving is a list of calls.
-/
namespace Imece.RunRuntime

open Lib

/-- A row and the log it is derived from: the events are numbered `1 .. n` and
the row is the fold of the projection over them, from a new run. -/
structure RunHistory (row : RunRecord) (events : List RunEvent) : Prop where
  numbered : Numbered (·.seq) events
  folded : ∃ created projected, created.IsNew ∧
    replay projectRun created events = .ok projected ∧
    row = { projected with lastEventSeq := events.length }

namespace RunHistory

theorem lastEventSeq {row : RunRecord} {events : List RunEvent} (h : RunHistory row events) :
    row.lastEventSeq = events.length := by
  obtain ⟨created, projected, -, -, rfl⟩ := h.folded
  rfl

theorem ofNew {row : RunRecord} (h : row.IsNew) : RunHistory row [] where
  numbered := numbered_nil _
  folded := ⟨row, row, h, rfl, by simp [← h.lastEventSeq]⟩

/-- One projected event extends the history by that event. -/
theorem snoc {row projected : RunRecord} {events : List RunEvent} {event : RunEvent}
    (h : RunHistory row events) (hseq : event.seq = row.lastEventSeq + 1)
    (hproject : projectRun row event = .ok projected) :
    RunHistory { projected with lastEventSeq := event.seq } (events ++ [event]) := by
  have hlength : event.seq = events.length + 1 := by rw [hseq, h.lastEventSeq]
  obtain ⟨created, folded, hnew, hreplay, hrow⟩ := h.folded
  rw [hrow, projectRun_setSeq, except_map_eq_ok] at hproject
  obtain ⟨next, hnext, rfl⟩ := hproject
  refine ⟨numbered_snoc h.numbered hlength, created, next, hnew, replay_snoc hreplay hnext, ?_⟩
  simp [hlength]

end RunHistory

/-- The status a log leads a new run to. -/
def statusOf (events : List RunEvent) : RunStatus :=
  events.foldl (fun status event => statusAfter status event.kind) .created

theorem statusOf_append (events more : List RunEvent) :
    statusOf (events ++ more) =
      more.foldl (fun status event => statusAfter status event.kind) (statusOf events) :=
  List.foldl_append

/-- The status column is a function of the log. -/
theorem RunHistory.status {row : RunRecord} {events : List RunEvent}
    (h : RunHistory row events) : row.status = statusOf events := by
  obtain ⟨created, projected, hnew, hreplay, rfl⟩ := h.folded
  have hobserve := replay_observe (·.status) (fun status event => statusAfter status event.kind)
    (fun _ _ _ hstep => (projectRun_ok hstep).status) hreplay
  rw [hnew.status] at hobserve
  exact hobserve

namespace RunStore

/-- The row of a run, if it exists, is derived from the run's log; a run that
does not exist has no events. -/
structure Consistent (store : RunStore) (runId : String) : Prop where
  absent : store.findRun runId = none → store.log runId = []
  history : ∀ row, store.findRun runId = some row → RunHistory row (store.log runId)

/-- The log of a run whose row is derived from it is numbered; that of no run is empty. -/
lemma Consistent.numbered {store : RunStore} {runId : String} (h : store.Consistent runId) :
    Numbered (·.seq) (store.log runId) := by
  cases hrow : store.findRun runId with
  | none =>
      rw [h.absent hrow]
      exact numbered_nil _
  | some row => exact (h.history row hrow).numbered

theorem findRun_some {store : RunStore} {runId : String} {row : RunRecord}
    (h : store.findRun runId = some row) : row ∈ store.runs ∧ row.runId = runId := by
  refine ⟨List.mem_of_find?_eq_some h, ?_⟩
  simpa using List.find?_some h

/-- `run_id` is a key: a stored row is the row found under its identifier. -/
theorem findRun_of_mem {store : RunStore} {run : RunRecord} (h : run ∈ store.runs) :
    store.findRun run.runId = some run := by
  cases hfound : store.findRun run.runId with
  | none =>
      have habsent := List.find?_eq_none.mp hfound run h
      simp at habsent
  | some row =>
      obtain ⟨hrow, hid⟩ := findRun_some hfound
      rw [List.inj_on_of_nodup_map store.schema.run_key hrow h hid]

theorem findRun_isSome {store : RunStore} {runId : String} :
    (store.findRun runId).isSome ↔ runId ∈ store.runs.map (·.runId) := by
  simp [findRun, List.find?_isSome]

/-- The status of a run, as its row shows it. -/
def status (store : RunStore) (runId : String) : Option RunStatus :=
  (store.findRun runId).map (·.status)

theorem Consistent.status_eq {store : RunStore} {runId : String} (h : store.Consistent runId)
    (hrun : (store.findRun runId).isSome) :
    store.status runId = some (statusOf (store.log runId)) := by
  obtain ⟨row, hrow⟩ := Option.isSome_iff_exists.mp hrun
  simp [RunStore.status, hrow, (h.history row hrow).status]

/-- The foreign key of the events: no run, no events. -/
theorem log_of_absent {store : RunStore} {runId : String} (h : store.findRun runId = none) :
    store.log runId = [] := by
  have habsent : runId ∉ store.runs.map (·.runId) := by
    rw [← findRun_isSome, h]
    simp
  simp only [log, List.filter_eq_nil_iff, decide_eq_true_eq]
  rintro event hevent rfl
  exact habsent (store.schema.event_run event hevent)

theorem consistent_of_absent {store : RunStore} {runId : String}
    (h : store.findRun runId = none) : store.Consistent runId where
  absent := log_of_absent
  history row hrow := by
    rw [h] at hrow
    cases hrow

theorem initial_consistent (runId : String) : initial.Consistent runId :=
  consistent_of_absent rfl

/-- A call that writes events of one run only: they are appended to its log, its
row becomes `row`, and every other run keeps its row and its log. -/
structure Appended (store next : RunStore) (runId : String) (events : List RunEvent)
    (row : RunRecord) : Prop where
  log : next.log runId = store.log runId ++ events
  row : next.findRun runId = some row
  otherLog : ∀ other, other ≠ runId → next.log other = store.log other
  otherRow : ∀ other, other ≠ runId → next.findRun other = store.findRun other

theorem Appended.none {store : RunStore} {runId : String} {row : RunRecord}
    (h : store.findRun runId = some row) : Appended store store runId [] row where
  log := by simp
  row := h
  otherLog _ _ := rfl
  otherRow _ _ := rfl

theorem Appended.trans {a b c : RunStore} {runId : String} {events more : List RunEvent}
    {row last : RunRecord} (hab : Appended a b runId events row)
    (hbc : Appended b c runId more last) : Appended a c runId (events ++ more) last where
  log := by rw [hbc.log, hab.log, List.append_assoc]
  row := hbc.row
  otherLog other hother := (hbc.otherLog other hother).trans (hab.otherLog other hother)
  otherRow other hother := (hbc.otherRow other hother).trans (hab.otherRow other hother)

section Statements

variable {store next : RunStore}

lemma insertEvent_ok {event : RunEvent} (h : insertEvent event store = .ok () next) :
    next.runEvents = store.runEvents ++ [event] ∧ next.runs = store.runs := by
  unfold insertEvent at h
  split at h
  · cases h
  · split at h
    · cases h
      exact ⟨rfl, rfl⟩
    · cases h

lemma updateRun_ok {record : RunRecord} (h : updateRun record store = .ok () next) :
    next.runEvents = store.runEvents ∧ next.runs = store.runs.map (updatedRow record) := by
  unfold updateRun at h
  split at h
  · cases h
  · split at h
    · cases h
    · split at h
      · cases h
        exact ⟨rfl, rfl⟩
      · cases h

lemma insertRun_ok {run : RunRecord} (h : insertRun run store = .ok () next) :
    run.runId ∉ store.runs.map (·.runId) ∧
      next.runEvents = store.runEvents ∧ next.runs = store.runs ++ [run] := by
  unfold insertRun at h
  split at h
  · cases h
  · split at h
    · cases h
    · rename_i hkey
      split at h
      · cases h
        exact ⟨hkey, rfl, rfl⟩
      · cases h

lemma insertTask_ok {task : TaskRecord} (h : insertTask task store = .ok () next) :
    next.runEvents = store.runEvents ∧ next.runs = store.runs := by
  unfold insertTask at h
  split at h
  · cases h
  · cases h
    exact ⟨rfl, rfl⟩

lemma requireTask_ok {taskId : String} (h : requireTask taskId store = .ok () next) :
    store = next := by
  unfold requireTask at h
  split at h
  · cases h
    rfl
  · cases h

lemma getRun_ok {runId : String} {row : RunRecord} (h : getRun runId store = .ok row next) :
    store.findRun runId = some row ∧ store = next := by
  unfold getRun at h
  split at h
  · cases h
  · rename_i hrow
    cases h
    exact ⟨hrow, rfl⟩

/-- The `UPDATE` replaces the row it names, when that row is of the same run. -/
lemma updatedRow_sameRun {current record : RunRecord} (h : current.SameRun record) :
    updatedRow record current = record := by
  unfold updatedRow
  rw [if_pos h.runId.symm, ← h.runId, ← h.taskId, ← h.createdAt]

lemma find?_map_updatedRow (record : RunRecord) (runId : String) (rows : List RunRecord) :
    (rows.map (updatedRow record)).find? (·.runId = runId) =
      (rows.find? (·.runId = runId)).map (updatedRow record) := by
  rw [List.find?_map]
  congr 2
  funext row
  simp [updatedRow_runId]

end Statements

section Appends

variable {store next : RunStore} {runId : String}

/-- What writing one event does, and under which conditions it happens. -/
structure Wrote (store next : RunStore) (runId : String) (current : RunRecord)
    (args : EventArgs) (fresh : Fresh) (event : RunEvent) (updated : RunRecord) : Prop where
  built : buildEvent runId (current.lastEventSeq + 1) args fresh = .ok event
  projected : ∃ next, projectRun current event = .ok next ∧
    updated = { next with lastEventSeq := event.seq }
  appended : Appended store next runId [event] updated

theorem writeEvent_ok {current updated : RunRecord} {args : EventArgs} {fresh : Fresh}
    {event : RunEvent} (hrow : store.findRun runId = some current)
    (h : writeEvent runId current args fresh store = .ok (event, updated) next) :
    Wrote store next runId current args fresh event updated := by
  simp only [writeEvent, bind_eq_ok, check_eq_ok, pure_eq_ok, Prod.mk.injEq] at h
  obtain ⟨built, s₁, ⟨hbuilt, rfl⟩, projected, s₂, ⟨hprojected, rfl⟩, ⟨⟩, s₃, hinsert, ⟨⟩, s₄,
    hupdate, ⟨rfl, rfl⟩, rfl⟩ := h
  obtain ⟨hevents, hruns⟩ := insertEvent_ok hinsert
  obtain ⟨hevents', hruns'⟩ := updateRun_ok hupdate
  have hrun : built.runId = runId := (buildEvent_ok hbuilt).1
  have hsame : current.SameRun { projected with lastEventSeq := built.seq } :=
    let same := (projectRun_ok hprojected).sameRun
    ⟨same.runId, same.taskId, same.attempt, same.retryOfRunId, same.routing, same.budget,
      same.workspaceSnapshot, same.createdAt⟩
  refine ⟨hbuilt, ⟨projected, hprojected, rfl⟩, ?_, ?_, ?_, ?_⟩
  · simp [RunStore.log, hevents', hevents, hrun]
  · rw [findRun, hruns', hruns, find?_map_updatedRow]
    have hfind : store.runs.find? (·.runId = runId) = some current := hrow
    rw [hfind, Option.map_some, updatedRow_sameRun hsame]
  · intro other hother
    have hne : ¬ built.runId = other := by rw [hrun]; exact fun h => hother h.symm
    simp [RunStore.log, hevents', hevents, hne]
  · intro other hother
    rw [findRun, hruns', hruns, find?_map_updatedRow]
    change (store.findRun other).map _ = store.findRun other
    cases hfind : store.findRun other with
    | none => rfl
    | some row =>
        have hid : row.runId ≠ current.runId := by
          rw [(findRun_some hfind).2, (findRun_some hrow).2]
          exact hother
        simp only [Option.map_some, updatedRow]
        rw [if_neg]
        rw [hsame.runId]
        exact hid

theorem Wrote.history {current updated : RunRecord} {args : EventArgs} {fresh : Fresh}
    {event : RunEvent} {events : List RunEvent}
    (h : Wrote store next runId current args fresh event updated)
    (hcurrent : RunHistory current events) : RunHistory updated (events ++ [event]) := by
  obtain ⟨projected, hprojected, rfl⟩ := h.projected
  exact hcurrent.snoc (buildEvent_ok h.built).2.1 hprojected

/-- The loop of a batch: by induction on the specs, each written event extends
the history of the row that the loop carries. -/
theorem writeEvents_ok {specs : List (RunEventSpec × Fresh)} {current last : RunRecord}
    {events : List RunEvent} (hrow : store.findRun runId = some current)
    (h : writeEvents runId current specs store = .ok (events, last) next) :
    Appended store next runId events last ∧
      ∀ log, RunHistory current log → RunHistory last (log ++ events) := by
  induction specs generalizing store current events with
  | nil =>
      simp only [writeEvents, pure_eq_ok, Prod.mk.injEq] at h
      obtain ⟨⟨rfl, rfl⟩, rfl⟩ := h
      exact ⟨Appended.none hrow, fun log hlog => by simpa using hlog⟩
  | cons spec rest ih =>
      obtain ⟨spec, fresh⟩ := spec
      simp only [writeEvents, bind_eq_ok, pure_eq_ok, Prod.exists, Prod.mk.injEq] at h
      obtain ⟨event, updated, middle, hwrite, more, row, final, hrest, ⟨rfl, rfl⟩, rfl⟩ := h
      have hwrote := writeEvent_ok hrow hwrite
      obtain ⟨happended, hhistory⟩ := ih hwrote.appended.row hrest
      refine ⟨hwrote.appended.trans happended, fun log hlog => ?_⟩
      simpa [List.append_assoc] using hhistory _ (hwrote.history hlog)

/-- A written batch has one event for each spec, of the spec's type. -/
theorem writeEvents_types {specs : List (RunEventSpec × Fresh)} {current last : RunRecord}
    {events : List RunEvent} (hrow : store.findRun runId = some current)
    (h : writeEvents runId current specs store = .ok (events, last) next) :
    events.map (·.type) = specs.map (·.1.type) := by
  induction specs generalizing store current events with
  | nil =>
      simp only [writeEvents, pure_eq_ok, Prod.mk.injEq] at h
      obtain ⟨⟨rfl, -⟩, -⟩ := h
      rfl
  | cons spec rest ih =>
      simp only [writeEvents, bind_eq_ok, pure_eq_ok, Prod.exists, Prod.mk.injEq] at h
      obtain ⟨event, updated, middle, hwrite, more, row, final, hrest, ⟨rfl, rfl⟩, rfl⟩ := h
      have hwrote := writeEvent_ok hrow hwrite
      have htype : event.type = spec.1.type := (buildEvent_ok hwrote.built).2.2.1
      simp [htype, ih hwrote.appended.row hrest]

theorem appendEvent_ok {args : EventArgs} {expected : PyValue} {fresh : Fresh}
    {event : RunEvent} {updated : RunRecord}
    (h : appendEvent runId args expected fresh store = .ok (event, updated) next) :
    ∃ current required, store.findRun runId = some current ∧
      checkExpected expected = .ok required ∧ checkSequence required current = .ok () ∧
      writeEvent runId current args fresh store = .ok (event, updated) next := by
  simp only [appendEvent, bind_eq_ok, check_eq_ok, atomically_eq_ok] at h
  obtain ⟨_, s₁, ⟨-, rfl⟩, required, s₂, ⟨hrequired, rfl⟩, current, s₃, hget, ⟨⟩, s₄,
    ⟨hsequence, rfl⟩, hwrite⟩ := h
  obtain ⟨hrow, rfl⟩ := getRun_ok hget
  exact ⟨current, required, hrow, hrequired, hsequence, hwrite⟩

theorem appendEvents_ok {specs : List (RunEventSpec × Fresh)} {expected : PyValue}
    {events : List RunEvent} {updated : RunRecord}
    (h : appendEvents runId specs expected store = .ok (events, updated) next) :
    ∃ current required, specs ≠ [] ∧ store.findRun runId = some current ∧
      checkExpected expected = .ok required ∧ checkSequence required current = .ok () ∧
      writeEvents runId current specs store = .ok (events, updated) next := by
  simp only [appendEvents, bind_eq_ok, check_eq_ok, atomically_eq_ok] at h
  obtain ⟨⟨⟩, s₁, ⟨hnonempty, rfl⟩, required, s₂, ⟨hrequired, rfl⟩, current, s₃, hget, ⟨⟩, s₄,
    ⟨hsequence, rfl⟩, hwrite⟩ := h
  obtain ⟨hrow, rfl⟩ := getRun_ok hget
  refine ⟨current, required, ?_, hrow, hrequired, hsequence, hwrite⟩
  rintro rfl
  simp [requireNonempty] at hnonempty

/-- A new row starts a history; every other run is untouched. -/
theorem createRun_ok {args : CreateRunArgs} {fresh : Fresh} {record : RunRecord}
    (h : createRun args fresh store = .ok record next) :
    record.IsNew ∧ store.findRun record.runId = none ∧
      next.findRun record.runId = some record ∧ (∀ other, next.log other = store.log other) ∧
      ∀ other, other ≠ record.runId → next.findRun other = store.findRun other := by
  simp only [createRun, bind_eq_ok, check_eq_ok, atomically_eq_ok, pure_eq_ok] at h
  obtain ⟨made, s₁, ⟨hmade, rfl⟩, ⟨⟩, s₂, htask, ⟨⟩, s₃, hinsert, rfl, rfl⟩ := h
  obtain rfl := requireTask_ok htask
  obtain ⟨hkey, hevents, hruns⟩ := insertRun_ok hinsert
  have habsent : store.findRun made.runId = none := by
    rw [← Option.not_isSome_iff_eq_none, findRun_isSome]
    exact hkey
  refine ⟨RunRecord.new_isNew hmade, habsent, ?_, ?_, ?_⟩
  · rw [findRun] at habsent
    simp [findRun, hruns, List.find?_append, habsent]
  · intro other
    simp [RunStore.log, hevents]
  · intro other hother
    have hne : ¬ made.runId = other := fun h => hother h.symm
    simp [findRun, hruns, List.find?_append, hne]

end Appends

/-- One write call of any writer, with all it is given. -/
inductive StoreCall where
  | createTask (args : CreateTaskArgs) (fresh : Fresh)
  | createRun (args : CreateRunArgs) (fresh : Fresh)
  | appendEvent (runId : String) (args : EventArgs) (expected : PyValue) (fresh : Fresh)
  | appendEvents (runId : String) (specs : List (RunEventSpec × Fresh)) (expected : PyValue)

def StoreCall.run : StoreCall → Call Unit
  | .createTask args fresh => (fun _ => ()) <$> RunStore.createTask args fresh
  | .createRun args fresh => (fun _ => ()) <$> RunStore.createRun args fresh
  | .appendEvent runId args expected fresh =>
      (fun _ => ()) <$> RunStore.appendEvent runId args expected fresh
  | .appendEvents runId specs expected => (fun _ => ()) <$> RunStore.appendEvents runId specs expected

/-- The store after the calls have run one after another; a call that raises
leaves what its transaction rolled back to. -/
def runCalls (store : RunStore) (calls : List StoreCall) : RunStore :=
  calls.foldl (fun s call => after call.run s) store

section Calls

lemma appendEvent_failsClean (runId : String) (args : EventArgs) (expected : PyValue)
    (fresh : Fresh) : FailsClean (RunStore.appendEvent runId args expected fresh) :=
  failsClean_bind fun _ => failsClean_bind fun _ => failsClean_atomically _

lemma appendEvents_failsClean (runId : String) (specs : List (RunEventSpec × Fresh))
    (expected : PyValue) : FailsClean (RunStore.appendEvents runId specs expected) :=
  failsClean_bind fun _ => failsClean_bind fun _ => failsClean_atomically _

/-- Every call undoes its writes when it raises. -/
theorem failsClean_call (call : StoreCall) : FailsClean call.run := by
  cases call with
  | createTask args fresh =>
      exact failsClean_map _ (failsClean_bind fun _ => failsClean_atomically _)
  | createRun args fresh =>
      exact failsClean_map _ (failsClean_bind fun _ => failsClean_atomically _)
  | appendEvent runId args expected fresh =>
      exact failsClean_map _ (appendEvent_failsClean runId args expected fresh)
  | appendEvents runId specs expected =>
      exact failsClean_map _ (appendEvents_failsClean runId specs expected)

lemma map_eq_ok {α : Type} {body : Call α} {store next : RunStore}
    (h : ((fun _ => ()) <$> body : Call Unit) store = .ok () next) :
    ∃ a, body store = .ok a next := by
  simp only [Functor.map, EStateM.map] at h
  split at h
  · rename_i a t ht
    cases h
    exact ⟨a, ht⟩
  · cases h

/-- How a call changes one run: not at all, or it creates the run, or it appends
events and the row of the longer log is again the fold of it. -/
inductive Change (store next : RunStore) (runId : String) : Prop where
  | same (log : next.log runId = store.log runId)
      (row : next.findRun runId = store.findRun runId)
  | created (absent : store.findRun runId = none) (log : next.log runId = [])
      (row : RunRecord) (hrow : next.findRun runId = some row) (isNew : row.IsNew)
  | appended (current row : RunRecord) (events : List RunEvent) (nonempty : events ≠ [])
      (hcurrent : store.findRun runId = some current)
      (log : next.log runId = store.log runId ++ events)
      (hrow : next.findRun runId = some row)
      (history : RunHistory current (store.log runId) → RunHistory row (next.log runId))

lemma Appended.change {store next : RunStore} {target : String} {events : List RunEvent}
    {current row : RunRecord} (h : Appended store next target events row)
    (hcurrent : store.findRun target = some current) (hevents : events ≠ [])
    (history : RunHistory current (store.log target) → RunHistory row (store.log target ++ events))
    (runId : String) : Change store next runId := by
  by_cases hrun : runId = target
  · subst hrun
    exact .appended current row events hevents hcurrent h.log h.row (h.log ▸ history)
  · exact .same (h.otherLog runId hrun) (h.otherRow runId hrun)

/-- The inversion of a successful call, run by run. -/
theorem call_change {call : StoreCall} {store next : RunStore}
    (h : call.run store = .ok () next) (runId : String) : Change store next runId := by
  cases call with
  | createTask args fresh =>
      obtain ⟨task, h⟩ := map_eq_ok h
      simp only [createTask, bind_eq_ok, check_eq_ok, atomically_eq_ok, pure_eq_ok] at h
      obtain ⟨createdAt, s₁, ⟨-, rfl⟩, ⟨⟩, s₂, hinsert, -, rfl⟩ := h
      obtain ⟨hevents, hruns⟩ := insertTask_ok hinsert
      exact .same (by simp [RunStore.log, hevents]) (by simp [findRun, hruns])
  | createRun args fresh =>
      obtain ⟨record, h⟩ := map_eq_ok h
      obtain ⟨hnew, habsent, hrow, hlog, hother⟩ := createRun_ok h
      by_cases hrun : runId = record.runId
      · subst hrun
        exact .created habsent ((hlog _).trans (log_of_absent habsent)) record hrow hnew
      · exact .same (hlog runId) (hother runId hrun)
  | appendEvent target args expected fresh =>
      obtain ⟨⟨event, updated⟩, h⟩ := map_eq_ok h
      obtain ⟨current, required, hcurrent, -, -, hwrite⟩ := appendEvent_ok h
      have hwrote := writeEvent_ok hcurrent hwrite
      exact hwrote.appended.change hcurrent (by simp) hwrote.history runId
  | appendEvents target specs expected =>
      obtain ⟨⟨events, updated⟩, h⟩ := map_eq_ok h
      obtain ⟨current, required, hspecs, hcurrent, -, -, hwrite⟩ := appendEvents_ok h
      obtain ⟨happended, hhistory⟩ := writeEvents_ok hcurrent hwrite
      have hevents : events ≠ [] := by
        rintro rfl
        exact hspecs (by simpa using (writeEvents_types hcurrent hwrite).symm)
      exact happended.change hcurrent hevents (hhistory _) runId

/-- One call keeps every run consistent, whether it succeeds or raises. -/
theorem after_consistent (call : StoreCall) {store : RunStore} {runId : String}
    (h : store.Consistent runId) : (after call.run store).Consistent runId := by
  rcases after_cases (failsClean_call call) store with hsame | ⟨⟨⟩, hok⟩
  · rw [hsame]
    exact h
  · generalize after call.run store = next at hok
    refine ⟨log_of_absent, fun row hrow => ?_⟩
    cases call_change hok runId with
    | same hlog hsame =>
        rw [hsame] at hrow
        rw [hlog]
        exact h.history row hrow
    | created habsent hlog new hnew isNew =>
        obtain rfl : new = row := by simpa [hnew] using hrow
        rw [hlog]
        exact .ofNew isNew
    | appended current last events hevents hcurrent hlog hlast history =>
        obtain rfl : last = row := by simpa [hlast] using hrow
        exact history (h.history current hcurrent)

theorem runCalls_consistent (calls : List StoreCall) {store : RunStore} {runId : String}
    (h : store.Consistent runId) : (runCalls store calls).Consistent runId := by
  induction calls generalizing store with
  | nil => exact h
  | cons call rest ih => exact ih (after_consistent call h)

/-- How a store can look after more calls: logs are longer, runs remain, and a row
that was the fold of its log still is. -/
structure Grows (store next : RunStore) : Prop where
  consistent : ∀ runId, store.Consistent runId → next.Consistent runId
  log : ∀ runId, store.log runId <+: next.log runId
  exist : ∀ runId, (store.findRun runId).isSome → (next.findRun runId).isSome

theorem Grows.refl (store : RunStore) : Grows store store where
  consistent _ h := h
  log _ := List.prefix_rfl
  exist _ h := h

theorem Grows.trans {a b c : RunStore} (hab : Grows a b) (hbc : Grows b c) : Grows a c where
  consistent runId h := hbc.consistent runId (hab.consistent runId h)
  log runId := (hab.log runId).trans (hbc.log runId)
  exist runId h := hbc.exist runId (hab.exist runId h)

/-- The log and the existence of one run, across one change. -/
lemma Change.grows {store next : RunStore} {runId : String} (h : Change store next runId) :
    store.log runId <+: next.log runId ∧
      ((store.findRun runId).isSome → (next.findRun runId).isSome) := by
  cases h with
  | same hlog hrow => exact ⟨hlog ▸ List.prefix_rfl, hrow ▸ id⟩
  | created habsent hlog row hrow isNew =>
      refine ⟨?_, by simp [hrow]⟩
      rw [log_of_absent habsent]
      exact List.nil_prefix
  | appended current row events hevents hcurrent hlog hrow history =>
      exact ⟨hlog ▸ List.prefix_append _ _, by simp [hrow]⟩

theorem grows_after (call : StoreCall) (store : RunStore) :
    Grows store (after call.run store) := by
  refine ⟨fun _ h => after_consistent call h, fun runId => ?_, fun runId => ?_⟩ <;>
  · rcases after_cases (failsClean_call call) store with hsame | ⟨⟨⟩, hok⟩
    · simp [hsame]
    · generalize after call.run store = next at hok
      first
        | exact (call_change hok runId).grows.1
        | exact (call_change hok runId).grows.2

/-- A precondition that does not name the end of the log makes the call fail. -/
lemma checkSequence_length {store : RunStore} {runId : String} {current : RunRecord}
    {expected : PyValue} {required : Option ℤ} (h : store.Consistent runId)
    (hcurrent : store.findRun runId = some current)
    (hrequired : checkExpected expected = .ok required)
    (hsequence : checkSequence required current = .ok ()) :
    expected = .none ∨ expected = .int (store.log runId).length := by
  cases expected with
  | none => exact Or.inl rfl
  | int n =>
      simp only [checkExpected] at hrequired
      split at hrequired
      · cases hrequired
      · cases hrequired
        simp only [checkSequence] at hsequence
        split at hsequence
        · rename_i hn
          rw [(h.history current hcurrent).lastEventSeq] at hn
          exact Or.inr (congrArg PyValue.int hn.symm)
        · cases hsequence
  | _ => simp [checkExpected] at hrequired

/-- The same specs, appended one call at a time with each call's own
precondition. -/
def appendEach (runId : String) :
    List (RunEventSpec × Fresh × PyValue) → Call (List RunEvent)
  | [] => pure []
  | (spec, fresh, expected) :: rest => do
      let (event, _) ← RunStore.appendEvent runId spec.args expected fresh
      let events ← appendEach runId rest
      return event :: events

/-- The specs of the single calls, as one batch. -/
def batchOf (calls : List (RunEventSpec × Fresh × PyValue)) : List (RunEventSpec × Fresh) :=
  calls.map fun call => (call.1, call.2.1)

/-- By induction on the calls: the row the batch carries in memory is the row
each single call reads back. -/
lemma writeEvents_of_appendEach {runId : String}
    {calls : List (RunEventSpec × Fresh × PyValue)} {store next : RunStore}
    {current : RunRecord} {events : List RunEvent}
    (hcurrent : store.findRun runId = some current)
    (h : appendEach runId calls store = .ok events next) :
    ∃ last, writeEvents runId current (batchOf calls) store = .ok (events, last) next ∧
      next.findRun runId = some last := by
  induction calls generalizing store current events with
  | nil =>
      simp only [appendEach, pure_eq_ok] at h
      obtain ⟨rfl, rfl⟩ := h
      exact ⟨current, rfl, hcurrent⟩
  | cons call rest ih =>
      obtain ⟨spec, fresh, expected⟩ := call
      simp only [appendEach, bind_eq_ok, pure_eq_ok, Prod.exists] at h
      obtain ⟨event, updated, middle, happend, more, final, hrest, rfl, rfl⟩ := h
      obtain ⟨row, required, hrow, -, -, hwrite⟩ := appendEvent_ok happend
      obtain rfl : row = current := by simpa [hcurrent] using hrow.symm
      have hwrote := writeEvent_ok hcurrent hwrite
      obtain ⟨last, hlast, hfound⟩ := ih hwrote.appended.row hrest
      refine ⟨last, ?_, hfound⟩
      simp only [batchOf, List.map_cons, writeEvents, bind_eq_ok, pure_eq_ok, Prod.exists,
        Prod.mk.injEq]
      exact ⟨event, updated, middle, hwrite, more, last, final, hlast, ⟨rfl, rfl⟩, rfl⟩

/-- A nonempty batch has the effect of its single appends. -/
lemma appendEvents_of_appendEach {runId : String} {calls : List (RunEventSpec × Fresh × PyValue)}
    {store next : RunStore} {events : List RunEvent} {expected : PyValue}
    (hstore : store.Consistent runId) (hcalls : calls ≠ [])
    (hexpected : expected = .none ∨ expected = .int (store.log runId).length)
    (h : appendEach runId calls store = .ok events next) :
    ∃ last, appendEvents runId (batchOf calls) expected store = .ok (events, last) next ∧
      next.findRun runId = some last := by
  have hfound : ∃ current, store.findRun runId = some current := by
    cases calls with
    | nil => exact absurd rfl hcalls
    | cons call rest =>
        simp only [appendEach, bind_eq_ok, Prod.exists] at h
        obtain ⟨event, updated, middle, happend, -⟩ := h
        obtain ⟨current, -, hcurrent, -⟩ := appendEvent_ok happend
        exact ⟨current, hcurrent⟩
  obtain ⟨current, hcurrent⟩ := hfound
  obtain ⟨last, hwrite, hlast⟩ := writeEvents_of_appendEach hcurrent h
  have hnonempty : requireNonempty (batchOf calls) = .ok () := by
    cases calls with
    | nil => exact absurd rfl hcalls
    | cons call rest => rfl
  obtain ⟨required, hrequired, hsequence⟩ : ∃ required,
      checkExpected expected = .ok required ∧ checkSequence required current = .ok () := by
    rcases hexpected with rfl | rfl
    · exact ⟨none, rfl, rfl⟩
    · refine ⟨some (store.log runId).length, by simp [checkExpected], ?_⟩
      simp [checkSequence, (hstore.history current hcurrent).lastEventSeq]
  refine ⟨last, ?_, hlast⟩
  simp only [appendEvents, bind_eq_ok, check_eq_ok, atomically_eq_ok]
  refine ⟨(), store, ⟨hnonempty, rfl⟩, required, store, ⟨hrequired, rfl⟩, current, store, ?_, (),
    store, ⟨hsequence, rfl⟩, hwrite⟩
  simp [getRun, hcurrent]

/-- Over any sequence of calls on a store whose rows are derived from their
logs: every row stays the fold of its numbered log; a call that raises changes
nothing; a precondition other than the log's length makes both append calls
raise; and a batch does what its events do appended one by one. -/
theorem runCalls_history (store : RunStore) (hstore : ∀ runId, store.Consistent runId)
    (calls : List StoreCall) :
    (∀ runId, (runCalls store calls).Consistent runId) ∧
    (∀ (call : StoreCall) e t,
      call.run (runCalls store calls) = .error e t → t = runCalls store calls) ∧
    (∀ runId (expected : ℤ), expected ≠ ((runCalls store calls).log runId).length →
      (∀ args fresh, ∃ e, appendEvent runId args (.int expected) fresh (runCalls store calls) =
        .error e (runCalls store calls)) ∧
      (∀ specs, ∃ e, appendEvents runId specs (.int expected) (runCalls store calls) =
        .error e (runCalls store calls))) ∧
    (∀ runId singles expected events next, singles ≠ [] →
      expected = PyValue.none ∨ expected = .int ((runCalls store calls).log runId).length →
      appendEach runId singles (runCalls store calls) = .ok events next →
      ∃ last, appendEvents runId (batchOf singles) expected (runCalls store calls) =
        .ok (events, last) next ∧ next.findRun runId = some last) := by
  have hconsistent : ∀ runId, (runCalls store calls).Consistent runId :=
    fun runId => runCalls_consistent calls (hstore runId)
  generalize runCalls store calls = reached at hconsistent
  refine ⟨hconsistent, fun call e t h => failsClean_call call reached e t h, ?_, ?_⟩
  · intro runId expected hne
    constructor
    · intro args fresh
      cases happend : appendEvent runId args (.int expected) fresh reached with
      | error e t =>
          refine ⟨e, ?_⟩
          rw [appendEvent_failsClean runId args _ fresh reached e t happend]
      | ok result t =>
          obtain ⟨current, required, hcurrent, hrequired, hsequence, -⟩ := appendEvent_ok happend
          rcases checkSequence_length (hconsistent runId) hcurrent hrequired hsequence with h | h
          · cases h
          · exact absurd (PyValue.int.inj h) hne
    · intro specs
      cases happend : appendEvents runId specs (.int expected) reached with
      | error e t =>
          refine ⟨e, ?_⟩
          rw [appendEvents_failsClean runId specs _ reached e t happend]
      | ok result t =>
          obtain ⟨current, required, -, hcurrent, hrequired, hsequence, -⟩ :=
            appendEvents_ok happend
          rcases checkSequence_length (hconsistent runId) hcurrent hrequired hsequence with h | h
          · cases h
          · exact absurd (PyValue.int.inj h) hne
  · intro runId singles expected events next hsingles hexpected h
    exact appendEvents_of_appendEach (hconsistent runId) hsingles hexpected h

/-- A task, a run, one event, and a batch of two at the right precondition. -/
def sampleCalls : List StoreCall :=
  let drawn (uuid : String) : Fresh := ⟨uuid, 0⟩
  [.createTask { projectRoot := "/p", prompt := "fix", taskId := some "t" } (drawn "u0"),
   .createRun { taskId := "t", runId := some "r" } (drawn "u1"),
   .appendEvent "r" { type := "run.started", payload := .dict [] } (.int 0) (drawn "e1"),
   .appendEvents "r"
     [({ type := "proposal.ready", payload := .empty, type_nonempty := by decide,
         source_nonempty := by decide, version_pos := by decide }, drawn "e2"),
      ({ type := "run.waiting_user", payload := .empty, type_nonempty := by decide,
         source_nonempty := by decide, version_pos := by decide }, drawn "e3")] (.int 1)]

theorem runCalls_history_sample :
    ((runCalls initial sampleCalls).log "r").map (·.seq) = [1, 2, 3] ∧
      (runCalls initial sampleCalls).Consistent "r" :=
  ⟨by decide +kernel, (runCalls_history initial initial_consistent sampleCalls).1 "r"⟩

end Calls

end RunStore

end Imece.RunRuntime
