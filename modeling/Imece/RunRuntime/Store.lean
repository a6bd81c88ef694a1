import Imece.RunRuntime.Projector

/-!
# The run store

The three SQLite tables with the constraints of their schema, and the calls of
`RunStore`. Each write call is one `BEGIN IMMEDIATE` transaction, so SQLite runs
the calls of all writers one after another; inside a call the statements take
effect one by one and an exception rolls all of them back.

Rows hold decoded values: canonical JSON, enum values and UTC instants read back
as they were written. Integers past a signed 64-bit word do not bind, and a NaN
is stored as NULL, which the usage columns reject.
-/
namespace Imece.RunRuntime

open Lib

/-- A fresh key keeps a key column free of repeats. -/
lemma nodup_map_snoc {α β : Type*} {f : α → β} {rows : List α} {row : α}
    (h : (rows.map f).Nodup) (hrow : f row ∉ rows.map f) :
    ((rows ++ [row]).map f).Nodup := by
  rw [List.map_append, List.nodup_append]
  refine ⟨h, by simp, ?_⟩
  rintro a ha b hb rfl
  simp only [List.map_cons, List.map_nil, List.mem_singleton] at hb
  exact hrow (hb ▸ ha)

structure Tables where
  tasks : List TaskRecord
  runs : List RunRecord
  runEvents : List RunEvent

/-- The keys and references that `schema.py` declares. -/
structure Tables.Schema (t : Tables) : Prop where
  task_key : (t.tasks.map (·.taskId)).Nodup
  run_key : (t.runs.map (·.runId)).Nodup
  event_key : (t.runEvents.map (·.eventId)).Nodup
  run_seq_unique : (t.runEvents.map fun e => (e.runId, e.seq)).Nodup
  run_task : ∀ run ∈ t.runs, run.taskId ∈ t.tasks.map (·.taskId)
  run_retry : ∀ run ∈ t.runs, ∀ parent, run.retryOfRunId = some parent →
    parent ∈ t.runs.map (·.runId)
  event_run : ∀ event ∈ t.runEvents, event.runId ∈ t.runs.map (·.runId)

/-- A database file of the current schema. -/
structure RunStore extends Tables where
  schema : toTables.Schema

namespace RunStore

/-- A store call: what it returns or raises, and the tables it leaves. -/
abbrev Call (α : Type) := EStateM RunRuntimeError RunStore α

def initial : RunStore where
  tasks := []
  runs := []
  runEvents := []
  schema := by constructor <;> simp

/-- `SELECT * FROM runs WHERE run_id = ?`. -/
def findRun (store : RunStore) (runId : String) : Option RunRecord :=
  store.runs.find? (·.runId = runId)

/-- The rows of one run in insertion order. -/
def log (store : RunStore) (runId : String) : List RunEvent :=
  store.runEvents.filter (·.runId = runId)

def insertTask (task : TaskRecord) : Call Unit := fun store =>
  if h : task.taskId ∈ store.tasks.map (·.taskId) then
    .error (.runStore "Görev oluşturulamadı: UNIQUE") store
  else
    .ok () { store with
      tasks := store.tasks ++ [task]
      schema := { store.schema with
        task_key := nodup_map_snoc store.schema.task_key h
        run_task := fun run hrun => by
          rw [List.map_append]
          exact List.mem_append_left _ (store.schema.run_task run hrun) } }

def insertRun (run : RunRecord) : Call Unit := fun store =>
  if !fitsInt64 run.attempt then .error .overflowError store
  else if hkey : run.runId ∈ store.runs.map (·.runId) then
    .error (.runStore "Koşu oluşturulamadı: UNIQUE") store
  else if hforeign : run.taskId ∈ store.tasks.map (·.taskId) ∧
      ∀ parent ∈ run.retryOfRunId, parent = run.runId ∨ parent ∈ store.runs.map (·.runId) then
    .ok () { store with
      runs := store.runs ++ [run]
      schema := { store.schema with
        run_key := nodup_map_snoc store.schema.run_key hkey
        run_task := by
          intro r hr
          rcases List.mem_append.mp hr with hr | hr
          · exact store.schema.run_task r hr
          · rw [List.mem_singleton.mp hr]
            exact hforeign.1
        run_retry := by
          intro r hr parent hparent
          rw [List.map_append]
          rcases List.mem_append.mp hr with hr | hr
          · exact List.mem_append_left _ (store.schema.run_retry r hr parent hparent)
          · rw [List.mem_singleton.mp hr] at hparent
            rcases hforeign.2 parent hparent with hself | hmem
            · simp [hself]
            · exact List.mem_append_left _ hmem
        event_run := fun event hevent => by
          rw [List.map_append]
          exact List.mem_append_left _ (store.schema.event_run event hevent) } }
  else .error (.runStore "Koşu oluşturulamadı: FOREIGN KEY") store

def insertEvent (event : RunEvent) : Call Unit := fun store =>
  if !(fitsInt64 event.seq && fitsInt64 event.schemaVersion) then .error .overflowError store
  else if h : event.eventId ∉ store.runEvents.map (·.eventId) ∧
      (event.runId, event.seq) ∉ store.runEvents.map (fun e => (e.runId, e.seq)) ∧
      event.runId ∈ store.runs.map (·.runId) then
    .ok () { store with
      runEvents := store.runEvents ++ [event]
      schema := { store.schema with
        event_key := nodup_map_snoc store.schema.event_key h.1
        run_seq_unique := nodup_map_snoc store.schema.run_seq_unique h.2.1
        event_run := by
          intro e he
          rcases List.mem_append.mp he with he | he
          · exact store.schema.event_run e he
          · rw [List.mem_singleton.mp he]
            exact h.2.2 } }
  else .error (.eventConflict event.runId event.seq event.eventId) store

/-- The row after `UPDATE runs SET ... WHERE run_id = ?`: the statement leaves
the run's identity, task and creation time out. -/
def updatedRow (record row : RunRecord) : RunRecord :=
  if row.runId = record.runId then
    { record with runId := row.runId, taskId := row.taskId, createdAt := row.createdAt }
  else row

lemma updatedRow_runId (record row : RunRecord) : (updatedRow record row).runId = row.runId := by
  unfold updatedRow
  split <;> rfl

lemma updatedRow_taskId (record row : RunRecord) :
    (updatedRow record row).taskId = row.taskId := by
  unfold updatedRow
  split <;> rfl

lemma map_updatedRow_runId (record : RunRecord) (rows : List RunRecord) :
    (rows.map (updatedRow record)).map (·.runId) = rows.map (·.runId) := by
  rw [List.map_map]
  exact List.map_congr_left fun row _ => updatedRow_runId record row

/-- The integer columns of the `UPDATE` bind. -/
def bindable (record : RunRecord) : Bool :=
  fitsInt64 record.attempt && fitsInt64 record.lastEventSeq && fitsInt64 record.promptTokens &&
    fitsInt64 record.completionTokens && fitsInt64 record.totalTokens

def updateRun (record : RunRecord) : Call Unit := fun store =>
  if !bindable record then .error .overflowError store
  else if record.costUsd = .nan ∨ record.latencyS = .nan then
    .error (.runStore "Event eklenemedi: NOT NULL") store
  else if h : ∀ parent ∈ record.retryOfRunId, parent ∈ store.runs.map (·.runId) then
    .ok () { store with
      runs := store.runs.map (updatedRow record)
      schema := { store.schema with
        run_key := by
          rw [map_updatedRow_runId]
          exact store.schema.run_key
        run_task := by
          intro r hr
          obtain ⟨row, hrow, rfl⟩ := List.mem_map.mp hr
          rw [updatedRow_taskId]
          exact store.schema.run_task row hrow
        run_retry := by
          intro r hr parent hparent
          obtain ⟨row, hrow, rfl⟩ := List.mem_map.mp hr
          rw [map_updatedRow_runId]
          unfold updatedRow at hparent
          split at hparent
          · exact h parent hparent
          · exact store.schema.run_retry row hrow parent hparent
        event_run := fun event hevent => by
          rw [map_updatedRow_runId]
          exact store.schema.event_run event hevent } }
  else .error (.runStore "Event eklenemedi: FOREIGN KEY") store

/-- The arguments of `create_task`. -/
structure CreateTaskArgs where
  projectRoot : String
  prompt : String
  taskId : Option String := none
  createdAt : Option PyDateTime := none

def createTask (args : CreateTaskArgs) (fresh : Fresh) : Call TaskRecord := do
  let createdAt ← check (resolveCreatedAt args.createdAt fresh)
  let record : TaskRecord := {
    taskId := orFresh args.taskId fresh.uuid
    projectRoot := args.projectRoot
    prompt := args.prompt
    createdAt }
  atomically do
    insertTask record
    return record

/-- `SELECT 1 FROM tasks WHERE task_id = ?`. -/
def requireTask (taskId : String) : Call Unit := fun store =>
  if taskId ∈ store.tasks.map (·.taskId) then .ok () store
  else .error (.taskNotFound taskId) store

def createRun (args : CreateRunArgs) (fresh : Fresh) : Call RunRecord := do
  let record ← check (RunRecord.new args fresh)
  atomically do
    requireTask args.taskId
    insertRun record
    return record

/-- `get_run`; also the read that opens every append. -/
def getRun (runId : String) : Call RunRecord := fun store =>
  match store.findRun runId with
  | none => .error (.runNotFound runId) store
  | some run => .ok run store

/-- The type and sign check of `expected_last_event_seq`; `None` asks for no
precondition. A bool is an int to Python and is rejected separately. -/
def checkExpected : PyValue → Except RunRuntimeError (Option ℤ)
  | .none => .ok none
  | .int n =>
      if n < 0 then .error (.eventValidation "expected_last_event_seq >= 0 olmalı")
      else .ok (some n)
  | _ => .error (.eventValidation "expected_last_event_seq bir tam sayı olmalı")

/-- The optimistic precondition, checked before anything is built or written. -/
def checkSequence (expected : Option ℤ) (current : RunRecord) : Except RunRuntimeError Unit :=
  match expected with
  | none => .ok ()
  | some n =>
      if (current.lastEventSeq : ℤ) = n then .ok ()
      else .error (.eventSequence n current.lastEventSeq)

/-- The statements both write paths repeat for one event: build it at the next
sequence number, project it, insert it, update the row. -/
def writeEvent (runId : String) (current : RunRecord) (args : EventArgs) (fresh : Fresh) :
    Call (RunEvent × RunRecord) := do
  let event ← check (buildEvent runId (current.lastEventSeq + 1) args fresh)
  let projected ← check (projectRun current event)
  let updated := { projected with lastEventSeq := event.seq }
  insertEvent event
  updateRun updated
  return (event, updated)

def appendEvent (runId : String) (args : EventArgs) (expected : PyValue) (fresh : Fresh) :
    Call (RunEvent × RunRecord) := do
  let _ ← check (validateEventPayload args.payload)
  let expected ← check (checkExpected expected)
  atomically do
    let current ← getRun runId
    check (checkSequence expected current)
    writeEvent runId current args fresh

/-- The loop of `append_events`: `current` is carried in memory, each event and
row is written before the next one is built. -/
def writeEvents (runId : String) :
    RunRecord → List (RunEventSpec × Fresh) → Call (List RunEvent × RunRecord)
  | current, [] => pure ([], current)
  | current, (spec, fresh) :: rest => do
      let (event, updated) ← writeEvent runId current spec.args fresh
      let (events, last) ← writeEvents runId updated rest
      return (event :: events, last)

def requireNonempty (specs : List (RunEventSpec × Fresh)) : Except RunRuntimeError Unit :=
  if specs.isEmpty then .error (.eventValidation "Event batch boş olamaz.") else .ok ()

def appendEvents (runId : String) (specs : List (RunEventSpec × Fresh)) (expected : PyValue) :
    Call (List RunEvent × RunRecord) := do
  check (requireNonempty specs)
  let expected ← check (checkExpected expected)
  atomically do
    let current ← getRun runId
    check (checkSequence expected current)
    writeEvents runId current specs

end RunStore

end Imece.RunRuntime
