import Imece.CollabRuntime.EventFormat
import Imece.CollabRuntime.ReadBack

/-!
# What changed from one revision to the next

A replay is told in events, one for each published state, and the owner projects the same
pairs of states to summaries that are cut at a bound. Both are computed from the two states
alone; they are the same account of what changed.
-/
namespace Imece.CollabRuntime

open Lib

def maxEventTasks : ℕ := 32
def maxAffectedTasks : ℕ := 32

def SessionState.pinnedIdentity (state : SessionState) : String × String × String :=
  (state.sessionId, state.baseCommit, state.targetVersion)

section Replay

/-- `_checked_state` of a coordinator of a session. -/
def checkedState (identity : String × String × String) (raw : SessionState) :
    Except CollabError SessionState := do
  let state ← parseStateDict raw.toDict
  if state.pinnedIdentity ≠ identity then
    .error (.validation
      "the hub session identity changed; reconnect with trusted configuration.")
  else .ok state

/-- The loop of `replay`. -/
def replayEvents (identity : String × String × String) (previousRevision : String)
    (previous : SessionState) :
    List (String × SessionState) → Except CollabError (List ReplayEvent)
  | [] => .ok []
  | (revision, raw) :: states => do
      let revision ← shaHex (.str revision) "replay revision"
      let state ← checkedState identity raw
      let events ← replayEvents identity revision state states
      return replayEvent previousRevision revision previous state :: events

/-- The events of a page that starts at a cursor. -/
def replayPage (identity : String × String × String) (cursor : String) (previous : SessionState)
    (states : List (String × SessionState)) : Except CollabError (List ReplayEvent) := do
  let cursor ← shaHex (.str cursor) "after_revision"
  replayEvents identity cursor (← checkedState identity previous) states

end Replay

section Projection

structure TaskChange where
  taskId : String
  change : String
  previousStatus : Option String
  status : Option String
  previousOwner : Option String
  owner : Option String
  fields : List String
deriving DecidableEq, Repr

structure InterfaceChanges where
  added : List String
  removed : List String
  changed : List String
deriving DecidableEq, Repr

structure ProjectedChange where
  fromRevision : String
  toRevision : String
  metadataCheckpoint : Bool
  goalChanged : Bool
  decisionsChanged : Bool
  interfaces : InterfaceChanges
  taskChanges : List TaskChange
  taskChangeCount : ℕ
  taskChangesTruncated : Bool
  affectedTaskIds : List String
  affectedTaskCount : ℕ
  affectedTasksTruncated : Bool
  contextChanged : Bool
deriving DecidableEq, Repr

def interfaceChanges (old new : List (String × String)) : InterfaceChanges :=
  let ids := sortedSet (old.map (·.1) ++ new.map (·.1))
  { added := ids.filter fun key => decide (key ∉ old.map (·.1))
    removed := ids.filter fun key => decide (key ∉ new.map (·.1))
    changed := ids.filter fun key => decide (key ∈ old.map (·.1)) && decide (key ∈ new.map (·.1)) &&
      decide (old.lookup key ≠ new.lookup key) }

/-- `changed_ids` -/
def projectedTasks (old new : SessionState) : List String :=
  ((old.tasks.keys ++ new.tasks.keys).dedup.filter fun key =>
    decide (key ∉ old.tasks) || decide (key ∉ new.tasks) ||
      decide (old.tasks[key]? ≠ new.tasks[key]?)).insertionSort (· ≤ ·)

/-- The fields in which a task differs, under the names of the projection. -/
def changedFields (before after : Task) : List String :=
  [("goal", decide (before.goal ≠ after.goal)),
    ("assignment", decide (before.owner ≠ after.owner)),
    ("scopes", decide (before.scopes ≠ after.scopes)),
    ("contextRevision", decide (before.contextRevision ≠ after.contextRevision)),
    ("status", decide (before.status ≠ after.status))].filterMap
      fun field => if field.2 then some field.1 else none

def taskChange (old new : SessionState) (taskId : String) : TaskChange :=
  let before := old.tasks[taskId]?
  let after := new.tasks[taskId]?
  { taskId := taskId
    change := if before.isNone then "added" else if after.isNone then "removed" else "changed"
    previousStatus := before.map (·.status)
    status := after.map (·.status)
    previousOwner := before.map (·.owner)
    owner := after.map (·.owner)
    fields := match before, after with
      | some before, some after => changedFields before after
      | _, _ => [] }

def activeTasks (state : SessionState) : List String :=
  (state.tasks.toList.filter fun entry => decide (entry.2.status ∈ activeStatuses)).map (·.1)

/-- `affected` -/
def affectedTasks (old new : SessionState) (contextChanged : Bool) : List String :=
  sortedSet (projectedTasks old new ++ if contextChanged then activeTasks new else [])

/-- What `project_change` returns for two states that passed its checks. -/
def changeBetween (old new : SessionState) (fromRevision toRevision : String) :
    ProjectedChange :=
  let contextChanged := !Json.equal old.context.toDict new.context.toDict
  let changed := projectedTasks old new
  let records := (changed.take maxEventTasks).map (taskChange old new)
  let affected := affectedTasks old new contextChanged
  { fromRevision, toRevision
    metadataCheckpoint := Json.equal old.toDict new.toDict && decide (fromRevision ≠ toRevision)
    goalChanged := decide (old.context.goal ≠ new.context.goal)
    decisionsChanged := decide (old.context.decisions ≠ new.context.decisions)
    interfaces := interfaceChanges old.context.interfaces new.context.interfaces
    taskChanges := records
    taskChangeCount := changed.length
    taskChangesTruncated := decide (records.length < changed.length)
    affectedTaskIds := affected.take maxAffectedTasks
    affectedTaskCount := affected.length
    affectedTasksTruncated := decide (maxAffectedTasks < affected.length)
    contextChanged := contextChanged }

/-- The part of `project_change` that any exception leaves with one message. -/
def projectionInput (previous current : SessionState) (fromRevision toRevision : String) :
    Except CollabError (String × String × SessionState × SessionState) := do
  let fromRevision ← shaHex (.str fromRevision) "from_revision"
  let toRevision ← shaHex (.str toRevision) "to_revision"
  let old ← parseStateDict previous.toDict
  let new ← parseStateDict current.toDict
  return (fromRevision, toRevision, old, new)

def projectChange (previous current : SessionState) (fromRevision toRevision : String) :
    Except CollabError ProjectedChange :=
  match projectionInput previous current fromRevision toRevision with
  | .error _ => .error (.validation "invalid change projection input")
  | .ok (fromRevision, toRevision, old, new) =>
      if old.pinnedIdentity ≠ new.pinnedIdentity then
        .error (.validation "change projection identity mismatch")
      else if fromRevision = toRevision ∧ ¬ Json.equal old.toDict new.toDict then
        .error (.validation "same revision has different state")
      else .ok (changeBetween old new fromRevision toRevision)

/-- The projections of all pairs of neighbours in a chain. -/
def projectChain (revision : String) (previous : SessionState) :
    List (String × SessionState) → Except CollabError (List ProjectedChange)
  | [] => .ok []
  | (next, state) :: states => do
      let change ← projectChange previous state revision next
      let changes ← projectChain next state states
      return change :: changes

end Projection

section Differences

variable {old new : SessionState}

lemma mem_changedTasks {id : String} :
    id ∈ changedTasks old new ↔ old.tasks[id]? ≠ new.tasks[id]? := by
  rw [changedTasks, List.mem_filter, List.mem_dedup, List.mem_append, Std.ExtTreeMap.mem_keys,
    Std.ExtTreeMap.mem_keys, decide_eq_true_eq]
  refine ⟨fun h => h.2, fun h => ⟨?_, h⟩⟩
  by_contra hnone
  rw [not_or] at hnone
  rw [Std.ExtTreeMap.getElem?_eq_none hnone.1, Std.ExtTreeMap.getElem?_eq_none hnone.2] at h
  exact h rfl

/-- The two computations of the changed tasks agree. -/
theorem projectedTasks_eq :
    projectedTasks old new = (changedTasks old new).insertionSort (· ≤ ·) := by
  rw [projectedTasks, changedTasks]
  congr 1
  refine List.filter_congr fun key hkey => ?_
  rw [List.mem_dedup, List.mem_append, Std.ExtTreeMap.mem_keys, Std.ExtTreeMap.mem_keys] at hkey
  by_cases hold : key ∈ old.tasks
  · by_cases hnew : key ∈ new.tasks
    · simp [hold, hnew]
    · have hsome := Std.ExtTreeMap.mem_iff_isSome_getElem?.mp hold
      have hne : old.tasks[key]? ≠ none := Option.isSome_iff_ne_none.mp hsome
      simp [hnew, hne]
  · have hnew : key ∈ new.tasks := hkey.resolve_left hold
    have hsome := Std.ExtTreeMap.mem_iff_isSome_getElem?.mp hnew
    have hne : new.tasks[key]? ≠ none := Option.isSome_iff_ne_none.mp hsome
    simp [hold, hne.symm]

lemma mem_activeTasks {id : String} :
    id ∈ activeTasks new ↔ ∃ task, new.tasks[id]? = some task ∧ task.status ∈ activeStatuses := by
  rw [activeTasks, List.mem_map]
  constructor
  · rintro ⟨⟨key, task⟩, hentry, rfl⟩
    rw [List.mem_filter, decide_eq_true_eq,
      Std.ExtTreeMap.mem_toList_iff_getElem?_eq_some] at hentry
    exact ⟨task, hentry⟩
  · rintro ⟨task, htask, hstatus⟩
    refine ⟨(id, task), ?_, rfl⟩
    rw [List.mem_filter, decide_eq_true_eq, Std.ExtTreeMap.mem_toList_iff_getElem?_eq_some]
    exact ⟨htask, hstatus⟩

/-- Of contexts as the parser returns them, those with equal dicts are equal. -/
lemma SharedContext.Valid.equal_iff {a b : SharedContext} (ha : a.Valid) (hb : b.Valid) :
    Json.equal a.toDict b.toDict = true ↔ a = b := by
  have hparse {context : SharedContext} (h : context.Valid) :
      parseContext context.toDict.sortKeys = .ok context :=
    (parseContext_document (contextDocument_toDict context).sortKeys).mpr
      ⟨h.admissible, h.normal.symm⟩
  rw [Json.equal, decide_eq_true_eq]
  constructor
  · intro h
    have hsame := hparse ha
    rw [h, hparse hb] at hsame
    exact (Except.ok.inj hsame).symm
  · rintro rfl
    rfl

lemma mem_sortedSet {ids : List String} {id : String} : id ∈ sortedSet ids ↔ id ∈ ids := by
  rw [sortedSet, List.mem_insertionSort, List.mem_dedup]

lemma sortedSet_nodup (ids : List String) : (sortedSet ids).Nodup :=
  (List.perm_insertionSort _ _).nodup_iff.mpr (List.nodup_dedup _)

end Differences

section Accounts

/-- An event and a projection tell the same of a pair of states, and both tell all of it. -/
structure SameAccount (previous state : SessionState) (event : ReplayEvent)
    (change : ProjectedChange) : Prop where
  revisions : event.previousRevision = change.fromRevision ∧ event.revision = change.toRevision
  tasks : ∀ id : String, id ∈ event.changedTaskIds ↔ previous.tasks[id]? ≠ state.tasks[id]?
  projected : projectedTasks previous state = event.changedTaskIds
  once : event.changedTaskIds.Nodup
  context : event.contextChanged = true ↔ previous.context ≠ state.context
  contextAgrees : change.contextChanged = event.contextChanged
  records : change.taskChanges.map (·.taskId) = event.changedTaskIds.take maxEventTasks
  kinds : ∀ record ∈ change.taskChanges,
    (record.change = "added" ↔ previous.tasks[record.taskId]? = none) ∧
      (record.change = "removed" ↔ state.tasks[record.taskId]? = none)
  count : change.taskChangeCount = event.changedTaskIds.length
  truncated : change.taskChangesTruncated = true ↔ maxEventTasks < event.changedTaskIds.length
  affected : ∃ affected : List String, affected.Nodup ∧
    (∀ id, id ∈ affected ↔ id ∈ event.changedTaskIds ∨ event.contextChanged = true ∧
      ∃ task, state.tasks[id]? = some task ∧ task.status ∈ activeStatuses) ∧
    change.affectedTaskIds = affected.take maxAffectedTasks ∧
    change.affectedTaskCount = affected.length ∧
    (change.affectedTasksTruncated = true ↔ maxAffectedTasks < affected.length)

lemma taskChange_kinds {previous state : SessionState} {id : String}
    (h : previous.tasks[id]? ≠ state.tasks[id]?) :
    ((taskChange previous state id).change = "added" ↔ previous.tasks[id]? = none) ∧
      ((taskChange previous state id).change = "removed" ↔ state.tasks[id]? = none) := by
  simp only [taskChange]
  cases hbefore : previous.tasks[id]? with
  | none =>
      cases hafter : state.tasks[id]? with
      | none => exact absurd (hbefore.trans hafter.symm) h
      | some after => simp
  | some before =>
      cases hafter : state.tasks[id]? with
      | none => simp
      | some after => simp

theorem changeBetween_account {previous state : SessionState} (hprevious : previous.Valid)
    (hstate : state.Valid) (previousRevision revision : String) :
    SameAccount previous state (replayEvent previousRevision revision previous state)
      (changeBetween previous state previousRevision revision) := by
  have hids {id : String} : id ∈ (replayEvent previousRevision revision previous state).changedTaskIds
      ↔ previous.tasks[id]? ≠ state.tasks[id]? := by
    rw [replayEvent, List.mem_insertionSort, mem_changedTasks]
  have hcontext : (!Json.equal previous.context.toDict state.context.toDict) =
      decide (previous.context ≠ state.context) := by
    rw [Bool.eq_iff_iff, Bool.not_eq_true', decide_eq_true_eq, ne_eq,
      ← hprevious.context.equal_iff hstate.context, Bool.not_eq_true]
  refine ⟨⟨rfl, rfl⟩, fun id => hids, projectedTasks_eq, ?_, decide_eq_true_iff, hcontext, ?_, ?_,
    ?_, ?_, ?_⟩
  · exact (List.perm_insertionSort _ _).nodup_iff.mpr ((List.nodup_dedup _).filter _)
  · show ((List.take _ (projectedTasks previous state)).map _).map _ = _
    rw [List.map_map, projectedTasks_eq]
    exact List.map_id _
  · intro record hrecord
    obtain ⟨id, hid, rfl⟩ := List.mem_map.mp hrecord
    rw [projectedTasks_eq] at hid
    exact taskChange_kinds (hids.mp (List.mem_of_mem_take hid))
  · exact congrArg List.length projectedTasks_eq
  · simp only [changeBetween, decide_eq_true_eq, List.length_map, List.length_take,
      projectedTasks_eq, replayEvent]
    omega
  · refine ⟨affectedTasks previous state (decide (previous.context ≠ state.context)),
      sortedSet_nodup _, fun id => ?_, ?_, ?_, ?_⟩
    · rw [affectedTasks, mem_sortedSet, List.mem_append, projectedTasks_eq]
      refine or_congr Iff.rfl ?_
      by_cases hchanged : previous.context = state.context
      · simp [replayEvent, hchanged]
      · simp [replayEvent, hchanged, mem_activeTasks]
    · simp only [changeBetween, hcontext]
    · simp only [changeBetween, hcontext]
    · simp only [changeBetween, hcontext, decide_eq_true_eq]

end Accounts

section Pages

/-- A revision that holds what the store publishes for some state, and the state that is
read back there. -/
structure Published (w : World) (revision : String) (state : SessionState) : Prop where
  commit : ∃ version source, w.commits.find revision = some version ∧
    version.content.path = statePath ∧ statePayload source = .ok version.content.payload
  read : w.stateAt revision = .ok state

variable {w : World} {revision : String} {state : SessionState}

lemma Published.sha (h : Published w revision state) : isSha revision = true := by
  obtain ⟨version, _, hfind, -⟩ := h.commit
  exact w.named revision (Versions.find_some hfind).2

/-- A published state is valid and has no scope with a drive letter. -/
lemma Published.valid (h : Published w revision state) : state.Valid ∧ state.NoDrive := by
  obtain ⟨version, source, hfind, hpath, hpayload⟩ := h.commit
  obtain ⟨hadmissible, heq, hsize⟩ := statePayload_eq_ok.mp hpayload
  have hread := h.read
  rw [World.stateAt_of_find hfind hpath, heq] at hread
  rw [heq] at hsize
  obtain ⟨hdrive, rfl⟩ := (readPayload_normal hadmissible hsize).mp hread
  exact ⟨hadmissible.valid, hdrive⟩

lemma Published.parsed (h : Published w revision state) :
    parseStateDict state.toDict = .ok state := by
  obtain ⟨hvalid, hdrive⟩ := h.valid
  exact (parseStateDict_document (stateDocument_toDict state)).mpr
    ⟨hvalid.admissible_iff.mpr hdrive, hvalid.normal.symm⟩

lemma Published.later {later : World} (h : Published w revision state)
    (hlater : w.commits.Extends later.commits) : Published later revision state := by
  obtain ⟨version, source, hfind, hpath, hpayload⟩ := h.commit
  have hknown := (Versions.find_some hfind).2
  refine ⟨⟨version, source, ?_, hpath, hpayload⟩, ?_⟩
  · rw [hlater.find hknown, hfind]
  · rw [World.stateAt_of_extends hlater hknown, h.read]

/-- What a commit command of the store leaves is published. -/
theorem Published.committed {source : SessionState} {payload : ByteArray}
    {parent : Option String} {message commit : String}
    (hpayload : statePayload source = .ok payload) (hdrive : source.normal.NoDrive)
    (h : result (commitPayload payload statePath parent message) w = .ok commit) :
    Published (after (commitPayload payload statePath parent message) w) commit source.normal where
  commit := ⟨_, source, (commitPayload_spec h).2, rfl, hpayload⟩
  read := (commitPayload_stateAt hpayload h).mpr ⟨hdrive, rfl⟩

lemma Published.checked {identity : String × String × String} (h : Published w revision state)
    {found : SessionState} :
    checkedState identity state = .ok found ↔ state.pinnedIdentity = identity ∧ found = state := by
  rw [checkedState, except_bind_eq_ok]
  constructor
  · rintro ⟨parsed, hparsed, hfound⟩
    rw [h.parsed] at hparsed
    cases hparsed
    split_ifs at hfound with hidentity
    cases hfound
    exact ⟨not_not.mp hidentity, rfl⟩
  · rintro ⟨hidentity, rfl⟩
    exact ⟨_, h.parsed, if_neg (not_not.mpr hidentity)⟩

lemma projectChange_published {next : String} {new : SessionState}
    (h : Published w revision state) (hnext : Published w next new)
    (hidentity : state.pinnedIdentity = new.pinnedIdentity) :
    projectChange state new revision next = .ok (changeBetween state new revision next) := by
  have hinput : projectionInput state new revision next = .ok (revision, next, state, new) := by
    simp only [projectionInput, except_bind_eq_ok, shaHex_eq_ok, except_pure_eq_ok]
    exact ⟨revision, ⟨rfl, h.sha⟩, next, ⟨rfl, hnext.sha⟩, state, h.parsed, new, hnext.parsed, rfl⟩
  rw [projectChange, hinput]
  show (if state.pinnedIdentity ≠ new.pinnedIdentity then _ else _) = _
  rw [if_neg (not_not.mpr hidentity), if_neg]
  rintro ⟨rfl, hdifferent⟩
  -- one revision holds one state
  have hsame := hnext.read
  rw [h.read] at hsame
  cases hsame
  exact hdifferent (decide_eq_true rfl)

/-- Events and projections that tell the same of every pair of neighbours in a chain. -/
inductive SameHistory : SessionState → List (String × SessionState) → List ReplayEvent →
    List ProjectedChange → Prop
  | nil {previous : SessionState} : SameHistory previous [] [] []
  | cons {previous state : SessionState} {revision : String}
      {states : List (String × SessionState)} {event : ReplayEvent} {change : ProjectedChange}
      {events : List ReplayEvent} {changes : List ProjectedChange}
      (account : SameAccount previous state event change)
      (rest : SameHistory state states events changes) :
      SameHistory previous ((revision, state) :: states) (event :: events) (change :: changes)

lemma replayEvents_published {identity : String × String × String} {previousRevision : String}
    {previous : SessionState} {states : List (String × SessionState)}
    (hprevious : Published w previousRevision previous) (hidentity : previous.pinnedIdentity = identity)
    (hstates : ∀ entry ∈ states, Published w entry.1 entry.2) :
    ((∃ events, replayEvents identity previousRevision previous states = .ok events) ↔
      ∀ entry ∈ states, entry.2.pinnedIdentity = identity) ∧
    ∀ events, replayEvents identity previousRevision previous states = .ok events →
      ∃ changes, projectChain previousRevision previous states = .ok changes ∧
        SameHistory previous states events changes := by
  induction states generalizing previousRevision previous with
  | nil =>
      refine ⟨iff_of_true ⟨[], rfl⟩ (by simp), fun events hevents => ?_⟩
      cases hevents
      exact ⟨[], rfl, .nil⟩
  | cons entry states ih =>
      obtain ⟨revision, raw⟩ := entry
      have hraw : Published w revision raw := hstates _ List.mem_cons_self
      have hrest := fun other hother => hstates other (List.mem_cons_of_mem _ hother)
      have hstep {events : List ReplayEvent} :
          replayEvents identity previousRevision previous ((revision, raw) :: states) = .ok events ↔
            raw.pinnedIdentity = identity ∧ ∃ later, replayEvents identity revision raw states = .ok later ∧
              replayEvent previousRevision revision previous raw :: later = events := by
        simp only [replayEvents, except_bind_eq_ok, shaHex_eq_ok, Json.str.injEq,
          except_pure_eq_ok, hraw.checked]
        constructor
        · rintro ⟨_, ⟨rfl, -⟩, _, ⟨hsame, rfl⟩, later, hlater, rfl⟩
          exact ⟨hsame, later, hlater, rfl⟩
        · rintro ⟨hsame, later, hlater, rfl⟩
          exact ⟨revision, ⟨rfl, hraw.sha⟩, raw, ⟨hsame, rfl⟩, later, hlater, rfl⟩
      constructor
      · rw [List.forall_mem_cons]
        constructor
        · rintro ⟨events, hevents⟩
          obtain ⟨hsame, later, hlater, -⟩ := hstep.mp hevents
          exact ⟨hsame, (ih hraw hsame hrest).1.mp ⟨later, hlater⟩⟩
        · rintro ⟨hsame, hothers⟩
          obtain ⟨later, hlater⟩ := (ih hraw hsame hrest).1.mpr hothers
          exact ⟨_, hstep.mpr ⟨hsame, later, hlater, rfl⟩⟩
      · intro events hevents
        obtain ⟨hsame, later, hlater, rfl⟩ := hstep.mp hevents
        obtain ⟨changes, hchanges, hhistory⟩ := (ih hraw hsame hrest).2 later hlater
        have hchange := projectChange_published hprevious hraw (hidentity.trans hsame.symm)
        refine ⟨_ :: changes, ?_, .cons (changeBetween_account hprevious.valid.1 hraw.valid.1
          previousRevision revision) hhistory⟩
        simp only [projectChain, except_bind_eq_ok, except_pure_eq_ok]
        exact ⟨_, hchange, changes, hchanges, rfl⟩

/-- A replay of published states has its events if and only if they are all of the
coordinator's session; then the owner projects the same pairs of states, and event and
projection of each pair tell the same and all that changed. -/
theorem replay_told_twice (w : World) (identity : String × String × String) (cursor : String)
    (previous : SessionState) (states : List (String × SessionState))
    (h : ∀ entry ∈ (cursor, previous) :: states, Published w entry.1 entry.2) :
    ((∃ events, replayPage identity cursor previous states = .ok events) ↔
      ∀ entry ∈ (cursor, previous) :: states, entry.2.pinnedIdentity = identity) ∧
    ∀ events, replayPage identity cursor previous states = .ok events →
      ∃ changes, projectChain cursor previous states = .ok changes ∧
        SameHistory previous states events changes := by
  have hprevious : Published w cursor previous := h _ List.mem_cons_self
  have hstates := fun other hother => h other (List.mem_cons_of_mem _ hother)
  have hpage {events : List ReplayEvent} : replayPage identity cursor previous states = .ok events ↔
      previous.pinnedIdentity = identity ∧ replayEvents identity cursor previous states = .ok events := by
    simp only [replayPage, except_bind_eq_ok, shaHex_eq_ok, Json.str.injEq, hprevious.checked]
    constructor
    · rintro ⟨_, ⟨rfl, -⟩, _, ⟨hsame, rfl⟩, hevents⟩
      exact ⟨hsame, hevents⟩
    · rintro ⟨hsame, hevents⟩
      exact ⟨cursor, ⟨rfl, hprevious.sha⟩, previous, ⟨hsame, rfl⟩, hevents⟩
  constructor
  · rw [List.forall_mem_cons]
    constructor
    · rintro ⟨events, hevents⟩
      obtain ⟨hsame, hevents⟩ := hpage.mp hevents
      exact ⟨hsame, (replayEvents_published hprevious hsame hstates).1.mp ⟨events, hevents⟩⟩
    · rintro ⟨hsame, hothers⟩
      obtain ⟨events, hevents⟩ :=
        (replayEvents_published hprevious hsame hstates).1.mpr hothers
      exact ⟨events, hpage.mpr ⟨hsame, hevents⟩⟩
  · intro events hevents
    obtain ⟨hsame, hevents⟩ := hpage.mp hevents
    exact (replayEvents_published hprevious hsame hstates).2 events hevents

/-- On a hub that answers, a commit gets the fresh name. -/
lemma commitPayload_fresh {w : World} {payload : ByteArray} {parent : Option String}
    {message : String} (htrouble : w.weather.trouble = none)
    (hname : isSha w.weather.fresh = true) (hfresh : w.weather.fresh ∉ w.commits.names)
    (hparents : ∀ p ∈ parent.toList, p ∈ w.commits.names) :
    commitPayload payload statePath parent message w = .ok w.weather.fresh
      (w.addCommit ⟨w.weather.fresh, parent.toList, ⟨statePath, payload, message⟩⟩ hname hfresh
        hparents) := by
  have hfind : w.commits.find w.weather.fresh = none := by
    by_contra hsome
    obtain ⟨version, hversion⟩ := Option.ne_none_iff_exists'.mp hsome
    exact hfresh (Versions.find_some hversion).2
  unfold commitPayload
  simp only [World.failure, htrouble, Option.map_none, hname, dite_true, hfind]
  rw [dif_pos ⟨hfresh, hparents⟩]

def nextSha : String := "fedcba9876543210fedcba9876543210fedcba98"

/-- Two states of a session one after the other, in which the task has other scopes. -/
theorem replay_told_twice_sample :
    ∃ events changes,
      replayPage (scopedState []).pinnedIdentity sampleSha (scopedState ["src"]).normal
        [(nextSha, (scopedState ["docs"]).normal)] = .ok events ∧
      projectChain sampleSha (scopedState ["src"]).normal
        [(nextSha, (scopedState ["docs"]).normal)] = .ok changes ∧
      SameHistory (scopedState ["src"]).normal [(nextSha, (scopedState ["docs"]).normal)] events
        changes := by
  obtain ⟨payload, hpayload⟩ := scopedState_src
  obtain ⟨payload', hpayload'⟩ :=
    scopedState_payload ["docs"] (by decide +kernel) (by decide +kernel)
  have hdrive := scopedState_noDrive ["src"] (by decide +kernel)
  have hdrive' := scopedState_noDrive ["docs"] (by decide +kernel)
  have hcommit := commitPayload_empty payload "m"
  have hfirst := Published.committed hpayload hdrive hcommit
  have hnames : (after (commitPayload payload statePath none "m")
      (emptyWorld sampleSha)).commits.names = [sampleSha] := by
    have hdone := @commitPayload_fresh (emptyWorld sampleSha) payload none "m" rfl isSha_sampleSha
      List.not_mem_nil fun p hp => absurd hp List.not_mem_nil
    rw [after, hdone]
    rfl
  revert hfirst
  generalize after (commitPayload payload statePath none "m") (emptyWorld sampleSha) = w at hnames
  intro hfirst
  have hnext : result (commitPayload payload' statePath (some sampleSha) "m")
      (w.setWeather ⟨none, nextSha, false⟩) = .ok nextSha := by
    have hfresh : nextSha ∉ w.commits.names := by
      rw [hnames]
      decide +kernel
    have hparents : ∀ p ∈ [sampleSha], p ∈ w.commits.names := by
      rw [hnames]
      exact fun p hp => hp
    have hsha : isSha nextSha = true := by decide +kernel
    have hdone := @commitPayload_fresh (w.setWeather ⟨none, nextSha, false⟩) payload'
      (some sampleSha) "m" rfl hsha hfresh hparents
    rw [result, hdone]
    rfl
  have hsecond := Published.committed hpayload' hdrive' hnext
  have hkept := hfirst.later (commitPayload_spec hnext).1
  have htold := replay_told_twice _ (scopedState []).pinnedIdentity sampleSha
    (scopedState ["src"]).normal [(nextSha, (scopedState ["docs"]).normal)] (by
      intro entry hentry
      rcases List.mem_cons.mp hentry with rfl | hentry
      · exact hkept
      · rw [List.mem_singleton] at hentry
        rw [hentry]
        exact hsecond)
  obtain ⟨events, hevents⟩ := htold.1.mpr (by
    intro entry hentry
    rcases List.mem_cons.mp hentry with rfl | hentry
    · rfl
    · rw [List.mem_singleton] at hentry
      rw [hentry]
      rfl)
  obtain ⟨changes, hchanges, hhistory⟩ := htold.2 events hevents
  exact ⟨events, changes, hevents, hchanges, hhistory⟩

end Pages

end Imece.CollabRuntime
