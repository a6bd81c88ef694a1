import Imece.RunRuntime.Completion
import Imece.RunRuntime.Journals
import Imece.RunRuntime.Legacy

/-!
# The executions of the legacy bridge

One legacy event becomes several appends, any of which may fail. The adapter's execution is
compared with the executions that the events recorded so far have started and not closed.
-/
namespace Imece.RunRuntime

open Lib Lib.Machine

/-- The event closes an execution. -/
def closesExecution (event : RunEvent) : Bool :=
  event.isType .executionCompleted || event.isType .executionFailed

/-- The executions that are started and not closed. -/
def openExecutions (events : List RunEvent) : List (Option String) :=
  events.foldl (fun running event =>
    if event.isType .executionStarted then running ++ [event.executionId]
    else if closesExecution event then running.erase event.executionId
    else running) []

/-- The identifiers of the started executions, in order. -/
def startedExecutions (events : List RunEvent) : List (Option String) :=
  (events.filter (·.isType .executionStarted)).map (·.executionId)

def timesClosed (id : String) (events : List RunEvent) : ℕ :=
  events.countP fun event => closesExecution event && event.executionId == some id

/-- What the bridge may append after `events`: it opens an execution when none is open, and
closes the open one. -/
structure LegacyMove (events : List RunEvent) (event : RunEvent) : Prop where
  start : event.isType .executionStarted = true →
    openExecutions events = [] ∧ ∃ id, event.executionId = some id
  close : closesExecution event = true →
    ∃ id, event.executionId = some id ∧ openExecutions events = [some id]

abbrev LegacyTrail (events : List RunEvent) : Prop := Justified LegacyMove events

lemma openExecutions_snoc (events : List RunEvent) (event : RunEvent) :
    openExecutions (events ++ [event]) =
      if event.isType .executionStarted then openExecutions events ++ [event.executionId]
      else if closesExecution event then (openExecutions events).erase event.executionId
      else openExecutions events :=
  List.foldl_append

lemma startedExecutions_snoc (events : List RunEvent) (event : RunEvent) :
    startedExecutions (events ++ [event]) = startedExecutions events ++
      if event.isType .executionStarted then [event.executionId] else [] := by
  rw [startedExecutions, List.filter_append, List.map_append]
  by_cases h : event.isType .executionStarted = true
  · simp [startedExecutions, h]
  · simp [startedExecutions, h]

lemma not_start_of_close {event : RunEvent} (h : closesExecution event = true) :
    event.isType .executionStarted = false := by
  simp only [closesExecution, RunEvent.isType, Bool.or_eq_true, beq_iff_eq] at h
  rcases h with h | h <;> simp only [RunEvent.isType, h] <;> rfl

namespace LegacyTrail

variable {events : List RunEvent}

/-- At most one execution is open. -/
lemma one_open (h : LegacyTrail events) : (openExecutions events).length ≤ 1 := by
  induction events using List.reverseRecOn with
  | nil => simp [openExecutions]
  | append_singleton events event ih =>
      have hmove := h events event [] rfl
      have hbefore := ih h.of_append
      rw [openExecutions_snoc]
      split
      · rename_i hstart
        rw [(hmove.start hstart).1]
        simp
      · split
        · exact (List.length_erase_le).trans hbefore
        · exact hbefore

/-- A start is closed, or its execution is open. -/
lemma started_eq (h : LegacyTrail events) (id : String) :
    (startedExecutions events).count (some id) =
      timesClosed id events + (openExecutions events).count (some id) := by
  induction events using List.reverseRecOn with
  | nil => simp [openExecutions, startedExecutions, timesClosed]
  | append_singleton events event ih =>
      have hmove := h events event [] rfl
      have hbefore := ih h.of_append
      rw [startedExecutions_snoc, openExecutions_snoc, timesClosed, List.countP_append,
        List.countP_singleton, List.count_append]
      rw [timesClosed] at hbefore
      by_cases hstart : event.isType .executionStarted = true
      · have hclose : closesExecution event = false := by
          by_contra hnot
          rw [Bool.not_eq_false] at hnot
          rw [not_start_of_close hnot] at hstart
          cases hstart
        simp only [hstart, if_pos, hclose, Bool.false_and, List.count_append]
        simp
        omega
      · by_cases hclose : closesExecution event = true
        · obtain ⟨closed, hid, hopen⟩ := hmove.close hclose
          rw [hopen] at hbefore ⊢
          simp only [hstart, hclose, hid, Bool.true_and]
          by_cases hsame : closed = id
          · subst hsame
            simp at hbefore ⊢
            omega
          · simp [hsame] at hbefore ⊢
            omega
        · simp only [hstart, hclose, Bool.false_and]
          simp
          omega

/-- Executions with distinct identifiers are closed once each. -/
lemma closed_once (h : LegacyTrail events) {drawn : List String} (hnodup : drawn.Nodup)
    (hdrawn : (startedExecutions events).Sublist (drawn.map some)) (id : String) :
    timesClosed id events ≤ 1 := by
  have hstarted : (startedExecutions events).Nodup :=
    (hnodup.map (Option.some_injective _)).sublist hdrawn
  have hcount := List.nodup_iff_count_le_one.mp hstarted (some id)
  have heq := h.started_eq id
  omega

end LegacyTrail

/-- The specs of one translation, recorded in order by an adapter that may open one execution
for each of the identifiers. -/
inductive LegalSpecs : List String → LegacyEventAdapter → List CanonicalEventSpec → Prop
  | nil {ids : List String} {adapter : LegacyEventAdapter} : LegalSpecs ids adapter []
  | other {ids : List String} {adapter : LegacyEventAdapter} {spec : CanonicalEventSpec}
      {rest : List CanonicalEventSpec} (hstart : spec.type ≠ RunEventType.executionStarted.value)
      (hcompleted : spec.type ≠ RunEventType.executionCompleted.value)
      (hfailed : spec.type ≠ RunEventType.executionFailed.value)
      (hrest : LegalSpecs ids adapter rest) : LegalSpecs ids adapter (spec :: rest)
  | close {ids : List String} {adapter : LegacyEventAdapter} {spec : CanonicalEventSpec}
      {rest : List CanonicalEventSpec} {id : String}
      (htype : spec.type = RunEventType.executionCompleted.value)
      (hspec : spec.executionId = some id) (hopen : adapter.executionId = some id)
      (hrest : LegalSpecs ids { adapter with executionId := none } rest) :
      LegalSpecs ids adapter (spec :: rest)
  | start {ids : List String} {adapter : LegacyEventAdapter} {spec : CanonicalEventSpec}
      {rest : List CanonicalEventSpec} {id : String}
      (htype : spec.type = RunEventType.executionStarted.value)
      (hspec : spec.executionId = some id) (hclosed : adapter.executionId = none)
      (hrest : LegalSpecs ids (adapter.commitRecorded spec) rest) :
      LegalSpecs (id :: ids) adapter (spec :: rest)

section Translations

variable {adapter : LegacyEventAdapter} {event : LegacyEvent} {newExecutionId : String}
  {ids : List String}

lemma LegalSpecs.one (adapter : LegacyEventAdapter) (ids : List String)
    {spec : CanonicalEventSpec} (htype : spec.type ≠ RunEventType.executionStarted.value ∧
      spec.type ≠ RunEventType.executionCompleted.value ∧
      spec.type ≠ RunEventType.executionFailed.value) : LegalSpecs ids adapter [spec] :=
  .other htype.1 htype.2.1 htype.2.2 .nil

/-- After the closing of the open execution none is open. -/
lemma LegalSpecs.closing {rest : List CanonicalEventSpec}
    (hrest : LegalSpecs ids { adapter with executionId := none } rest) :
    LegalSpecs ids adapter (adapter.currentCloseSpec ++ rest) := by
  unfold LegacyEventAdapter.currentCloseSpec
  cases hid : adapter.executionId with
  | none =>
      have hsame : { adapter with executionId := none } = adapter := by
        rw [← hid]
      rwa [hsame] at hrest
  | some id => exact .close rfl rfl hid hrest

/-- Only a stage event opens an execution, after it has closed the open one. -/
theorem translate_legal {specs : List CanonicalEventSpec}
    (h : adapter.translate event newExecutionId = .ok specs) :
    LegalSpecs [newExecutionId] adapter specs := by
  have hone : ∀ {made : CanonicalEventSpec} (type : RunEventType), made.type = type.value →
      type ≠ .executionStarted ∧ type ≠ .executionCompleted ∧ type ≠ .executionFailed →
      specs = [made] → LegalSpecs [newExecutionId] adapter specs := by
    rintro made type hmade ⟨hstart, hcompleted, hfailed⟩ rfl
    refine .one adapter _ ?_
    rw [hmade]
    exact ⟨RunEventType.value_injective.ne hstart, RunEventType.value_injective.ne hcompleted,
      RunEventType.value_injective.ne hfailed⟩
  have hunknown : specs = [adapter.unknown event] →
      LegalSpecs [newExecutionId] adapter specs := by
    rintro rfl
    refine .one adapter _ ?_
    rw [show (adapter.unknown event).type = "legacy.event" from rfl]
    decide
  unfold LegacyEventAdapter.translate at h
  split at h
  · unfold LegacyEventAdapter.onStage at h
    split at h
    · split at h
      · exact hunknown (Except.ok.inj h).symm
      · obtain rfl := Except.ok.inj h
        refine .closing (.other ?_ ?_ ?_ (.start rfl rfl rfl .nil))
        all_goals simp only; decide
    · cases h
    · cases h
    · exact hunknown (Except.ok.inj h).symm
  · exact hone .executionOutput rfl (by decide) (Except.ok.inj h).symm
  · exact hone .executionOutput rfl (by decide) (Except.ok.inj h).symm
  · simp only [LegacyEventAdapter.onMetric, except_map_eq_ok, except_bind_eq_ok,
      except_pure_eq_ok] at h
    obtain ⟨_, ⟨_, -, _, -, _, -, rfl⟩, h⟩ := h
    exact hone .usageRecorded rfl (by decide) h.symm
  · simp only [LegacyEventAdapter.onPlan, except_map_eq_ok, except_bind_eq_ok,
      except_pure_eq_ok] at h
    obtain ⟨_, ⟨_, -, rfl⟩, h⟩ := h
    exact hone .planCompleted rfl (by decide) h.symm
  · exact hone .changeProposed rfl (by decide) (Except.ok.inj h).symm
  · exact hone .reviewCompleted rfl (by decide) (Except.ok.inj h).symm
  · simp only [LegacyEventAdapter.onProposal, except_bind_eq_ok, except_pure_eq_ok] at h
    obtain ⟨items, -, proposals, -, totals, -, rfl⟩ := h
    rw [List.append_assoc]
    refine .closing (.other ?_ ?_ ?_ ?_)
    · simp only; decide
    · simp only; decide
    · simp only; decide
    · split
      · exact .nil
      · exact .one _ _ (by simp only; decide)
  · cases h
  · cases h
  · exact hunknown (Except.ok.inj h).symm

end Translations

/-- The calls of the host on one coordinator. -/
inductive LegacyCall where
  | handleLegacyEvent (event : LegacyEvent) (newExecutionId : String) (fresh : ℕ → Fresh)
  | finishNormal (fresh : Fresh)
  | finishFailed (message : String) (fresh : ℕ → Fresh)
  | finishCancelled (fresh : ℕ → Fresh)
  | recordProposalApplied (appliedPaths : List String) (checkpointId : String) (fresh : Fresh)
  | recordProposalRejected (rejectedPaths : List String) (fresh : Fresh)

/-- A method that leaves the adapter alone. -/
def besideAdapter {α : Type} (adapter : LegacyEventAdapter) (program : RunProg α) :
    RunProg (Ended LegacyEventAdapter) := do
  match ← program.attempt with
  | .error e => raised adapter e
  | .ok _ => returned adapter

open LegacyRunCoordinator in
def legacyCall (runId : String) (adapter : LegacyEventAdapter) :
    LegacyCall → RunProg (Ended LegacyEventAdapter)
  | .handleLegacyEvent event newExecutionId fresh =>
      handleLegacyEvent runId adapter event newExecutionId fresh
  | .finishNormal fresh => besideAdapter adapter (finishNormal runId fresh)
  | .finishFailed message fresh => finishFailed runId adapter message fresh
  | .finishCancelled fresh => finishCancelled runId adapter fresh
  | .recordProposalApplied appliedPaths checkpointId fresh =>
      besideAdapter adapter (recordProposalApplied runId appliedPaths checkpointId fresh)
  | .recordProposalRejected rejectedPaths fresh =>
      besideAdapter adapter (recordProposalRejected runId rejectedPaths fresh)

/-- The identifiers that `new_execution_id()` has drawn for a call. -/
def LegacyCall.drawn : LegacyCall → List String
  | .handleLegacyEvent _ newExecutionId _ => [newExecutionId]
  | _ => []

/-- The trail, and the executions it opens, up to any append of a call. -/
structure LegacyAlways (drawn : List String) (own : List RunEvent) : Prop where
  trail : LegacyTrail own
  drawn : (startedExecutions own).Sublist (drawn.map some)

/-- The adapter's execution is the one that is open, and the identifiers left may be used. -/
structure LegacyState (drawn ids : List String) (adapter : LegacyEventAdapter)
    (own : List RunEvent) : Prop where
  current : openExecutions own = adapter.executionId.toList.map some
  trail : LegacyTrail own
  ids : (startedExecutions own ++ ids.map some).Sublist (drawn.map some)

namespace LegacyState

variable {drawn ids : List String} {adapter : LegacyEventAdapter} {own : List RunEvent}
  {event : RunEvent}

lemma always (h : LegacyState drawn ids adapter own) : LegacyAlways drawn own :=
  ⟨h.trail, (List.sublist_append_left _ _).trans h.ids⟩

lemma drop (h : LegacyState drawn ids adapter own) : LegacyState drawn [] adapter own :=
  ⟨h.current, h.trail, by simpa using h.always.drawn⟩

/-- An event that is about no execution. -/
lemma other (h : LegacyState drawn ids adapter own)
    (hstart : event.isType .executionStarted = false) (hclose : closesExecution event = false) :
    LegacyState drawn ids adapter (own ++ [event]) := by
  refine ⟨?_, h.trail.append ⟨fun hnot => ?_, fun hnot => ?_⟩, ?_⟩
  · simp only [openExecutions_snoc, hstart, hclose]
    exact h.current
  · rw [hstart] at hnot
    cases hnot
  · rw [hclose] at hnot
    cases hnot
  · simpa [startedExecutions_snoc, hstart] using h.ids

/-- The open execution is closed. -/
lemma close {id : String} (h : LegacyState drawn ids adapter own)
    (hclose : closesExecution event = true) (hid : event.executionId = some id)
    (hopen : adapter.executionId = some id) :
    LegacyState drawn ids { adapter with executionId := none } (own ++ [event]) := by
  have hcurrent : openExecutions own = [some id] := by
    rw [h.current, hopen]
    rfl
  have hstart := not_start_of_close hclose
  refine ⟨?_, h.trail.append ⟨fun hnot => ?_, fun _ => ⟨id, hid, hcurrent⟩⟩, ?_⟩
  · simp [openExecutions_snoc, hstart, hclose, hcurrent, hid]
  · rw [hstart] at hnot
    cases hnot
  · simpa [startedExecutions_snoc, hstart] using h.ids

/-- An execution is opened while none is. -/
lemma start {id : String} {next : LegacyEventAdapter}
    (h : LegacyState drawn (id :: ids) adapter own)
    (hstart : event.isType .executionStarted = true) (hid : event.executionId = some id)
    (hclosed : adapter.executionId = none) (hnext : next.executionId = some id) :
    LegacyState drawn ids next (own ++ [event]) := by
  have hcurrent : openExecutions own = [] := by
    rw [h.current, hclosed]
    rfl
  refine ⟨?_, h.trail.append ⟨fun _ => ⟨hcurrent, id, hid⟩, fun hclose => ?_⟩, ?_⟩
  · simp [openExecutions_snoc, hstart, hcurrent, hid, hnext]
  · rw [not_start_of_close hclose] at hstart
    cases hstart
  · have hids := h.ids
    rw [List.map_cons] at hids
    simpa [startedExecutions_snoc, hstart, hid] using hids

end LegacyState

section Calls

variable {runId : String} {drawn ids : List String} {adapter : LegacyEventAdapter}
  {own : List RunEvent}

/-- What a call of the coordinator leaves. -/
def LegacyLeaves (drawn : List String) (r : Except RunRuntimeError (Ended LegacyEventAdapter))
    (own : List RunEvent) : Prop :=
  ∃ ended, r = .ok ended ∧ LegacyState drawn [] ended.object own

lemma legacy_ended (h : LegacyState drawn ids adapter own) (outcome : Except RunRuntimeError Unit) :
    Journals runId (LegacyAlways drawn) (LegacyLeaves drawn)
      (return ⟨adapter, outcome⟩ : RunProg (Ended LegacyEventAdapter)) own :=
  ⟨_, rfl, h.drop⟩

/-- What one append of the bridge leaves. -/
abbrev LegacyAppended (args : EventArgs) (own : List RunEvent)
    (r : Except RunRuntimeError (RunEvent × RunRecord)) (own' : List RunEvent) : Prop :=
  (∃ made event, r = .ok made ∧ own' = own ++ [event] ∧ RecordedAs args event) ∨
    (∃ e, r = .error e) ∧ own' = own

/-- An append that every event it may make keeps legal. -/
lemma legacy_record {args : EventArgs} {expected : Option ℕ} {fresh : Fresh}
    (h : LegacyState drawn ids adapter own)
    (hevent : ∀ event, RecordedAs args event → LegacyAlways drawn (own ++ [event])) :
    Journals runId (LegacyAlways drawn) (LegacyAppended args own)
      (record runId args expected fresh) own :=
  record_journals h.always
    (fun event _ hrecorded => ⟨hevent event hrecorded, Or.inl ⟨_, event, rfl, rfl, hrecorded⟩⟩)
    fun e => Or.inr ⟨⟨e, rfl⟩, rfl⟩

/-- The adapter takes in a committed spec as the trail takes in its event. -/
lemma commitRecorded_state {spec : CanonicalEventSpec} {rest : List CanonicalEventSpec}
    (h : LegacyState drawn ids adapter own) (hlegal : LegalSpecs ids adapter (spec :: rest))
    {event : RunEvent}
    (hrecorded : RecordedAs (LegacyRunCoordinator.specArgs runId spec) event) :
    ∃ left, LegacyState drawn left (adapter.commitRecorded spec) (own ++ [event]) ∧
      LegalSpecs left (adapter.commitRecorded spec) rest := by
  have htype : event.type = spec.type := hrecorded.type
  have hid : event.executionId = spec.executionId := hrecorded.executionId
  cases hlegal with
  | other hstart hcompleted hfailed hrest =>
      have hsame : adapter.commitRecorded spec = adapter := by
        unfold LegacyEventAdapter.commitRecorded
        rw [if_neg (by simp [hcompleted, hfailed]), if_neg hstart]
      rw [hsame]
      refine ⟨ids, h.other ?_ ?_, hrest⟩
      · simpa [RunEvent.isType, htype] using hstart
      · simp [closesExecution, RunEvent.isType, htype, hcompleted, hfailed]
  | @close _ _ _ _ id hclose hspec hopen hrest =>
      have hnext : adapter.commitRecorded spec = { adapter with executionId := none } := by
        unfold LegacyEventAdapter.commitRecorded LegacyEventAdapter.markExecutionClosed
        rw [if_pos (Or.inl hclose), if_pos (by simp [hspec, hopen])]
      rw [hnext]
      refine ⟨ids, h.close ?_ (hid.trans hspec) hopen, hrest⟩
      simp [closesExecution, RunEvent.isType, htype, hclose]
  | @start left _ _ _ id hstart hspec hclosed hrest =>
      refine ⟨left, h.start ?_ (hid.trans hspec) hclosed ?_, hrest⟩
      · simp [RunEvent.isType, htype, hstart]
      · unfold LegacyEventAdapter.commitRecorded
        rw [if_neg (by rw [hstart]; decide), if_pos hstart]
        exact hspec

/-- By induction on the legal specs: what has been committed is what the adapter has taken in. -/
theorem recordSpecs_journals {specs : List (CanonicalEventSpec × ℕ)} {fresh : ℕ → Fresh}
    (h : LegacyState drawn ids adapter own) (hlegal : LegalSpecs ids adapter (specs.map (·.1))) :
    Journals runId (LegacyAlways drawn) (LegacyLeaves drawn)
      (LegacyRunCoordinator.recordSpecs runId fresh adapter specs) own := by
  induction specs generalizing ids adapter own with
  | nil => exact legacy_ended h _
  | cons spec rest ih =>
      obtain ⟨spec, i⟩ := spec
      have hnext := fun event hrecorded =>
        @commitRecorded_state runId drawn ids adapter own spec _ h hlegal event hrecorded
      refine Prog.Writes.attempt_bind (legacy_record h fun event hrecorded => ?_) ?_
      · obtain ⟨left, hstate, -⟩ := hnext event hrecorded
        exact hstate.always
      · rintro r own' (⟨made, event, rfl, rfl, hrecorded⟩ | ⟨⟨e, rfl⟩, rfl⟩)
        · obtain ⟨left, hstate, hrest⟩ := hnext event hrecorded
          exact ih hstate hrest
        · exact legacy_ended h _

lemma handleLegacyEvent_journals {event : LegacyEvent} {newExecutionId : String}
    {fresh : ℕ → Fresh} (h : LegacyState drawn [newExecutionId] adapter own) :
    Journals runId (LegacyAlways drawn) (LegacyLeaves drawn)
      (LegacyRunCoordinator.handleLegacyEvent runId adapter event newExecutionId fresh) own := by
  unfold LegacyRunCoordinator.handleLegacyEvent
  split
  · exact legacy_ended h _
  · rename_i specs htranslate
    refine recordSpecs_journals h ?_
    rw [List.zipIdx_map_fst]
    exact translate_legal htranslate

/-- An append of the run's lifecycle that is about no execution. -/
lemma lifecycle_state {type : RunEventType} {fields : List (String × PyValue)}
    (htype : type ≠ .executionStarted ∧ type ≠ .executionCompleted ∧ type ≠ .executionFailed)
    (h : LegacyState drawn ids adapter own) {event : RunEvent}
    (hrecorded : RecordedAs (LegacyRunCoordinator.lifecycleArgs runId type fields) event) :
    LegacyState drawn ids adapter (own ++ [event]) := by
  have hkind := hrecorded.isType rfl
  exact h.other (by simp [hkind, htype]) (by simp [closesExecution, hkind, htype])

lemma finish_journals {type : RunEventType} {fields : List (String × PyValue)}
    {fresh : ℕ → Fresh} {expected : ℕ}
    (htype : type ≠ .executionStarted ∧ type ≠ .executionCompleted ∧ type ≠ .executionFailed)
    (h : LegacyState drawn ids adapter own) :
    Journals runId (LegacyAlways drawn) (LegacyLeaves drawn)
      (LegacyRunCoordinator.closeThen.finish runId type fields fresh adapter expected) own := by
  refine Prog.Writes.attempt_bind (legacy_record h fun event hrecorded =>
    (lifecycle_state htype h hrecorded).always) ?_
  rintro r own' (⟨made, event, rfl, rfl, hrecorded⟩ | ⟨⟨e, rfl⟩, rfl⟩)
  · exact legacy_ended (lifecycle_state htype h hrecorded) _
  · exact legacy_ended h _

lemma closeThen_journals {type : RunEventType}
    {executionFields runFields : List (String × PyValue)} {fresh : ℕ → Fresh}
    (htype : type ≠ .executionStarted ∧ type ≠ .executionCompleted ∧ type ≠ .executionFailed)
    (h : LegacyState drawn ids adapter own) :
    Journals runId (LegacyAlways drawn) (LegacyLeaves drawn)
      (LegacyRunCoordinator.closeThen runId adapter type executionFields runFields fresh) own := by
  refine Prog.Writes.attempt_bind (getRun_journals (Q := fun _ own' => own = own') h.always
    fun _ => rfl) ?_
  rintro (e | current) _ rfl
  · exact legacy_ended h _
  · dsimp only
    split
    · exact legacy_ended h _
    · cases hopen : adapter.executionId with
      | none => exact finish_journals htype h
      | some id =>
          have hclosed : ∀ event, RecordedAs (LegacyRunCoordinator.lifecycleArgs runId
              .executionFailed executionFields (some id)) event →
              LegacyState drawn ids { adapter with executionId := none } (own ++ [event]) := by
            intro event hrecorded
            have hkind := @RecordedAs.isType _ _ hrecorded .executionFailed rfl
            exact h.close (by simp [closesExecution, hkind]) hrecorded.executionId hopen
          refine Prog.Writes.attempt_bind (legacy_record h fun event hrecorded =>
            (hclosed event hrecorded).always) ?_
          rintro r own' (⟨⟨_, run⟩, event, rfl, rfl, hrecorded⟩ | ⟨⟨e, rfl⟩, rfl⟩)
          · have hmark : adapter.markExecutionClosed (some id) =
                { adapter with executionId := none } := by
              unfold LegacyEventAdapter.markExecutionClosed
              rw [if_pos (by simp [hopen])]
            simp only [hmark]
            exact finish_journals htype (hclosed event hrecorded)
          · exact legacy_ended h _

/-- A method beside the adapter, whose one append is about no execution. -/
lemma beside_journals {α : Type} {program : RunProg α}
    (hprogram : Journals runId (LegacyAlways drawn)
      (fun _ own' => LegacyState drawn ids adapter own') program own) :
    Journals runId (LegacyAlways drawn) (LegacyLeaves drawn) (besideAdapter adapter program)
      own := by
  refine hprogram.attempt_bind ?_
  rintro (e | a) own' hstate
  · exact legacy_ended hstate _
  · exact legacy_ended hstate _

lemma recordDecision_journals {type : RunEventType} {fields : List (String × PyValue)}
    {fresh : Fresh}
    (htype : type ≠ .executionStarted ∧ type ≠ .executionCompleted ∧ type ≠ .executionFailed)
    (h : LegacyState drawn ids adapter own) :
    Journals runId (LegacyAlways drawn) (fun _ own' => LegacyState drawn ids adapter own')
      (LegacyRunCoordinator.recordDecision runId type fields fresh) own := by
  refine Prog.Writes.bind (getRun_journals (Q := fun _ own' => own = own') h.always
    fun _ => rfl) ?_ (by rintro e _ rfl; exact h)
  rintro current _ rfl
  split
  · exact h
  · exact record_journals h.always (fun event row hrecorded =>
      ⟨(lifecycle_state htype h hrecorded).always, lifecycle_state htype h hrecorded⟩) fun _ => h

lemma finishNormal_journals {fresh : Fresh} (h : LegacyState drawn ids adapter own) :
    Journals runId (LegacyAlways drawn) (fun _ own' => LegacyState drawn ids adapter own')
      (LegacyRunCoordinator.finishNormal runId fresh) own := by
  refine Prog.Writes.bind (getRun_journals (Q := fun _ own' => own = own') h.always
    fun _ => rfl) ?_ (by rintro e _ rfl; exact h)
  rintro current _ rfl
  split
  · exact h
  · refine Prog.Writes.bind (record_journals (Q := fun _ own' => LegacyState drawn ids adapter own')
      h.always (fun event row hrecorded => ?_) fun _ => h) (fun _ _ h => h) fun _ _ h => h
    have hstate := lifecycle_state (by decide) h hrecorded
    exact ⟨hstate.always, hstate⟩

/-- Every call leaves the adapter with the execution that the trail shows open. -/
theorem legacyCall_journals (call : LegacyCall) (h : LegacyState drawn call.drawn adapter own) :
    Journals runId (LegacyAlways drawn) (LegacyLeaves drawn) (legacyCall runId adapter call)
      own := by
  cases call with
  | handleLegacyEvent event newExecutionId fresh => exact handleLegacyEvent_journals h
  | finishNormal fresh => exact beside_journals (finishNormal_journals h)
  | finishFailed message fresh => exact closeThen_journals (by decide) h
  | finishCancelled fresh => exact closeThen_journals (by decide) h
  | recordProposalApplied appliedPaths checkpointId fresh =>
      exact beside_journals (recordDecision_journals (by decide) h)
  | recordProposalRejected rejectedPaths fresh =>
      exact beside_journals (recordDecision_journals (by decide) h)

end Calls

/-- The events that begin or end an execution. -/
def executionEvents (events : List RunEvent) : List RunEvent :=
  events.filter RunCompletionGate.isExecutionLifecycle

lemma openExecutions_executionEvents (events : List RunEvent) :
    openExecutions (executionEvents events) = openExecutions events := by
  induction events using List.reverseRecOn with
  | nil => rfl
  | append_singleton events event ih =>
      rw [executionEvents, List.filter_append, openExecutions_snoc, ← ih]
      by_cases hstart : event.isType .executionStarted = true
      · have hkept : RunCompletionGate.isExecutionLifecycle event = true := by
          simp [RunCompletionGate.isExecutionLifecycle, hstart]
        rw [List.filter_singleton, hkept, cond_true, openExecutions_snoc]
        rfl
      · have hkept : RunCompletionGate.isExecutionLifecycle event = closesExecution event := by
          simp [RunCompletionGate.isExecutionLifecycle, closesExecution, hstart]
        rw [List.filter_singleton, hkept, if_neg hstart]
        cases hclose : closesExecution event with
        | true => rw [cond_true, openExecutions_snoc, if_neg hstart, if_pos hclose]; rfl
        | false => rw [cond_false, List.append_nil]; rfl

/-- A call of another writer that neither begins nor ends an execution of the run. -/
def BesideCall (runId : String) : Type :=
  { call : RunStore.StoreCall // ∀ store, store.Sound →
      executionEvents ((writerCall store call).log runId) = executionEvents (store.log runId) }

abbrev LegacyRecord : Type := CallRecord LegacyEventAdapter LegacyCall

/-- Another writer makes a call. -/
def besideCall (runId : String) (store : RunStore) (call : BesideCall runId) : RunStore :=
  writerCall store call.1

/-- The calls on a coordinator of the run, from a store that any calls have led to. -/
def legacyRun (setup : List RunStore.StoreCall) (runId : String)
    (calls : List (LegacyCall × List (Turn (BesideCall runId)))) : List LegacyRecord × RunStore :=
  objectRun (besideCall runId) (legacyCall runId) {} calls (RunStore.runCalls .initial setup)

/-- The identifiers drawn for the calls. -/
def drawnFor (records : List LegacyRecord) : List String := records.flatMap (·.input.drawn)

/-- The adapter names the execution that the trail shows as started and not closed. -/
def NamesOpen (adapter : LegacyEventAdapter) (trail : List RunEvent) : Prop :=
  openExecutions trail = adapter.executionId.toList.map some

/-- What a call on the coordinator is, after the calls of `front`. -/
structure LegacyCallKept (runId : String) (front : List LegacyRecord) (record : LegacyRecord) :
    Prop where
  before : NamesOpen record.before (journalOf runId front)
  /-- After each of its accesses at most one execution is open, and none was closed twice. -/
  during : ∀ done, done <+: record.accesses →
    let trail := journalOf runId front ++ journal (·.log runId) done
    LegacyTrail trail ∧ (openExecutions trail).length ≤ 1 ∧
      ((drawnFor (front ++ [record])).Nodup → ∀ id, timesClosed id trail ≤ 1)
  after : ∀ ended, record.ended = some ended →
    NamesOpen ended.object (journalOf runId front ++ record.own runId)

/-- What the calls on a coordinator have led to. -/
structure LegacyRunKept (runId : String) (start : RunStore) (records : List LegacyRecord)
    (last : RunStore) : Prop where
  calls : Justified (LegacyCallKept runId) records
  durable : executionEvents (last.log runId) =
    executionEvents (start.log runId) ++ executionEvents (journalOf runId records)
  /-- In a run of the coordinator's own the durable log shows what the trail shows. -/
  own : executionEvents (start.log runId) = [] →
    openExecutions (last.log runId) = openExecutions (journalOf runId records)

/-- What holds between two calls. -/
structure LegacyBetween (runId : String) (start : RunStore) (front : List LegacyRecord)
    (adapter : LegacyEventAdapter) (store : RunStore) : Prop where
  state : LegacyState (drawnFor front) [] adapter (journalOf runId front)
  sound : store.Sound
  durable : executionEvents (store.log runId) =
    executionEvents (start.log runId) ++ executionEvents (journalOf runId front)

lemma LegacyState.drawing {drawn : List String} {adapter : LegacyEventAdapter}
    {own : List RunEvent} (h : LegacyState drawn [] adapter own) (ids : List String) :
    LegacyState (drawn ++ ids) ids adapter own := by
  refine ⟨h.current, h.trail, ?_⟩
  rw [List.map_append]
  exact h.always.drawn.append (List.Sublist.refl _)

lemma drawnFor_append (front : List LegacyRecord) (record : LegacyRecord) :
    drawnFor (front ++ [record]) = drawnFor front ++ record.input.drawn := by
  rw [drawnFor, List.flatMap_append, List.flatMap_singleton]
  rfl

section Runs

variable {runId : String} {start store : RunStore} {front : List LegacyRecord}
  {adapter : LegacyEventAdapter}

lemma LegacyState.kept {call : LegacyCall} {accesses : List (Access StoreAccess RunStore)}
    {ended : Option (Ended LegacyEventAdapter)}
    (h : LegacyState (drawnFor front) [] adapter (journalOf runId front))
    (halways : ∀ done, done <+: accesses → LegacyAlways (drawnFor front ++ call.drawn)
      (journalOf runId front ++ journal (·.log runId) done))
    (hended : ∀ found, ended = some found →
      NamesOpen found.object (journalOf runId front ++ journal (·.log runId) accesses)) :
    LegacyCallKept runId front ⟨adapter, call, accesses, ended⟩ := by
  refine ⟨h.current, fun done hdone => ?_, hended⟩
  obtain ⟨htrail, hdrawn⟩ := halways done hdone
  refine ⟨htrail, htrail.one_open, fun hnodup => ?_⟩
  rw [drawnFor_append] at hnodup
  exact htrail.closed_once hnodup hdrawn

/-- One call on the coordinator. -/
theorem LegacyBetween.call (h : LegacyBetween runId start front adapter store)
    (call : LegacyCall) (turns : List (Turn (BesideCall runId))) :
    let run := (legacyCall runId adapter call).attended (besideCall runId) .initial turns store
    let record : Option (Ended LegacyEventAdapter) → LegacyRecord := fun ended =>
      ⟨adapter, call, run.accesses, ended⟩
    (∀ ended, run.result = some (.ok ended) → LegacyCallKept runId front (record (some ended)) ∧
        LegacyBetween runId start (front ++ [record (some ended)]) ended.object run.last) ∧
      LegacyCallKept runId front (record none) ∧ executionEvents (run.last.log runId) =
        executionEvents (start.log runId) ++
          executionEvents (journalOf runId (front ++ [record none])) := by
  intro run record
  have hcall := h.state.drawing call.drawn
  have hjournals := @legacyCall_journals runId _ adapter _ call hcall
  have hmoves : ∀ (store : RunStore) other, store.Sound → (besideCall runId store other).Sound :=
    fun store other => writerCall_sound store other.1
  have hrun : run.Journaled _ _ _ _ _ := hjournals.run hmoves hcall.always h.sound turns
  have hlog : executionEvents (run.last.log runId) = executionEvents (start.log runId) ++
      executionEvents (journalOf runId front ++ journal (·.log runId) run.accesses) := by
    have hothers : ∀ store (other : BesideCall runId), store.Sound →
        ((besideCall runId store other).log runId).filter RunCompletionGate.isExecutionLifecycle =
          (store.log runId).filter RunCompletionGate.isExecutionLifecycle :=
      fun store other => other.2 store
    have hadded := Prog.Writes.run_filter hmoves hothers hjournals h.sound
      turns
    unfold executionEvents
    rw [List.filter_append, ← List.append_assoc]
    exact hadded.trans (congrArg (· ++ _) h.durable)
  clear_value run
  refine ⟨fun ended hended => ?_, h.state.kept hrun.always (fun _ h => by cases h), ?_⟩
  · obtain ⟨_, ⟨⟩, hstate⟩ := hrun.post _ hended
    refine ⟨h.state.kept hrun.always ?_, ⟨?_, hrun.inv, ?_⟩⟩
    · rintro _ ⟨⟩
      exact hstate.current
    · rw [drawnFor_append, journalOf_append]
      exact hstate
    · rw [journalOf_append]
      exact hlog
  · rw [journalOf_append]
    exact hlog

end Runs

/-- Over any legacy events, finish calls and decisions, with any store access failing and other
writers at work, the adapter names the execution that is open in the durable log. -/
theorem legacy_executions (setup : List RunStore.StoreCall) (runId : String)
    (calls : List (LegacyCall × List (Turn (BesideCall runId)))) :
    LegacyRunKept runId (RunStore.runCalls .initial setup) (legacyRun setup runId calls).1
      (legacyRun setup runId calls).2 := by
  have hstart : LegacyBetween runId (RunStore.runCalls .initial setup) [] {}
      (RunStore.runCalls .initial setup) :=
    ⟨⟨rfl, Justified.of_forall (by simp [journalOf]), by simp [journalOf, startedExecutions]⟩,
      fun id => RunStore.runCalls_consistent setup (RunStore.initial_consistent id),
      by simp [journalOf, executionEvents]⟩
  obtain ⟨hcalls, hdurable⟩ := objectRun_invariant (P := LegacyCallKept runId)
    (fun _ _ _ h => h.durable) (fun _ _ call _ turns h => h.call call turns) hstart
    (Justified.of_forall (by simp)) calls
  refine ⟨hcalls, hdurable, fun hempty => ?_⟩
  rw [← openExecutions_executionEvents, ← openExecutions_executionEvents (journalOf _ _)]
  rw [hempty, List.nil_append, List.nil_append] at hdurable
  exact congrArg openExecutions hdurable

end Imece.RunRuntime
