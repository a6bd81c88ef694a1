import Imece.Lib.Ownership
import Imece.RunRuntime.Sinks

/-!
# Trails

The trail of an attempt in a log: the starts and the terminals that carry its
identifier. Four kinds of attempts leave one: plans, reviews, verifications and
fix loops.
-/
namespace Imece.RunRuntime

open Lib

inductive TrailKind where
  | plan | review | verification | fixLoop
deriving DecidableEq, Repr

namespace TrailKind

def started : TrailKind → RunEventType
  | plan => .planStarted
  | review => .reviewStarted
  | verification => .verificationStarted
  | fixLoop => .fixLoopStarted

/-- The terminals of the kind; a plan's and a review's `interrupted` are of recovery
alone. -/
def terminals : TrailKind → List RunEventType
  | plan => [.planCompleted, .planFailed, .planInterrupted]
  | review => [.reviewCompleted, .reviewFailed, .reviewInterrupted]
  | verification => [.verificationCompleted, .verificationInterrupted]
  | fixLoop => [.fixLoopCompleted, .fixLoopExhausted, .fixLoopFailed, .fixLoopInterrupted]

def idKey : TrailKind → String
  | plan => "plan_id"
  | review => "review_id"
  | verification => "verification_id"
  | fixLoop => "fix_loop_id"

def types (kind : TrailKind) : List String := (kind.started :: kind.terminals).map (·.value)

end TrailKind

/-- The types of all trails. -/
def trailTypes : List String :=
  [TrailKind.plan, .review, .verification, .fixLoop].flatMap TrailKind.types

/-- An attempt: its kind, its run and its identifier. -/
structure TrailKey where
  kind : TrailKind
  runId : String
  id : String
deriving DecidableEq, Repr

/-- `payload.get(key)` before the payload was validated. -/
def payloadGet (payload : PyValue) (key : String) : PyValue :=
  match payload with
  | .dict entries => JsonDict.get.go key .none entries
  | _ => .none

namespace TrailKey

variable (key : TrailKey)

def isStart (event : RunEvent) : Bool := event.isType key.kind.started

def isTerminal (event : RunEvent) : Bool := key.kind.terminals.any event.isType

/-- Whether an event of this type and payload is of the attempt. -/
def marks (type : String) (payload : PyValue) : Bool :=
  key.kind.types.contains type && (payloadGet payload key.kind.idKey).eqStr key.id

end TrailKey

/-- The trail of an attempt. -/
def RunStore.trail (store : RunStore) (key : TrailKey) : List RunEvent :=
  (store.log key.runId).filter fun event => key.marks event.type (.dict event.payload.entries)

/-- The starts in a log that carry the identifier. -/
def RunStore.starts (store : RunStore) (key : TrailKey) : List RunEvent :=
  (store.log key.runId).filter fun event =>
    key.isStart event && (event.payload.get key.kind.idKey).eqStr key.id

/-- At most one start and at most one terminal, and no terminal before a start. -/
structure OneAttempt (key : TrailKey) (trail : List RunEvent) : Prop where
  starts : (trail.filter key.isStart).length ≤ 1
  terminals : (trail.filter key.isTerminal).length ≤ 1
  ordered : ∀ front event back, trail = front ++ event :: back → key.isTerminal event = true →
    ∃ start ∈ front, key.isStart start = true

/-- The three forms a trail has: nothing, a start, a start and a terminal. -/
inductive TrailForm (key : TrailKey) : List RunEvent → Prop
  | fresh : TrailForm key []
  | open_ {start : RunEvent} (hstart : key.isStart start = true) : TrailForm key [start]
  | closed {start terminal : RunEvent} (hstart : key.isStart start = true)
      (hterminal : key.isTerminal terminal = true) : TrailForm key [start, terminal]

lemma RunEventType.value_injective : Function.Injective RunEventType.value := by
  intro type other h
  have hread := congrArg RunEventType.ofString? h
  rwa [ofString?_value, ofString?_value, Option.some_inj] at hread

section Forms

variable {key : TrailKey} {event : RunEvent}

lemma TrailKey.not_terminal_of_start (h : key.isStart event = true) :
    key.isTerminal event = false := by
  simp only [isStart, RunEvent.isType, beq_iff_eq] at h
  unfold isTerminal RunEvent.isType
  rw [h]
  cases key.kind <;> rfl

lemma TrailKey.not_start_of_terminal (h : key.isTerminal event = true) :
    key.isStart event = false := by
  cases hstart : key.isStart event with
  | false => rfl
  | true => rw [not_terminal_of_start hstart] at h; cases h

theorem TrailForm.oneAttempt {trail : List RunEvent} (h : TrailForm key trail) :
    OneAttempt key trail := by
  cases h with
  | fresh => exact ⟨by simp, by simp, fun front event back h => by simp at h⟩
  | open_ hstart =>
      have hnot := TrailKey.not_terminal_of_start hstart
      refine ⟨by simp [hstart], by simp [hnot], fun front event back h hterminal => ?_⟩
      cases front with
      | nil =>
          rw [List.nil_append, List.cons.injEq] at h
          rw [← h.1, hnot] at hterminal
          cases hterminal
      | cons first front => simp at h
  | @closed start terminal hstart hterminal =>
      have hnot := TrailKey.not_terminal_of_start hstart
      have hnot' := TrailKey.not_start_of_terminal hterminal
      refine ⟨by simp [hstart, hnot'], by simp [hnot, hterminal],
        fun front event back h hevent => ?_⟩
      cases front with
      | nil =>
          rw [List.nil_append, List.cons.injEq] at h
          rw [← h.1, hnot] at hevent
          cases hevent
      | cons first front =>
          rw [List.cons_append, List.cons.injEq] at h
          exact ⟨start, by rw [h.1]; exact List.mem_cons_self, hstart⟩

/-- A trail without a start is empty. -/
lemma TrailForm.eq_nil {trail : List RunEvent} (h : TrailForm key trail)
    (hnone : ∀ event ∈ trail, key.isStart event = false) : trail = [] := by
  cases h with
  | fresh => rfl
  | open_ hstart => rw [hnone _ List.mem_cons_self] at hstart; cases hstart
  | closed hstart _ => rw [hnone _ List.mem_cons_self] at hstart; cases hstart

lemma TrailKey.marks_starts {store : RunStore} (h : store.starts key = []) :
    ∀ event ∈ store.trail key, key.isStart event = false := by
  intro event hevent
  rw [RunStore.trail, List.mem_filter, TrailKey.marks, Bool.and_eq_true] at hevent
  rw [RunStore.starts, List.filter_eq_nil_iff] at h
  by_contra hstart
  rw [Bool.not_eq_false] at hstart
  exact h event hevent.1 (by rw [hstart, Bool.true_and]; exact hevent.2.2)

end Forms

section Appends

/-- The event was built from these arguments. -/
structure BuiltFrom (args : EventArgs) (event : RunEvent) : Prop where
  type : event.type = args.type
  payload : args.payload = .dict event.payload.entries

lemma builtFrom_of_build {runId : String} {seq : ℕ} {args : EventArgs} {fresh : Fresh}
    {event : RunEvent} (h : buildEvent runId seq args fresh = .ok event) :
    BuiltFrom args event :=
  ⟨(buildEvent_ok h).2.2.1, validateEventPayload_entries (buildEvent_ok h).2.2.2⟩

/-- What a successful append leaves: events built from the arguments, at the end of
one log. -/
structure AppendedArgs (store next : RunStore) (runId : String) (specs : List EventArgs) :
    Prop where
  grows : RunStore.Grows store next
  log : ∃ events, next.log runId = store.log runId ++ events ∧
    List.Forall₂ BuiltFrom specs events
  otherLog : ∀ other, other ≠ runId → next.log other = store.log other

namespace RunStore

/-- What holds of every event as it is built holds of the events of a batch. -/
theorem writeEvents_each {R : EventArgs → RunEvent → Prop} {store next : RunStore}
    {runId : String}
    (hbuild : ∀ seq args fresh event, buildEvent runId seq args fresh = .ok event → R args event)
    {specs : List (RunEventSpec × Fresh)} {current last : RunRecord} {events : List RunEvent}
    (hrow : store.findRun runId = some current)
    (h : writeEvents runId current specs store = .ok (events, last) next) :
    List.Forall₂ R (specs.map (·.1.args)) events := by
  induction specs generalizing store current events with
  | nil =>
      simp only [writeEvents, pure_eq_ok, Prod.mk.injEq] at h
      obtain ⟨⟨rfl, -⟩, -⟩ := h
      exact .nil
  | cons spec rest ih =>
      obtain ⟨spec, fresh⟩ := spec
      simp only [writeEvents, bind_eq_ok, pure_eq_ok, Prod.exists, Prod.mk.injEq] at h
      obtain ⟨event, updated, middle, hwrite, more, row, final, hrest, ⟨rfl, rfl⟩, rfl⟩ := h
      have hwrote := writeEvent_ok hrow hwrite
      exact .cons (hbuild _ _ _ _ hwrote.built) (ih hwrote.appended.row hrest)

theorem writeEvents_built {store next : RunStore} {runId : String}
    {specs : List (RunEventSpec × Fresh)} {current last : RunRecord} {events : List RunEvent}
    (hrow : store.findRun runId = some current)
    (h : writeEvents runId current specs store = .ok (events, last) next) :
    List.Forall₂ BuiltFrom (specs.map (·.1.args)) events :=
  writeEvents_each (fun _ _ _ _ => builtFrom_of_build) hrow h

theorem appendEvent_args {store next : RunStore} {runId : String} {args : EventArgs}
    {expected : Option ℕ} {fresh : Fresh} {event : RunEvent} {updated : RunRecord}
    (hstore : store.Consistent runId)
    (h : appendEvent runId args (expectedSeq expected) fresh store = .ok (event, updated) next) :
    AppendedArgs store next runId [args] ∧ event.seq = (next.log runId).length := by
  obtain ⟨hseq, hextends, hfind⟩ := appendEvent_extends hstore h
  obtain ⟨current, required, hcurrent, -, -, hwrite⟩ := appendEvent_ok h
  have hwrote := writeEvent_ok hcurrent hwrite
  refine ⟨⟨hextends.grows, ⟨[event], hwrote.appended.log,
    .cons (builtFrom_of_build hwrote.built) .nil⟩, hwrote.appended.otherLog⟩, ?_⟩
  rw [(buildEvent_ok hwrote.built).2.1, (hstore.history current hcurrent).lastEventSeq,
    hwrote.appended.log, List.length_append, List.length_singleton]

theorem appendEvents_args {store next : RunStore} {runId : String}
    {specs : List (RunEventSpec × Fresh)} {expected : Option ℕ} {events : List RunEvent}
    {updated : RunRecord} (hstore : store.Consistent runId)
    (h : appendEvents runId specs (expectedSeq expected) store = .ok (events, updated) next) :
    AppendedArgs store next runId (specs.map (·.1.args)) := by
  obtain ⟨-, hextends, hlog, -⟩ := appendEvents_extends hstore h
  obtain ⟨current, required, -, hcurrent, -, -, hwrite⟩ := appendEvents_ok h
  exact ⟨hextends.grows, ⟨events, hlog, writeEvents_built hcurrent hwrite⟩,
    hextends.otherLog⟩

end RunStore

lemma mapM_ofArgs_args {specs : List EventArgs} {built : List RunEventSpec}
    (h : specs.mapM RunEventSpec.ofArgs = .ok built) : built.map (·.args) = specs := by
  have hall := mapM_eq_ok.mp h
  induction hall with
  | nil => rfl
  | cons hfirst hrest ih =>
      rw [List.map_cons, RunEventSpec.ofArgs_args hfirst, ih (mapM_eq_ok.mpr hrest)]

variable {store next : RunStore} {runId : String} {specs : List EventArgs}

/-- An append adds to a trail the events that are of its attempt. -/
lemma AppendedArgs.trail (h : AppendedArgs store next runId specs) (key : TrailKey) :
    ∃ events, next.trail key = store.trail key ++ events ∧
      events.map (·.type) = (if key.runId = runId then
        specs.filter fun args => key.marks args.type args.payload else []).map (·.type) := by
  unfold RunStore.trail
  by_cases hrun : key.runId = runId
  · obtain ⟨events, hlog, hbuilt⟩ := h.log
    subst hrun
    rw [hlog, List.filter_append, if_pos rfl]
    refine ⟨_, rfl, ?_⟩
    clear hlog h
    induction hbuilt with
    | nil => rfl
    | @cons args event rest events hfirst hrest ih =>
        rw [List.filter_cons, List.filter_cons, hfirst.type, ← hfirst.payload]
        split
        · rw [List.map_cons, List.map_cons, hfirst.type, ih]
        · exact ih
  · rw [h.otherLog _ hrun, if_neg hrun]
    exact ⟨[], by simp, rfl⟩

/-- What is not of the attempt leaves its trail alone. -/
lemma AppendedArgs.trail_same (h : AppendedArgs store next runId specs) (key : TrailKey)
    (hother : key.runId = runId → ∀ args ∈ specs, key.marks args.type args.payload = false) :
    next.trail key = store.trail key := by
  obtain ⟨events, htrail, htypes⟩ := h.trail key
  have hnone : events = [] := by
    rw [← List.map_eq_nil_iff (f := (·.type)), htypes, List.map_eq_nil_iff]
    split
    · rename_i hrun
      rw [List.filter_eq_nil_iff]
      intro args hargs
      simp [hother hrun args hargs]
    · rfl
  rw [htrail, hnone, List.append_nil]

/-- One event of the attempt extends its trail by one event of that type. -/
lemma AppendedArgs.trail_snoc {args : EventArgs} {key : TrailKey}
    (h : AppendedArgs store next key.runId [args])
    (hmarks : key.marks args.type args.payload = true) :
    ∃ event, event.type = args.type ∧ next.trail key = store.trail key ++ [event] := by
  obtain ⟨events, htrail, htypes⟩ := h.trail key
  simp only [if_true, List.filter_cons, hmarks, List.filter_nil, List.map_singleton] at htypes
  obtain ⟨event, rfl, htype⟩ := List.map_eq_singleton_iff.mp htypes
  exact ⟨event, htype, htrail⟩

lemma TrailKind.types_disjoint {kind other : TrailKind} :
    ∀ type ∈ kind.started :: kind.terminals, type ∈ other.started :: other.terminals →
      kind = other := by
  cases kind <;> cases other <;> decide

/-- A mark is of one attempt only. -/
lemma TrailKey.marks_unique {key other : TrailKey} {type : String} {payload : PyValue}
    (hrun : key.runId = other.runId) (h : key.marks type payload = true)
    (hother : other.marks type payload = true) : other = key := by
  rw [marks, Bool.and_eq_true, PyValue.eqStr_iff] at h hother
  have hkind : other.kind = key.kind := by
    obtain ⟨t, hmem, ht⟩ := List.mem_map.mp (List.contains_iff_mem.mp h.1)
    obtain ⟨t', hmem', ht'⟩ := List.mem_map.mp (List.contains_iff_mem.mp hother.1)
    rw [RunEventType.value_injective (ht'.trans ht.symm)] at hmem'
    exact TrailKind.types_disjoint t hmem' hmem
  have hid : other.id = key.id := by
    have hsame := h.2
    rw [← hkind, hother.2] at hsame
    simpa using hsame
  cases key
  cases other
  simp_all

end Appends

end Imece.RunRuntime
