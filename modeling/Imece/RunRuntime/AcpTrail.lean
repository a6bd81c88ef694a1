import Imece.RunRuntime.Acp
import Imece.RunRuntime.Journals

/-!
# The trail of one ACP sink

What the sink appends over any calls of the protocol client, among other writers and store
failures: one execution, one session, and after a failed append no terminal.
-/
namespace Imece.RunRuntime

open Lib Lib.Machine

/-- The session an event names. -/
def sessionOf (event : RunEvent) : Option String :=
  match event.payload.get "session_id" with
  | .str id => some id
  | _ => none

def startsExecution (event : RunEvent) : Bool := event.isType .executionStarted

def endsExecution (event : RunEvent) : Bool :=
  event.isType .executionCompleted || event.isType .executionFailed

/-- What the sink of an execution may append after `events`. -/
structure AcpMove (executionId : String) (events : List RunEvent) (event : RunEvent) : Prop where
  execution : event.executionId = some executionId
  /-- Nothing follows the terminal, and the start comes first. -/
  open_ : events.any endsExecution = false
  first : startsExecution event = true ↔ events = []
  /-- Only the start and the failure name no session. -/
  named : startsExecution event = true ∨ event.isType .executionFailed = true ∨
    ∃ id, sessionOf event = some id
  session : ∀ id, sessionOf event = some id →
    ∀ earlier ∈ events, ∀ other, sessionOf earlier = some other → other = id

/-- Every event of a trail has its place after the ones before it. -/
abbrev AcpTrail (executionId : String) (events : List RunEvent) : Prop :=
  Justified (AcpMove executionId) events

/-- The sink's flags say what its trail shows. -/
structure AcpFlags (runId executionId : String) (sink : CanonicalAcpEventSink)
    (events : List RunEvent) : Prop where
  run : sink.runId = runId
  execution : sink.executionId = executionId
  started : sink.started = events.any startsExecution
  empty : sink.started = false → events = []
  terminal : sink.terminal = events.any endsExecution
  bound : ∀ event ∈ events, ∀ id, sessionOf event = some id → sink.boundSessionId = some id

namespace AcpTrail

variable {executionId : String} {events : List RunEvent}

lemma starts_once (h : AcpTrail executionId events) : events.countP startsExecution ≤ 1 := by
  refine countP_le_one (h.pairwise fun before entry hmove earlier hearlier hstarts => ?_)
  by_contra hnot
  rw [Bool.not_eq_false] at hnot
  rw [hmove.first.mp hnot] at hearlier
  cases hearlier

lemma ends_once (h : AcpTrail executionId events) : events.countP endsExecution ≤ 1 := by
  refine countP_le_one (h.pairwise fun before entry hmove earlier hearlier hends => ?_)
  have hopen := List.any_eq_false.mp hmove.open_ earlier hearlier
  exact absurd hends hopen

lemma one_session (h : AcpTrail executionId events) {a b : RunEvent} (ha : a ∈ events)
    (hb : b ∈ events) {x y : String} (hx : sessionOf a = some x) (hy : sessionOf b = some y) :
    x = y := by
  let same : RunEvent → RunEvent → Prop := fun earlier entry => ∀ x y,
    sessionOf earlier = some x → sessionOf entry = some y → x = y
  have : Std.Symm same := ⟨fun _ _ hab x y hx hy => (hab y x hy hx).symm⟩
  have hpairs : events.Pairwise same :=
    h.pairwise fun before entry hmove earlier hearlier x y hx hy =>
      hmove.session y hy earlier hearlier x hx
  have hself : ∀ event ∈ events, same event event :=
    fun event _ x y hx hy => Option.some.inj (hx.symm.trans hy)
  exact hpairs.forall_of_forall hself ha hb x y hx hy

end AcpTrail

namespace CanonicalAcpEventSink

/-- The append a call makes when its checks have passed: the sink it makes it on, what it
appends, and what the sink is told afterwards. -/
inductive Step (sink : CanonicalAcpEventSink) : CanonicalAcpEventSink → RunEventType → PyValue →
    (CanonicalAcpEventSink → CanonicalAcpEventSink) → Prop
  | start {payload : PyValue} (hfresh : sink.started = false)
      (hsession : payloadGet payload "session_id" = .none) :
      Step sink sink .executionStarted payload fun sink => { sink with started := true }
  | observe {type : RunEventType} {payload : PyValue} {session : String}
      (hstarted : sink.started = true) (hopen : sink.terminal = false)
      (htype : type = .executionOutput ∨ type = .permissionRequested ∨ type = .permissionResolved)
      (hbound : ∀ bound, sink.boundSessionId = some bound → bound = session)
      (hsession : payloadGet payload "session_id" = .str session) :
      Step sink { sink with boundSessionId := some session } type payload fun sink => sink
  | complete {payload : PyValue} {session : String}
      (hstarted : sink.started = true) (hopen : sink.terminal = false)
      (hbound : ∀ bound, sink.boundSessionId = some bound → bound = session)
      (hsession : payloadGet payload "session_id" = .str session) :
      Step sink { sink with boundSessionId := some session } .executionCompleted payload
        fun sink => { sink with terminal := true }
  | fail {payload : PyValue} (hstarted : sink.started = true) (hopen : sink.terminal = false)
      (hsession : payloadGet payload "session_id" = .none) :
      Step sink sink .executionFailed payload fun sink => { sink with terminal := true }

variable {sink : CanonicalAcpEventSink}

lemma requireStartedAndOpen_ok (h : sink.requireStartedAndOpen = .ok ()) :
    sink.started = true ∧ sink.terminal = false := by
  unfold requireStartedAndOpen at h
  split at h
  · cases h
  · split at h
    · cases h
    · simp_all

lemma canonicalText_ok {value : PyValue} {field text : String} {allowEmpty : Bool}
    (h : canonicalText value field allowEmpty = .ok text) : value = .str text := by
  cases value with
  | str found =>
      simp only [canonicalText] at h
      split at h
      · cases h
      · split at h
        · cases h
        · split at h
          · cases h
          · rw [Except.ok.inj h]
  | _ => cases h

lemma bindSession_ok {value : PyValue} {bound : CanonicalAcpEventSink}
    (h : sink.bindSession value = .ok bound) :
    ∃ session, value = .str session ∧ bound = { sink with boundSessionId := some session } ∧
      ∀ other, sink.boundSessionId = some other → other = session := by
  obtain ⟨session, htext, hrest⟩ := except_bind_eq_ok.mp h
  refine ⟨session, canonicalText_ok htext, ?_⟩
  cases hsession : sink.boundSessionId with
  | none =>
      rw [hsession] at hrest
      exact ⟨(Except.ok.inj hrest).symm, nofun⟩
  | some other =>
      simp only [hsession] at hrest
      split at hrest
      · cases hrest
      · rename_i hsame
        rw [ne_eq, not_not] at hsame
        subst hsame
        refine ⟨?_, fun _ hother => (Option.some.inj hother).symm⟩
        rw [← Except.ok.inj hrest, ← hsession]

lemma observed_ok {event : AcpRuntimeEvent} {bound : CanonicalAcpEventSink}
    {type : RunEventType} {payload : PyValue}
    (h : sink.observed event = .ok (bound, type, payload)) :
    ∃ session, bound = { sink with boundSessionId := some session } ∧
      (∀ other, sink.boundSessionId = some other → other = session) ∧
      (type = .executionOutput ∨ type = .permissionRequested ∨ type = .permissionResolved) ∧
      payloadGet payload "session_id" = .str session := by
  cases event with
  | sessionUpdateObserved sessionId serialized serializedChars =>
      simp only [observed, except_bind_eq_ok] at h
      obtain ⟨_, -, _, -, bound', hbind, h⟩ := h
      obtain ⟨session, rfl, rfl, hother⟩ := bindSession_ok hbind
      cases h
      exact ⟨session, rfl, hother, Or.inl rfl, rfl⟩
  | permissionRequested sessionId toolCallId title optionIds =>
      simp only [observed, except_bind_eq_ok] at h
      obtain ⟨_, -, _, -, _, -, _, -, bound', hbind, h⟩ := h
      obtain ⟨session, hvalue, rfl, hother⟩ := bindSession_ok hbind
      cases hvalue
      cases h
      exact ⟨_, rfl, hother, Or.inr (Or.inl rfl), rfl⟩
  | permissionResolved sessionId toolCallId outcome reason =>
      simp only [observed, except_bind_eq_ok] at h
      obtain ⟨_, -, _, -, _, -, _, -, bound', hbind, h⟩ := h
      obtain ⟨session, hvalue, rfl, hother⟩ := bindSession_ok hbind
      cases hvalue
      cases h
      exact ⟨_, rfl, hother, Or.inr (Or.inr rfl), rfl⟩
  | other className => cases h

def Call.isFail : Call → Bool
  | .fail .. => true
  | _ => false

/-- A call is refused as it stands, or makes one append. The failure path makes one only without
a persistence error. -/
theorem call_cases (sink : CanonicalAcpEventSink) (input : Call) :
    (∃ e, sink.call input = raised sink e) ∨
      ∃ bound type payload fresh then_, sink.Step bound type payload then_ ∧
        sink.call input = bound.append type payload fresh then_ ∧
        (input.isFail = true → sink.persistenceError = none) := by
  cases input with
  | start task fresh =>
      simp only [call, start]
      split
      · exact Or.inl ⟨_, rfl⟩
      · rename_i hfresh
        split
        · exact Or.inl ⟨_, rfl⟩
        · exact Or.inr ⟨_, _, _, _, _, .start (by simpa using hfresh) rfl, rfl, nofun⟩
  | emit event fresh =>
      simp only [call, emit]
      split
      · exact Or.inl ⟨_, rfl⟩
      · rename_i hchecked
        obtain ⟨hstarted, hopen⟩ := requireStartedAndOpen_ok hchecked
        split
        · exact Or.inl ⟨_, rfl⟩
        · rename_i bound type payload hobserved
          obtain ⟨session, rfl, hother, htype, hsession⟩ := observed_ok hobserved
          exact Or.inr ⟨_, _, _, _, _, .observe hstarted hopen htype hother hsession, rfl, nofun⟩
  | complete result fresh =>
      simp only [call, complete]
      split
      · exact Or.inl ⟨_, rfl⟩
      · rename_i hchecked
        obtain ⟨hstarted, hopen⟩ := requireStartedAndOpen_ok hchecked
        split
        · exact Or.inl ⟨_, rfl⟩
        · rename_i bound hbind
          obtain ⟨session, hvalue, rfl, hother⟩ := bindSession_ok hbind
          refine Or.inr ⟨_, _, _, _, _, .complete hstarted hopen hother ?_, rfl, nofun⟩
          rw [hvalue]
          rfl
  | fail errorType message fresh =>
      simp only [call, fail]
      split
      · exact Or.inl ⟨_, rfl⟩
      · rename_i hchecked
        obtain ⟨hstarted, hopen⟩ := requireStartedAndOpen_ok hchecked
        split
        · exact Or.inl ⟨_, rfl⟩
        · rename_i hnone
          exact Or.inr ⟨_, _, _, _, _, .fail hstarted hopen rfl, rfl, fun _ => hnone⟩

variable {runId executionId : String} {own : List RunEvent}

lemma sessionOf_recorded {type : RunEventType} {payload : PyValue} {event : RunEvent}
    (h : RecordedAs (spec executionId type payload) event) :
    sessionOf event = match payloadGet payload "session_id" with
      | .str id => some id
      | _ => none := by
  rw [sessionOf, h.get]
  rfl

lemma running (hflags : AcpFlags runId executionId sink own) (hstarted : sink.started = true)
    (hopen : sink.terminal = false) :
    own ≠ [] ∧ own.any startsExecution = true ∧ own.any endsExecution = false := by
  have hany := hflags.started.symm.trans hstarted
  refine ⟨?_, hany, hflags.terminal.symm.trans hopen⟩
  rintro rfl
  cases hany

/-- Binding the session and remembering an error leave the flags as they are. -/
lemma Step.flags {bound : CanonicalAcpEventSink} {type : RunEventType} {payload : PyValue}
    {then_ : CanonicalAcpEventSink → CanonicalAcpEventSink}
    (hstep : sink.Step bound type payload then_) (hflags : AcpFlags runId executionId sink own)
    (error : Option RunRuntimeError) :
    AcpFlags runId executionId { bound with persistenceError := error } own := by
  have hrebound {session : String}
      (hbound : ∀ other, sink.boundSessionId = some other → other = session) :
      ∀ event ∈ own, ∀ id, sessionOf event = some id → some session = some id := by
    intro event hevent id hid
    rw [hbound id (hflags.bound event hevent id hid)]
  cases hstep with
  | start hfresh hsession =>
      exact ⟨hflags.run, hflags.execution, hflags.started, hflags.empty, hflags.terminal,
        hflags.bound⟩
  | observe hstarted hopen htype hbound hsession =>
      exact ⟨hflags.run, hflags.execution, hflags.started, hflags.empty, hflags.terminal,
        hrebound hbound⟩
  | complete hstarted hopen hbound hsession =>
      exact ⟨hflags.run, hflags.execution, hflags.started, hflags.empty, hflags.terminal,
        hrebound hbound⟩
  | fail hstarted hopen hsession =>
      exact ⟨hflags.run, hflags.execution, hflags.started, hflags.empty, hflags.terminal,
        hflags.bound⟩

/-- The sessions of a longer trail. -/
lemma bound_snoc {session : Option String} {event : RunEvent}
    (hown : ∀ earlier ∈ own, ∀ id, sessionOf earlier = some id → session = some id)
    (hevent : ∀ id, sessionOf event = some id → session = some id) :
    ∀ earlier ∈ own ++ [event], ∀ id, sessionOf earlier = some id → session = some id := by
  intro earlier hearlier
  rcases List.mem_append.mp hearlier with h | h
  · exact hown earlier h
  · rw [List.mem_singleton.mp h]
    exact hevent

/-- The event of a step has its place at the end of the trail, and the flags follow it. -/
theorem Step.moves {bound : CanonicalAcpEventSink} {type : RunEventType} {payload : PyValue}
    {then_ : CanonicalAcpEventSink → CanonicalAcpEventSink}
    (hstep : sink.Step bound type payload then_) (hflags : AcpFlags runId executionId sink own)
    {event : RunEvent} (hevent : RecordedAs (spec executionId type payload) event) (seq : ℕ) :
    AcpMove executionId own event ∧
      AcpFlags runId executionId (then_ { bound with expectedSeq := seq }) (own ++ [event]) := by
  have htype := hevent.isType rfl
  have hnamed := sessionOf_recorded hevent
  have hkept := hstep.flags hflags none
  cases hstep with
  | start hfresh hsession =>
      obtain rfl := hflags.empty hfresh
      have hnone : sessionOf event = none := by rw [hnamed, hsession]
      refine ⟨⟨hevent.executionId, rfl, ?_, ?_, ?_⟩, ⟨hkept.run, hkept.execution, ?_, ?_, ?_, ?_⟩⟩
      · simp [startsExecution, htype]
      · simp [startsExecution, htype]
      · simp
      · simp [startsExecution, htype]
      · simp
      · simpa [endsExecution, htype] using hflags.terminal
      · simp [hnone]
  | @observe type payload session hstarted hopen hkind hbound hsession =>
      obtain ⟨hnonempty, hstarts, hends⟩ := running hflags hstarted hopen
      have hsome : sessionOf event = some session := by rw [hnamed, hsession]
      have hother : type ≠ .executionStarted ∧ type ≠ .executionCompleted ∧
          type ≠ .executionFailed := by
        rcases hkind with rfl | rfl | rfl <;> decide
      refine ⟨⟨hevent.executionId, hends, ?_, Or.inr (Or.inr ⟨_, hsome⟩), ?_⟩,
        ⟨hkept.run, hkept.execution, ?_, ?_, ?_, ?_⟩⟩
      · simp [startsExecution, htype, hother, hnonempty]
      · intro id hid earlier hearlier other hother
        rw [hsome] at hid
        rw [← Option.some.inj hid]
        exact hbound other (hflags.bound earlier hearlier other hother)
      · simp [hstarted, hstarts]
      · simp [hstarted]
      · simp [hopen, hends, endsExecution, htype, hother]
      · exact bound_snoc hkept.bound fun id hid => hsome.symm.trans hid
  | @complete payload session hstarted hopen hbound hsession =>
      obtain ⟨hnonempty, hstarts, hends⟩ := running hflags hstarted hopen
      have hsome : sessionOf event = some session := by rw [hnamed, hsession]
      refine ⟨⟨hevent.executionId, hends, ?_, Or.inr (Or.inr ⟨_, hsome⟩), ?_⟩,
        ⟨hkept.run, hkept.execution, ?_, ?_, ?_, ?_⟩⟩
      · simp [startsExecution, htype, hnonempty]
      · intro id hid earlier hearlier other hother
        rw [hsome] at hid
        rw [← Option.some.inj hid]
        exact hbound other (hflags.bound earlier hearlier other hother)
      · simp [hstarted, hstarts]
      · simp [hstarted]
      · simp [endsExecution, htype]
      · exact bound_snoc hkept.bound fun id hid => hsome.symm.trans hid
  | fail hstarted hopen hsession =>
      obtain ⟨hnonempty, hstarts, hends⟩ := running hflags hstarted hopen
      have hnone : sessionOf event = none := by rw [hnamed, hsession]
      refine ⟨⟨hevent.executionId, hends, ?_, ?_, ?_⟩, ⟨hkept.run, hkept.execution, ?_, ?_, ?_, ?_⟩⟩
      · simp [startsExecution, htype, hnonempty]
      · simp [htype]
      · simp [hnone]
      · simp [hstarted, hstarts]
      · simp [hstarted]
      · simp [endsExecution, htype]
      · exact bound_snoc hflags.bound fun id hid => absurd (hnone.symm.trans hid) nofun

lemma Step.persistenceError {bound : CanonicalAcpEventSink} {type : RunEventType}
    {payload : PyValue} {then_ : CanonicalAcpEventSink → CanonicalAcpEventSink}
    (hstep : sink.Step bound type payload then_) (seq : ℕ) :
    bound.persistenceError = sink.persistenceError ∧
      (then_ { bound with expectedSeq := seq }).persistenceError = sink.persistenceError := by
  cases hstep <;> exact ⟨rfl, rfl⟩

/-- What a call that reaches the store leaves: its event, or the error it remembers. -/
def Leaves (runId executionId : String) (sink : CanonicalAcpEventSink) (own : List RunEvent)
    (r : Except RunRuntimeError (Ended CanonicalAcpEventSink)) (own' : List RunEvent) : Prop :=
  ∃ ended, r = .ok ended ∧ AcpFlags runId executionId ended.object own' ∧
    AcpTrail executionId own' ∧
      ((∃ event, own' = own ++ [event]) ∧
          ended.object.persistenceError = sink.persistenceError ∨
        own' = own ∧ ended.object.persistenceError ≠ none)

/-- A call is refused without reaching the store, or leaves what an append leaves. -/
theorem call_journals (hflags : AcpFlags runId executionId sink own)
    (htrail : AcpTrail executionId own) (input : Call) :
    (∃ sink' e, sink.call input = raised sink' e ∧ AcpFlags runId executionId sink' own ∧
        sink'.persistenceError = sink.persistenceError) ∨
      (Journals runId (AcpTrail executionId) (Leaves runId executionId sink own)
          (sink.call input) own ∧
        (input.isFail = true → sink.persistenceError = none)) := by
  rcases call_cases sink input with ⟨e, hcall⟩ |
    ⟨bound, type, payload, fresh, then_, hstep, hcall, hfail⟩
  · exact Or.inl ⟨sink, e, hcall, hflags, rfl⟩
  have hbound := hstep.flags hflags bound.persistenceError
  have hrun : bound.runId = runId := hbound.run
  have hexecution : bound.executionId = executionId := hbound.execution
  subst hrun hexecution
  rw [hcall]
  unfold append
  cases hspec : RunEventSpec.ofArgs (spec bound.executionId type payload) with
  | error e =>
      exact Or.inl ⟨bound, e, rfl, hbound, (hstep.persistenceError 0).1⟩
  | ok built =>
      refine Or.inr ⟨?_, hfail⟩
      refine Prog.Writes.attempt_bind (commitSpecs_journals (Q := fun r own' =>
        (∃ event seq, r = .ok seq ∧ own' = own ++ [event] ∧
          RecordedAs (spec bound.executionId type payload) event) ∨
          (∃ e, r = .error e) ∧ own' = own) htrail ?_ ?_) ?_
      · intro event seq hevent
        exact ⟨htrail.append (hstep.moves hflags hevent seq).1,
          Or.inl ⟨event, seq, rfl, rfl, hevent⟩⟩
      · exact fun e => Or.inr ⟨⟨e, rfl⟩, rfl⟩
      · rintro r own' (⟨event, seq, rfl, rfl, hevent⟩ | ⟨⟨e, rfl⟩, rfl⟩)
        · obtain ⟨hmove, hflags'⟩ := hstep.moves hflags hevent seq
          exact ⟨_, rfl, hflags', htrail.append hmove,
            Or.inl ⟨⟨event, rfl⟩, (hstep.persistenceError seq).2⟩⟩
        · exact ⟨_, rfl, hstep.flags hflags (some e), htrail, Or.inr ⟨rfl, nofun⟩⟩

end CanonicalAcpEventSink

/-- The call reached the store, and nothing was appended. -/
def AppendFailed (runId : String)
    (record : CallRecord CanonicalAcpEventSink CanonicalAcpEventSink.Call) : Prop :=
  record.accesses ≠ [] ∧ record.own runId = []

/-- What a call of the sink is, after the calls of `front`. -/
structure AcpCallKept (runId executionId : String)
    (front : List (CallRecord CanonicalAcpEventSink CanonicalAcpEventSink.Call))
    (record : CallRecord CanonicalAcpEventSink CanonicalAcpEventSink.Call) : Prop where
  /-- After each of its accesses: one start and one terminal at most, and one session. -/
  during : ∀ done, done <+: record.accesses →
    let trail := journalOf runId front ++ journal (·.log runId) done
    AcpTrail executionId trail ∧ trail.countP startsExecution ≤ 1 ∧
      trail.countP endsExecution ≤ 1 ∧
      ∀ a ∈ trail, ∀ b ∈ trail, ∀ x y, sessionOf a = some x → sessionOf b = some y → x = y
  before : AcpFlags runId executionId record.before (journalOf runId front)
  after : ∀ ended, record.ended = some ended →
    AcpFlags runId executionId ended.object (journalOf runId front ++ record.own runId)
  /-- After a failed append the failure path does not reach the store. -/
  failure : record.input.isFail = true → (∃ earlier ∈ front, AppendFailed runId earlier) →
    record.accesses = []

section Runs

variable {runId executionId : String} {sink : CanonicalAcpEventSink}
  {front : List (CallRecord CanonicalAcpEventSink CanonicalAcpEventSink.Call)}
  {record : CallRecord CanonicalAcpEventSink CanonicalAcpEventSink.Call}

/-- What holds of the sink between two calls. -/
structure AcpBetween (runId executionId : String)
    (front : List (CallRecord CanonicalAcpEventSink CanonicalAcpEventSink.Call))
    (sink : CanonicalAcpEventSink) : Prop where
  flags : AcpFlags runId executionId sink (journalOf runId front)
  trail : AcpTrail executionId (journalOf runId front)
  failed : (∃ earlier ∈ front, AppendFailed runId earlier) → sink.persistenceError ≠ none

lemma AcpTrail.bounded {trail : List RunEvent} (h : AcpTrail executionId trail) :
    AcpTrail executionId trail ∧ trail.countP startsExecution ≤ 1 ∧
      trail.countP endsExecution ≤ 1 ∧
      ∀ a ∈ trail, ∀ b ∈ trail, ∀ x y, sessionOf a = some x → sessionOf b = some y → x = y :=
  ⟨h, h.starts_once, h.ends_once, fun _ ha _ hb _ _ hx hy => h.one_session ha hb hx hy⟩

/-- A call that does not reach the store. -/
lemma AcpBetween.refused (h : AcpBetween runId executionId front record.before)
    (haccesses : record.accesses = [])
    (hended : ∀ ended, record.ended = some ended →
      AcpFlags runId executionId ended.object (journalOf runId front) ∧
        ended.object.persistenceError = record.before.persistenceError) :
    AcpCallKept runId executionId front record ∧ ∀ ended, record.ended = some ended →
      AcpBetween runId executionId (front ++ [record]) ended.object := by
  have hown : record.own runId = [] := by rw [CallRecord.own, haccesses, journal_nil]
  refine ⟨⟨?_, h.flags, ?_, fun _ _ => haccesses⟩, fun ended hfound => ⟨?_, ?_, ?_⟩⟩
  · intro done hdone
    rw [haccesses] at hdone
    rw [List.prefix_nil.mp hdone, journal_nil, List.append_nil]
    exact h.trail.bounded
  · intro ended hfound
    rw [hown, List.append_nil]
    exact (hended ended hfound).1
  · rw [journalOf_append, hown, List.append_nil]
    exact (hended ended hfound).1
  · rw [journalOf_append, hown, List.append_nil]
    exact h.trail
  · rintro ⟨earlier, hearlier, hfailed⟩
    rw [(hended ended hfound).2]
    rcases List.mem_append.mp hearlier with hmem | hmem
    · exact h.failed ⟨earlier, hmem, hfailed⟩
    · rw [List.mem_singleton.mp hmem] at hfailed
      exact absurd haccesses hfailed.1

/-- A call that reaches the store: the failure path does so only without an earlier failure. -/
lemma AcpBetween.reached (h : AcpBetween runId executionId front record.before)
    (htrail : ∀ done, done <+: record.accesses →
      AcpTrail executionId (journalOf runId front ++ journal (·.log runId) done))
    (hfail : record.input.isFail = true → record.before.persistenceError = none)
    (hended : ∀ ended, record.ended = some ended →
      CanonicalAcpEventSink.Leaves runId executionId record.before (journalOf runId front)
        (.ok ended) (journalOf runId front ++ record.own runId)) :
    AcpCallKept runId executionId front record ∧ ∀ ended, record.ended = some ended →
      AcpBetween runId executionId (front ++ [record]) ended.object := by
  refine ⟨⟨fun done hdone => (htrail done hdone).bounded, h.flags, ?_, ?_⟩,
    fun ended hfound => ?_⟩
  · intro ended hfound
    obtain ⟨_, ⟨⟩, hflags, -⟩ := hended ended hfound
    exact hflags
  · intro hinput hfailed
    exact absurd (hfail hinput) (h.failed hfailed)
  · obtain ⟨_, ⟨⟩, hflags, hnext, hcase⟩ := hended ended hfound
    refine ⟨journalOf_append runId front record ▸ hflags,
      journalOf_append runId front record ▸ hnext, ?_⟩
    rintro ⟨earlier, hearlier, hfailed⟩
    rcases hcase with ⟨⟨event, hevent⟩, hsame⟩ | ⟨-, herror⟩
    · rw [hsame]
      rcases List.mem_append.mp hearlier with hmem | hmem
      · exact h.failed ⟨earlier, hmem, hfailed⟩
      · rw [List.mem_singleton.mp hmem] at hfailed
        rw [hfailed.2, List.append_nil] at hevent
        simp at hevent
    · exact herror

end Runs

/-- The calls of a sink of the execution, from a store that any calls have led to. -/
def acpRecords (setup : List RunStore.StoreCall) (runId executionId : String) (expectedSeq : ℕ)
    (calls : List (CanonicalAcpEventSink.Call × List (Turn RunStore.StoreCall))) :
    List (CallRecord CanonicalAcpEventSink CanonicalAcpEventSink.Call) :=
  (objectRun writerCall CanonicalAcpEventSink.call { runId, executionId, expectedSeq } calls
    (RunStore.runCalls .initial setup)).1

/-- Over any calls of an ACP sink, among any other writers and with any accesses failing: its
trail is that of one execution in one session, and once an append has failed, the failure path
appends nothing more. -/
theorem acp_sink_recorded (setup : List RunStore.StoreCall) (runId executionId : String)
    (expectedSeq : ℕ)
    (calls : List (CanonicalAcpEventSink.Call × List (Turn RunStore.StoreCall))) :
    Justified (AcpCallKept runId executionId)
      (acpRecords setup runId executionId expectedSeq calls) := by
  have hstart : AcpBetween runId executionId [] { runId, executionId, expectedSeq } :=
    ⟨⟨rfl, rfl, rfl, fun _ => rfl, rfl, by simp [journalOf]⟩,
      Justified.of_forall (by simp [journalOf]), by simp⟩
  have hstore : (RunStore.runCalls .initial setup).Sound :=
    fun id => RunStore.runCalls_consistent setup (RunStore.initial_consistent id)
  refine (objectRun_invariant
    (I := fun front sink store => AcpBetween runId executionId front sink ∧ store.Sound)
    (J := fun _ _ => True) (fun _ _ _ _ => trivial) ?_ ⟨hstart, hstore⟩
    (Justified.of_forall (by simp)) calls).1
  rintro front sink input store turns ⟨hbetween, hstore⟩ run
  rcases CanonicalAcpEventSink.call_journals hbetween.flags hbetween.trail input with
    ⟨sink', e, hcall, hflags, herror⟩ | ⟨hjournals, hfail⟩
  · have hrun : run = ⟨[], some (.ok ⟨sink', .error e⟩), store⟩ := by
      simp only [run, hcall]
      rfl
    rw [hrun]
    have hrefused (ended : Option (Ended CanonicalAcpEventSink))
        (hended : ∀ found, ended = some found → found = ⟨sink', .error e⟩) :=
      @AcpBetween.refused runId executionId front ⟨sink, input, [], ended⟩ hbetween rfl
        fun found hfound => by
          rw [hended found hfound]
          exact ⟨hflags, herror⟩
    refine ⟨fun ended hresult => ?_, (hrefused none fun _ h => by cases h).1, trivial⟩
    have hended : ⟨sink', .error e⟩ = ended := Except.ok.inj (Option.some.inj hresult)
    obtain ⟨hkept, hnext⟩ := hrefused (some ended) fun found hfound =>
      (Option.some.inj hfound).symm.trans hended.symm
    exact ⟨hkept, hnext ended rfl, hstore⟩
  · have hrun := hjournals.run writerCall_sound hbetween.trail hstore turns
    change run.Journaled _ _ _ _ _ at hrun
    clear_value run
    have hreached (ended : Option (Ended CanonicalAcpEventSink))
        (hended : ∀ found, ended = some found → run.result = some (.ok found)) :=
      @AcpBetween.reached runId executionId front ⟨sink, input, run.accesses, ended⟩ hbetween
        hrun.always hfail fun found hfound => hrun.post _ (hended found hfound)
    refine ⟨fun ended hresult => ?_, (hreached none fun _ h => by cases h).1, trivial⟩
    obtain ⟨hkept, hnext⟩ := hreached (some ended) fun found hfound => by
      rw [← Option.some.inj hfound]
      exact hresult
    exact ⟨hkept, hnext ended rfl, hrun.inv⟩

section Sample

/-- An execution that starts and observes one update. -/
def observedCalls : List (CanonicalAcpEventSink.Call × List (Turn RunStore.StoreCall)) :=
  [(.start "task" fun _ => ⟨"e2", 0⟩, [{}]),
   (.emit (.sessionUpdateObserved (.str "s1") (.ok .none) 4) fun _ => ⟨"e3", 0⟩, [{}])]

/-- The start of an execution names no session. -/
theorem start_without_session :
    (journalOf "r" (acpRecords runningSetup "r" "x" 2 observedCalls)).map sessionOf =
      [none, some "s1"] := by
  decide +kernel

end Sample

end Imece.RunRuntime
