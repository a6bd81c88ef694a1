import Imece.RunRuntime.FixLoop
import Imece.RunRuntime.Journals

/-!
# The trail of one fix-loop recorder

What the recorder appends, event by event, and what its flags say of it. Its calls come in any
order, among other writers and store failures.
-/
namespace Imece.RunRuntime

open Lib Lib.Machine

def attemptsStarted (events : List RunEvent) : ℕ := events.countP (·.isType .fixAttemptStarted)

def attemptsCompleted (events : List RunEvent) : ℕ :=
  events.countP (·.isType .fixAttemptCompleted)

def settlesAttempt (event : RunEvent) : Bool :=
  event.isType .fixAttemptCompleted || event.isType .fixAttemptInterrupted

def attemptsSettled (events : List RunEvent) : ℕ := events.countP settlesAttempt

def endsLoop (event : RunEvent) : Bool :=
  event.isType .fixLoopCompleted || event.isType .fixLoopExhausted ||
    event.isType .fixLoopFailed || event.isType .fixLoopInterrupted

/-- What the recorder may append after `events`. -/
structure LoopMove (events : List RunEvent) (event : RunEvent) : Prop where
  /-- Nothing follows the terminal, and the start of the loop is first. -/
  open_ : events.any endsLoop = false
  first : event.isType .fixLoopStarted = true ↔ events = []
  /-- An attempt starts when none is active; its index counts the completed attempts. -/
  attempt : event.isType .fixAttemptStarted = true →
    attemptsStarted events = attemptsSettled events ∧
      event.payload.get "attempt_index" = .int (attemptsCompleted events + 1)
  /-- Only an active attempt is settled. -/
  settles : settlesAttempt event = true → attemptsStarted events = attemptsSettled events + 1
  /-- The loop ends when no attempt is active. -/
  ends : endsLoop event = true → attemptsStarted events = attemptsSettled events

/-- Every event of a trail has its place after the ones before it. -/
abbrev LoopTrail (events : List RunEvent) : Prop := Justified LoopMove events

/-- The recorder's flags say what its trail shows. -/
structure LoopFlags (runId : String) (recorder : CanonicalFixLoopRecorder)
    (events : List RunEvent) : Prop where
  run : recorder.runId = runId
  started : recorder.startedPersisted = events.any (·.isType .fixLoopStarted)
  empty : recorder.startedPersisted = false → events = []
  terminal : recorder.terminalRecorded = events.any endsLoop
  active : attemptsStarted events = attemptsSettled events + recorder.active.toList.length
  index : ∀ attempt, recorder.active = some attempt →
    attempt.index = recorder.lastCompletedAttemptIndex + 1
  completed : recorder.lastCompletedAttemptIndex = attemptsCompleted events

/-- A call that raises leaves the recorder and its trail as they were. -/
def RefusedClean (recorder : CanonicalFixLoopRecorder)
    (_ : CanonicalFixLoopRecorder.Call × Fresh) (ended : Ended CanonicalFixLoopRecorder)
    (own own' : List RunEvent) : Prop :=
  (∃ e, ended.outcome = .error e) → ended.object = recorder ∧ own' = own

section Calls

variable {runId : String} {recorder : CanonicalFixLoopRecorder} {own : List RunEvent}
  {input : CanonicalFixLoopRecorder.Call × Fresh} {type : RunEventType}
  {fields : List (String × PyValue)} {fresh : Fresh}

/-- What a call of the recorder leaves. -/
abbrev LoopLeaves (runId : String) (recorder : CanonicalFixLoopRecorder)
    (input : CanonicalFixLoopRecorder.Call × Fresh) (own : List RunEvent)
    (r : Except RunRuntimeError (Ended CanonicalFixLoopRecorder)) (own' : List RunEvent) : Prop :=
  ∃ ended, r = .ok ended ∧ LoopFlags runId ended.object own' ∧ LoopTrail own' ∧
    RefusedClean recorder input ended own own'

/-- An event of a type, with the payload it was recorded with. -/
structure LoopEvent (type : RunEventType) (fields : List (String × PyValue))
    (event : RunEvent) : Prop where
  isType : ∀ other, event.isType other = decide (type = other)
  get : ∀ key, event.payload.get key = payloadGet (payloadOf fields) key

lemma raised_leaves (hflags : LoopFlags runId recorder own) (htrail : LoopTrail own)
    (e : RunRuntimeError) :
    Journals runId LoopTrail (LoopLeaves runId recorder input own) (raised recorder e) own :=
  ⟨_, rfl, hflags, htrail, fun _ => ⟨rfl, rfl⟩⟩

/-- A checked append: what its event is to the trail when the checks have passed. -/
lemma step_journals {checks : Except RunRuntimeError Unit}
    {then_ : CanonicalFixLoopRecorder → CanonicalFixLoopRecorder}
    (hflags : LoopFlags runId recorder own) (htrail : LoopTrail own)
    (hmove : checks = .ok () → ∀ event, LoopEvent type fields event →
      LoopMove own event ∧ LoopFlags runId (then_ recorder) (own ++ [event])) :
    Journals runId LoopTrail (LoopLeaves runId recorder input own)
      (recorder.step checks type fields fresh then_) own := by
  unfold CanonicalFixLoopRecorder.step
  cases checks with
  | error e => exact raised_leaves hflags htrail e
  | ok =>
      have hcommit : Journals runId LoopTrail
          (fun r own' => (r = .ok () ∧ ∃ event, own' = own ++ [event] ∧
            LoopEvent type fields event) ∨ (∃ e, r = .error e) ∧ own' = own)
          (CanonicalFixLoopRecorder.commit runId recorder.fixLoopId type fields fresh) own := by
        refine Prog.Writes.bind (runningSeq_journals (Q := fun _ own' => own = own') htrail
          fun _ => rfl) ?_ ?_
        · rintro seq _ rfl
          refine Prog.Writes.bind (record_journals (Q := fun r own' =>
            ((∃ made, r = .ok made) ∧ ∃ event, own' = own ++ [event] ∧
              LoopEvent type fields event) ∨ (∃ e, r = .error e) ∧ own' = own) htrail ?_ ?_) ?_ ?_
          · intro event row hrecorded
            have hevent : LoopEvent type fields event := ⟨hrecorded.isType rfl, hrecorded.get⟩
            exact ⟨htrail.append (hmove rfl event hevent).1,
              Or.inl ⟨⟨_, rfl⟩, event, rfl, hevent⟩⟩
          · exact fun e => Or.inr ⟨⟨e, rfl⟩, rfl⟩
          · rintro made own' (⟨-, h⟩ | ⟨⟨e, h⟩, -⟩)
            · exact Or.inl ⟨rfl, h⟩
            · cases h
          · rintro e own' (⟨⟨_, h⟩, -⟩ | ⟨-, h⟩)
            · cases h
            · exact Or.inr ⟨⟨e, rfl⟩, h⟩
        · rintro e _ rfl
          exact Or.inr ⟨⟨e, rfl⟩, rfl⟩
      rw [hflags.run]
      refine hcommit.attempt_bind ?_
      rintro r own' (⟨rfl, event, rfl, hevent⟩ | ⟨⟨e, rfl⟩, rfl⟩)
      · obtain ⟨hmoves, hflags'⟩ := hmove rfl event hevent
        exact ⟨_, rfl, hflags', htrail.append hmoves, fun ⟨_, h⟩ => by cases h⟩
      · exact raised_leaves hflags htrail e

lemma requireStarted_ok (h : recorder.requireStarted = .ok ()) :
    recorder.startedPersisted = true := by
  by_contra hnot
  rw [CanonicalFixLoopRecorder.requireStarted, if_pos (by simpa using hnot)] at h
  cases h

lemma requireNotTerminal_ok (h : recorder.requireNotTerminal = .ok ()) :
    recorder.terminalRecorded = false := by
  by_contra hnot
  rw [CanonicalFixLoopRecorder.requireNotTerminal, if_pos (by simpa using hnot)] at h
  cases h

/-- Started and not over: the trail is not empty, and open. -/
lemma LoopFlags.running (h : LoopFlags runId recorder own)
    (hstarted : recorder.requireStarted = .ok ()) (hopen : recorder.requireNotTerminal = .ok ()) :
    own ≠ [] ∧ own.any endsLoop = false ∧ own.any (·.isType .fixLoopStarted) = true := by
  have hstarted := h.started.symm.trans (requireStarted_ok hstarted)
  refine ⟨?_, h.terminal.symm.trans (requireNotTerminal_ok hopen), hstarted⟩
  rintro rfl
  cases hstarted

@[simp] lemma attemptsStarted_snoc (events : List RunEvent) (event : RunEvent) :
    attemptsStarted (events ++ [event]) =
      attemptsStarted events + if event.isType .fixAttemptStarted then 1 else 0 := by
  simp [attemptsStarted, List.countP_append, List.countP_singleton]

@[simp] lemma attemptsCompleted_snoc (events : List RunEvent) (event : RunEvent) :
    attemptsCompleted (events ++ [event]) =
      attemptsCompleted events + if event.isType .fixAttemptCompleted then 1 else 0 := by
  simp [attemptsCompleted, List.countP_append, List.countP_singleton]

@[simp] lemma attemptsSettled_snoc (events : List RunEvent) (event : RunEvent) :
    attemptsSettled (events ++ [event]) =
      attemptsSettled events + if settlesAttempt event then 1 else 0 := by
  simp [attemptsSettled, List.countP_append, List.countP_singleton]

lemma start_journals (pages : ℕ) (hflags : LoopFlags runId recorder own)
    (htrail : LoopTrail own) :
    Journals runId LoopTrail (LoopLeaves runId recorder input own)
      (recorder.start pages fresh) own := by
  unfold CanonicalFixLoopRecorder.start
  split
  · exact raised_leaves hflags htrail _
  · rename_i hfresh
    rw [Bool.not_eq_true] at hfresh
    obtain rfl := hflags.empty hfresh
    refine Prog.Writes.attempt_bind (Prog.ReadOnly.writes
      (Q := fun _ own' => own' = []) (rejectReused_readOnly _ _ _ pages 0) htrail fun _ => rfl) ?_
    rintro (e | ⟨⟩) _ rfl
    · exact raised_leaves hflags htrail e
    · refine step_journals hflags htrail fun _ event hevent => ?_
      have hterminal := hflags.terminal
      have hactive := hflags.active
      have hcompleted := hflags.completed
      have hnone : recorder.active = none := by
        cases hattempt : recorder.active with
        | none => rfl
        | some attempt => simp [hattempt, attemptsStarted, attemptsSettled] at hactive
      constructor
      · constructor <;> simp [hevent.isType, settlesAttempt, endsLoop]
      · constructor <;> simp_all [hevent.isType, settlesAttempt, endsLoop, attemptsStarted,
          attemptsSettled, attemptsCompleted, hflags.run]

lemma attemptStarted_journals (fixAttemptId : String) (attemptIndex : ℤ)
    (triggerKind workerExecutionId beforeDiffSha256 : String)
    (hflags : LoopFlags runId recorder own) (htrail : LoopTrail own) :
    Journals runId LoopTrail (LoopLeaves runId recorder input own)
      (recorder.attemptStarted fixAttemptId attemptIndex triggerKind workerExecutionId
        beforeDiffSha256 fresh) own := by
  refine step_journals hflags htrail fun hchecks event hevent => ?_
  obtain ⟨_, hstarted, hrest⟩ := except_bind_eq_ok.mp hchecks
  obtain ⟨_, hopen, hattempt⟩ := except_bind_eq_ok.mp hrest
  obtain ⟨hnonempty, hopen, hstarted⟩ := hflags.running hstarted hopen
  split at hattempt
  · cases hattempt
  · rename_i hnone
    split at hattempt
    · cases hattempt
    · rename_i hindex
      rw [ne_eq, not_not] at hindex
      have hnone : recorder.active = none := by simpa using hnone
      have hactive := hflags.active
      rw [hnone] at hactive
      have hget : event.payload.get "attempt_index" = .int attemptIndex := by
        rw [hevent.get]
        rfl
      refine ⟨⟨hopen, ?_, ?_, ?_, ?_⟩, ⟨hflags.run, ?_, ?_, ?_, ?_, ?_, ?_⟩⟩
      · simp [hevent.isType, hnonempty]
      · intro _
        refine ⟨hactive, ?_⟩
        rw [hget, hindex, hflags.completed]
      · simp [hevent.isType, settlesAttempt]
      · simp [hevent.isType, endsLoop]
      · simp [hflags.started, hevent.isType]
      · intro h
        exact absurd (hflags.empty h) hnonempty
      · simp [hflags.terminal, hevent.isType, endsLoop]
      · simp [hevent.isType, settlesAttempt, hactive]
      · rintro attempt ⟨⟩
        exact hindex
      · simp [hflags.completed, hevent.isType]

lemma attemptCompleted_journals (fixAttemptId : String) (attemptIndex : ℤ)
    (workerExecutionId beforeDiffSha256 afterDiffSha256 : String) (changed : Bool)
    (hflags : LoopFlags runId recorder own) (htrail : LoopTrail own) :
    Journals runId LoopTrail (LoopLeaves runId recorder input own)
      (recorder.attemptCompleted fixAttemptId attemptIndex workerExecutionId beforeDiffSha256
        afterDiffSha256 changed fresh) own := by
  refine step_journals hflags htrail fun hchecks event hevent => ?_
  obtain ⟨_, hstarted, hrest⟩ := except_bind_eq_ok.mp hchecks
  obtain ⟨_, hopen, hattempt⟩ := except_bind_eq_ok.mp hrest
  obtain ⟨hnonempty, hopen, hstarted⟩ := hflags.running hstarted hopen
  split at hattempt
  · cases hattempt
  · rename_i hmatches
    rw [not_or, not_not, Option.map_eq_some_iff] at hmatches
    obtain ⟨⟨attempt, hattempt, hindex⟩, -⟩ := hmatches
    have hactive := hflags.active
    rw [hattempt] at hactive
    have hnext := hflags.index attempt hattempt
    refine ⟨⟨hopen, ?_, ?_, ?_, ?_⟩, ⟨hflags.run, ?_, ?_, ?_, ?_, ?_, ?_⟩⟩
    · simp [hevent.isType, hnonempty]
    · simp [hevent.isType]
    · intro _
      exact hactive
    · simp [hevent.isType, endsLoop]
    · simp [hflags.started, hevent.isType]
    · intro h
      exact absurd (hflags.empty h) hnonempty
    · simp [hflags.terminal, hevent.isType, endsLoop]
    · simpa [hevent.isType, settlesAttempt] using hactive
    · simp
    · simp only [attemptsCompleted_snoc, hevent.isType]
      rw [← hindex, hnext, hflags.completed]
      simp

lemma attemptInterrupted_journals (reason : String) (outcomeUnknown : Bool)
    (extra : List (String × PyValue)) (hflags : LoopFlags runId recorder own)
    (htrail : LoopTrail own) :
    Journals runId LoopTrail (LoopLeaves runId recorder input own)
      (recorder.attemptInterrupted reason outcomeUnknown extra fresh) own := by
  refine step_journals hflags htrail fun hchecks event hevent => ?_
  obtain ⟨_, hstarted, hrest⟩ := except_bind_eq_ok.mp hchecks
  obtain ⟨_, hopen, hattempt⟩ := except_bind_eq_ok.mp hrest
  obtain ⟨hnonempty, hopen, hstarted⟩ := hflags.running hstarted hopen
  split at hattempt
  · cases hattempt
  · rename_i hsome
    have hactive := hflags.active
    cases hattempt : recorder.active with
    | none => simp [hattempt] at hsome
    | some attempt =>
        rw [hattempt] at hactive
        refine ⟨⟨hopen, ?_, ?_, ?_, ?_⟩, ⟨hflags.run, ?_, ?_, ?_, ?_, ?_, ?_⟩⟩
        · simp [hevent.isType, hnonempty]
        · simp [hevent.isType]
        · intro _
          exact hactive
        · simp [hevent.isType, endsLoop]
        · simp [hflags.started, hevent.isType]
        · intro h
          exact absurd (hflags.empty h) hnonempty
        · simp [hflags.terminal, hevent.isType, endsLoop]
        · simpa [hevent.isType, settlesAttempt] using hactive
        · simp
        · simp [hflags.completed, hevent.isType]

/-- The four terminals differ in their type and payload only. -/
lemma appendTerminal_journals
    (htype : type = .fixLoopCompleted ∨ type = .fixLoopExhausted ∨ type = .fixLoopFailed ∨
      type = .fixLoopInterrupted)
    (hflags : LoopFlags runId recorder own) (htrail : LoopTrail own) :
    Journals runId LoopTrail (LoopLeaves runId recorder input own)
      (recorder.appendTerminal type fields fresh) own := by
  refine step_journals hflags htrail fun hchecks event hevent => ?_
  obtain ⟨_, hstarted, hrest⟩ := except_bind_eq_ok.mp hchecks
  obtain ⟨_, hopen, hattempt⟩ := except_bind_eq_ok.mp hrest
  obtain ⟨hnonempty, hopen, hstarted⟩ := hflags.running hstarted hopen
  split at hattempt
  · cases hattempt
  · rename_i hnone
    have hnone : recorder.active = none := by simpa using hnone
    have hactive := hflags.active
    rw [hnone] at hactive
    have hother : type ≠ .fixLoopStarted ∧ type ≠ .fixAttemptStarted ∧
        type ≠ .fixAttemptCompleted ∧ type ≠ .fixAttemptInterrupted := by
      rcases htype with rfl | rfl | rfl | rfl <;> decide
    have hends : endsLoop event = true := by
      simp only [endsLoop, hevent.isType, Bool.or_eq_true, decide_eq_true_eq]
      tauto
    refine ⟨⟨hopen, ?_, ?_, ?_, ?_⟩, ⟨hflags.run, ?_, ?_, ?_, ?_, hflags.index, ?_⟩⟩
    · simp [hevent.isType, hnonempty, hother]
    · simp [hevent.isType, hother]
    · simp [hevent.isType, settlesAttempt, hother]
    · intro _
      exact hactive
    · simp [hflags.started, hevent.isType, hother]
    · intro h
      exact absurd (hflags.empty h) hnonempty
    · simp [hends]
    · simpa [hevent.isType, settlesAttempt, hother, hnone] using hactive
    · simp [hflags.completed, hevent.isType, hother]

theorem fixLoopCall_journals :
    MethodJournals runId LoopTrail (LoopFlags runId) RefusedClean
      CanonicalFixLoopRecorder.call := by
  rintro recorder ⟨call, fresh⟩ own hflags htrail
  cases call with
  | start pages => exact start_journals pages hflags htrail
  | attemptStarted fixAttemptId attemptIndex triggerKind workerExecutionId beforeDiffSha256 =>
      exact attemptStarted_journals _ _ _ _ _ hflags htrail
  | attemptCompleted fixAttemptId attemptIndex workerExecutionId beforeDiffSha256
      afterDiffSha256 changed =>
      exact attemptCompleted_journals _ _ _ _ _ _ hflags htrail
  | attemptInterrupted reason outcomeUnknown extra =>
      exact attemptInterrupted_journals _ _ _ hflags htrail
  | completed attemptsUsed finalExecutionId verificationId reviewId diffSha256 =>
      exact appendTerminal_journals (by simp) hflags htrail
  | exhausted reason attemptsUsed maxFixAttempts extra =>
      exact appendTerminal_journals (by simp) hflags htrail
  | failed reason extra => exact appendTerminal_journals (by simp) hflags htrail
  | interrupted reason extra => exact appendTerminal_journals (by simp) hflags htrail

/-- At most one attempt is active at the end of a trail. -/
lemma LoopTrail.one_active {events : List RunEvent} (h : LoopTrail events) :
    attemptsSettled events ≤ attemptsStarted events ∧
      attemptsStarted events ≤ attemptsSettled events + 1 := by
  induction events using List.reverseRecOn with
  | nil => simp [attemptsSettled, attemptsStarted]
  | append_singleton events event ih =>
      have hmove := h events event [] rfl
      obtain ⟨hle, hge⟩ := ih h.of_append
      have hstart := hmove.attempt
      have hsettle := hmove.settles
      have hapart : event.isType .fixAttemptStarted = true → settlesAttempt event = false := by
        intro hstarted
        have htype : event.type = RunEventType.fixAttemptStarted.value := by
          simpa [RunEvent.isType] using hstarted
        simp only [settlesAttempt, RunEvent.isType, htype]
        rfl
      simp only [attemptsStarted_snoc, attemptsSettled_snoc]
      by_cases hstarted : event.isType .fixAttemptStarted = true
      · simp only [hstarted, hapart hstarted, if_pos]
        have heq := (hstart hstarted).1
        simp
        omega
      · by_cases hsettled : settlesAttempt event = true
        · have heq := hsettle hsettled
          simp only [hstarted, hsettled]
          simp
          omega
        · simp only [hstarted, hsettled]
          simp
          omega

end Calls

/-- The calls of a recorder of the loop, from a store that any calls have led to. -/
def loopRecords (setup : List RunStore.StoreCall) (runId fixLoopId : String)
    (calls : List ((CanonicalFixLoopRecorder.Call × Fresh) × List (Turn RunStore.StoreCall))) :
    List (CallRecord CanonicalFixLoopRecorder (CanonicalFixLoopRecorder.Call × Fresh)) :=
  (objectRun writerCall CanonicalFixLoopRecorder.call { runId, fixLoopId } calls
    (RunStore.runCalls .initial setup)).1

/-- What a call of the recorder is, after the calls of `front`. -/
structure LoopCallKept (runId : String)
    (front : List (CallRecord CanonicalFixLoopRecorder (CanonicalFixLoopRecorder.Call × Fresh)))
    (record : CallRecord CanonicalFixLoopRecorder (CanonicalFixLoopRecorder.Call × Fresh)) :
    Prop where
  /-- After each of its accesses the trail is one, and at most one attempt is active. -/
  during : ∀ done, done <+: record.accesses →
    let trail := journalOf runId front ++ journal (·.log runId) done
    LoopTrail trail ∧ attemptsSettled trail ≤ attemptsStarted trail ∧
      attemptsStarted trail ≤ attemptsSettled trail + 1
  before : LoopFlags runId record.before (journalOf runId front)
  after : ∀ ended, record.ended = some ended →
    LoopFlags runId ended.object (journalOf runId front ++ record.own runId)
  /-- A call that raises has changed neither the recorder nor its trail. -/
  refused : ∀ ended e, record.ended = some ended → ended.outcome = .error e →
    ended.object = record.before ∧ record.own runId = []

/-- Over any calls of a fix-loop recorder, among any other writers and with any accesses failing,
its trail grows by loop moves only and its flags say what the trail shows. -/
theorem fix_loop_recorded (setup : List RunStore.StoreCall) (runId fixLoopId : String)
    (calls : List ((CanonicalFixLoopRecorder.Call × Fresh) × List (Turn RunStore.StoreCall))) :
    Justified (LoopCallKept runId) (loopRecords setup runId fixLoopId calls) := by
  intro front record back hrecords
  have hflags : LoopFlags runId { runId, fixLoopId } [] :=
    ⟨rfl, rfl, fun _ => rfl, rfl, rfl, by rintro _ ⟨⟩, rfl⟩
  have hstore : (RunStore.runCalls .initial setup).Sound :=
    fun id => RunStore.runCalls_consistent setup (RunStore.initial_consistent id)
  have hkept : record.Kept runId LoopTrail (LoopFlags runId) RefusedClean (journalOf runId front) :=
    objectRun_kept writerCall_sound fixLoopCall_journals hflags (Justified.of_forall (by simp))
      hstore calls front record back hrecords
  constructor
  · intro done hdone
    have htrail := hkept.during done hdone
    exact ⟨htrail, htrail.one_active⟩
  · exact hkept.before
  · exact fun ended hended => (hkept.after ended hended).1
  · intro ended e hended herror
    obtain ⟨hobject, hown⟩ := (hkept.after ended hended).2 ⟨e, herror⟩
    exact ⟨hobject, List.append_right_eq_self.mp hown⟩

/-- The indices of the attempts that a trail starts. -/
def attemptIndices (events : List RunEvent) : List ℤ :=
  (events.filter (·.isType .fixAttemptStarted)).filterMap fun event =>
    match event.payload.get "attempt_index" with
    | .int n => some n
    | _ => none

section Sample

/-- The first attempt is interrupted, and another one is started. -/
def interruptedCalls :
    List ((CanonicalFixLoopRecorder.Call × Fresh) × List (Turn RunStore.StoreCall)) :=
  let turns : List (Turn RunStore.StoreCall) := [{}, {}, {}]
  [((.start 3, ⟨"e2", 0⟩), turns),
   ((.attemptStarted "a1" 1 "verification_fail" "w1" "d", ⟨"e3", 0⟩), turns),
   ((.attemptInterrupted "infrastructure_error" true [], ⟨"e4", 0⟩), turns),
   ((.attemptStarted "a2" 1 "verification_fail" "w2" "d", ⟨"e5", 0⟩), turns)]

/-- An interrupted attempt does not count, so the next one has its index again. -/
theorem interrupted_attempt_index :
    attemptIndices (journalOf "r" (loopRecords runningSetup "r" "loop" interruptedCalls)) =
      [1, 1] := by
  decide +kernel

end Sample

end Imece.RunRuntime
