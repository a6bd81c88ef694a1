import Imece.RunRuntime.AgentActivity
import Imece.RunRuntime.FixLoop
import Imece.RunRuntime.Planner
import Imece.RunRuntime.Reviewer
import Imece.RunRuntime.Trails
import Imece.VerificationRuntime.Runner

/-!
# Recorders of attempts, together

The planner's and the reviewer's sink, the verification runner and the fix-loop
recorder, as programs of one pool. The recorder that has persisted the start of an
attempt holds it until it writes the terminal.
-/
namespace Imece.RunRuntime

open Lib AgentRuntime VerificationRuntime

/-- The calls of an attempt runner: those of its sink, and activity notices. -/
inductive AttemptCall (Report : Type) where
  | emit (event : AgentEvent) (pages : ℕ) (fresh : ℕ → Fresh)
  | complete (report : Report) (fresh : ℕ → Fresh)
  | fail (attemptId errorType message : String) (fresh : ℕ → Fresh)
  | activity (activity : AgentActivity) (fresh : Fresh)

def planCall (sink : AttemptSink) : AttemptCall PlanReport → RunProg (Ended AttemptSink)
  | .emit event pages fresh => CanonicalPlannerEventSink.call sink (.emit event pages fresh)
  | .complete report fresh => CanonicalPlannerEventSink.call sink (.complete report fresh)
  | .fail id errorType message fresh =>
      CanonicalPlannerEventSink.call sink (.fail id errorType message fresh)
  | .activity activity fresh => sink.activity activity fresh

def reviewCall (sink : AttemptSink) : AttemptCall ReviewReport → RunProg (Ended AttemptSink)
  | .emit event pages fresh => CanonicalReviewEventSink.call sink (.emit event pages fresh)
  | .complete report fresh => CanonicalReviewEventSink.call sink (.complete report fresh)
  | .fail id errorType message fresh =>
      CanonicalReviewEventSink.call sink (.fail id errorType message fresh)
  | .activity activity fresh => sink.activity activity fresh

/-- The keyword arguments a call of the fix-loop recorder adds to a terminal of the loop. -/
def CanonicalFixLoopRecorder.Call.extra : CanonicalFixLoopRecorder.Call → List (String × PyValue)
  | .exhausted _ _ _ extra | .failed _ extra | .interrupted _ extra => extra
  | _ => []

/-- The identifier of the loop stays in place, as all callers leave it. -/
def CanonicalFixLoopRecorder.Call.keepsId (fixLoopId : String)
    (call : CanonicalFixLoopRecorder.Call) : Bool :=
  call.extra.all fun entry => entry.1 ≠ "fix_loop_id" || entry.2.eqStr fixLoopId

/-- One recorder in flight, with all it is given. A verification sink is used by the runner, or
in any other way. -/
inductive Recorder where
  | planner (runId planId : String) (rulesSha256 : Option String) (pinnedPaths : List String)
      (calls : List (AttemptCall PlanReport))
  | reviewer (runId reviewId : String) (rulesSha256 : Option String)
      (calls : List (AttemptCall ReviewReport))
  | verification (runId sinkId verificationId : String) (plan : VerificationPlan)
      (outcomes : ℕ → ProcessOutcome) (durationMs pages : ℕ) (fresh : ℕ → ℕ → ℕ → Fresh)
  | verificationSink (runId sinkId : String) (calls : List (VerificationEvent × ℕ × (ℕ → Fresh)))
  | fixLoop (runId fixLoopId : String) (calls : List (CanonicalFixLoopRecorder.Call × Fresh))

/-- A fix-loop recorder reads the row whose number its start expects after the last
page of its search. When that number is still current at the append, the log was not
changed between the page and the row. -/
def SteadyStart (runId : String) (past : List (Access StoreAccess RunStore))
    (access : Access StoreAccess RunStore) : Prop :=
  match past with
  | row :: page :: _ =>
      access.label = .append runId [RunEventType.fixLoopStarted.value] →
        (row.met.log runId).length = (access.met.log runId).length →
          (page.met.log runId).length = (row.met.log runId).length
  | _ => True

instance (runId : String) (past : List (Access StoreAccess RunStore))
    (access : Access StoreAccess RunStore) : Decidable (SteadyStart runId past access) :=
  match past with
  | _ :: _ :: _ => inferInstanceAs (Decidable (_ → _ → _))
  | [_] | [] => isTrue trivial

/-- The appends that end a verification. -/
def verificationEnds (runId : String) : List StoreAccess :=
  TrailKind.verification.terminals.map fun type => .append runId [type.value]

/-- Whether a verification sink has persisted its start, and no terminal since: its accesses,
latest first. -/
def opened (runId : String) : List (Access StoreAccess RunStore) → Bool
  | [] => false
  | access :: past =>
      if (access.met.log runId).length < (access.left.log runId).length then
        if access.label = .append runId [RunEventType.verificationStarted.value] then true
        else if access.label ∈ verificationEnds runId then false
        else opened runId past
      else opened runId past

/-- A sink is given a terminal only while its start stands open; it checks nothing itself. -/
def OrderedTerminal (runId : String) (past : List (Access StoreAccess RunStore))
    (access : Access StoreAccess RunStore) : Prop :=
  access.label ∈ verificationEnds runId → opened runId past = true

instance (runId : String) (past : List (Access StoreAccess RunStore))
    (access : Access StoreAccess RunStore) : Decidable (OrderedTerminal runId past access) :=
  inferInstanceAs (Decidable (_ → _))

namespace Recorder

def program : Recorder → RunProg Unit
  | .planner runId planId rulesSha256 pinnedPaths calls => do
      let sink ← CanonicalPlannerEventSink.new runId planId rulesSha256 pinnedPaths
      let _ ← session planCall sink calls
      return ()
  | .reviewer runId reviewId rulesSha256 calls => do
      let sink ← CanonicalReviewEventSink.new runId reviewId rulesSha256
      let _ ← session reviewCall sink calls
      return ()
  | .verification runId sinkId verificationId plan outcomes durationMs pages fresh => do
      let sink ← CanonicalVerificationEventSink.new runId sinkId
      let _ ← VerificationRunner.run sink plan verificationId outcomes durationMs pages fresh
      return ()
  | .verificationSink runId sinkId calls => do
      let sink ← CanonicalVerificationEventSink.new runId sinkId
      let _ ← session CanonicalVerificationEventSink.emit sink calls
      return ()
  | .fixLoop runId fixLoopId calls => do
      let recorder ← CanonicalFixLoopRecorder.new runId fixLoopId
      let _ ← session CanonicalFixLoopRecorder.call recorder calls
      return ()

/-- What a recorder's accesses meet: the fix loop's start has to be steady and its terminals to
keep its identifier, and a verification sink has to be given its terminals in order. -/
def steady : Recorder → List (Access StoreAccess RunStore) → Access StoreAccess RunStore → Prop
  | .fixLoop runId fixLoopId calls => fun past access =>
      (calls.all fun input => input.1.keepsId fixLoopId) = true ∧ SteadyStart runId past access
  | .verificationSink runId _ _ => OrderedTerminal runId
  | _ => fun _ _ => True

instance (recorder : Recorder) (past : List (Access StoreAccess RunStore))
    (access : Access StoreAccess RunStore) : Decidable (recorder.steady past access) :=
  match recorder with
  | .fixLoop runId fixLoopId calls =>
      inferInstanceAs (Decidable ((calls.all fun input => input.1.keepsId fixLoopId) = true ∧
        SteadyStart runId past access))
  | .verificationSink runId _ _ => inferInstanceAs (Decidable (OrderedTerminal runId past access))
  | .planner .. | .reviewer .. | .verification .. => isTrue trivial

end Recorder

/-- How many accesses lie between the last page of a recorder's search and its start. -/
def TrailKind.between : TrailKind → ℕ
  | fixLoop => 1
  | _ => 0

/-- A start that goes through meets the log that its recorder's search met at its last
page; it is refused if the log changed in between. -/
def CheckedStart (past : List (Access StoreAccess RunStore))
    (access : Access StoreAccess RunStore) : Prop :=
  ∀ runId (kind : TrailKind), access.label = .append runId [kind.started.value] →
    access.left ≠ access.met →
      ∃ page, past[kind.between]? = some page ∧ page.label = .read ∧
        page.met.log runId = access.met.log runId

/-- Every trail of the store has one of the three forms. -/
structure RunStore.Trailed (store : RunStore) : Prop where
  sound : store.Sound
  form : ∀ key, TrailForm key (store.trail key)

/-- What a recorder holds: an attempt it has started and not ended. -/
abbrev Token := Option TrailKey

/-- The attempt a recorder holds is open. -/
def Agrees (token : Token) (store : RunStore) : Prop :=
  store.Trailed ∧ ∀ key, token = some key →
    ∃ start, key.isStart start = true ∧ store.trail key = [start]

/-- What an access does to the trails, and to what its recorder holds. -/
inductive TrailMoves : Token → RunStore → RunStore → Token → Prop
  | quiet {token : Token} {store next : RunStore} (grows : RunStore.Grows store next)
      (same : ∀ key, next.trail key = store.trail key) : TrailMoves token store next token
  | starts {key : TrailKey} {store next : RunStore} {event : RunEvent}
      (grows : RunStore.Grows store next) (hnew : store.trail key = [])
      (hevent : key.isStart event = true) (htrail : next.trail key = [event])
      (same : ∀ other, other ≠ key → next.trail other = store.trail other) :
      TrailMoves none store next (some key)
  | ends {key : TrailKey} {store next : RunStore} {event : RunEvent}
      (grows : RunStore.Grows store next) (hevent : key.isTerminal event = true)
      (htrail : next.trail key = store.trail key ++ [event])
      (same : ∀ other, other ≠ key → next.trail other = store.trail other) :
      TrailMoves (some key) store next none

theorem TrailMoves.grows {token token' : Token} {store next : RunStore}
    (h : TrailMoves token store next token') : RunStore.Grows store next := by
  cases h with
  | quiet grows | starts grows | ends grows => exact grows

/-- What an access of a recorder does. -/
structure RecorderMove (past : List (Access StoreAccess RunStore))
    (access : Access StoreAccess RunStore) (token token' : Token) : Prop where
  moves : TrailMoves token access.met access.left token'
  checked : CheckedStart past access

/-- Every open attempt is held by at most one recorder. -/
structure TokensHeld (store : RunStore) (tokens : List Token) : Prop where
  trailed : store.Trailed
  held : ∀ key, some key ∈ tokens → ∃ start, key.isStart start = true ∧ store.trail key = [start]
  unique : ∀ key, tokens.count (some key) ≤ 1

section Tokens

variable {store next : RunStore} {token token' : Token} {front back : List Token}

lemma TokensHeld.own (h : TokensHeld store (front ++ token :: back)) : Agrees token store := by
  refine ⟨h.trailed, ?_⟩
  rintro key rfl
  exact h.held key (by simp)

lemma TokensHeld.grow (h : TokensHeld store front) (hgrows : RunStore.Grows store next)
    (hsame : ∀ key, next.trail key = store.trail key) : TokensHeld next front where
  trailed := ⟨h.trailed.sound.grow hgrows, fun key => by rw [hsame]; exact h.trailed.form key⟩
  held key hkey := by rw [hsame]; exact h.held key hkey
  unique := h.unique

theorem TokensHeld.move (h : TokensHeld store (front ++ token :: back))
    (hmoves : TrailMoves token store next token') : TokensHeld next (front ++ token' :: back) := by
  cases hmoves with
  | quiet hgrows hsame => exact h.grow hgrows hsame
  | @starts key _ _ event hgrows hnew hevent htrail hsame =>
      have hnot : some key ∉ front ++ back := by
        intro hmem
        obtain ⟨start, -, hopen⟩ := h.held key (by
          rcases List.mem_append.mp hmem with hmem | hmem <;> simp [hmem])
        rw [hnew] at hopen
        cases hopen
      refine ⟨⟨h.trailed.sound.grow hgrows, fun other => ?_⟩, fun other hother => ?_,
        fun other => ?_⟩
      · by_cases hkey : other = key
        · rw [hkey, htrail]
          exact .open_ hevent
        · rw [hsame other hkey]
          exact h.trailed.form other
      · by_cases hkey : other = key
        · rw [hkey]
          exact ⟨event, hevent, htrail⟩
        · rw [hsame other hkey]
          refine h.held other ?_
          simpa [hkey] using hother
      · have hcount := h.unique other
        rw [List.mem_append, not_or] at hnot
        simp only [List.count_append, List.count_cons] at hcount ⊢
        by_cases hkey : other = key
        · subst hkey
          simp [List.count_eq_zero_of_not_mem hnot.1, List.count_eq_zero_of_not_mem hnot.2]
        · have hne : (some key == some other) = false := by simpa using Ne.symm hkey
          simpa [hne] using hcount
  | @ends key _ _ event hgrows hevent htrail hsame =>
      obtain ⟨start, hstart, hopen⟩ := h.held key (by simp)
      have hcount := h.unique key
      simp only [List.count_append, List.count_cons, beq_self_eq_true, if_true] at hcount
      have hfront : some key ∉ front := List.count_eq_zero.mp (by omega)
      have hback : some key ∉ back := List.count_eq_zero.mp (by omega)
      refine ⟨⟨h.trailed.sound.grow hgrows, fun other => ?_⟩, fun other hother => ?_,
        fun other => ?_⟩
      · by_cases hkey : other = key
        · rw [hkey, htrail, hopen]
          exact .closed hstart hevent
        · rw [hsame other hkey]
          exact h.trailed.form other
      · have hkey : other ≠ key := by
          rintro rfl
          simp [hfront, hback] at hother
        rw [hsame other hkey]
        refine h.held other ?_
        simp only [List.mem_append, List.mem_cons, reduceCtorEq, false_or] at hother ⊢
        tauto
      · have hcount := h.unique other
        simp only [List.count_append, List.count_cons] at hcount ⊢
        simp only [reduceCtorEq, beq_iff_eq, if_false, Nat.add_zero]
        omega

end Tokens

end Imece.RunRuntime
