import Imece.RunRuntime.FixLoopMoves
import Imece.RunRuntime.VerificationMoves
import Imece.RunRuntime.Writers

/-!
# Attempts are recorded once

The trails of runs on which any number of recorders work together.
-/
namespace Imece.RunRuntime

open Lib

section Pools

variable {fair : List (Access StoreAccess RunStore) → Access StoreAccess RunStore → Prop}

/-- A recorder that is built, and then used: it starts with nothing in its hands. -/
lemma newThen_moving {α β : Type} {new : RunProg α} {use : α → RunProg β}
    {I : α → List (Access StoreAccess RunStore) → Token → RunStore → Prop}
    {past : List (Access StoreAccess RunStore)} {store : RunStore}
    (hnew : Moving fair new (fun r past' token t => ∀ a, r = .ok a → I a past' token t)
      past none store)
    (huse : ∀ a past token t, I a past token t →
      Moving fair (use a) (fun _ _ _ _ => True) past token t) :
    Moving fair (do let a ← new; let _ ← use a; return ()) (fun _ _ _ _ => True)
      past none store := by
  refine Prog.Holds.bind RunStore.Grows.refl hnew ?_ fun _ _ _ _ _ => trivial
  intro a past' token t ha
  exact (huse a past' token t (ha a rfl)).bind RunStore.Grows.refl
    (fun _ _ _ _ _ _ _ => trivial) fun _ _ _ _ _ => trivial

/-- A new verification sink holds nothing; it has read its row. -/
lemma newVerification_moving (runId sinkId : String) (store : RunStore) :
    Moving fair (CanonicalVerificationEventSink.new runId sinkId)
      (fun r past token t => ∀ sink, r = .ok sink → sink.runId = runId ∧
        opened runId past = false ∧ VerificationHolds sink false token t) [] none store := by
  unfold CanonicalVerificationEventSink.new
  split
  · exact fun _ _ _ h => by cases h
  · refine (runningSeq_moving "Verification sink").bind RunStore.Grows.refl ?_
      fun _ _ _ _ _ _ h => by cases h
    rintro seq past token t ⟨rfl, -, hrow⟩ u hu sink ⟨⟩
    obtain ⟨row, rfl, -, hrowt, hseq⟩ := hrow seq rfl
    exact ⟨rfl, opened_still, hseq.le.trans ((hrowt.trans hu).log runId).length_le, rfl⟩

theorem Recorder.program_moving (recorder : Recorder) (store : RunStore) :
    Moving recorder.steady recorder.program (fun _ _ _ _ => True) [] none store := by
  cases recorder with
  | planner runId planId rulesSha256 pinnedPaths calls =>
      refine newThen_moving (I := fun sink _ => SinkHolds .plan sink) ?_ fun sink _ _ _ hholds =>
        session_moving calls (fun _ input _ _ _ _ h => planCall_moving h input) hholds
      unfold CanonicalPlannerEventSink.new
      split
      · exact fun _ _ _ h => by cases h
      · exact newSink_moving fun seq => ⟨rfl, rfl, rfl⟩
  | reviewer runId reviewId rulesSha256 calls =>
      refine newThen_moving (I := fun sink _ => SinkHolds .review sink) ?_ fun sink _ _ _ hholds =>
        session_moving calls (fun _ input _ _ _ _ h => reviewCall_moving h input) hholds
      unfold CanonicalReviewEventSink.new
      split
      · exact fun _ _ _ h => by cases h
      · exact newSink_moving fun seq => ⟨rfl, rfl, rfl⟩
  | verification runId sinkId verificationId plan outcomes durationMs pages fresh =>
      exact newThen_moving (newVerification_moving runId sinkId store) fun sink _ _ _ hnew =>
        verificationRun_moving hnew.2.2
  | verificationSink runId sinkId calls =>
      refine newThen_moving (newVerification_moving runId sinkId store) fun sink _ _ _ hnew =>
        verificationSession_moving calls hnew.1 ?_
      rw [hnew.2.1]
      exact hnew.2.2
  | fixLoop runId fixLoopId calls =>
      refine newThen_moving (I := fun recorder _ token _ => LoopHolds runId fixLoopId recorder token)
        ?_ fun recorder _ _ _ hholds => session_moving calls (fun _ input hinput _ _ _ h =>
          fixLoopCall_moving (fun _ _ hfair => hfair.2) h input fun _ _ hfair =>
            List.all_eq_true.mp hfair.1 input hinput) hholds
      unfold CanonicalFixLoopRecorder.new
      split
      · exact fun _ _ _ h => by cases h
      · refine (runningSeq_moving "Fix loop recorder").bind RunStore.Grows.refl ?_
          fun _ _ _ _ _ _ h => by cases h
        rintro seq past token t ⟨rfl, -, -⟩ u hu recorder ⟨⟩
        exact ⟨rfl, rfl, nofun, rfl⟩

/-- A store call of other components, which write no start or terminal of an attempt. -/
abbrev TrailFreeCall := { call : RunStore.StoreCall // ∀ type ∈ call.types, type ∉ trailTypes }

def trailFreeCall (move : TrailFreeCall) (store : RunStore) : RunStore :=
  after move.val.run store

lemma trailFreeCall_trail (move : TrailFreeCall) (store : RunStore) (key : TrailKey) :
    (trailFreeCall move store).trail key = store.trail key := by
  obtain ⟨call, hfree⟩ := move
  obtain ⟨events, hlog⟩ := (RunStore.grows_after call store).log key.runId
  change (after call.run store).trail key = _
  rw [RunStore.trail, ← hlog, List.filter_append, RunStore.trail, List.append_right_eq_self,
    List.filter_eq_nil_iff]
  intro event hevent hmarks
  have htypes : event.type ∈ call.types := by
    have hmem := List.mem_map_of_mem (f := (·.type)) hevent
    rcases RunStore.call_logTypes call store key.runId with hsame | hlonger
    · rw [RunStore.logTypes, ← hlog, List.map_append, RunStore.logTypes,
        List.append_right_eq_self] at hsame
      rw [hsame] at hmem
      cases hmem
    · rw [RunStore.logTypes, ← hlog, List.map_append, RunStore.logTypes] at hlonger
      rwa [List.append_cancel_left hlonger] at hmem
  exact hfree event.type htypes (TrailKey.mem_trailTypes hmarks)

theorem recorderPool : TokenPool trailFreeCall Recorder.program RunStore.Grows Agrees
    Recorder.steady (fun _ => RecorderMove) (fun _ _ _ _ _ => True) TokensHeld fun _ => none where
  refl := .refl
  trans _ _ _ := .trans
  env_keeps move store tokens h := by
    have hgrows := RunStore.grows_after move.val store
    exact ⟨hgrows, h.grow hgrows fun key => trailFreeCall_trail move store key⟩
  spawn_keeps _ store tokens h := by
    refine ⟨h.trailed, fun key hkey => h.held key ?_, fun key => ?_⟩
    · simpa using hkey
    · have hcount := h.unique key
      simpa [List.count_append, List.count_singleton] using hcount
  own _ _ _ _ h := h.own
  move_keeps _ _ _ _ _ _ _ h hmove := ⟨hmove.moves.grows, h.move hmove.moves⟩
  program_holds name store _ _ := name.program_moving store

/-- A run of the recorders from an empty store. -/
def recorderTrace (schedule : List (Choice Recorder TrailFreeCall)) :
    List (PoolEvent Recorder TrailFreeCall StoreAccess RunStore) :=
  ((⟨.initial, []⟩ : Pool Recorder StoreAccess RunStore RunRuntimeError Unit).play
    trailFreeCall Recorder.program schedule).1

lemma initial_tokensHeld : TokensHeld .initial [] where
  trailed := ⟨RunStore.initial_consistent, fun _ => .fresh⟩
  held _ h := by cases h
  unique _ := by simp

/-- In every state of the run each attempt has at most one start and at most one terminal, the
terminal after the start. -/
def RecordedOnce (schedule : List (Choice Recorder TrailFreeCall)) : Prop :=
  ∀ event ∈ recorderTrace schedule, ∀ key,
    OneAttempt key (event.before.trail key) ∧ OneAttempt key (event.after.trail key)

/-- Every start of a fix loop is steady and its terminals keep its identifier, and verification
sinks are given their terminals in order. -/
structure Steady (schedule : List (Choice Recorder TrailFreeCall)) : Prop where
  fair : ∀ position, FairAccesses Recorder.steady []
    (accessesAt position schedule (recorderTrace schedule))

/-- Over every schedule of the recorders in which every start of a fix loop is steady, its
terminals keep its identifier, and verification sinks are given their terminals in order, each
attempt is recorded once, and every start that goes through meets the log its recorder has
checked. -/
theorem attempts_recorded_once (schedule : List (Choice Recorder TrailFreeCall))
    (hsteady : Steady schedule) :
    RecordedOnce schedule ∧ ∀ position, FairAccesses (fun _ => CheckedStart) []
      (accessesAt position schedule (recorderTrace schedule)) := by
  obtain ⟨hevents, hmoves, -⟩ := Pool.play_tokens recorderPool
    (TokenInvariant.start initial_tokensHeld) schedule hsteady.fair
  refine ⟨fun event hevent key => ?_, fun position => ?_⟩
  · obtain ⟨⟨before, hbefore⟩, after, hafter⟩ := hevents event hevent
    exact ⟨(hbefore.trailed.form key).oneAttempt, (hafter.trailed.form key).oneAttempt⟩
  · exact (hmoves position).imp fun _ _ _ ⟨_, _, hmove⟩ => hmove.checked

/-- Only the recorders that are let act have accesses. -/
lemma steady_below {schedule : List (Choice Recorder TrailFreeCall)} (bound : ℕ)
    (hacts : ∀ chosen, Choice.act chosen ∈ schedule → chosen < bound)
    (h : ∀ position < bound, FairAccesses Recorder.steady []
      (accessesAt position schedule (recorderTrace schedule))) : Steady schedule := by
  refine ⟨fun position => ?_⟩
  rcases Nat.lt_or_ge position bound with hlt | hge
  · exact h position hlt
  · rw [accessesAt_eq_nil]
    · trivial
    · intro chosen hchosen hsame
      exact absurd (hsame ▸ hacts chosen hchosen) (Nat.not_lt.mpr hge)

end Pools

section Sample

/-- A run is created and started. -/
def startedMoves : List (Choice Recorder TrailFreeCall) :=
  let args (type : RunEventType) : EventArgs := { type := type.value, payload := payloadOf [] }
  [.env ⟨.createTask { projectRoot := "/p", prompt := "fix", taskId := some "t" } ⟨"u0", 0⟩,
      by decide⟩,
   .env ⟨.createRun { taskId := "t", runId := some "r" } ⟨"u1", 0⟩, by decide⟩,
   .env ⟨.appendEvent "r" (args .runCreated) .none ⟨"e0", 0⟩, by decide⟩,
   .env ⟨.appendEvent "r" (args .runStarted) .none ⟨"e1", 0⟩, by decide⟩]

/-- A recorder of the loop `loop` that starts it, and is then given further calls. -/
def loopRecorder (fresh : String) (calls : List (CanonicalFixLoopRecorder.Call × Fresh)) :
    Recorder :=
  .fixLoop "r" "loop" ((.start 3, ⟨fresh, 0⟩) :: calls)

/-- A sink of the verification `v` that is given these events. -/
def verificationRecorder (kinds : List VerificationEventKind) : Recorder :=
  .verificationSink "r" "v" (kinds.zipIdx.map fun (kind, i) =>
    (⟨"v", kind⟩, 3, fun _ => ⟨"v" ++ toString i, 0⟩))

/-- A second recorder of the same loop searches after the first has started it; the first ends it
after a verification. -/
def steadySchedule : List (Choice Recorder TrailFreeCall) :=
  startedMoves ++ [.spawn (loopRecorder "a" [(.failed "tests" [("exit_code", .int 1)], ⟨"c", 0⟩)]),
    .spawn (loopRecorder "b" []), .act 0, .act 1, .act 0, .act 0, .act 0, .act 1, .act 1, .act 1,
    .spawn (verificationRecorder [.started "p" 1, .interrupted "p" "cancelled"]),
    .act 2, .act 2, .act 2, .act 2, .act 0, .act 0]

def loopKey : TrailKey := ⟨.fixLoop, "r", "loop"⟩

def verificationKey : TrailKey := ⟨.verification, "r", "v"⟩

/-- The second recorder of the loop is refused. -/
theorem attempts_recorded_once_sample :
    (recorderTrace steadySchedule).map (fun event =>
        ((event.after.trail loopKey).length, (event.after.trail verificationKey).length)) =
        List.replicate 10 (0, 0) ++ List.replicate 7 (1, 0) ++
          [(1, 1), (1, 2), (1, 2), (2, 2)] ∧
      RecordedOnce steadySchedule := by
  have hsteady : Steady steadySchedule := by
    refine steady_below 3 (fun chosen hchosen => ?_) (by decide +kernel)
    simp [steadySchedule, startedMoves] at hchosen
    omega
  exact ⟨by decide +kernel, (attempts_recorded_once steadySchedule hsteady).1⟩

/-- Both recorders search before either has read the row of its start. -/
def clashSchedule : List (Choice Recorder TrailFreeCall) :=
  startedMoves ++ [.spawn (loopRecorder "a" []), .spawn (loopRecorder "b" []), .act 0, .act 1,
    .act 0, .act 1, .act 0, .act 0, .act 1, .act 1]

/-- A verification sink is given two terminals. -/
def interruptedTwice : List (Choice Recorder TrailFreeCall) :=
  startedMoves ++ [.spawn (verificationRecorder
      [.interrupted "p" "cancelled", .interrupted "p" "cancelled"]), .act 0, .act 0, .act 0]

/-- A fix loop is failed under the identifier of another one. -/
def otherLoopFailed : List (Choice Recorder TrailFreeCall) :=
  startedMoves ++ [.spawn (loopRecorder "a"
      [(.failed "tests" [("fix_loop_id", .str "other")], ⟨"c", 0⟩)]),
    .act 0, .act 0, .act 0, .act 0, .act 0, .act 0]

/-- An attempt does not begin with a terminal. -/
lemma OneAttempt.head {key : TrailKey} {trail : List RunEvent} (h : OneAttempt key trail) :
    trail.head?.any key.isTerminal = false := by
  cases trail with
  | nil => rfl
  | cons first rest =>
      rw [← Bool.not_eq_true]
      intro hterminal
      obtain ⟨start, hstart, -⟩ := h.ordered [] first rest rfl hterminal
      cases hstart

/-- Both recorders start the same loop: its trail has two starts. A verification gets two
terminals, and a loop one without a start. -/
theorem clash_starts_twice : ¬ RecordedOnce clashSchedule ∧ ¬ RecordedOnce interruptedTwice ∧
    ¬ RecordedOnce otherLoopFailed := by
  refine ⟨fun h => ?_, fun h => ?_, fun h => ?_⟩
  · have honce : ∀ event ∈ recorderTrace clashSchedule,
        ((event.after.trail loopKey).filter loopKey.isStart).length ≤ 1 :=
      fun event hevent => (h event hevent loopKey).2.starts
    exact absurd honce (by decide +kernel)
  · have honce : ∀ event ∈ recorderTrace interruptedTwice,
        ((event.after.trail verificationKey).filter verificationKey.isTerminal).length ≤ 1 :=
      fun event hevent => (h event hevent verificationKey).2.terminals
    exact absurd honce (by decide +kernel)
  · have hhead : ∀ event ∈ recorderTrace otherLoopFailed,
        (event.after.trail ⟨.fixLoop, "r", "other"⟩).head?.any
          (TrailKey.isTerminal ⟨.fixLoop, "r", "other"⟩) = false :=
      fun event hevent => (h event hevent ⟨.fixLoop, "r", "other"⟩).2.head
    exact absurd hhead (by decide +kernel)

end Sample

end Imece.RunRuntime
