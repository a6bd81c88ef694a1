import Imece.AgentRuntime.Session
import Imece.Lib.Brackets

/-!
# What the parts of a session do

Each function of a session moves the brackets of its events in one way, leaves what it
does not own alone, and fails only where its failure is recorded or none can be.
-/
namespace Imece.AgentRuntime

open Lib RunRuntime
open ToolRuntime (ToolErrorKind PermissionEffect)

/-- What an event means for the brackets of the tool calls, under their call ids. -/
def AgentEventKind.mark : AgentEventKind → Mark String
  | .executionStarted _ => .started
  | .toolRequested _ _ _ callId _ _ => .opened callId
  | .toolCompleted _ _ _ callId _ _ _ => .closed callId
  | .toolFailed _ _ _ callId _ _ _ _ _ => .closed callId
  | .executionCompleted .. => .ended
  | .executionFailed .. => .ended
  | _ => .neutral

def marks (events : List AgentEvent) : List (Mark String) := events.map fun event => event.kind.mark

namespace AgentSession

/-- Where the events of a session stand. -/
def At (b : Bracket String) (s : AgentSession) : Prop := Bracket.fresh.run (marks s.events) = some b

/-- What the work inside a step leaves alone. -/
structure Frame (s t : AgentSession) : Prop where
  limits : t.limits = s.limits
  lastTurn : t.lastTurn = s.lastTurn
  modelTurns : t.modelTurns = s.modelTurns
  toolCalls : t.toolCalls = s.toolCalls
  asked : t.asked = s.asked
  dispatched : t.dispatched = s.dispatched

lemma Frame.refl (s : AgentSession) : Frame s s := ⟨rfl, rfl, rfl, rfl, rfl, rfl⟩

/-- A running session, in which no failure has been recorded. -/
structure Live (origin : AgentSession) (b : Bracket String) (s : AgentSession) : Prop where
  bracket : At b s
  unrecorded : s.failureRecorded = false
  running : s.state = .running
  turn : s.currentTurnId.isSome = true
  frame : Frame origin s

/-- A session that a failure has stopped. A failure of its own that is not recorded yet
leaves no bracket open. -/
structure Stopped (origin : AgentSession) (e : SessionError) (s : AgentSession) : Prop where
  bracket : ∃ b, At b s
  ready : s.state ≠ .ready
  waiting : s.state ≠ .waitingApproval
  unrecorded : ∀ kind message, e = .agent kind message → kind ≠ .recording →
    s.failureRecorded = false → At .idle s
  frame : Frame origin s

variable {origin s : AgentSession} {b b' : Bracket String}

lemma At.emitted (h : At b s) {event : AgentEventKind} (hnext : b.next event.mark = some b')
    (executionId : String) :
    Bracket.fresh.run (marks (s.events ++ [⟨executionId, event⟩])) = some b' := by
  rw [marks, List.map_append]
  exact Bracket.run_concat h hnext

/-- What an emission needs, for an event that the sink takes and for one it refuses. -/
lemma wp_emit {event : AgentEventKind} {Q : Unit → AgentSession → Prop}
    {E : SessionError → AgentSession → Prop} :
    wp (emit event) Q E s ↔
      (s.sink.head? = some false →
        E (.agent .recording "Agent lifecycle event kaydedilemedi")
          { s with sink := s.sink.tail, state := .failed }) ∧
      (s.sink.head? ≠ some false →
        Q () { s with
          sink := s.sink.tail
          events := s.events ++ [⟨s.executionId, event⟩] }) := by
  rw [emit, wp_bind, wp_get]
  split_ifs with hsink
  · rw [wp_bind, wp_modify, wp_throw]
    simp [hsink]
  · rw [wp_modify]
    simp [hsink]

lemma Live.refused (h : Live origin b s) :
    Stopped origin (.agent .recording "Agent lifecycle event kaydedilemedi")
      { s with sink := s.sink.tail, state := .failed } := by
  refine ⟨⟨b, h.bracket⟩, by simp, by simp, ?_, ⟨h.frame.limits, h.frame.lastTurn,
    h.frame.modelTurns, h.frame.toolCalls, h.frame.asked, h.frame.dispatched⟩⟩
  intro kind message he hkind
  cases he
  exact absurd rfl hkind

/-- An event of a running session. -/
lemma Live.emit (h : Live origin b s) {event : AgentEventKind}
    (hnext : b.next event.mark = some b') :
    wp (AgentSession.emit event) (fun _ => Live origin b') (Stopped origin) s := by
  rw [wp_emit]
  refine ⟨fun _ => h.refused, fun _ => ⟨h.bracket.emitted hnext s.executionId, h.unrecorded,
    h.running, h.turn, ⟨h.frame.limits, h.frame.lastTurn, h.frame.modelTurns, h.frame.toolCalls,
      h.frame.asked, h.frame.dispatched⟩⟩⟩

/-- The terminal event of a failure, outside any bracket. -/
lemma recordExecutionFailure_spec (hbracket : At .idle s) (hunrecorded : s.failureRecorded = false)
    (hframe : Frame origin s) (errorType message : String) :
    wp (recordExecutionFailure errorType message)
      (fun _ t => At .finished t ∧ t.failureRecorded = true ∧ t.state = s.state ∧ Frame origin t)
      (Stopped origin) s := by
  rw [recordExecutionFailure, wp_bind, wp_get, if_neg (by simp [hunrecorded]), wp_bind, wp_modify,
    wp_emit]
  have hkept (t : AgentSession) (h : Frame s t) : Frame origin t :=
    ⟨h.limits.trans hframe.limits, h.lastTurn.trans hframe.lastTurn,
      h.modelTurns.trans hframe.modelTurns, h.toolCalls.trans hframe.toolCalls,
      h.asked.trans hframe.asked, h.dispatched.trans hframe.dispatched⟩
  refine ⟨fun _ => ⟨⟨.idle, hbracket⟩, by simp, by simp, ?_, hkept _ ⟨rfl, rfl, rfl, rfl, rfl, rfl⟩⟩,
    fun _ => ⟨hbracket.emitted rfl s.executionId, rfl, rfl, hkept _ ⟨rfl, rfl, rfl, rfl, rfl, rfl⟩⟩⟩
  intro kind text he hkind
  cases he
  exact absurd rfl hkind

/-- The common end of the `_fail` methods: their terminal event, or none that the sink
takes. -/
lemma failWith_spec {α : Type} (hbracket : At b s) (hb : b = .idle ∨ s.sink.head? = some false)
    (hunrecorded : s.failureRecorded = false) (hframe : Frame origin s) (kind : AgentErrorKind)
    (message : String) {Q : α → AgentSession → Prop} :
    wp (failWith kind message) Q (Stopped origin) s := by
  have hkept (t : AgentSession) (h : Frame origin s) (hlimits : t.limits = s.limits)
      (hlast : t.lastTurn = s.lastTurn) (hturns : t.modelTurns = s.modelTurns)
      (hcalls : t.toolCalls = s.toolCalls) (hasked : t.asked = s.asked)
      (hdispatched : t.dispatched = s.dispatched) : Frame origin t :=
    ⟨hlimits.trans h.limits, hlast.trans h.lastTurn, hturns.trans h.modelTurns,
      hcalls.trans h.toolCalls, hasked.trans h.asked, hdispatched.trans h.dispatched⟩
  rw [failWith, wp_bind, setState, wp_modify, wp_bind, recordExecutionFailure, wp_bind, wp_get]
  simp only [hunrecorded, Bool.false_eq_true, if_false]
  rw [wp_bind, wp_modify, wp_emit]
  constructor
  · intro _
    refine ⟨⟨b, hbracket⟩, by simp, by simp, ?_, hkept _ hframe rfl rfl rfl rfl rfl rfl⟩
    intro other text he hother
    cases he
    exact absurd rfl hother
  · intro hsink
    have hidle : b = .idle := hb.resolve_right hsink
    subst hidle
    rw [wp_throw]
    refine ⟨⟨.finished, hbracket.emitted rfl s.executionId⟩, by simp, by simp, ?_,
      hkept _ hframe rfl rfl rfl rfl rfl rfl⟩
    intro other text he hother hrecorded
    cases hrecorded

lemma Live.failWith {α : Type} (h : Live origin b s)
    (hb : b = .idle ∨ s.sink.head? = some false) (kind : AgentErrorKind) (message : String)
    {Q : α → AgentSession → Prop} :
    wp (AgentSession.failWith kind message) Q (Stopped origin) s :=
  failWith_spec h.bracket hb h.unrecorded h.frame kind message

/-- The context of a call's events. -/
lemma Live.toolEventContext (h : Live origin b s) (call : ModelToolCall) (fresh : String) :
    wp (AgentSession.toolEventContext call fresh)
      (fun _ t => Live origin b t ∧ t.sink = s.sink) (Stopped origin) s := by
  rw [AgentSession.toolEventContext, wp_bind, wp_get]
  obtain ⟨turnId, hturn⟩ := Option.isSome_iff_exists.mp h.turn
  rw [hturn]
  simp only
  rw [wp_bind, toolItemId, wp_bind, wp_get]
  cases s.toolItemIds.lookup call.callId with
  | some itemId => exact ⟨h, rfl⟩
  | none =>
      refine ⟨⟨h.bracket, h.unrecorded, h.running, h.turn, ?_⟩, rfl⟩
      exact ⟨h.frame.limits, h.frame.lastTurn, h.frame.modelTurns, h.frame.toolCalls,
        h.frame.asked, h.frame.dispatched⟩

/-- An event of a call, after its context. -/
lemma Live.emitCall (h : Live origin b s) (call : ModelToolCall) (fresh : String)
    (event : ℤ × String × String → AgentEventKind)
    (hnext : ∀ context, b.next (event context).mark = some b') :
    wp (do AgentSession.emit (event (← AgentSession.toolEventContext call fresh)))
      (fun _ => Live origin b') (Stopped origin) s := by
  rw [wp_bind]
  exact wp_mono (h.toolEventContext call fresh) (fun context t ht => ht.1.emit (hnext context))
    fun _ _ herror => herror

/-- The event that closes a failed call. -/
lemma Live.emitToolFailed {callId : String} (h : Live origin (.within callId) s)
    {call : ModelToolCall} (hcall : call.callId = callId) (fresh stage : String)
    (recoverable : Bool) (errorType message : String) :
    wp (AgentSession.emitToolFailed call fresh stage recoverable errorType message)
      (fun _ => Live origin .idle) (Stopped origin) s := by
  refine h.emitCall call fresh (fun context => .toolFailed context.1 context.2.1 context.2.2
    call.callId call.name stage recoverable errorType message) fun context => ?_
  simp [AgentEventKind.mark, Bracket.next, hcall]

lemma Live.recordToolError (h : Live origin .idle s) :
    wp AgentSession.recordToolError (fun _ => Live origin .idle) (Stopped origin) s := by
  rw [AgentSession.recordToolError, wp_bind, wp_modify, wp_bind, wp_get]
  have hcounted : Live origin .idle { s with
      toolErrors := s.toolErrors + 1
      consecutiveToolErrors := s.consecutiveToolErrors + 1 } :=
    ⟨h.bracket, h.unrecorded, h.running, h.turn, ⟨h.frame.limits, h.frame.lastTurn,
      h.frame.modelTurns, h.frame.toolCalls, h.frame.asked, h.frame.dispatched⟩⟩
  split_ifs
  · exact hcounted.failWith (Or.inl rfl) _ _
  · exact hcounted

/-- A failed call of which the model is told. -/
lemma Live.recoverableResult {callId : String} (h : Live origin (.within callId) s)
    {call : ModelToolCall} (hcall : call.callId = callId) (fresh stage : String)
    (exc : ToolException) :
    wp (AgentSession.recoverableResult call fresh stage exc)
      (fun result t => result.callId = callId ∧ Live origin .idle t) (Stopped origin) s := by
  rw [AgentSession.recoverableResult, wp_bind]
  refine wp_mono (h.emitToolFailed hcall _ _ _ _ _) (fun _ t ht => ?_) fun _ _ herror => herror
  rw [wp_bind]
  exact wp_mono ht.recordToolError (fun _ u hu => ⟨hcall, hu⟩) fun _ _ herror => herror

/-- A failed call that stops the session. -/
lemma Live.failCall {α : Type} {callId : String} (h : Live origin (.within callId) s)
    {call : ModelToolCall} (hcall : call.callId = callId) (fresh stage : String)
    (exc : ToolException) {Q : α → AgentSession → Prop} :
    wp (do emitNonrecoverableToolFailure call fresh stage exc; failInternalTool exc) Q
      (Stopped origin) s := by
  rw [wp_bind]
  exact wp_mono (h.emitToolFailed hcall _ _ _ _ _) (fun _ t ht => ht.failWith (Or.inl rfl) _ _)
    fun _ _ herror => herror

lemma Live.raised {callId : String} (h : Live origin (.within callId) s) (exc : ToolException) :
    Stopped origin (.tool exc) s :=
  ⟨⟨_, h.bracket⟩, by simp [h.running], by simp [h.running], nofun, h.frame⟩

/-- What an execution fails with: the dispatcher's exception inside the open bracket, or a
failure that has stopped the session. -/
def ExecutionFails (origin : AgentSession) (callId : String) :
    SessionError → AgentSession → Prop
  | .tool _, t => Live origin (.within callId) t
  | e, t => Stopped origin e t

/-- The exceptions of an emission are recording failures. -/
lemma Live.emit_or {callId : String} (h : Live origin b s) {event : AgentEventKind}
    (hnext : b.next event.mark = some b') :
    wp (AgentSession.emit event) (fun _ => Live origin b') (ExecutionFails origin callId) s := by
  rw [wp_emit]
  have hemit := h.emit hnext
  rw [wp_emit] at hemit
  exact hemit

lemma Live.toolEventContext_or {callId : String} (h : Live origin b s) (call : ModelToolCall)
    (fresh : String) :
    wp (AgentSession.toolEventContext call fresh) (fun _ => Live origin b)
      (ExecutionFails origin callId) s := by
  rw [AgentSession.toolEventContext, wp_bind, wp_get]
  obtain ⟨turnId, hturn⟩ := Option.isSome_iff_exists.mp h.turn
  rw [hturn]
  simp only
  rw [wp_bind, toolItemId, wp_bind, wp_get]
  cases s.toolItemIds.lookup call.callId with
  | some itemId => exact h
  | none =>
      exact ⟨h.bracket, h.unrecorded, h.running, h.turn, ⟨h.frame.limits, h.frame.lastTurn,
        h.frame.modelTurns, h.frame.toolCalls, h.frame.asked, h.frame.dispatched⟩⟩

/-- What the dispatcher's `execute` comes to closes the call or is raised. -/
lemma Live.closeCall {callId : String} (h : Live origin (.within callId) s)
    {call : ModelToolCall} (hcall : call.callId = callId) (fresh : String)
    (executed : Except ToolException Observation) :
    wp (AgentSession.closeCall call fresh executed)
      (fun result t => result.callId = callId ∧ Live origin .idle t)
      (ExecutionFails origin callId) s := by
  cases executed with
  | error exc => exact h
  | ok observation =>
      simp only [AgentSession.closeCall]
      rw [wp_bind]
      refine wp_mono (h.toolEventContext_or call fresh) (fun context t ht => ?_)
        fun _ _ herror => herror
      rw [wp_bind]
      have hclosed : (Bracket.within callId).next (AgentEventKind.mark (.toolCompleted context.1
          context.2.1 context.2.2 call.callId call.name observation.content
          observation.metadata)) = some .idle := by
        simp [AgentEventKind.mark, Bracket.next, hcall]
      refine wp_mono (ht.emit_or hclosed) (fun _ u hu => ?_) fun _ _ herror => herror
      · rw [wp_bind, wp_modify, wp_pure]
        exact ⟨hcall, hu.bracket, hu.unrecorded, hu.running, hu.turn, ⟨hu.frame.limits,
          hu.frame.lastTurn, hu.frame.modelTurns, hu.frame.toolCalls, hu.frame.asked,
          hu.frame.dispatched⟩⟩

/-- The execution of a prepared call: it is closed, or the dispatcher has raised. -/
lemma Live.executePrepared {callId : String} (h : Live origin (.within callId) s)
    {call : ModelToolCall} (hcall : call.callId = callId) (prepared : PreparedCall) (grant : Bool)
    (fresh : String) (executed : Except ToolException Observation) :
    wp (AgentSession.executePrepared call prepared grant fresh executed)
      (fun result t => result.callId = callId ∧ Live origin .idle t)
      (ExecutionFails origin callId) s := by
  rw [AgentSession.executePrepared, wp_bind]
  have hstarted : wp (AgentSession.announceStart call prepared grant fresh)
      (fun _ => Live origin (.within callId)) (ExecutionFails origin callId) s := by
    rw [AgentSession.announceStart]
    split_ifs
    · rw [wp_bind]
      exact wp_mono (h.toolEventContext_or call fresh) (fun context t ht => ht.emit_or rfl)
        fun _ _ herror => herror
    · exact h
  exact wp_mono hstarted (fun _ t ht => ht.closeCall hcall fresh executed)
    fun _ _ herror => herror

end AgentSession

end Imece.AgentRuntime
