import Imece.AgentRuntime.SessionMoves

/-!
# Runs of a session

Whatever the backend, the dispatcher, the host, the cancellation token and the sink do,
the events of a session stay well ordered and the model is asked with one result for
each call of its last turn, as long as no request is left open: where a call is
requested past the limit, or the session is cancelled while an approval is awaited, the
execution ends inside the bracket of a call.
-/
namespace Imece.AgentRuntime

open Lib RunRuntime
open ToolRuntime (ToolErrorKind PermissionEffect)

namespace AgentSession

/-- The inputs of a model call answer the last turn: the task at first, and then one
result for each of its tool calls, in their order. -/
def Answers : Option ModelTurn × List ModelInputItem → Prop
  | (none, inputs) => ∃ task, inputs = [.userInput task]
  | (some turn, inputs) => ∃ results : List ModelToolResult,
      inputs = results.map .toolResultInput ∧
        results.map (·.callId) = turn.toolCalls.map (·.callId)

/-- A batch at the head of its loop: its results are those of the calls before. -/
structure Batch (lastTurn : Option ModelTurn) (pending : PendingApproval) : Prop where
  prepared : pending.prepared = none
  turn : ∃ turn, lastTurn = some turn ∧ pending.toolCalls = turn.toolCalls
  index : pending.nextIndex ≤ pending.toolCalls.length
  results : pending.results.map (·.callId) =
    (pending.toolCalls.take pending.nextIndex).map (·.callId)

/-- A batch that waits for the approval of its next call. -/
structure Awaits (s : AgentSession) (pending : PendingApproval) : Prop where
  batch : Batch s.lastTurn { pending with prepared := none }
  next : pending.toolCalls[pending.nextIndex]? = some pending.modelCall
  prepared : pending.prepared.isSome = true
  bracket : At (.within pending.modelCall.callId) s
  unrecorded : s.failureRecorded = false
  turn : s.currentTurnId.isSome = true

/-- What holds of a session that goes on with a call in tail position. -/
def Continues (s : AgentSession) : Next → Prop
  | .respond _ inputs => At .idle s ∧ s.failureRecorded = false ∧ s.state = .running ∧
      Answers (s.lastTurn, inputs)
  | .batch _ pending => Live s .idle s ∧ Batch s.lastTurn pending
  | .outcome _ => s.state = .completed ∧ ∃ b, At b s
  | .pause _ => s.state = .waitingApproval ∧ ∃ pending, s.pending = some pending ∧ Awaits s pending

/-- What holds of a session between the calls of its host. -/
def Rests (s : AgentSession) : Prop :=
  match s.state with
  | .ready => s.failureRecorded = false ∧ s.lastTurn = none ∧ ∃ b, At b s
  | .waitingApproval => ∃ pending, s.pending = some pending ∧ Awaits s pending
  | _ => ∃ b, At b s

/-- The counts of a session are within its limits, and every model call had its answers. -/
structure Counted (limits : AgentLimits) (s : AgentSession) : Prop where
  unchanged : s.limits = limits
  modelTurns : s.modelTurns ≤ limits.maxModelTurns
  toolCalls : s.toolCalls ≤ limits.maxToolCalls
  asked : s.asked.length ≤ s.modelTurns
  dispatched : s.dispatched.length = s.toolCalls
  answers : ∀ call ∈ s.asked, Answers call

/-- What holds after every step. -/
structure SessionSound (limits : AgentLimits) (s : AgentSession) : Prop where
  counted : Counted limits s
  stage : match s.control with
    | some next => Continues s next
    | none => Rests s

variable {origin s t : AgentSession} {limits : AgentLimits}

lemma Counted.frame (h : Counted limits s) (hframe : Frame s t) : Counted limits t := by
  obtain ⟨hlimits, hlast, hturns, hcalls, hasked, hdispatched⟩ := hframe
  refine ⟨hlimits.trans h.unchanged, hturns ▸ h.modelTurns, hcalls ▸ h.toolCalls, ?_, ?_, ?_⟩
  · rw [hasked, hturns]
    exact h.asked
  · rw [hdispatched, hcalls]
    exact h.dispatched
  · rw [hasked]
    exact h.answers

/-- The work of a step: it goes on or fails, and the counts hold. -/
def Works (limits : AgentLimits) (body : SessionM Next) (s : AgentSession) : Prop :=
  wp body (fun next t => Counted limits t ∧ Continues t next)
    (fun e t => Counted limits t ∧ ∃ origin, Stopped origin e t) s

lemma Stopped.rests {e : SessionError} (h : Stopped origin e s) : Rests s := by
  have hready := h.ready
  have hwaiting := h.waiting
  rw [Rests]
  cases hstate : s.state with
  | ready => exact absurd hstate hready
  | waitingApproval => exact absurd hstate hwaiting
  | _ => exact h.bracket

lemma Continues.rests {next : Next} (h : Continues s next)
    (hnext : (∃ outcome, next = .outcome outcome) ∨ ∃ pause, next = .pause pause) : Rests s := by
  rcases hnext with ⟨outcome, rfl⟩ | ⟨pause, rfl⟩
  · rw [Rests, h.1]
    exact h.2
  · rw [Rests, h.1]
    exact h.2

/-- Which call is in progress does not matter to what holds of the rest. -/
lemma Counted.control (h : Counted limits s) (control : Option Next) :
    Counted limits { s with control := control } :=
  ⟨h.unchanged, h.modelTurns, h.toolCalls, h.asked, h.dispatched, h.answers⟩

lemma Live.control {b : Bracket String} (h : Live s b s) (control : Option Next) :
    Live { s with control := control } b { s with control := control } :=
  ⟨h.bracket, h.unrecorded, h.running, h.turn, Frame.refl _⟩

lemma Rests.control (h : Rests s) (control : Option Next) :
    Rests { s with control := control } := by
  unfold Rests at h ⊢
  cases hstate : s.state with
  | waitingApproval =>
      simp only [hstate] at h ⊢
      obtain ⟨pending, hpending, hawaits⟩ := h
      exact ⟨pending, hpending, hawaits.batch, hawaits.next, hawaits.prepared, hawaits.bracket,
        hawaits.unrecorded, hawaits.turn⟩
  | _ =>
      simp only [hstate] at h ⊢
      exact h

/-- A step whose work is done leaves a sound session. -/
lemma Works.sound {body : SessionM Next} (h : Works limits body s) :
    SessionSound limits (settle body s) := by
  rw [Works, wp] at h
  rw [settle]
  cases hbody : body s with
  | error e t =>
      rw [hbody] at h
      obtain ⟨hcounted, origin, hstopped⟩ := h
      exact ⟨hcounted.control none, hstopped.rests.control none⟩
  | ok next t =>
      rw [hbody] at h
      obtain ⟨hcounted, hcontinues⟩ := h
      cases next with
      | outcome outcome =>
          exact ⟨hcounted.control none, (hcontinues.rests (Or.inl ⟨_, rfl⟩)).control none⟩
      | pause pause =>
          exact ⟨hcounted.control none, (hcontinues.rests (Or.inr ⟨_, rfl⟩)).control none⟩
      | respond guarded inputs => exact ⟨hcounted.control _, hcontinues⟩
      | batch guarded pending =>
          exact ⟨hcounted.control _, Live.control hcontinues.1 _, hcontinues.2⟩

section Handlers

/-- The handler of a turn keeps the promise of what it handles. -/
lemma Works.recordingFailures {body : SessionM Next} (h : Works limits body s) :
    Works limits (AgentSession.recordingFailures body) s := by
  rw [Works, AgentSession.recordingFailures, wp_bind, wp_caught]
  refine wp_mono h (fun next t ht => ht) fun e t herror => ?_
  obtain ⟨hcounted, origin, hstopped⟩ := herror
  cases e with
  | tool exception => exact ⟨hcounted, origin, hstopped⟩
  | agent kind message =>
      by_cases hkind : kind = .recording
      · subst hkind
        exact ⟨hcounted, origin, hstopped⟩
      · have hhandled : wp (do
            recordExecutionFailure kind.className message
            throw (.agent kind message) : SessionM Next)
            (fun next t => Counted limits t ∧ Continues t next)
            (fun e t => Counted limits t ∧ ∃ origin, Stopped origin e t) t := by
          rw [wp_bind, recordExecutionFailure, wp_bind, wp_get]
          split_ifs with hrecorded
          · rw [wp_pure, wp_throw]
            exact ⟨hcounted, origin, hstopped⟩
          · have hunrecorded : t.failureRecorded = false := by simpa using hrecorded
            have hidle := hstopped.unrecorded kind message rfl hkind hunrecorded
            rw [wp_bind, wp_modify, wp_emit]
            constructor
            · intro _
              refine ⟨⟨hcounted.unchanged, hcounted.modelTurns, hcounted.toolCalls, hcounted.asked,
                hcounted.dispatched, hcounted.answers⟩, _, ⟨⟨.idle, hidle⟩, by simp, by simp, ?_,
                Frame.refl _⟩⟩
              intro other text he hother
              cases he
              exact absurd rfl hother
            · intro _
              rw [wp_throw]
              refine ⟨⟨hcounted.unchanged, hcounted.modelTurns, hcounted.toolCalls, hcounted.asked,
                hcounted.dispatched, hcounted.answers⟩, _, ⟨⟨.finished, hidle.emitted rfl _⟩,
                hstopped.ready, hstopped.waiting, ?_, Frame.refl _⟩⟩
              intro other text he hother hnot
              cases hnot
        cases kind with
        | recording => exact absurd rfl hkind
        | _ => exact hhandled

lemma Works.handled {body : SessionM Next} (h : Works limits body s) (guarded : Bool) :
    Works limits (AgentSession.handled guarded body) s := by
  cases guarded with
  | false => exact h
  | true => exact h.recordingFailures

end Handlers

section Rounds

/-- The specification of a part of a step, whose failures stop the session, as work. -/
lemma works_of_wp {body : SessionM Next} (hcounted : Counted limits origin)
    (h : wp body (fun next t => Frame origin t ∧ Continues t next) (Stopped origin) s) :
    Works limits body s :=
  wp_mono h (fun _ _ ht => ⟨hcounted.frame ht.1, ht.2⟩)
    fun _ _ herror => ⟨hcounted.frame herror.frame, origin, herror⟩

lemma Live.rebase {b : Bracket String} (h : Live origin b s) : Live s b s :=
  ⟨h.bracket, h.unrecorded, h.running, h.turn, Frame.refl s⟩

/-- The result of the next call moves a batch on. -/
lemma Batch.advance {lastTurn : Option ModelTurn} {pending : PendingApproval}
    (h : Batch lastTurn { pending with prepared := none }) {call : ModelToolCall}
    (hcall : pending.toolCalls[pending.nextIndex]? = some call) {result : ModelToolResult}
    (hresult : result.callId = call.callId) :
    Batch lastTurn (AgentSession.advance pending result) := by
  obtain ⟨hindex, hget⟩ := List.getElem?_eq_some_iff.mp hcall
  refine ⟨rfl, h.turn, hindex, ?_⟩
  have hresults := h.results
  simp only at hresults
  simp only [AgentSession.advance, List.map_append, hresults, List.take_add_one, hcall,
    List.map_singleton, hresult, Option.toList_some]

/-- What a round comes to once its call's bracket is closed. -/
lemma Live.advanced (h : Live origin .idle s) {pending : PendingApproval}
    (hbatch : Batch origin.lastTurn { pending with prepared := none }) {call : ModelToolCall}
    (hcall : pending.toolCalls[pending.nextIndex]? = some call) {result : ModelToolResult}
    (hresult : result.callId = call.callId) (guarded : Bool) :
    Frame origin s ∧ Continues s (.batch guarded (AgentSession.advance pending result)) := by
  refine ⟨h.frame, h.rebase, ?_⟩
  rw [h.frame.lastTurn]
  exact hbatch.advance hcall hresult

/-- The pause for an approval. -/
lemma Live.requestApproval {pending : PendingApproval} {call : ModelToolCall}
    (h : Live origin (.within call.callId) s)
    (hbatch : Batch origin.lastTurn { pending with prepared := none })
    (hcall : pending.toolCalls[pending.nextIndex]? = some call) (prepared : PreparedCall)
    (fresh : String) :
    wp (AgentSession.requestApproval pending call prepared fresh)
      (fun next t => Frame origin t ∧ Continues t next) (Stopped origin) s := by
  rw [AgentSession.requestApproval, wp_bind]
  refine wp_mono (h.toolEventContext call fresh) (fun context t ht => ?_) fun _ _ herror => herror
  rw [wp_bind]
  refine wp_mono (ht.1.emit rfl) (fun _ u hu => ?_) fun _ _ herror => herror
  rw [wp_bind, wp_modify, wp_bind, wp_get, wp_pure]
  refine ⟨⟨hu.frame.limits, hu.frame.lastTurn, hu.frame.modelTurns, hu.frame.toolCalls,
    hu.frame.asked, hu.frame.dispatched⟩, rfl, _, rfl, ⟨?_, hcall, rfl, hu.bracket, hu.unrecorded,
    hu.turn⟩⟩
  simp only [hu.frame.lastTurn]
  exact ⟨rfl, hbatch.turn, hbatch.index, hbatch.results⟩

/-- The dispatcher's exceptions in a round, but the one that asks for an approval. -/
lemma Live.failedCall {pending : PendingApproval} {call : ModelToolCall}
    (h : Live origin (.within call.callId) s)
    (hbatch : Batch origin.lastTurn { pending with prepared := none })
    (hcall : pending.toolCalls[pending.nextIndex]? = some call) (guarded : Bool)
    (fresh stage failureStage : String) (exc : ToolException) (otherwise : SessionM Next)
    (hother : wp otherwise (fun next t => Frame origin t ∧ Continues t next) (Stopped origin) s) :
    wp (if exc.isInternal then do
          emitNonrecoverableToolFailure call fresh stage exc
          failInternalTool exc
        else if exc.isRecoverable then do
          let result ← AgentSession.recoverableResult call fresh failureStage exc
          return .batch guarded (AgentSession.advance pending result)
        else otherwise)
      (fun next t => Frame origin t ∧ Continues t next) (Stopped origin) s := by
  split_ifs
  · exact h.failCall rfl fresh stage exc
  · rw [wp_bind]
    exact wp_mono (h.recoverableResult rfl fresh failureStage exc)
      (fun _ t ht => ht.2.advanced hbatch hcall ht.1 guarded) fun _ _ herror => herror
  · exact hother

lemma Live.executeCall {pending : PendingApproval} {call : ModelToolCall}
    (h : Live origin (.within call.callId) s)
    (hbatch : Batch origin.lastTurn { pending with prepared := none })
    (hcall : pending.toolCalls[pending.nextIndex]? = some call) (guarded : Bool)
    (prepared : PreparedCall) (fresh : String) (executed : Except ToolException Observation) :
    wp (AgentSession.executeCall guarded pending call prepared fresh executed)
      (fun next t => Frame origin t ∧ Continues t next) (Stopped origin) s := by
  rw [AgentSession.executeCall, wp_bind, wp_caught]
  refine wp_mono (h.executePrepared rfl prepared false fresh executed)
    (fun result t ht => ht.2.advanced hbatch hcall ht.1 guarded) fun e t herror => ?_
  cases e with
  | agent kind message => exact herror
  | tool exc =>
      have hlive : Live origin (.within call.callId) t := herror
      have hraised : wp (throw (.tool exc) : SessionM Next)
          (fun next t => Frame origin t ∧ Continues t next) (Stopped origin) t := hlive.raised exc
      have hfailed := hlive.failedCall hbatch hcall guarded fresh "execute"
        (exc.failureStage "execute") exc _ hraised
      cases exc with
      | other className message => exact hfailed
      | tool kind message =>
          cases kind with
          | approvalRequired => exact hlive.requestApproval hbatch hcall prepared fresh
          | _ => exact hfailed

/-- The first half of a round, for a call that the limit admits. -/
lemma Live.prepareCall {pending : PendingApproval} {call : ModelToolCall}
    (h : Live s (.within call.callId) s) (hcounted : Counted limits s)
    (hbatch : Batch s.lastTurn { pending with prepared := none })
    (hcall : pending.toolCalls[pending.nextIndex]? = some call)
    (hlimit : limits.maxToolCalls ≤ s.toolCalls → s.sink.head? = some false) (guarded : Bool)
    (fresh : String) (prepared : Except ToolException PreparedCall)
    (executed : Except ToolException Observation) :
    Works limits (AgentSession.prepareCall guarded pending call fresh prepared executed) s := by
  rw [Works, AgentSession.prepareCall.eq_def, wp_bind, wp_get, hcounted.unchanged]
  split_ifs with hfull
  · exact works_of_wp hcounted (h.failWith (Or.inr (hlimit hfull)) _ _)
  · rw [wp_bind, wp_modify]
    have hcounted' : Counted limits { s with
        toolCalls := s.toolCalls + 1
        dispatched := s.dispatched ++ [call] } := by
      refine ⟨hcounted.unchanged, hcounted.modelTurns, by simp only; omega, hcounted.asked, ?_,
        hcounted.answers⟩
      rw [List.length_append, hcounted.dispatched, List.length_singleton]
    have hlive : Live { s with
        toolCalls := s.toolCalls + 1
        dispatched := s.dispatched ++ [call] } (.within call.callId) { s with
        toolCalls := s.toolCalls + 1
        dispatched := s.dispatched ++ [call] } :=
      ⟨h.bracket, h.unrecorded, h.running, h.turn, Frame.refl _⟩
    cases prepared with
    | ok prepared =>
        exact works_of_wp hcounted' (hlive.executeCall hbatch hcall guarded prepared fresh executed)
    | error exc =>
        exact works_of_wp hcounted' (hlive.failedCall hbatch hcall guarded fresh "prepare"
          (exc.failureStage "prepare") exc _ (hlive.failCall rfl fresh "prepare" exc))

/-- The end of a turn, announced. -/
lemma Live.emitTurnCompleted (h : Live origin .idle s) :
    wp AgentSession.emitTurnCompleted (fun _ => Live origin .idle) (Stopped origin) s := by
  rw [AgentSession.emitTurnCompleted, wp_bind, wp_get]
  cases s.currentTurnId with
  | none => exact h
  | some turnId => exact h.emit rfl

/-- One round over the calls of a turn. -/
lemma continueToolBatch_works {pending : PendingApproval} (h : Live s .idle s)
    (hcounted : Counted limits s) (hbatch : Batch s.lastTurn pending) (cancelled : Bool)
    (hlimit : pending.nextIndex < pending.toolCalls.length → cancelled = false →
      limits.maxToolCalls ≤ s.toolCalls →
      s.sink.head? = some false ∨ s.sink.tail.head? = some false)
    (guarded : Bool) (fresh : String) (prepared : Except ToolException PreparedCall)
    (executed : Except ToolException Observation) :
    Works limits (continueToolBatch guarded pending cancelled fresh prepared executed) s := by
  rw [continueToolBatch]
  cases hcall : pending.toolCalls[pending.nextIndex]? with
  | none =>
      simp only
      refine works_of_wp hcounted ?_
      rw [wp_bind]
      refine wp_mono h.emitTurnCompleted (fun _ t ht => ?_) fun _ _ herror => herror
      obtain ⟨turn, hturn, hcalls⟩ := hbatch.turn
      have hresults := hbatch.results
      rw [List.take_of_length_le (List.getElem?_eq_none_iff.mp hcall), hcalls] at hresults
      refine ⟨ht.frame, ht.bracket, ht.unrecorded, ht.running, ?_⟩
      rw [ht.frame.lastTurn, hturn]
      exact ⟨pending.results, rfl, hresults⟩
  | some call =>
      simp only
      have hindex := (List.getElem?_eq_some_iff.mp hcall).1
      cases cancelled with
      | true =>
          refine works_of_wp hcounted ?_
          rw [wp_bind]
          exact h.failWith (Or.inl rfl) _ _
      | false =>
          rw [Works, wp_bind, checkCancel, if_neg Bool.false_ne_true, wp_pure, wp_bind]
          refine wp_mono (h.toolEventContext call fresh) (fun context t ht => ?_)
            fun e t herror => ⟨hcounted.frame herror.frame, s, herror⟩
          obtain ⟨hlive, hsink⟩ := ht
          rw [hbatch.prepared]
          simp only
          rw [wp_bind, wp_emit]
          constructor
          · intro _
            exact ⟨(hcounted.frame hlive.frame).frame ⟨rfl, rfl, rfl, rfl, rfl, rfl⟩, s,
              hlive.refused⟩
          · intro htaken
            have hopened : Live s (.within call.callId) { t with
                sink := t.sink.tail
                events := t.events ++ [⟨t.executionId, .toolRequested context.1 context.2.1
                  context.2.2 call.callId call.name call.arguments⟩] } :=
              ⟨hlive.bracket.emitted rfl t.executionId, hlive.unrecorded, hlive.running, hlive.turn,
                ⟨hlive.frame.limits, hlive.frame.lastTurn, hlive.frame.modelTurns,
                  hlive.frame.toolCalls, hlive.frame.asked, hlive.frame.dispatched⟩⟩
            refine hopened.rebase.prepareCall (hcounted.frame hopened.frame) ?_ hcall ?_ guarded
              fresh prepared executed
            · rw [hopened.frame.lastTurn]
              exact ⟨rfl, hbatch.turn, hbatch.index, hbatch.results⟩
            · intro hfull
              rw [hopened.frame.toolCalls] at hfull
              rw [hsink] at htaken
              simp only [hsink]
              exact (hlimit hindex rfl hfull).resolve_left htaken

end Rounds

section Turns

lemma complete_works (h : Live s .idle s) (hcounted : Counted limits s) (finalText : String) :
    Works limits (complete finalText) s := by
  rw [Works, complete, wp_bind]
  refine wp_mono h.emitTurnCompleted (fun _ t ht => ?_)
    fun e t herror => ⟨hcounted.frame herror.frame, s, herror⟩
  rw [wp_bind, wp_get, wp_bind, wp_emit]
  have hcounted' := hcounted.frame ht.frame
  constructor
  · intro _
    exact ⟨hcounted'.frame ⟨rfl, rfl, rfl, rfl, rfl, rfl⟩, s, ht.refused⟩
  · intro _
    rw [wp_bind, setState, wp_modify, wp_pure]
    exact ⟨hcounted'.frame ⟨rfl, rfl, rfl, rfl, rfl, rfl⟩, rfl, .finished,
      ht.bracket.emitted rfl t.executionId⟩

/-- A turn that says nothing the session goes on with. -/
lemma Live.stopWith (h : Live s .idle s) (hcounted : Counted limits s) (kind : AgentErrorKind)
    (message : String) :
    Works limits (do setState .failed; throw (.agent kind message)) s := by
  rw [Works, wp_bind, setState, wp_modify, wp_throw]
  refine ⟨hcounted.frame ⟨rfl, rfl, rfl, rfl, rfl, rfl⟩, s, ⟨.idle, h.bracket⟩, by simp, by simp,
    fun _ _ _ _ _ => h.bracket, ⟨rfl, rfl, rfl, rfl, rfl, rfl⟩⟩

lemma processTurn_works (h : Live s .idle s) (hcounted : Counted limits s) {turn : ModelTurn}
    (hturn : s.lastTurn = some turn) : Works limits (processTurn turn) s := by
  have hfail (message : String) : Works limits (failProtocol message) s :=
    works_of_wp hcounted (h.failWith (Or.inl rfl) _ _)
  rw [processTurn]
  split
  · rename_i first rest hcalls
    split_ifs
    · exact hfail _
    · exact ⟨hcounted, h, rfl, ⟨turn, hturn, rfl⟩, Nat.zero_le _, rfl⟩
  · split
    · split_ifs
      · exact hfail _
      · exact complete_works h hcounted turn.text
    · exact hfail _
    · exact h.stopWith hcounted _ _
    · exact h.stopWith hcounted _ _
    · exact hfail _

/-- A recorded failure, and the exception that follows it. -/
lemma failed_works (hbracket : At .idle s) (hunrecorded : s.failureRecorded = false)
    (hstate : s.state = .failed) (hcounted : Counted limits s) (errorType message : String)
    (kind : AgentErrorKind) (raised : String) :
    Works limits (do
      recordExecutionFailure errorType message
      throw (.agent kind raised)) s := by
  rw [Works, wp_bind]
  refine wp_mono (recordExecutionFailure_spec hbracket hunrecorded (Frame.refl s) _ _)
    (fun _ t ht => ?_) fun e t herror => ⟨hcounted.frame herror.frame, s, herror⟩
  obtain ⟨hover, hrecorded, hfailed, hframe⟩ := ht
  rw [wp_throw]
  refine ⟨hcounted.frame hframe, s, ⟨.finished, hover⟩, by simp [hfailed, hstate],
    by simp [hfailed, hstate], fun _ _ _ _ hnot => ?_, hframe⟩
  rw [hrecorded] at hnot
  cases hnot

/-- What the model's reply comes to. -/
lemma receive_works (h : Live s .idle s) (hcounted : Counted limits s) (turnIndex : ℤ)
    (turnId itemId : String) (reply : ModelReply) :
    Works limits (receive turnIndex turnId itemId reply) s := by
  cases reply with
  | recordingError message =>
      exact ⟨hcounted, s, ⟨.idle, h.bracket⟩, by simp [h.running], by simp [h.running],
        fun _ _ _ _ _ => h.bracket, Frame.refl s⟩
  | raises className message =>
      rw [Works, receive, wp_bind, setState, wp_modify, wp_bind, wp_emit]
      constructor
      · intro _
        refine ⟨hcounted.frame ⟨rfl, rfl, rfl, rfl, rfl, rfl⟩, s, ⟨.idle, h.bracket⟩, by simp,
          by simp, fun _ _ _ _ _ => h.bracket, ⟨rfl, rfl, rfl, rfl, rfl, rfl⟩⟩
      · intro _
        have hidle : At .idle { s with
            state := .failed
            sink := s.sink.tail
            events := s.events ++ [⟨s.executionId,
              .modelFailed turnIndex turnId itemId className (clip message)⟩] } :=
          h.bracket.emitted rfl s.executionId
        exact failed_works hidle h.unrecorded rfl
          (hcounted.frame ⟨rfl, rfl, rfl, rfl, rfl, rfl⟩) _ _ _ _
  | notATurn =>
      rw [Works, receive, wp_bind]
      refine wp_mono (h.emit rfl) (fun _ t ht => ?_)
        fun e t herror => ⟨hcounted.frame herror.frame, s, herror⟩
      exact works_of_wp (hcounted.frame ht.frame) (ht.rebase.failWith (Or.inl rfl) _ _)
  | turn turn =>
      rw [Works, receive, wp_bind, accountUsage, wp_modify, wp_bind, wp_modify, wp_bind]
      have hafter {u : AgentSession} (hu : Live u .idle u) (hcounted : Counted limits u) :
          wp (emit (.modelCompleted turnIndex turnId itemId turn.text turn.toolCalls
              turn.stopReason.value turn.usage))
            (fun _ t => Works limits (recordingFailures (processTurn turn)) t)
            (fun e t => Counted limits t ∧ ∃ origin, Stopped origin e t)
            { u with lastTurn := some turn } := by
        have hlive : Live { u with lastTurn := some turn } .idle
            { u with lastTurn := some turn } :=
          ⟨hu.bracket, hu.unrecorded, hu.running, hu.turn, Frame.refl _⟩
        have hcounted' : Counted limits { u with lastTurn := some turn } :=
          ⟨hcounted.unchanged, hcounted.modelTurns, hcounted.toolCalls, hcounted.asked,
            hcounted.dispatched, hcounted.answers⟩
        refine wp_mono (hlive.emit rfl) (fun _ t ht => ?_)
          fun e t herror => ⟨hcounted'.frame herror.frame, _, herror⟩
        exact (processTurn_works ht.rebase (hcounted'.frame ht.frame)
          ht.frame.lastTurn).recordingFailures
      have hcounts (cost : Option PyFloat) (complete : Bool) :
          Live { s with
            inputTokens := s.inputTokens + turn.usage.inputTokens
            outputTokens := s.outputTokens + turn.usage.outputTokens
            costUsd := cost
            costComplete := complete } .idle { s with
            inputTokens := s.inputTokens + turn.usage.inputTokens
            outputTokens := s.outputTokens + turn.usage.outputTokens
            costUsd := cost
            costComplete := complete } :=
        ⟨h.bracket, h.unrecorded, h.running, h.turn, Frame.refl _⟩
      cases turn.usage.costUsd with
      | none =>
          exact hafter (hcounts none false) (hcounted.frame ⟨rfl, rfl, rfl, rfl, rfl, rfl⟩)
      | some cost =>
          simp only
          split_ifs
          · exact hafter (hcounts _ s.costComplete)
              (hcounted.frame ⟨rfl, rfl, rfl, rfl, rfl, rfl⟩)
          · exact hafter (hcounts s.costUsd s.costComplete)
              (hcounted.frame ⟨rfl, rfl, rfl, rfl, rfl, rfl⟩)

/-- A model turn. -/
lemma respond_works (hbracket : At .idle s) (hunrecorded : s.failureRecorded = false)
    (hrunning : s.state = .running) (hcounted : Counted limits s)
    {inputs : List ModelInputItem} (hanswers : Answers (s.lastTurn, inputs)) (cancelled : Bool)
    (reply : ModelReply) (turnId itemId : String) :
    Works limits (respond inputs cancelled reply turnId itemId) s := by
  rw [Works, respond, wp_bind]
  have hfail {α : Type} (kind : AgentErrorKind) (message : String) {Q : α → AgentSession → Prop} :
      wp (failWith kind message) Q
        (fun e t => Counted limits t ∧ ∃ origin, Stopped origin e t) s :=
    wp_mono (failWith_spec hbracket (Or.inl rfl) hunrecorded (Frame.refl s) kind message)
      (fun _ _ ht => ht) fun e t herror => ⟨hcounted.frame herror.frame, s, herror⟩
  cases cancelled with
  | true => exact hfail _ _
  | false =>
      rw [checkCancel, if_neg Bool.false_ne_true, wp_pure, wp_bind, wp_get, hcounted.unchanged]
      split_ifs with hfull
      · exact hfail _ _
      · rw [wp_bind, wp_modify]
        have hasked := hcounted.asked
        have hcounted' : Counted limits { s with
            modelTurns := s.modelTurns + 1
            currentTurnId := some turnId
            currentModelItemId := some itemId } :=
          ⟨hcounted.unchanged, by simp only; omega, hcounted.toolCalls, by simp only; omega,
            hcounted.dispatched, hcounted.answers⟩
        have hlive : Live { s with
            modelTurns := s.modelTurns + 1
            currentTurnId := some turnId
            currentModelItemId := some itemId } .idle { s with
            modelTurns := s.modelTurns + 1
            currentTurnId := some turnId
            currentModelItemId := some itemId } :=
          ⟨hbracket, hunrecorded, hrunning, rfl, Frame.refl _⟩
        rw [wp_bind]
        refine wp_mono (hlive.emit rfl) (fun _ t ht => ?_)
          fun e t herror => ⟨hcounted'.frame herror.frame, _, herror⟩
        rw [wp_bind]
        refine wp_mono (ht.emit rfl) (fun _ t ht => ?_)
          fun e t herror => ⟨hcounted'.frame herror.frame, _, herror⟩
        rw [wp_bind, wp_modify]
        have hturns : t.modelTurns = s.modelTurns + 1 := ht.frame.modelTurns
        have hsame : t.asked = s.asked := ht.frame.asked
        have hlast : t.lastTurn = s.lastTurn := ht.frame.lastTurn
        have hframed := hcounted'.frame ht.frame
        have hcounted'' : Counted limits { t with asked := t.asked ++ [(t.lastTurn, inputs)] } := by
          refine ⟨hframed.unchanged, hframed.modelTurns, hframed.toolCalls, ?_, hframed.dispatched,
            ?_⟩
          · simp only [List.length_append, List.length_singleton, hsame, hturns]
            omega
          · intro call hcall
            rcases List.mem_append.mp hcall with hcall | hcall
            · exact hframed.answers call hcall
            · rw [List.mem_singleton.mp hcall, hlast]
              exact hanswers
        have hlive' : Live { t with asked := t.asked ++ [(t.lastTurn, inputs)] } .idle
            { t with asked := t.asked ++ [(t.lastTurn, inputs)] } :=
          ⟨ht.bracket, ht.unrecorded, ht.running, ht.turn, Frame.refl _⟩
        exact receive_works hlive' hcounted'' _ _ _ reply

end Turns

section Calls

/-- The host's first call. -/
lemma start_works (hrests : Rests s) (hcounted : Counted limits s) (task : String)
    (opened : Opened)
    (hfresh : s.state = .ready → blankText task = false → s.sink.head? ≠ some false →
      s.events = []) :
    wp (start task opened) (fun next t => Counted limits t ∧ Continues t next)
      (fun _ t => Counted limits t ∧ Rests t) s := by
  rw [start.eq_def, wp_bind, wp_get]
  split_ifs with hstate hblank
  · exact ⟨hcounted, hrests⟩
  · exact ⟨hcounted, hrests⟩
  · have hready := not_not.mp hstate
    rw [Rests, hready] at hrests
    obtain ⟨hunrecorded, hlast, b, hbracket⟩ := hrests
    rw [wp_bind, wp_emit]
    refine ⟨?_, ?_⟩
    · intro _
      exact ⟨hcounted.frame ⟨rfl, rfl, rfl, rfl, rfl, rfl⟩, b, hbracket⟩
    · intro htaken
      have hempty := hfresh hready (by simpa using hblank) htaken
      have hidle : At .idle { s with
          sink := s.sink.tail
          events := s.events ++ [⟨s.executionId, .executionStarted task⟩] } := by
        rw [At, hempty]
        rfl
      have hcounted' : Counted limits { s with
          sink := s.sink.tail
          events := s.events ++ [⟨s.executionId, .executionStarted task⟩] } :=
        hcounted.frame ⟨rfl, rfl, rfl, rfl, rfl, rfl⟩
      cases opened with
      | recordingError message =>
          refine ⟨hcounted', ?_⟩
          simp only [Rests, hready]
          exact ⟨hunrecorded, hlast, .idle, hidle⟩
      | raises className message =>
          simp only
          rw [wp_bind, setState, wp_modify]
          have hidle' : At .idle { s with
              sink := s.sink.tail
              events := s.events ++ [⟨s.executionId, .executionStarted task⟩]
              state := .failed } := hidle
          refine wp_mono (failed_works hidle' hunrecorded rfl
            (hcounted'.frame ⟨rfl, rfl, rfl, rfl, rfl, rfl⟩) _ _ _ _)
            (fun _ _ ht => ht) fun _ t herror => ⟨herror.1, ?_⟩
          obtain ⟨-, origin, hstopped⟩ := herror
          exact hstopped.rests
      | invalid =>
          exact wp_mono (failWith_spec hidle (Or.inl rfl) hunrecorded (Frame.refl _) _ _)
            (fun _ _ ht => ht) fun _ t herror => ⟨hcounted'.frame herror.frame, herror.rests⟩
      | session =>
          simp only
          rw [wp_bind, setState, wp_modify, wp_pure]
          refine ⟨hcounted'.frame ⟨rfl, rfl, rfl, rfl, rfl, rfl⟩, hidle, hunrecorded, rfl, ?_⟩
          simp only [hlast]
          exact ⟨task, rfl⟩

/-- The execution of an approved call closes its bracket or stops the session. -/
lemma Live.executeApproved {pending : PendingApproval}
    (h : Live origin (.within pending.modelCall.callId) s) (prepared : PreparedCall)
    (fresh : String) (executed : Except ToolException Observation) :
    wp (AgentSession.executeApproved pending prepared fresh executed)
      (fun result t => result.callId = pending.modelCall.callId ∧ Live origin .idle t)
      (Stopped origin) s := by
  rw [AgentSession.executeApproved, wp_bind, wp_caught]
  refine wp_mono (h.executePrepared rfl prepared true fresh executed) (fun _ t ht => ht)
    fun e t herror => ?_
  cases e with
  | agent kind message => exact herror
  | tool exc =>
      have hlive : Live origin (.within pending.modelCall.callId) t := herror
      have hfailed : wp (if exc.isInternal then do
            emitNonrecoverableToolFailure pending.modelCall fresh "execute" exc
            failInternalTool exc
          else if exc.isRecoverable then
            AgentSession.recoverableResult pending.modelCall fresh "execute" exc
          else throw (.tool exc))
          (fun result t => result.callId = pending.modelCall.callId ∧ Live origin .idle t)
          (Stopped origin) t := by
        split_ifs
        · exact hlive.failCall rfl fresh "execute" exc
        · exact hlive.recoverableResult rfl fresh "execute" exc
        · exact hlive.raised exc
      cases exc with
      | other className message => exact hfailed
      | tool kind message =>
          cases kind with
          | approvalRequired => exact hlive.failCall rfl fresh "approval" _
          | _ => exact hfailed

lemma Live.denyApproved {pending : PendingApproval}
    (h : Live origin (.within pending.modelCall.callId) s) (fresh : String) :
    wp (AgentSession.denyApproved pending fresh)
      (fun result t => result.callId = pending.modelCall.callId ∧ Live origin .idle t)
      (Stopped origin) s := by
  rw [AgentSession.denyApproved, wp_bind]
  refine wp_mono (h.emitToolFailed rfl _ _ _ _ _) (fun _ t ht => ?_) fun _ _ herror => herror
  rw [wp_bind]
  exact wp_mono ht.recordToolError (fun _ u hu => ⟨rfl, hu⟩) fun _ _ herror => herror

/-- The host's decision. -/
lemma resume_works (hrests : Rests s) (hcounted : Counted limits s) (decision : ApprovalDecision)
    (cancelled : Bool)
    (hcancel : s.state = .waitingApproval → cancelled = true → s.sink.head? = some false)
    (fresh : String) (executed : Except ToolException Observation) :
    wp (resume decision cancelled fresh executed)
      (fun next t => Counted limits t ∧ Continues t next)
      (fun _ t => Counted limits t ∧ Rests t) s := by
  rw [resume, wp_bind, wp_get]
  split
  · rename_i pending hstate hpending
    have hwaits := hrests
    rw [Rests, hstate] at hwaits
    obtain ⟨found, hfound, hawaits⟩ := hwaits
    rw [hpending] at hfound
    cases hfound
    rw [wp_bind]
    cases cancelled with
    | true =>
        exact wp_mono (failWith_spec hawaits.bracket (Or.inr (hcancel hstate rfl))
          hawaits.unrecorded (Frame.refl s) _ _) (fun _ _ ht => ht)
          fun _ t herror => ⟨hcounted.frame herror.frame, herror.rests⟩
    | false =>
        rw [checkCancel, if_neg Bool.false_ne_true, wp_pure]
        obtain ⟨prepared, hprepared⟩ := Option.isSome_iff_exists.mp hawaits.prepared
        rw [hprepared]
        simp only
        by_cases hmatch : decision.callId ≠ (approvalPause prepared s).callId ∨
            decision.fingerprint ≠ (approvalPause prepared s).approvalFingerprint ∨
            decision.sessionId ≠ (approvalPause prepared s).sessionId
        · rw [if_pos hmatch]
          exact ⟨hcounted, hrests⟩
        · rw [if_neg hmatch, wp_bind, wp_modify]
          have hlive : Live { s with pending := none, state := .running }
              (.within pending.modelCall.callId) { s with pending := none, state := .running } :=
            ⟨hawaits.bracket, hawaits.unrecorded, rfl, hawaits.turn, Frame.refl _⟩
          have hcounted' : Counted limits { s with pending := none, state := .running } :=
            hcounted.frame ⟨rfl, rfl, rfl, rfl, rfl, rfl⟩
          have hstop (e : SessionError) (t : AgentSession)
              (herror : Stopped { s with pending := none, state := .running } e t) :
              Counted limits t ∧ Rests t :=
            ⟨hcounted'.frame herror.frame, herror.rests⟩
          rw [wp_bind]
          refine wp_mono (hlive.toolEventContext _ fresh) (fun context t ht => ?_) hstop
          rw [wp_bind]
          refine wp_mono (ht.1.emit rfl) (fun _ u hu => ?_) hstop
          have hdone (result : ModelToolResult) (v : AgentSession)
              (hv : result.callId = pending.modelCall.callId ∧
                Live { s with pending := none, state := .running } .idle v) :
              Counted limits v ∧ Continues v (.batch false (advance pending result)) := by
            have hcontinues := hv.2.advanced hawaits.batch hawaits.next hv.1 false
            exact ⟨hcounted'.frame hcontinues.1, hcontinues.2⟩
          split_ifs
          · rw [wp_bind]
            exact wp_mono (hu.executeApproved prepared fresh executed) hdone hstop
          · rw [wp_bind]
            exact wp_mono (hu.denyApproved fresh) hdone hstop
  · exact ⟨hcounted, hrests⟩

end Calls

/-- A call of the host that leaves a session at rest, or one that goes on. -/
lemma sound_of_call {body : SessionM Next}
    (h : wp body (fun next t => Counted limits t ∧ Continues t next)
      (fun _ t => Counted limits t ∧ Rests t) s) : SessionSound limits (settle body s) := by
  rw [wp] at h
  cases hbody : body s with
  | error e t =>
      rw [hbody] at h
      rw [settle, hbody]
      exact ⟨h.1.control none, h.2.control none⟩
  | ok next t =>
      have hworks : Works limits body s := by
        rw [Works, wp, hbody]
        rw [hbody] at h
        exact h
      exact hworks.sound

/-- The step opens no bracket that its end, or the session's, leaves open: the execution
is announced once, is not cancelled while an approval is awaited, and requests no call
past the limit. What the sink refuses leaves no trace. -/
def Fits (s : AgentSession) : SessionEvent → Prop
  | .start sink task _ => s.control.isNone → s.state = .ready → blankText task = false →
      sink.head? ≠ some false → s.events.isEmpty
  | .resume sink _ cancelled _ _ => s.control.isNone → s.state = .waitingApproval →
      cancelled = true → sink.head? = some false
  | .turn .. => True
  | .round sink cancelled _ _ _ =>
      match s.control with
      | some (.batch _ pending) => pending.nextIndex < pending.toolCalls.length →
          cancelled = false → s.limits.maxToolCalls ≤ s.toolCalls →
          sink.head? = some false ∨ sink.tail.head? = some false
      | _ => True

instance (s : AgentSession) (event : SessionEvent) : Decidable (s.Fits event) := by
  cases event with
  | round sink cancelled itemId prepared executed =>
      rw [Fits]
      split <;> infer_instance
  | _ =>
      rw [Fits]
      infer_instance

lemma Counted.sink (h : Counted limits s) (sink : List Bool) :
    Counted limits { s with sink := sink } :=
  h.frame ⟨rfl, rfl, rfl, rfl, rfl, rfl⟩

lemma Rests.sink (h : Rests s) (sink : List Bool) : Rests { s with sink := sink } := by
  unfold Rests at h ⊢
  cases hstate : s.state with
  | waitingApproval =>
      simp only [hstate] at h ⊢
      obtain ⟨pending, hpending, hawaits⟩ := h
      exact ⟨pending, hpending, hawaits.batch, hawaits.next, hawaits.prepared, hawaits.bracket,
        hawaits.unrecorded, hawaits.turn⟩
  | _ =>
      simp only [hstate] at h ⊢
      exact h

/-- Every step that fits keeps a session sound. -/
theorem step_sound (h : SessionSound limits s) (event : SessionEvent) (hfits : s.Fits event) :
    SessionSound limits (s.step event) := by
  obtain ⟨hcounted, hstage⟩ := h
  cases event with
  | start sink task opened =>
      rw [step]
      split
      · rename_i hcontrol
        rw [hcontrol] at hstage
        refine sound_of_call (start_works (hstage.sink sink) (hcounted.sink sink) task opened ?_)
        intro hready hblank htaken
        exact List.isEmpty_iff.mp (hfits (by rw [hcontrol]; rfl) hready hblank htaken)
      · exact ⟨hcounted, hstage⟩
  | resume sink decision cancelled itemId executed =>
      rw [step]
      split
      · rename_i hcontrol
        rw [hcontrol] at hstage
        exact sound_of_call (resume_works (hstage.sink sink) (hcounted.sink sink) decision
          cancelled (hfits (by rw [hcontrol]; rfl)) itemId executed)
      · exact ⟨hcounted, hstage⟩
  | turn sink cancelled reply turnId itemId =>
      rw [step]
      split
      · rename_i guarded inputs hcontrol
        rw [hcontrol] at hstage
        obtain ⟨hbracket, hunrecorded, hrunning, hanswers⟩ := hstage
        have hworks := respond_works (s := { s with sink := sink }) hbracket hunrecorded hrunning
          (hcounted.sink sink) hanswers cancelled reply turnId itemId
        exact (hworks.handled guarded).sound
      · exact ⟨hcounted, hstage⟩
  | round sink cancelled itemId prepared executed =>
      rw [step]
      split
      · rename_i guarded pending hcontrol
        rw [hcontrol] at hstage
        obtain ⟨hlive, hbatch⟩ := hstage
        rw [Fits, hcontrol, hcounted.unchanged] at hfits
        have hlive' : Live { s with sink := sink } .idle { s with sink := sink } :=
          ⟨hlive.bracket, hlive.unrecorded, hlive.running, hlive.turn, Frame.refl _⟩
        exact ((continueToolBatch_works hlive' (hcounted.sink sink) hbatch cancelled hfits guarded
          itemId prepared executed).handled guarded).sound
      · exact ⟨hcounted, hstage⟩

lemma new_sound (limits : AgentLimits) (executionId sessionId : String) :
    SessionSound limits (AgentSession.new limits executionId sessionId) :=
  ⟨⟨rfl, Nat.zero_le _, Nat.zero_le _, le_rfl, rfl, by simp [AgentSession.new]⟩, rfl, rfl,
    .fresh, rfl⟩

lemma SessionSound.bracket (h : SessionSound limits s) : ∃ b, At b s := by
  have hstage := h.stage
  cases hcontrol : s.control with
  | none =>
      rw [hcontrol] at hstage
      unfold Rests at hstage
      cases hstate : s.state with
      | ready =>
          simp only [hstate] at hstage
          exact hstage.2.2
      | waitingApproval =>
          simp only [hstate] at hstage
          obtain ⟨pending, -, hawaits⟩ := hstage
          exact ⟨_, hawaits.bracket⟩
      | _ =>
          simp only [hstate] at hstage
          exact hstage
  | some next =>
      rw [hcontrol] at hstage
      cases next with
      | respond guarded inputs => exact ⟨_, hstage.1⟩
      | batch guarded pending => exact ⟨_, hstage.1.bracket⟩
      | outcome outcome => exact hstage.2
      | pause pause =>
          obtain ⟨-, pending, -, hawaits⟩ := hstage
          exact ⟨_, hawaits.bracket⟩

end AgentSession

/-- In a run whose steps all fit, the events are well ordered, the model is asked only with
the answers to its last turn, and the counts stay within the limits. -/
theorem session_events (limits : AgentLimits) (executionId sessionId : String)
    (events : List SessionEvent)
    (hfits : Machine.Meets AgentSession.step AgentSession.Fits
      (.new limits executionId sessionId) events) :
    let session := Machine.run AgentSession.step (.new limits executionId sessionId) events
    WellOrdered (marks session.events) ∧
      (∀ call ∈ session.asked, AgentSession.Answers call) ∧
      session.asked.length ≤ session.modelTurns ∧ session.modelTurns ≤ limits.maxModelTurns ∧
      session.dispatched.length = session.toolCalls ∧ session.toolCalls ≤ limits.maxToolCalls := by
  intro session
  have hsound : AgentSession.SessionSound limits session :=
    @Machine.Meets.invariant _ _ _ (AgentSession.SessionSound limits) _
      (fun _ event h hok => AgentSession.step_sound h event hok) _
      (AgentSession.new_sound limits executionId sessionId) _ hfits
  obtain ⟨b, hbracket⟩ := hsound.bracket
  exact ⟨wellOrdered_of_run hbracket, hsound.counted.answers, hsound.counted.asked,
    hsound.counted.modelTurns, hsound.counted.dispatched, hsound.counted.toolCalls⟩

section Samples

def sampleCall (callId : String) : ModelToolCall := ⟨callId, "read_file", .dict []⟩

/-- A turn with two tool calls. -/
def sampleTurn : ModelTurn := ⟨"", [sampleCall "a", sampleCall "b"], .toolUse, ⟨0, 0, none⟩⟩

def samplePrepared (callId : String) (effect : PermissionEffect) : PreparedCall :=
  ⟨callId, "read_file", "print", [], effect⟩

/-- The first call is allowed, the second waits for the user, who agrees. -/
def sampleEvents : List SessionEvent :=
  [.start [] "task" .session,
    .turn [] false (.turn sampleTurn) "turn-1" "item-1",
    .round [] false "item-2" (.ok (samplePrepared "a" .allow)) (.ok ⟨"text", .dict []⟩),
    .round [] false "item-3" (.ok (samplePrepared "b" .ask))
      (.error (.tool .approvalRequired "ask")),
    .resume [] ⟨"b", "print", true, "session"⟩ false "item-4" (.ok ⟨"text", .dict []⟩)]

theorem session_events_sample :
    Machine.Meets AgentSession.step AgentSession.Fits (.new {} "exec" "session") sampleEvents ∧
    WellOrdered (marks (Machine.run AgentSession.step (.new {} "exec" "session")
      sampleEvents).events) := by
  have hfits : Machine.Meets AgentSession.step AgentSession.Fits (.new {} "exec" "session")
      sampleEvents := by decide +kernel
  exact ⟨hfits, (session_events {} "exec" "session" sampleEvents hfits).1⟩

/-- With one tool call left, the second request of a turn stays open. -/
theorem session_limit_open :
    ¬ WellOrdered (marks (Machine.run AgentSession.step
      (.new { maxToolCalls := 1 } "exec" "session") sampleEvents).events) := by
  have hmarks : marks (Machine.run AgentSession.step
      (.new { maxToolCalls := 1 } "exec" "session") sampleEvents).events =
      [.started, .neutral, .neutral, .neutral, .opened "a", .neutral, .closed "a"] ++
        .opened "b" :: ([] ++ .ended :: []) := by
    decide +kernel
  intro h
  exact absurd (h.closed _ _ _ _ _ hmarks rfl nofun) (by simp)

end Samples

end Imece.AgentRuntime
