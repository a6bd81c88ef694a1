import Imece.RunRuntime.Writers

/-!
# Terminal statuses

Every writer but the unread parks reads the status it writes at, and leaves a run
that is over alone. In a run of the pool in which no unread park meets a finished
run, a terminal status never changes again.
-/
namespace Imece.RunRuntime

open Lib

/-- A store call of other components, whose events move no status. -/
abbrev NeutralCall := { call : RunStore.StoreCall // Neutral call.types }

def neutralCall (move : NeutralCall) (store : RunStore) : RunStore := after move.val.run store

/-- The event is a `run.waiting_user` asked for without a look at the status, by
`handle_legacy_event` or by `needs_user` at a given number that is not stale, on a
run that is over. -/
def parksFinished {κ : Type} (event : WriterEvent κ) : Bool :=
  match event.cause with
  | .access writer (.append runId types) =>
      writer.parksUnread && types.contains RunEventType.runWaitingUser.value &&
        (event.before.status runId).any RunStatus.isTerminal &&
        writer.givenSeq.all fun given => given.2 == (event.before.log given.1).length
  | _ => false

/-- A run that is over, with a given status. -/
structure EndedAs (runId : String) (status : RunStatus) (store : RunStore) : Prop where
  terminal : status.isTerminal = true
  shown : store.status runId = some status

lemma EndedAs.exist {runId : String} {status : RunStatus} {store : RunStore}
    (h : EndedAs runId status store) : (store.findRun runId).isSome := by
  have hshown := h.shown
  rw [RunStore.status, Option.map_eq_some_iff] at hshown
  obtain ⟨row, hrow, -⟩ := hshown
  simp [hrow]

lemma EndedAs.logTypes {runId : String} {status : RunStatus} {store : RunStore}
    (h : EndedAs runId status store) (hsound : store.Sound) :
    statusAfterTypes .created (store.logTypes runId) = status := by
  have hshown := h.shown
  rw [hsound.status_eq h.exist] at hshown
  exact Option.some.inj hshown

/-- A longer log whose new types leave the status alone keeps a finished run as it is. -/
lemma EndedAs.append {runId : String} {status : RunStatus} {store next : RunStore}
    (h : EndedAs runId status store) (hsound : store.Sound) (hgrows : RunStore.Grows store next)
    (types : List String) (hlog : next.logTypes runId = store.logTypes runId ++ types)
    (hsame : statusAfterTypes status types = status) : EndedAs runId status next where
  terminal := h.terminal
  shown := by
    rw [(hsound.grow hgrows).status_eq (hgrows.exist runId h.exist), hlog,
      statusAfterTypes_append, h.logTypes hsound, hsame]

lemma EndedAs.keep {runId : String} {status : RunStatus} {store next : RunStore}
    (h : EndedAs runId status store) (hsound : store.Sound) (hgrows : RunStore.Grows store next)
    (hlog : next.logTypes runId = store.logTypes runId) : EndedAs runId status next :=
  h.append hsound hgrows [] (by rw [hlog, List.append_nil]) rfl

/-- What a writer may write to a run that is over moves no status, unless it parks unread. -/
lemma Writer.Writes.ended {writer : Writer} {status : RunStatus} {types : List String}
    (h : writer.Writes status types) (hover : status.isTerminal = true) :
    statusAfterTypes status types = status ∨
      writer.parksUnread = true ∧ RunEventType.runWaitingUser.value ∈ types := by
  rcases h with hallowed | ⟨hparks, rfl | rfl⟩
  · rcases hallowed.moves with hneutral | hopen
    · exact Or.inl (hneutral.statusAfterTypes status)
    · rw [hover] at hopen
      cases hopen
  · exact Or.inr ⟨hparks, List.mem_singleton.mpr rfl⟩
  · exact Or.inr ⟨hparks, by simp [proposalBatch]⟩

section Steps

variable {event : WriterEvent NeutralCall}

/-- One event of a run of the pool keeps a finished run as it is. -/
theorem EndedAs.step {runId : String} {status : RunStatus}
    (hok : EventOk neutralCall RunStore.Grows WriterGuar RunStore.Sound event)
    (hmeets : parksFinished event = false) (h : EndedAs runId status event.before) :
    EndedAs runId status event.after := by
  have hsound := hok.inv
  match hcause : event.cause with
  | .idle => rwa [hok.idle hcause]
  | .env ⟨call, hneutral⟩ =>
      have hafter := hok.env _ hcause
      rcases RunStore.call_logTypes call event.before runId with hsame | hlonger
      · exact h.keep hsound hok.rely (by rw [hafter]; exact hsame)
      · exact h.append hsound hok.rely _ (by rw [hafter]; exact hlonger)
          (hneutral.statusAfterTypes status)
  | .access writer access =>
      obtain ⟨happends, hnumbered⟩ := hok.access writer access hcause
      rcases access_logTypes happends runId with hsame | ⟨types, rfl, -, hlonger, hwrites⟩
      · exact h.keep hsound hok.rely hsame
      · rw [h.logTypes hsound] at hwrites
        rcases hwrites.ended h.terminal with hstays | ⟨hparks, hwaits⟩
        · exact h.append hsound hok.rely _ hlonger hstays
        · have hgrew : event.after ≠ event.before := by
            intro hsame
            rw [hsame] at hlonger
            rw [List.self_eq_append_right.mp hlonger] at hwaits
            cases hwaits
          have hgiven : (writer.givenSeq.all fun given =>
              given.2 == (event.before.log given.1).length) = true := by
            rw [Option.all_eq_true]
            exact fun given hgiven =>
              beq_iff_eq.mpr ((hnumbered given hgiven).resolve_left hgrew)
          have hfinished : parksFinished event = true := by
            simp only [parksFinished, hcause, hparks, h.shown, Option.any_some, h.terminal,
              hgiven, Bool.and_true, Bool.true_and, List.contains_iff_mem]
            exact hwaits
          rw [hfinished] at hmeets
          cases hmeets

end Steps

/-- Over every schedule of the writers, from any history: if no unread park meets a
run that is over, a run that is over keeps its status to the end. -/
theorem terminal_absorbing (store : RunStore) (hsound : store.Sound)
    (schedule : List (Choice Writer NeutralCall)) :
    let trace := ((startPool store).play neutralCall Writer.program schedule).1
    (∀ event ∈ trace, parksFinished event = false) →
      ∀ runId status front event back, trace = front ++ event :: back →
        status.isTerminal = true → event.before.status runId = some status →
        ∀ later ∈ event :: back, later.after.status runId = some status := by
  intro trace hmeets runId status front event back hsplit hterminal hshown
  have hevents := (Pool.play_safe (writerPool neutralCall
    fun move => RunStore.grows_after move.val) (PoolInvariant.start hsound) schedule).1
  have hchain : (event :: back).IsChain (fun a b => a.after = b.before) := by
    have hall := Pool.play_chain neutralCall Writer.program
      (startPool store) schedule
    exact List.IsChain.right_of_append (hsplit ▸ hall : (front ++ event :: back).IsChain _)
  have hsuffix : ∀ later ∈ event :: back, later ∈ trace := fun later hlater => by
    rw [hsplit]
    exact List.mem_append_right _ hlater
  have hended := trace_invariant (I := EndedAs runId status) hchain
    (by
      rintro first ⟨⟩
      exact ⟨hterminal, hshown⟩)
    (fun later hlater =>
      EndedAs.step (hevents later (hsuffix later hlater)) (hmeets later (hsuffix later hlater)))
  exact fun later hlater => (hended later hlater).2.shown

section Sample

/-- A store with one run, started by its coordinator. -/
def startedStore : RunStore :=
  let args (type : RunEventType) : EventArgs := { type := type.value, payload := payloadOf [] }
  RunStore.runCalls .initial [
    .createTask { projectRoot := "/p", prompt := "fix", taskId := some "t" } ⟨"u0", 0⟩,
    .createRun { taskId := "t", runId := some "r" } ⟨"u1", 0⟩,
    .appendEvent "r" (args .runCreated) .none ⟨"e0", 0⟩,
    .appendEvent "r" (args .runStarted) .none ⟨"e1", 0⟩]

/-- The final event of a legacy worker, with one proposed file. -/
def proposalEvent : LegacyEvent := [
  (.str "type", .str "proposal"),
  (.str "proposals", .list [.dict [(.str "path", .str "a.py"), (.str "new", .str "x = 1\n")]])]

def proposalWriter : Writer :=
  .handleLegacyEvent "r" {} proposalEvent "x" fun i => ⟨"p" ++ toString i, 0⟩

/-- The proposal parks the run, and Apply ends it. -/
def parkedSchedule : List (Choice Writer NeutralCall) :=
  [.spawn proposalWriter, .act 0, .act 0,
   .spawn (.recordProposalApplied "r" ["a.py"] "c" ⟨"d", 0⟩), .act 1, .act 1, .act 1]

/-- The worker's end is recorded first, and its proposal arrives after it. -/
def lateSchedule : List (Choice Writer NeutralCall) :=
  [.spawn (.finishNormal "r" ⟨"f", 0⟩), .act 0, .act 0, .spawn proposalWriter, .act 1, .act 1]

lemma startedStore_sound : startedStore.Sound :=
  fun runId => RunStore.runCalls_consistent _ (RunStore.initial_consistent runId)

/-- From the moment Apply has ended the run, its status stays. -/
theorem terminal_absorbing_sample :
    let trace := ((startPool startedStore).play neutralCall Writer.program parkedSchedule).1
    (trace.map fun event => event.after.status "r") =
        [some .running, some .running, some .waitingUser, some .waitingUser, some .waitingUser,
          some .succeeded, some .succeeded] ∧
      ∀ runId status front event back, trace = front ++ event :: back →
        status.isTerminal = true → event.before.status runId = some status →
        ∀ later ∈ event :: back, later.after.status runId = some status :=
  ⟨by decide +kernel,
    terminal_absorbing startedStore startedStore_sound parkedSchedule (by decide +kernel)⟩

def lateTrace : List (WriterEvent NeutralCall) :=
  ((startPool startedStore).play neutralCall Writer.program lateSchedule).1

/-- A proposal that arrives after `finish_normal` reopens the run. -/
theorem late_proposal_revives :
    ¬ ∀ runId status front event back, lateTrace = front ++ event :: back →
      status.isTerminal = true → event.before.status runId = some status →
      ∀ later ∈ event :: back, later.after.status runId = some status := by
  intro h
  have hsplit : lateTrace = lateTrace.take 5 ++
      lateTrace.get ⟨5, by decide +kernel⟩ :: lateTrace.drop 6 := by
    rw [List.get_eq_getElem, ← List.drop_eq_getElem_cons, List.take_append_drop]
  have hstays := h "r" .succeeded _ _ _ hsplit rfl (by decide +kernel) _ List.mem_cons_self
  have hrevived : (lateTrace.get ⟨5, by decide +kernel⟩).after.status "r" =
      some .waitingUser := by
    decide +kernel
  rw [hrevived] at hstays
  cases hstays

end Sample

end Imece.RunRuntime
