import Imece.RunRuntime.AttemptMoves

/-!
# The guard of an attempt

A sink appends at the sequence number it remembers, so that an event of another writer
makes its next append fail. An activity notice of its attempt is appended at no number and
moves the remembered one on: over an event of another writer, if one came before it.
-/
namespace Imece.RunRuntime

open Lib AgentRuntime

/-- A plan or review attempt in flight: its sink, and the calls made on it. -/
inductive Attempt where
  | planner (runId planId : String) (rulesSha256 : Option String) (pinnedPaths : List String)
      (calls : List (AttemptCall PlanReport))
  | reviewer (runId reviewId : String) (rulesSha256 : Option String)
      (calls : List (AttemptCall ReviewReport))

namespace Attempt

def runId : Attempt → String
  | planner runId .. => runId
  | reviewer runId .. => runId

def program : Attempt → RunProg Unit
  | .planner runId planId rulesSha256 pinnedPaths calls => do
      let sink ← CanonicalPlannerEventSink.new runId planId rulesSha256 pinnedPaths
      let _ ← session planCall sink calls
      return ()
  | .reviewer runId reviewId rulesSha256 calls => do
      let sink ← CanonicalReviewEventSink.new runId reviewId rulesSha256
      let _ ← session reviewCall sink calls
      return ()

end Attempt

/-- What an access has appended to a run. -/
def appendedTo (runId : String) (access : Access StoreAccess RunStore) : List RunEvent :=
  (access.left.log runId).drop (access.met.log runId).length

/-- The log of a run to which only the attempt has appended since its sink was created:
what the creation read, and what the attempt's accesses have appended (latest first). -/
def ownLog (runId : String) : List (Access StoreAccess RunStore) → List RunEvent
  | [] => []
  | [created] => created.left.log runId
  | access :: past => ownLog runId past ++ appendedTo runId access

/-- The access asks to append an activity notice. -/
def notifies (runId : String) (access : Access StoreAccess RunStore) : Bool :=
  access.label = .append runId [RunEventType.agentActivity.value]

/-- The access asks to append the sink's own events. -/
def commits (runId : String) (access : Access StoreAccess RunStore) : Bool :=
  match access.label with
  | .append run types => run = runId && types ≠ [RunEventType.agentActivity.value]
  | .read => false

/-- A notice that goes through meets no event of another writer. -/
def NoticeInStep (runId : String) (past : List (Access StoreAccess RunStore))
    (access : Access StoreAccess RunStore) : Prop :=
  notifies runId access = true →
    (access.left.log runId).length ≠ (access.met.log runId).length →
      (access.met.log runId).length = (ownLog runId past).length

instance (runId : String) (past : List (Access StoreAccess RunStore))
    (access : Access StoreAccess RunStore) : Decidable (NoticeInStep runId past access) :=
  inferInstanceAs (Decidable (_ → _ → _))

/-- An event of the sink goes through only where every event appended since the sink was
created is the attempt's own. -/
def CommitGuarded (runId : String) (past : List (Access StoreAccess RunStore))
    (access : Access StoreAccess RunStore) : Prop :=
  commits runId access = true → access.left.log runId ≠ access.met.log runId →
    access.met.log runId = ownLog runId past

section Following

variable {runId : String} {seq : ℕ} {past : List (Access StoreAccess RunStore)}
  {store next : RunStore} {sink : AttemptSink} {kind : AttemptKind}

lemma ownLog_cons (h : past ≠ []) (access : Access StoreAccess RunStore) :
    ownLog runId (access :: past) = ownLog runId past ++ appendedTo runId access := by
  cases past with
  | nil => exact absurd rfl h
  | cons earlier past => rfl

/-- A remembered number that the log has passed, unless nobody else has appended. -/
structure Follows (runId : String) (seq : ℕ) (past : List (Access StoreAccess RunStore))
    (store : RunStore) : Prop where
  born : past ≠ []
  own : (ownLog runId past).Sublist (store.log runId)
  seq : seq ≤ (ownLog runId past).length ∨ seq < (store.log runId).length

lemma Follows.grow (h : Follows runId seq past store) (hgrows : RunStore.Grows store next) :
    Follows runId seq past next := by
  have hlog := hgrows.log runId
  refine ⟨h.born, h.own.trans hlog.sublist, ?_⟩
  rcases h.seq with hseq | hseq
  · exact Or.inl hseq
  · exact Or.inr (hseq.trans_le hlog.length_le)

lemma Follows.still (h : Follows runId seq past store) (label : StoreAccess) :
    Follows runId seq (⟨label, store, store⟩ :: past) store := by
  have hsame : ownLog runId (⟨label, store, store⟩ :: past) = ownLog runId past := by
    rw [ownLog_cons h.born, appendedTo, List.drop_length, List.append_nil]
  refine ⟨List.cons_ne_nil _ _, ?_, ?_⟩
  · rw [hsame]
    exact h.own
  · rw [hsame]
    exact h.seq

/-- At the remembered number, the log is the attempt's own. -/
lemma Follows.exact (h : Follows runId seq past store)
    (hseq : seq = (store.log runId).length) : store.log runId = ownLog runId past := by
  have hle : (store.log runId).length ≤ (ownLog runId past).length := by
    rcases h.seq with hown | hlater
    · omega
    · omega
  exact (h.own.eq_of_length (le_antisymm h.own.length_le hle)).symm

/-- An append at the attempt's own log leaves its own log. -/
lemma Follows.append (hborn : past ≠ []) (hown : store.log runId = ownLog runId past)
    (hgrows : RunStore.Grows store next) (label : StoreAccess) :
    Follows runId (next.log runId).length (⟨label, store, next⟩ :: past) next := by
  obtain ⟨more, hmore⟩ := hgrows.log runId
  have hlog : ownLog runId (⟨label, store, next⟩ :: past) = next.log runId := by
    rw [ownLog_cons hborn, appendedTo, ← hmore, List.drop_left, hown]
  refine ⟨List.cons_ne_nil _ _, ?_, Or.inl ?_⟩
  · rw [hlog]
  · rw [hlog]

/-- Every access of the program keeps the store's logs, and commits under the guard. -/
abbrev Following (runId : String) {α : Type} (p : RunProg α)
    (post : Except RunRuntimeError α → List (Access StoreAccess RunStore) → RunStore → Prop)
    (past : List (Access StoreAccess RunStore)) (store : RunStore) : Prop :=
  p.Holds RunStore.Grows (fun _ t => t.Sound) (NoticeInStep runId)
    (fun past access _ _ => RunStore.Grows access.met access.left ∧
      CommitGuarded runId past access)
    (fun r past' (_ : Unit) t => post r past' t) past () store

lemma guarded_still (past : List (Access StoreAccess RunStore)) (label : StoreAccess)
    (store : RunStore) : RunStore.Grows store store ∧
      CommitGuarded runId past ⟨label, store, store⟩ :=
  ⟨.refl store, fun _ hchanged => absurd rfl hchanged⟩

/-- A batch at the remembered number: it meets the attempt's own log, or leaves it. -/
theorem commitSpecs_following {specs : List EventArgs} {fresh : ℕ → Fresh}
    (h : Follows runId seq past store) :
    Following runId (commitSpecs runId specs seq fresh)
      (fun r past' t => Follows runId (r.toOption.getD seq) past' t) past store := by
  unfold commitSpecs
  cases hbuilt : specs.mapM RunEventSpec.ofArgs with
  | error e => exact fun t ht => h.grow ht
  | ok built =>
      change Following runId (recordMany runId _ (some seq) >>= _) _ _ _
      generalize List.map _ built.zipIdx = batch
      refine Prog.Holds.bind RunStore.Grows.refl
        (Q := fun r past' _ t => Follows runId ((r.toOption.bind fun made =>
          made.1.getLast?.map (·.seq)).getD seq) past' t)
        (Prog.Holds.call fun t ht hsound _ => ?_) (fun made past' _ t hmade u hu => ?_)
        fun e past' _ t hfailed => hfailed
      · have hmet := h.grow ht
        cases hresult : result (RunStore.appendEvents runId batch (expectedSeq (some seq))) t with
        | error e =>
            have hsame : after (RunStore.appendEvents runId batch (expectedSeq (some seq))) t = t :=
              RunStore.appendEvents_failsClean runId batch _ t e _ (result_eq_error.mp hresult)
            rw [hsame]
            exact ⟨(), guarded_still _ _ t, fun u hu => (hmet.still _).grow hu⟩
        | ok appended =>
            obtain ⟨hseq, hextends, hlog, hnonempty⟩ :=
              RunStore.appendEvents_extends (hsound runId) (result_eq_ok.mp hresult)
            have hown := hmet.exact (hseq seq rfl)
            have hnext := (hsound.grow hextends.grows) runId
            refine ⟨(), ⟨hextends.grows, fun _ _ => hown⟩, fun u hu => ?_⟩
            have hlast : ((some appended).bind fun made =>
                made.1.getLast?.map (·.seq)).getD seq = ((after (RunStore.appendEvents runId batch
                  (expectedSeq (some seq))) t).log runId).length := by
              rw [Option.bind_some, lastSeq_append hnext hlog hnonempty, Option.getD_some, hlog]
            refine Follows.grow ?_ hu
            show Follows runId (((some appended).bind fun made =>
                made.1.getLast?.map (·.seq)).getD seq) _ _
            rw [hlast]
            exact .append hmet.born hown hextends.grows _
      · refine Follows.grow ?_ hu
        obtain ⟨events, row⟩ := made
        show Follows runId ((some ((events.getLast?.map (·.seq)).getD seq)).getD seq) past' t
        rw [Option.getD_some]
        exact hmade

/-- The sink writes to the run, at a number it follows. -/
def SinkFollows (runId : String) (sink : AttemptSink)
    (past : List (Access StoreAccess RunStore)) (store : RunStore) : Prop :=
  sink.runId = runId ∧ Follows runId sink.expectedSeq past store

lemma SinkFollows.grow (h : SinkFollows runId sink past store)
    (hgrows : RunStore.Grows store next) : SinkFollows runId sink past next :=
  ⟨h.1, h.2.grow hgrows⟩

/-- What a call leaves of the sink. -/
def LeavesSink (runId : String) (r : Except RunRuntimeError (Ended AttemptSink))
    (past : List (Access StoreAccess RunStore)) (store : RunStore) : Prop :=
  ∀ ended, r = .ok ended → SinkFollows runId ended.object past store

lemma returned_following (h : SinkFollows runId sink past store) :
    Following runId (returned sink) (LeavesSink runId) past store := by
  rintro t ht ended ⟨⟩
  exact h.grow ht

lemma raised_following (h : SinkFollows runId sink past store) {error : RunRuntimeError} :
    Following runId (raised sink error) (LeavesSink runId) past store := by
  rintro t ht ended ⟨⟩
  exact h.grow ht

lemma commit_following (h : SinkFollows runId sink past store) {specs : List EventArgs}
    {fresh : ℕ → Fresh} {then_ : AttemptSink → AttemptSink}
    (hthen : ∀ sink, (then_ sink).runId = sink.runId ∧
      (then_ sink).expectedSeq = sink.expectedSeq) :
    Following runId (sink.commit specs fresh then_) (LeavesSink runId) past store := by
  obtain ⟨rfl, hfollows⟩ := h
  refine Prog.Holds.attempt_bind RunStore.Grows.refl (commitSpecs_following hfollows) ?_
  intro r past' _ t hleft
  cases r with
  | error e => exact raised_following ⟨rfl, hleft⟩
  | ok seq =>
      obtain ⟨hrun, hseq⟩ := hthen { sink with expectedSeq := seq }
      refine returned_following ⟨hrun, ?_⟩
      rw [hseq]
      exact hleft

lemma appendTerminal_following (h : SinkFollows runId sink past store) {type : RunEventType}
    {payload : PyValue} {fresh : ℕ → Fresh} :
    Following runId (sink.appendTerminal kind type payload fresh) (LeavesSink runId)
      past store := by
  unfold AttemptSink.appendTerminal
  split_ifs
  · exact raised_following h
  · exact commit_following h fun _ => ⟨rfl, rfl⟩

lemma fail_following (h : SinkFollows runId sink past store)
    {id errorType message : String} {fresh : ℕ → Fresh} :
    Following runId (sink.fail kind id errorType message fresh) (LeavesSink runId)
      past store := by
  unfold AttemptSink.fail
  split_ifs
  · exact raised_following h
  · exact raised_following h
  · exact appendTerminal_following h

lemma complete_following (h : SinkFollows runId sink past store) {reportId : String}
    {payload : PyValue} {fresh : ℕ → Fresh} :
    Following runId (sink.complete kind reportId payload fresh) (LeavesSink runId)
      past store := by
  unfold AttemptSink.complete
  split_ifs
  · exact raised_following h
  · exact raised_following h
  · exact raised_following h
  · exact appendTerminal_following h

/-- The search for an earlier start leaves the sink where it was. -/
lemma start_following (h : SinkFollows runId sink past store) {pages : ℕ} {fresh : ℕ → Fresh} :
    Following runId (sink.start kind pages fresh) (LeavesSink runId) past store := by
  unfold AttemptSink.start
  have hsearch : Following runId
      (rejectReused sink.runId kind.started kind.idKey sink.attemptId pages 0)
      (fun _ past' t => SinkFollows runId sink past' t) past store :=
    (rejectReused_readOnly _ _ _ _ _).holds_keeps (fun past label _ t => guarded_still past label t)
      (fun _ _ _ hfollows hgrows => hfollows.grow hgrows)
      (fun _ label _ hfollows => ⟨hfollows.1, hfollows.2.still label⟩) h
  refine Prog.Holds.attempt_bind RunStore.Grows.refl hsearch ?_
  rintro (e | ⟨⟩) past' _ t hfollows
  · exact raised_following hfollows
  · exact commit_following hfollows fun _ => ⟨rfl, rfl⟩

lemma emit_following (h : SinkFollows runId sink past store) {event : AgentEvent} {pages : ℕ}
    {fresh : ℕ → Fresh} :
    Following runId (sink.emit kind event pages fresh) (LeavesSink runId) past store := by
  have hbound : SinkFollows runId { sink with
      transientExecutionId := some (sink.transientExecutionId.getD event.executionId) }
      past store := h
  simp only [AttemptSink.emit]
  split_ifs
  · exact raised_following hbound
  · exact raised_following hbound
  · exact raised_following hbound
  · unfold AttemptSink.dispatch
    split
    · exact start_following hbound
    · exact returned_following hbound
    · exact fail_following hbound
    · split_ifs
      · exact raised_following hbound
      · exact commit_following hbound fun _ => ⟨rfl, rfl⟩

/-- The number of a notice that met no event of another writer is one to follow. -/
lemma record_following (h : Follows runId seq past store) {args : EventArgs}
    (htype : args.type = RunEventType.agentActivity.value) {fresh : Fresh} :
    Following runId (record runId args none fresh)
      (fun r past' t => Follows runId seq past' t ∧
        ∀ made, r = .ok made → Follows runId made.1.seq past' t) past store := by
  refine Prog.Holds.call fun t ht hsound hfair => ?_
  have hmet := h.grow ht
  cases hresult : result (RunStore.appendEvent runId args (expectedSeq none) fresh) t with
  | error e =>
      have hsame : after (RunStore.appendEvent runId args (expectedSeq none) fresh) t = t :=
        RunStore.appendEvent_failsClean runId args _ fresh t e _ (result_eq_error.mp hresult)
      rw [hsame]
      refine ⟨(), guarded_still _ _ t, fun u hu => ⟨(hmet.still _).grow hu, ?_⟩⟩
      intro made hmade
      cases hmade
  | ok made =>
      obtain ⟨happended, hlast⟩ :=
        RunStore.appendEvent_args (hsound runId) (result_eq_ok.mp hresult)
      generalize after (RunStore.appendEvent runId args (expectedSeq none) fresh) t = next at *
      obtain ⟨events, hlog, hbuilt⟩ := happended.log
      have hone : events.length = 1 := hbuilt.length_eq.symm
      have hlonger : (next.log runId).length ≠ (t.log runId).length := by
        rw [hlog, List.length_append]
        omega
      have hnotice : notifies runId ⟨.append runId [args.type], t, next⟩ = true := by
        rw [notifies, htype]
        exact decide_eq_true rfl
      have hown : t.log runId = ownLog runId past :=
        (hmet.own.eq_of_length (hfair hnotice hlonger).symm).symm
      have hfollows : Follows runId made.1.seq (⟨.append runId [args.type], t, next⟩ :: past)
          next := by
        rw [hlast]
        exact .append hmet.born hown happended.grows _
      refine ⟨(), ⟨happended.grows, fun _ _ => hown⟩, fun u hu => ⟨?_, ?_⟩⟩
      · refine Follows.grow ⟨List.cons_ne_nil _ _, hfollows.own, Or.inr ?_⟩ hu
        have hle := hmet.seq
        have hshorter := hmet.own.length_le
        rw [hlog, List.length_append]
        omega
      · rintro found ⟨⟩
        exact hfollows.grow hu

lemma activity_following (h : SinkFollows runId sink past store) {activity : AgentActivity}
    {fresh : Fresh} :
    Following runId (sink.activity activity fresh) (LeavesSink runId) past store := by
  obtain ⟨rfl, hfollows⟩ := h
  have hrecorded : Following sink.runId (activity.recorded sink.runId fresh)
      (fun r past' t => Follows sink.runId sink.expectedSeq past' t ∧
        ∀ event, r = .ok event → Follows sink.runId event.seq past' t) past store := by
    unfold AgentActivity.recorded
    cases activity.payload with
    | error e => exact fun t ht => ⟨hfollows.grow ht, fun _ hevent => absurd hevent error_ne_ok⟩
    | ok payload =>
        change Following sink.runId (record sink.runId _ none fresh >>= _) _ _ _
        refine Prog.Holds.bind RunStore.Grows.refl (record_following hfollows rfl) ?_
          fun _ _ _ _ hleft => ⟨hleft.1, fun _ hevent => absurd hevent error_ne_ok⟩
        rintro ⟨event, row⟩ past' _ t ⟨hkept, hnoted⟩ u hu
        refine ⟨hkept.grow hu, ?_⟩
        rintro found ⟨⟩
        exact (hnoted _ rfl).grow hu
  refine Prog.Holds.attempt_bind RunStore.Grows.refl hrecorded ?_
  rintro (e | event) past' _ t ⟨hkept, hnoted⟩
  · exact returned_following ⟨rfl, hkept⟩
  · refine returned_following ?_
    unfold AttemptSink.noteExternalAppend
    split_ifs
    · refine ⟨rfl, ?_⟩
      show Follows sink.runId (Int.toNat event.seq) past' t
      rw [Int.toNat_natCast]
      exact hnoted event rfl
    · exact ⟨rfl, hkept⟩

lemma planCall_following (h : SinkFollows runId sink past store)
    (input : AttemptCall PlanReport) :
    Following runId (planCall sink input) (LeavesSink runId) past store := by
  cases input with
  | emit event pages fresh => exact emit_following h
  | complete report fresh => exact complete_following h
  | fail id errorType message fresh => exact fail_following h
  | activity activity fresh => exact activity_following h

lemma reviewCall_following (h : SinkFollows runId sink past store)
    (input : AttemptCall ReviewReport) :
    Following runId (reviewCall sink input) (LeavesSink runId) past store := by
  cases input with
  | emit event pages fresh => exact emit_following h
  | complete report fresh => exact complete_following h
  | fail id errorType message fresh => exact fail_following h
  | activity activity fresh => exact activity_following h

lemma session_following {ι : Type} {method : AttemptSink → ι → RunProg (Ended AttemptSink)}
    (hmethod : ∀ sink input past store, SinkFollows runId sink past store →
      Following runId (method sink input) (LeavesSink runId) past store)
    (inputs : List ι) (h : SinkFollows runId sink past store) :
    Following runId (session method sink inputs) (fun _ _ _ => True) past store := by
  induction inputs generalizing sink past store with
  | nil => exact fun _ _ => trivial
  | cons input inputs ih =>
      refine (hmethod sink input past store h).bind RunStore.Grows.refl ?_
        fun _ _ _ _ _ => trivial
      exact fun ended past' _ t hleft => ih (hleft ended rfl)

/-- The row a sink is created from shows the length of the log. -/
lemma runningSeq_following (what : String) :
    Following runId (runningSeq runId what)
      (fun r past' t => ∀ seq, r = .ok seq → Follows runId seq past' t) [] store := by
  refine Prog.Holds.bind RunStore.Grows.refl
    (Q := fun r past' _ t => ∀ run, r = .ok run → Follows runId run.lastEventSeq past' t)
    (Prog.Holds.call fun t ht hsound _ => ?_) ?_ fun _ _ _ _ _ => nofun
  · rw [RunStore.getRun_after]
    refine ⟨(), guarded_still _ _ t, fun u hu run hrun => ?_⟩
    have hseq := ((hsound runId).history run (RunStore.getRun_result hrun)).lastEventSeq
    refine Follows.grow ⟨List.cons_ne_nil _ _, List.Sublist.refl _, Or.inl ?_⟩ hu
    exact hseq.le
  · intro run past' _ t hrun
    split_ifs
    · exact fun u hu => nofun
    · rintro u hu seq ⟨⟩
      exact (hrun run rfl).grow hu

/-- A sink that is created, and then called. -/
lemma newThen_following {ι : Type} {new : RunProg AttemptSink}
    {method : AttemptSink → ι → RunProg (Ended AttemptSink)} {inputs : List ι}
    (hnew : Following runId new
      (fun r past' t => ∀ sink, r = .ok sink → SinkFollows runId sink past' t) [] store)
    (hmethod : ∀ sink input past store, SinkFollows runId sink past store →
      Following runId (method sink input) (LeavesSink runId) past store) :
    Following runId (do let sink ← new; let _ ← session method sink inputs; return ())
      (fun _ _ _ => True) [] store := by
  refine Prog.Holds.bind RunStore.Grows.refl hnew ?_ fun _ _ _ _ _ => trivial
  intro sink past' _ t hsink
  exact (session_following hmethod inputs (hsink sink rfl)).bind RunStore.Grows.refl
    (fun _ _ _ _ _ _ _ => trivial) fun _ _ _ _ _ => trivial

theorem Attempt.program_following (attempt : Attempt) (store : RunStore) :
    Following attempt.runId attempt.program (fun _ _ _ => True) [] store := by
  have hmake {what : String} {make : ℕ → AttemptSink}
      (hsink : ∀ seq, (make seq).runId = attempt.runId ∧ (make seq).expectedSeq = seq) :
      Following attempt.runId (runningSeq attempt.runId what >>= fun seq => pure (make seq))
        (fun r past' t => ∀ sink, r = .ok sink → SinkFollows attempt.runId sink past' t) []
        store := by
    refine (runningSeq_following what).bind RunStore.Grows.refl ?_ fun _ _ _ _ _ => nofun
    rintro seq past' _ t hseq u hu sink ⟨⟩
    refine ⟨(hsink seq).1, ?_⟩
    rw [(hsink seq).2]
    exact (hseq seq rfl).grow hu
  cases attempt with
  | planner runId planId rulesSha256 pinnedPaths calls =>
      refine newThen_following ?_ fun sink input _ _ h => planCall_following h input
      unfold CanonicalPlannerEventSink.new
      split
      · exact fun _ _ => nofun
      · exact hmake fun seq => ⟨rfl, rfl⟩
  | reviewer runId reviewId rulesSha256 calls =>
      refine newThen_following ?_ fun sink input _ _ h => reviewCall_following h input
      unfold CanonicalReviewEventSink.new
      split
      · exact fun _ _ => nofun
      · exact hmake fun seq => ⟨rfl, rfl⟩

end Following

section Pools

/-- A store call of any other writer. -/
def foreignCall (call : RunStore.StoreCall) (store : RunStore) : RunStore := after call.run store

theorem attemptPool : TokenPool foreignCall Attempt.program RunStore.Grows (fun _ t => t.Sound)
    (fun attempt => NoticeInStep attempt.runId)
    (fun attempt past access (_ _ : Unit) => RunStore.Grows access.met access.left ∧
      CommitGuarded attempt.runId past access)
    (fun _ _ _ _ _ => True) (fun store _ => store.Sound) fun _ => () where
  refl := .refl
  trans _ _ _ := .trans
  env_keeps call store _ h := by
    have hgrows := RunStore.grows_after call store
    exact ⟨hgrows, h.grow hgrows⟩
  spawn_keeps _ _ _ h := h
  own _ _ _ _ h := h
  move_keeps _ _ _ _ _ _ _ h hmove := ⟨hmove.1, h.grow hmove.1⟩
  program_holds attempt store _ _ := attempt.program_following store

/-- A run of attempts among the calls of other writers, from an empty store. -/
@[irreducible] def attemptTrace (schedule : List (Choice Attempt RunStore.StoreCall)) :
    List (PoolEvent Attempt RunStore.StoreCall StoreAccess RunStore) :=
  ((⟨.initial, []⟩ : Pool Attempt StoreAccess RunStore RunRuntimeError Unit).play foreignCall
    Attempt.program schedule).1

/-- Every event that a sink of the schedule appends meets a log to which only its own
attempt has appended since the sink was created. -/
def CommitsGuarded (schedule : List (Choice Attempt RunStore.StoreCall)) : Prop :=
  ∀ position, FairAccesses (fun attempt => CommitGuarded attempt.runId) []
    (accessesAt position schedule (attemptTrace schedule))

/-- Over every schedule in which each notice that goes through meets no event of another
writer, the sinks' appends are guarded. -/
theorem attempts_guarded (schedule : List (Choice Attempt RunStore.StoreCall))
    (h : ∀ position, FairAccesses (fun attempt => NoticeInStep attempt.runId) []
      (accessesAt position schedule (attemptTrace schedule))) : CommitsGuarded schedule := by
  unfold CommitsGuarded
  unfold attemptTrace at h ⊢
  obtain ⟨-, hmoves, -⟩ := Pool.play_tokens attemptPool
    (TokenInvariant.start RunStore.initial_consistent) schedule h
  exact fun position => (hmoves position).imp fun _ _ _ ⟨_, _, hmove⟩ => hmove.2

end Pools

section Sample

def eventCall (type : RunEventType) (eventId : String) : Choice Attempt RunStore.StoreCall :=
  .env (.appendEvent "r" { type := type.value, payload := payloadOf [] } .none ⟨eventId, 0⟩)

/-- A run is created and started, and its planner records its start. -/
def plannedMoves : List (Choice Attempt RunStore.StoreCall) :=
  [.env (.createTask { projectRoot := "/p", prompt := "fix", taskId := some "t" } ⟨"u0", 0⟩),
    .env (.createRun { taskId := "t", runId := some "r" } ⟨"u1", 0⟩),
    eventCall .runCreated "e0", eventCall .runStarted "e1",
    .spawn (.planner "r" "plan" none [] [
      .emit ⟨"x", .executionStarted "fix"⟩ 1 fun _ => ⟨"e2", 0⟩,
      .activity { role := "planner", kind := "tool", title := "grep", status := "ok" } ⟨"e3", 0⟩,
      .emit ⟨"x", .executionCompleted "text" 0 0 0 0 0 none⟩ 1 fun _ => ⟨"e4", 0⟩,
      .complete ⟨"plan", "", [], [], [], "low", "small", "f", "s"⟩ fun _ => ⟨"e5", 0⟩]),
    .act 0, .act 0, .act 0]

/-- The notice comes right after the sink's start, and then the plan. -/
def quietSchedule : List (Choice Attempt RunStore.StoreCall) := plannedMoves ++ [.act 0, .act 0]

/-- The run is cancelled before the notice. -/
def jumpedSchedule : List (Choice Attempt RunStore.StoreCall) :=
  plannedMoves ++ [eventCall .runCancelled "e6", .act 0, .act 0]

lemma quietAccesses_later (position : ℕ) :
    accessesAt (position + 1) quietSchedule (attemptTrace quietSchedule) = [] := by
  apply accessesAt_eq_nil
  intro chosen hchosen
  simp [quietSchedule, plannedMoves, eventCall] at hchosen
  omega

lemma quiet_inStep : ∀ position, FairAccesses (fun attempt => NoticeInStep attempt.runId) []
    (accessesAt position quietSchedule (attemptTrace quietSchedule))
  | 0 => by decide +kernel
  | position + 1 => by
      rw [quietAccesses_later]
      exact True.intro

theorem attempts_guarded_quiet :
    ((attemptTrace quietSchedule).getLast?.map fun event => (event.after.log "r").length) =
        some 5 ∧ CommitsGuarded quietSchedule :=
  ⟨by decide +kernel, attempts_guarded quietSchedule quiet_inStep⟩

/-- The accesses of the planner on the cancelled run. -/
def jumpedAccesses : List (Attempt × Access StoreAccess RunStore) :=
  accessesAt 0 jumpedSchedule (attemptTrace jumpedSchedule)

/-- The last access appends to a log that is longer than the attempt's own. -/
def appendsBeyond (runId : String) : List (Access StoreAccess RunStore) → Bool
  | [] => false
  | access :: past =>
      commits runId access && (access.met.log runId).length < (access.left.log runId).length &&
        (ownLog runId past).length < (access.met.log runId).length

lemma not_guarded_of_beyond {accesses : List (Attempt × Access StoreAccess RunStore)}
    {runId : String} (hruns : ∀ run ∈ accesses.map (·.1.runId), run = runId)
    (hbeyond : appendsBeyond runId (accesses.map (·.2)).reverse = true) :
    ¬ FairAccesses (fun attempt => CommitGuarded attempt.runId) [] accesses := by
  intro h
  rcases List.eq_nil_or_concat accesses with rfl | ⟨front, ⟨attempt, access⟩, rfl⟩
  · cases hbeyond
  rw [List.concat_eq_append] at h hruns hbeyond
  have hlast := h.last
  have hrun : attempt.runId = runId := hruns _ (by simp)
  rw [hrun, List.append_nil] at hlast
  simp only [List.map_append, List.map_cons, List.map_nil, List.reverse_append,
    List.reverse_cons, List.reverse_nil, List.nil_append, List.singleton_append, appendsBeyond,
    Bool.and_eq_true, decide_eq_true_eq] at hbeyond
  obtain ⟨⟨hcommits, hlonger⟩, hforeign⟩ := hbeyond
  have hchanged : access.left.log runId ≠ access.met.log runId := by
    intro hsame
    rw [hsame] at hlonger
    exact lt_irrefl _ hlonger
  rw [hlast hcommits hchanged] at hforeign
  exact lt_irrefl _ hforeign

/-- After the notice the plan is completed on the cancelled run. -/
theorem jumped_not_guarded :
    ((attemptTrace jumpedSchedule).getLast?.map fun event => (event.after.log "r").length) =
        some 6 ∧ ¬ CommitsGuarded jumpedSchedule := by
  refine ⟨by decide +kernel, fun h => ?_⟩
  have hruns : ∀ run ∈ jumpedAccesses.map (·.1.runId), run = "r" := by decide +kernel
  have hbeyond : appendsBeyond "r" (jumpedAccesses.map (·.2)).reverse = true := by decide +kernel
  exact not_guarded_of_beyond hruns hbeyond (h 0)

end Sample

end Imece.RunRuntime
