import Imece.RunRuntime.RecorderMoves

/-!
# What the sinks of plans and reviews do to the trails

A sink holds its attempt from the start it persisted to the terminal it recorded,
whatever its caller asks of it.
-/
namespace Imece.RunRuntime

open Lib AgentRuntime

lemma payloadGet_head (key : String) (value : PyValue) (rest : List (String × PyValue)) :
    payloadGet (payloadOf ((key, value) :: rest)) key = value := by
  simp [payloadGet, payloadOf, JsonDict.get.go]

/-- What a method leaves of its object. -/
def Kept {α : Type} (holds : α → Token → RunStore → Prop) (r : Except RunRuntimeError (Ended α))
    (_ : List (Access StoreAccess RunStore)) (token : Token) (store : RunStore) : Prop :=
  ∀ ended, r = .ok ended → holds ended.object token store

section Sessions

variable {fair : List (Access StoreAccess RunStore) → Access StoreAccess RunStore → Prop}
  {past : List (Access StoreAccess RunStore)} {token token₂ : Token} {store : RunStore}

/-- A session keeps what each of its calls keeps of the object and of the accesses made. -/
theorem session_moving_past {α ι : Type} {method : α → ι → RunProg (Ended α)}
    {holds : α → List (Access StoreAccess RunStore) → Token → RunStore → Prop} (inputs : List ι)
    (hmethod : ∀ object, ∀ input ∈ inputs, ∀ past token store, holds object past token store →
      Moving fair (method object input)
        (fun r past' token' t => ∀ ended, r = .ok ended → holds ended.object past' token' t)
        past token store)
    {object : α} (hobject : holds object past token store) :
    Moving fair (session method object inputs) (fun _ _ _ _ => True) past token store := by
  induction inputs generalizing object store past token with
  | nil => exact fun _ _ => trivial
  | cons input inputs ih =>
      refine (hmethod object input List.mem_cons_self past token store hobject).bind
        RunStore.Grows.refl ?_ (fun _ _ _ _ _ => trivial)
      exact fun ended past' token' t hended =>
        ih (fun object other hother => hmethod object other (List.mem_cons_of_mem input hother))
          (hended ended rfl)

theorem session_moving {α ι : Type} {method : α → ι → RunProg (Ended α)}
    {holds : α → Token → RunStore → Prop} (inputs : List ι)
    (hmethod : ∀ object, ∀ input ∈ inputs, ∀ past token store, holds object token store →
      Moving fair (method object input) (Kept holds) past token store)
    {object : α} (hobject : holds object token store) :
    Moving fair (session method object inputs) (fun _ _ _ _ => True) past token store :=
  @session_moving_past fair past token store α ι method
    (fun object _ token store => holds object token store) inputs hmethod object hobject

lemma returned_moving {α : Type} {holds : α → Token → RunStore → Prop} {object : α}
    (hobject : ∀ t, RunStore.Grows store t → holds object token t) :
    Moving fair (returned object) (Kept holds) past token store := by
  rintro t ht ended ⟨⟩
  exact hobject t ht

lemma raised_moving {α : Type} {holds : α → Token → RunStore → Prop} {object : α}
    {error : RunRuntimeError} (hobject : ∀ t, RunStore.Grows store t → holds object token t) :
    Moving fair (raised object error) (Kept holds) past token store := by
  rintro t ht ended ⟨⟩
  exact hobject t ht

end Sessions

section Attempts

/-- What a sink knows and holds: the number it remembers is one the log has reached, and
it holds its attempt from the start it persisted to the terminal it recorded. -/
structure SinkHolds (trail : TrailKind) (sink : AttemptSink) (token : Token)
    (store : RunStore) : Prop where
  seen : sink.expectedSeq ≤ (store.log sink.runId).length
  token : token = if sink.startedPersisted && !sink.terminalRecorded then
    some ⟨trail, sink.runId, sink.attemptId⟩ else none

/-- The events and the identifier of an attempt kind are those of a trail. -/
structure AttemptKind.Leaves (kind : AttemptKind) (trail : TrailKind) : Prop where
  started : kind.started = trail.started
  idKey : kind.idKey = trail.idKey
  completed : kind.completed ∈ trail.terminals
  failed : kind.failed ∈ trail.terminals
  between : trail.between = 0

variable {fair : List (Access StoreAccess RunStore) → Access StoreAccess RunStore → Prop}
  {past : List (Access StoreAccess RunStore)} {token token₂ : Token} {store next : RunStore}
  {trail : TrailKind} {sink : AttemptSink} {kind : AttemptKind}

lemma SinkHolds.grow (h : SinkHolds trail sink token store) (hgrows : RunStore.Grows store next) :
    SinkHolds trail sink token next :=
  ⟨h.seen.trans (hgrows.log sink.runId).length_le, h.token⟩

lemma commit_moving (token₂ : Token) {specs : List EventArgs} {fresh : ℕ → Fresh}
    {then_ : AttemptSink → AttemptSink} (hholds : SinkHolds trail sink token store)
    (hmove : ∀ t next, RunStore.Grows store t → Agrees token t →
      sink.expectedSeq = (t.log sink.runId).length → AppendedArgs t next sink.runId specs →
        RecorderMove past ⟨.append sink.runId (specs.map (·.type)), t, next⟩ token token₂)
    (hthen : ∀ seq t, seq ≤ (t.log sink.runId).length →
      SinkHolds trail (then_ { sink with expectedSeq := seq }) token₂ t) :
    Moving fair (sink.commit specs fresh then_) (Kept (SinkHolds trail)) past token store := by
  refine Prog.Holds.attempt_bind RunStore.Grows.refl
    (commitSpecs_moving fun t next ht hagrees _ => hmove t next ht hagrees) ?_
  rintro r past' token' t ⟨⟨hgrows, ⟨seq, rfl, rfl, hseq⟩ | ⟨⟨e, rfl⟩, rfl⟩⟩, -⟩
  · exact returned_moving fun u hu => hthen seq u (hseq.trans (hu.log sink.runId).length_le)
  · exact raised_moving fun u hu => hholds.grow (hgrows.trans hu)

/-- The terminal of an attempt, with its identifier. -/
lemma appendTerminal_moving (hholds : SinkHolds trail sink token store)
    (hstarted : sink.startedPersisted = true) {type : RunEventType}
    (htype : type ∈ trail.terminals) {payload : PyValue}
    (hid : payloadGet payload trail.idKey = .str sink.attemptId) {fresh : ℕ → Fresh} :
    Moving fair (sink.appendTerminal kind type payload fresh) (Kept (SinkHolds trail))
      past token store := by
  unfold AttemptSink.appendTerminal
  by_cases hterminal : sink.terminalRecorded = true
  · rw [if_pos hterminal]
    exact raised_moving fun u hu => hholds.grow hu
  · rw [if_neg hterminal]
    have htoken : token = some ⟨trail, sink.runId, sink.attemptId⟩ := by
      rw [hholds.token, if_pos (by simpa [hstarted] using hterminal)]
    refine commit_moving none hholds (fun t next _ _ _ happended => ?_)
      (fun seq t hseq => ⟨hseq, by simp⟩)
    rw [htoken]
    exact ends_of_append ⟨trail, sink.runId, sink.attemptId⟩
      (List.mem_map.mpr ⟨type, htype, rfl⟩) hid happended

lemma fail_moving (hkind : kind.Leaves trail) (hholds : SinkHolds trail sink token store)
    {id errorType message : String} {fresh : ℕ → Fresh} :
    Moving fair (sink.fail kind id errorType message fresh) (Kept (SinkHolds trail))
      past token store := by
  unfold AttemptSink.fail
  split
  · exact raised_moving fun u hu => hholds.grow hu
  · rename_i hid
    rw [ne_eq, not_not] at hid
    split
    · exact raised_moving fun u hu => hholds.grow hu
    · rename_i hstarted
      refine appendTerminal_moving hholds (by simpa using hstarted) hkind.failed ?_
      rw [hkind.idKey, ← hid]
      exact payloadGet_head _ _ _

lemma complete_moving (hkind : kind.Leaves trail) (hholds : SinkHolds trail sink token store)
    {reportId : String} {payload : PyValue} (hpayload : payloadGet payload trail.idKey =
      .str reportId) {fresh : ℕ → Fresh} :
    Moving fair (sink.complete kind reportId payload fresh) (Kept (SinkHolds trail))
      past token store := by
  unfold AttemptSink.complete
  split
  · exact raised_moving fun u hu => hholds.grow hu
  · rename_i hid
    rw [ne_eq, not_not] at hid
    split
    · exact raised_moving fun u hu => hholds.grow hu
    · rename_i hstarted
      split
      · exact raised_moving fun u hu => hholds.grow hu
      · exact appendTerminal_moving hholds (by simpa using hstarted) hkind.completed
          (hid ▸ hpayload)

/-- The identifier is searched for, and the start appended at the number remembered
before the search. -/
lemma start_moving (hkind : kind.Leaves trail) (hholds : SinkHolds trail sink token store)
    (hterminal : sink.terminalRecorded = false) {pages : ℕ} {fresh : ℕ → Fresh} :
    Moving fair (sink.start kind pages fresh) (Kept (SinkHolds trail)) past token store := by
  unfold AttemptSink.start
  rw [hkind.started, hkind.idKey]
  refine Prog.Holds.attempt_bind RunStore.Grows.refl
    (rejectReused_moving ⟨trail, sink.runId, sink.attemptId⟩ (by simp) (Nat.zero_le _)) ?_
  rintro (e | ⟨⟩) past' token' t ⟨rfl, hgrows, hpage, -⟩
  · exact raised_moving fun u hu => hholds.grow (hgrows.trans hu)
  · obtain ⟨page, rest, rfl, hstore, hpaget, hempty⟩ := hpage rfl
    refine commit_moving (some ⟨trail, sink.runId, sink.attemptId⟩) (hholds.grow hgrows)
      (fun u next htu hagrees hseq
        happended => ?_) (fun seq u hseq => ⟨hseq, by simp [hterminal]⟩)
    have hlog := log_of_length (hpaget.trans htu) (hholds.grow hstore).seen hseq
    cases hstarted : sink.startedPersisted with
    | true =>
        have htoken := hholds.token
        rw [hstarted, hterminal, Bool.not_false, Bool.and_true, if_pos rfl] at htoken
        obtain ⟨start, hstart, htrail⟩ := hagrees.2 _ htoken
        rw [RunStore.starts, hlog] at hempty
        have hnot := TrailKey.marks_starts hempty start (by rw [htrail]; simp)
        rw [hstart] at hnot
        cases hnot
    | false =>
        have htoken := hholds.token
        rw [hstarted, Bool.false_and, if_neg Bool.false_ne_true] at htoken
        rw [htoken] at hagrees ⊢
        refine starts_of_append ⟨trail, sink.runId, sink.attemptId⟩ hagrees hempty ?_
          hlog rfl (payloadGet_head _ _ _) happended
        rw [hkind.between]
        rfl

lemma specs_unmarked {id : String} {event : AgentEventKind} :
    Unmarked (AttemptSink.specs kind id event) := by
  cases event <;> simp [Unmarked, AttemptSink.specs, AttemptSink.spec, trailTypes,
    TrailKind.types, TrailKind.started, TrailKind.terminals, RunEventType.value]

lemma SinkHolds.update {other : AttemptSink} (h : SinkHolds trail sink token store)
    (hrun : other.runId = sink.runId) (hid : other.attemptId = sink.attemptId)
    (hseq : other.expectedSeq = sink.expectedSeq)
    (hstarted : other.startedPersisted = sink.startedPersisted)
    (hterminal : other.terminalRecorded = sink.terminalRecorded) :
    SinkHolds trail other token store :=
  ⟨by rw [hseq, hrun]; exact h.seen, by rw [hstarted, hterminal, hrun, hid]; exact h.token⟩

lemma commitSpecs_quiet (hholds : SinkHolds trail sink token store) {event : AgentEventKind}
    {fresh : ℕ → Fresh} :
    Moving fair (sink.commit (AttemptSink.specs kind sink.attemptId event) fresh id)
      (Kept (SinkHolds trail)) past token store :=
  commit_moving _ hholds (fun _ _ _ _ _ happended => specs_unmarked.quiet happended)
    fun _ _ hseq => ⟨hseq, hholds.token⟩

lemma dispatch_moving (hkind : kind.Leaves trail) (hholds : SinkHolds trail sink token store)
    (hterminal : sink.terminalRecorded = false) {event : AgentEventKind} {pages : ℕ}
    {fresh : ℕ → Fresh} :
    Moving fair (sink.dispatch kind event pages fresh) (Kept (SinkHolds trail))
      past token store := by
  unfold AttemptSink.dispatch
  split
  · exact start_moving hkind hholds hterminal
  · exact returned_moving fun u hu => (hholds.grow hu).update rfl rfl rfl rfl rfl
  · exact fail_moving hkind hholds
  · split
    · exact raised_moving fun u hu => hholds.grow hu
    · exact commitSpecs_quiet hholds

theorem emit_moving (hkind : kind.Leaves trail) (hholds : SinkHolds trail sink token store)
    {event : AgentEvent} {pages : ℕ} {fresh : ℕ → Fresh} :
    Moving fair (sink.emit kind event pages fresh) (Kept (SinkHolds trail)) past token store := by
  have hbound : SinkHolds trail { sink with
      transientExecutionId := some (sink.transientExecutionId.getD event.executionId) }
      token store :=
    hholds.update rfl rfl rfl rfl rfl
  simp only [AttemptSink.emit]
  split
  · exact raised_moving fun u hu => hbound.grow hu
  · split
    · exact raised_moving fun u hu => hbound.grow hu
    · rename_i hterminal
      split
      · exact raised_moving fun u hu => hbound.grow hu
      · exact dispatch_moving hkind hbound (by simpa using hterminal)

lemma agentActivity_unmarked : RunEventType.agentActivity.value ∉ trailTypes := by decide

/-- An activity notice moves no trail; the sink moves past it. -/
theorem activity_moving (hholds : SinkHolds trail sink token store) {activity : AgentActivity}
    {fresh : Fresh} :
    Moving fair (sink.activity activity fresh) (Kept (SinkHolds trail)) past token store := by
  refine Prog.Holds.attempt_bind RunStore.Grows.refl
    (Q := fun r _ token' t => token' = token ∧ RunStore.Grows store t ∧
      ∀ event, r = .ok event → event.seq ≤ (t.log sink.runId).length) ?_ ?_
  · unfold AgentActivity.recorded
    cases activity.payload with
    | error e => exact fun t ht => ⟨rfl, ht, fun _ h => by cases h⟩
    | ok payload =>
        change Moving fair (record sink.runId _ none fresh >>= _) _ _ _ _
        refine Prog.Holds.bind RunStore.Grows.refl
          (record_moving token fun t next _ _ _ _ happended => ?_) ?_ ?_
        · refine Unmarked.quiet (fun args hargs => ?_) happended
          rw [List.mem_singleton.mp hargs]
          exact agentActivity_unmarked
        · rintro ⟨event, row⟩ past' token' t ⟨hgrows, ⟨seq, hseq, rfl, hle⟩ | ⟨⟨e, he⟩, -⟩⟩
          · cases hseq
            refine fun u hu => ⟨rfl, hgrows.trans hu, ?_⟩
            rintro event ⟨⟩
            exact hle.trans (hu.log sink.runId).length_le
          · cases he
        · rintro e past' token' t ⟨hgrows, ⟨seq, hseq, -⟩ | ⟨-, htoken⟩⟩
          · cases hseq
          · exact ⟨htoken, hgrows, fun _ h => by cases h⟩
  · rintro (e | event) past' token' t ⟨rfl, hgrows, hseq⟩
    · exact returned_moving fun u hu => hholds.grow (hgrows.trans hu)
    · refine returned_moving fun u hu => ?_
      have hseen := (hholds.grow (hgrows.trans hu)).seen
      have hnoted := (hseq event rfl).trans (hu.log sink.runId).length_le
      unfold AttemptSink.noteExternalAppend
      split
      · exact ⟨by simpa using hnoted, hholds.token⟩
      · exact hholds.grow (hgrows.trans hu)

lemma planner_leaves : CanonicalPlannerEventSink.kind.Leaves .plan :=
  ⟨rfl, rfl, by decide, by decide, rfl⟩

lemma reviewer_leaves : CanonicalReviewEventSink.kind.Leaves .review :=
  ⟨rfl, rfl, by decide, by decide, rfl⟩

lemma planCall_moving (hholds : SinkHolds .plan sink token store)
    (input : AttemptCall PlanReport) :
    Moving fair (planCall sink input) (Kept (SinkHolds .plan)) past token store := by
  cases input with
  | emit event pages fresh => exact emit_moving planner_leaves hholds
  | complete report fresh =>
      exact complete_moving planner_leaves hholds (payloadGet_head _ _ _)
  | fail id errorType message fresh => exact fail_moving planner_leaves hholds
  | activity activity fresh => exact activity_moving hholds

lemma reviewCall_moving (hholds : SinkHolds .review sink token store)
    (input : AttemptCall ReviewReport) :
    Moving fair (reviewCall sink input) (Kept (SinkHolds .review)) past token store := by
  cases input with
  | emit event pages fresh => exact emit_moving reviewer_leaves hholds
  | complete report fresh =>
      exact complete_moving reviewer_leaves hholds (payloadGet_head _ _ _)
  | fail id errorType message fresh => exact fail_moving reviewer_leaves hholds
  | activity activity fresh => exact activity_moving hholds

/-- A new sink remembers the number of a row, and holds nothing. -/
lemma newSink_moving {runId what : String} {make : ℕ → AttemptSink}
    (hmake : ∀ seq, (make seq).runId = runId ∧ (make seq).expectedSeq = seq ∧
      (make seq).startedPersisted = false) :
    Moving fair (runningSeq runId what >>= fun seq => pure (make seq))
      (fun r _ token' t => ∀ sink, r = .ok sink → SinkHolds trail sink token' t)
      past none store := by
  refine (runningSeq_moving what).bind RunStore.Grows.refl ?_
    (fun _ _ _ _ _ _ h => by cases h)
  rintro seq past' token' t ⟨rfl, -, hrow⟩
  rintro u hu sink ⟨⟩
  obtain ⟨row, -, -, hrowt, hseq⟩ := hrow seq rfl
  obtain ⟨hrun, hexpected, hstarted⟩ := hmake seq
  refine ⟨?_, by rw [hstarted, Bool.false_and, if_neg Bool.false_ne_true]⟩
  rw [hexpected, hrun, hseq]
  exact ((hrowt.trans hu).log runId).length_le

end Attempts

end Imece.RunRuntime
