import Imece.RunRuntime.AttemptMoves

/-!
# What a verification sink does to the trails

The sink itself writes whatever event it is given; that the start comes first and one
terminal last is its caller's order, and the runner keeps it.
-/
namespace Imece.RunRuntime

open Lib VerificationRuntime

section Verifications

/-- What a verification sink knows and holds. -/
structure VerificationHolds (sink : CanonicalVerificationEventSink) (held : Bool)
    (token : Token) (store : RunStore) : Prop where
  seen : sink.expectedSeq ≤ (store.log sink.runId).length
  token : token = if held then some ⟨.verification, sink.runId, sink.verificationId⟩ else none

variable {fair : List (Access StoreAccess RunStore) → Access StoreAccess RunStore → Prop}
  {past : List (Access StoreAccess RunStore)} {token token₂ : Token} {store next : RunStore}
  {sink : CanonicalVerificationEventSink} {held : Bool}

lemma VerificationHolds.grow (h : VerificationHolds sink held token store)
    (hgrows : RunStore.Grows store next) : VerificationHolds sink held token next :=
  ⟨h.seen.trans (hgrows.log sink.runId).length_le, h.token⟩

/-- What the attempt is after an event of this kind. -/
def VerificationEventKind.holds (held : Bool) : VerificationEventKind → Bool
  | .started .. => true
  | .completed .. | .interrupted .. => false
  | _ => held

/-- A terminal comes only after the start. -/
def VerificationEventKind.inOrder (held : Bool) : VerificationEventKind → Bool
  | .completed .. | .interrupted .. => held
  | _ => true

lemma VerificationEventKind.inOrder_held (kind : VerificationEventKind) :
    kind.inOrder true = true := by
  cases kind <;> rfl

/-- What the attempt is after a call. -/
def VerificationEventKind.after (held : Bool) (kind : VerificationEventKind) :
    Except RunRuntimeError Unit → Bool
  | .ok () => kind.holds held
  | .error _ => held

/-- What a call leaves of its sink, and what its accesses show of it. -/
def Emitted (sink : CanonicalVerificationEventSink) (held : Bool) (kind : VerificationEventKind)
    (past : List (Access StoreAccess RunStore))
    (r : Except RunRuntimeError (Ended CanonicalVerificationEventSink))
    (past' : List (Access StoreAccess RunStore)) (token : Token) (store : RunStore) : Prop :=
  ∀ ended, r = .ok ended → ended.object.runId = sink.runId ∧
    VerificationHolds ended.object (kind.after held ended.outcome) token store ∧
    opened sink.runId past' = kind.after (opened sink.runId past) ended.outcome

lemma opened_reads {runId : String} {past' : List (Access StoreAccess RunStore)}
    (h : ReadSince past past') : opened runId past' = opened runId past := by
  obtain ⟨reads, rfl, hreads⟩ := h
  induction reads with
  | nil => rfl
  | cons access reads ih =>
      obtain ⟨hread, hrest⟩ := List.forall_mem_cons.mp hreads
      rw [List.cons_append, opened, ih hrest, hread]
      simp [verificationEnds]

lemma opened_still {runId : String} {label : StoreAccess} {met : RunStore} :
    opened runId (⟨label, met, met⟩ :: past) = opened runId past := by
  rw [opened, if_neg (Nat.lt_irrefl _)]

lemma emitted_raised {kind : VerificationEventKind} {error : RunRuntimeError}
    {start : List (Access StoreAccess RunStore)} (hholds : VerificationHolds sink held token store)
    (hopened : opened sink.runId past = opened sink.runId start) :
    Moving fair (raised sink error) (Emitted sink held kind start) past token store := by
  rintro t ht ended ⟨⟩
  exact ⟨rfl, hholds.grow ht, hopened⟩

/-- The type of the trail an event is written under, if any. -/
def VerificationEventKind.trailType : VerificationEventKind → Option RunEventType
  | .started .. => some .verificationStarted
  | .completed _ => some .verificationCompleted
  | .interrupted .. => some .verificationInterrupted
  | _ => none

lemma specs_trailType {event : VerificationEvent} {spec : EventArgs}
    (h : CanonicalVerificationEventSink.specs event = .ok spec) :
    (∀ type, event.kind.trailType = some type → spec.type = type.value ∧
      payloadGet spec.payload "verification_id" = .str event.verificationId) ∧
    (event.kind.trailType = none → spec.type ∉ trailTypes) := by
  obtain ⟨id, kind⟩ := event
  cases kind with
  | started planId checkCount =>
      cases h
      refine ⟨?_, nofun⟩
      rintro type ⟨⟩
      exact ⟨rfl, payloadGet_head _ _ _⟩
  | checkStarted check =>
      cases h
      exact ⟨nofun, fun _ => (by decide : RunEventType.verificationCheckStarted.value ∉ trailTypes)⟩
  | checkCompleted check result =>
      obtain ⟨_, -, rfl⟩ := except_map_eq_ok.mp h
      exact ⟨nofun, fun _ =>
        (by decide : RunEventType.verificationCheckCompleted.value ∉ trailTypes)⟩
  | checkFailed check result =>
      obtain ⟨_, -, rfl⟩ := except_map_eq_ok.mp h
      exact ⟨nofun, fun _ => (by decide : RunEventType.verificationCheckFailed.value ∉ trailTypes)⟩
  | completed report =>
      simp only [CanonicalVerificationEventSink.specs] at h
      split at h
      · cases h
      · rename_i hid
        rw [ne_eq, not_not] at hid
        cases h
        refine ⟨?_, nofun⟩
        rintro type ⟨⟩
        refine ⟨rfl, ?_⟩
        rw [← hid]
        exact payloadGet_head _ _ _
  | interrupted planId reason =>
      cases h
      refine ⟨?_, nofun⟩
      rintro type ⟨⟩
      exact ⟨rfl, payloadGet_head _ _ _⟩
  | other className => cases h

lemma VerificationEventKind.holds_cases (kind : VerificationEventKind) (held : Bool) :
    kind.trailType = some .verificationStarted ∧ kind.holds held = true ∨
      (∃ type ∈ TrailKind.verification.terminals, kind.trailType = some type ∧
        kind.inOrder held = held ∧ kind.holds held = false) ∨
      kind.trailType = none ∧ kind.holds held = held := by
  cases kind with
  | started planId checkCount => exact Or.inl ⟨rfl, rfl⟩
  | completed report => exact Or.inr (Or.inl ⟨.verificationCompleted, by decide, rfl, rfl, rfl⟩)
  | interrupted planId reason =>
      exact Or.inr (Or.inl ⟨.verificationInterrupted, by decide, rfl, rfl, rfl⟩)
  | checkStarted | checkCompleted | checkFailed | other => exact Or.inr (Or.inr ⟨rfl, rfl⟩)

lemma mem_verificationEnds {runId : String} {type : RunEventType}
    (htype : type ∈ TrailKind.verification.terminals) :
    .append runId [type.value] ∈ verificationEnds runId :=
  List.mem_map.mpr ⟨type, htype, rfl⟩

/-- An append that went through shows the event. -/
lemma opened_append {event : VerificationEvent} {spec : EventArgs} {runId : String}
    (hspec : CanonicalVerificationEventSink.specs event = .ok spec) {met left : RunStore}
    (hlonger : (met.log runId).length < (left.log runId).length) :
    opened runId (⟨.append runId [spec.type], met, left⟩ :: past) =
      event.kind.holds (opened runId past) := by
  obtain ⟨hsome, hnone⟩ := specs_trailType hspec
  rw [opened, if_pos hlonger]
  rcases event.kind.holds_cases (opened runId past) with
    ⟨htype, hnext⟩ | ⟨type, hterminal, htype, -, hnext⟩ | ⟨htype, hnext⟩
  · rw [hnext, (hsome _ htype).1, if_pos rfl]
  · have hnot : type.value ≠ RunEventType.verificationStarted.value := by
      intro h
      rw [RunEventType.value_injective h] at hterminal
      exact absurd hterminal (by decide)
    rw [hnext, (hsome _ htype).1, if_neg (by simpa using hnot),
      if_pos (mem_verificationEnds hterminal)]
  · have hunmarked := hnone htype
    rw [hnext, if_neg, if_neg]
    · intro hmem
      obtain ⟨type, hterminal, hlabel⟩ := List.mem_map.mp hmem
      have hmarked : ∀ type ∈ TrailKind.verification.terminals, type.value ∈ trailTypes := by
        decide
      refine hunmarked ?_
      rw [← List.singleton_inj.mp (StoreAccess.append.inj hlabel).2]
      exact hmarked type hterminal
    · intro hlabel
      refine hunmarked ?_
      rw [List.singleton_inj.mp (StoreAccess.append.inj hlabel).2]
      decide

lemma commitOne_moving {event : VerificationEvent} {spec : EventArgs} {fresh : ℕ → Fresh}
    {start : List (Access StoreAccess RunStore)}
    {next : Except RunRuntimeError ℕ → RunProg (Ended CanonicalVerificationEventSink)}
    (hspec : CanonicalVerificationEventSink.specs event = .ok spec)
    (hok : ∀ seq, next (.ok seq) = returned { sink with expectedSeq := seq })
    (herror : ∀ e, next (.error e) = raised sink e)
    (hholds : VerificationHolds sink held token store) (hreads : ReadSince start past)
    (hmove : ∀ t next, RunStore.Grows store t → Agrees token t →
      fair past ⟨.append sink.runId [spec.type], t, next⟩ →
        sink.expectedSeq = (t.log sink.runId).length → AppendedArgs t next sink.runId [spec] →
          RecorderMove past ⟨.append sink.runId [spec.type], t, next⟩ token
            (if event.kind.holds held then some ⟨.verification, sink.runId, sink.verificationId⟩
              else none)) :
    Moving fair ((commitSpecs sink.runId [spec] sink.expectedSeq fresh).attempt >>= next)
      (Emitted sink held event.kind start) past token store := by
  have hstart := @opened_reads _ sink.runId _ hreads
  refine Prog.Holds.attempt_bind RunStore.Grows.refl (commitSpecs_moving hmove) ?_
  rintro r past' token' t ⟨⟨hgrows, ⟨seq, rfl, rfl, hseq⟩ | ⟨⟨e, rfl⟩, rfl⟩⟩, htried⟩
  · rw [hok]
    rintro u hu ended ⟨⟩
    refine ⟨rfl, ⟨hseq.trans (hu.log sink.runId).length_le, rfl⟩, ?_⟩
    rcases htried with ⟨-, met, left, rfl, hlonger⟩ | ⟨⟨e, herror⟩, -⟩
    · rw [← hstart]
      exact opened_append hspec hlonger
    · cases herror
  · rw [herror]
    refine emitted_raised (hholds.grow hgrows) ?_
    rcases htried with ⟨⟨_, hok⟩, -⟩ | ⟨-, rfl | ⟨met, rfl⟩⟩
    · cases hok
    · exact hstart
    · exact opened_still.trans hstart

lemma requireFresh_eq {event : VerificationEvent} {pages : ℕ} :
    sink.requireFresh event pages =
      if event.kind.trailType = some .verificationStarted then
        rejectReused sink.runId .verificationStarted "verification_id" sink.verificationId pages 0
      else pure () := by
  unfold CanonicalVerificationEventSink.requireFresh
  obtain ⟨id, kind⟩ := event
  cases kind <;> rfl

/-- One event of an attempt, where a terminal is appended in order. -/
theorem verificationEmit_moving (hholds : VerificationHolds sink held token store)
    {event : VerificationEvent} {pages : ℕ} {fresh : ℕ → Fresh}
    (horder : ∀ access, fair past access → access.label ∈ verificationEnds sink.runId →
      event.kind.inOrder held = true) :
    Moving fair (sink.emit (event, pages, fresh)) (Emitted sink held event.kind past)
      past token store := by
  simp only [CanonicalVerificationEventSink.emit]
  split
  · exact emitted_raised hholds rfl
  · rename_i hid
    rw [ne_eq, not_not] at hid
    rw [requireFresh_eq]
    rcases event.kind.holds_cases held with
      ⟨htype, hnext⟩ | ⟨type, hterminal, htype, hinOrder, hnext⟩ | ⟨htype, hnext⟩
    · rw [if_pos htype]
      refine Prog.Holds.attempt_bind RunStore.Grows.refl (rejectReused_moving
        ⟨.verification, sink.runId, sink.verificationId⟩ (by simp) (Nat.zero_le _)) ?_
      rintro (e | ⟨⟩) past' token' t ⟨rfl, hgrows, hpage, hreads⟩
      · exact emitted_raised (hholds.grow hgrows) (opened_reads hreads)
      · obtain ⟨page, rest, rfl, hstore, hpaget, hempty⟩ := hpage rfl
        cases hspec : CanonicalVerificationEventSink.specs event with
        | error e => exact emitted_raised (hholds.grow hgrows) (opened_reads hreads)
        | ok spec =>
            obtain ⟨hspecType, hspecId⟩ := (specs_trailType hspec).1 _ htype
            refine commitOne_moving hspec (fun _ => rfl) (fun _ => rfl) (hholds.grow hgrows) hreads
              fun u next htu hagrees _ hseq happended => ?_
            have hlog := log_of_length (hpaget.trans htu)
              (hholds.seen.trans (hstore.log sink.runId).length_le) hseq
            have htoken := hholds.token
            rw [hnext, if_pos rfl]
            cases held with
            | true =>
                -- the search would have met the start that the sink has persisted
                rw [if_pos rfl] at htoken
                obtain ⟨start, hstart, htrail⟩ := hagrees.2 _ htoken
                rw [RunStore.starts, hlog] at hempty
                have hnot := TrailKey.marks_starts hempty start (by rw [htrail]; simp)
                rw [hstart] at hnot
                cases hnot
            | false =>
                rw [if_neg Bool.false_ne_true] at htoken
                rw [htoken] at hagrees ⊢
                exact starts_of_append ⟨.verification, sink.runId, sink.verificationId⟩
                  hagrees hempty rfl hlog hspecType (hid ▸ hspecId) happended
    · have hnot : event.kind.trailType ≠ some .verificationStarted := by
        rw [htype]
        rintro ⟨⟩
        exact absurd hterminal (by decide)
      rw [if_neg hnot]
      cases hspec : CanonicalVerificationEventSink.specs event with
      | error e => exact emitted_raised hholds rfl
      | ok spec =>
          obtain ⟨hspecType, hspecId⟩ := (specs_trailType hspec).1 _ htype
          refine commitOne_moving hspec (fun _ => rfl) (fun _ => rfl) hholds (.refl past)
            fun t next _ _ hfair _ happended => ?_
          have hheld : held = true := by
            rw [← hinOrder]
            refine horder _ hfair ?_
            rw [hspecType]
            exact mem_verificationEnds hterminal
          rw [hnext, hholds.token, if_pos hheld, if_neg Bool.false_ne_true]
          exact ends_of_append ⟨.verification, sink.runId, sink.verificationId⟩
            (List.mem_map.mpr ⟨type, hterminal, hspecType.symm⟩) (hid ▸ hspecId) happended
    · rw [if_neg (by simp [htype])]
      cases hspec : CanonicalVerificationEventSink.specs event with
      | error e => exact emitted_raised hholds rfl
      | ok spec =>
          refine commitOne_moving hspec (fun _ => rfl) (fun _ => rfl) hholds (.refl past)
            fun t next _ _ _ _ happended => ?_
          rw [hnext, ← hholds.token]
          refine Unmarked.quiet (fun args hargs => ?_) happended
          rw [List.mem_singleton.mp hargs]
          exact (specs_trailType hspec).2 htype

/-- A sink that is given its terminals in order, whatever else it is given. -/
theorem verificationSession_moving {runId : String}
    (inputs : List (VerificationEvent × ℕ × (ℕ → Fresh))) (hrun : sink.runId = runId)
    (hholds : VerificationHolds sink (opened runId past) token store) :
    Moving (OrderedTerminal runId) (session CanonicalVerificationEventSink.emit sink inputs)
      (fun _ _ _ _ => True) past token store := by
  refine @session_moving_past _ past token store _ _ CanonicalVerificationEventSink.emit
    (fun sink past token store => sink.runId = runId ∧
      VerificationHolds sink (opened runId past) token store) inputs ?_ sink ⟨hrun, hholds⟩
  rintro sink ⟨event, pages, fresh⟩ - past token store ⟨rfl, hholds⟩
  refine (verificationEmit_moving hholds fun access hfair hends => ?_).weaken ?_
  · rw [hfair hends]
    exact event.kind.inOrder_held
  · intro r past' token' t hemitted ended hended
    obtain ⟨hsame, hafter, hopened⟩ := hemitted ended hended
    rw [hopened]
    exact ⟨hsame, hafter⟩

/-- What a step of the runner leaves, when it goes on. -/
def GoesOn {α : Type} (sinkOf : α → CanonicalVerificationEventSink) (held : Bool)
    (r : Except RunRuntimeError (Except VerificationRuntimeError α))
    (_ : List (Access StoreAccess RunStore)) (token : Token) (store : RunStore) : Prop :=
  ∀ a, r = .ok (.ok a) → VerificationHolds (sinkOf a) held token store

variable {α : Type} {sinkOf : α → CanonicalVerificationEventSink}

lemma goesOn_stop {e : VerificationRuntimeError} :
    Moving fair (pure (.error e) : RunProg (Except VerificationRuntimeError α))
      (GoesOn sinkOf held) past token store :=
  fun _ _ _ h => by cases h

lemma runnerEmit_moving (hholds : VerificationHolds sink held token store)
    {event : VerificationEvent} {pages : ℕ} {fresh : ℕ → Fresh}
    (horder : event.kind.inOrder held = true) :
    Moving fair (VerificationRunner.emit sink event pages fresh)
      (GoesOn id (event.kind.holds held)) past token store := by
  refine Prog.Holds.bind RunStore.Grows.refl (verificationEmit_moving hholds fun _ _ _ => horder) ?_
    fun _ _ _ _ _ _ h => by cases h
  intro ended past' token' t hended
  obtain ⟨-, hafter, -⟩ := hended ended rfl
  cases houtcome : ended.outcome with
  | ok =>
      rw [houtcome] at hafter
      rintro u hu sink' ⟨⟩
      exact hafter.grow hu
  | error e => exact goesOn_stop

/-- A step that goes on, followed by what comes next. -/
lemma goesOn_bind {β : Type} {p : RunProg (Except VerificationRuntimeError α)}
    {next : Except VerificationRuntimeError α → RunProg (Except VerificationRuntimeError β)}
    {post : Except RunRuntimeError (Except VerificationRuntimeError β) →
      List (Access StoreAccess RunStore) → Token → RunStore → Prop}
    (hp : Moving fair p (GoesOn sinkOf held) past token store)
    (hstop : ∀ r past' token' t, (∀ b, r ≠ .ok (.ok b)) → post r past' token' t)
    (herror : ∀ e, next (.error e) = pure (.error e))
    (hok : ∀ a past' token' t, VerificationHolds (sinkOf a) held token' t →
      Moving fair (next (.ok a)) post past' token' t) :
    Moving fair (p >>= next) post past token store := by
  refine hp.bind RunStore.Grows.refl ?_ fun _ _ _ _ _ => hstop _ _ _ _ fun _ h => by cases h
  rintro (e | a) past' token' t hgoes
  · rw [herror]
    exact fun _ _ => hstop _ _ _ _ fun _ h => by cases h
  · exact hok a past' token' t (hgoes a rfl)

lemma goesOn_none (r : Except RunRuntimeError (Except VerificationRuntimeError α))
    (past : List (Access StoreAccess RunStore)) (token : Token) (store : RunStore)
    (h : ∀ a, r ≠ .ok (.ok a)) : GoesOn sinkOf held r past token store :=
  fun a ha => absurd ha (h a)

lemma runCheck_moving (hholds : VerificationHolds sink true token store)
    {verificationId planId : String} {check : VerificationCheck} {outcome : ProcessOutcome}
    {pages : ℕ} {fresh : ℕ → ℕ → Fresh} :
    Moving fair (VerificationRunner.runCheck sink verificationId planId check outcome pages fresh)
      (GoesOn Prod.fst true) past token store := by
  refine goesOn_bind (runnerEmit_moving hholds rfl) goesOn_none (fun _ => rfl)
    fun sink past token t hholds => ?_
  cases outcome with
  | cancelled =>
      refine goesOn_bind (runnerEmit_moving hholds rfl) goesOn_none (fun _ => rfl)
        fun sink past token t hholds => goesOn_stop
  | runtimeError errorType message =>
      simp only
      split
      · exact goesOn_stop
      · refine goesOn_bind (runnerEmit_moving hholds rfl) goesOn_none (fun _ => rfl)
          fun sink past token t hholds => ?_
        rintro u hu _ ⟨⟩
        exact hholds.grow hu
  | raised => exact goesOn_stop
  | foreign => exact goesOn_stop
  | result process =>
      refine goesOn_bind (runnerEmit_moving hholds rfl) goesOn_none (fun _ => rfl)
        fun sink past token t hholds => ?_
      rintro u hu _ ⟨⟩
      exact hholds.grow hu

lemma runChecks_moving {verificationId planId : String} {outcomes : ℕ → ProcessOutcome}
    {pages : ℕ} {fresh : ℕ → ℕ → ℕ → Fresh} {checks : List (VerificationCheck × ℕ)}
    {results : List VerificationCheckResult} (hholds : VerificationHolds sink true token store) :
    Moving fair (VerificationRunner.runChecks verificationId planId outcomes pages fresh sink
      checks results) (GoesOn Prod.fst true) past token store := by
  induction checks generalizing sink results past token store with
  | nil =>
      rintro u hu _ ⟨⟩
      exact hholds.grow hu
  | cons check checks ih =>
      exact goesOn_bind (runCheck_moving hholds) goesOn_none (fun _ => rfl)
        fun made past token t hholds => ih hholds

/-- A whole verification attempt, on a new sink. -/
theorem verificationRun_moving {verificationId : String} {plan : VerificationPlan}
    {outcomes : ℕ → ProcessOutcome} {durationMs pages : ℕ} {fresh : ℕ → ℕ → ℕ → Fresh}
    (hholds : VerificationHolds sink false token store) :
    Moving fair (VerificationRunner.run sink plan verificationId outcomes durationMs pages fresh)
      (fun _ _ _ _ => True) past token store := by
  unfold VerificationRunner.run
  split
  · exact fun _ _ => trivial
  · refine goesOn_bind (runnerEmit_moving hholds rfl) (fun _ _ _ _ _ => trivial) (fun _ => rfl)
      fun sink past token t hholds => ?_
    refine goesOn_bind (runChecks_moving hholds) (fun _ _ _ _ _ => trivial) (fun _ => rfl)
      fun made past token t hholds => ?_
    simp only
    split
    · exact fun _ _ => trivial
    · exact goesOn_bind (runnerEmit_moving hholds rfl) (fun _ _ _ _ _ => trivial) (fun _ => rfl)
        fun _ _ _ _ _ _ _ => trivial

end Verifications

end Imece.RunRuntime
