import Imece.RunRuntime.AttemptMoves

/-!
# What the fix-loop recorder does to the trails

Its start is appended at the number of a row that is read after the search, so it is
new only if the log did not change in between.
-/
namespace Imece.RunRuntime

open Lib

section FixLoops

/-- What a fix-loop recorder of the run holds: its loop, from the start it persisted to
the terminal it recorded. -/
structure LoopHolds (runId fixLoopId : String) (recorder : CanonicalFixLoopRecorder)
    (token : Token) : Prop where
  run : recorder.runId = runId
  id : recorder.fixLoopId = fixLoopId
  order : recorder.terminalRecorded = true → recorder.startedPersisted = true
  token : token = if recorder.startedPersisted && !recorder.terminalRecorded then
    some ⟨.fixLoop, runId, fixLoopId⟩ else none

variable {fair : List (Access StoreAccess RunStore) → Access StoreAccess RunStore → Prop}
  {past : List (Access StoreAccess RunStore)} {token token₂ : Token} {store next : RunStore}
  {recorder : CanonicalFixLoopRecorder} {runId fixLoopId : String}

/-- The row is read, and the event appended at its number. -/
lemma loopCommit_moving {type : RunEventType}
    {fields : List (String × PyValue)} {fresh : Fresh}
    (hmove : ∀ row t next, RunStore.Grows store row → RunStore.Grows row t → Agrees token t →
      row.log runId = t.log runId →
      fair (⟨.read, row, row⟩ :: past) ⟨.append runId [type.value], t, next⟩ →
      AppendedArgs t next runId [{
        type := type.value
        payload := payloadOf fields
        correlationId := some fixLoopId
        source := CanonicalFixLoopRecorder.fixLoopSource }] →
        RecorderMove (⟨.read, row, row⟩ :: past) ⟨.append runId [type.value], t, next⟩
          token token₂) :
    Moving fair (CanonicalFixLoopRecorder.commit runId fixLoopId type fields fresh)
      (fun r _ token' t => RunStore.Grows store t ∧
        (r = .ok () ∧ token' = token₂ ∨ (∃ e, r = .error e) ∧ token' = token))
      past token store := by
  refine (runningSeq_moving "Fix loop recorder").bind RunStore.Grows.refl ?_
    fun e _ _ _ h => ⟨h.2.1, Or.inr ⟨⟨e, rfl⟩, h.1⟩⟩
  rintro seq past' token' t ⟨rfl, hgrows, hrow⟩
  obtain ⟨row, rfl, hstore, hrowt, hseq⟩ := hrow seq rfl
  refine (record_moving token₂
    fun u next htu hagrees hfair hlength happended => ?_).bind RunStore.Grows.refl ?_ ?_
  · have hlog := log_of_length (hrowt.trans htu) hseq.le (hlength seq rfl)
    exact hmove row u next hstore (hrowt.trans htu) hagrees hlog hfair happended
  · rintro made past'' token'' u ⟨hu, ⟨_, -, rfl, -⟩ | ⟨⟨e, h⟩, -⟩⟩
    · exact fun v hv => ⟨(hgrows.trans hu).trans hv, Or.inl ⟨rfl, rfl⟩⟩
    · cases h
  · rintro e past'' token'' u ⟨hu, ⟨_, h, -⟩ | ⟨-, htoken⟩⟩
    · cases h
    · exact ⟨hgrows.trans hu, Or.inr ⟨⟨e, rfl⟩, htoken⟩⟩

/-- Extra fields that leave the first one in place. -/
lemma updated_head {key : String} {value : PyValue} (extra : List (String × PyValue))
    (hextra : ∀ entry ∈ extra, entry.1 = key → entry.2 = value)
    (rest : List (String × PyValue)) :
    ∃ rest', CanonicalFixLoopRecorder.updated ((key, value) :: rest) extra =
      (key, value) :: rest' := by
  unfold CanonicalFixLoopRecorder.updated
  induction extra generalizing rest with
  | nil => exact ⟨rest, rfl⟩
  | cons entry extra ih =>
      obtain ⟨hentry, hrest⟩ := List.forall_mem_cons.mp hextra
      rw [List.foldl_cons]
      split
      · rw [List.map_cons]
        by_cases hkey : key = entry.1
        · rw [if_pos hkey, show entry = (key, value) from Prod.ext hkey.symm (hentry hkey.symm)]
          exact ih hrest _
        · rw [if_neg hkey]
          exact ih hrest _
      · exact ih hrest _

lemma payloadGet_updated {call : CanonicalFixLoopRecorder.Call}
    (h : call.keepsId fixLoopId = true) (rest : List (String × PyValue)) :
    payloadGet (payloadOf (CanonicalFixLoopRecorder.updated
      (("fix_loop_id", .str fixLoopId) :: rest) call.extra)) "fix_loop_id" = .str fixLoopId := by
  rw [CanonicalFixLoopRecorder.Call.keepsId, List.all_eq_true] at h
  obtain ⟨rest', hrest⟩ := @updated_head "fix_loop_id" (.str fixLoopId) call.extra
    (fun entry hentry hkey => by simpa [hkey] using h entry hentry) rest
  rw [hrest]
  exact payloadGet_head _ _ _

/-- What a call keeps of its recorder. -/
abbrev LoopKept (runId fixLoopId : String)
    (r : Except RunRuntimeError (Ended CanonicalFixLoopRecorder))
    (past : List (Access StoreAccess RunStore)) (token : Token) (store : RunStore) : Prop :=
  Kept (fun recorder token _ => LoopHolds runId fixLoopId recorder token) r past token store

/-- A checked append: its checks hold when it is made. -/
lemma step_moving (token₂ : Token) (hholds : LoopHolds runId fixLoopId recorder token)
    {checks : Except RunRuntimeError Unit} {type : RunEventType}
    {fields : List (String × PyValue)} {fresh : Fresh}
    {then_ : CanonicalFixLoopRecorder → CanonicalFixLoopRecorder}
    (hmove : checks = .ok () → ∀ row t next, RunStore.Grows store row → RunStore.Grows row t →
      Agrees token t → row.log runId = t.log runId →
      fair (⟨.read, row, row⟩ :: past) ⟨.append runId [type.value], t, next⟩ →
      AppendedArgs t next runId [{
        type := type.value
        payload := payloadOf fields
        correlationId := some recorder.fixLoopId
        source := CanonicalFixLoopRecorder.fixLoopSource }] →
        RecorderMove (⟨.read, row, row⟩ :: past) ⟨.append runId [type.value], t, next⟩
          token token₂)
    (hthen : checks = .ok () → LoopHolds runId fixLoopId (then_ recorder) token₂) :
    Moving fair (recorder.step checks type fields fresh then_) (LoopKept runId fixLoopId)
      past token store := by
  unfold CanonicalFixLoopRecorder.step
  cases checks with
  | error e => exact raised_moving fun _ _ => hholds
  | ok =>
      rw [hholds.run]
      refine (loopCommit_moving (hmove rfl)).attempt_bind RunStore.Grows.refl ?_
      rintro r past' token' t ⟨hgrows, ⟨rfl, rfl⟩ | ⟨⟨e, rfl⟩, rfl⟩⟩
      · exact returned_moving fun _ _ => hthen rfl
      · exact raised_moving fun _ _ => hholds

lemma step_quiet (hholds : LoopHolds runId fixLoopId recorder token)
    {checks : Except RunRuntimeError Unit} {type : RunEventType}
    {fields : List (String × PyValue)} {fresh : Fresh}
    {then_ : CanonicalFixLoopRecorder → CanonicalFixLoopRecorder}
    (htype : type.value ∉ trailTypes)
    (hthen : checks = .ok () → LoopHolds runId fixLoopId (then_ recorder) token) :
    Moving fair (recorder.step checks type fields fresh then_) (LoopKept runId fixLoopId)
      past token store := by
  refine step_moving token hholds (fun _ row t next _ _ _ _ _ happended => ?_) hthen
  refine Unmarked.quiet (fun args hargs => ?_) happended
  rw [List.mem_singleton.mp hargs]
  exact htype

lemma terminalChecks_ok (h : recorder.terminalChecks = .ok ()) :
    recorder.startedPersisted = true ∧ recorder.terminalRecorded = false := by
  obtain ⟨_, hstarted, hrest⟩ := except_bind_eq_ok.mp h
  obtain ⟨_, hterminal, -⟩ := except_bind_eq_ok.mp hrest
  constructor
  · by_contra hnot
    rw [CanonicalFixLoopRecorder.requireStarted, if_pos (by simpa using hnot)] at hstarted
    cases hstarted
  · by_contra hnot
    rw [CanonicalFixLoopRecorder.requireNotTerminal, if_pos (by simpa using hnot)] at hterminal
    cases hterminal

/-- The terminal of the loop, with its identifier where the call keeps it. -/
lemma loopTerminal_moving (hholds : LoopHolds runId fixLoopId recorder token)
    {type : RunEventType} (htype : type ∈ TrailKind.fixLoop.terminals)
    {fields : List (String × PyValue)} {fresh : Fresh}
    (hid : ∀ past access, fair past access →
      payloadGet (payloadOf fields) "fix_loop_id" = .str fixLoopId) :
    Moving fair (recorder.appendTerminal type fields fresh) (LoopKept runId fixLoopId)
      past token store := by
  refine step_moving none hholds (fun hchecks row t next _ _ _ _ hfair happended => ?_)
    (fun hchecks => ?_)
  · obtain ⟨hstarted, hterminal⟩ := terminalChecks_ok hchecks
    rw [hholds.token, hstarted, hterminal, Bool.not_false, Bool.and_true, if_pos rfl]
    exact ends_of_append ⟨.fixLoop, runId, fixLoopId⟩
      (List.mem_map.mpr ⟨type, htype, rfl⟩) (hid _ _ hfair) happended
  · obtain ⟨hstarted, -⟩ := terminalChecks_ok hchecks
    exact ⟨hholds.run, hholds.id, fun _ => hstarted, by simp⟩

/-- The start goes through only at the log the search has met. -/
lemma loopStart_moving (hfair : ∀ past access, fair past access → SteadyStart runId past access)
    (hholds : LoopHolds runId fixLoopId recorder token) {pages : ℕ} {fresh : Fresh} :
    Moving fair (recorder.start pages fresh) (LoopKept runId fixLoopId) past token store := by
  unfold CanonicalFixLoopRecorder.start
  split
  · exact raised_moving fun _ _ => hholds
  · rename_i hstarted
    have hterminal : recorder.terminalRecorded = false := by
      rw [← Bool.not_eq_true]
      exact fun h => hstarted (hholds.order h)
    have htoken := hholds.token
    rw [Bool.not_eq_true] at hstarted
    rw [hstarted, Bool.false_and, if_neg Bool.false_ne_true] at htoken
    subst htoken
    rw [hholds.run, hholds.id]
    refine (rejectReused_moving ⟨.fixLoop, runId, fixLoopId⟩ (by simp)
      (Nat.zero_le _)).attempt_bind RunStore.Grows.refl ?_
    rintro (e | ⟨⟩) past' token' t ⟨rfl, hgrows, hpage, -⟩
    · exact raised_moving fun _ _ => hholds
    · obtain ⟨page, rest, rfl, hstore, hpaget, hempty⟩ := hpage rfl
      refine step_moving (some ⟨.fixLoop, runId, fixLoopId⟩) hholds
        (fun _ row u next htrow hrowu hagrees hlog hsteady happended => ?_)
        (fun _ => ⟨hholds.run, hholds.id, fun _ => rfl, by simp [hterminal]⟩)
      have hlength := hfair _ _ hsteady rfl (congrArg List.length hlog)
      have hpagelog := log_of_length ((hpaget.trans htrow).trans hrowu) le_rfl
        (hlength.trans (congrArg List.length hlog))
      exact starts_of_append ⟨.fixLoop, runId, fixLoopId⟩ hagrees hempty rfl
        hpagelog rfl (payloadGet_head _ _ _) happended

theorem fixLoopCall_moving
    (hfair : ∀ past access, fair past access → SteadyStart runId past access)
    (hholds : LoopHolds runId fixLoopId recorder token)
    (input : CanonicalFixLoopRecorder.Call × Fresh)
    (hkeeps : ∀ past access, fair past access → input.1.keepsId fixLoopId = true) :
    Moving fair (recorder.call input) (LoopKept runId fixLoopId) past token store := by
  obtain ⟨call, fresh⟩ := input
  have hsame : ∀ active last, LoopHolds runId fixLoopId
      { recorder with active := active, lastCompletedAttemptIndex := last } token :=
    fun _ _ => ⟨hholds.run, hholds.id, hholds.order, hholds.token⟩
  cases call with
  | start pages => exact loopStart_moving hfair hholds
  | attemptStarted fixAttemptId attemptIndex triggerKind workerExecutionId beforeDiffSha256 =>
      change Moving fair (recorder.attemptStarted _ _ _ _ _ _) _ _ _ _
      exact step_quiet hholds (by decide) fun _ => hsame _ _
  | attemptCompleted fixAttemptId attemptIndex workerExecutionId beforeDiffSha256
      afterDiffSha256 changed =>
      change Moving fair (recorder.attemptCompleted _ _ _ _ _ _ _) _ _ _ _
      exact step_quiet hholds (by decide) fun _ => hsame _ _
  | attemptInterrupted reason outcomeUnknown extra =>
      change Moving fair (recorder.attemptInterrupted _ _ _ _) _ _ _ _
      exact step_quiet hholds (by decide) fun _ => hsame _ _
  | completed attemptsUsed finalExecutionId verificationId reviewId diffSha256 =>
      refine loopTerminal_moving hholds (by decide) fun _ _ _ => ?_
      rw [hholds.id]
      exact payloadGet_head _ _ _
  | exhausted reason attemptsUsed maxFixAttempts extra =>
      refine loopTerminal_moving hholds (by decide) fun past access haccess => ?_
      rw [hholds.id]
      exact payloadGet_updated (hkeeps past access haccess) _
  | failed reason extra =>
      refine loopTerminal_moving hholds (by decide) fun past access haccess => ?_
      rw [hholds.id]
      exact payloadGet_updated (hkeeps past access haccess) _
  | interrupted reason extra =>
      refine loopTerminal_moving hholds (by decide) fun past access haccess => ?_
      rw [hholds.id]
      exact payloadGet_updated (hkeeps past access haccess) _

end FixLoops

end Imece.RunRuntime
