import Imece.Lib.Journal
import Imece.RunRuntime.Trails
import Imece.RunRuntime.FullHistory

/-!
# The journals of recorders

An object that records into one run is called again and again, among other writers and
store failures. Each call leaves what it appended and, if it ended, the object and its outcome.
-/
namespace Imece.RunRuntime

open Lib

/-- The event carries what it was recorded with. -/
structure RecordedAs (args : EventArgs) (event : RunEvent) : Prop extends
    BuiltFrom args event where
  executionId : event.executionId = args.executionId
  correlationId : event.correlationId = args.correlationId
  source : event.source = args.source

lemma recordedAs_of_build {runId : String} {seq : ℕ} {args : EventArgs} {fresh : Fresh}
    {event : RunEvent} (h : buildEvent runId seq args fresh = .ok event) :
    RecordedAs args event := by
  have hbuilt := builtFrom_of_build h
  unfold buildEvent at h
  repeat' split at h
  all_goals cases h
  exact ⟨hbuilt, rfl, rfl, rfl⟩

lemma RecordedAs.isType {args : EventArgs} {event : RunEvent} (h : RecordedAs args event)
    {t : RunEventType} (htype : args.type = t.value) (u : RunEventType) :
    event.isType u = decide (t = u) := by
  rw [Bool.eq_iff_iff, decide_eq_true_eq, RunEvent.isType, beq_iff_eq, h.type, htype]
  exact RunEventType.value_injective.eq_iff

lemma RecordedAs.get {args : EventArgs} {event : RunEvent} (h : RecordedAs args event)
    (key : String) : event.payload.get key = payloadGet args.payload key := by
  rw [h.payload]
  rfl

/-- A program of the runtime writes into the run, from any store, with its journal `own`. -/
abbrev Journals (runId : String) (always : List RunEvent → Prop) {α : Type}
    (post : Except RunRuntimeError α → List RunEvent → Prop) (p : RunProg α)
    (own : List RunEvent) : Prop :=
  p.Writes (·.log runId) .initial RunStore.Sound always post own

section Rules

variable {runId : String} {always : List RunEvent → Prop} {own : List RunEvent}

/-- One event at the end of the journal, or an exception and nothing. -/
lemma record_journals {args : EventArgs} {expected : Option ℕ} {fresh : Fresh}
    {Q : Except RunRuntimeError (RunEvent × RunRecord) → List RunEvent → Prop}
    (halways : always own)
    (hok : ∀ event row, RecordedAs args event → always (own ++ [event]) ∧
      Q (.ok (event, row)) (own ++ [event]))
    (herror : ∀ e, Q (.error e) own) :
    Journals runId always Q (record runId args expected fresh) own := by
  refine Prog.Writes.call ?_ fun t ht => ?_
  · cases hresult : result (RunStore.appendEvent runId args (expectedSeq expected) fresh)
        RunStore.initial with
    | error e => exact herror e
    | ok made =>
        obtain ⟨_, _, hfound, -⟩ := RunStore.appendEvent_ok (result_eq_ok.mp hresult)
        cases hfound
  · cases hresult : result (RunStore.appendEvent runId args (expectedSeq expected) fresh) t with
    | error e =>
        have hsame : after (RunStore.appendEvent runId args (expectedSeq expected) fresh) t = t :=
          RunStore.appendEvent_failsClean runId args _ fresh t e _ (result_eq_error.mp hresult)
        rw [hsame]
        refine ⟨ht, [], (List.append_nil _).symm, ?_⟩
        rw [List.append_nil]
        exact ⟨halways, herror e⟩
    | ok made =>
        obtain ⟨event, row⟩ := made
        have hmade := result_eq_ok.mp hresult
        obtain ⟨happended, -⟩ := RunStore.appendEvent_args (ht runId) hmade
        obtain ⟨current, required, hcurrent, -, -, hwrite⟩ := RunStore.appendEvent_ok hmade
        have hwrote := RunStore.writeEvent_ok hcurrent hwrite
        obtain ⟨halways', hpost⟩ := hok event row (recordedAs_of_build hwrote.built)
        exact ⟨ht.grow happended.grows, [event], hwrote.appended.log, halways', hpost⟩

/-- A batch of one event. -/
lemma recordMany_journals {spec : RunEventSpec} {expected : ℕ} {fresh : Fresh}
    {Q : Except RunRuntimeError (List RunEvent × RunRecord) → List RunEvent → Prop}
    (halways : always own)
    (hok : ∀ event row, RecordedAs spec.args event → always (own ++ [event]) ∧
      Q (.ok ([event], row)) (own ++ [event]))
    (herror : ∀ e, Q (.error e) own) :
    Journals runId always Q (recordMany runId [(spec, fresh)] (some expected)) own := by
  let body := RunStore.appendEvents runId [(spec, fresh)] (expectedSeq (some expected))
  change Journals runId always Q (Prog.call _ body) own
  refine Prog.Writes.call ?_ fun t ht => ?_
  · cases hresult : result body RunStore.initial with
    | error e => exact herror e
    | ok made =>
        obtain ⟨_, _, -, hfound, -⟩ := RunStore.appendEvents_ok (result_eq_ok.mp hresult)
        cases hfound
  · cases hresult : result body t with
    | error e =>
        have hsame : after body t = t :=
          RunStore.appendEvents_failsClean runId _ _ t e _ (result_eq_error.mp hresult)
        rw [hsame]
        refine ⟨ht, [], (List.append_nil _).symm, ?_⟩
        rw [List.append_nil]
        exact ⟨halways, herror e⟩
    | ok made =>
        obtain ⟨events, row⟩ := made
        have hmade := result_eq_ok.mp hresult
        obtain ⟨-, hextends, hlog, -⟩ := RunStore.appendEvents_extends (ht runId) hmade
        obtain ⟨current, required, -, hcurrent, -, -, hwrite⟩ := RunStore.appendEvents_ok hmade
        have hbuilt := RunStore.writeEvents_each (R := RecordedAs)
          (fun _ _ _ _ => recordedAs_of_build) hcurrent hwrite
        cases hbuilt with
        | cons hfirst hrest =>
            cases hrest
            obtain ⟨halways', hpost⟩ := hok _ row hfirst
            exact ⟨ht.grow hextends.grows, [_], hlog, halways', hpost⟩

/-- One spec, committed at an expected number. -/
lemma commitSpecs_journals {args : EventArgs} {expected : ℕ} {fresh : ℕ → Fresh}
    {Q : Except RunRuntimeError ℕ → List RunEvent → Prop} (halways : always own)
    (hok : ∀ event seq, RecordedAs args event → always (own ++ [event]) ∧
      Q (.ok seq) (own ++ [event]))
    (herror : ∀ e, Q (.error e) own) :
    Journals runId always Q (commitSpecs runId [args] expected fresh) own := by
  unfold commitSpecs
  simp only [List.mapM_cons, List.mapM_nil]
  cases hspec : RunEventSpec.ofArgs args with
  | error e => exact herror e
  | ok spec =>
      have hargs : spec.args = args := RunEventSpec.ofArgs_args hspec
      change Journals runId always Q
        (recordMany runId [(spec, fresh 0)] (some expected) >>= fun made => _) own
      refine Prog.Writes.bind (Q := fun r own' =>
        (∃ event, own' = own ++ [event] ∧ RecordedAs args event) ∧ (∃ made, r = .ok made) ∨
          (∃ e, r = .error e) ∧ own' = own) ?_ ?_ ?_
      · refine recordMany_journals halways (fun event row hrecorded => ?_)
          (fun e => Or.inr ⟨⟨e, rfl⟩, rfl⟩)
        rw [hargs] at hrecorded
        exact ⟨(hok event 0 hrecorded).1, Or.inl ⟨⟨event, rfl, hrecorded⟩, _, rfl⟩⟩
      · rintro made own' (⟨⟨event, rfl, hrecorded⟩, -⟩ | ⟨⟨e, h⟩, -⟩)
        · exact (hok event _ hrecorded).2
        · cases h
      · rintro e own' (⟨-, _, h⟩ | ⟨-, rfl⟩)
        · cases h
        · exact herror e

lemma getRun_journals {Q : Except RunRuntimeError RunRecord → List RunEvent → Prop}
    (halways : always own) (hpost : ∀ r, Q r own) :
    Journals runId always Q (getRun runId) own :=
  (Prog.ReadOnly.call (RunStore.getRun_after runId)).writes halways hpost

lemma runningSeq_journals {what : String} {Q : Except RunRuntimeError ℕ → List RunEvent → Prop}
    (halways : always own) (hpost : ∀ r, Q r own) :
    Journals runId always Q (runningSeq runId what) own := by
  refine Prog.ReadOnly.writes ?_ halways hpost
  refine Prog.ReadOnly.bind (.call (RunStore.getRun_after runId)) fun run => ?_
  split <;> trivial

end Rules

/-- One call of an object: what its accesses were, and the object and outcome it left if it
ended. A call that did not end is the last one. -/
structure CallRecord (α ι : Type) where
  before : α
  input : ι
  accesses : List (Access StoreAccess RunStore)
  ended : Option (Ended α)

/-- What the call appended to the run. -/
def CallRecord.own {α ι : Type} (runId : String) (record : CallRecord α ι) : List RunEvent :=
  journal (·.log runId) record.accesses

/-- What the calls appended to the run, in order. -/
def journalOf {α ι : Type} (runId : String) (records : List (CallRecord α ι)) : List RunEvent :=
  records.flatMap (·.own runId)

section Objects

variable {α ι κ : Type} (step : RunStore → κ → RunStore) (method : α → ι → RunProg (Ended α))

/-- The calls of an object one after another, each with the turns around its accesses. -/
def objectRun : α → List (ι × List (Turn κ)) → RunStore → List (CallRecord α ι) × RunStore
  | _, [], store => ([], store)
  | object, (input, turns) :: rest, store =>
      let run := (method object input).attended step .initial turns store
      match run.result with
      | some (.ok ended) =>
          let (records, last) := objectRun ended.object rest run.last
          (⟨object, input, run.accesses, some ended⟩ :: records, last)
      | _ => ([⟨object, input, run.accesses, none⟩], run.last)

variable {step method}

/-- What is kept from call to call holds before each of them. A call that has not ended is the
last one. -/
theorem objectRun_invariant {I : List (CallRecord α ι) → α → RunStore → Prop}
    {J : List (CallRecord α ι) → RunStore → Prop}
    {P : List (CallRecord α ι) → CallRecord α ι → Prop}
    (hlast : ∀ front object store, I front object store → J front store)
    (hcall : ∀ front object input store (turns : List (Turn κ)), I front object store →
      let run := (method object input).attended step .initial turns store
      let record : Option (Ended α) → CallRecord α ι := fun ended =>
        ⟨object, input, run.accesses, ended⟩
      (∀ ended, run.result = some (.ok ended) → P front (record (some ended)) ∧
          I (front ++ [record (some ended)]) ended.object run.last) ∧
        P front (record none) ∧ J (front ++ [record none]) run.last)
    {object : α} {done : List (CallRecord α ι)} {store : RunStore} (hobject : I done object store)
    (hdone : Machine.Justified P done) (calls : List (ι × List (Turn κ))) :
    Machine.Justified P (done ++ (objectRun step method object calls store).1) ∧
      J (done ++ (objectRun step method object calls store).1)
        (objectRun step method object calls store).2 := by
  induction calls generalizing object done store with
  | nil =>
      rw [objectRun, List.append_nil]
      exact ⟨hdone, hlast done object store hobject⟩
  | cons call rest ih =>
      obtain ⟨input, turns⟩ := call
      obtain ⟨hended, hunfinished, hstopped⟩ := hcall done object input store turns hobject
      simp only [objectRun]
      split
      · rename_i ended hresult
        obtain ⟨hrecord, hnext⟩ := hended ended hresult
        have hrest := ih hnext (hdone.append hrecord)
        rwa [List.append_assoc, List.singleton_append] at hrest
      · exact ⟨hdone.append hunfinished, hstopped⟩

variable {runId : String} {always : List RunEvent → Prop}
  {I : α → List RunEvent → Prop} {ok : α → ι → Ended α → List RunEvent → List RunEvent → Prop}

/-- What one call of an object keeps, and what it says of itself. -/
abbrev MethodJournals (runId : String) (always : List RunEvent → Prop)
    (I : α → List RunEvent → Prop) (ok : α → ι → Ended α → List RunEvent → List RunEvent → Prop)
    (method : α → ι → RunProg (Ended α)) : Prop :=
  ∀ object input own, I object own → always own →
    Journals runId always (fun r own' => ∃ ended, r = .ok ended ∧ I ended.object own' ∧
      always own' ∧ ok object input ended own own') (method object input) own

/-- One call in a run of calls: before it, after each of its accesses, and at its end. -/
structure CallRecord.Kept (runId : String) (always : List RunEvent → Prop)
    (I : α → List RunEvent → Prop) (ok : α → ι → Ended α → List RunEvent → List RunEvent → Prop)
    (own : List RunEvent) (record : CallRecord α ι) : Prop where
  before : I record.before own
  during : ∀ front, front <+: record.accesses → always (own ++ journal (·.log runId) front)
  after : ∀ ended, record.ended = some ended → I ended.object (own ++ record.own runId) ∧
    ok record.before record.input ended own (own ++ record.own runId)

lemma journalOf_append (runId : String) (front : List (CallRecord α ι))
    (record : CallRecord α ι) :
    journalOf runId (front ++ [record]) = journalOf runId front ++ record.own runId := by
  rw [journalOf, List.flatMap_append, List.flatMap_singleton]
  rfl

/-- Other writers leave a sound store sound. -/
lemma writerCall_sound (store : RunStore) (call : RunStore.StoreCall) (h : store.Sound) :
    (writerCall store call).Sound :=
  h.grow (RunStore.grows_after call store)

/-- What every call keeps, every run of calls keeps. -/
theorem objectRun_kept (hmoves : ∀ store move, store.Sound → (step store move).Sound)
    (hmethod : MethodJournals runId always I ok method) {object : α} (hobject : I object [])
    (halways : always []) {store : RunStore} (hstore : store.Sound)
    (calls : List (ι × List (Turn κ))) :
    Machine.Justified (fun front record => record.Kept runId always I ok (journalOf runId front))
      (objectRun step method object calls store).1 := by
  let I' : List (CallRecord α ι) → α → RunStore → Prop := fun front object store =>
    I object (journalOf runId front) ∧ always (journalOf runId front) ∧ store.Sound
  have hstart : I' [] object store := ⟨hobject, halways, hstore⟩
  refine (objectRun_invariant (I := I') (J := fun _ _ => True) (fun _ _ _ _ => trivial) ?_ hstart
    (Machine.Justified.of_forall (by simp)) calls).1
  rintro front object input store turns ⟨hobject, halways, hstore⟩
  have hrun := (hmethod object input _ hobject halways).run hmoves halways hstore turns
  refine ⟨fun ended hended => ?_, ⟨hobject, hrun.always, nofun⟩, trivial⟩
  obtain ⟨_, hok, hkept, halways', hcall⟩ := hrun.post _ hended
  cases hok
  refine ⟨⟨hobject, hrun.always, fun found hfound => ?_⟩, ?_⟩
  · rw [← Option.some.inj hfound]
    exact ⟨hkept, hcall⟩
  · simp only [I', journalOf_append]
    exact ⟨hkept, halways', hrun.inv⟩

end Objects

/-- A run is created and started. -/
def runningSetup : List RunStore.StoreCall :=
  let args (type : RunEventType) : EventArgs := { type := type.value, payload := payloadOf [] }
  [.createTask { projectRoot := "/p", prompt := "fix", taskId := some "t" } ⟨"u0", 0⟩,
   .createRun { taskId := "t", runId := some "r" } ⟨"u1", 0⟩,
   .appendEvent "r" (args .runCreated) .none ⟨"e0", 0⟩,
   .appendEvent "r" (args .runStarted) .none ⟨"e1", 0⟩]

end Imece.RunRuntime
