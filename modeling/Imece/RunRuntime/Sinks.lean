import Imece.RunRuntime.ReadModels

/-!
# Sinks over the run store

What the canonical sinks share: an object that commits batches of events at the
sequence number it remembers. A method raises or returns, and leaves the object
in its new state either way, so the exception is part of the value.
-/
namespace Imece.RunRuntime

open Lib

/-- What a method leaves: the object, and how the call ended. -/
structure Ended (α : Type) where
  object : α
  outcome : Except RunRuntimeError Unit

def returned {α : Type} (object : α) : RunProg (Ended α) := return ⟨object, .ok ()⟩

def raised {α : Type} (object : α) (error : RunRuntimeError) : RunProg (Ended α) :=
  return ⟨object, .error error⟩

/-- The calls a caller makes on one object, whatever it does with exceptions. -/
def session {α ι : Type} (method : α → ι → RunProg (Ended α)) (object : α) :
    List ι → RunProg α
  | [] => pure object
  | input :: inputs => do
      let ended ← method object input
      session method ended.object inputs

/-- `record_many` of freshly built specs at `expected`; the answer is
`committed[-1].seq`. Each event of the batch draws its own identifier and time. -/
def commitSpecs (runId : String) (specs : List EventArgs) (expected : ℕ) (fresh : ℕ → Fresh) :
    RunProg ℕ := do
  let specs ← Prog.check (specs.mapM RunEventSpec.ofArgs)
  let (events, _) ← recordMany runId (specs.zipIdx.map fun (spec, i) => (spec, fresh i))
    (some expected)
  return (events.getLast?.map (·.seq)).getD expected

/-- The row a sink is built from must be `RUNNING`; the sink remembers its number. -/
def runningSeq (runId what : String) : RunProg ℕ := do
  let run ← getRun runId
  if run.status ≠ .running then
    Prog.throw (.valueError (what ++ " requires RUNNING run, got " ++ run.status.value))
  else return run.lastEventSeq

def PyValue.ofOption {α : Type} (f : α → PyValue) : Option α → PyValue
  | Option.none => .none
  | some a => f a

def PyValue.strs (items : List String) : PyValue := .list (items.map .str)

/-- The bounded stable identifiers of attempts: `^[A-Za-z0-9._-]+$`, at most 128
characters. -/
def isStableId (id : String) : Bool :=
  id ≠ "" && id.length ≤ 128 &&
    id.toList.all fun c => c.isAlphanum || c == '.' || c == '_' || c == '-'

/-- `text[:n]`. -/
def takeChars (text : String) (n : ℕ) : String := String.ofList (text.toList.take n)

/-- `text.replace("\x00", "")`. -/
def dropNul (text : String) : String :=
  String.ofList (text.toList.filter fun c => c != Char.ofNat 0)

/-- `_reject_reused_*`: page through the whole history for an earlier start that
carries the identifier. Each page moves the cursor on; `fuel` bounds the pages. -/
def rejectReused (runId : String) (type : RunEventType) (key id : String) :
    ℕ → ℕ → RunProg Unit
  | 0, _ => Prog.throw (.runStore "sayfa sınırı aşıldı")
  | fuel + 1, afterSeq => do
      let page ← Prog.call .read (RunStore.events runId afterSeq 200)
      if page.events.any fun event => event.isType type && (event.payload.get key).eqStr id then
        Prog.throw (.valueError (key ++ " already started in run: " ++ id))
      else if !page.hasMore then return ()
      else rejectReused runId type key id fuel ((page.events.getLast?.map (·.seq)).getD afterSeq)

/-- Every row of the store is derived from its log. -/
abbrev RunStore.Sound (store : RunStore) : Prop := ∀ runId, store.Consistent runId

theorem RunStore.Sound.grow {store next : RunStore} (h : store.Sound)
    (hgrows : RunStore.Grows store next) : next.Sound :=
  fun runId => hgrows.consistent runId (h runId)

/-- A prefix of the log of length `seq`, and the status it led to: what a writer
that remembers a number still knows when others have appended. -/
structure SeenAt (runId : String) (seq : ℕ) (status : RunStatus) (store : RunStore) : Prop where
  sound : store.Sound
  seen : ∃ seen, seen <+: store.log runId ∧ seen.length = seq ∧ statusOf seen = status

theorem SeenAt.grow {runId : String} {seq : ℕ} {status : RunStatus} {store next : RunStore}
    (h : SeenAt runId seq status store) (hgrows : RunStore.Grows store next) :
    SeenAt runId seq status next := by
  obtain ⟨seen, hprefix, hlength, hstatus⟩ := h.seen
  exact ⟨h.sound.grow hgrows, seen, hprefix.trans (hgrows.log runId), hlength, hstatus⟩

/-- At a log of the remembered length, the remembered status is the current one. -/
theorem SeenAt.exact {runId : String} {seq : ℕ} {status : RunStatus} {store : RunStore}
    (h : SeenAt runId seq status store) (hseq : seq = (store.log runId).length) :
    statusOf (store.log runId) = status := by
  obtain ⟨seen, hprefix, hlength, hstatus⟩ := h.seen
  rw [← snapshot_eq_of_length hprefix (by omega), hstatus]

theorem SeenAt.ofLog {store : RunStore} (h : store.Sound) (runId : String) :
    SeenAt runId (store.log runId).length (statusOf (store.log runId)) store :=
  ⟨h, _, List.prefix_rfl, rfl, rfl⟩

theorem SeenAt.ofRow {store : RunStore} (h : store.Sound) {runId : String} {row : RunRecord}
    (hrow : store.findRun runId = some row) :
    SeenAt runId row.lastEventSeq row.status store := by
  have hhistory := (h runId).history row hrow
  rw [hhistory.lastEventSeq, hhistory.status]
  exact .ofLog h runId

lemma mapM_ofArgs_types {specs : List EventArgs} {built : List RunEventSpec}
    (h : specs.mapM RunEventSpec.ofArgs = .ok built) :
    built.map (·.type) = specs.map (·.type) := by
  induction specs generalizing built with
  | nil =>
      simp only [List.mapM_nil, except_pure_eq_ok] at h
      subst h
      rfl
  | cons args rest ih =>
      simp only [List.mapM_cons, except_bind_eq_ok, except_pure_eq_ok] at h
      obtain ⟨spec, hspec, more, hmore, rfl⟩ := h
      have htype : spec.type = args.type := congrArg EventArgs.type (RunEventSpec.ofArgs_args hspec)
      simp [htype, ih hmore]

/-- The number of the last appended event is the length of the longer log. -/
lemma lastSeq_append {runId : String} {store : RunStore} {seen events : List RunEvent}
    (hstore : store.Consistent runId) (hlog : store.log runId = seen ++ events)
    (hnonempty : events ≠ []) :
    events.getLast?.map (·.seq) = some (seen ++ events).length := by
  have hpos : 0 < events.length := List.length_pos_of_ne_nil hnonempty
  cases hrow : store.findRun runId with
  | none =>
      rw [RunStore.log_of_absent hrow] at hlog
      simp only [List.nil_eq, List.append_eq_nil_iff] at hlog
      exact absurd hlog.2 hnonempty
  | some row =>
      have hnumbered := (hstore.history row hrow).numbered
      rw [hlog] at hnumbered
      have hlast := lastSeq_take hnumbered (n := (seen ++ events).length)
        (by rw [List.length_append]; omega) le_rfl
      rwa [List.take_length, List.getLast?_append_of_ne_nil _ hnonempty] at hlast

/-- What an access of a writer may do: nothing, or extend one log by the types it
asked for where `allowed` lets it, at the status before the write. -/
def Appends (allowed : RunStatus → List String → Prop) (access : StoreAccess)
    (store next : RunStore) : Prop :=
  next = store ∨ ∃ runId types, access = .append runId types ∧
    RunStore.Extends store next runId types ∧ allowed (statusOf (store.log runId)) types

theorem Appends.refl (allowed : RunStatus → List String → Prop) (access : StoreAccess)
    (store : RunStore) : Appends allowed access store store :=
  Or.inl rfl

theorem Appends.grows {allowed : RunStatus → List String → Prop} {access : StoreAccess}
    {store next : RunStore} (h : Appends allowed access store next) :
    RunStore.Grows store next := by
  rcases h with rfl | ⟨_, _, _, hextends, _⟩
  · exact .refl _
  · exact hextends.grows

theorem Appends.weaken {allowed wider : RunStatus → List String → Prop} {access : StoreAccess}
    {store next : RunStore} (h : Appends allowed access store next)
    (himp : ∀ status types, allowed status types → wider status types) :
    Appends wider access store next := by
  rcases h with rfl | ⟨runId, types, haccess, hextends, hallowed⟩
  · exact .refl _ _ _
  · exact Or.inr ⟨runId, types, haccess, hextends, himp _ _ hallowed⟩

section Rules

variable {allowed : RunStatus → List String → Prop} {runId : String} {store : RunStore}

/-- What a successful append at an expected number left behind. -/
def Committed (runId : String) (types : List String) (expected : Option ℕ) (seq : ℕ)
    (store next : RunStore) : Prop :=
  ∃ before, RunStore.Grows store before ∧ (∀ n ∈ expected, n = (before.log runId).length) ∧
    SeenAt runId seq (statusAfterTypes (statusOf (before.log runId)) types) next

/-- A writer that remembered a status before the append knows the one after it. -/
theorem Committed.seenAt {types : List String} {expected seq : ℕ} {status : RunStatus}
    {next : RunStore} (h : Committed runId types (some expected) seq store next)
    (hseen : SeenAt runId expected status store) :
    SeenAt runId seq (statusAfterTypes status types) next := by
  obtain ⟨before, hgrows, hseq, hnext⟩ := h
  rwa [(hseen.grow hgrows).exact (hseq _ rfl)] at hnext

theorem committed_of_extends {types : List String} {expected : Option ℕ} {before next last :
    RunStore} (hsound : store.Sound) (hbefore : RunStore.Grows store before)
    (hseq : ∀ n ∈ expected, n = (before.log runId).length)
    (hextends : RunStore.Extends before next runId types) (hlast : RunStore.Grows next last) :
    Committed runId types expected (next.log runId).length store last := by
  refine ⟨before, hbefore, hseq, ?_⟩
  rw [← hextends.status]
  exact (SeenAt.ofLog ((hsound.grow hbefore).grow hextends.grows) runId).grow hlast

theorem getRun_safe (hsound : store.Sound) :
    (getRun runId).Safe RunStore.Grows (Appends allowed)
      (fun r t => t.Sound ∧ ∀ run, r = .ok run → SeenAt runId run.lastEventSeq run.status t)
      store := by
  refine Prog.Safe.call (fun t _ => ?_) (fun t u ht hu => ?_)
  · rw [RunStore.getRun_after]
    exact .refl _ _ _
  · rw [RunStore.getRun_after] at hu
    refine ⟨(hsound.grow ht).grow hu, fun run hrun => ?_⟩
    exact (SeenAt.ofRow (hsound.grow ht) (RunStore.getRun_result hrun)).grow hu

/-- An append of one event, under what it is allowed at the log it meets. -/
theorem record_safe {args : EventArgs} {expected : Option ℕ} {fresh : Fresh}
    (hsound : store.Sound)
    (hallowed : ∀ t, RunStore.Grows store t → (∀ n ∈ expected, n = (t.log runId).length) →
      allowed (statusOf (t.log runId)) [args.type]) :
    (record runId args expected fresh).Safe RunStore.Grows (Appends allowed)
      (fun r t => t.Sound ∧ ∀ event row, r = .ok (event, row) →
        Committed runId [args.type] expected row.lastEventSeq store t) store := by
  refine Prog.Safe.call (fun t ht => ?_) (fun t u ht hu => ?_)
  · rcases RunStore.appendEvent_cases (hsound.grow ht runId) args expected fresh
      with hsame | ⟨hseq, hextends⟩
    · exact Or.inl hsame
    · exact Or.inr ⟨runId, _, rfl, hextends, hallowed t ht hseq⟩
  · have hgrown := RunStore.grows_after
      (.appendEvent runId args (expectedSeq expected) fresh) t
    rw [RunStore.StoreCall.run, after_map] at hgrown
    refine ⟨((hsound.grow ht).grow hgrown).grow hu, fun event row happended => ?_⟩
    obtain ⟨hseq, hextends, hrow⟩ :=
      RunStore.appendEvent_extends (hsound.grow ht runId) (result_eq_ok.mp happended)
    rw [(((hsound.grow ht).grow hextends.grows runId).history _ hrow).lastEventSeq]
    exact committed_of_extends hsound ht hseq hextends hu

/-- A batch committed at a remembered number. -/
theorem commitSpecs_safe (allowed : RunStatus → List String → Prop) (specs : List EventArgs)
    (fresh : ℕ → Fresh) {expected : ℕ}
    (hsound : store.Sound)
    (hallowed : ∀ t, RunStore.Grows store t → expected = (t.log runId).length →
      allowed (statusOf (t.log runId)) (specs.map (·.type))) :
    (commitSpecs runId specs expected fresh).Safe RunStore.Grows (Appends allowed)
      (fun r t => t.Sound ∧ ∀ seq, r = .ok seq →
        Committed runId (specs.map (·.type)) (some expected) seq store t) store := by
  refine Prog.Safe.check_bind (fun built hbuilt => ?_)
    (fun e t _ ht => ⟨hsound.grow ht, fun _ h => by cases h⟩)
  have htypes : (built.zipIdx.map fun (spec, i) => (spec, fresh i)).map (·.1.type) =
      specs.map (·.type) := by
    rw [← mapM_ofArgs_types hbuilt, List.map_map]
    conv_rhs => rw [← List.zipIdx_map_fst 0 built, List.map_map]
    rfl
  generalize (built.zipIdx.map fun (spec, i) => (spec, fresh i)) = batch at htypes
  have hgrown := fun t => RunStore.grows_after
    (.appendEvents runId batch (expectedSeq (some expected))) t
  simp only [RunStore.StoreCall.run, after_map] at hgrown
  refine Prog.Safe.call_bind (fun t ht => ?_) (fun t appended ht happended => ?_)
    (fun t e u ht _ hu => ⟨((hsound.grow ht).grow (hgrown t)).grow hu, fun _ h => by cases h⟩)
  · have hcases := RunStore.appendEvents_cases (hsound.grow ht runId) batch (some expected)
    rw [htypes] at hcases
    rcases hcases with hsame | ⟨hseq, hextends⟩
    · exact Or.inl hsame
    · exact Or.inr ⟨runId, _, by rw [htypes], hextends, hallowed t ht (hseq _ rfl)⟩
  · obtain ⟨hseq, hextends, hlog, hnonempty⟩ :=
      RunStore.appendEvents_extends (hsound.grow ht runId) (result_eq_ok.mp happended)
    rw [htypes] at hextends
    have hnext := (hsound.grow ht).grow hextends.grows
    refine fun u hu => ⟨hnext.grow hu, fun seq hok => ?_⟩
    have hlength : seq = ((after (RunStore.appendEvents runId batch
        (expectedSeq (some expected))) t).log runId).length := by
      rw [hlog, ← Option.getD_some (a := (t.log runId ++ appended.1).length) (b := expected),
        ← lastSeq_append (hnext runId) hlog hnonempty]
      exact (Except.ok.inj hok).symm
    rw [hlength]
    exact committed_of_extends hsound ht hseq hextends hu

/-- The number a sink starts from is of a `RUNNING` row. -/
theorem runningSeq_safe {what : String} (hsound : store.Sound) :
    (runningSeq runId what).Safe RunStore.Grows (Appends allowed)
      (fun r t => t.Sound ∧ ∀ seq, r = .ok seq → SeenAt runId seq .running t) store := by
  refine (getRun_safe hsound).bind RunStore.Grows.refl ?_
    (fun e t h => ⟨h.1, fun _ h => by cases h⟩)
  rintro run t ⟨hsound, hseen⟩
  split
  · exact fun u hu => ⟨hsound.grow hu, fun _ h => by cases h⟩
  · rename_i hrunning
    rw [ne_eq, not_not] at hrunning
    refine fun u hu => ⟨hsound.grow hu, ?_⟩
    rintro seq ⟨⟩
    exact hrunning ▸ (hseen run rfl).grow hu

theorem events_readOnly (runId : String) (afterSeq : ℕ) (limit : ℤ) :
    (Prog.call StoreAccess.read (RunStore.events runId afterSeq limit)).ReadOnly :=
  .call (RunStore.events_after runId afterSeq limit)

theorem rejectReused_readOnly (type : RunEventType) (key id : String) (pages afterSeq : ℕ) :
    (rejectReused runId type key id pages afterSeq).ReadOnly := by
  induction pages generalizing afterSeq with
  | zero => trivial
  | succ pages ih =>
      refine (events_readOnly runId afterSeq 200).bind fun page => ?_
      split
      · trivial
      · split
        · trivial
        · exact ih _

/-- A session keeps what its method keeps of the object. -/
theorem session_safe {α ι : Type} {method : α → ι → RunProg (Ended α)}
    {I : α → RunStore → Prop}
    (hmethod : ∀ object input t, I object t →
      (method object input).Safe RunStore.Grows (Appends allowed)
        (fun r u => ∀ ended, r = .ok ended → I ended.object u) t)
    (inputs : List ι) {object : α} (hobject : I object store) :
    (session method object inputs).Safe RunStore.Grows (Appends allowed) (fun _ _ => True)
      store := by
  induction inputs generalizing object store with
  | nil => exact fun _ _ => trivial
  | cons input inputs ih =>
      refine (hmethod object input store hobject).bind RunStore.Grows.refl ?_
        (fun _ _ _ => trivial)
      exact fun ended t hended => ih (hended ended rfl)

end Rules

end Imece.RunRuntime
