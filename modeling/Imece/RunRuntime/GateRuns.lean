import Imece.RunRuntime.CompletionEvidence

/-!
# Runs of the gate among other writers

Any number of gate calls in flight, each at its own point, with calls of other
writers in between. A call that writes has its evidence in the log at the moment
of the write, and the write ends the `RUNNING` period it was decided in.
-/
namespace Imece.RunRuntime

open Lib

namespace RunCompletionGate

/-- The history a gate call has read, and what is still true of it later. -/
structure Snapshot (runId : String) (found : RunEvidence) (store : RunStore) : Prop where
  seq : found.decisionSeq = found.events.length
  seen : found.events <+: store.log runId
  numbered : Numbered (·.seq) found.events
  running : statusOf found.events = .running
  consistent : store.Consistent runId

theorem Snapshot.grow {runId : String} {found : RunEvidence} {store next : RunStore}
    (h : Snapshot runId found store) (hgrows : RunStore.Grows store next) :
    Snapshot runId found next where
  seq := h.seq
  seen := h.seen.trans (hgrows.log runId)
  numbered := h.numbered
  running := h.running
  consistent := hgrows.consistent runId h.consistent

/-- A write at the snapshot's number meets the log the snapshot was read from. -/
theorem Snapshot.exact {runId : String} {found : RunEvidence} {store : RunStore}
    (h : Snapshot runId found store) (hseq : found.decisionSeq = (store.log runId).length) :
    found.events = store.log runId :=
  snapshot_eq_of_length h.seen (by rw [← hseq, h.seq])

section Evidence

variable {guar : StoreAccess → RunStore → RunStore → Prop}

/-- Whatever happens while a gate call reads, the history it ends up with is a
prefix of the log, read at a `RUNNING` row. -/
theorem evidence_safe (hrefl : ∀ access t, guar access t t)
    (hguar : ∀ access s t, guar access s t → RunStore.Grows s t)
    {runId : String} {store : RunStore} (hstore : store.Consistent runId) :
    (evidence runId).Safe RunStore.Grows guar
      (fun r t => ∀ found, r = .ok found → Snapshot runId found t) store := by
  unfold evidence getRun
  refine Prog.Safe.call_bind (fun t _ => ?_) (fun t run ht hrun => ?_) ?_
  · rw [RunStore.getRun_after]
    exact hrefl _ t
  · rw [RunStore.getRun_after]
    have hrow := RunStore.getRun_result hrun
    have hconsistent := ht.consistent runId hstore
    have hhistory := hconsistent.history run hrow
    split
    · exact fun u _ found hfound => by cases hfound
    · rename_i hrunning
      rw [ne_eq, not_not] at hrunning
      rw [hhistory.lastEventSeq]
      have hload := (loadFullEventHistory_safe hrefl hconsistent (by simp [hrow])).reached
        (fun _ _ _ hab hbc => hab.trans hbc) hguar
      refine hload.bind RunStore.Grows.refl ?_ ?_
      · rintro events u ⟨hevents, hgrown⟩ v hv found hfound
        cases hevents
        cases hfound
        exact {
          seq := rfl
          seen := (hgrown.trans hv).log runId
          numbered := hhistory.numbered
          running := hhistory.status ▸ hrunning
          consistent := (hgrown.trans hv).consistent runId hconsistent }
      · exact fun e u _ found hfound => by cases hfound
  · exact fun t e u _ _ _ found hfound => by cases hfound

end Evidence

/-- A completion in flight: which method, with which arguments. -/
inductive SettleCall where
  | verified (settlement : Settlement) (runId verificationId : String) (fresh : Fresh × Fresh)
  | reviewed (settlement : Settlement)
      (runId verificationId reviewId currentDiffSha256 : String) (fresh : Fresh × Fresh)

namespace SettleCall

def program : SettleCall → RunProg Unit
  | .verified settlement runId verificationId fresh =>
      completeVerified settlement runId verificationId fresh
  | .reviewed settlement runId verificationId reviewId currentDiffSha256 fresh =>
      completeReviewed settlement runId verificationId reviewId currentDiffSha256 fresh

def runId : SettleCall → String
  | .verified _ runId _ _ => runId
  | .reviewed _ runId _ _ _ _ => runId

def settlement : SettleCall → Settlement
  | .verified settlement _ _ _ => settlement
  | .reviewed settlement _ _ _ _ _ => settlement

/-- The evidence a completion must find in the log it settles. -/
def Evidence (events : List RunEvent) : SettleCall → Prop
  | .verified _ _ verificationId _ => Nonempty (VerifiedLog events verificationId)
  | .reviewed _ _ verificationId reviewId currentDiffSha256 _ =>
      ∃ verified : VerifiedLog events verificationId,
        Nonempty (ApprovedReview verified.rest verificationId reviewId currentDiffSha256)

end SettleCall

/-- The events a settlement consists of. -/
def Settlement.types : Settlement → List String
  | .complete => [RunEventType.runCompleted.value]
  | .awaitUser => [RunEventType.proposalReady.value, RunEventType.runWaitingUser.value]

/-- A settlement ends the `RUNNING` period it is written in. -/
lemma Settlement.ends (settlement : Settlement) (status : RunStatus) :
    statusAfterTypes status settlement.types ≠ .running := by
  cases settlement <;>
    simp [statusAfterTypes, Settlement.types, statusAfter]

/-- One write of a completion: the log it extends carries the evidence, at a
`RUNNING` row that is no longer `RUNNING` after it. -/
structure Settles (call : SettleCall) (store next : RunStore) : Prop where
  evidence : call.Evidence (store.log call.runId)
  running : store.status call.runId = some .running
  log : ∃ events, next.log call.runId = store.log call.runId ++ events ∧
    events.map (·.type) = call.settlement.types
  ended : next.status call.runId ≠ some .running
  otherLog : ∀ other, other ≠ call.runId → next.log other = store.log other

/-- What an access of a completion may do: nothing, or settle. -/
def SettleGuar (call : SettleCall) (store next : RunStore) : Prop :=
  next = store ∨ RunStore.Grows store next ∧ Settles call store next

lemma SettleGuar.refl (call : SettleCall) (store : RunStore) : SettleGuar call store store :=
  Or.inl rfl

lemma SettleGuar.grows {call : SettleCall} {store next : RunStore}
    (h : SettleGuar call store next) : RunStore.Grows store next := by
  rcases h with rfl | h
  · exact .refl _
  · exact h.1

/-- An append at the snapshot's number of the settlement's events settles. -/
lemma settles_of_extends {call : SettleCall} {found : RunEvidence} {store : RunStore}
    (next : RunStore)
    (hsnapshot : Snapshot call.runId found store) (hevidence : call.Evidence found.events)
    (h : next = store ∨ (∀ n ∈ some found.decisionSeq, n = (store.log call.runId).length) ∧
      RunStore.Extends store next call.runId call.settlement.types) :
    SettleGuar call store next := by
  rcases h with hsame | ⟨hseq, hextends⟩
  · exact Or.inl hsame
  · have hexact := hsnapshot.exact (hseq _ rfl)
    refine Or.inr ⟨hextends.grows, hexact ▸ hevidence, ?_, hextends.log, ?_, hextends.otherLog⟩
    · rw [hsnapshot.consistent.status_eq hextends.exist, ← hexact, hsnapshot.running]
    · rw [(hextends.grows.consistent _ hsnapshot.consistent).status_eq
        (hextends.grows.exist _ hextends.exist), hextends.status]
      simpa using call.settlement.ends _

/-- The settlement write, from a snapshot whose history carries the evidence. -/
lemma settle_safe (call : SettleCall) {found : RunEvidence} {store : RunStore}
    (hsnapshot : Snapshot call.runId found store) (hevidence : call.Evidence found.events)
    (payload : PyValue) (fresh : Fresh × Fresh) :
    (settle call.settlement call.runId found.decisionSeq payload fresh).Safe RunStore.Grows
      (fun _ => SettleGuar call) (fun _ _ => True) store := by
  have hwrite := fun t (ht : RunStore.Grows store t) next =>
    settles_of_extends next (hsnapshot.grow ht) hevidence
  cases hmode : call.settlement with
  | complete =>
      rw [hmode] at hwrite
      refine Prog.Safe.call_bind (fun t ht => ?_) (fun _ _ _ _ _ _ => trivial)
        (fun _ _ _ _ _ _ => trivial)
      exact hwrite t ht _ (RunStore.appendEvent_cases (hsnapshot.grow ht).consistent _ _ _)
  | awaitUser =>
      rw [hmode] at hwrite
      refine Prog.Safe.check_bind (fun ready hready => ?_) (fun _ _ _ _ => trivial)
      refine Prog.Safe.check_bind (fun waiting hwaiting => ?_) (fun _ _ _ _ => trivial)
      refine Prog.Safe.call_bind (fun t ht => ?_) (fun _ _ _ _ _ _ => trivial)
        (fun _ _ _ _ _ _ => trivial)
      have hcases := RunStore.appendEvents_cases (hsnapshot.grow ht).consistent
        [(ready, fresh.1), (waiting, fresh.2)] (some found.decisionSeq)
      have hreadyType : ready.type = RunEventType.proposalReady.value :=
        congrArg EventArgs.type (RunEventSpec.ofArgs_args hready)
      have hwaitingType : waiting.type = RunEventType.runWaitingUser.value :=
        congrArg EventArgs.type (RunEventSpec.ofArgs_args hwaiting)
      simp only [List.map_cons, List.map_nil, hreadyType, hwaitingType] at hcases
      exact hwrite t ht _ hcases

/-- Every access of a completion does nothing or settles, under any interference. -/
theorem settleCall_safe (call : SettleCall) {store : RunStore}
    (hstore : ∀ runId, store.Consistent runId) :
    call.program.Safe RunStore.Grows (fun _ => SettleGuar call) (fun _ _ => True) store := by
  cases call with
  | verified settlement runId verificationId fresh =>
      refine (evidence_safe (fun _ => SettleGuar.refl _) (fun _ _ _ => SettleGuar.grows)
        (hstore runId)).bind RunStore.Grows.refl ?_ (fun _ _ _ => trivial)
      intro found t hfound
      have hsnapshot := hfound found rfl
      refine Prog.Safe.check_bind (fun payload hpayload => ?_) (fun _ _ _ _ => trivial)
      exact settle_safe (.verified settlement runId verificationId fresh) hsnapshot
        (verifiedPayload_ok hsnapshot.numbered hpayload) payload fresh
  | reviewed settlement runId verificationId reviewId currentDiffSha256 fresh =>
      refine (evidence_safe (fun _ => SettleGuar.refl _) (fun _ _ _ => SettleGuar.grows)
        (hstore runId)).bind RunStore.Grows.refl ?_ (fun _ _ _ => trivial)
      intro found t hfound
      have hsnapshot := hfound found rfl
      refine Prog.Safe.check_bind (fun payload hpayload => ?_) (fun _ _ _ _ => trivial)
      exact settle_safe
        (.reviewed settlement runId verificationId reviewId currentDiffSha256 fresh)
        hsnapshot (reviewedPayload_ok hsnapshot.numbered hpayload) payload fresh

/-- Other writers make arbitrary store calls. -/
def otherWriter (call : RunStore.StoreCall) (store : RunStore) : RunStore := after call.run store

theorem settlePool : SafePool otherWriter SettleCall.program RunStore.Grows
    (fun call _ => SettleGuar call)
    (fun store => ∀ runId, store.Consistent runId) (fun _ _ => True) where
  refl := RunStore.Grows.refl
  trans _ _ _ := RunStore.Grows.trans
  keeps _ _ hinv hgrows runId := hgrows.consistent runId (hinv runId)
  env_rely call store _ := RunStore.grows_after call store
  guar_rely _ _ _ _ := SettleGuar.grows
  safe call _ hinv := settleCall_safe call hinv

/-- Over every schedule of completions and other writers: an access of a
completion changes the store only by settling, right after a log that carries
its evidence; and between two settlements of a run its row was not `RUNNING`. -/
theorem settlement_evidence (store : RunStore) (hstore : ∀ runId, store.Consistent runId)
    (schedule : List (Choice SettleCall RunStore.StoreCall)) :
    let trace := ((⟨store, []⟩ : Pool SettleCall StoreAccess RunStore RunRuntimeError Unit).play otherWriter
      SettleCall.program schedule).1
    (∀ event ∈ trace, ∀ call access, event.cause = .access call access →
      event.after = event.before ∨ Settles call event.before event.after) ∧
    (∀ front first between second back callA callB accessA accessB,
      trace = front ++ first :: (between ++ second :: back) →
      first.cause = .access callA accessA → second.cause = .access callB accessB →
      callA.runId = callB.runId →
      first.after ≠ first.before → second.after ≠ second.before →
      ∃ event ∈ between ++ [second], event.before.status callA.runId ≠ some .running) := by
  intro trace
  have hsafe := (Pool.play_safe settlePool (PoolInvariant.start hstore) schedule).1
  have hsettles : ∀ event ∈ trace, ∀ call access, event.cause = .access call access →
      event.after = event.before ∨ Settles call event.before event.after := by
    intro event hevent call access hcause
    exact ((hsafe event hevent).access call access hcause).imp_right And.right
  refine ⟨hsettles, ?_⟩
  intro front first between second back callA callB accessA _ hsplit hfirst _ hrun hwrote _
  have hchain : (first :: (between ++ second :: back)).IsChain (fun a b => a.after = b.before) := by
    have hall := Pool.play_chain otherWriter SettleCall.program
      (⟨store, []⟩ : Pool SettleCall StoreAccess RunStore RunRuntimeError Unit) schedule
    exact (List.IsChain.right_of_append (hsplit ▸ hall : (front ++ _).IsChain _))
  have hended : first.after.status callA.runId ≠ some .running := by
    rcases hsettles first (by simp [hsplit]) callA accessA hfirst with hsame | hsettled
    · exact absurd hsame hwrote
    · exact hsettled.ended
  -- the state after the first settlement is the state before the next event
  cases between with
  | nil =>
      have hnext : first.after = second.before := (List.isChain_cons_cons.mp hchain).1
      exact ⟨second, by simp, hnext ▸ hended⟩
  | cons next rest =>
      have hnext : first.after = next.before := (List.isChain_cons_cons.mp hchain).1
      exact ⟨next, by simp, hnext ▸ hended⟩

/-- A run that is started, executed and verified by other writers, and then
completed by a gate call whose three accesses are one read of the row, one of the
page and the write. -/
def sampleSchedule : List (Choice SettleCall RunStore.StoreCall) :=
  let drawn (uuid : String) : Fresh := ⟨uuid, 0⟩
  let append (n : ℕ) (type : RunEventType) (executionId : Option String)
      (fields : List (String × PyValue)) : Choice SettleCall RunStore.StoreCall :=
    .env (.appendEvent "r" { type := type.value, payload := payloadOf fields, executionId }
      (.int n) (drawn ("e" ++ toString n)))
  [.env (.createTask { projectRoot := "/p", prompt := "fix", taskId := some "t" } (drawn "u0")),
   .env (.createRun { taskId := "t", runId := some "r" } (drawn "u1")),
   append 0 .runStarted none [],
   append 1 .executionCompleted (some "x") [],
   append 2 .verificationStarted none [("verification_id", .str "v")],
   append 3 .verificationCompleted none
     [("verification_id", .str "v"), ("status", .str "pass")],
   .spawn (.verified .complete "r" "v" (drawn "g0", drawn "g1")),
   .act 0, .act 0, .act 0]

theorem settlement_evidence_sample :
    let trace := ((⟨.initial, []⟩ : Pool SettleCall StoreAccess RunStore RunRuntimeError Unit).play otherWriter
      SettleCall.program sampleSchedule).1
    trace.map (fun event => (event.cause matches .access _ _, (event.after.log "r").length)) =
      [(false, 0), (false, 0), (false, 1), (false, 2), (false, 3), (false, 4), (false, 4),
        (true, 4), (true, 4), (true, 5)] ∧
    ∀ event ∈ trace, ∀ call access, event.cause = .access call access →
      event.after = event.before ∨ Settles call event.before event.after :=
  ⟨by decide +kernel,
    (settlement_evidence .initial RunStore.initial_consistent sampleSchedule).1⟩

end RunCompletionGate

end Imece.RunRuntime
