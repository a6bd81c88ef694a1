import Imece.RunRuntime.GateRuns
import Imece.RunRuntime.Receipts

/-!
# Advisory events

`agent.activity` and `decision.made` inform a reader of the log. Two histories that differ
in such events only lead to the same row, the same decisions of the completion gate and the
same read models: every scan looks for other types, and a comparison of sequence numbers
depends on the order of the events it finds.
-/
namespace Imece.RunRuntime

open Lib

/-- The events that power live views and audits and decide nothing. -/
def RunEvent.isAdvisory (event : RunEvent) : Bool :=
  event.isType .agentActivity || event.isType .decisionMade

/-- The same event under another sequence number. -/
def RunEvent.Moved (event moved : RunEvent) : Prop := moved = { event with seq := moved.seq }

/-- The second history is the first one with advisory events put in, anywhere. -/
inductive Advised : List RunEvent → List RunEvent → Prop
  | nil : Advised [] []
  | keep {event moved : RunEvent} {events more : List RunEvent} (h : event.Moved moved)
      (rest : Advised events more) : Advised (event :: events) (moved :: more)
  | advise {event : RunEvent} {events more : List RunEvent} (h : event.isAdvisory = true)
      (rest : Advised events more) : Advised events (event :: more)

namespace RunEvent

variable {event moved : RunEvent}

lemma Moved.isType (h : event.Moved moved) (type : RunEventType) :
    event.isType type = moved.isType type := by
  rw [h]
  rfl

lemma Moved.payload (h : event.Moved moved) : moved.payload = event.payload := by rw [h]

lemma Moved.executionId (h : event.Moved moved) : moved.executionId = event.executionId := by
  rw [h]

lemma Moved.names (h : event.Moved moved) (key id : String) :
    RunCompletionGate.names key id event = RunCompletionGate.names key id moved := by
  rw [RunCompletionGate.names, RunCompletionGate.names, h.payload]

lemma Moved.isAdvisory (h : event.Moved moved) : event.isAdvisory = moved.isAdvisory := by
  rw [RunEvent.isAdvisory, RunEvent.isAdvisory, h.isType, h.isType]

/-- An event of any other type is no advice. -/
lemma counts_of_isType {type : RunEventType} (h : event.isType type = true)
    (hactivity : type ≠ .agentActivity) (hdecision : type ≠ .decisionMade) :
    (!event.isAdvisory) = true := by
  have hkind := kind_of_isType h
  have hother : ∀ other, other ≠ type → event.isType other = false := by
    intro other hne
    by_contra hfound
    have hsame := kind_of_isType (by simpa using hfound)
    rw [hkind] at hsame
    exact hne (Option.some.inj hsame).symm
  rw [isAdvisory, hother _ hactivity.symm, hother _ hdecision.symm]
  rfl

end RunEvent

/-- Two histories, paired where their events count. -/
structure Twins (es fs : List RunEvent) (pairs : List (RunEvent × RunEvent)) : Prop where
  aligned : Aligned (!RunEvent.isAdvisory ·) (!RunEvent.isAdvisory ·) es fs pairs
  moved : ∀ x ∈ pairs, x.1.Moved x.2
  ordered : pairs.Pairwise fun x y => x.1.seq < y.1.seq ∧ x.2.seq < y.2.seq

/-- Two events of one history that count are in the order of their twins. -/
lemma Twins.le_iff {es fs : List RunEvent} {pairs : List (RunEvent × RunEvent)}
    (h : Twins es fs pairs) {x y : RunEvent × RunEvent} (hx : x ∈ pairs) (hy : y ∈ pairs) :
    x.1.seq ≤ y.1.seq ↔ x.2.seq ≤ y.2.seq := by
  obtain ⟨i, hi, rfl⟩ := List.mem_iff_getElem.mp hx
  obtain ⟨j, hj, rfl⟩ := List.mem_iff_getElem.mp hy
  have hordered := List.pairwise_iff_getElem.mp h.ordered
  rcases Nat.lt_trichotomy i j with hlt | rfl | hlt
  · have hboth := hordered i j hi hj hlt
    omega
  · simp
  · have hboth := hordered j i hj hi hlt
    omega

lemma Advised.aligned {es fs : List RunEvent} (h : Advised es fs) :
    ∃ pairs, Aligned (!RunEvent.isAdvisory ·) (!RunEvent.isAdvisory ·) es fs pairs ∧
      ∀ x ∈ pairs, x.1.Moved x.2 := by
  induction h with
  | nil => exact ⟨[], ⟨rfl, rfl⟩, by simp⟩
  | @keep event moved events more hmoved rest ih =>
      obtain ⟨pairs, haligned, hpairs⟩ := ih
      cases hadvice : event.isAdvisory with
      | true =>
          refine ⟨pairs, ⟨?_, ?_⟩, hpairs⟩
          · simp [hadvice, haligned.left]
          · simp [← hmoved.isAdvisory, hadvice, haligned.right]
      | false =>
          refine ⟨(event, moved) :: pairs, ⟨?_, ?_⟩, ?_⟩
          · simp [hadvice, haligned.left]
          · simp [← hmoved.isAdvisory, hadvice, haligned.right]
          · intro x hx
            rcases List.mem_cons.mp hx with rfl | hx
            · exact hmoved
            · exact hpairs x hx
  | @advise event events more hadvice rest ih =>
      obtain ⟨pairs, haligned, hpairs⟩ := ih
      refine ⟨pairs, ⟨haligned.left, ?_⟩, hpairs⟩
      simp [hadvice, haligned.right]

theorem Advised.twins {es fs : List RunEvent} (h : Advised es fs) (hes : Numbered (·.seq) es)
    (hfs : Numbered (·.seq) fs) : ∃ pairs, Twins es fs pairs := by
  obtain ⟨pairs, haligned, hmoved⟩ := h.aligned
  refine ⟨pairs, haligned, hmoved, ?_⟩
  have hleft := (numbered_pairwise hes).filter (!RunEvent.isAdvisory ·)
  have hright := (numbered_pairwise hfs).filter (!RunEvent.isAdvisory ·)
  rw [haligned.left, List.pairwise_map] at hleft
  rw [haligned.right, List.pairwise_map] at hright
  exact hleft.and hright

section Projection

/-- The projection does not look at an advisory event. -/
lemma projectRun_advisory {event : RunEvent} (h : event.isAdvisory = true) (row : RunRecord) :
    projectRun row event = .ok row := by
  rw [RunEvent.isAdvisory, Bool.or_eq_true] at h
  rcases h with h | h
  · rw [projectRun, RunEvent.kind_of_isType h]
    rfl
  · rw [projectRun, RunEvent.kind_of_isType h]
    rfl

lemma projectRun_moved {event moved : RunEvent} (h : event.Moved moved) (row : RunRecord) :
    projectRun row moved = projectRun row event := by
  obtain ⟨n, rfl⟩ : ∃ n, moved = { event with seq := n } := ⟨_, h⟩
  have hkind : ({ event with seq := n } : RunEvent).kind = event.kind := rfl
  unfold projectRun
  rw [hkind]
  cases event.kind with
  | none => rfl
  | some type => cases type <;> rfl

/-- Advisory events leave the fold of a history as it is, its failures included. -/
theorem Advised.replay {es fs : List RunEvent} (h : Advised es fs) (row : RunRecord) :
    Lib.replay projectRun row fs = Lib.replay projectRun row es := by
  induction h generalizing row with
  | nil => rfl
  | keep hmoved rest ih =>
      simp only [Lib.replay, projectRun_moved hmoved]
      split
      · rfl
      · exact ih _
  | advise hadvice rest ih =>
      simp only [Lib.replay, projectRun_advisory hadvice]
      exact ih row

end Projection

section Decisions

variable {es fs : List RunEvent} {pairs : List (RunEvent × RunEvent)} (h : Twins es fs pairs)
include h

/-- One scan of both histories for the latest event of some kind. -/
lemma Twins.latest_both {p q : RunEvent → Bool} (hp : ∀ e, p e = true → (!e.isAdvisory) = true)
    (hq : ∀ e, q e = true → (!e.isAdvisory) = true) (hpq : ∀ x ∈ pairs, p x.1 = q x.2) :
    (latest p es = none ∧ latest q fs = none) ∨
      ∃ x ∈ pairs, p x.1 = true ∧ latest p es = some x.1 ∧ latest q fs = some x.2 :=
  h.aligned.latest hp hq hpq

lemma Twins.latestOr_both {p q : RunEvent → Bool} (hp : ∀ e, p e = true → (!e.isAdvisory) = true)
    (hq : ∀ e, q e = true → (!e.isAdvisory) = true) (hpq : ∀ x ∈ pairs, p x.1 = q x.2)
    (message : String) :
    (∃ err, RunCompletionGate.latestOr p es message = .error err ∧
        RunCompletionGate.latestOr q fs message = .error err) ∨
      ∃ x ∈ pairs, p x.1 = true ∧ RunCompletionGate.latestOr p es message = .ok x.1 ∧
        RunCompletionGate.latestOr q fs message = .ok x.2 := by
  unfold RunCompletionGate.latestOr
  rcases h.latest_both hp hq hpq with ⟨hleft, hright⟩ | ⟨x, hx, hpx, hleft, hright⟩
  · exact Or.inl ⟨_, by rw [hleft], by rw [hright]⟩
  · exact Or.inr ⟨x, hx, hpx, by rw [hleft], by rw [hright]⟩

end Decisions

/-- A test of events that advisory events fail and that does not look at the number. -/
structure RunEvent.Blind (p : RunEvent → Bool) : Prop where
  counts : ∀ event, p event = true → (!event.isAdvisory) = true
  moved : ∀ event moved : RunEvent, event.Moved moved → p event = p moved

namespace RunEvent

lemma blind_isType {type : RunEventType} (hactivity : type ≠ .agentActivity)
    (hdecision : type ≠ .decisionMade) : Blind (·.isType type) where
  counts _ h := counts_of_isType h hactivity hdecision
  moved _ _ h := h.isType type

lemma Blind.or {p q : RunEvent → Bool} (hp : Blind p) (hq : Blind q) :
    Blind fun event => p event || q event where
  counts event h := by
    rcases Bool.or_eq_true_iff.mp h with h | h
    · exact hp.counts event h
    · exact hq.counts event h
  moved event moved h := by rw [hp.moved event moved h, hq.moved event moved h]

/-- A further condition on the fields other than the number. -/
lemma Blind.and {p q : RunEvent → Bool} (hp : Blind p)
    (hq : ∀ event moved : RunEvent, event.Moved moved → q event = q moved) :
    Blind fun event => q event && p event where
  counts event h := hp.counts event (Bool.and_eq_true_iff.mp h).2
  moved event moved h := by rw [hp.moved event moved h, hq event moved h]

lemma blind_verificationTerminal : Blind RunCompletionGate.isVerificationTerminal :=
  (blind_isType (by decide) (by decide)).or (blind_isType (by decide) (by decide))

lemma blind_reviewTerminal : Blind RunCompletionGate.isReviewTerminal :=
  ((blind_isType (by decide) (by decide)).or (blind_isType (by decide) (by decide))).or
    (blind_isType (by decide) (by decide))

lemma blind_executionLifecycle : Blind RunCompletionGate.isExecutionLifecycle :=
  ((blind_isType (by decide) (by decide)).or (blind_isType (by decide) (by decide))).or
    (blind_isType (by decide) (by decide))

lemma blind_fixLoopTerminal : Blind RunCompletionGate.isFixLoopTerminal :=
  (((blind_isType (by decide) (by decide)).or (blind_isType (by decide) (by decide))).or
    (blind_isType (by decide) (by decide))).or (blind_isType (by decide) (by decide))

end RunEvent

lemma except_ok_bind {ε α β : Type} (a : α) (f : α → Except ε β) :
    (Except.ok a >>= f) = f a :=
  rfl

section Decisions

open RunCompletionGate

variable {es fs : List RunEvent} {pairs : List (RunEvent × RunEvent)} (h : Twins es fs pairs)
include h

lemma Twins.latest_blind {p : RunEvent → Bool} (hp : RunEvent.Blind p) :
    (latest p es = none ∧ latest p fs = none) ∨
      ∃ x ∈ pairs, p x.1 = true ∧ latest p es = some x.1 ∧ latest p fs = some x.2 :=
  h.latest_both hp.counts hp.counts fun x hx => hp.moved x.1 x.2 (h.moved x hx)

lemma Twins.latestOr_blind {p : RunEvent → Bool} (hp : RunEvent.Blind p) (message : String) :
    (∃ err, latestOr p es message = .error err ∧ latestOr p fs message = .error err) ∨
      ∃ x ∈ pairs, p x.1 = true ∧ latestOr p es message = .ok x.1 ∧
        latestOr p fs message = .ok x.2 :=
  h.latestOr_both hp.counts hp.counts (fun x hx => hp.moved x.1 x.2 (h.moved x hx)) message

/-- The scan for the terminal event of an attempt. -/
lemma Twins.terminal_blind {x : RunEvent × RunEvent} (hx : x ∈ pairs) {p : RunEvent → Bool}
    (hp : RunEvent.Blind p) :
    (∀ e, (decide (x.1.seq ≤ e.seq) && p e) = true → (!e.isAdvisory) = true) ∧
      (∀ e, (decide (x.2.seq ≤ e.seq) && p e) = true → (!e.isAdvisory) = true) ∧
      ∀ y ∈ pairs, (decide (x.1.seq ≤ y.1.seq) && p y.1) =
        (decide (x.2.seq ≤ y.2.seq) && p y.2) := by
  refine ⟨?_, ?_, ?_⟩
  · exact fun e he => hp.counts e (Bool.and_eq_true_iff.mp he).2
  · exact fun e he => hp.counts e (Bool.and_eq_true_iff.mp he).2
  · intro y hy
    rw [hp.moved y.1 y.2 (h.moved y hy), decide_eq_decide.mpr (h.le_iff hx hy)]

lemma Twins.terminalOr_both {x : RunEvent × RunEvent} (hx : x ∈ pairs) (key id : String)
    {p : RunEvent → Bool} (hp : RunEvent.Blind p) (message : String) :
    (∃ err,
        latestOr (fun e => decide (x.1.seq ≤ e.seq) && (names key id e && p e)) es message =
          .error err ∧
        latestOr (fun e => decide (x.2.seq ≤ e.seq) && (names key id e && p e)) fs message =
          .error err) ∨
      ∃ y ∈ pairs,
        latestOr (fun e => decide (x.1.seq ≤ e.seq) && (names key id e && p e)) es message =
          .ok y.1 ∧
        latestOr (fun e => decide (x.2.seq ≤ e.seq) && (names key id e && p e)) fs message =
          .ok y.2 := by
  have hnamed : RunEvent.Blind fun e => names key id e && p e :=
    hp.and fun _ _ hmoved => hmoved.names key id
  obtain ⟨hleft, hright, hpaired⟩ := h.terminal_blind hx hnamed
  rcases h.latestOr_both hleft hright hpaired message with herror | ⟨y, hy, -, hfound⟩
  · exact Or.inl herror
  · exact Or.inr ⟨y, hy, hfound⟩

lemma Twins.newer {x : RunEvent × RunEvent} (hx : x ∈ pairs) :
    hasNewerExecutionActivity es x.1.seq = hasNewerExecutionActivity fs x.2.seq := by
  refine h.aligned.any ?_ ?_ ?_
  · exact fun e he => RunEvent.blind_executionLifecycle.counts e (Bool.and_eq_true_iff.mp he).2
  · exact fun e he => RunEvent.blind_executionLifecycle.counts e (Bool.and_eq_true_iff.mp he).2
  · intro y hy
    rw [RunEvent.blind_executionLifecycle.moved y.1 y.2 (h.moved y hy)]
    have hiff := h.le_iff hy hx
    congr 1
    rw [decide_eq_decide]
    omega

/-- The checks of an attempt's latest start and of its terminal event. -/
lemma Twins.requireLatestVerification_both (verificationId : String) :
    (∃ err, requireLatestVerification es verificationId = .error err ∧
        requireLatestVerification fs verificationId = .error err) ∨
      ∃ x ∈ pairs, ∃ y ∈ pairs,
        requireLatestVerification es verificationId = .ok (x.1, y.1) ∧
        requireLatestVerification fs verificationId = .ok (x.2, y.2) := by
  by_cases hid : verificationId = ""
  · exact Or.inl ⟨_, by rw [requireLatestVerification, if_pos hid],
      by rw [requireLatestVerification, if_pos hid]⟩
  simp only [requireLatestVerification, if_neg hid, latestVerificationStart]
  have hstarted : RunEvent.Blind (·.isType .verificationStarted) :=
    RunEvent.blind_isType (by decide) (by decide)
  rcases h.latestOr_blind hstarted "No verification attempt exists for this Run" with
    ⟨err, hleft, hright⟩ | ⟨x, hx, -, hleft, hright⟩
  · exact Or.inl ⟨err, by rw [hleft]; rfl, by rw [hright]; rfl⟩
  rw [hleft, hright, except_ok_bind, except_ok_bind, (h.moved x hx).names]
  by_cases hnamed : names "verification_id" verificationId x.2 = true
  · simp only [hnamed, Bool.not_true, Bool.false_eq_true, if_false, verificationTerminal]
    rcases h.terminalOr_both hx "verification_id" verificationId
        RunEvent.blind_verificationTerminal "Verification attempt has no terminal evidence" with
      ⟨err, hleft, hright⟩ | ⟨y, hy, hleft, hright⟩
    · exact Or.inl ⟨err, by rw [hleft]; rfl, by rw [hright]; rfl⟩
    rw [hleft, hright, except_ok_bind, except_ok_bind, (h.moved y hy).isType]
    by_cases hinterrupted : y.2.isType .verificationInterrupted = true
    · simp only [hinterrupted, if_true]
      exact Or.inl ⟨_, rfl, rfl⟩
    · simp only [hinterrupted]
      exact Or.inr ⟨x, hx, y, hy, rfl, rfl⟩
  · simp only [hnamed, Bool.not_false, if_true]
    exact Or.inl ⟨_, rfl, rfl⟩

lemma Twins.requireLatestReview_both (reviewId : String) :
    (∃ err, requireLatestReview es reviewId = .error err ∧
        requireLatestReview fs reviewId = .error err) ∨
      ∃ x ∈ pairs, ∃ y ∈ pairs, requireLatestReview es reviewId = .ok (x.1, y.1) ∧
        requireLatestReview fs reviewId = .ok (x.2, y.2) := by
  by_cases hid : reviewId = ""
  · exact Or.inl ⟨_, by rw [requireLatestReview, if_pos hid],
      by rw [requireLatestReview, if_pos hid]⟩
  simp only [requireLatestReview, if_neg hid, latestReviewStart]
  have hstarted : RunEvent.Blind (·.isType .reviewStarted) :=
    RunEvent.blind_isType (by decide) (by decide)
  rcases h.latestOr_blind hstarted "No review attempt exists for this Run" with
    ⟨err, hleft, hright⟩ | ⟨x, hx, -, hleft, hright⟩
  · exact Or.inl ⟨err, by rw [hleft]; rfl, by rw [hright]; rfl⟩
  rw [hleft, hright, except_ok_bind, except_ok_bind, (h.moved x hx).names]
  by_cases hnamed : names "review_id" reviewId x.2 = true
  · simp only [hnamed, Bool.not_true, Bool.false_eq_true, if_false, reviewTerminal]
    rcases h.terminalOr_both hx "review_id" reviewId RunEvent.blind_reviewTerminal
        "Review attempt has no terminal evidence" with
      ⟨err, hleft, hright⟩ | ⟨y, hy, hleft, hright⟩
    · exact Or.inl ⟨err, by rw [hleft]; rfl, by rw [hright]; rfl⟩
    rw [hleft, hright, except_ok_bind, except_ok_bind]
    exact Or.inr ⟨x, hx, y, hy, rfl, rfl⟩
  · simp only [hnamed, Bool.not_false, if_true]
    exact Or.inl ⟨_, rfl, rfl⟩

lemma Twins.lifecycle_both {x : RunEvent × RunEvent} (hx : x ∈ pairs) :
    (latestExecutionLifecycleBefore es x.1.seq = none ∧
        latestExecutionLifecycleBefore fs x.2.seq = none) ∨
      ∃ y ∈ pairs, latestExecutionLifecycleBefore es x.1.seq = some y.1 ∧
        latestExecutionLifecycleBefore fs x.2.seq = some y.2 := by
  have hblind := RunEvent.blind_executionLifecycle
  have hpaired : ∀ y ∈ pairs, (decide (y.1.seq < x.1.seq) && isExecutionLifecycle y.1) =
      (decide (y.2.seq < x.2.seq) && isExecutionLifecycle y.2) := by
    intro y hy
    rw [hblind.moved y.1 y.2 (h.moved y hy)]
    have hiff := h.le_iff hx hy
    congr 1
    rw [decide_eq_decide]
    omega
  have hcounts : ∀ (n : ℕ) (e : RunEvent),
      (decide (e.seq < n) && isExecutionLifecycle e) = true → (!e.isAdvisory) = true :=
    fun n e he => hblind.counts e (Bool.and_eq_true_iff.mp he).2
  unfold latestExecutionLifecycleBefore
  rcases h.latest_both (hcounts x.1.seq) (hcounts x.2.seq) hpaired with
    hnone | ⟨y, hy, -, hfound⟩
  · exact Or.inl hnone
  · exact Or.inr ⟨y, hy, hfound⟩

lemma Twins.requireVerifiedExecution_eq {x : RunEvent × RunEvent} (hx : x ∈ pairs) :
    requireVerifiedExecution es x.1.seq = requireVerifiedExecution fs x.2.seq := by
  unfold requireVerifiedExecution
  rw [h.newer hx]
  by_cases hnewer : hasNewerExecutionActivity fs x.2.seq = true
  · rw [if_pos hnewer, if_pos hnewer]
  rw [if_neg hnewer, if_neg hnewer]
  rcases h.lifecycle_both hx with ⟨hleft, hright⟩ | ⟨y, hy, hleft, hright⟩
  · rw [hleft, hright]
  · rw [hleft, hright]
    simp only [(h.moved y hy).isType, (h.moved y hy).executionId]

theorem Twins.verifiedPayload_eq (verificationId : String) :
    verifiedPayload es verificationId = verifiedPayload fs verificationId := by
  unfold verifiedPayload
  rcases h.requireLatestVerification_both verificationId with
    ⟨err, hleft, hright⟩ | ⟨x, hx, y, hy, hleft, hright⟩
  · rw [hleft, hright]
    rfl
  · rw [hleft, hright, except_ok_bind, except_ok_bind]
    simp only [(h.moved y hy).payload, h.requireVerifiedExecution_eq hx]

lemma Twins.requireApproval_eq {x : RunEvent × RunEvent} (hx : x ∈ pairs)
    (verificationId diffSha256 : String) :
    requireApproval x.1 verificationId diffSha256 =
      requireApproval x.2 verificationId diffSha256 := by
  have hmoved := h.moved x hx
  simp only [requireApproval, hmoved.isType, hmoved.payload, hmoved.names]

theorem Twins.reviewedPayload_eq (verificationId reviewId diffSha256 : String) :
    reviewedPayload es verificationId reviewId diffSha256 =
      reviewedPayload fs verificationId reviewId diffSha256 := by
  unfold reviewedPayload
  cases validateSha256 diffSha256 with
  | error err => rfl
  | ok diff =>
      rw [except_ok_bind, except_ok_bind]
      rcases h.requireLatestVerification_both verificationId with
        ⟨err, hleft, hright⟩ | ⟨x, hx, y, hy, hleft, hright⟩
      · rw [hleft, hright]
        rfl
      rw [hleft, hright, except_ok_bind, except_ok_bind]
      simp only [(h.moved y hy).isType, (h.moved y hy).payload,
        h.requireVerifiedExecution_eq hx]
      rcases h.requireLatestReview_both reviewId with
        ⟨err, hleft, hright⟩ | ⟨r, hr, z, hz, hleft, hright⟩
      · rw [hleft, hright]
        rfl
      have hle : r.1.seq ≤ y.1.seq ↔ r.2.seq ≤ y.2.seq := h.le_iff hr hy
      rw [hleft, hright]
      simp only [except_ok_bind, h.requireApproval_eq hz, hle]

theorem Twins.executionFailure_eq (executionId : String) :
    executionFailure es executionId = executionFailure fs executionId := by
  unfold executionFailure
  by_cases hid : executionId = ""
  · rw [if_pos hid, if_pos hid]
  rw [if_neg hid, if_neg hid]
  have hfailed : RunEvent.Blind (·.isType .executionFailed) :=
    RunEvent.blind_isType (by decide) (by decide)
  have hblind : RunEvent.Blind fun event => event.isType .executionFailed &&
      event.executionId == some executionId := by
    refine ⟨fun event he => hfailed.counts event (Bool.and_eq_true_iff.mp he).1, ?_⟩
    intro event moved hmoved
    rw [hmoved.isType, hmoved.executionId]
  rcases h.latestOr_blind hblind "Requested execution failure evidence is missing" with
    ⟨err, hleft, hright⟩ | ⟨x, hx, -, hleft, hright⟩
  · rw [hleft, hright]
    rfl
  · rw [hleft, hright, except_ok_bind, except_ok_bind]
    simp only [h.newer hx, (h.moved x hx).payload]

theorem Twins.verificationFailure_eq (verificationId : String) :
    verificationFailure es verificationId = verificationFailure fs verificationId := by
  unfold verificationFailure
  rcases h.requireLatestVerification_both verificationId with
    ⟨err, hleft, hright⟩ | ⟨x, hx, y, hy, hleft, hright⟩
  · rw [hleft, hright]
    rfl
  rw [hleft, hright, except_ok_bind, except_ok_bind]
  have hstarted : ((latestExecutionLifecycleBefore es x.1.seq).any (·.isType .executionStarted)) =
      ((latestExecutionLifecycleBefore fs x.2.seq).any (·.isType .executionStarted)) := by
    rcases h.lifecycle_both hx with ⟨hleft, hright⟩ | ⟨z, hz, hleft, hright⟩
    · rw [hleft, hright]
    · rw [hleft, hright, Option.any_some, Option.any_some, (h.moved z hz).isType]
  simp only [(h.moved y hy).payload, h.newer hx, hstarted]

theorem Twins.fixLoopFailure_eq (fixLoopId : String) :
    fixLoopFailure es fixLoopId = fixLoopFailure fs fixLoopId := by
  unfold fixLoopFailure
  by_cases hid : fixLoopId = ""
  · rw [if_pos hid, if_pos hid]
  rw [if_neg hid, if_neg hid]
  have hstarted : RunEvent.Blind (·.isType .fixLoopStarted) :=
    RunEvent.blind_isType (by decide) (by decide)
  rcases h.latestOr_blind hstarted "No fix loop attempt exists for this Run" with
    ⟨err, hleft, hright⟩ | ⟨x, hx, -, hleft, hright⟩
  · rw [hleft, hright]
    rfl
  rw [hleft, hright, except_ok_bind, except_ok_bind, (h.moved x hx).names]
  by_cases hnamed : names "fix_loop_id" fixLoopId x.2 = true
  · simp only [hnamed, Bool.not_true, Bool.false_eq_true, if_false]
    rcases h.terminalOr_both hx "fix_loop_id" fixLoopId RunEvent.blind_fixLoopTerminal
        "Fix loop attempt has no terminal evidence" with
      ⟨err, hleft, hright⟩ | ⟨y, hy, hleft, hright⟩
    · rw [hleft, hright]
      rfl
    rw [hleft, hright, except_ok_bind, except_ok_bind]
    simp only [(h.moved y hy).isType, (h.moved y hy).payload, h.newer hy]
  · simp only [hnamed, Bool.not_false, if_true]

end Decisions

section Receipts

variable {es fs : List RunEvent} {pairs : List (RunEvent × RunEvent)} (h : Twins es fs pairs)
include h

lemma Twins.latestOf_both (type : RunEventType) (hactivity : type ≠ .agentActivity)
    (hdecision : type ≠ .decisionMade) :
    (latestOf es type = none ∧ latestOf fs type = none) ∨
      ∃ x ∈ pairs, latestOf es type = some x.1 ∧ latestOf fs type = some x.2 := by
  rcases h.latest_blind (RunEvent.blind_isType hactivity hdecision) with
    hnone | ⟨x, hx, -, hfound⟩
  · exact Or.inl hnone
  · exact Or.inr ⟨x, hx, hfound⟩

lemma Twins.terminalOf_both {x : RunEvent × RunEvent} (hx : x ∈ pairs) (key id : String)
    {p : RunEvent → Bool} (hp : RunEvent.Blind p) :
    (terminalOf key id x.1 p es = none ∧ terminalOf key id x.2 p fs = none) ∨
      ∃ y ∈ pairs, terminalOf key id x.1 p es = some y.1 ∧
        terminalOf key id x.2 p fs = some y.2 := by
  have hnamed : RunEvent.Blind fun e => RunCompletionGate.names key id e && p e :=
    hp.and fun _ _ hmoved => hmoved.names key id
  obtain ⟨hleft, hright, hpaired⟩ := h.terminal_blind hx hnamed
  rcases h.latest_both hleft hright hpaired with hnone | ⟨y, hy, -, hfound⟩
  · exact Or.inl hnone
  · exact Or.inr ⟨y, hy, hfound⟩

lemma Twins.listOf_eq (type : RunEventType) (hactivity : type ≠ .agentActivity)
    (hdecision : type ≠ .decisionMade) (key : String) :
    listOf (latestOf es type) key = listOf (latestOf fs type) key := by
  rcases h.latestOf_both type hactivity hdecision with ⟨hleft, hright⟩ | ⟨x, hx, hleft, hright⟩
  · rw [hleft, hright]
  · rw [hleft, hright, listOf, listOf, (h.moved x hx).payload]

lemma Twins.planView_eq : planView es = planView fs := by
  unfold planView
  rcases h.latestOf_both .planCompleted (by decide) (by decide) with
    ⟨hleft, hright⟩ | ⟨x, hx, hleft, hright⟩
  · rw [hleft, hright]
  · rw [hleft, hright]
    simp only [listOf, (h.moved x hx).payload]

/-- The draft is folded from the payloads of the proposed changes. -/
lemma Twins.draftChangeSummary_eq : draftChangeSummary es = draftChangeSummary fs := by
  have hproposed : RunEvent.Blind (·.isType .changeProposed) :=
    RunEvent.blind_isType (by decide) (by decide)
  obtain ⟨hleft, hright⟩ := h.aligned.filter hproposed.counts hproposed.counts
    fun x hx => hproposed.moved x.1 x.2 (h.moved x hx)
  unfold draftChangeSummary
  rw [hleft, hright]
  congr 1
  have hmoved : ∀ x ∈ pairs.filter (·.1.isType .changeProposed), x.1.Moved x.2 :=
    fun x hx => h.moved x (List.mem_of_mem_filter hx)
  generalize pairs.filter (·.1.isType .changeProposed) = proposed at hmoved
  generalize ([] : List (PyValue × ProposalView)) = table
  induction proposed generalizing table with
  | nil => rfl
  | cons x rest ih =>
      simp only [List.map_cons, List.foldlM_cons]
      have hround : addDraft table x.1 = addDraft table x.2 := by
        simp only [addDraft, (hmoved x (List.mem_cons_self)).payload]
      rw [hround]
      cases addDraft table x.2 with
      | error err => rfl
      | ok next => exact ih (fun y hy => hmoved y (List.mem_cons_of_mem x hy)) next

lemma Twins.proposalViews_eq : proposalViews es = proposalViews fs := by
  have hready := h.listOf_eq .proposalReady (by decide) (by decide) "proposals"
  unfold proposalViews
  rcases h.latestOf_both .proposalReady (by decide) (by decide) with
    ⟨hleft, hright⟩ | ⟨x, hx, hleft, hright⟩
  · rw [hleft, hright]
    exact h.draftChangeSummary_eq
  · rw [hleft, hright] at hready
    rw [hleft, hright]
    simp only [hready]

lemma Twins.verificationReceipt_eq : verificationReceipt es = verificationReceipt fs := by
  unfold verificationReceipt
  rcases h.latestOf_both .verificationStarted (by decide) (by decide) with
    ⟨hleft, hright⟩ | ⟨x, hx, hleft, hright⟩
  · rw [hleft, hright]
  rw [hleft, hright]
  simp only [(h.moved x hx).payload]
  split
  · rename_i verificationId _
    rcases h.terminalOf_both hx "verification_id" verificationId
        RunEvent.blind_verificationTerminal with ⟨hleft, hright⟩ | ⟨y, hy, hleft, hright⟩
    · rw [hleft, hright]
    · rw [hleft, hright]
      simp only [(h.moved y hy).isType, completedVerification, (h.moved y hy).payload]
  · rfl

lemma Twins.reviewReceipt_eq : reviewReceipt es = reviewReceipt fs := by
  unfold reviewReceipt
  rcases h.latestOf_both .reviewStarted (by decide) (by decide) with
    ⟨hleft, hright⟩ | ⟨x, hx, hleft, hright⟩
  · rw [hleft, hright]
    rcases h.latestOf_both .reviewCompleted (by decide) (by decide) with
      ⟨hleft, hright⟩ | ⟨x, hx, hleft, hright⟩
    · rw [hleft, hright]
    · rw [hleft, hright]
      simp only [(h.moved x hx).payload]
  rw [hleft, hright]
  simp only [(h.moved x hx).payload]
  split
  · rename_i reviewId _
    rcases h.terminalOf_both hx "review_id" reviewId RunEvent.blind_reviewTerminal with
      ⟨hleft, hright⟩ | ⟨y, hy, hleft, hright⟩
    · rw [hleft, hright]
    · rw [hleft, hright]
      simp only [(h.moved y hy).isType, (h.moved y hy).payload]
  · rfl

lemma Twins.checkpointId_eq :
    ((latestOf es .proposalApplied).map fun event => event.payload.get "checkpoint_id") =
      (latestOf fs .proposalApplied).map fun event => event.payload.get "checkpoint_id" := by
  rcases h.latestOf_both .proposalApplied (by decide) (by decide) with
    ⟨hleft, hright⟩ | ⟨x, hx, hleft, hright⟩
  · rw [hleft, hright]
  · rw [hleft, hright, Option.map_some, Option.map_some, (h.moved x hx).payload]

/-- The receipt of a history with advice is the receipt of the history, but for the finish
time that an unfinished run takes from its last event. -/
theorem Twins.buildReceipt_eq (task : TaskRecord) (run : RunRecord) (n : ℕ) :
    buildReceipt ⟨task, { run with lastEventSeq := n }, fs⟩ =
      (buildReceipt ⟨task, run, es⟩).map fun receipt =>
        { receipt with
          finishedAt := toEpochSeconds (finishedAt ⟨task, { run with lastEventSeq := n }, fs⟩) } := by
  have happlied := h.listOf_eq .proposalApplied (by decide) (by decide) "applied"
  have hrejected := h.listOf_eq .proposalRejected (by decide) (by decide) "rejected"
  simp only [buildReceipt, h.planView_eq, h.proposalViews_eq, happlied, hrejected,
    h.reviewReceipt_eq, h.verificationReceipt_eq, h.checkpointId_eq]
  cases planView fs with
  | error err => rfl
  | ok plan =>
      cases proposalViews fs with
      | error err => rfl
      | ok proposals =>
          cases listOf (latestOf fs .proposalApplied) "applied" with
          | error err => rfl
          | ok applied =>
              cases listOf (latestOf fs .proposalRejected) "rejected" with
              | error err => rfl
              | ok rejected => rfl

theorem Twins.buildHistoryItem_eq (task : TaskRecord) (run : RunRecord) (n : ℕ) :
    buildHistoryItem ⟨task, { run with lastEventSeq := n }, fs⟩ =
      buildHistoryItem ⟨task, run, es⟩ := by
  have hfiles : historyFiles es = historyFiles fs := by
    have hready := h.listOf_eq .proposalReady (by decide) (by decide) "proposals"
    have hplan := h.listOf_eq .planCompleted (by decide) (by decide) "files"
    unfold historyFiles
    rcases h.latestOf_both .proposalReady (by decide) (by decide) with
      ⟨hleft, hright⟩ | ⟨x, hx, hleft, hright⟩
    · rw [hleft, hright]
      exact hplan
    · rw [hleft, hright] at hready
      rw [hleft, hright]
      simp only [hready]
  simp only [buildHistoryItem, hfiles, h.reviewReceipt_eq]
  rfl

end Receipts

end Imece.RunRuntime
