import Imece.RunRuntime.Completion

/-!
# What a settlement of the gate rests on

The evidence of a terminal decision, stated on the shape of the log: which event
stands where, and what does not occur between and after. The gate's scans find
exactly such splits, and its compare-and-swap makes the log it scanned the log
it settles.
-/
namespace Imece.RunRuntime

open Lib

namespace RunCompletionGate

/-- A log in which the latest verification attempt is `verificationId`, passed,
and was about a settled execution that nothing newer has replaced. -/
structure VerifiedLog (events : List RunEvent) (verificationId : String) where
  before : List RunEvent
  start : RunEvent
  between : List RunEvent
  terminal : RunEvent
  rest : List RunEvent
  split : events = before ++ start :: (between ++ terminal :: rest)
  start_type : start.isType .verificationStarted = true
  start_id : start.payload.get "verification_id" = .str verificationId
  latest_start : ∀ e ∈ between ++ terminal :: rest, e.isType .verificationStarted = false
  terminal_type : terminal.isType .verificationCompleted = true
  terminal_id : terminal.payload.get "verification_id" = .str verificationId
  passed : terminal.payload.get "status" = .str "pass"
  latest_terminal : ∀ e ∈ rest,
    (names "verification_id" verificationId e && isVerificationTerminal e) = false
  execution : ∃ earlier attempt later id, before = earlier ++ attempt :: later ∧
    attempt.isType .executionCompleted = true ∧ attempt.executionId = some id ∧ id ≠ "" ∧
    ∀ e ∈ later, isExecutionLifecycle e = false
  no_newer_execution : ∀ e ∈ between ++ terminal :: rest, isExecutionLifecycle e = false

/-- What follows the verification terminal ends in an approving review of the
same verification and diff: the latest review attempt, and its last word. -/
structure ApprovedReview (rest : List RunEvent) (verificationId reviewId diffSha256 : String) where
  before : List RunEvent
  start : RunEvent
  between : List RunEvent
  terminal : RunEvent
  after : List RunEvent
  split : rest = before ++ start :: (between ++ terminal :: after)
  start_type : start.isType .reviewStarted = true
  start_id : start.payload.get "review_id" = .str reviewId
  latest_start : ∀ e ∈ between ++ terminal :: after, e.isType .reviewStarted = false
  terminal_type : terminal.isType .reviewCompleted = true
  terminal_id : terminal.payload.get "review_id" = .str reviewId
  approved : terminal.payload.get "verdict" = .str "APPROVED"
  same_verification : terminal.payload.get "verification_id" = .str verificationId
  verification_passed : terminal.payload.get "verification_status" = .str "pass"
  same_diff : terminal.payload.get "diff_sha256" = .str diffSha256
  latest_terminal : ∀ e ∈ after, (names "review_id" reviewId e && isReviewTerminal e) = false

lemma latestOr_ok {p : RunEvent → Bool} {events : List RunEvent} {message : String}
    {event : RunEvent} (h : latestOr p events message = .ok event) :
    latest p events = some event := by
  unfold latestOr at h
  split at h
  · cases h
    assumption
  · cases h

/-- Two different types do not name one event. -/
lemma isType_ne {event : RunEvent} {s t : RunEventType} (hne : s ≠ t)
    (hs : event.isType s = true) : event.isType t = false := by
  by_contra ht
  rw [Bool.not_eq_false] at ht
  have hkind := RunEvent.kind_of_isType ht
  rw [RunEvent.kind_of_isType hs] at hkind
  exact hne (Option.some.inj hkind)

/-- The latest terminal from an opening event on comes strictly after it. -/
lemma split_terminal {p : RunEvent → Bool} {pre tail : List RunEvent} {start terminal : RunEvent}
    (hpairwise : (pre ++ start :: tail).Pairwise fun a b => a.seq < b.seq)
    (hstart : p start = false)
    (h : latest (fun e => decide (start.seq ≤ e.seq) && p e) (pre ++ start :: tail) =
      some terminal) :
    ∃ between rest, tail = between ++ terminal :: rest ∧ p terminal = true ∧
      ∀ e ∈ rest, p e = false := by
  rw [latest_from hpairwise] at h
  obtain ⟨front, rest, heq, hp, hrest⟩ := latest_eq_some.mp h
  cases front with
  | nil =>
      obtain ⟨rfl, -⟩ := List.cons.inj heq
      rw [hstart] at hp
      cases hp
  | cons first between =>
      obtain ⟨-, rfl⟩ := List.cons.inj heq
      exact ⟨between, rest, rfl, hp, hrest⟩

/-- The execution check, on the shape of the log. -/
lemma requireVerifiedExecution_ok {pre tail : List RunEvent} {start : RunEvent} {id : String}
    (hpairwise : (pre ++ start :: tail).Pairwise fun a b => a.seq < b.seq)
    (h : requireVerifiedExecution (pre ++ start :: tail) start.seq = .ok id) :
    (∃ earlier attempt later, pre = earlier ++ attempt :: later ∧
      attempt.isType .executionCompleted = true ∧ attempt.executionId = some id ∧ id ≠ "" ∧
      ∀ e ∈ later, isExecutionLifecycle e = false) ∧
      ∀ e ∈ tail, isExecutionLifecycle e = false := by
  unfold requireVerifiedExecution at h
  split at h
  · cases h
  · rename_i hnewer
    rw [Bool.not_eq_true] at hnewer
    refine ⟨?_, none_after hpairwise hnewer⟩
    split at h
    · cases h
    · rename_i attempt hattempt
      rw [latestExecutionLifecycleBefore, latest_before hpairwise] at hattempt
      obtain ⟨earlier, later, rfl, -, hlater⟩ := latest_eq_some.mp hattempt
      split at h
      · cases h
      · rename_i hcompleted
        split at h
        · cases h
        · rename_i id' hid
          split at h
          · cases h
          · rename_i hne
            cases h
            exact ⟨earlier, attempt, later, rfl, by simpa using hcompleted, hid, hne, hlater⟩

/-- The verification check, on the shape of the log. -/
lemma requireLatestVerification_ok {events : List RunEvent} {verificationId : String}
    {start terminal : RunEvent} (hnumbered : Numbered (·.seq) events)
    (h : requireLatestVerification events verificationId = .ok (start, terminal)) :
    ∃ before between rest, events = before ++ start :: (between ++ terminal :: rest) ∧
      start.isType .verificationStarted = true ∧
      start.payload.get "verification_id" = .str verificationId ∧
      (∀ e ∈ between ++ terminal :: rest, e.isType .verificationStarted = false) ∧
      terminal.isType .verificationCompleted = true ∧
      terminal.payload.get "verification_id" = .str verificationId ∧
      ∀ e ∈ rest, (names "verification_id" verificationId e && isVerificationTerminal e) = false := by
  unfold requireLatestVerification at h
  split at h
  · cases h
  · rw [except_bind_eq_ok] at h
    obtain ⟨found, hfound, h⟩ := h
    split at h
    · cases h
    · rename_i hnames
      rw [except_bind_eq_ok] at h
      obtain ⟨last, hlast, h⟩ := h
      split at h
      · cases h
      · rename_i hinterrupted
        cases h
        obtain ⟨before, tail, rfl, hstart, htail⟩ := latest_eq_some.mp (latestOr_ok hfound)
        have hopen : (names "verification_id" verificationId start &&
            isVerificationTerminal start) = false := by
          simp [isVerificationTerminal, isType_ne (t := .verificationCompleted) (by decide) hstart,
            isType_ne (t := .verificationInterrupted) (by decide) hstart]
        obtain ⟨between, rest, rfl, hterminal, hrest⟩ :=
          split_terminal (numbered_pairwise hnumbered) hopen (latestOr_ok hlast)
        simp only [Bool.not_eq_true] at hinterrupted
        simp only [Bool.not_eq_true', Bool.not_eq_false] at hnames
        simp only [Bool.and_eq_true, isVerificationTerminal, Bool.or_eq_true, hinterrupted,
          Bool.false_eq_true, or_false] at hterminal
        exact ⟨before, between, rest, rfl, hstart, PyValue.eqStr_iff.mp hnames, htail,
          hterminal.2, PyValue.eqStr_iff.mp hterminal.1, hrest⟩

/-- Evidence that passes the checks of `complete_verified` is a verified log. -/
theorem verifiedPayload_ok {events : List RunEvent} {verificationId : String} {payload : PyValue}
    (hnumbered : Numbered (·.seq) events)
    (h : verifiedPayload events verificationId = .ok payload) :
    Nonempty (VerifiedLog events verificationId) := by
  unfold verifiedPayload at h
  rw [except_bind_eq_ok] at h
  obtain ⟨⟨start, terminal⟩, hrequire, h⟩ := h
  obtain ⟨before, between, rest, rfl, hstart, hid, hlatest, hterminal, htid, hrest⟩ :=
    requireLatestVerification_ok hnumbered hrequire
  simp only at h
  split at h
  · cases h
  · rename_i hpass
    rw [except_bind_eq_ok] at h
    obtain ⟨executionId, hexecution, -⟩ := h
    obtain ⟨⟨earlier, attempt, later, hbefore, hcompleted, hid', hne, hlater⟩, hnewer⟩ :=
      requireVerifiedExecution_ok (numbered_pairwise hnumbered) hexecution
    exact ⟨{
      before, start, between, terminal, rest
      split := rfl
      start_type := hstart
      start_id := hid
      latest_start := hlatest
      terminal_type := hterminal
      terminal_id := htid
      passed := by simpa using hpass
      latest_terminal := hrest
      execution := ⟨earlier, attempt, later, executionId, hbefore, hcompleted, hid', hne, hlater⟩
      no_newer_execution := hnewer }⟩

lemma requireApproval_ok {terminal : RunEvent} {verificationId diffSha256 : String}
    (h : requireApproval terminal verificationId diffSha256 = .ok ()) :
    terminal.isType .reviewCompleted = true ∧
      terminal.payload.get "verdict" = .str "APPROVED" ∧
      terminal.payload.get "verification_id" = .str verificationId ∧
      terminal.payload.get "verification_status" = .str "pass" ∧
      terminal.payload.get "diff_sha256" = .str diffSha256 := by
  unfold requireApproval at h
  repeat' split at h
  all_goals cases h
  rename_i htype hverdict hid hstatus hdiff
  simp only [names, Bool.not_eq_true', Bool.not_eq_false, PyValue.eqStr_iff] at *
  exact ⟨htype, hverdict, hid, hstatus, hdiff⟩

/-- The review check, on the shape of the log. -/
lemma requireLatestReview_ok {events : List RunEvent} {reviewId : String}
    {start terminal : RunEvent} (hnumbered : Numbered (·.seq) events)
    (h : requireLatestReview events reviewId = .ok (start, terminal)) :
    ∃ before tail, events = before ++ start :: tail ∧
      start.isType .reviewStarted = true ∧ start.payload.get "review_id" = .str reviewId ∧
      (∀ e ∈ tail, e.isType .reviewStarted = false) ∧
      ∃ between rest, tail = between ++ terminal :: rest ∧
        terminal.payload.get "review_id" = .str reviewId ∧
        ∀ e ∈ rest, (names "review_id" reviewId e && isReviewTerminal e) = false := by
  unfold requireLatestReview at h
  split at h
  · cases h
  · rw [except_bind_eq_ok] at h
    obtain ⟨found, hfound, h⟩ := h
    split at h
    · cases h
    · rename_i hnames
      rw [except_bind_eq_ok] at h
      obtain ⟨last, hlast, h⟩ := h
      cases h
      obtain ⟨before, tail, rfl, hstart, htail⟩ := latest_eq_some.mp (latestOr_ok hfound)
      have hopen : (names "review_id" reviewId start && isReviewTerminal start) = false := by
        simp [isReviewTerminal, isType_ne (t := .reviewCompleted) (by decide) hstart,
          isType_ne (t := .reviewFailed) (by decide) hstart,
          isType_ne (t := .reviewInterrupted) (by decide) hstart]
      obtain ⟨between, rest, rfl, hterminal, hrest⟩ :=
        split_terminal (numbered_pairwise hnumbered) hopen (latestOr_ok hlast)
      simp only [Bool.not_eq_true', Bool.not_eq_false] at hnames
      simp only [Bool.and_eq_true] at hterminal
      exact ⟨before, _, rfl, hstart, PyValue.eqStr_iff.mp hnames, htail, between, rest, rfl,
        PyValue.eqStr_iff.mp hterminal.1, hrest⟩

/-- In a numbered log, an event numbered after another one stands after it. -/
lemma split_later {front tail before rest : List RunEvent} {x y : RunEvent}
    (hpairwise : (front ++ x :: tail).Pairwise fun a b => a.seq < b.seq)
    (heq : front ++ x :: tail = before ++ y :: rest) (hlt : x.seq < y.seq) :
    ∃ skipped, tail = skipped ++ y :: rest := by
  rcases List.append_eq_append_iff.mp heq with ⟨mid, rfl, hmid⟩ | ⟨mid, rfl, hmid⟩
  · cases mid with
    | nil =>
        obtain ⟨rfl, -⟩ := List.cons.inj hmid
        omega
    | cons first skipped =>
        obtain ⟨-, rfl⟩ := List.cons.inj hmid
        exact ⟨skipped, rfl⟩
  · cases mid with
    | nil =>
        obtain ⟨rfl, -⟩ := List.cons.inj hmid
        omega
    | cons first skipped =>
        obtain ⟨rfl, hrest⟩ := List.cons.inj hmid
        have := seq_before hpairwise (y := y) (by simp)
        omega

/-- Evidence that passes the checks of `complete_reviewed` is a verified log
followed by an approving review of it. -/
theorem reviewedPayload_ok {events : List RunEvent}
    {verificationId reviewId diffSha256 : String} {payload : PyValue}
    (hnumbered : Numbered (·.seq) events)
    (h : reviewedPayload events verificationId reviewId diffSha256 = .ok payload) :
    ∃ verified : VerifiedLog events verificationId,
      Nonempty (ApprovedReview verified.rest verificationId reviewId diffSha256) := by
  unfold reviewedPayload at h
  rw [except_bind_eq_ok] at h
  obtain ⟨diff, hdiff, h⟩ := h
  obtain rfl : diffSha256 = diff := by
    unfold validateSha256 at hdiff
    split at hdiff <;> cases hdiff
    rfl
  rw [except_bind_eq_ok] at h
  obtain ⟨⟨start, terminal⟩, hrequire, h⟩ := h
  obtain ⟨before, between, rest, hsplit, hstart, hid, hlatest, hterminal, htid, hrest⟩ :=
    requireLatestVerification_ok hnumbered hrequire
  simp only [hterminal, Bool.not_true, Bool.false_eq_true, if_false] at h
  split at h
  · cases h
  · rename_i hpass
    rw [except_bind_eq_ok] at h
    obtain ⟨executionId, hexecution, h⟩ := h
    rw [except_bind_eq_ok] at h
    obtain ⟨⟨reviewStart, review⟩, hreview, h⟩ := h
    simp only at h
    split at h
    · cases h
    · rename_i hafter
      rw [except_bind_eq_ok] at h
      obtain ⟨⟨⟩, happroval, -⟩ := h
      have hpairwise := numbered_pairwise hnumbered
      obtain ⟨front, tail, hsplit', hrstart, hrid, hrlatest, mid, last, rfl, hrtid, hlast⟩ :=
        requireLatestReview_ok hnumbered hreview
      obtain ⟨htype, hverdict, hsame, hstatus, hdigest⟩ := requireApproval_ok happroval
      subst hsplit
      obtain ⟨⟨earlier, attempt, later, hbefore, hcompleted, hid', hne, hlater⟩, hnewer⟩ :=
        requireVerifiedExecution_ok hpairwise hexecution
      obtain ⟨skipped, hskipped⟩ : ∃ skipped, rest =
          skipped ++ reviewStart :: (mid ++ review :: last) := by
        have hpairwise' : ((before ++ start :: between) ++ terminal :: rest).Pairwise
            fun a b => a.seq < b.seq := by
          simpa using hpairwise
        have hsplit'' : (before ++ start :: between) ++ terminal :: rest =
            front ++ reviewStart :: (mid ++ review :: last) := by
          simpa using hsplit'
        exact split_later hpairwise' hsplit'' (by omega)
      exact ⟨{
        before, start, between, terminal, rest
        split := rfl
        start_type := hstart
        start_id := hid
        latest_start := hlatest
        terminal_type := hterminal
        terminal_id := htid
        passed := by simpa using hpass
        latest_terminal := hrest
        execution :=
          ⟨earlier, attempt, later, executionId, hbefore, hcompleted, hid', hne, hlater⟩
        no_newer_execution := hnewer }, ⟨{
          before := skipped
          start := reviewStart
          between := mid
          terminal := review
          after := last
          split := hskipped
          start_type := hrstart
          start_id := hrid
          latest_start := hrlatest
          terminal_type := htype
          terminal_id := hrtid
          approved := hverdict
          same_verification := hsame
          verification_passed := hstatus
          same_diff := hdigest
          latest_terminal := hlast }⟩⟩

end RunCompletionGate

end Imece.RunRuntime
