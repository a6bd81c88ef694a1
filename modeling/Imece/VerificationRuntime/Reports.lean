import Imece.Lib.Text
import Imece.VerificationRuntime.Runner

/-!
# What a verification reports

The runner over a sink that takes every event, with the checks that the result and report
constructors make. Each check has its start and its terminal before the next one starts, and
the worst check decides the report, unless a process error is worded at too great a length for
the result that is built from it.
-/
namespace Imece.VerificationRuntime

open RunRuntime Lib

section Constructors

def maxNameLength : ℕ := 512
def maxErrorType : ℕ := 256
def maxErrorMessage : ℕ := 2000

/-- `_name`: not blank, and bounded. -/
def nameOk (name : String) : Bool := !blankText name && decide (name.length ≤ maxNameLength)

/-- `VerificationCheckResult.__post_init__` -/
def VerificationCheckResult.make (fields : VerificationCheckResult) :
    Except VerificationRuntimeError VerificationCheckResult :=
  let noError := fields.errorType.isNone && fields.errorMessage.isNone
  if !isStableId fields.checkId || !nameOk fields.name then .error .input
  else match fields.status, fields.processResult with
    | .pass, some process | .fail, some process =>
        if process.timedOut || !noError then .error .input else .ok fields
    | .timeout, some process =>
        if !process.timedOut || !noError then .error .input else .ok fields
    | .error, some process =>
        if process.timedOut || !noError then .error .input else .ok fields
    | .error, none =>
        match fields.errorType, fields.errorMessage with
        | some errorType, some message =>
            if errorType = "" ∨ maxErrorType < errorType.length ∨
                errorType.toList.contains (Char.ofNat 0) ∨ maxErrorMessage < message.length then
              .error .input
            else .ok { fields with errorMessage := some (dropNul message) }
        | _, _ => .error .input
    | _, none => .error .input

/-- What the constructor of a plan has checked of the texts that results and reports repeat. -/
structure VerificationPlan.Named (plan : VerificationPlan) : Prop where
  planId : isStableId plan.planId = true
  checks : ∀ check ∈ plan.checks, isStableId check.checkId = true ∧ nameOk check.name = true

/-- `VerificationReport.__post_init__` -/
def VerificationReport.make (verificationId planId : String)
    (results : List VerificationCheckResult) (durationMs : ℕ) :
    Except VerificationRuntimeError VerificationReport :=
  if !isStableId verificationId || !isStableId planId then .error .input
  else if h : results = [] then .error .input
  else .ok { verificationId, planId, results, durationMs, nonempty := h }

end Constructors

section Runs

/-- A part of the run: it emits events, and returns or raises. -/
abbrev Emits (α : Type) := EStateM VerificationRuntimeError (List VerificationEvent) α

variable (verificationId planId : String)

def emitted (kind : VerificationEventKind) : Emits Unit :=
  modify (· ++ [⟨verificationId, kind⟩])

/-- The fields of the result of a process that could not be run. -/
def processError (check : VerificationCheck) (errorType message : String) :
    VerificationCheckResult where
  checkId := check.checkId
  name := check.name
  status := .error
  processResult := none
  errorType := some errorType
  errorMessage := some message

/-- One turn of the loop over the checks. -/
def checkTurn (check : VerificationCheck) (outcome : ProcessOutcome) :
    Emits VerificationCheckResult := do
  emitted verificationId (.checkStarted check)
  match outcome with
  | .cancelled =>
      emitted verificationId (.interrupted planId "cancelled")
      throw (.cancelled check.checkId)
  | .runtimeError errorType message =>
      let made ← Lib.check (processError check errorType message).make
      emitted verificationId (.checkFailed check made)
      return made
  | .raised | .foreign => throw .execution
  | .result process =>
      let made ← Lib.check (checkResult check process).make
      emitted verificationId (.checkCompleted check made)
      return made

/-- The loop over the checks, from the check with this number on. -/
def checkTurns (outcomes : ℕ → ProcessOutcome) :
    ℕ → List VerificationCheck → Emits (List VerificationCheckResult)
  | _, [] => return []
  | i, check :: rest => do
      let made ← checkTurn verificationId planId check (outcomes i)
      return made :: (← checkTurns outcomes (i + 1) rest)

/-- `VerificationRunner.run`, over a sink that takes every event. -/
def runPlan (plan : VerificationPlan) (outcomes : ℕ → ProcessOutcome) (durationMs : ℕ) :
    Emits VerificationReport := do
  if !isStableId verificationId then throw .input
  emitted verificationId (.started plan.planId plan.checks.length)
  let results ← checkTurns verificationId plan.planId outcomes 0 plan.checks
  let report ← Lib.check (VerificationReport.make verificationId plan.planId results durationMs)
  emitted verificationId (.completed report)
  return report

end Runs

section Verdicts

/-- The runner of processes returns a result, raises one of its own errors, or has observed a
cancellation. -/
def ProcessOutcome.Answers : ProcessOutcome → Prop
  | .result _ | .runtimeError _ _ | .cancelled => True
  | .raised | .foreign => False

/-- The error is short enough for the result that is built from it. -/
def ProcessOutcome.Recordable : ProcessOutcome → Prop
  | .runtimeError errorType message =>
      errorType ≠ "" ∧ errorType.length ≤ maxErrorType ∧
        errorType.toList.contains (Char.ofNat 0) = false ∧ message.length ≤ maxErrorMessage
  | _ => True

/-- The check exited with one of its pass codes. -/
def PassedBy (check : VerificationCheck) (outcome : ProcessOutcome) : Prop :=
  ∃ process code, outcome = .result process ∧ process.timedOut = false ∧
    process.exitCode = some code ∧ code ∈ check.passExitCodes

def TimedOutBy (outcome : ProcessOutcome) : Prop :=
  ∃ process, outcome = .result process ∧ process.timedOut = true

/-- The check is an error: its process could not be run, left no code, or left one that
counts as an error. -/
def ErrorBy (check : VerificationCheck) (outcome : ProcessOutcome) : Prop :=
  (∃ errorType message, outcome = .runtimeError errorType message) ∨
    ∃ process, outcome = .result process ∧ process.timedOut = false ∧
      (process.exitCode = none ∨ ∃ code, process.exitCode = some code ∧
        code ∉ check.passExitCodes ∧ (code < 0 ∨ code ∈ check.errorExitCodes))

/-- The events of checks that ended, each start before its own terminal. -/
def turnEvents (verificationId : String)
    (ended : List (VerificationCheck × VerificationCheckResult)) : List VerificationEvent :=
  ended.flatMap fun turn =>
    [⟨verificationId, .checkStarted turn.1⟩,
      ⟨verificationId, if turn.2.processResult.isNone then .checkFailed turn.1 turn.2
        else .checkCompleted turn.1 turn.2⟩]

/-- The result repeats the check, and its status is the check's verdict on the outcome. -/
structure Judged (check : VerificationCheck) (outcome : ProcessOutcome)
    (made : VerificationCheckResult) : Prop where
  checkId : made.checkId = check.checkId
  name : made.name = check.name
  passed : made.status = .pass ↔ PassedBy check outcome
  timedOut : made.status = .timeout ↔ TimedOutBy outcome
  error : made.status = .error ↔ ErrorBy check outcome

end Verdicts

section Turns

variable {verificationId planId : String} {check : VerificationCheck} {outcome : ProcessOutcome}
  {outcomes : ℕ → ProcessOutcome} {events : List VerificationEvent}

/-- The verdict on what a process did: its own status decides it. -/
lemma classify_judged (check : VerificationCheck) (process : ProcessResult) :
    Judged check (.result process) (checkResult check process) := by
  refine ⟨rfl, rfl, ?_, ?_, ?_⟩
  · simp only [checkResult, classify, PassedBy]
    cases htimed : process.timedOut with
    | true => simp [htimed]
    | false =>
        cases hcode : process.exitCode with
        | none => simp [hcode]
        | some code =>
            by_cases hpass : code ∈ check.passExitCodes
            · simp [hpass, htimed, hcode]
            · simp only [hpass, Bool.false_eq_true, if_false, ProcessOutcome.result.injEq]
              constructor
              · split_ifs <;> exact nofun
              · rintro ⟨_, _, rfl, -, hcode', hmem⟩
                rw [hcode] at hcode'
                cases hcode'
                exact absurd hmem hpass
  · simp only [checkResult, classify, TimedOutBy]
    cases htimed : process.timedOut with
    | true => simp [htimed]
    | false =>
        simp only [Bool.false_eq_true, if_false, ProcessOutcome.result.injEq, exists_eq_left',
          htimed, iff_false]
        split
        · exact nofun
        · split_ifs <;> exact nofun
  · simp only [checkResult, classify, ErrorBy]
    cases htimed : process.timedOut with
    | true => simp [htimed]
    | false =>
        cases hcode : process.exitCode with
        | none => simp [hcode, htimed]
        | some code =>
            by_cases hpass : code ∈ check.passExitCodes
            · simp [hpass, htimed, hcode]
            · by_cases hnegative : code < 0
              · simp [hpass, htimed, hcode, hnegative]
              · simp [hpass, htimed, hcode, hnegative]

/-- The constructor takes whatever `classify` has decided from a process result. -/
lemma checkResult_make (hcheck : isStableId check.checkId = true ∧ nameOk check.name = true)
    (process : ProcessResult) :
    (checkResult check process).make = .ok (checkResult check process) := by
  have hstatus : (checkResult check process).status = classify check process := rfl
  have hprocess : (checkResult check process).processResult = some process := rfl
  have hfields : ((checkResult check process).errorType.isNone &&
      (checkResult check process).errorMessage.isNone) = true := rfl
  have hids : (!isStableId (checkResult check process).checkId ||
      !nameOk (checkResult check process).name) = false := by
    rw [show (checkResult check process).checkId = check.checkId from rfl,
      show (checkResult check process).name = check.name from rfl, hcheck.1, hcheck.2]
    rfl
  simp only [VerificationCheckResult.make, hids, hfields, hstatus, hprocess, Bool.false_eq_true,
    if_false, Bool.not_true, Bool.or_false]
  cases htimed : process.timedOut with
  | true =>
      have hclass : classify check process = .timeout := by simp [classify, htimed]
      simp [hclass, htimed]
  | false =>
      have hclass : classify check process ≠ .timeout := by
        intro htimeout
        have hjudged := (classify_judged check process).timedOut.mp htimeout
        obtain ⟨other, heq, htrue⟩ := hjudged
        cases heq
        rw [htimed] at htrue
        cases htrue
      cases hcase : classify check process with
      | timeout => exact absurd hcase hclass
      | pass | fail | error => simp [htimed]

/-- The constructor takes an error that is short enough, and no other. -/
lemma processError_make (hcheck : isStableId check.checkId = true ∧ nameOk check.name = true)
    (errorType message : String) :
    (ProcessOutcome.Recordable (.runtimeError errorType message) →
      (processError check errorType message).make =
        .ok (processError check errorType (dropNul message))) ∧
    (¬ ProcessOutcome.Recordable (.runtimeError errorType message) →
      (processError check errorType message).make = .error .input) := by
  have hids : (!isStableId check.checkId || !nameOk check.name) = false := by
    rw [hcheck.1, hcheck.2]
    rfl
  simp only [VerificationCheckResult.make, processError, hids, Bool.false_eq_true, if_false,
    ProcessOutcome.Recordable]
  constructor
  · rintro ⟨hnonempty, htype, hnul, hmessage⟩
    rw [if_neg]
    rintro (hempty | hlong | hbad | hlong)
    · exact hnonempty hempty
    · omega
    · rw [hnul] at hbad
      cases hbad
    · omega
  · intro hbad
    rw [if_pos]
    by_contra hgood
    simp only [not_or, not_lt, Bool.not_eq_true] at hgood
    exact hbad hgood

lemma emitted_run (kind : VerificationEventKind) :
    emitted verificationId kind events = .ok () (events ++ [⟨verificationId, kind⟩]) := rfl

/-- A turn that ends: the start and the terminal are emitted, with the verdict on the check. -/
lemma checkTurn_ends (hcheck : isStableId check.checkId = true ∧ nameOk check.name = true)
    (hanswers : outcome.Answers) (hrecordable : outcome.Recordable)
    (hgoing : outcome ≠ .cancelled) :
    ∃ made, checkTurn verificationId planId check outcome events =
        .ok made (events ++ turnEvents verificationId [(check, made)]) ∧
      Judged check outcome made := by
  cases outcome with
  | cancelled => exact absurd rfl hgoing
  | raised => exact hanswers.elim
  | foreign => exact hanswers.elim
  | result process =>
      refine ⟨checkResult check process, ?_, classify_judged check process⟩
      simp only [checkTurn, bind, EStateM.bind, emitted_run, checkResult_make hcheck, Lib.check]
      simp [turnEvents, checkResult, pure, EStateM.pure]
  | runtimeError errorType message =>
      refine ⟨processError check errorType (dropNul message), ?_, ⟨rfl, rfl, ?_, ?_, ?_⟩⟩
      · simp only [checkTurn, bind, EStateM.bind, emitted_run,
          (processError_make hcheck errorType message).1 hrecordable, Lib.check]
        simp [turnEvents, processError, pure, EStateM.pure]
      · simp [processError, PassedBy]
      · simp [processError, TimedOutBy]
      · simp [processError, ErrorBy]

lemma checkTurn_cancelled :
    checkTurn verificationId planId check .cancelled events = .error (.cancelled check.checkId)
      (events ++ [⟨verificationId, .checkStarted check⟩,
        ⟨verificationId, .interrupted planId "cancelled"⟩]) := by
  simp only [checkTurn, bind, EStateM.bind, emitted_run]
  exact congrArg _ (List.append_assoc _ _ _)

lemma checkTurn_rejected (hcheck : isStableId check.checkId = true ∧ nameOk check.name = true)
    (h : ¬ outcome.Recordable) :
    checkTurn verificationId planId check outcome events =
      .error .input (events ++ [⟨verificationId, .checkStarted check⟩]) := by
  cases outcome with
  | runtimeError errorType message =>
      simp only [checkTurn, bind, EStateM.bind, emitted_run,
        (processError_make hcheck errorType message).2 h, Lib.check]
  | result | cancelled | raised | foreign => exact absurd trivial h

/-- The checks that end come first: the loop goes on from where they leave it. -/
lemma checkTurns_append {front : List VerificationCheck} (back : List VerificationCheck) {i : ℕ}
    (hfront : ∀ check ∈ front, isStableId check.checkId = true ∧ nameOk check.name = true)
    (hends : ∀ k < front.length, (outcomes (i + k)).Answers ∧ (outcomes (i + k)).Recordable ∧
      outcomes (i + k) ≠ .cancelled) :
    ∃ made : List VerificationCheckResult, made.length = front.length ∧
      (∀ k check result, front[k]? = some check → made[k]? = some result →
        Judged check (outcomes (i + k)) result) ∧
      checkTurns verificationId planId outcomes i (front ++ back) events =
        ((made ++ ·) <$> checkTurns verificationId planId outcomes (i + front.length) back)
          (events ++ turnEvents verificationId (front.zip made)) := by
  induction front generalizing i events with
  | nil =>
      refine ⟨[], rfl, by simp, ?_⟩
      simp [turnEvents]
  | cons check rest ih =>
      obtain ⟨hanswers, hrecordable, hgoing⟩ := hends 0 (by simp)
      obtain ⟨made, hturn, hjudged⟩ := @checkTurn_ends verificationId planId check (outcomes i)
        events (hfront check List.mem_cons_self) hanswers hrecordable hgoing
      have hrest : ∀ k < rest.length, (outcomes (i + 1 + k)).Answers ∧
          (outcomes (i + 1 + k)).Recordable ∧ outcomes (i + 1 + k) ≠ .cancelled := by
        intro k hk
        rw [show i + 1 + k = i + (k + 1) by omega]
        exact hends (k + 1) (by simpa using hk)
      obtain ⟨more, hlength, hmore, hrun⟩ := @ih
        (events ++ turnEvents verificationId [(check, made)]) (i + 1)
        (fun other hother => hfront other (List.mem_cons_of_mem _ hother)) hrest
      refine ⟨made :: more, by simp [hlength], ?_, ?_⟩
      · intro k other result hother hresult
        cases k with
        | zero =>
            cases hother
            cases hresult
            exact hjudged
        | succ k =>
            rw [show i + (k + 1) = i + 1 + k by omega]
            exact hmore k other result hother hresult
      · have hevents : events ++ turnEvents verificationId ((check :: rest).zip (made :: more)) =
            events ++ turnEvents verificationId [(check, made)] ++
              turnEvents verificationId (rest.zip more) := by
          simp [turnEvents]
        have hindex : i + (check :: rest).length = i + 1 + rest.length := by
          rw [List.length_cons]
          omega
        rw [List.cons_append, checkTurns, hevents, hindex]
        simp only [bind, EStateM.bind, hturn, hrun, Functor.map, EStateM.map]
        cases checkTurns verificationId planId outcomes (i + 1 + rest.length) back
          (events ++ turnEvents verificationId [(check, made)] ++
            turnEvents verificationId (rest.zip more)) with
        | ok results left => rfl
        | error e left => rfl

end Turns

section Reporting

variable (plan : VerificationPlan) (verificationId : String) (outcomes : ℕ → ProcessOutcome)

def isInterrupted (event : VerificationEvent) : Bool :=
  match event.kind with
  | .interrupted _ _ => true
  | _ => false

def isCompleted (event : VerificationEvent) : Bool :=
  match event.kind with
  | .completed _ => true
  | _ => false

/-- The report of a run that was not cancelled: one result for each check in the order of the
plan, each check's events before the next one's, the completed event last, and the status the
worst verdict. -/
structure ReportsAll (report : VerificationReport) (events : List VerificationEvent) : Prop where
  results : report.results.map (fun made => (made.checkId, made.name)) =
    plan.checks.map fun check => (check.checkId, check.name)
  shape : events = ⟨verificationId, .started plan.planId plan.checks.length⟩ ::
    turnEvents verificationId (plan.checks.zip report.results) ++
      [⟨verificationId, .completed report⟩]
  passed : report.status = .pass ↔
    ∀ k check, plan.checks[k]? = some check → PassedBy check (outcomes k)
  error : report.status = .error ↔
    ∃ k check, plan.checks[k]? = some check ∧ ErrorBy check (outcomes k)
  timedOut : report.status = .timeout ↔
    (¬ ∃ k check, plan.checks[k]? = some check ∧ ErrorBy check (outcomes k)) ∧
      ∃ k check, plan.checks[k]? = some check ∧ TimedOutBy (outcomes k)
  failed : report.status = .fail ↔
    (¬ ∃ k check, plan.checks[k]? = some check ∧ ErrorBy check (outcomes k)) ∧
      (¬ ∃ k check, plan.checks[k]? = some check ∧ TimedOutBy (outcomes k)) ∧
      ¬ ∀ k check, plan.checks[k]? = some check → PassedBy check (outcomes k)

/-- The events of a run that was cancelled during its check `k`. -/
structure Interrupts (k : ℕ) (check : VerificationCheck) (events : List VerificationEvent) :
    Prop where
  shape : ∃ made : List VerificationCheckResult, made.length = k ∧
    events = ⟨verificationId, .started plan.planId plan.checks.length⟩ ::
      turnEvents verificationId ((plan.checks.take k).zip made) ++
        [⟨verificationId, .checkStarted check⟩,
          ⟨verificationId, .interrupted plan.planId "cancelled"⟩]
  interrupted : events.countP isInterrupted = 1
  completed : events.countP isCompleted = 0

/-- What a run promises: the report of all checks, or, if one of them is cancelled, the one
interruption. -/
def Conforms
    (ended : EStateM.Result VerificationRuntimeError (List VerificationEvent) VerificationReport) :
    Prop :=
  ((∀ k < plan.checks.length, outcomes k ≠ .cancelled) → ∃ report events,
    ended = .ok report events ∧ ReportsAll plan verificationId outcomes report events) ∧
  ∀ k check, plan.checks[k]? = some check → outcomes k = .cancelled →
    (∀ j < k, outcomes j ≠ .cancelled) → ∃ events,
      ended = .error (.cancelled check.checkId) events ∧
        Interrupts plan verificationId k check events

/-- Every process error that comes before a cancellation is short enough to be recorded. -/
def AllRecordable : Prop :=
  ∀ k < plan.checks.length, (∀ j < k, outcomes j ≠ .cancelled) → (outcomes k).Recordable

variable {plan verificationId outcomes}

lemma runPlan_run (hid : isStableId verificationId = true) (durationMs : ℕ) :
    runPlan verificationId plan outcomes durationMs [] =
      match checkTurns verificationId plan.planId outcomes 0 plan.checks
          [⟨verificationId, .started plan.planId plan.checks.length⟩] with
      | .error e events => .error e events
      | .ok results events =>
          match VerificationReport.make verificationId plan.planId results durationMs with
          | .error e => .error e events
          | .ok report => .ok report (events ++ [⟨verificationId, .completed report⟩]) := by
  simp only [runPlan, hid, Bool.not_true, Bool.false_eq_true, if_false, bind, EStateM.bind, pure,
    EStateM.pure, emitted_run, List.nil_append]
  cases checkTurns verificationId plan.planId outcomes 0 plan.checks
      [⟨verificationId, .started plan.planId plan.checks.length⟩] with
  | error e events => rfl
  | ok results events =>
      simp only [Lib.check]
      cases VerificationReport.make verificationId plan.planId results durationMs <;> rfl

lemma turnEvents_plain (ended : List (VerificationCheck × VerificationCheckResult)) :
    (turnEvents verificationId ended).countP isInterrupted = 0 ∧
      (turnEvents verificationId ended).countP isCompleted = 0 := by
  have hplain : ∀ event ∈ turnEvents verificationId ended,
      isInterrupted event = false ∧ isCompleted event = false := by
    intro event hevent
    obtain ⟨turn, -, hturn⟩ := List.mem_flatMap.mp hevent
    rcases List.mem_cons.mp hturn with rfl | hturn
    · exact ⟨rfl, rfl⟩
    · rw [List.mem_singleton.mp hturn]
      split <;> exact ⟨rfl, rfl⟩
  constructor
  · exact List.countP_eq_zero.mpr fun event hevent => by simp [(hplain event hevent).1]
  · exact List.countP_eq_zero.mpr fun event hevent => by simp [(hplain event hevent).2]

/-- The worst of the statuses is the status of the report. -/
lemma status_worst (report : VerificationReport) :
    (report.status = .error ↔ .error ∈ report.results.map (·.status)) ∧
    (report.status = .timeout ↔ .error ∉ report.results.map (·.status) ∧
      .timeout ∈ report.results.map (·.status)) ∧
    (report.status = .fail ↔ .error ∉ report.results.map (·.status) ∧
      .timeout ∉ report.results.map (·.status) ∧ .fail ∈ report.results.map (·.status)) ∧
    (report.status = .pass ↔ .error ∉ report.results.map (·.status) ∧
      .timeout ∉ report.results.map (·.status) ∧ .fail ∉ report.results.map (·.status)) := by
  unfold VerificationReport.status
  simp only
  split_ifs with herror htimeout hfail <;> simp_all

/-- The status of a report is the worst verdict on a check. -/
lemma reportsAll_of_judged {report : VerificationReport}
    (hlength : report.results.length = plan.checks.length)
    (hjudged : ∀ k check made, plan.checks[k]? = some check → report.results[k]? = some made →
      Judged check (outcomes k) made) :
    ReportsAll plan verificationId outcomes report
      (⟨verificationId, .started plan.planId plan.checks.length⟩ ::
        turnEvents verificationId (plan.checks.zip report.results) ++
          [⟨verificationId, .completed report⟩]) := by
  have hpair : ∀ k check, plan.checks[k]? = some check →
      ∃ made, report.results[k]? = some made ∧ Judged check (outcomes k) made := by
    intro k check hcheck
    obtain ⟨hk, -⟩ := List.getElem?_eq_some_iff.mp hcheck
    have hmade : report.results[k]? = some report.results[k] := List.getElem?_eq_getElem _
    exact ⟨_, hmade, hjudged k check _ hcheck hmade⟩
  have hback : ∀ made ∈ report.results, ∃ k check, plan.checks[k]? = some check ∧
      Judged check (outcomes k) made := by
    intro made hmem
    obtain ⟨k, hk, rfl⟩ := List.mem_iff_getElem.mp hmem
    have hcheck : plan.checks[k]? = some plan.checks[k] := List.getElem?_eq_getElem _
    exact ⟨k, _, hcheck, hjudged k _ _ hcheck (List.getElem?_eq_getElem _)⟩
  have hstatus (status : VerificationStatus) (verdict : VerificationCheck → ProcessOutcome → Prop)
      (hverdict : ∀ check outcome made, Judged check outcome made →
        (made.status = status ↔ verdict check outcome)) :
      status ∈ report.results.map (·.status) ↔
        ∃ k check, plan.checks[k]? = some check ∧ verdict check (outcomes k) := by
    rw [List.mem_map]
    constructor
    · rintro ⟨made, hmem, heq⟩
      obtain ⟨k, check, hcheck, hmade⟩ := hback made hmem
      exact ⟨k, check, hcheck, (hverdict _ _ _ hmade).mp heq⟩
    · rintro ⟨k, check, hcheck, hholds⟩
      obtain ⟨made, hmade, hjudge⟩ := hpair k check hcheck
      exact ⟨made, List.mem_of_getElem? hmade, (hverdict _ _ _ hjudge).mpr hholds⟩
  have herror := hstatus .error ErrorBy fun _ _ _ h => h.error
  have htimeout := hstatus .timeout (fun _ => TimedOutBy) fun _ _ _ h => h.timedOut
  have hall : (∀ made ∈ report.results, made.status = .pass) ↔
      ∀ k check, plan.checks[k]? = some check → PassedBy check (outcomes k) := by
    constructor
    · intro hpass k check hcheck
      obtain ⟨made, hmade, hjudge⟩ := hpair k check hcheck
      exact hjudge.passed.mp (hpass made (List.mem_of_getElem? hmade))
    · intro hpass made hmem
      obtain ⟨k, check, hcheck, hjudge⟩ := hback made hmem
      exact hjudge.passed.mpr (hpass k check hcheck)
  have hnone : (VerificationStatus.error ∉ report.results.map (·.status) ∧
      VerificationStatus.timeout ∉ report.results.map (·.status) ∧
      VerificationStatus.fail ∉ report.results.map (·.status)) ↔
      ∀ made ∈ report.results, made.status = .pass := by
    simp only [List.mem_map, not_exists, not_and]
    constructor
    · rintro ⟨herr, htime, hfail⟩ made hmem
      cases hmade : made.status with
      | pass => rfl
      | error => exact absurd hmade (herr made hmem)
      | timeout => exact absurd hmade (htime made hmem)
      | fail => exact absurd hmade (hfail made hmem)
    · intro hpass
      refine ⟨?_, ?_, ?_⟩ <;>
      · intro made hmem hmade
        rw [hpass made hmem] at hmade
        cases hmade
  obtain ⟨hisError, hisTimeout, hisFail, hisPass⟩ := status_worst report
  refine ⟨?_, rfl, ?_, ?_, ?_, ?_⟩
  · refine List.ext_getElem (by simp [hlength]) ?_
    intro k hk hk'
    rw [List.length_map] at hk hk'
    obtain ⟨made, hmade, hjudge⟩ := hpair k plan.checks[k] (List.getElem?_eq_getElem hk')
    rw [List.getElem?_eq_getElem hk, Option.some.injEq] at hmade
    rw [List.getElem_map, List.getElem_map, hmade, hjudge.checkId, hjudge.name]
  · rw [hisPass, hnone, hall]
  · rw [hisError, herror]
  · rw [hisTimeout, herror, htimeout]
  · rw [hisFail, ← hall, ← hnone, herror, htimeout]
    constructor
    · rintro ⟨herr, htime, hfail⟩
      exact ⟨herr, htime, fun hpass => hpass.2.2 hfail⟩
    · rintro ⟨herr, htime, hnot⟩
      exact ⟨herr, htime, by_contra fun hfail => hnot ⟨herr, htime, hfail⟩⟩

/-- The checks up to the first one that is cancelled or cannot be recorded, and that one. -/
lemma stops_at {k : ℕ} {check : VerificationCheck} (hplan : plan.Named)
    (hanswers : ∀ k < plan.checks.length, (outcomes k).Answers)
    (hcheck : plan.checks[k]? = some check)
    (hbefore : ∀ j < k, (outcomes j).Recordable ∧ outcomes j ≠ .cancelled)
    (events : List VerificationEvent) :
    ∃ made : List VerificationCheckResult, made.length = k ∧
      checkTurns verificationId plan.planId outcomes 0 plan.checks events =
        ((made ++ ·) <$> checkTurns verificationId plan.planId outcomes k
            (check :: plan.checks.drop (k + 1)))
          (events ++ turnEvents verificationId ((plan.checks.take k).zip made)) := by
  obtain ⟨hk, rfl⟩ := List.getElem?_eq_some_iff.mp hcheck
  have hfront : ∀ check ∈ plan.checks.take k,
      isStableId check.checkId = true ∧ nameOk check.name = true :=
    fun check hmem => hplan.checks check (List.mem_of_mem_take hmem)
  have htake : (plan.checks.take k).length = k := by
    rw [List.length_take, Nat.min_eq_left hk.le]
  have hends : ∀ j < (plan.checks.take k).length, (outcomes (0 + j)).Answers ∧
      (outcomes (0 + j)).Recordable ∧ outcomes (0 + j) ≠ .cancelled := by
    intro j hj
    rw [htake] at hj
    rw [Nat.zero_add]
    exact ⟨hanswers j (by omega), hbefore j hj⟩
  obtain ⟨made, hlength, -, hrun⟩ := @checkTurns_append verificationId plan.planId outcomes events
    (plan.checks.take k) (plan.checks[k] :: plan.checks.drop (k + 1)) 0 hfront hends
  refine ⟨made, hlength.trans htake, ?_⟩
  rw [← List.drop_eq_getElem_cons hk, List.take_append_drop, htake, Nat.zero_add] at hrun
  rw [hrun, List.drop_eq_getElem_cons hk]

/-- A run that ends all its checks reports them. -/
lemma runPlan_reports (hplan : plan.Named) (hid : isStableId verificationId = true)
    (hends : ∀ k < plan.checks.length, (outcomes k).Answers ∧ (outcomes k).Recordable ∧
      outcomes k ≠ .cancelled) (durationMs : ℕ) :
    ∃ report events, runPlan verificationId plan outcomes durationMs [] = .ok report events ∧
      ReportsAll plan verificationId outcomes report events := by
  have hends' : ∀ k < plan.checks.length, (outcomes (0 + k)).Answers ∧
      (outcomes (0 + k)).Recordable ∧ outcomes (0 + k) ≠ .cancelled := by
    intro k hk
    rw [Nat.zero_add]
    exact hends k hk
  obtain ⟨made, hlength, hjudged, hrun⟩ := @checkTurns_append verificationId plan.planId outcomes
    [⟨verificationId, .started plan.planId plan.checks.length⟩] plan.checks [] 0 hplan.checks hends'
  simp only [List.append_nil, Functor.map, EStateM.map, checkTurns, pure, EStateM.pure] at hrun
  have hnonempty : made ≠ [] := by
    intro hempty
    rw [hempty, List.length_nil] at hlength
    exact plan.nonempty (List.length_eq_zero_iff.mp hlength.symm)
  have hmake : VerificationReport.make verificationId plan.planId made durationMs =
      .ok { verificationId, planId := plan.planId, results := made, durationMs,
            nonempty := hnonempty } := by
    simp [VerificationReport.make, hid, hplan.planId, hnonempty]
  have hall := @reportsAll_of_judged plan verificationId outcomes
    ⟨verificationId, plan.planId, made, durationMs, hnonempty⟩ hlength (by
      intro k check result hcheck hresult
      have hjudge := hjudged k check result hcheck hresult
      rwa [Nat.zero_add] at hjudge)
  refine ⟨_, _, ?_, hall⟩
  rw [runPlan_run hid, hrun]
  simp only [hmake]
  rfl

/-- A run that is cancelled during a check emits one interruption, and no completion. -/
lemma runPlan_interrupted {k : ℕ} {check : VerificationCheck} (hplan : plan.Named)
    (hid : isStableId verificationId = true)
    (hanswers : ∀ k < plan.checks.length, (outcomes k).Answers)
    (hcheck : plan.checks[k]? = some check) (hcancelled : outcomes k = .cancelled)
    (hbefore : ∀ j < k, (outcomes j).Recordable ∧ outcomes j ≠ .cancelled) (durationMs : ℕ) :
    ∃ events, runPlan verificationId plan outcomes durationMs [] =
        .error (.cancelled check.checkId) events ∧
      Interrupts plan verificationId k check events := by
  obtain ⟨made, hlength, hrun⟩ := @stops_at plan verificationId outcomes k check hplan hanswers
    hcheck hbefore [⟨verificationId, .started plan.planId plan.checks.length⟩]
  have hstop := @checkTurn_cancelled verificationId plan.planId check
    ([⟨verificationId, .started plan.planId plan.checks.length⟩] ++
      turnEvents verificationId ((plan.checks.take k).zip made))
  simp only [Functor.map, EStateM.map, checkTurns, bind, EStateM.bind, hcancelled, hstop] at hrun
  refine ⟨_, by rw [runPlan_run hid, hrun], ⟨⟨made, hlength, ?_⟩, ?_, ?_⟩⟩
  · rw [List.append_assoc, List.singleton_append, List.cons_append]
  · rw [List.countP_append, List.countP_append, (turnEvents_plain _).1]
    rfl
  · rw [List.countP_append, List.countP_append, (turnEvents_plain _).2]
    rfl

/-- A run raises an input error at a process error that is too long to be recorded. -/
lemma runPlan_rejected {k : ℕ} {check : VerificationCheck} (hplan : plan.Named)
    (hid : isStableId verificationId = true)
    (hanswers : ∀ k < plan.checks.length, (outcomes k).Answers)
    (hcheck : plan.checks[k]? = some check) (hlong : ¬ (outcomes k).Recordable)
    (hbefore : ∀ j < k, (outcomes j).Recordable ∧ outcomes j ≠ .cancelled) (durationMs : ℕ) :
    ∃ events, runPlan verificationId plan outcomes durationMs [] = .error .input events := by
  obtain ⟨made, hlength, hrun⟩ := @stops_at plan verificationId outcomes k check hplan hanswers
    hcheck hbefore [⟨verificationId, .started plan.planId plan.checks.length⟩]
  have hstop := @checkTurn_rejected verificationId plan.planId check (outcomes k)
    ([⟨verificationId, .started plan.planId plan.checks.length⟩] ++
      turnEvents verificationId ((plan.checks.take k).zip made))
    (hplan.checks check (List.mem_of_getElem? hcheck)) hlong
  simp only [Functor.map, EStateM.map, checkTurns, bind, EStateM.bind, hstop] at hrun
  exact ⟨_, by rw [runPlan_run hid, hrun]⟩

/-- A run keeps its promise exactly if every process error that comes before a cancellation
is short enough for the result that is built from it. -/
theorem runPlan_conforms_iff (hplan : plan.Named) (hid : isStableId verificationId = true)
    (hanswers : ∀ k < plan.checks.length, (outcomes k).Answers) (durationMs : ℕ) :
    Conforms plan verificationId outcomes (runPlan verificationId plan outcomes durationMs []) ↔
      AllRecordable plan outcomes := by
  classical
  constructor
  · rintro ⟨hreports, hinterrupts⟩ k hk hgoing
    by_contra hlong
    -- the first error that cannot be recorded ends the run, before anything is cancelled
    have hexists : ∃ m, ¬ (outcomes m).Recordable := ⟨k, hlong⟩
    have hfirst := Nat.find_spec hexists
    have hle : Nat.find hexists ≤ k := Nat.find_min' hexists hlong
    have hbefore : ∀ j < Nat.find hexists,
        (outcomes j).Recordable ∧ outcomes j ≠ .cancelled := by
      intro j hj
      exact ⟨not_not.mp (Nat.find_min hexists hj), hgoing j (by omega)⟩
    have hcheck : plan.checks[Nat.find hexists]? = some plan.checks[Nat.find hexists] :=
      List.getElem?_eq_getElem _
    obtain ⟨events, hrun⟩ := runPlan_rejected hplan hid hanswers hcheck hfirst hbefore durationMs
    by_cases hcancelled : ∃ c, c < plan.checks.length ∧ outcomes c = .cancelled
    · obtain ⟨hc, hstop⟩ := Nat.find_spec hcancelled
      have hearlier : ∀ j < Nat.find hcancelled, outcomes j ≠ .cancelled := by
        intro j hj heq
        exact Nat.find_min hcancelled hj ⟨by omega, heq⟩
      obtain ⟨others, hother, -⟩ := hinterrupts _ _ (List.getElem?_eq_getElem hc) hstop hearlier
      rw [hrun] at hother
      cases hother
    · obtain ⟨report, others, hother, -⟩ := hreports fun c hc heq => hcancelled ⟨c, hc, heq⟩
      rw [hrun] at hother
      cases hother
  · intro hrecordable
    refine ⟨?_, ?_⟩
    · intro hgoing
      refine runPlan_reports hplan hid ?_ durationMs
      intro k hk
      exact ⟨hanswers k hk, hrecordable k hk fun j hj => hgoing j (by omega), hgoing k hk⟩
    · intro k check hcheck hcancelled hgoing
      obtain ⟨hk, -⟩ := List.getElem?_eq_some_iff.mp hcheck
      refine runPlan_interrupted hplan hid hanswers hcheck hcancelled ?_ durationMs
      intro j hj
      exact ⟨hrecordable j (by omega) fun l hl => hgoing l (by omega), hgoing j hj⟩

def pytestCheck : VerificationCheck :=
  ⟨"tests", "Unit tests", ⟨["pytest"], ".", 1000, []⟩, [0], []⟩

def pytestPlan : VerificationPlan := ⟨"plan", [pytestCheck], List.cons_ne_nil _ _⟩

lemma pytestPlan_named : pytestPlan.Named where
  planId := by decide +kernel
  checks check hcheck := by
    rw [List.mem_singleton.mp hcheck]
    decide +kernel

def spawnFailed (message : String) : ℕ → ProcessOutcome :=
  fun _ => .runtimeError "ProcessSpawnError" message

def lintCheck : VerificationCheck :=
  ⟨"lint", "Linter", ⟨["ruff", "check", "."], ".", 1000, []⟩, [0], [2]⟩

def mixedPlan : VerificationPlan := ⟨"plan", [pytestCheck, lintCheck], List.cons_ne_nil _ _⟩

lemma mixedPlan_named : mixedPlan.Named where
  planId := by decide +kernel
  checks check hcheck := by
    rcases List.mem_cons.mp hcheck with rfl | hcheck
    · decide +kernel
    · rw [List.mem_singleton.mp hcheck]
      decide +kernel

/-- The tests fail, and the linter is not installed. -/
def mixedOutcomes : ℕ → ProcessOutcome
  | 0 => .result ⟨some 1, false, 40, "1 failed", "", false, false, 8, 0⟩
  | _ => .runtimeError "ProcessSpawnError" "Executable not found: ruff"

theorem runPlan_conforms_sample :
    Conforms mixedPlan "ver_1" mixedOutcomes (runPlan "ver_1" mixedPlan mixedOutcomes 45 []) := by
  have hanswers (k : ℕ) : (mixedOutcomes k).Answers := by
    cases k <;> trivial
  refine (@runPlan_conforms_iff mixedPlan "ver_1" mixedOutcomes mixedPlan_named (by decide +kernel)
    (fun k _ => hanswers k) 45).mpr ?_
  intro k _ _
  cases k with
  | zero => trivial
  | succ k => exact ⟨by decide, by decide, by decide +kernel, by decide⟩

/-- The message of a spawn error repeats the executable, which may have 16384 characters. -/
def longMessage (name : ℕ) : String :=
  "Executable not found: " ++ String.ofList (List.replicate name 'a')

lemma lt_length_padded {front : String} (hfront : 0 < front.length) (n : ℕ) :
    n < (front ++ String.ofList (List.replicate n 'a')).length := by
  have hpad : (String.ofList (List.replicate n 'a')).length = n := by
    rw [String.length_ofList, List.length_replicate]
  rw [String.length_append, hpad]
  exact Nat.lt_add_of_pos_left hfront

lemma longMessage_long (name : ℕ) : name < (longMessage name).length :=
  lt_length_padded (by decide +kernel) name

theorem long_message_escapes :
    ¬ Conforms pytestPlan "ver_1" (spawnFailed (longMessage maxErrorMessage))
      (runPlan "ver_1" pytestPlan (spawnFailed (longMessage maxErrorMessage)) 5 []) := by
  have hlong : ¬ (spawnFailed (longMessage maxErrorMessage) 0).Recordable := by
    rintro ⟨-, -, -, hlength⟩
    have := longMessage_long maxErrorMessage
    omega
  obtain ⟨events, hrun⟩ := @runPlan_rejected pytestPlan "ver_1"
    (spawnFailed (longMessage maxErrorMessage)) 0 pytestCheck pytestPlan_named (by decide +kernel)
    (fun _ _ => trivial) rfl hlong nofun 5
  rintro ⟨hreports, -⟩
  obtain ⟨report, others, hother, -⟩ := hreports (fun _ _ => nofun)
  rw [hrun] at hother
  cases hother

end Reporting

/-! ## Over the canonical sink -/

section Recording

variable {verificationId planId : String} {check : VerificationCheck} {outcome : ProcessOutcome}
  {outcomes : ℕ → ProcessOutcome} {events : List VerificationEvent}
  {sink : CanonicalVerificationEventSink}

/-- What a part of the run comes back with over the canonical sink: its answer over a sink that
takes every event, or a recording error. -/
def AsRecorded {α β : Type} (answer : Except VerificationRuntimeError β) (of : α → β) :
    Except RunRuntimeError (Except VerificationRuntimeError α) → Prop
  | .ok (.ok value) => answer = .ok (of value)
  | .ok (.error e) => answer = .error e ∨ ∃ cause, e = .recording cause
  | .error _ => False

/-- Whatever the store does between the accesses of a part of the run. -/
def Answers {α β : Type} (answer : Except VerificationRuntimeError β) (of : α → β)
    (part : RunProg (Except VerificationRuntimeError α)) (store : RunStore) : Prop :=
  part.Safe (fun _ _ => True) (fun _ _ _ => True) (fun came _ => AsRecorded answer of came) store

lemma answers_ok {α β : Type} {answer : Except VerificationRuntimeError β} {of : α → β} {value : α}
    (h : answer = .ok (of value)) (store : RunStore) :
    Answers answer of (return .ok value) store :=
  fun _ _ => h

lemma answers_error {α β : Type} {answer : Except VerificationRuntimeError β} {of : α → β}
    {e : VerificationRuntimeError} (h : answer = .error e) (store : RunStore) :
    Answers answer of (return .error e) store :=
  fun _ _ => .inl h

/-- The sink comes back from every event, whether it takes it or not. -/
lemma sink_returns (sink : CanonicalVerificationEventSink)
    (input : VerificationEvent × ℕ × (ℕ → Fresh)) (store : RunStore) :
    (sink.emit input).Safe (fun _ _ => True) (fun _ _ _ => True)
      (fun came _ => ∃ ended, came = .ok ended) store := by
  have hany {α : Type} (part : RunProg α) (s : RunStore) :
      part.Safe (fun _ _ => True) (fun _ _ _ => True) (fun _ _ => True) s :=
    Prog.Safe.of_guar (fun _ _ _ => trivial) part s
  have hdone (ended : Ended CanonicalVerificationEventSink) (s : RunStore) :
      Prog.Safe (fun _ _ => True) (fun _ _ _ => True) (fun came _ => ∃ ended, came = .ok ended)
        (return ended : RunProg (Ended CanonicalVerificationEventSink)) s :=
    fun _ _ => ⟨ended, rfl⟩
  obtain ⟨event, pages, fresh⟩ := input
  unfold CanonicalVerificationEventSink.emit
  dsimp only
  split_ifs
  · exact hdone _ _
  · refine Prog.Safe.attempt_bind (fun _ => trivial) (hany _ _) fun came s _ => ?_
    cases came with
    | error e => exact hdone _ _
    | ok =>
        cases CanonicalVerificationEventSink.specs event with
        | error e => exact hdone _ _
        | ok spec =>
            refine Prog.Safe.attempt_bind (fun _ => trivial) (hany _ _) fun came s _ => ?_
            cases came with
            | error e => exact hdone _ _
            | ok seq => exact hdone _ _

lemma emit_answers (event : VerificationEvent) (pages : ℕ) (fresh : ℕ → Fresh) (store : RunStore) :
    Answers (.ok ()) (fun _ => ()) (VerificationRunner.emit sink event pages fresh) store := by
  refine (sink_returns sink (event, pages, fresh) store).bind (fun _ => trivial) ?_ ?_
  · rintro ended s -
    cases ended.outcome with
    | ok => exact fun _ _ => rfl
    | error e => exact fun _ _ => .inr ⟨e, rfl⟩
  · rintro e s ⟨ended, hended⟩
    cases hended

/-- What comes back from a part of the run is handed on. -/
lemma answers_bind {α β γ δ : Type} {answer : Except VerificationRuntimeError β} {of : α → β}
    {whole : Except VerificationRuntimeError δ} {onto : γ → δ}
    {part : RunProg (Except VerificationRuntimeError α)}
    {next : Except VerificationRuntimeError α → RunProg (Except VerificationRuntimeError γ)}
    {store : RunStore} (hpart : Answers answer of part store)
    (hraise : ∀ e, next (.error e) = return .error e)
    (hok : ∀ value s, answer = .ok (of value) → Answers whole onto (next (.ok value)) s)
    (herror : ∀ e, answer = .error e → whole = .error e) :
    Answers whole onto (part >>= next) store := by
  refine Prog.Safe.bind (fun _ => trivial) hpart ?_ ?_
  · intro came s hcame
    cases came with
    | ok value => exact hok value s hcame
    | error e =>
        rw [hraise]
        exact fun _ _ => hcame.imp_left (herror e)
  · intro e s hcame
    exact hcame.elim

/-- The run goes on from an event that the sink takes. -/
lemma answers_emit {γ δ : Type} {whole : Except VerificationRuntimeError δ} {onto : γ → δ}
    {event : VerificationEvent} {pages : ℕ} {fresh : ℕ → Fresh}
    {next : Except VerificationRuntimeError CanonicalVerificationEventSink →
      RunProg (Except VerificationRuntimeError γ)}
    (hraise : ∀ e, next (.error e) = return .error e)
    (hok : ∀ sink s, Answers whole onto (next (.ok sink)) s) (store : RunStore) :
    Answers whole onto (VerificationRunner.emit sink event pages fresh >>= next) store :=
  answers_bind (emit_answers event pages fresh store) hraise (fun sink s _ => hok sink s)
    fun e herror => by cases herror

lemma infrastructureResult_eq
    (hcheck : isStableId check.checkId = true ∧ nameOk check.name = true)
    (errorType message : String) :
    infrastructureResult check errorType message = (processError check errorType message).make := by
  have hids : (!isStableId check.checkId || !nameOk check.name) = false := by
    rw [hcheck.1, hcheck.2]
    rfl
  simp only [VerificationCheckResult.make, processError, hids, Bool.false_eq_true, if_false]
  rfl

lemma runCheck_answers (hcheck : isStableId check.checkId = true ∧ nameOk check.name = true)
    (events : List VerificationEvent) {pages : ℕ} {fresh : ℕ → ℕ → Fresh} (store : RunStore) :
    Answers (result (checkTurn verificationId planId check outcome) events) Prod.snd
      (VerificationRunner.runCheck sink verificationId planId check outcome pages fresh) store := by
  unfold VerificationRunner.runCheck
  refine answers_emit ?_ (fun sink store => ?_) store
  · exact fun _ => rfl
  cases outcome with
  | cancelled =>
      refine answers_emit ?_ (fun sink store => answers_error ?_ store) store
      · exact fun _ => rfl
      · rw [result, checkTurn_cancelled]
  | raised => exact answers_error rfl store
  | foreign => exact answers_error rfl store
  | runtimeError errorType message =>
      have hturn : result (checkTurn verificationId planId check (.runtimeError errorType message))
          events = infrastructureResult check errorType message := by
        rw [infrastructureResult_eq hcheck]
        simp only [result, checkTurn, bind, EStateM.bind, emitted_run]
        cases (processError check errorType message).make <;> rfl
      rw [hturn]
      dsimp only
      cases infrastructureResult check errorType message with
      | error e => exact answers_error rfl store
      | ok made =>
          refine answers_emit ?_ (fun sink store => ?_) store
          · exact fun _ => rfl
          · exact @answers_ok _ _ _ Prod.snd (sink, made) rfl store
  | result process =>
      have hturn : result (checkTurn verificationId planId check (.result process)) events =
          .ok (checkResult check process) := by
        simp only [result, checkTurn, bind, EStateM.bind, emitted_run, checkResult_make hcheck,
          Lib.check]
        rfl
      dsimp only
      refine answers_emit ?_ (fun sink store => ?_) store
      · exact fun _ => rfl
      · exact @answers_ok _ _ _ Prod.snd (sink, checkResult check process) hturn store

lemma map_nil_append {ε α : Type} {answer : Except ε (List α)} {came : Except ε (List α)}
    (h : ([] ++ ·) <$> answer = came) : answer = came := by
  rw [← h]
  cases answer <;> rfl

lemma runChecks_answers {checks : List VerificationCheck}
    (hchecks : ∀ check ∈ checks, isStableId check.checkId = true ∧ nameOk check.name = true) (i : ℕ)
    (events : List VerificationEvent) {pages : ℕ} {fresh : ℕ → ℕ → ℕ → Fresh}
    (results : List VerificationCheckResult) (store : RunStore) :
    Answers ((results ++ ·) <$> result (checkTurns verificationId planId outcomes i checks) events)
      Prod.snd (VerificationRunner.runChecks verificationId planId outcomes pages fresh sink
        (checks.zipIdx i) results) store := by
  induction checks generalizing i sink results events store with
  | nil => exact answers_ok (congrArg Except.ok (List.append_nil results)) store
  | cons check rest ih =>
      have hrest := fun found hfound => hchecks found (List.mem_cons_of_mem check hfound)
      rw [List.zipIdx_cons, VerificationRunner.runChecks]
      refine answers_bind (runCheck_answers (hchecks check List.mem_cons_self) events store)
        ?_ ?_ ?_
      · exact fun _ => rfl
      · rintro ⟨sink, made⟩ s hmade
        have hturns : (results ++ ·) <$>
            result (checkTurns verificationId planId outcomes i (check :: rest)) events =
              ((results ++ [made]) ++ ·) <$>
                result (checkTurns verificationId planId outcomes (i + 1) rest)
                  (after (checkTurn verificationId planId check (outcomes i)) events) := by
          simp only [result, checkTurns, bind, EStateM.bind, result_eq_ok.mp hmade]
          cases checkTurns verificationId planId outcomes (i + 1) rest
            (after (checkTurn verificationId planId check (outcomes i)) events) with
          | error e events => rfl
          | ok others events => exact congrArg Except.ok (List.append_cons results made others)
        rw [hturns]
        exact ih hrest (i + 1) _ (results ++ [made]) s
      · intro e herror
        simp only [result, checkTurns, bind, EStateM.bind, result_eq_error.mp herror]
        rfl

/-- Over the canonical sink and whatever the store does, a run answers as over a sink that takes
every event, unless the recording of an event fails. -/
theorem run_answers {plan : VerificationPlan} (hplan : plan.Named)
    (sink : CanonicalVerificationEventSink) (verificationId : String)
    (outcomes : ℕ → ProcessOutcome) (durationMs pages : ℕ) (fresh : ℕ → ℕ → ℕ → Fresh)
    (store : RunStore) :
    Answers (result (runPlan verificationId plan outcomes durationMs) []) id
      (VerificationRunner.run sink plan verificationId outcomes durationMs pages fresh) store := by
  unfold VerificationRunner.run
  cases hid : isStableId verificationId with
  | false =>
      refine answers_error ?_ store
      simp only [result, runPlan, hid]
      rfl
  | true =>
      have hreport (results : List VerificationCheckResult) :
          VerificationReport.make verificationId plan.planId results durationMs =
            if h : results = [] then .error .input
            else .ok
              { verificationId, planId := plan.planId, results, durationMs, nonempty := h } := by
        rw [VerificationReport.make, hid, hplan.planId]
        rfl
      rw [result, runPlan_run hid]
      refine answers_emit ?_ (fun sink store => ?_) store
      · exact fun _ => rfl
      refine answers_bind (runChecks_answers hplan.checks 0
        [⟨verificationId, .started plan.planId plan.checks.length⟩] [] store) ?_ ?_ ?_
      · exact fun _ => rfl
      · rintro ⟨sink, results⟩ s hresults
        have hturns := result_eq_ok.mp (map_nil_append hresults)
        rw [hturns]
        dsimp only
        rw [hreport]
        split_ifs with hnone
        · exact answers_error rfl s
        · refine answers_emit ?_ (fun sink s => ?_) s
          · exact fun _ => rfl
          · exact @answers_ok _ _ _ id _ rfl s
      · intro e herror
        rw [result_eq_error.mp (map_nil_append herror)]

end Recording

end Imece.VerificationRuntime
