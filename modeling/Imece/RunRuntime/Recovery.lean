import Imece.RunRuntime.Sinks

/-!
# Startup recovery

Settles runs that a stopped process left `RUNNING`: every unfinished tool, plan,
check, verification, review, fix attempt and fix loop is interrupted, and then
the run, in one batch at the number the scan saw. A run that moved on since the
scan is skipped.
-/
namespace Imece.RunRuntime

open Lib

def asNumber : PyValue → Option ℚ
  | .bool b => some (if b then 1 else 0)
  | .int n => some n
  | .float (.finite x) => some x
  | _ => none

mutual

/-- Python's `==` on JSON values: numbers compare across their types. -/
def pyEq : PyValue → PyValue → Bool
  | .str s, .str t => s == t
  | .none, .none => true
  | .list xs, .list ys => pyEqItems xs ys
  | .dict xs, .dict ys => xs.length == ys.length && pyEqEntries xs ys
  | .float (.inf x), .float (.inf y) => x == y
  | x, y =>
      match asNumber x, asNumber y with
      | some a, some b => a == b
      | _, _ => false

def pyEqItems : List PyValue → List PyValue → Bool
  | [], [] => true
  | x :: xs, y :: ys => pyEq x y && pyEqItems xs ys
  | _, _ => false

/-- Every entry on the left has its equal under the same key on the right. -/
def pyEqEntries : List (PyValue × PyValue) → List (PyValue × PyValue) → Bool
  | [], _ => true
  | (.str key, x) :: xs, ys =>
      ys.any (fun entry => entry.1.eqStr key && pyEq x entry.2) && pyEqEntries xs ys
  | (_, _) :: _, _ => false

end

namespace RunStore

/-- `active_runs`: the rows in an active status, latest first. -/
def activeRuns : Call (List RunRecord) := fun store =>
  .ok ((store.runs.filter fun run => !run.status.isTerminal).mergeSort
    (fun a b => b.createdAt ≤ a.createdAt)) store

lemma activeRuns_after (store : RunStore) : after activeRuns store = store := rfl

end RunStore

namespace Recovery

def recoverySource : String := "recovery"
def recoveryInterruptReason : String := "process_restart"

structure RecoveryReport where
  interruptedRunIds : List String
  skippedChangedRunIds : List String

/-- The whole history in pages of 200. Each page moves the cursor on; `pages`
bounds their number. -/
def readHistory (runId : String) : ℕ → ℕ → List RunEvent → RunProg (List RunEvent)
  | 0, _, _ => Prog.throw (.runStore "sayfa sınırı aşıldı")
  | pages + 1, afterSeq, history => do
      let page ← Prog.call .read (RunStore.events runId afterSeq 200)
      let history := history ++ page.events
      if !page.hasMore then return history
      else readHistory runId pages ((page.events.getLast?.map (·.seq)).getD afterSeq) history

def isOneOf (event : RunEvent) (types : List RunEventType) : Bool := types.any event.isType

def interruptedSpec (type : RunEventType) (fields : List (String × PyValue))
    (correlationId : Option String) : EventArgs where
  type := type.value
  payload := payloadOf fields
  correlationId
  source := recoverySource

/-- `a or b` on optional identifiers. -/
def orId (id : Option String) (fallback : String) : String := orFresh id fallback

def nonemptyId (id : Option String) : Bool := (id.getD "") ≠ ""

/-- `started_items`: under each item its latest start, in order of first starts. -/
def startedItems (history : List RunEvent) : List (String × RunEvent) :=
  history.foldl (fun items event =>
    if event.isType .toolStarted && nonemptyId event.itemId then
      let id := event.itemId.getD ""
      if items.any (·.1 = id) then
        items.map fun item => if item.1 = id then (id, event) else item
      else items ++ [(id, event)]
    else items) []

def terminalItems (history : List RunEvent) : List String :=
  (history.filter fun event =>
    isOneOf event [.toolCompleted, .toolFailed, .toolInterrupted] &&
      nonemptyId event.itemId).map fun event => event.itemId.getD ""

def toolSpecs (history : List RunEvent) : List EventArgs :=
  ((startedItems history).filter fun item => item.1 ∉ terminalItems history).map fun item =>
    let started := item.2
    { interruptedSpec .toolInterrupted [
        ("reason", .str recoveryInterruptReason),
        ("outcome_unknown", .bool true),
        ("call_id", started.payload.get "call_id"),
        ("tool_name", started.payload.get "tool_name")] started.correlationId with
      executionId := started.executionId
      turnId := started.turnId
      itemId := started.itemId }

/-- The string under a key of the payload. -/
def textAt (event : RunEvent) (key : String) : Option String :=
  match event.payload.get key with
  | .str text => some text
  | _ => none

/-- One attempt under an identifier: its start, and where the next start of the
same identifier takes over. -/
structure Attempt where
  started : RunEvent
  id : String
  nextStartSeq : Option ℕ

/-- The starts of a type that carry an identifier, each with its window. -/
def attempts (history : List RunEvent) (type : RunEventType) (key : String) : List Attempt :=
  go ((history.filter (·.isType type)).filterMap fun event =>
    (textAt event key).map fun id => (event, id))
where
  go : List (RunEvent × String) → List Attempt
    | [] => []
    | (started, id) :: later =>
        ⟨started, id, (later.find? (·.2 = id)).map (·.1.seq)⟩ :: go later

/-- The event lies in the attempt's window after `after` and names it. -/
def Attempt.holds (attempt : Attempt) (key : String) (after : ℕ) (event : RunEvent) : Bool :=
  decide (after < event.seq) && attempt.nextStartSeq.all (fun next => decide (event.seq < next)) &&
    (event.payload.get key).eqStr attempt.id

/-- A terminal of the attempt lies in its window. -/
def Attempt.settled (attempt : Attempt) (history : List RunEvent) (key : String)
    (terminals : List RunEventType) : Bool :=
  history.any fun event => isOneOf event terminals && attempt.holds key attempt.started.seq event

/-- The interruption of one unsettled attempt. -/
def attemptSpec (history : List RunEvent) (key : String) (terminals : List RunEventType)
    (interrupted : RunEventType) (attempt : Attempt) : List EventArgs :=
  if attempt.settled history key terminals then []
  else [interruptedSpec interrupted
    [(key, .str attempt.id), ("reason", .str recoveryInterruptReason)]
    (some (orId attempt.started.correlationId attempt.id))]

def planSpecs (history : List RunEvent) : List EventArgs :=
  (attempts history .planStarted "plan_id").flatMap
    (attemptSpec history "plan_id" [.planCompleted, .planFailed, .planInterrupted]
      .planInterrupted)

def checkSpecs (history : List RunEvent) (attempt : Attempt) : List EventArgs :=
  let starts := history.filter fun event =>
    event.isType .verificationCheckStarted && nonemptyId event.itemId &&
      attempt.holds "verification_id" attempt.started.seq event
  let open_ := starts.filter fun start => !history.any fun event =>
    event.itemId == start.itemId &&
      isOneOf event [.verificationCheckCompleted, .verificationCheckFailed,
        .verificationCheckInterrupted] &&
      attempt.holds "verification_id" start.seq event
  open_.map fun start =>
    { interruptedSpec .verificationCheckInterrupted [
        ("verification_id", .str attempt.id),
        ("check_id", start.payload.get "check_id"),
        ("reason", .str recoveryInterruptReason),
        ("outcome_unknown", .bool true)] start.correlationId with
      turnId := start.turnId
      itemId := start.itemId }

def verificationSpecs (history : List RunEvent) : List EventArgs :=
  (attempts history .verificationStarted "verification_id").flatMap fun attempt =>
    checkSpecs history attempt ++
      attemptSpec history "verification_id" [.verificationCompleted, .verificationInterrupted]
        .verificationInterrupted attempt

def reviewSpecs (history : List RunEvent) : List EventArgs :=
  (attempts history .reviewStarted "review_id").flatMap
    (attemptSpec history "review_id" [.reviewCompleted, .reviewFailed, .reviewInterrupted]
      .reviewInterrupted)

def fixAttemptSpecs (history : List RunEvent) (attempt : Attempt) : List EventArgs :=
  let starts := history.filter fun event =>
    event.isType .fixAttemptStarted && attempt.holds "fix_loop_id" attempt.started.seq event
  let open_ := starts.filter fun start => !history.any fun event =>
    pyEq (event.payload.get "fix_attempt_id") (start.payload.get "fix_attempt_id") &&
      isOneOf event [.fixAttemptCompleted, .fixAttemptInterrupted] &&
      attempt.holds "fix_loop_id" start.seq event
  open_.map fun start => interruptedSpec .fixAttemptInterrupted [
    ("fix_loop_id", .str attempt.id),
    ("fix_attempt_id", start.payload.get "fix_attempt_id"),
    ("attempt_index", start.payload.get "attempt_index"),
    ("worker_execution_id", start.payload.get "worker_execution_id"),
    ("reason", .str recoveryInterruptReason),
    ("outcome_unknown", .bool true)] (some attempt.id)

/-- Unlike the other interruptions, a fix loop's correlates to the loop itself. -/
def fixLoopSpec (history : List RunEvent) (attempt : Attempt) : List EventArgs :=
  if attempt.settled history "fix_loop_id"
      [.fixLoopCompleted, .fixLoopExhausted, .fixLoopFailed, .fixLoopInterrupted] then []
  else [interruptedSpec .fixLoopInterrupted
    [("fix_loop_id", .str attempt.id), ("reason", .str recoveryInterruptReason)]
    (some attempt.id)]

def fixLoopSpecs (history : List RunEvent) : List EventArgs :=
  (attempts history .fixLoopStarted "fix_loop_id").flatMap fun attempt =>
    fixAttemptSpecs history attempt ++ fixLoopSpec history attempt

/-- Everything a crash left open, in the order of the source. -/
def openSpecs (history : List RunEvent) : List EventArgs :=
  toolSpecs history ++ planSpecs history ++ verificationSpecs history ++ reviewSpecs history ++
    fixLoopSpecs history

def runInterrupted : EventArgs :=
  interruptedSpec .runInterrupted [("reason", .str recoveryInterruptReason)] none

/-- The write for one candidate: a single event when nothing was left open. -/
def interrupt (candidate : RunRecord) (history : List RunEvent) (fresh : ℕ → Fresh) :
    RunProg Unit := do
  if (openSpecs history).isEmpty then
    let _ ← record candidate.runId runInterrupted (some candidate.lastEventSeq) (fresh 0)
    return ()
  else
    let _ ← commitSpecs candidate.runId (openSpecs history ++ [runInterrupted])
      candidate.lastEventSeq fresh
    return ()

/-- One candidate of the scan; a changed run is read again and skipped. -/
def recoverRun (candidate : RunRecord) (pages : ℕ) (fresh : ℕ → Fresh) : RunProg Bool := do
  let attempted ← (do
    let history ← readHistory candidate.runId pages 0 []
    interrupt candidate history fresh : RunProg Unit).attempt
  match attempted with
  | .ok () => return true
  | .error (.eventSequence _ _) => do
      let _ ← getRun candidate.runId
      return false
  | .error e => Prog.throw e

def recoverRuns (pages : ℕ) (fresh : ℕ → ℕ → Fresh) :
    List (RunRecord × ℕ) → RecoveryReport → RunProg RecoveryReport
  | [], report => return report
  | (candidate, i) :: rest, report => do
      let interrupted ← recoverRun candidate pages (fresh i)
      recoverRuns pages fresh rest (if interrupted
        then { report with interruptedRunIds := report.interruptedRunIds ++ [candidate.runId] }
        else { report with
          skippedChangedRunIds := report.skippedChangedRunIds ++ [candidate.runId] })

/-- `recover_running_runs`: only `RUNNING` rows of the scan are candidates. -/
def recoverRunningRuns (pages : ℕ) (fresh : ℕ → ℕ → Fresh) : RunProg RecoveryReport := do
  let active ← Prog.call .read RunStore.activeRuns
  recoverRuns pages fresh (active.filter (·.status = .running)).zipIdx ⟨[], []⟩

end Recovery

end Imece.RunRuntime
