import Imece.RunRuntime.Completion
import Imece.RunRuntime.Legacy

/-!
# Receipts and history items

The read models of one run, derived anew from its task, its row and its events. They read
payloads as they are, so a payload of the wrong shape raises what Python raises.
-/
namespace Imece.RunRuntime

open Lib

/-- The number a value counts as in a comparison; a bool is an int. -/
def PyValue.number? : PyValue → Option PyFloat
  | .bool b => some (.finite (if b then 1 else 0))
  | .int n => some (.finite n)
  | .float x => some x
  | _ => Option.none

/-- Whether two values are one key of a dictionary. Lists and dictionaries are no keys. -/
def PyValue.sameKey : PyValue → PyValue → Bool
  | .none, .none => true
  | .str s, .str t => s == t
  | a, b =>
      match a.number?, b.number? with
      | some x, some y => x == y && x != .nan
      | _, _ => false

inductive ReadModelError where
  | typeError (what : String)
  | attributeError (what : String)
deriving DecidableEq, Repr

/-- `list(value)` in a read model. -/
def readList (value : PyValue) : Except ReadModelError (List PyValue) :=
  (pyList value).mapError fun _ => .typeError "object is not iterable"

/-- `value.get(key, default)`. -/
def pyGet (value : PyValue) (key : String) (default : PyValue) :
    Except ReadModelError PyValue :=
  match value with
  | .dict entries => .ok (JsonDict.get.go key default entries)
  | _ => .error (.attributeError "object has no attribute 'get'")

/-- `bool(value.get(key))`. -/
def pyFlag (value : PyValue) (key : String) : Except ReadModelError Bool :=
  (pyGet value key .none).map (·.truthy)

structure RunReadSnapshot where
  task : TaskRecord
  run : RunRecord
  events : List RunEvent

/-- `dt.timestamp()`. -/
def toEpochSeconds (instant : Instant) : PyFloat := .round ((instant : ℚ) / 1000000)

def canonicalStatusString (run : RunRecord) : String :=
  match run.status with
  | .created => "created"
  | .running => "running"
  | .waitingUser => "proposed"
  | .succeeded =>
      match run.phase with
      | .applied => "applied"
      | .rejected => "rejected"
      | _ => "completed"
  | .failed => "failed"
  | .cancelled => "cancelled"
  | .interrupted => "interrupted"

/-- What a receipt shows of one proposal. -/
structure ProposalView where
  path : PyValue
  isNew : Bool
  diff : PyValue

def latestOf (events : List RunEvent) (type : RunEventType) : Option RunEvent :=
  latest (·.isType type) events

/-- One round of the loop of `_draft_change_summary`: the table by path, in the order in
which the paths were first seen. -/
def addDraft (table : List (PyValue × ProposalView)) (event : RunEvent) :
    Except ReadModelError (List (PyValue × ProposalView)) :=
  let path := event.payload.get "path" (.str "")
  let view : ProposalView := {
    path
    isNew := (event.payload.get "is_new").truthy
    diff := event.payload.get "diff" (.str "") }
  match path with
  | .list _ | .dict _ => .error (.typeError "unhashable type")
  | _ =>
      if table.any (·.1.sameKey path) then
        .ok (table.map fun entry => if entry.1.sameKey path then (entry.1, view) else entry)
      else .ok (table ++ [(path, view)])

def draftChangeSummary (events : List RunEvent) : Except ReadModelError (List ProposalView) :=
  (((events.filter (·.isType .changeProposed)).foldlM addDraft []).map fun table =>
    table.map (·.2))

structure VerificationReceipt where
  status : String
  detail : String
deriving DecidableEq, Repr

/-- `count(key)`: only a non-negative int that is no bool counts. -/
def countOf (counts : PyValue) (key : String) : ℕ :=
  match counts with
  | .dict entries =>
      match JsonDict.get.go key (.int 0) entries with
      | .int n => n.toNat
      | _ => 0
  | _ => 0

def countPart (n : ℕ) (word : String) : List String :=
  if n = 0 then [] else [toString n ++ " " ++ word]

/-- The receipt of a completed verification. -/
def completedVerification (terminal : RunEvent) : VerificationReceipt :=
  match terminal.payload.get "status" (.str "error") with
  | .str status =>
      if status ∈ ["pass", "fail", "timeout", "error"] then
        let count := countOf (terminal.payload.get "counts" (.dict []))
        if status = "pass" then
          { status
            detail := toString (count "pass") ++ "/" ++ toString (count "total") ++
              " checks passed." }
        else
          let parts := countPart (count "pass") "passed" ++ countPart (count "fail") "failed" ++
            countPart (count "timeout") "timed out" ++ countPart (count "error") "errors"
          { status
            detail := if parts.isEmpty then "Verification completed."
              else ", ".intercalate parts ++ "." }
      else { status := "error", detail := "Verification completed with an invalid status." }
  | _ => { status := "error", detail := "Verification completed with an invalid status." }

/-- The latest event of an attempt that has a terminal type: numbered from its start on,
with the attempt's identifier in the payload. -/
def terminalOf (key id : String) (start : RunEvent) (isTerminal : RunEvent → Bool)
    (events : List RunEvent) : Option RunEvent :=
  latest (fun event => decide (start.seq ≤ event.seq) &&
    (RunCompletionGate.names key id event && isTerminal event)) events

def verificationReceipt (events : List RunEvent) : VerificationReceipt :=
  match latestOf events .verificationStarted with
  | none =>
      { status := "not_run", detail := "Bu koşuda doğrulama komutu çalıştırılmadı." }
  | some start =>
      match start.payload.get "verification_id" with
      | .str verificationId =>
          match terminalOf "verification_id" verificationId start
              RunCompletionGate.isVerificationTerminal events with
          | none => { status := "running", detail := "Verification is running." }
          | some terminal =>
              if terminal.isType .verificationInterrupted then
                { status := "interrupted", detail := "Verification was interrupted." }
              else completedVerification terminal
      | _ => { status := "running", detail := "Verification is running." }

structure ReviewReceipt where
  verdict : PyValue
  note : PyValue

def unknownReview (note : String) : ReviewReceipt := ⟨.str "UNKNOWN", .str note⟩

def reviewReceipt (events : List RunEvent) : ReviewReceipt :=
  match latestOf events .reviewStarted with
  | none =>
      match latestOf events .reviewCompleted with
      | none => unknownReview ""
      | some legacy =>
          ⟨legacy.payload.get "verdict" (.str "UNKNOWN"), legacy.payload.get "note" (.str "")⟩
  | some start =>
      match start.payload.get "review_id" with
      | .str reviewId =>
          match terminalOf "review_id" reviewId start RunCompletionGate.isReviewTerminal
              events with
          | none => unknownReview "Review is running."
          | some terminal =>
              if terminal.isType .reviewFailed then unknownReview "Review failed."
              else if terminal.isType .reviewInterrupted then
                unknownReview "Review was interrupted."
              else
                ⟨terminal.payload.get "verdict" (.str "UNKNOWN"),
                  terminal.payload.get "note" (terminal.payload.get "summary" (.str ""))⟩
      | _ => unknownReview "Review is running."

structure PlanView where
  summary : PyValue
  files : List PyValue

structure Receipt where
  id : String
  createdAt : PyFloat
  finishedAt : PyFloat
  status : String
  task : String
  routing : JsonDict
  plan : Option PlanView
  proposals : List ProposalView
  review : ReviewReceipt
  latencyS : PyFloat
  tokens : ℕ
  costUsd : PyFloat
  applied : List PyValue
  rejected : List PyValue
  checkpointId : PyValue
  verification : VerificationReceipt
  error : Option String

/-- `list(event.payload.get(key, []))` of the latest event of a type, if there is one. -/
def listOf (event : Option RunEvent) (key : String) : Except ReadModelError (List PyValue) :=
  match event with
  | none => .ok []
  | some event => readList (event.payload.get key (.list []))

def planView (events : List RunEvent) : Except ReadModelError (Option PlanView) :=
  match latestOf events .planCompleted with
  | none => .ok none
  | some event =>
      (listOf (some event) "files").map fun files =>
        some ⟨event.payload.get "summary" (.str ""), files⟩

def proposalView (proposal : PyValue) : Except ReadModelError ProposalView := do
  let path ← pyGet proposal "path" (.str "")
  let isNew ← pyFlag proposal "is_new"
  let diff ← pyGet proposal "diff" (.str "")
  return { path, isNew, diff }

/-- Once a proposal is ready it replaces the draft. -/
def proposalViews (events : List RunEvent) : Except ReadModelError (List ProposalView) :=
  match latestOf events .proposalReady with
  | none => draftChangeSummary events
  | some event => do
      let proposals ← listOf (some event) "proposals"
      proposals.mapM proposalView

/-- The row's finish time, else the time of the last event, of the start, of creation. -/
def finishedAt (snapshot : RunReadSnapshot) : Instant :=
  ((snapshot.run.finishedAt.or (snapshot.events.getLast?.map (·.createdAt))).or
    snapshot.run.startedAt).getD snapshot.run.createdAt

def buildReceipt (snapshot : RunReadSnapshot) : Except ReadModelError Receipt := do
  let run := snapshot.run
  let events := snapshot.events
  let plan ← planView events
  let proposals ← proposalViews events
  let applied := latestOf events .proposalApplied
  let appliedPaths ← listOf applied "applied"
  let rejectedPaths ← listOf (latestOf events .proposalRejected) "rejected"
  return {
    id := run.runId
    createdAt := toEpochSeconds run.createdAt
    finishedAt := toEpochSeconds (finishedAt snapshot)
    status := canonicalStatusString run
    task := snapshot.task.prompt
    routing := run.routing
    plan, proposals
    review := reviewReceipt events
    latencyS := run.latencyS
    tokens := run.totalTokens
    costUsd := run.costUsd
    applied := appliedPaths
    rejected := rejectedPaths
    checkpointId := (applied.map fun event => event.payload.get "checkpoint_id").getD .none
    verification := verificationReceipt events
    error := run.errorMessage.filter (· != "") }

structure HistoryItem where
  ts : PyFloat
  task : String
  verdict : PyValue
  tokens : ℕ
  costUsd : PyFloat
  files : List PyValue
  receiptId : String
  status : String

def historyFiles (events : List RunEvent) : Except ReadModelError (List PyValue) :=
  match latestOf events .proposalReady with
  | some event => do
      let proposals ← listOf (some event) "proposals"
      proposals.mapM fun proposal => pyGet proposal "path" (.str "")
  | none => listOf (latestOf events .planCompleted) "files"

def buildHistoryItem (snapshot : RunReadSnapshot) : Except ReadModelError HistoryItem := do
  let run := snapshot.run
  let files ← historyFiles snapshot.events
  return {
    ts := toEpochSeconds run.createdAt
    task := snapshot.task.prompt
    verdict := (reviewReceipt snapshot.events).verdict
    tokens := run.totalTokens
    costUsd := run.costUsd
    files
    receiptId := run.runId
    status := canonicalStatusString run }

end Imece.RunRuntime
