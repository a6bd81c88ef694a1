import Imece.RunRuntime.Service

/-!
# The pipeline recorder

Run-level events owned by the pipeline rather than by one attempt. Every write
is a compare-and-swap on the sequence number of the row it was decided from.
-/
namespace Imece.RunRuntime

open Lib

namespace CanonicalPipelineRecorder

def pipelineSource : String := "pipeline"

/-- `proposal.ready` and `run.waiting_user` as one atomic batch. -/
def writeNeedsUser (runId : String) (payload : PyValue) (source : String) (expected : ℕ)
    (fresh : Fresh × Fresh) : RunProg Unit := do
  let ready ← Prog.check (RunEventSpec.ofArgs {
    type := RunEventType.proposalReady.value, payload, source, correlationId := some runId })
  let waiting ← Prog.check (RunEventSpec.ofArgs {
    type := RunEventType.runWaitingUser.value, payload := payloadOf [], source
    correlationId := some runId })
  let _ ← recordMany runId [(ready, fresh.1), (waiting, fresh.2)] (some expected)
  return ()

/-- `needs_user`: with no expected number, a no-op once the run is not `RUNNING`;
with one, a stale number surfaces to the caller. -/
def needsUser (runId : String) (payload : PyValue) (expected : Option ℕ)
    (source : String) (fresh : Fresh × Fresh) : RunProg Unit :=
  match expected with
  | some n => writeNeedsUser runId payload source n fresh
  | none => do
      let run ← getRun runId
      if run.status ≠ .running then return ()
      else writeNeedsUser runId payload source run.lastEventSeq fresh

/-- `resumed`: not a no-op, since resuming a run that does not wait is an error. -/
def resumed (runId reason : String) (fresh : Fresh) : RunProg Unit := do
  let run ← getRun runId
  if run.status ≠ .waitingUser then
    Prog.throw (.invalidRunState "Run WAITING_USER durumunda değil; run.resumed reddedildi.")
  else
    let _ ← record runId {
      type := RunEventType.runResumed.value
      payload := payloadOf [("reason", .str reason)]
      source := pipelineSource
      correlationId := some runId } (some run.lastEventSeq) fresh
    return ()

/-- The writers that are a no-op unless the run is `RUNNING`. -/
def recordIfRunning (runId : String) (type : RunEventType) (payload : PyValue) (fresh : Fresh) :
    RunProg Unit := do
  let run ← getRun runId
  if run.status ≠ .running then return ()
  else
    let _ ← record runId {
      type := type.value, payload, source := pipelineSource
      correlationId := some runId } (some run.lastEventSeq) fresh
    return ()

def completedNoChanges (runId : String) (fresh : Fresh) : RunProg Unit :=
  recordIfRunning runId .runCompleted (payloadOf [("reason", .str "no_changes")]) fresh

def cancelled (runId : String) (fresh : Fresh) : RunProg Unit :=
  recordIfRunning runId .runCancelled (payloadOf []) fresh

/-- `error_message or error_code`. -/
def failed (runId errorCode : String) (errorMessage : Option String) (fresh : Fresh) :
    RunProg Unit :=
  recordIfRunning runId .runFailed
    (payloadOf [("error_code", .str errorCode),
      ("error_message", .str (orFresh errorMessage errorCode))]) fresh

end CanonicalPipelineRecorder

end Imece.RunRuntime
