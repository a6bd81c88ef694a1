import Mathlib.Tactic.Common

/-!
# Event types

The store keeps event types as strings, so unknown ones are storable;
`RunEventType.ofString?` is the lookup every dispatch table goes through.
-/
namespace Imece.RunRuntime

inductive RunEventType where
  | runCreated | runStarted | runPhaseChanged
  | runWaitingUser | runCompleted | runFailed | runCancelled | runInterrupted | runResumed
  | turnStarted | turnCompleted | modelStarted | modelCompleted | modelFailed
  | toolRequested | toolStarted | toolCompleted | toolFailed | toolInterrupted
  | permissionRequested | permissionResolved
  | executionStarted | executionOutput | executionCompleted | executionFailed
  | planStarted | planCompleted | planFailed | planInterrupted
  | usageRecorded | agentActivity
  | changeProposed | proposalReady | proposalApplied | proposalRejected
  | reviewStarted | reviewCompleted | reviewFailed | reviewInterrupted
  | verificationStarted | verificationCheckStarted | verificationCheckCompleted
  | verificationCheckFailed | verificationCheckInterrupted
  | verificationCompleted | verificationInterrupted
  | checkpointCreated | checkpointRestored
  | fixLoopStarted | fixAttemptStarted | fixAttemptCompleted | fixAttemptInterrupted
  | fixLoopCompleted | fixLoopExhausted | fixLoopFailed | fixLoopInterrupted
  | decisionMade
deriving DecidableEq, Repr

namespace RunEventType

def value : RunEventType → String
  | .runCreated => "run.created"
  | .runStarted => "run.started"
  | .runPhaseChanged => "run.phase_changed"
  | .runWaitingUser => "run.waiting_user"
  | .runCompleted => "run.completed"
  | .runFailed => "run.failed"
  | .runCancelled => "run.cancelled"
  | .runInterrupted => "run.interrupted"
  | .runResumed => "run.resumed"
  | .turnStarted => "turn.started"
  | .turnCompleted => "turn.completed"
  | .modelStarted => "model.started"
  | .modelCompleted => "model.completed"
  | .modelFailed => "model.failed"
  | .toolRequested => "tool.requested"
  | .toolStarted => "tool.started"
  | .toolCompleted => "tool.completed"
  | .toolFailed => "tool.failed"
  | .toolInterrupted => "tool.interrupted"
  | .permissionRequested => "permission.requested"
  | .permissionResolved => "permission.resolved"
  | .executionStarted => "execution.started"
  | .executionOutput => "execution.output"
  | .executionCompleted => "execution.completed"
  | .executionFailed => "execution.failed"
  | .planStarted => "plan.started"
  | .planCompleted => "plan.completed"
  | .planFailed => "plan.failed"
  | .planInterrupted => "plan.interrupted"
  | .usageRecorded => "usage.recorded"
  | .agentActivity => "agent.activity"
  | .changeProposed => "change.proposed"
  | .proposalReady => "proposal.ready"
  | .proposalApplied => "proposal.applied"
  | .proposalRejected => "proposal.rejected"
  | .reviewStarted => "review.started"
  | .reviewCompleted => "review.completed"
  | .reviewFailed => "review.failed"
  | .reviewInterrupted => "review.interrupted"
  | .verificationStarted => "verification.started"
  | .verificationCheckStarted => "verification.check_started"
  | .verificationCheckCompleted => "verification.check_completed"
  | .verificationCheckFailed => "verification.check_failed"
  | .verificationCheckInterrupted => "verification.check_interrupted"
  | .verificationCompleted => "verification.completed"
  | .verificationInterrupted => "verification.interrupted"
  | .checkpointCreated => "checkpoint.created"
  | .checkpointRestored => "checkpoint.restored"
  | .fixLoopStarted => "fix_loop.started"
  | .fixAttemptStarted => "fix_attempt.started"
  | .fixAttemptCompleted => "fix_attempt.completed"
  | .fixAttemptInterrupted => "fix_attempt.interrupted"
  | .fixLoopCompleted => "fix_loop.completed"
  | .fixLoopExhausted => "fix_loop.exhausted"
  | .fixLoopFailed => "fix_loop.failed"
  | .fixLoopInterrupted => "fix_loop.interrupted"
  | .decisionMade => "decision.made"

/-- The member whose value is the string; `none` for an unknown event type. -/
def ofString? : String → Option RunEventType
  | "run.created" => some .runCreated
  | "run.started" => some .runStarted
  | "run.phase_changed" => some .runPhaseChanged
  | "run.waiting_user" => some .runWaitingUser
  | "run.completed" => some .runCompleted
  | "run.failed" => some .runFailed
  | "run.cancelled" => some .runCancelled
  | "run.interrupted" => some .runInterrupted
  | "run.resumed" => some .runResumed
  | "turn.started" => some .turnStarted
  | "turn.completed" => some .turnCompleted
  | "model.started" => some .modelStarted
  | "model.completed" => some .modelCompleted
  | "model.failed" => some .modelFailed
  | "tool.requested" => some .toolRequested
  | "tool.started" => some .toolStarted
  | "tool.completed" => some .toolCompleted
  | "tool.failed" => some .toolFailed
  | "tool.interrupted" => some .toolInterrupted
  | "permission.requested" => some .permissionRequested
  | "permission.resolved" => some .permissionResolved
  | "execution.started" => some .executionStarted
  | "execution.output" => some .executionOutput
  | "execution.completed" => some .executionCompleted
  | "execution.failed" => some .executionFailed
  | "plan.started" => some .planStarted
  | "plan.completed" => some .planCompleted
  | "plan.failed" => some .planFailed
  | "plan.interrupted" => some .planInterrupted
  | "usage.recorded" => some .usageRecorded
  | "agent.activity" => some .agentActivity
  | "change.proposed" => some .changeProposed
  | "proposal.ready" => some .proposalReady
  | "proposal.applied" => some .proposalApplied
  | "proposal.rejected" => some .proposalRejected
  | "review.started" => some .reviewStarted
  | "review.completed" => some .reviewCompleted
  | "review.failed" => some .reviewFailed
  | "review.interrupted" => some .reviewInterrupted
  | "verification.started" => some .verificationStarted
  | "verification.check_started" => some .verificationCheckStarted
  | "verification.check_completed" => some .verificationCheckCompleted
  | "verification.check_failed" => some .verificationCheckFailed
  | "verification.check_interrupted" => some .verificationCheckInterrupted
  | "verification.completed" => some .verificationCompleted
  | "verification.interrupted" => some .verificationInterrupted
  | "checkpoint.created" => some .checkpointCreated
  | "checkpoint.restored" => some .checkpointRestored
  | "fix_loop.started" => some .fixLoopStarted
  | "fix_attempt.started" => some .fixAttemptStarted
  | "fix_attempt.completed" => some .fixAttemptCompleted
  | "fix_attempt.interrupted" => some .fixAttemptInterrupted
  | "fix_loop.completed" => some .fixLoopCompleted
  | "fix_loop.exhausted" => some .fixLoopExhausted
  | "fix_loop.failed" => some .fixLoopFailed
  | "fix_loop.interrupted" => some .fixLoopInterrupted
  | "decision.made" => some .decisionMade
  | _ => none

@[simp] theorem ofString?_value (t : RunEventType) : ofString? t.value = some t := by
  cases t <;> decide +kernel

theorem eq_value_of_ofString? {type : String} {t : RunEventType}
    (h : ofString? type = some t) : type = t.value := by
  unfold ofString? at h
  split at h <;> cases h <;> rfl

end RunEventType

end Imece.RunRuntime
