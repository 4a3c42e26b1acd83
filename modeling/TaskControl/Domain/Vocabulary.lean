import TaskControl.Common.Errors
import TaskControl.Foundation.PythonText

/-!
# The execution vocabulary

Where an execution is, how it ended and why.  A reason code is kept as its
namespace, which is an outcome that carries codes, and the detail after the dot;
its stored form joins the two.
-/

set_option autoImplicit false

namespace TaskControl

open PythonText

inductive ExecutionState where
  | pending
  | evaluating
  | running
  | cancelling
  | finished
  deriving DecidableEq, Repr

namespace ExecutionState

def wire : ExecutionState → String
  | .pending => "pending"
  | .evaluating => "evaluating"
  | .running => "running"
  | .cancelling => "cancelling"
  | .finished => "finished"

def isTerminal (state : ExecutionState) : Bool := state == .finished

def requiresOutcome (state : ExecutionState) : Bool := state.isTerminal

/-- `_LEGAL_TRANSITIONS`. -/
def transitions : ExecutionState → List ExecutionState
  | .pending => [.evaluating, .finished]
  | .evaluating => [.running, .finished]
  | .running => [.cancelling, .finished]
  | .cancelling => [.finished]
  | .finished => []

theorem finished_reachable {state : ExecutionState} (open_ : state.isTerminal = false) :
    .finished ∈ state.transitions := by
  cases state <;> simp_all [transitions, isTerminal]

end ExecutionState

def isLegalTransition (current proposed : ExecutionState) : Bool :=
  decide (proposed ∈ current.transitions)

def assertLegalTransition (current proposed : ExecutionState) : Except TaskControlError Unit :=
  if isLegalTransition current proposed then .ok ()
  else
    .error (domainRuleViolationError
      s!"Cannot move an execution from {current.wire} to {proposed.wire}.")

inductive RetryEligibility where
  | never
  | always
  | byPolicy
  deriving DecidableEq, Repr

inductive ExecutionOutcome where
  | succeeded
  | failed
  | launchFailed
  | outcomeFailed
  | timedOut
  | cancelled
  | skipped
  | blocked
  | conditionError
  | infrastructureFailed
  | unknown
  deriving DecidableEq, Repr

namespace ExecutionOutcome

def wire : ExecutionOutcome → String
  | .succeeded => "succeeded"
  | .failed => "failed"
  | .launchFailed => "launch_failed"
  | .outcomeFailed => "outcome_failed"
  | .timedOut => "timed_out"
  | .cancelled => "cancelled"
  | .skipped => "skipped"
  | .blocked => "blocked"
  | .conditionError => "condition_error"
  | .infrastructureFailed => "infrastructure_failed"
  | .unknown => "unknown"

def isSuccess (outcome : ExecutionOutcome) : Bool := outcome == .succeeded

/-- Whether a process was actually started. -/
def ran : ExecutionOutcome → Bool
  | .succeeded | .failed | .outcomeFailed | .timedOut | .cancelled => true
  | _ => false

def requiresReasonCode : ExecutionOutcome → Bool
  | .skipped | .blocked | .conditionError | .infrastructureFailed | .timedOut | .cancelled => true
  | _ => false

def permitsReasonCode (outcome : ExecutionOutcome) : Bool :=
  outcome.requiresReasonCode || outcome == .failed

/-- `_RETRY_ELIGIBILITY`. -/
def retryEligibility : ExecutionOutcome → RetryEligibility
  | .failed | .launchFailed | .conditionError | .infrastructureFailed => .always
  | .outcomeFailed | .timedOut => .byPolicy
  | .succeeded | .cancelled | .skipped | .blocked | .unknown => .never

end ExecutionOutcome

structure ReasonCode where
  outcome : ExecutionOutcome
  detail : Text
  permitted : outcome.permitsReasonCode = true
  detailed : detail ≠ []

namespace ReasonCode

def value (code : ReasonCode) : Text := code.outcome.wire.toList ++ '.' :: code.detail

/-- Whether the code belongs to the outcome (`matches`). -/
def belongsTo (code : ReasonCode) (outcome : ExecutionOutcome) : Bool := code.outcome == outcome

end ReasonCode

/-! ## The codes that the runtime produces -/

namespace ReasonCodes

theorem blocked_permitted : ExecutionOutcome.blocked.permitsReasonCode = true := rfl

theorem infrastructureFailed_permitted :
    ExecutionOutcome.infrastructureFailed.permitsReasonCode = true := rfl

theorem timedOut_permitted : ExecutionOutcome.timedOut.permitsReasonCode = true := rfl

theorem cancelled_permitted : ExecutionOutcome.cancelled.permitsReasonCode = true := rfl

theorem failed_permitted : ExecutionOutcome.failed.permitsReasonCode = true := rfl

theorem overlapLockHeld_detailed : "overlap_lock_held".toList ≠ [] := by decide

theorem executorUnavailable_detailed : "executor_unavailable".toList ≠ [] := by decide

theorem runTimeoutExceeded_detailed : "run_timeout_exceeded".toList ≠ [] := by decide

theorem requestedByUser_detailed : "requested_by_user".toList ≠ [] := by decide

theorem superseded_detailed : "superseded".toList ≠ [] := by decide

theorem terminatedExternally_detailed : "terminated_externally".toList ≠ [] := by decide

def blockedOverlapLockHeld : ReasonCode :=
  ⟨.blocked, "overlap_lock_held".toList, blocked_permitted, overlapLockHeld_detailed⟩

def infrastructureExecutorUnavailable : ReasonCode :=
  ⟨.infrastructureFailed, "executor_unavailable".toList, infrastructureFailed_permitted,
    executorUnavailable_detailed⟩

def timedOutRunTimeoutExceeded : ReasonCode :=
  ⟨.timedOut, "run_timeout_exceeded".toList, timedOut_permitted, runTimeoutExceeded_detailed⟩

def cancelledRequestedByUser : ReasonCode :=
  ⟨.cancelled, "requested_by_user".toList, cancelled_permitted, requestedByUser_detailed⟩

def cancelledSuperseded : ReasonCode :=
  ⟨.cancelled, "superseded".toList, cancelled_permitted, superseded_detailed⟩

def failedTerminatedExternally : ReasonCode :=
  ⟨.failed, "terminated_externally".toList, failed_permitted, terminatedExternally_detailed⟩

end ReasonCodes

end TaskControl
