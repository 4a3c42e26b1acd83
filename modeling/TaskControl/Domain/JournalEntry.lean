import TaskControl.Domain.Classification
import TaskControl.Domain.Execution

/-!
# Journal entries

One activation, recorded locally because the control plane could not be reached,
and the terminal execution that reconciliation makes of it.
-/

set_option autoImplicit false

namespace TaskControl

open PythonText

structure JournalEntry where
  executionId : ExecutionId
  taskId : TaskId
  slug : Slug
  revisionId : TaskRevisionId
  contentDigest : ContentDigest
  triggerSource : TriggerSource
  startedAt : UtcTimestamp
  finishedAt : UtcTimestamp
  outcome : ExecutionOutcome
  reasonCode : Option ReasonCode
  exitCode : Option Int
  signalNumber : Option Int
  terminationCause : TerminationCause
  explanation : Text

/-- `_explanation_for`. -/
def explanationFor (entry : JournalEntry) : Text :=
  let detail :=
    if entry.explanation = [] then "Outcome ".toList ++ entry.outcome.wire.toList ++ ['.']
    else entry.explanation
  detail ++ (" Reconciled from a local journal: this ran while TaskControl's control state was " ++
    "unreachable, so no attempt detail was captured.").toList

/-- `_execution_from`: the record is created already finished. -/
def executionFrom (entry : JournalEntry) : Except TaskControlError Execution :=
  Execution.make {
    executionId := entry.executionId
    taskId := entry.taskId
    revisionId := entry.revisionId
    triggerSource := entry.triggerSource
    requestedAt := entry.startedAt
    state := .finished
    outcome := some entry.outcome
    reasonCode := entry.reasonCode
    explanation := explanationFor entry
    attempts := []
    startedAt := some entry.startedAt
    finishedAt := some entry.finishedAt
    correlationId := none
    idempotencyKey := none
    requestedBy := none
    configurationDigest := none }

end TaskControl
