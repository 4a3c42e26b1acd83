import TaskControl.Domain.Execution
import TaskControl.Domain.Task

/-!
# Stored executions

The rows of the execution and attempt tables and the repository over them.  A
save replaces the mutable columns of a row by those of the execution it is given,
whatever the row says by then; identity and request metadata are written once.
Columns keep the typed values of the fields that they store.
-/

set_option autoImplicit false

namespace TaskControl.Persistence

open PythonText

structure ExecutionRecord where
  executionId : ExecutionId
  taskId : TaskId
  revisionId : TaskRevisionId
  triggerSource : TriggerSource
  state : ExecutionState
  outcome : Option ExecutionOutcome
  reasonCode : Option ReasonCode
  explanation : Text
  requestedAt : UtcTimestamp
  startedAt : Option UtcTimestamp
  finishedAt : Option UtcTimestamp
  correlationId : Option CorrelationId
  idempotencyKey : Option IdempotencyKey
  requestedBy : Option OwnerId
  configurationDigest : Option ContentDigest

/-- `execution_to_record`. -/
def executionToRecord (execution : Execution) : ExecutionRecord where
  executionId := execution.executionId
  taskId := execution.taskId
  revisionId := execution.revisionId
  triggerSource := execution.triggerSource
  state := execution.state
  outcome := execution.outcome
  reasonCode := execution.reasonCode
  explanation := execution.explanation
  requestedAt := execution.requestedAt
  startedAt := execution.startedAt
  finishedAt := execution.finishedAt
  correlationId := execution.correlationId
  idempotencyKey := execution.idempotencyKey
  requestedBy := execution.requestedBy
  configurationDigest := execution.configurationDigest

/-- `apply_execution_to_record`. -/
def applyExecutionToRecord (record : ExecutionRecord) (execution : Execution) : ExecutionRecord :=
  { record with
    state := execution.state
    outcome := execution.outcome
    reasonCode := execution.reasonCode
    explanation := execution.explanation
    startedAt := execution.startedAt
    finishedAt := execution.finishedAt
    configurationDigest := execution.configurationDigest }

/-- The arguments of the constructor that `record_to_execution` calls. -/
def ExecutionRecord.fields (record : ExecutionRecord) (attempts : List ExecutionAttempt) :
    ExecutionFields where
  executionId := record.executionId
  taskId := record.taskId
  revisionId := record.revisionId
  triggerSource := record.triggerSource
  requestedAt := record.requestedAt
  state := record.state
  outcome := record.outcome
  reasonCode := record.reasonCode
  explanation := record.explanation
  attempts := attempts.mergeSort fun first second => first.attemptNumber ≤ second.attemptNumber
  startedAt := record.startedAt
  finishedAt := record.finishedAt
  correlationId := record.correlationId
  idempotencyKey := record.idempotencyKey
  requestedBy := record.requestedBy
  configurationDigest := record.configurationDigest

/-- `record_to_execution`. -/
def recordToExecution (record : ExecutionRecord) (attempts : List ExecutionAttempt) :
    Except TaskControlError Execution :=
  Execution.make (record.fields attempts)

/-- `apply_attempt_to_record`, on an attempt row that keeps its typed form. -/
def applyAttemptToRecord (stored attempt : ExecutionAttempt) : ExecutionAttempt :=
  { stored with
    finishedAt := attempt.finishedAt
    result := attempt.result
    stdout := attempt.stdout
    stderr := attempt.stderr
    finishedTogether := attempt.finishedTogether }

/-! ## The database -/

structure Database where
  tasks : TaskId → Option Task
  revisions : TaskRevisionId → Option TaskRevision
  executions : List ExecutionRecord
  attempts : List ExecutionAttempt

namespace Database

def record? (database : Database) (executionId : ExecutionId) : Option ExecutionRecord :=
  database.executions.find? fun record => record.executionId = executionId

/-- `_attempts_for`. -/
def attemptsFor (database : Database) (executionId : ExecutionId) : List ExecutionAttempt :=
  database.attempts.filter fun attempt => attempt.executionId = executionId

/-- `executions.get`. -/
def getExecution (database : Database) (executionId : ExecutionId) :
    Except TaskControlError (Option Execution) :=
  match database.record? executionId with
  | none => .ok none
  | some record => do return some (← recordToExecution record (database.attemptsFor executionId))

/-- `executions.find_by_idempotency_key`. -/
def findByIdempotencyKey (database : Database) (taskId : TaskId) (key : IdempotencyKey) :
    Except TaskControlError (Option Execution) :=
  match database.executions.find? fun record =>
      record.taskId = taskId ∧ record.idempotencyKey = some key with
  | none => .ok none
  | some record => do
      return some (← recordToExecution record (database.attemptsFor record.executionId))

/-- Whether the keys of the table let the execution in. -/
def keyTaken (database : Database) (execution : Execution) : Bool :=
  database.executions.any fun record =>
    decide (record.executionId = execution.executionId) ||
      (execution.idempotencyKey.isSome &&
        decide (record.taskId = execution.taskId ∧ record.idempotencyKey = execution.idempotencyKey))

/-- `executions.add`, with the constraints of the table. -/
def addExecution (database : Database) (execution : Execution) : Except TaskControlError Database :=
  if database.keyTaken execution then
    .error (conflictError "An execution with this identifier or idempotency key already exists.")
  else if (database.tasks execution.taskId).isNone ||
      (database.revisions execution.revisionId).isNone then
    .error (validationError
      ("This execution references a task or revision that does not exist in this database. A " ++
        "journalled run reconciled against a different installation, or the definition it ran " ++
        "was deleted."))
  else
    .ok { database with
      executions := database.executions ++ [executionToRecord execution]
      attempts := database.attempts ++ execution.attempts }

/-- One attempt of a save: updated in place where it is stored, added where it is not. -/
def upsertAttempt (executionId : ExecutionId) (stored : List ExecutionAttempt)
    (attempt : ExecutionAttempt) : List ExecutionAttempt :=
  if stored.any fun row => decide (row.executionId = executionId ∧ row.attemptId = attempt.attemptId)
  then
    stored.map fun row =>
      if row.executionId = executionId ∧ row.attemptId = attempt.attemptId then
        applyAttemptToRecord row attempt
      else row
  else stored ++ [attempt]

/-- The row of the execution after a save, and every other row as it is. -/
def savedRow (execution : Execution) (record : ExecutionRecord) : ExecutionRecord :=
  if record.executionId = execution.executionId then applyExecutionToRecord record execution
  else record

/-- `executions.save`. -/
def saveExecution (database : Database) (execution : Execution) :
    Except TaskControlError Database :=
  match database.record? execution.executionId with
  | none => .error (notFoundError "Execution not found.")
  | some _ =>
      .ok { database with
        executions := database.executions.map (savedRow execution)
        attempts := execution.attempts.foldl (upsertAttempt execution.executionId) database.attempts }

/-! ## What the repository leaves behind -/

theorem record?_executionId {database : Database} {executionId : ExecutionId}
    {record : ExecutionRecord} (found : database.record? executionId = some record) :
    record.executionId = executionId := by
  simpa using List.find?_some found

theorem savedRow_executionId (execution : Execution) (record : ExecutionRecord) :
    (savedRow execution record).executionId = record.executionId := by
  unfold savedRow
  split <;> rfl

theorem find?_savedRow (records : List ExecutionRecord) (execution : Execution)
    (executionId : ExecutionId) :
    (records.map (savedRow execution)).find? (fun record => record.executionId = executionId) =
      (records.find? fun record => record.executionId = executionId).map (savedRow execution) := by
  rw [List.find?_map]
  congr 2
  funext record
  simp only [Function.comp, savedRow_executionId]

/-- A row that is there is saved into; the other rows stay. -/
theorem saveExecution_ok {database : Database} {execution : Execution} {record : ExecutionRecord}
    (found : database.record? execution.executionId = some record) :
    ∃ saved, database.saveExecution execution = .ok saved ∧
      saved.record? execution.executionId = some (applyExecutionToRecord record execution) ∧
      (∀ other, other ≠ execution.executionId → saved.record? other = database.record? other) ∧
      saved.tasks = database.tasks ∧ saved.revisions = database.revisions ∧
      saved.executions = database.executions.map (savedRow execution) := by
  refine ⟨{ database with
    executions := database.executions.map (savedRow execution)
    attempts := execution.attempts.foldl (upsertAttempt execution.executionId) database.attempts },
    ?_, ?_, ?_, rfl, rfl, rfl⟩
  · unfold saveExecution
    rw [found]
  · unfold record? at found ⊢
    rw [find?_savedRow, found, Option.map_some, savedRow, if_pos (record?_executionId found)]
  · intro other different
    unfold record?
    rw [find?_savedRow]
    cases there : database.executions.find? (fun row => row.executionId = other) with
    | none => rfl
    | some row =>
        rw [Option.map_some, savedRow, if_neg (by rw [record?_executionId there]; exact different)]

theorem addExecution_ok {database added : Database} {execution : Execution}
    (done : database.addExecution execution = .ok added) :
    database.record? execution.executionId = none ∧
      added.record? execution.executionId = some (executionToRecord execution) ∧
      (∀ other, other ≠ execution.executionId → added.record? other = database.record? other) ∧
      added.tasks = database.tasks ∧ added.revisions = database.revisions ∧
      added.executions = database.executions ++ [executionToRecord execution] := by
  unfold addExecution at done
  split at done
  · cases done
  · next free =>
      split at done
      · cases done
      · cases done
        have absent : database.record? execution.executionId = none := by
          rw [record?, List.find?_eq_none]
          intro row member taken
          apply free
          rw [keyTaken, List.any_eq_true]
          exact ⟨row, member, by simp_all⟩
        refine ⟨absent, ?_, ?_, rfl, rfl, rfl⟩
        · rw [record?, List.find?_append]
          rw [record?] at absent
          rw [absent]
          simp [executionToRecord]
        · intro other different
          rw [record?, List.find?_append, record?]
          cases there : database.executions.find? (fun row => row.executionId = other) with
          | some row => rfl
          | none => simp [executionToRecord, Ne.symm different]

/-- A row that the constructor has no complaint about is read back. -/
theorem getExecution_ok {database : Database} {executionId : ExecutionId}
    {record : ExecutionRecord} (found : database.record? executionId = some record)
    (consistent : (record.fields []).complaint = none) :
    ∃ execution, database.getExecution executionId = .ok (some execution) ∧
      execution.executionId = executionId ∧ execution.state = record.state ∧
      execution.taskId = record.taskId ∧ execution.revisionId = record.revisionId := by
  have quiet : (record.fields (database.attemptsFor executionId)).complaint = none := consistent
  unfold getExecution
  rw [found]
  simp only [recordToExecution, Execution.make_of_consistent quiet]
  exact ⟨_, rfl, record?_executionId found, rfl, rfl, rfl⟩

end Database

/-- The constructor's checks do not read the identity of a row. -/
theorem applied_consistent (record : ExecutionRecord) (execution : Execution) :
    ((applyExecutionToRecord record execution).fields []).complaint = none :=
  execution.consistent

theorem created_consistent (execution : Execution) :
    ((executionToRecord execution).fields []).complaint = none :=
  execution.consistent

end TaskControl.Persistence
