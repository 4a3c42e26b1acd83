import TaskControl.Domain.Revision
import TaskControl.Domain.Vocabulary

/-!
# Executions and attempts

The record of one evaluation of a trigger.  An execution is its fields together
with the fact that the constructor found no complaint about them; `replace` runs
the constructor again, so a change that would contradict itself is refused.
-/

set_option autoImplicit false

namespace TaskControl

open PythonText

/-! ## Keys -/

def keyMaxLength : Nat := 128

/-- `[A-Za-z0-9._:\-]`. -/
def isKeyChar (c : Char) : Bool :=
  c.isAlphanum || c == '.' || c == '_' || c == ':' || c == '-'

/-- `^[A-Za-z0-9._:\-]+$`; `$` also matches before a final newline. -/
def keyShaped (t : Text) : Bool :=
  let body := if endsWithNewline t then t.dropLast else t
  !body.isEmpty && body.all isKeyChar

/-- What `_validate_key` lets through, for both kinds of caller-supplied key. -/
structure SafeKey where
  value : Text
  bounded : value.length ≤ keyMaxLength
  shaped : keyShaped value = true
  deriving DecidableEq

abbrev CorrelationId := SafeKey

abbrev IdempotencyKey := SafeKey

inductive TriggerSource where
  | manual
  | schedule
  | api
  | retry
  deriving DecidableEq, Repr

def TriggerSource.wire : TriggerSource → String
  | .manual => "manual"
  | .schedule => "schedule"
  | .api => "api"
  | .retry => "retry"

/-! ## Attempts -/

structure ExecutionAttempt where
  attemptId : AttemptId
  executionId : ExecutionId
  attemptNumber : Nat
  startedAt : UtcTimestamp
  executorType : String
  finishedAt : Option UtcTimestamp
  result : Option ProcessResult
  stdout : Text
  stderr : Text
  numbered : 1 ≤ attemptNumber
  finishedTogether : finishedAt = none ↔ result = none

namespace ExecutionAttempt

def isFinished (attempt : ExecutionAttempt) : Bool := attempt.result.isSome

/-- The constructor as the runtime calls it, for an attempt that starts now. -/
def started (attemptId : AttemptId) (executionId : ExecutionId) (attemptNumber : Nat)
    (startedAt : UtcTimestamp) (executorType : String) :
    Except TaskControlError ExecutionAttempt :=
  if numbered : 1 ≤ attemptNumber then
    .ok {
      attemptId, executionId, attemptNumber, startedAt, executorType
      finishedAt := none
      result := none
      stdout := []
      stderr := []
      numbered
      finishedTogether := iff_of_true rfl rfl }
  else .error (validationError "Attempt numbers start at 1.")

theorem finished_together (moment : UtcTimestamp) (result : ProcessResult) :
    some moment = none ↔ some result = none := by simp

def finish (attempt : ExecutionAttempt) (result : ProcessResult) (finishedAt : UtcTimestamp)
    (stdout stderr : Text) : Except TaskControlError ExecutionAttempt :=
  if attempt.isFinished then
    .error (domainRuleViolationError
      "This attempt has already finished. Retries create a new attempt.")
  else
    .ok { attempt with
      result := some result
      finishedAt := some finishedAt
      stdout
      stderr
      finishedTogether := finished_together finishedAt result }

theorem started_ok (attemptId : AttemptId) (executionId : ExecutionId) {attemptNumber : Nat}
    (numbered : 1 ≤ attemptNumber) (startedAt : UtcTimestamp) (executorType : String) :
    ∃ attempt, started attemptId executionId attemptNumber startedAt executorType = .ok attempt ∧
      attempt.attemptId = attemptId ∧ attempt.attemptNumber = attemptNumber ∧
      attempt.isFinished = false := by
  unfold started
  rw [dif_pos numbered]
  exact ⟨_, rfl, rfl, rfl, rfl⟩

theorem finish_ok {attempt : ExecutionAttempt} (open_ : attempt.isFinished = false)
    (result : ProcessResult) (finishedAt : UtcTimestamp) (stdout stderr : Text) :
    ∃ finished, attempt.finish result finishedAt stdout stderr = .ok finished ∧
      finished.attemptId = attempt.attemptId := by
  unfold finish
  rw [if_neg (by simp [open_])]
  exact ⟨_, rfl, rfl⟩

end ExecutionAttempt

/-! ## Executions -/

def maxExplanationLength : Nat := 4000

structure ExecutionFields where
  executionId : ExecutionId
  taskId : TaskId
  revisionId : TaskRevisionId
  triggerSource : TriggerSource
  requestedAt : UtcTimestamp
  state : ExecutionState
  outcome : Option ExecutionOutcome
  reasonCode : Option ReasonCode
  explanation : Text
  attempts : List ExecutionAttempt
  startedAt : Option UtcTimestamp
  finishedAt : Option UtcTimestamp
  correlationId : Option CorrelationId
  idempotencyKey : Option IdempotencyKey
  requestedBy : Option OwnerId
  configurationDigest : Option ContentDigest

/-- What `__post_init__` says against the reason code of an outcome. -/
def reasonComplaint (outcome : ExecutionOutcome) (reasonCode : Option ReasonCode) :
    Option String :=
  if outcome.requiresReasonCode then
    match reasonCode with
    | none =>
        some (s!"Outcome {outcome.wire} requires a reason code; without one the result cannot " ++
          "be explained.")
    | some code =>
        if code.belongsTo outcome then none
        else some "The reason code does not belong to this outcome."
  else none

/-- What `__post_init__` raises, if it raises. -/
def ExecutionFields.complaint (fields : ExecutionFields) : Option String :=
  if fields.state.requiresOutcome && fields.outcome.isNone then
    some ("A finished execution must record its outcome. An execution that ends without one " ++
      "is invisible to an operator.")
  else if !fields.state.requiresOutcome && fields.outcome.isSome then
    some "Only a finished execution carries an outcome."
  else
    match fields.outcome.bind (reasonComplaint · fields.reasonCode) with
    | some message => some message
    | none =>
        if maxExplanationLength < fields.explanation.length then
          some "Execution explanation is too long."
        else none

structure Execution extends ExecutionFields where
  consistent : toExecutionFields.complaint = none

namespace Execution

/-- The constructor, which `replace` calls too. -/
def make (fields : ExecutionFields) : Except TaskControlError Execution :=
  match found : fields.complaint with
  | none => .ok ⟨fields, found⟩
  | some message => .error (validationError message)

theorem make_eq_ok {fields : ExecutionFields} {execution : Execution} :
    make fields = .ok execution ↔ execution.toExecutionFields = fields := by
  unfold make
  split
  · next found =>
      simp only [Except.ok.injEq]
      constructor
      · rintro rfl
        rfl
      · rintro rfl
        rfl
  · next message found =>
      constructor
      · intro made
        cases made
      · rintro rfl
        rw [execution.consistent] at found
        cases found

theorem make_of_consistent {fields : ExecutionFields} (quiet : fields.complaint = none) :
    make fields = .ok ⟨fields, quiet⟩ :=
  make_eq_ok.mpr rfl

theorem make_of_complaint {fields : ExecutionFields} {message : String}
    (complains : fields.complaint = some message) :
    make fields = .error (validationError message) := by
  unfold make
  split
  · next found =>
      rw [complains] at found
      cases found
  · next other found =>
      rw [complains] at found
      cases found
      rfl

/-- A pending execution. -/
def requested (executionId : ExecutionId) (taskId : TaskId) (revisionId : TaskRevisionId)
    (triggerSource : TriggerSource) (requestedAt : UtcTimestamp)
    (correlationId : Option CorrelationId) (idempotencyKey : Option IdempotencyKey)
    (requestedBy : Option OwnerId) : Except TaskControlError Execution :=
  make {
    executionId, taskId, revisionId, triggerSource, requestedAt
    state := .pending
    outcome := none
    reasonCode := none
    explanation := []
    attempts := []
    startedAt := none
    finishedAt := none
    correlationId, idempotencyKey, requestedBy
    configurationDigest := none }

def isFinished (execution : Execution) : Bool := execution.state.isTerminal

def attemptCount (execution : Execution) : Nat := execution.attempts.length

def transitionTo (execution : Execution) (state : ExecutionState) :
    Except TaskControlError Execution := do
  assertLegalTransition execution.state state
  if state.requiresOutcome then
    .error (domainRuleViolationError
      "Finish an execution with finish(), which requires an outcome.")
  else make { execution.toExecutionFields with state }

def beginAttempt (execution : Execution) (attempt : ExecutionAttempt) (startedAt : UtcTimestamp) :
    Except TaskControlError Execution :=
  if execution.isFinished then
    .error (domainRuleViolationError "A finished execution cannot start another attempt.")
  else if attempt.attemptNumber ≠ execution.attemptCount + 1 then
    .error (domainRuleViolationError "Attempts are numbered consecutively from 1.")
  else
    make { execution.toExecutionFields with
      state := .running
      attempts := execution.attempts ++ [attempt]
      startedAt := execution.startedAt.or (some startedAt) }

def recordAttemptResult (execution : Execution) (attempt : ExecutionAttempt) :
    Except TaskControlError Execution :=
  if execution.attempts.getLast?.map ExecutionAttempt.attemptId = some attempt.attemptId then
    make { execution.toExecutionFields with
      attempts := execution.attempts.dropLast ++ [attempt] }
  else
    .error (domainRuleViolationError
      "Only the latest attempt of this execution can be updated.")

def requestCancellation (execution : Execution) : Except TaskControlError Execution := do
  assertLegalTransition execution.state .cancelling
  make { execution.toExecutionFields with state := .cancelling }

def finish (execution : Execution) (outcome : ExecutionOutcome) (finishedAt : UtcTimestamp)
    (reasonCode : Option ReasonCode) (explanation : Text) : Except TaskControlError Execution :=
  if execution.isFinished then
    .error (domainRuleViolationError
      "This execution has already finished. Its outcome is immutable.")
  else do
    assertLegalTransition execution.state .finished
    make { execution.toExecutionFields with
      state := .finished
      outcome := some outcome
      reasonCode
      explanation
      finishedAt := some finishedAt }

end Execution

/-! ## What the constructor accepts -/

theorem complaint_open {fields : ExecutionFields} (open_ : fields.state.isTerminal = false)
    (undecided : fields.outcome = none) (fits : fields.explanation.length ≤ maxExplanationLength) :
    fields.complaint = none := by
  unfold ExecutionFields.complaint
  rw [undecided, ExecutionState.requiresOutcome, open_]
  simp only [Bool.false_and, Bool.not_false, Option.isSome_none, Bool.and_false,
    Bool.false_eq_true, if_false, Option.bind_none]
  rw [if_neg (by omega)]

theorem complaint_finished {fields : ExecutionFields} {outcome : ExecutionOutcome}
    (terminal : fields.state.isTerminal = true) (decided : fields.outcome = some outcome)
    (reasoned : reasonComplaint outcome fields.reasonCode = none)
    (fits : fields.explanation.length ≤ maxExplanationLength) : fields.complaint = none := by
  unfold ExecutionFields.complaint
  rw [decided, ExecutionState.requiresOutcome, terminal]
  simp only [Option.isNone_some, Bool.and_false, Bool.not_true, Bool.false_and,
    Bool.false_eq_true, if_false, Option.bind_some, reasoned]
  rw [if_neg (by omega)]

theorem complaint_long {fields : ExecutionFields} {outcome : ExecutionOutcome}
    (terminal : fields.state.isTerminal = true) (decided : fields.outcome = some outcome)
    (reasoned : reasonComplaint outcome fields.reasonCode = none)
    (long : maxExplanationLength < fields.explanation.length) :
    fields.complaint = some "Execution explanation is too long." := by
  unfold ExecutionFields.complaint
  rw [decided, ExecutionState.requiresOutcome, terminal]
  simp only [Option.isNone_some, Bool.and_false, Bool.not_true, Bool.false_and,
    Bool.false_eq_true, if_false, Option.bind_some, reasoned]
  rw [if_pos long]

theorem reasonComplaint_explained {outcome : ExecutionOutcome} {reasonCode : Option ReasonCode}
    (stated : outcome.requiresReasonCode = true → reasonCode ≠ none)
    (belongs : ∀ code ∈ reasonCode, code.belongsTo outcome = true) :
    reasonComplaint outcome reasonCode = none := by
  unfold reasonComplaint
  split
  · next required =>
      cases reasonCode with
      | none => exact absurd rfl (stated required)
      | some code => exact if_pos (belongs code rfl)
  · rfl

namespace Execution

/-- A finished execution says how it ended; an open one does not. -/
theorem outcome_isSome (execution : Execution) :
    execution.outcome.isSome = execution.isFinished := by
  have quiet := execution.consistent
  unfold ExecutionFields.complaint at quiet
  unfold isFinished
  rw [ExecutionState.requiresOutcome] at quiet
  cases terminal : execution.state.isTerminal <;> cases decided : execution.outcome <;>
    simp_all

theorem explanation_bounded (execution : Execution) :
    execution.explanation.length ≤ maxExplanationLength := by
  by_contra long
  have quiet := execution.consistent
  unfold ExecutionFields.complaint at quiet
  split at quiet
  · cases quiet
  · split at quiet
    · cases quiet
    · split at quiet
      · cases quiet
      · rw [if_pos (by omega)] at quiet
        cases quiet

theorem outcome_none {execution : Execution} (open_ : execution.isFinished = false) :
    execution.outcome = none := by
  have decided := execution.outcome_isSome
  rw [open_] at decided
  exact Option.not_isSome_iff_eq_none.mp (by simp [decided])

/-! ## What the operations return -/

theorem requested_ok (executionId : ExecutionId) (taskId : TaskId) (revisionId : TaskRevisionId)
    (triggerSource : TriggerSource) (requestedAt : UtcTimestamp)
    (correlationId : Option CorrelationId) (idempotencyKey : Option IdempotencyKey)
    (requestedBy : Option OwnerId) :
    ∃ execution, requested executionId taskId revisionId triggerSource requestedAt correlationId
        idempotencyKey requestedBy = .ok execution ∧
      execution.state = .pending ∧ execution.attempts = [] ∧
      execution.executionId = executionId ∧ execution.taskId = taskId ∧
      execution.revisionId = revisionId ∧ execution.triggerSource = triggerSource := by
  unfold requested
  rw [make_of_consistent (complaint_open rfl rfl (by simp))]
  exact ⟨_, rfl, rfl, rfl, rfl, rfl, rfl, rfl⟩

theorem transitionTo_evaluating {execution : Execution} (pending : execution.state = .pending) :
    ∃ evaluating, execution.transitionTo .evaluating = .ok evaluating ∧
      evaluating.toExecutionFields = { execution.toExecutionFields with state := .evaluating } := by
  have legal : assertLegalTransition execution.state .evaluating = .ok () := by
    rw [pending]
    rfl
  have undecided : execution.outcome = none := outcome_none (by rw [isFinished, pending]; rfl)
  have quiet : ({ execution.toExecutionFields with state := .evaluating } :
      ExecutionFields).complaint = none :=
    complaint_open rfl undecided execution.explanation_bounded
  refine ⟨⟨_, quiet⟩, ?_, rfl⟩
  unfold transitionTo
  rw [legal]
  exact make_of_consistent quiet

theorem beginAttempt_ok {execution : Execution} (open_ : execution.isFinished = false)
    {attempt : ExecutionAttempt} (next : attempt.attemptNumber = execution.attemptCount + 1)
    (startedAt : UtcTimestamp) :
    ∃ running, execution.beginAttempt attempt startedAt = .ok running ∧
      running.toExecutionFields = { execution.toExecutionFields with
        state := .running
        attempts := execution.attempts ++ [attempt]
        startedAt := execution.startedAt.or (some startedAt) } := by
  have quiet : ({ execution.toExecutionFields with
      state := .running
      attempts := execution.attempts ++ [attempt]
      startedAt := execution.startedAt.or (some startedAt) } : ExecutionFields).complaint = none :=
    complaint_open rfl (outcome_none open_) execution.explanation_bounded
  refine ⟨⟨_, quiet⟩, ?_, rfl⟩
  unfold beginAttempt
  rw [if_neg (by simp [open_]), if_neg (by simp [next])]
  exact make_of_consistent quiet

theorem recordAttemptResult_ok {execution : Execution} (open_ : execution.isFinished = false)
    {earlier : List ExecutionAttempt} {begun finished : ExecutionAttempt}
    (latest : execution.attempts = earlier ++ [begun])
    (same : finished.attemptId = begun.attemptId) :
    ∃ recorded, execution.recordAttemptResult finished = .ok recorded ∧
      recorded.toExecutionFields =
        { execution.toExecutionFields with attempts := earlier ++ [finished] } := by
  have quiet : ({ execution.toExecutionFields with attempts := earlier ++ [finished] } :
      ExecutionFields).complaint = none :=
    complaint_open open_ (outcome_none open_) execution.explanation_bounded
  refine ⟨⟨_, quiet⟩, ?_, rfl⟩
  unfold recordAttemptResult
  rw [if_pos (by simp [latest, same])]
  have replaced : execution.attempts.dropLast ++ [finished] = earlier ++ [finished] := by
    simp [latest]
  rw [replaced]
  exact make_of_consistent quiet

/-- How an open execution is finished, for a reason code that belongs to the outcome:
the length of the explanation decides. -/
theorem finish_ok {execution : Execution} (open_ : execution.isFinished = false)
    {outcome : ExecutionOutcome} {reasonCode : Option ReasonCode}
    (reasoned : reasonComplaint outcome reasonCode = none) {explanation : Text}
    (fits : explanation.length ≤ maxExplanationLength) (finishedAt : UtcTimestamp) :
    ∃ finished, execution.finish outcome finishedAt reasonCode explanation = .ok finished ∧
      finished.toExecutionFields = { execution.toExecutionFields with
        state := .finished
        outcome := some outcome
        reasonCode
        explanation
        finishedAt := some finishedAt } := by
  have legal : assertLegalTransition execution.state .finished = .ok () :=
    if_pos (decide_eq_true (ExecutionState.finished_reachable open_))
  have quiet : ({ execution.toExecutionFields with
      state := .finished
      outcome := some outcome
      reasonCode
      explanation
      finishedAt := some finishedAt } : ExecutionFields).complaint = none :=
    complaint_finished rfl rfl reasoned fits
  refine ⟨⟨_, quiet⟩, ?_, rfl⟩
  unfold finish
  rw [if_neg (by simp [open_]), legal]
  exact make_of_consistent quiet

def tooLong : TaskControlError := validationError "Execution explanation is too long."

theorem finish_long {execution : Execution} (open_ : execution.isFinished = false)
    {outcome : ExecutionOutcome} {reasonCode : Option ReasonCode}
    (reasoned : reasonComplaint outcome reasonCode = none) {explanation : Text}
    (long : maxExplanationLength < explanation.length) (finishedAt : UtcTimestamp) :
    execution.finish outcome finishedAt reasonCode explanation = .error tooLong := by
  have legal : assertLegalTransition execution.state .finished = .ok () :=
    if_pos (decide_eq_true (ExecutionState.finished_reachable open_))
  unfold finish
  rw [if_neg (by simp [open_]), legal]
  exact make_of_complaint (complaint_long rfl rfl reasoned long)

end Execution

end TaskControl
