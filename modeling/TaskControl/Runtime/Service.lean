import TaskControl.Domain.Classification
import TaskControl.Domain.JournalEntry
import TaskControl.Foundation.Effects
import TaskControl.Persistence.ExecutionRecords

/-!
# The execution runtime

One path from trigger to recorded outcome.  Everything outside the process can
raise: each call site of a run has its own answer in `Reactions`, and since no
site outside the attempts is reached twice and an attempt reaches each of its
sites once, a value of `Reactions` is a pattern of failures.  An interruption
between two calls acts as one raised by the call before it or after it.
-/

set_option autoImplicit false

namespace TaskControl.Runtime

open PythonText Effects Persistence

/-! ## The world of a run -/

/-- How a transaction that writes goes: as asked, or raising without or after its commit. -/
inductive Fault where
  | none
  | before (error : Raised)
  | after (error : Raised)

/-- What the transaction raises. -/
def Fault.raised : Fault → Except Raised Unit
  | .none => .ok ()
  | .before error => .error error
  | .after error => .error error

/-- Whether the transaction commits. -/
def Fault.commits : Fault → Bool
  | .before _ => false
  | _ => true

structure LockHandle where
  key : Text
  owner : Text

structure ExecutionRequest where
  action : ActionSpecification
  environment : List (Text × Text)
  timeout : Duration
  terminationGrace : Duration

structure ExecutionReport where
  result : ProcessResult
  stdout : Text
  stderr : Text

/-- The two ways in which an activation starts work. -/
inductive LaunchPath where
  | recorded
  | degraded
  deriving DecidableEq

/-- What a run does to the outside, as far as the properties speak of it. -/
inductive Event where
  | stored (record : ExecutionRecord)
  | acquired (handle : LockHandle)
  | launched (path : LaunchPath) (request : ExecutionRequest) (controls : ExecutionControls)
  | released (handle : LockHandle)

structure World where
  database : Database
  journal : List JournalEntry
  trace : List Event

inductive LockAnswer where
  | granted (handle : LockHandle)
  | held
  | raises (error : Raised)

structure AttemptReactions where
  startClock : Except Raised UtcTimestamp
  attemptId : AttemptId
  begin_ : Fault
  executor : Except Raised ExecutionReport
  endClock : Except Raised UtcTimestamp
  record : Fault

structure Reactions where
  load : Except Raised Unit
  duplicate : Except Raised Unit
  requestClock : Except Raised UtcTimestamp
  executionId : ExecutionId
  correlationId : CorrelationId
  create : Fault
  evaluate : Fault
  lock : LockAnswer
  attempt : Nat → AttemptReactions
  finishClock : Except Raised UtcTimestamp
  finish : Fault
  handlerClock : Except Raised UtcTimestamp
  handler : Fault
  release : Except Raised Unit
  cleanupRead : Except Raised Unit
  cleanupClock : Except Raised UtcTimestamp
  cleanup : Fault

/-- The answer of a call that leaves the world alone. -/
def answer {σ α : Type} (reaction : Except Raised α) : Program Raised σ α :=
  match reaction with
  | .ok value => pure value
  | .error raised => throw raised

/-- A pure operation of the domain. -/
def domain {σ α : Type} (result : Except TaskControlError α) : Program Raised σ α :=
  match result with
  | .ok value => pure value
  | .error error => throw (.taskControl error)

def note (event : Event) : Program Raised World Unit :=
  modify fun world => { world with trace := world.trace ++ [event] }

/-- One transaction that changes the database and may fail on either side of its commit.
The row that it leaves for the execution goes on the trace. -/
def transaction (fault : Fault) (executionId : ExecutionId)
    (change : Database → Except TaskControlError Database) : Program Raised World Unit := do
  match fault with
  | .before error => throw error
  | _ =>
      let world ← get
      let database ← domain (change world.database)
      set { world with database }
      match database.record? executionId with
      | some record => note (.stored record)
      | none => pure ()
      answer fault.raised

/-! ## The service -/

structure RunRequest where
  taskId : TaskId
  triggerSource : TriggerSource
  requestedBy : Option OwnerId
  correlationId : Option CorrelationId
  idempotencyKey : Option IdempotencyKey
  environmentOverrides : List (Text × Text)

structure RunResult where
  execution : Execution
  wasDuplicate : Bool

/-- The collaborators of `RuntimeService` that are fixed between runs. -/
structure RuntimeService where
  registered : List ExecutorType
  scopeDescription : Text

/-- `default_registry`. -/
def defaultRegistry : List ExecutorType := [.shell, .python, .executable]

def unregistered : TaskControlError :=
  validationError "No executor adapter is registered for this action type."

def unresolvable : TaskControlError :=
  validationError
    ("This revision references secrets, and secret resolution is not available in this build. " ++
      "Running it would either invent a value or silently drop the binding.")

/-- `dict.update`: a key that is there keeps its place and takes the new value. -/
def updateEnvironment (environment overrides : List (Text × Text)) : List (Text × Text) :=
  overrides.foldl (fun bindings entry =>
    if bindings.any (fun binding => decide (binding.1 = entry.1)) then
      bindings.map fun binding => if binding.1 = entry.1 then entry else binding
    else bindings ++ [entry]) environment

/-- `ExecutorRegistry.get` and `_resolve_environment`: what is decided before the first
attempt. -/
def prepare (registered : List ExecutorType) (action : ActionSpecification)
    (overrides : List (Text × Text)) : Except TaskControlError (List (Text × Text)) :=
  if action.executorType ∉ registered then .error unregistered
  else if action.secretReferences ≠ [] then .error unresolvable
  else .ok (updateEnvironment action.literalEnvironment overrides)

namespace RuntimeService

/-- The decision of `_load` on what it reads. -/
def runnable (database : Database) (taskId : TaskId) :
    Except TaskControlError (Task × TaskRevision) :=
  match database.tasks taskId with
  | none => .error (notFoundError "Task not found.")
  | some task =>
      match task.activeRevisionId with
      | none =>
          .error (validationError
            ("This task has no active revision, so there is nothing to run. Publish and activate " ++
              "a revision first."))
      | some revisionId =>
          match database.revisions revisionId with
          | none => .error (notFoundError "The task's active revision does not exist.")
          | some revision =>
              if revision.publicationState = .draft then
                .error (validationError "A draft revision cannot be executed. Publish it first.")
              else .ok (task, revision)

/-- `_load`. -/
def load (reactions : Reactions) (taskId : TaskId) : Program Raised World (Task × TaskRevision) := do
  answer reactions.load
  domain (runnable (← get).database taskId)

/-- `_find_duplicate`. -/
def findDuplicate (reactions : Reactions) (taskId : TaskId) (key : IdempotencyKey) :
    Program Raised World (Option Execution) := do
  answer reactions.duplicate
  domain ((← get).database.findByIdempotencyKey taskId key)

/-- `_persist_new`. -/
def persistNew (reactions : Reactions) (execution : Execution) : Program Raised World Unit :=
  transaction reactions.create execution.executionId fun database => database.addExecution execution

/-- `_save`. -/
def save (fault : Fault) (execution : Execution) : Program Raised World Execution := do
  transaction fault execution.executionId fun database => database.saveExecution execution
  return execution

/-- `_finish`. -/
def finish (clock : Except Raised UtcTimestamp) (fault : Fault) (execution : Execution)
    (outcome : ExecutionOutcome) (reasonCode : Option ReasonCode) (explanation : Text) :
    Program Raised World Execution := do
  let finishedAt ← answer clock
  save fault (← domain (execution.finish outcome finishedAt reasonCode explanation))

/-- `_acquire_lock`. -/
def acquireLock (reactions : Reactions) : Program Raised World (Option LockHandle) :=
  match reactions.lock with
  | .granted handle => do
      note (.acquired handle)
      return some handle
  | .held => return none
  | .raises error => throw error

/-- `executor.run`: the work is launched, whatever the executor then answers. -/
def launch (path : LaunchPath) (reaction : Except Raised ExecutionReport)
    (request : ExecutionRequest) (controls : ExecutionControls) :
    Program Raised World ExecutionReport := do
  note (.launched path request controls)
  answer reaction

/-- The request of the executor under the controls of a revision. -/
def requestFor (action : ActionSpecification) (environment : List (Text × Text))
    (controls : ExecutionControls) : ExecutionRequest where
  action := action
  environment := environment
  timeout := controls.timeout.runTimeout
  terminationGrace := controls.timeout.terminationGrace

/-- One attempt: the execution with its result recorded, and the report. -/
def runAttempt (reactions : AttemptReactions) (revision : TaskRevision)
    (environment : List (Text × Text)) (execution : Execution) :
    Program Raised World (Execution × ExecutionReport) := do
  let startedAt ← answer reactions.startClock
  let attempt ← domain (ExecutionAttempt.started reactions.attemptId execution.executionId
    (execution.attemptCount + 1) startedAt revision.action.executorType.wire)
  let execution ← save reactions.begin_ (← domain (execution.beginAttempt attempt startedAt))
  let report ← launch .recorded reactions.executor
    (requestFor revision.action environment revision.controls) revision.controls
  let finishedAt ← answer reactions.endClock
  let finished ← domain (attempt.finish report.result finishedAt report.stdout report.stderr)
  let execution ← save reactions.record (← domain (execution.recordAttemptResult finished))
  return (execution, report)

/-- The explanation of an execution that ends with a classification. -/
def finalExplanation (classification : Classification) (retry : RetryDecision) : Text :=
  strip (classification.explanation ++ ' ' :: retry.reason)

/-- The loop of `_run_attempts`.  The fuel is the number of attempts that are left, which
the retry policy never lets run out. -/
def attempts (reactions : Reactions) (revision : TaskRevision) (environment : List (Text × Text)) :
    Nat → Execution → Program Raised World Execution
  | 0, _ => throw (.other "attempts exhausted")
  | fuel + 1, execution => do
      let (execution, report) ← runAttempt (reactions.attempt (execution.attemptCount + 1)) revision
        environment execution
      let classification := classifyReport report.result
      let retry := decideRetry classification.outcome revision.controls.retry execution.attemptCount
      if retry.shouldRetry then attempts reactions revision environment fuel execution
      else
        finish reactions.finishClock reactions.finish execution classification.outcome
          classification.reasonCode (finalExplanation classification retry)

/-- `_run_attempts`. -/
def runAttempts (service : RuntimeService) (reactions : Reactions) (revision : TaskRevision)
    (request : RunRequest) (execution : Execution) : Program Raised World Execution := do
  let environment ← domain (prepare service.registered revision.action request.environmentOverrides)
  attempts reactions revision environment revision.controls.retry.maxAttempts execution

/-! ## From pending to terminal -/

/-- The world and the local variables of `_execute`. -/
structure Frame where
  world : World
  execution : Execution
  handle : Option LockHandle
  finished : Option Execution

/-- A call made from `_execute`. -/
def calling {α : Type} (program : Program Raised World α) : Program Raised Frame α := fun frame =>
  match program frame.world with
  | .ok value world => .ok value { frame with world }
  | .error raised world => .error raised { frame with world }

/-- `finished = ...; return finished`. -/
def finishing (program : Program Raised World Execution) : Program Raised Frame Execution := do
  let finished ← calling program
  modify fun frame => { frame with finished := some finished }
  return finished

def blockedExplanation (service : RuntimeService) : Text :=
  "Another execution of this task is already running in ".toList ++ service.scopeDescription ++ ['.']

def interruptedExplanation : Text :=
  ("The runtime was interrupted and cannot prove what happened. This execution requires " ++
    "reconciliation.").toList

def forcedExplanation : Text :=
  ("The runtime exited without recording an outcome. This execution requires " ++
    "reconciliation.").toList

/-- The body of the `try` of `_execute`. -/
def body (service : RuntimeService) (reactions : Reactions) (revision : TaskRevision)
    (request : RunRequest) : Program Raised Frame Execution := do
  let pending := (← get).execution
  let evaluating ← calling do save reactions.evaluate (← domain (pending.transitionTo .evaluating))
  modify fun frame => { frame with execution := evaluating }
  let handle ← calling (acquireLock reactions)
  modify fun frame => { frame with handle }
  match handle with
  | none =>
      finishing (finish reactions.finishClock reactions.finish evaluating .blocked
        (some ReasonCodes.blockedOverlapLockHeld) service.blockedExplanation)
  | some _ => finishing (runAttempts service reactions revision request evaluating)

/-- The two `except` clauses.  A known failure is recorded and returned; anything else is
recorded as unproven and raised again. -/
def handler (reactions : Reactions) (raised : Raised) : Program Raised Frame Execution := do
  let execution := (← get).execution
  match raised with
  | .taskControl error =>
      finishing (finish reactions.handlerClock reactions.handler execution .infrastructureFailed
        (some ReasonCodes.infrastructureExecutorUnavailable) error.message.toList)
  | raised => do
      let _ ← finishing (finish reactions.handlerClock reactions.handler execution .unknown none
        interruptedExplanation)
      throw raised

/-- `_force_terminal`, which swallows every `Exception` but no interruption. -/
def forceTerminal (reactions : Reactions) (execution : Execution) : Program Raised World Unit :=
  handle
    (do
      answer reactions.cleanupRead
      match ← domain ((← get).database.getExecution execution.executionId) with
      | none => pure ()
      | some current =>
          if current.isFinished then pure ()
          else do
            let _ ← finish reactions.cleanupClock reactions.cleanup current .unknown none
              forcedExplanation)
    fun raised => if raised.isException then pure () else throw raised

/-- The `finally` clause. -/
def cleanup (reactions : Reactions) : Program Raised Frame Unit := do
  let frame ← get
  match frame.handle with
  | some handle => calling do
      note (.released handle)
      answer reactions.release
  | none => pure ()
  if frame.finished.any Execution.isFinished then pure ()
  else calling (forceTerminal reactions frame.execution)

/-- `_execute`. -/
def execute (service : RuntimeService) (reactions : Reactions) (revision : TaskRevision)
    (request : RunRequest) (execution : Execution) : Program Raised World Execution := fun world =>
  match always (Effects.handle (body service reactions revision request) (handler reactions))
      (cleanup reactions) ⟨world, execution, none, none⟩ with
  | .ok finished frame => .ok finished frame.world
  | .error raised frame => .error raised frame.world

/-- The execution that an identical request created before, where the request has a key. -/
def findExisting (reactions : Reactions) (request : RunRequest) :
    Program Raised World (Option Execution) :=
  match request.idempotencyKey with
  | some key => findDuplicate reactions request.taskId key
  | none => pure none

/-- `Execution.requested`, as `run` calls it. -/
def newExecution (reactions : Reactions) (request : RunRequest) (task : Task)
    (revision : TaskRevision) (requestedAt : UtcTimestamp) : Except TaskControlError Execution :=
  Execution.requested reactions.executionId task.taskId revision.revisionId request.triggerSource
    requestedAt (some (request.correlationId.getD reactions.correlationId)) request.idempotencyKey
    request.requestedBy

/-- `run` for a request that repeats none. -/
def runNew (service : RuntimeService) (reactions : Reactions) (request : RunRequest) (task : Task)
    (revision : TaskRevision) : Program Raised World RunResult := do
  let requestedAt ← answer reactions.requestClock
  let execution ← domain (newExecution reactions request task revision requestedAt)
  persistNew reactions execution
  return ⟨← execute service reactions revision request execution, false⟩

/-- `run`. -/
def run (service : RuntimeService) (reactions : Reactions) (request : RunRequest) :
    Program Raised World RunResult := do
  let (task, revision) ← load reactions request.taskId
  match ← findExisting reactions request with
  | some existing => return ⟨existing, true⟩
  | none => runNew service reactions request task revision

end RuntimeService

end TaskControl.Runtime
