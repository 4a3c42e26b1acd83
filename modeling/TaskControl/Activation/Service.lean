import TaskControl.Domain.Manifest
import TaskControl.Runtime.Terminal

/-!
# What happens when cron wakes a wrapper

An activation loads the installed revision, tries the recorded runtime, and falls
back on the policy of the manifest when the control plane cannot be reached.  The
fallback is taken on the type of an exception, not on the point that was reached.
-/

set_option autoImplicit false

namespace TaskControl.Activation

open PythonText Effects Persistence TaskControl.Runtime

def exitSuccess : Nat := 0

def exitFailed : Nat := 1

/-- `EX_TEMPFAIL`. -/
def exitDeclined : Nat := 75

/-- `EX_SOFTWARE`. -/
def exitUnrecorded : Nat := 70

structure ActivationResult where
  exitCode : Nat
  outcome : Option ExecutionOutcome
  degraded : Bool
  journalled : Bool
  explanation : Text

/-- The answers of one activation: those of the recorded run, and those of the degraded one. -/
structure ActivationReactions where
  runtimeFactory : Except Raised Unit
  run : Reactions
  executionId : ExecutionId
  startClock : Except Raised UtcTimestamp
  executor : Except Raised ExecutionReport
  endClock : Except Raised UtcTimestamp
  append : Fault

/-- The collaborators of `ActivationService`, with the manifests that stand on the host. -/
structure ActivationService where
  manifests : Slug → Except Raised InstalledRevision
  registered : List ExecutorType
  runtime : RuntimeService

/-- `except (TransientInfrastructureError, PermanentInfrastructureError)`. -/
def isUnreachable : Raised → Bool
  | .taskControl error =>
      error.errorClass == .transientInfrastructure || error.errorClass == .permanentInfrastructure
  | _ => false

/-- `except TransientInfrastructureError`. -/
def isTransient : Raised → Bool
  | .taskControl error => error.errorClass == .transientInfrastructure
  | _ => false

def quoted (slug : Slug) : Text := '\'' :: slug.value ++ ['\'']

def strictExplanation (installed : InstalledRevision) : Text :=
  quoted installed.slug ++
    (" requires a durable record of every run, and TaskControl's control state is " ++
      "unreachable. The work was not started. It will be reconciled as an infrastructure " ++
      "failure once the database returns.").toList

def secretsExplanation (installed : InstalledRevision) : Text :=
  quoted installed.slug ++
    (" needs secrets that only the control plane can resolve, and it is unreachable. Running " ++
      "with an incomplete environment would look like success, so the work was not " ++
      "started.").toList

def unrecordedExplanation (installed : InstalledRevision) : Text :=
  quoted installed.slug ++
    (" ran, and TaskControl could not record that it ran. Treat this run as having happened; " ++
      "there is no record of it.").toList

def declined (explanation : Text) : ActivationResult :=
  ⟨exitDeclined, none, true, false, explanation⟩

/-- The status of work that ran. -/
def exitFor (outcome : ExecutionOutcome) : Nat :=
  if outcome = .succeeded then exitSuccess else exitFailed

/-- The result of a run on the recorded path; `succeeded` asserts that there is an outcome. -/
def recordedResult (result : RunResult) : Except Raised ActivationResult :=
  match result.execution.outcome with
  | none => .error (.other "AssertionError")
  | some outcome =>
      .ok ⟨exitFor outcome, some outcome, false, false, result.execution.explanation⟩

/-- The journal entry of a degraded run. -/
def entryFor (installed : InstalledRevision) (triggerSource : TriggerSource)
    (executionId : ExecutionId) (startedAt finishedAt : UtcTimestamp) (result : ProcessResult) :
    JournalEntry :=
  let classification := classifyReport result
  { executionId
    taskId := installed.taskId
    slug := installed.slug
    revisionId := installed.revisionId
    contentDigest := installed.contentDigest
    triggerSource
    startedAt
    finishedAt
    outcome := classification.outcome
    reasonCode := classification.reasonCode
    exitCode := result.exitCode
    signalNumber := result.signalNumber
    terminationCause := result.terminationCause
    explanation := classification.explanation ++
      " Run without the control plane, so no overlap protection was in force.".toList }

/-- `journal.append`, which may fail on either side of the write. -/
def append (fault : Fault) (entry : JournalEntry) : Program Raised World Unit := do
  if fault.commits then
    modify fun world => { world with journal := world.journal ++ [entry] }
  answer fault.raised

namespace ActivationService

/-- `executors.get`. -/
def executorFor (service : ActivationService) (executorType : ExecutorType) :
    Except TaskControlError Unit :=
  if executorType ∈ service.registered then .ok () else .error unregistered

/-- `_run_and_journal`. -/
def runAndJournal (service : ActivationService) (reactions : ActivationReactions)
    (installed : InstalledRevision) (triggerSource : TriggerSource) :
    Program Raised World ActivationResult := do
  let startedAt ← answer reactions.startClock
  domain (service.executorFor installed.action.executorType)
  let report ← RuntimeService.launch .degraded reactions.executor
    (RuntimeService.requestFor installed.action installed.action.literalEnvironment
      installed.controls) installed.controls
  let finishedAt ← answer reactions.endClock
  let entry := entryFor installed triggerSource reactions.executionId startedAt finishedAt
    report.result
  handle
    (do
      append reactions.append entry
      return ⟨exitFor entry.outcome, some entry.outcome, true, true, entry.explanation⟩)
    fun raised =>
      if isTransient raised then
        return ⟨exitUnrecorded, some entry.outcome, true, false, unrecordedExplanation installed⟩
      else throw raised

/-- `_activate_degraded`. -/
def activateDegraded (service : ActivationService) (reactions : ActivationReactions)
    (installed : InstalledRevision) (triggerSource : TriggerSource) :
    Program Raised World ActivationResult :=
  if ¬ installed.activationPolicy.executesWithoutControlState then
    return declined (strictExplanation installed)
  else if installed.requiresUnresolvableSecrets then
    return declined (secretsExplanation installed)
  else runAndJournal service reactions installed triggerSource

def runRequest (installed : InstalledRevision) (triggerSource : TriggerSource) : RunRequest :=
  ⟨installed.taskId, triggerSource, none, none, none, []⟩

/-- The `try` of `activate`: the result of the recorded run, or nothing when the control plane
could not be reached. -/
def tryRecorded (service : ActivationService) (reactions : ActivationReactions)
    (installed : InstalledRevision) (triggerSource : TriggerSource) :
    Program Raised World (Option RunResult) :=
  handle
    (do
      answer reactions.runtimeFactory
      return some (← service.runtime.run reactions.run (runRequest installed triggerSource)))
    fun raised => if isUnreachable raised then return none else throw raised

/-- `activate`. -/
def activate (service : ActivationService) (reactions : ActivationReactions) (slug : Slug)
    (triggerSource : TriggerSource) : Program Raised World ActivationResult := do
  let installed ← answer (service.manifests slug)
  match ← tryRecorded service reactions installed triggerSource with
  | none => activateDegraded service reactions installed triggerSource
  | some result => answer (recordedResult result)

end ActivationService

end TaskControl.Activation
