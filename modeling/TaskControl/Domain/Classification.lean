import TaskControl.Domain.Results
import TaskControl.Domain.Vocabulary

/-!
# Turning evidence into a decision

The classification of a process result and the decision to retry, as pure
functions of the stored inputs.
-/

set_option autoImplicit false

namespace TaskControl

open PythonText

structure ExpectationEvidence where
  requiredTotal : Nat
  requiredFailed : Nat
  evaluationErrored : Bool

/-- What classification reads where no expectations were configured. -/
def ExpectationEvidence.none : ExpectationEvidence := ⟨0, 0, false⟩

structure Classification where
  outcome : ExecutionOutcome
  reasonCode : Option ReasonCode
  explanation : Text

/-- `f"{number}"` for a field that may be absent. -/
def optionalNumber : Option Int → Text
  | some number => (toString number).toList
  | none => "None".toList

/-- A signal detail is shown for a number that is set and not zero. -/
def signalDetail : Option Int → Text
  | some number => if number = 0 then [] else " (signal ".toList ++ (toString number).toList ++ [')']
  | none => []

def terminationExplanation (result : ProcessResult) : Text :=
  match result.terminationCause with
  | .runTimeout =>
      "The process exceeded its timeout after ".toList ++ result.duration.text ++
        signalDetail result.signalNumber ++ ['.']
  | .cancellationRequested =>
      "The process was cancelled after ".toList ++ result.duration.text ++
        signalDetail result.signalNumber ++ ['.']
  | .superseded =>
      "The process was superseded by a newer run after ".toList ++ result.duration.text ++ ['.']
  | .external =>
      "The process was terminated by something outside TaskControl after ".toList ++
        result.duration.text ++ signalDetail result.signalNumber ++ ['.']
  | .notTerminated => "The process was not terminated.".toList

/-- `_TERMINATION_CLASSIFICATION`; a process that was not terminated has no entry. -/
def terminationClassification : TerminationCause → Option (ExecutionOutcome × ReasonCode)
  | .runTimeout => some (.timedOut, ReasonCodes.timedOutRunTimeoutExceeded)
  | .cancellationRequested => some (.cancelled, ReasonCodes.cancelledRequestedByUser)
  | .superseded => some (.cancelled, ReasonCodes.cancelledSuperseded)
  | .external => some (.failed, ReasonCodes.failedTerminatedExternally)
  | .notTerminated => none

/-- The checks on a process that ended on its own. -/
def classifyExited (result : ProcessResult) (evidence : ExpectationEvidence)
    (successfulCodes : List Int) : Classification :=
  if ¬ ∃ code ∈ result.exitCode, code ∈ successfulCodes then
    ⟨.failed, none,
      "The process exited with status ".toList ++ optionalNumber result.exitCode ++ ['.']⟩
  else if evidence.evaluationErrored then
    ⟨.outcomeFailed, none,
      ("The process succeeded, but an expected-outcome evaluator failed, " ++
        "so success could not be confirmed.").toList⟩
  else if 0 < evidence.requiredFailed then
    ⟨.outcomeFailed, none,
      "The process exited with status ".toList ++ optionalNumber result.exitCode ++
        ", but ".toList ++ decimal evidence.requiredFailed ++ " of ".toList ++
        decimal evidence.requiredTotal ++
        " required expected outcomes did not pass.".toList⟩
  else
    ⟨.succeeded, none,
      "The process exited with status ".toList ++ optionalNumber result.exitCode ++
        if evidence.requiredTotal = 0 then ['.']
        else " and every required expected outcome passed.".toList⟩

/-- `classify_process_result`. -/
def classifyProcessResult (result : ProcessResult) (evidence : ExpectationEvidence)
    (successfulCodes : List Int) : Classification :=
  match result.termination with
  | .notStarted =>
      ⟨.launchFailed, none,
        match result.launchError with
        | some (c :: reason) => c :: reason
        | _ => "The process could not be started.".toList⟩
  | .abandoned =>
      ⟨.unknown, none,
        ("The runtime lost track of the process, so its result cannot be proven. " ++
          "This execution requires reconciliation.").toList⟩
  | mode =>
      match terminationClassification result.terminationCause with
      | some (outcome, reasonCode) => ⟨outcome, some reasonCode, terminationExplanation result⟩
      | none =>
          if mode = .signalled then
            ⟨.failed, some ReasonCodes.failedTerminatedExternally,
              "The process was terminated by signal ".toList ++
                optionalNumber result.signalNumber ++
                ", which TaskControl did not send.".toList⟩
          else classifyExited result evidence successfulCodes

/-- The call both activation paths make: no evidence, and status zero means success. -/
def classifyReport (result : ProcessResult) : Classification :=
  classifyProcessResult result .none [0]

/-- A classification gives each outcome the reason code it needs. -/
def Classification.Explained (classification : Classification) : Prop :=
  (classification.outcome.requiresReasonCode = true → classification.reasonCode ≠ none) ∧
    ∀ code ∈ classification.reasonCode, code.belongsTo classification.outcome = true

theorem classifyExited_explained (result : ProcessResult) (evidence : ExpectationEvidence)
    (successfulCodes : List Int) : (classifyExited result evidence successfulCodes).Explained := by
  unfold classifyExited
  split
  · simp [Classification.Explained, ExecutionOutcome.requiresReasonCode]
  · split
    · simp [Classification.Explained, ExecutionOutcome.requiresReasonCode]
    · split <;> simp [Classification.Explained, ExecutionOutcome.requiresReasonCode]

theorem terminationClassification_explained {cause : TerminationCause}
    {outcome : ExecutionOutcome} {code : ReasonCode}
    (found : terminationClassification cause = some (outcome, code)) :
    code.belongsTo outcome = true := by
  cases cause <;> simp only [terminationClassification, Option.some.injEq, Prod.mk.injEq,
    reduceCtorEq] at found <;> (obtain ⟨rfl, rfl⟩ := found; rfl)

theorem classifyProcessResult_explained (result : ProcessResult) (evidence : ExpectationEvidence)
    (successfulCodes : List Int) :
    (classifyProcessResult result evidence successfulCodes).Explained := by
  unfold classifyProcessResult
  split
  · simp [Classification.Explained, ExecutionOutcome.requiresReasonCode]
  · simp [Classification.Explained, ExecutionOutcome.requiresReasonCode]
  · split
    · next found =>
        refine ⟨by simp, ?_⟩
        intro code named
        cases named
        exact terminationClassification_explained found
    · split
      · simp [Classification.Explained, ExecutionOutcome.requiresReasonCode,
          ReasonCode.belongsTo, ReasonCodes.failedTerminatedExternally]
      · exact classifyExited_explained result evidence successfulCodes

/-! ## Retries -/

structure RetryDecision where
  shouldRetry : Bool
  reason : Text

/-- `decide_retry`. -/
def decideRetry (outcome : ExecutionOutcome) (policy : RetryPolicy) (attemptsMade : Nat) :
    RetryDecision :=
  if outcome.retryEligibility = .never then
    ⟨false, outcome.wire.toList ++ " is never retried.".toList⟩
  else if ¬ policy.retriesEnabled then
    ⟨false, "The task's retry policy allows a single attempt.".toList⟩
  else if policy.maxAttempts ≤ attemptsMade then
    ⟨false, "Retries exhausted after ".toList ++ decimal attemptsMade ++ " of ".toList ++
      decimal policy.maxAttempts ++ " attempts.".toList⟩
  else if outcome.retryEligibility = .byPolicy ∧
      ¬ (if outcome = .outcomeFailed then policy.retryOutcomeFailures else policy.retryTimeouts) then
    ⟨false, outcome.wire.toList ++
      (" is retried only when the task opts in, because the work may have partially " ++
        "applied its effects.").toList⟩
  else
    ⟨true, outcome.wire.toList ++ " is retryable; attempt ".toList ++ decimal (attemptsMade + 1) ++
      " of ".toList ++ decimal policy.maxAttempts ++ ['.']⟩

/-- A retry is decided only below the number of attempts that the policy allows. -/
theorem decideRetry_bounded {outcome : ExecutionOutcome} {policy : RetryPolicy}
    {attemptsMade : Nat} (retries : (decideRetry outcome policy attemptsMade).shouldRetry = true) :
    attemptsMade < policy.maxAttempts := by
  unfold decideRetry at retries
  split at retries
  · cases retries
  · split at retries
    · cases retries
    · split at retries
      · cases retries
      · next more => omega

end TaskControl
