import TaskControl.Domain.Classification
import TaskControl.Foundation.LinePattern

/-!
# How a process ended

What a process result comes to, before it is put into words: an `Ending` has the
outcome of the classification and knows how much space its sentence takes.  Only a
launch error, a signal number and the counts of the evidence have no bound.
-/

set_option autoImplicit false

namespace TaskControl

open PythonText LinePattern

/-- What happened to the process. -/
inductive Ending where
  | unlaunched (reason : Text)
  | lost
  | terminated (cause : TerminationCause) (after : Duration) (signal : Option Int)
  | signalled (signal : Option Int)
  | unexpected (code : Option Int)
  | unevaluated
  | unmet (code : Option Int) (failed total : Nat)
  | succeeded (code : Option Int) (total : Nat)

/-- What a result comes to, with the evidence and the exit codes that mean success. -/
def ending (result : ProcessResult) (evidence : ExpectationEvidence) (successfulCodes : List Int) :
    Ending :=
  match result.termination with
  | .notStarted => .unlaunched (result.launchError.getD [])
  | .abandoned => .lost
  | mode =>
      if result.terminationCause ≠ .notTerminated then
        .terminated result.terminationCause result.duration result.signalNumber
      else if mode = .signalled then .signalled result.signalNumber
      else if ¬ ∃ code ∈ result.exitCode, code ∈ successfulCodes then .unexpected result.exitCode
      else if evidence.evaluationErrored then .unevaluated
      else if 0 < evidence.requiredFailed then
        .unmet result.exitCode evidence.requiredFailed evidence.requiredTotal
      else .succeeded result.exitCode evidence.requiredTotal

namespace Ending

def outcome : Ending → ExecutionOutcome
  | .unlaunched _ => .launchFailed
  | .lost => .unknown
  | .terminated .runTimeout _ _ => .timedOut
  | .terminated .cancellationRequested _ _ => .cancelled
  | .terminated .superseded _ _ => .cancelled
  | .terminated _ _ _ => .failed
  | .signalled _ => .failed
  | .unexpected _ => .failed
  | .unevaluated => .outcomeFailed
  | .unmet _ _ _ => .outcomeFailed
  | .succeeded _ _ => .succeeded

/-- The characters of a fixed phrase. -/
def phrase (words : String) : Nat := words.toList.length

/-- The characters that the sentence on the ending takes: those of its fixed words and of the
values that it names. -/
def sentenceLength : Ending → Nat
  | .unlaunched reason => reason.length
  | .lost => phrase ("The runtime lost track of the process, so its result cannot be proven. " ++
      "This execution requires reconciliation.")
  | .terminated .runTimeout after signal =>
      phrase "The process exceeded its timeout after " + after.text.length +
        (signalDetail signal).length + 1
  | .terminated .cancellationRequested after signal =>
      phrase "The process was cancelled after " + after.text.length + (signalDetail signal).length + 1
  | .terminated .superseded after _ =>
      phrase "The process was superseded by a newer run after " + after.text.length + 1
  | .terminated .external after signal =>
      phrase "The process was terminated by something outside TaskControl after " +
        after.text.length + (signalDetail signal).length + 1
  | .terminated .notTerminated _ _ => phrase "The process was not terminated."
  | .signalled signal =>
      phrase "The process was terminated by signal " + (optionalNumber signal).length +
        phrase ", which TaskControl did not send."
  | .unexpected code => phrase "The process exited with status " + (optionalNumber code).length + 1
  | .unevaluated => phrase ("The process succeeded, but an expected-outcome evaluator failed, " ++
      "so success could not be confirmed.")
  | .unmet code failed total =>
      phrase "The process exited with status " + (optionalNumber code).length + phrase ", but " +
        (decimal failed).length + phrase " of " + (decimal total).length +
        phrase " required expected outcomes did not pass."
  | .succeeded code total =>
      phrase "The process exited with status " + (optionalNumber code).length +
        if total = 0 then 1 else phrase " and every required expected outcome passed."

/-- The characters in front of a retry reason that follows the sentence: leading white space of
a launch error is stripped, and so is the blank after one that has nothing else. -/
def spokenLength : Ending → Nat
  | .unlaunched reason => if lstrip reason = [] then 0 else (lstrip reason).length + 1
  | ending => ending.sentenceLength + 1

end Ending

/-- The characters that the reason of a retry decision takes. -/
def retryLength (outcome : ExecutionOutcome) (policy : RetryPolicy) (attemptsMade : Nat) : Nat :=
  if outcome.retryEligibility = .never then
    Ending.phrase outcome.wire + Ending.phrase " is never retried."
  else if ¬ policy.retriesEnabled then
    Ending.phrase "The task's retry policy allows a single attempt."
  else if policy.maxAttempts ≤ attemptsMade then
    Ending.phrase "Retries exhausted after " + (decimal attemptsMade).length +
      Ending.phrase " of " + (decimal policy.maxAttempts).length + Ending.phrase " attempts."
  else if outcome.retryEligibility = .byPolicy ∧
      ¬ (if outcome = .outcomeFailed then policy.retryOutcomeFailures else policy.retryTimeouts) then
    Ending.phrase outcome.wire +
      Ending.phrase (" is retried only when the task opts in, because the work may have partially " ++
        "applied its effects.")
  else
    Ending.phrase outcome.wire + Ending.phrase " is retryable; attempt " +
      (decimal (attemptsMade + 1)).length + Ending.phrase " of " +
      (decimal policy.maxAttempts).length + 1

theorem decideRetry_length (outcome : ExecutionOutcome) (policy : RetryPolicy)
    (attemptsMade : Nat) :
    (decideRetry outcome policy attemptsMade).reason.length =
      retryLength outcome policy attemptsMade := by
  unfold decideRetry retryLength
  split_ifs <;> simp only [Ending.phrase, List.length_append, List.length_singleton]

/-! ## The classification of an ending -/

section

variable (result : ProcessResult) (evidence : ExpectationEvidence) (successfulCodes : List Int)

/-- What the classification keeps of the ending. -/
structure Words (classification : Classification) (ending : Ending) : Prop where
  outcome : classification.outcome = ending.outcome
  length : classification.explanation.length = ending.sentenceLength
  spoken : (lstrip classification.explanation).length +
      (if lstrip classification.explanation = [] then 0 else 1) = ending.spokenLength

/-- A sentence that starts with a word is not stripped. -/
theorem Words.of_start {classification : Classification} {ending : Ending}
    (outcome : classification.outcome = ending.outcome)
    (length : classification.explanation.length = ending.sentenceLength) {c : Char} {rest : Text}
    (starts : classification.explanation = c :: rest) (solid : isSpace c = false)
    (spoken : ending.spokenLength = ending.sentenceLength + 1) : Words classification ending where
  outcome := outcome
  length := length
  spoken := by
    rw [spoken, ← length, starts, lstrip_cons solid, if_neg (List.cons_ne_nil c rest)]

theorem classifyExited_words (reported : result.termination = .exited)
    (untouched : result.terminationCause = .notTerminated) :
    Words (classifyExited result evidence successfulCodes)
      (ending result evidence successfulCodes) := by
  have solid : isSpace 'T' = false := rfl
  unfold classifyExited ending
  rw [reported, untouched]
  simp only [ne_eq, not_true_eq_false, if_false, reduceCtorEq]
  split
  · refine .of_start rfl ?_ rfl solid rfl
    simp only [Ending.sentenceLength, Ending.phrase, List.length_append, List.length_singleton]
  · split
    · exact .of_start rfl rfl rfl solid rfl
    · split
      · refine .of_start rfl ?_ rfl solid rfl
        simp only [Ending.sentenceLength, Ending.phrase, List.length_append]
      · refine .of_start rfl ?_ rfl solid rfl
        rw [List.length_append, List.length_append, apply_ite List.length]
        rfl

theorem terminationClassification_some {cause : TerminationCause}
    (terminated : cause ≠ .notTerminated) :
    ∃ classified, terminationClassification cause = some classified := by
  cases cause with
  | notTerminated => exact absurd rfl terminated
  | _ => exact ⟨_, rfl⟩

theorem terminated_words {outcome : ExecutionOutcome} {code : ReasonCode}
    (found : terminationClassification result.terminationCause = some (outcome, code)) :
    Words ⟨outcome, some code, terminationExplanation result⟩
      (.terminated result.terminationCause result.duration result.signalNumber) := by
  have solid : isSpace 'T' = false := rfl
  unfold terminationExplanation
  cases cause : result.terminationCause <;> rw [cause] at found <;>
    simp only [terminationClassification, Option.some.injEq, Prod.mk.injEq, reduceCtorEq] at found
  all_goals
    obtain ⟨rfl, rfl⟩ := found
    refine .of_start rfl ?_ rfl solid rfl
    simp only [Ending.sentenceLength, Ending.phrase, List.length_append, List.length_singleton]

/-- The words of a classification take the space that its ending says. -/
theorem classify_words :
    Words (classifyProcessResult result evidence successfulCodes)
      (ending result evidence successfulCodes) := by
  have solid : isSpace 'T' = false := rfl
  cases mode : result.termination with
  | notStarted =>
      obtain ⟨reason, explained, some_⟩ := result.launchExplained mode
      obtain ⟨c, rest, rfl⟩ := List.exists_cons_of_ne_nil some_
      unfold classifyProcessResult ending
      rw [mode, explained]
      refine ⟨rfl, rfl, ?_⟩
      simp only [Ending.spokenLength, Option.getD_some]
      split
      · next blank => rw [blank, List.length_nil]
      · rfl
  | abandoned =>
      unfold classifyProcessResult ending
      rw [mode]
      exact .of_start rfl rfl rfl solid rfl
  | signalled =>
      unfold classifyProcessResult ending
      rw [mode]
      by_cases untouched : result.terminationCause = .notTerminated
      · rw [untouched]
        simp only [terminationClassification, ne_eq, not_true_eq_false, if_false, if_true]
        refine .of_start rfl ?_ rfl solid rfl
        simp only [Ending.sentenceLength, Ending.phrase, List.length_append]
      · obtain ⟨classified, found⟩ := terminationClassification_some untouched
        simp only [found, if_pos untouched]
        exact terminated_words result found
  | exited =>
      by_cases untouched : result.terminationCause = .notTerminated
      · have exited : classifyProcessResult result evidence successfulCodes =
            classifyExited result evidence successfulCodes := by
          unfold classifyProcessResult
          rw [mode, untouched]
          rfl
        rw [exited]
        exact classifyExited_words result evidence successfulCodes mode untouched
      · obtain ⟨classified, found⟩ := terminationClassification_some untouched
        unfold classifyProcessResult ending
        rw [mode]
        simp only [found, if_pos untouched]
        exact terminated_words result found

/-- Success is an exit of its own with an expected code, and no expectation failed. -/
def Succeeds : Prop :=
  result.termination = .exited ∧ result.terminationCause = .notTerminated ∧
    (∃ code ∈ result.exitCode, code ∈ successfulCodes) ∧
    evidence.evaluationErrored = false ∧ evidence.requiredFailed = 0

theorem ending_succeeds_iff :
    (ending result evidence successfulCodes).outcome = .succeeded ↔
      Succeeds result evidence successfulCodes := by
  unfold ending Succeeds
  cases result.termination with
  | notStarted => simp [Ending.outcome]
  | abandoned => simp [Ending.outcome]
  | signalled =>
      cases result.terminationCause <;> simp [Ending.outcome]
  | exited =>
      cases result.terminationCause with
      | notTerminated =>
          simp only [ne_eq, not_true_eq_false, if_false, reduceCtorEq, true_and]
          by_cases expected : ∃ code ∈ result.exitCode, code ∈ successfulCodes
          · rw [if_neg (not_not.mpr expected)]
            cases evidence.evaluationErrored with
            | true => simp [Ending.outcome]
            | false =>
                rcases Nat.eq_zero_or_pos evidence.requiredFailed with none | some_
                · simpa [Ending.outcome, none] using expected
                · simp [Ending.outcome, some_, Nat.ne_of_gt some_]
          · rw [if_pos expected]
            exact iff_of_false (by simp [Ending.outcome]) fun succeeds => expected succeeds.1
      | _ => simp [Ending.outcome]

theorem classify_succeeds_iff :
    (classifyProcessResult result evidence successfulCodes).outcome = .succeeded ↔
      Succeeds result evidence successfulCodes := by
  rw [(classify_words result evidence successfulCodes).outcome]
  exact ending_succeeds_iff result evidence successfulCodes

end

end TaskControl
