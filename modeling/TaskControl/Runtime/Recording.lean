import TaskControl.Domain.Endings
import TaskControl.Domain.Histories
import TaskControl.Runtime.Service

/-!
# Recording a classification

What the runtime makes of a process result is put on the execution with the reason
of the retry decision behind it.  The execution takes it exactly when the two
together fit the space that an explanation has.
-/

set_option autoImplicit false

namespace TaskControl.Runtime

open PythonText LinePattern RuntimeService

/-! ## The final explanation -/

/-- A text that strips to itself, and ends a sentence. -/
def Spoken (t : Text) : Prop :=
  (∃ c rest, t = c :: rest ∧ isSpace c = false) ∧ t.getLast? = some '.'

theorem getLast?_words (front : Text) {words : Text} (stops : words.getLast? = some '.') :
    (front ++ words).getLast? = some '.' := by
  rw [List.getLast?_append, stops]
  rfl

theorem wire_starts (outcome : ExecutionOutcome) (rest : Text) :
    ∃ c more, outcome.wire.toList ++ rest = c :: more ∧ isSpace c = false := by
  cases outcome <;> exact ⟨_, _, rfl, rfl⟩

theorem spoken_ite {condition : Prop} [Decidable condition] {yes no : RetryDecision}
    (first : Spoken yes.reason) (second : Spoken no.reason) :
    Spoken (if condition then yes else no).reason := by
  split
  · exact first
  · exact second

theorem decideRetry_spoken (outcome : ExecutionOutcome) (policy : RetryPolicy)
    (attemptsMade : Nat) : Spoken (decideRetry outcome policy attemptsMade).reason := by
  have never : Spoken (outcome.wire.toList ++ " is never retried.".toList) :=
    ⟨wire_starts outcome _, getLast?_words _ rfl⟩
  have optIn : Spoken (outcome.wire.toList ++
      (" is retried only when the task opts in, because the work may have partially " ++
        "applied its effects.").toList) :=
    ⟨wire_starts outcome _, getLast?_words _ (by decide +kernel)⟩
  have again : Spoken (outcome.wire.toList ++ " is retryable; attempt ".toList ++
      decimal (attemptsMade + 1) ++ " of ".toList ++ decimal policy.maxAttempts ++ ['.']) := by
    refine ⟨?_, getLast?_words _ rfl⟩
    simp only [List.append_assoc]
    exact wire_starts outcome _
  have single : Spoken "The task's retry policy allows a single attempt.".toList :=
    ⟨⟨_, _, rfl, rfl⟩, by decide +kernel⟩
  have exhausted : Spoken ("Retries exhausted after ".toList ++ decimal attemptsMade ++
      " of ".toList ++ decimal policy.maxAttempts ++ " attempts.".toList) :=
    ⟨⟨_, _, rfl, rfl⟩, getLast?_words _ rfl⟩
  exact spoken_ite never (spoken_ite single (spoken_ite exhausted (spoken_ite optIn again)))

/-- White space in front of a sentence is stripped, and all of a front that has nothing else. -/
theorem strip_sentence {note : Text} (spoken : Spoken note) (front : Text) :
    strip (front ++ ' ' :: note) = if lstrip front = [] then note else lstrip front ++ ' ' :: note := by
  obtain ⟨⟨c, rest, starts, solid⟩, stops⟩ := spoken
  obtain ⟨init, ends⟩ := List.getLast?_eq_some_iff.mp stops
  have kept (t : Text) : rstrip (t ++ note) = t ++ note := by
    rw [ends, ← List.append_assoc, rstrip_concat (by decide)]
  have bare : lstrip (' ' :: note) = note := by
    rw [lstrip_space, starts, lstrip_cons solid]
  have left : lstrip (front ++ ' ' :: note) =
      if lstrip front = [] then note else lstrip front ++ ' ' :: note := by
    rw [lstrip, List.dropWhile_append, ← lstrip, ← lstrip, bare]
    simp only [List.isEmpty_iff]
  rw [strip, left]
  split
  · exact kept []
  · rw [← List.singleton_append, ← List.append_assoc]
    exact kept _

theorem finalExplanation_length (classification : Classification) (retry : RetryDecision)
    (spoken : Spoken retry.reason) :
    (finalExplanation classification retry).length = (lstrip classification.explanation).length +
      (if lstrip classification.explanation = [] then 0 else 1) + retry.reason.length := by
  rw [finalExplanation, strip_sentence spoken]
  split
  · next blank => rw [blank, List.length_nil, Nat.zero_add]
  · rw [List.length_append, List.length_cons]
    omega

/-! ## What the execution takes -/

/-- An open execution is finished with an explained outcome exactly when the explanation fits. -/
theorem finish_accepts_iff {execution : Execution} (open_ : execution.isFinished = false)
    {outcome : ExecutionOutcome} {reasonCode : Option ReasonCode}
    (reasoned : reasonComplaint outcome reasonCode = none) (explanation : Text)
    (finishedAt : UtcTimestamp) :
    (∃ finished, execution.finish outcome finishedAt reasonCode explanation = .ok finished) ↔
      explanation.length ≤ maxExplanationLength := by
  constructor
  · rintro ⟨finished, done⟩
    by_contra long
    rw [Execution.finish_long open_ reasoned (by omega)] at done
    cases done
  · intro fits
    obtain ⟨finished, done, _⟩ := Execution.finish_ok open_ reasoned fits finishedAt
    exact ⟨finished, done⟩

section

variable (result : ProcessResult) (evidence : ExpectationEvidence) (successfulCodes : List Int)
  (policy : RetryPolicy) (execution : Execution) (finishedAt : UtcTimestamp)

/-- What the runtime records of a result: the classification, with the reason of the retry
decision behind its explanation. -/
structure Recorded : Prop where
  accepted : ∃ finished, execution.finish
    (classifyProcessResult result evidence successfulCodes).outcome finishedAt
    (classifyProcessResult result evidence successfulCodes).reasonCode
    (finalExplanation (classifyProcessResult result evidence successfulCodes)
      (decideRetry (classifyProcessResult result evidence successfulCodes).outcome policy
        execution.attemptCount)) = .ok finished
  succeeded : (classifyProcessResult result evidence successfulCodes).outcome = .succeeded ↔
    Succeeds result evidence successfulCodes
  belongs : ∀ code ∈ (classifyProcessResult result evidence successfulCodes).reasonCode,
    code.belongsTo (classifyProcessResult result evidence successfulCodes).outcome = true

/-- The characters that a result and its retry decision take together. -/
def spaceNeeded : Nat :=
  (ending result evidence successfulCodes).spokenLength +
    retryLength (ending result evidence successfulCodes).outcome policy execution.attemptCount

theorem accepted_iff (open_ : execution.isFinished = false) :
    (∃ finished, execution.finish
      (classifyProcessResult result evidence successfulCodes).outcome finishedAt
      (classifyProcessResult result evidence successfulCodes).reasonCode
      (finalExplanation (classifyProcessResult result evidence successfulCodes)
        (decideRetry (classifyProcessResult result evidence successfulCodes).outcome policy
          execution.attemptCount)) = .ok finished) ↔
      spaceNeeded result evidence successfulCodes policy execution ≤ maxExplanationLength := by
  have words := classify_words result evidence successfulCodes
  obtain ⟨stated, belongs⟩ := classifyProcessResult_explained result evidence successfulCodes
  rw [finish_accepts_iff open_ (reasonComplaint_explained stated belongs),
    finalExplanation_length _ _ (decideRetry_spoken _ _ _), words.spoken, words.outcome,
    decideRetry_length]
  rfl

/-- What comes of a process result is recorded on a running execution exactly when the words for
it have the space of an explanation. -/
theorem classification_recorded_iff (running : execution.state = .running) :
    Recorded result evidence successfulCodes policy execution finishedAt ↔
      spaceNeeded result evidence successfulCodes policy execution ≤ maxExplanationLength := by
  have open_ : execution.isFinished = false := by
    rw [Execution.isFinished, running]
    rfl
  rw [← accepted_iff result evidence successfulCodes policy execution finishedAt open_]
  constructor
  · exact fun recorded => recorded.accepted
  · intro accepted
    exact ⟨accepted, classify_succeeds_iff result evidence successfulCodes,
      (classifyProcessResult_explained result evidence successfulCodes).2⟩

end

/-! ## Results of a nightly run -/

namespace Nightly

open TaskControl.Nightly

theorem running_consistent : ({ fields with state := .running } : ExecutionFields).complaint = none :=
  rfl

def running : Execution := ⟨{ fields with state := .running }, running_consistent⟩

theorem positive : 1 ≤ 1 := Nat.le_refl 1

theorem bounded : 1 ≤ maxRetryAttempts := by decide

theorem delays : Duration.zero.seconds ≤ Duration.zero.seconds := Nat.le_refl 0

/-- A single attempt. -/
def policy : RetryPolicy where
  maxAttempts := 1
  backoff := .fixed
  baseDelay := .zero
  maxDelay := .zero
  retryOutcomeFailures := false
  retryTimeouts := false
  positive := positive
  attemptsBounded := bounded
  delaysOrdered := delays

/-- An error text of the length that an explanation may have. -/
def verbose : Text := List.replicate 4000 'x'

theorem verbose_cons : verbose = 'x' :: List.replicate 3999 'x' := List.replicate_succ

theorem verbose_explained :
    TerminationMode.notStarted = .notStarted → ∃ reason, some verbose = some reason ∧ reason ≠ [] :=
  fun _ => ⟨verbose, rfl, by rw [verbose_cons]; exact List.cons_ne_nil _ _⟩

theorem unexited : TerminationMode.notStarted = .exited →
    ∃ code, (none : Option Int) = some code ∧ 0 ≤ code ∧ code ≤ maxExitCode := by simp

theorem unsignalled : TerminationMode.notStarted = .signalled ↔ (none : Option Int) ≠ none := by simp

/-- The program could not be started, and the reason is as long as an explanation may be. -/
def unlaunched : ProcessResult where
  termination := .notStarted
  duration := .zero
  exitCode := none
  signalNumber := none
  terminationCause := .notTerminated
  launchError := some verbose
  exitReported := unexited
  exitWithheld := fun _ => rfl
  signalReported := unsignalled
  launchExplained := verbose_explained

end Nightly

theorem classification_recorded_success :
    Recorded TaskControl.Nightly.succeeded .none [0] Nightly.policy Nightly.running ⟨0⟩ :=
  (classification_recorded_iff TaskControl.Nightly.succeeded .none [0] Nightly.policy Nightly.running
    ⟨0⟩ rfl).mpr (by decide +kernel)

/-- A process that could not be started, with a long reason, cannot be recorded. -/
theorem long_launch_error_refused :
    ¬ Recorded Nightly.unlaunched .none [0] Nightly.policy Nightly.running ⟨0⟩ := by
  rintro ⟨accepted, _, _⟩
  rw [accepted_iff _ _ _ _ _ _ rfl] at accepted
  have spoken : (ending Nightly.unlaunched .none [0]).spokenLength = 4001 := by
    change (if lstrip Nightly.verbose = [] then 0 else (lstrip Nightly.verbose).length + 1) = 4001
    rw [Nightly.verbose_cons, lstrip_cons (by decide), if_neg (List.cons_ne_nil _ _),
      List.length_cons, List.length_replicate]
  unfold spaceNeeded at accepted
  rw [spoken, maxExplanationLength] at accepted
  omega

end TaskControl.Runtime
