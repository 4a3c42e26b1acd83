import TaskControl.Domain.Values

/-!
# Process results and execution controls

What one operating-system process did, and the policies that govern retries,
timeouts and overlap.  Each structure carries the checks of its constructor.
-/

set_option autoImplicit false

namespace TaskControl

open PythonText

/-! ## Durations -/

def Duration.zero : Duration := ⟨0, Nat.zero_le _⟩

def Duration.isZero (span : Duration) : Bool := span.seconds == 0

def decimal (n : Nat) : Text := (toString n).toList

/-- `str(duration)`: hours, minutes and seconds, leaving out what is zero. -/
def Duration.text (span : Duration) : Text :=
  if span.seconds = 0 then "0s".toList
  else
    let hours := span.seconds / 3600
    let minutes := span.seconds % 3600 / 60
    let seconds := span.seconds % 3600 % 60
    (if hours = 0 then [] else decimal hours ++ ['h']) ++
      (if minutes = 0 then [] else decimal minutes ++ ['m']) ++
      (if seconds = 0 then [] else decimal seconds ++ ['s'])

/-! ## What a process did -/

inductive TerminationCause where
  | notTerminated
  | runTimeout
  | cancellationRequested
  | superseded
  | external
  deriving DecidableEq, Repr

def TerminationCause.wire : TerminationCause → String
  | .notTerminated => "not_terminated"
  | .runTimeout => "run_timeout"
  | .cancellationRequested => "cancellation_requested"
  | .superseded => "superseded"
  | .external => "external"

inductive TerminationMode where
  | exited
  | signalled
  | notStarted
  | abandoned
  deriving DecidableEq, Repr

def maxExitCode : Int := 255

/-- The sizes and the truncation mark of the captured output are read by no modelled
function and left out. -/
structure ProcessResult where
  termination : TerminationMode
  duration : Duration
  exitCode : Option Int
  signalNumber : Option Int
  terminationCause : TerminationCause
  launchError : Option Text
  exitReported : termination = .exited → ∃ code, exitCode = some code ∧ 0 ≤ code ∧ code ≤ maxExitCode
  exitWithheld : termination ≠ .exited → exitCode = none
  signalReported : termination = .signalled ↔ signalNumber ≠ none
  launchExplained : termination = .notStarted → ∃ reason, launchError = some reason ∧ reason ≠ []

namespace ProcessResult

def wasTerminated (result : ProcessResult) : Bool := result.terminationCause != .notTerminated

theorem exited_exitReported {code : Int} (bounds : 0 ≤ code ∧ code ≤ maxExitCode) :
    ∃ reported, some code = some reported ∧ 0 ≤ reported ∧ reported ≤ maxExitCode :=
  ⟨code, rfl, bounds⟩

/-- A process that ran to completion. -/
def exited (code : Int) (bounds : 0 ≤ code ∧ code ≤ maxExitCode) (duration : Duration) :
    ProcessResult where
  termination := .exited
  duration := duration
  exitCode := some code
  signalNumber := none
  terminationCause := .notTerminated
  launchError := none
  exitReported := fun _ => exited_exitReported bounds
  exitWithheld := by simp
  signalReported := by simp
  launchExplained := by simp

end ProcessResult

/-! ## Policies -/

inductive BackoffStrategy where
  | fixed
  | linear
  | exponential
  deriving DecidableEq, Repr

def BackoffStrategy.wire : BackoffStrategy → String
  | .fixed => "fixed"
  | .linear => "linear"
  | .exponential => "exponential"

def maxRetryAttempts : Nat := 100

structure RetryPolicy where
  maxAttempts : Nat
  backoff : BackoffStrategy
  baseDelay : Duration
  maxDelay : Duration
  retryOutcomeFailures : Bool
  retryTimeouts : Bool
  positive : 1 ≤ maxAttempts
  attemptsBounded : maxAttempts ≤ maxRetryAttempts
  delaysOrdered : baseDelay.seconds ≤ maxDelay.seconds

def RetryPolicy.retriesEnabled (policy : RetryPolicy) : Bool := decide (1 < policy.maxAttempts)

structure TimeoutPolicy where
  runTimeout : Duration
  terminationGrace : Duration
  enforced : runTimeout.isZero = true → terminationGrace.isZero = true

inductive OverlapPolicy where
  | allow
  | forbid
  | queue
  | replace
  deriving DecidableEq, Repr

def OverlapPolicy.wire : OverlapPolicy → String
  | .allow => "allow"
  | .forbid => "forbid"
  | .queue => "queue"
  | .replace => "replace"

end TaskControl
