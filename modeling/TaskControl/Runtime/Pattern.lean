import TaskControl.Runtime.Service

/-!
# Patterns of failure

What the surroundings of a run decide, read off their answers without running
anything: how each attempt ends, which attempt is the last, what the run comes
to conclude or is struck by, and whether a terminal save takes effect.
-/

set_option autoImplicit false

namespace TaskControl.Runtime

open PythonText Effects Persistence

/-! ## One attempt -/

namespace AttemptReactions

/-- What an attempt comes to: the report, or the first exception that strikes it. -/
def reply (reactions : AttemptReactions) : Except Raised ExecutionReport := do
  let _ ← reactions.startClock
  reactions.begin_.raised
  let report ← reactions.executor
  let _ ← reactions.endClock
  reactions.record.raised
  return report

/-- Whether an attempt gets as far as its executor. -/
def launches (reactions : AttemptReactions) : Bool :=
  match reactions.startClock, reactions.begin_.raised with
  | .ok _, .ok _ => true
  | _, _ => false

theorem launches_of_reply {reactions : AttemptReactions} {report : ExecutionReport}
    (replied : reactions.reply = .ok report) : reactions.launches = true := by
  unfold reply at replied
  unfold launches
  obtain ⟨_, started, replied⟩ := except_bind_eq_ok.mp replied
  obtain ⟨_, begun, _⟩ := except_bind_eq_ok.mp replied
  rw [started, begun]

end AttemptReactions

/-! ## The attempts of a run -/

/-- Whether the policy answers the report of attempt `n` with another attempt. -/
def Retries (policy : RetryPolicy) (n : Nat) (report : ExecutionReport) : Prop :=
  (decideRetry (classifyReport report.result).outcome policy n).shouldRetry = true

instance (policy : RetryPolicy) (n : Nat) (report : ExecutionReport) :
    Decidable (Retries policy n report) :=
  inferInstanceAs (Decidable (_ = true))

/-- Every attempt before `n` was reported and retried. -/
def Reaches (reactions : Reactions) (policy : RetryPolicy) (n : Nat) : Prop :=
  1 ≤ n ∧ ∀ k, 1 ≤ k → k < n →
    ∃ report, (reactions.attempt k).reply = .ok report ∧ Retries policy k report

/-- Attempt `n` is the last: it was struck, or its report is not retried. -/
structure AttemptsEnd (reactions : Reactions) (policy : RetryPolicy) (n : Nat)
    (last : Except Raised ExecutionReport) : Prop where
  reached : Reaches reactions policy n
  replied : (reactions.attempt n).reply = last
  decided : ∀ report, last = .ok report → ¬ Retries policy n report

theorem reaches_first (reactions : Reactions) (policy : RetryPolicy) :
    Reaches reactions policy 1 :=
  ⟨le_rfl, fun k first before => absurd before (by omega)⟩

theorem Reaches.succ {reactions : Reactions} {policy : RetryPolicy} {n : Nat}
    {report : ExecutionReport} (reached : Reaches reactions policy n)
    (replied : (reactions.attempt n).reply = .ok report) (retried : Retries policy n report) :
    Reaches reactions policy (n + 1) := by
  refine ⟨by omega, ?_⟩
  intro k first before
  rcases Nat.lt_or_ge k n with earlier | last
  · exact reached.2 k first earlier
  · have same : k = n := by omega
    exact same ▸ ⟨report, replied, retried⟩

/-- No attempt follows the last one. -/
theorem AttemptsEnd.not_lt {reactions : Reactions} {policy : RetryPolicy} {n m : Nat}
    {last last' : Except Raised ExecutionReport} (first : AttemptsEnd reactions policy n last)
    (second : AttemptsEnd reactions policy m last') : ¬ n < m := by
  intro before
  obtain ⟨report, replied, retried⟩ := second.reached.2 n first.reached.1 before
  exact first.decided report (first.replied.symm.trans replied) retried

theorem AttemptsEnd.unique {reactions : Reactions} {policy : RetryPolicy} {n m : Nat}
    {last last' : Except Raised ExecutionReport} (first : AttemptsEnd reactions policy n last)
    (second : AttemptsEnd reactions policy m last') : n = m ∧ last = last' := by
  have same : n = m := by
    have notBefore := first.not_lt second
    have notAfter := second.not_lt first
    omega
  subst same
  exact ⟨rfl, first.replied.symm.trans second.replied⟩

/-! ## Terminal saves -/

/-- How an execution is said to have ended. -/
structure Verdict where
  outcome : ExecutionOutcome
  reasonCode : Option ReasonCode
  explanation : Text

/-- What `_finish` raises. -/
def finishing (clock : Except Raised UtcTimestamp) (fault : Fault) (verdict : Verdict) :
    Except Raised Unit := do
  let _ ← clock
  if maxExplanationLength < verdict.explanation.length then .error (.taskControl Execution.tooLong)
  else fault.raised

/-- Whether the save of `_finish` takes effect. -/
def Settles (clock : Except Raised UtcTimestamp) (fault : Fault) (verdict : Verdict) : Prop :=
  (∃ moment, clock = .ok moment) ∧ verdict.explanation.length ≤ maxExplanationLength ∧
    fault.commits = true

instance (clock : Except Raised UtcTimestamp) (fault : Fault) (verdict : Verdict) :
    Decidable (Settles clock fault verdict) :=
  match clock with
  | .ok moment =>
      decidable_of_iff (verdict.explanation.length ≤ maxExplanationLength ∧ fault.commits = true)
        (by simp [Settles])
  | .error raised => isFalse (by simp [Settles])

theorem settles_of_finishing {clock : Except Raised UtcTimestamp} {fault : Fault}
    {verdict : Verdict} (done : finishing clock fault verdict = .ok ()) :
    Settles clock fault verdict := by
  unfold finishing at done
  obtain ⟨moment, read, done⟩ := except_bind_eq_ok.mp done
  split at done
  · cases done
  · next fits =>
      refine ⟨⟨moment, read⟩, by omega, ?_⟩
      cases fault <;> simp_all [Fault.raised, Fault.commits]

/-! ## A run -/

section Run

variable (service : RuntimeService) (reactions : Reactions) (revision : TaskRevision)
  (request : RunRequest)

/-- The first two steps of a run: the evaluating save and the lock. -/
def opening : Except Raised (Option LockHandle) := do
  reactions.evaluate.raised
  match reactions.lock with
  | .granted handle => return some handle
  | .held => return none
  | .raises error => throw error

/-- Whether the run gets as far as its executor. -/
def launches : Bool :=
  match opening reactions with
  | .ok (some _) =>
      match prepare service.registered revision.action request.environmentOverrides with
      | .ok _ => (reactions.attempt 1).launches
      | .error _ => false
  | _ => false

def blockedVerdict : Verdict :=
  ⟨.blocked, some ReasonCodes.blockedOverlapLockHeld, service.blockedExplanation⟩

/-- The verdict on the report of the last attempt. -/
def verdictOn (policy : RetryPolicy) (n : Nat) (report : ExecutionReport) : Verdict :=
  let classification := classifyReport report.result
  ⟨classification.outcome, classification.reasonCode,
    RuntimeService.finalExplanation classification (decideRetry classification.outcome policy n)⟩

/-- What the handler records of an exception. -/
def handlerVerdict : Raised → Verdict
  | .taskControl error =>
      ⟨.infrastructureFailed, some ReasonCodes.infrastructureExecutorUnavailable,
        error.message.toList⟩
  | _ => ⟨.unknown, none, RuntimeService.interruptedExplanation⟩

def forcedVerdict : Verdict := ⟨.unknown, none, RuntimeService.forcedExplanation⟩

/-- The body of the run comes to a verdict. -/
inductive Concludes : Verdict → Prop
  | blocked (held : opening reactions = .ok none) : Concludes (blockedVerdict service)
  | reported {handle : LockHandle} {environment : List (Text × Text)} {n : Nat}
      {report : ExecutionReport} (held : opening reactions = .ok (some handle))
      (prepared : prepare service.registered revision.action request.environmentOverrides =
        .ok environment)
      (ended : AttemptsEnd reactions revision.controls.retry n (.ok report)) :
      Concludes (verdictOn revision.controls.retry n report)

/-- An exception strikes the body before it comes to a verdict. -/
inductive Breaks : Raised → Prop
  | opening {raised : Raised} (struck : opening reactions = .error raised) : Breaks raised
  | prepare {handle : LockHandle} {error : TaskControlError}
      (held : Runtime.opening reactions = .ok (some handle))
      (refused : Runtime.prepare service.registered revision.action request.environmentOverrides =
        .error error) : Breaks (.taskControl error)
  | attempt {handle : LockHandle} {environment : List (Text × Text)} {n : Nat} {raised : Raised}
      (held : Runtime.opening reactions = .ok (some handle))
      (prepared : Runtime.prepare service.registered revision.action request.environmentOverrides =
        .ok environment)
      (ended : AttemptsEnd reactions revision.controls.retry n (.error raised)) : Breaks raised

/-- An exception leaves the body, which had or had not stored a verdict by then. -/
inductive Strikes (raised : Raised) : Option Verdict → Prop
  | broken (struck : Breaks service reactions revision request raised) : Strikes raised none
  | unsaved {verdict : Verdict} (concluded : Concludes service reactions revision request verdict)
      (struck : finishing reactions.finishClock reactions.finish verdict = .error raised)
      (lost : ¬ Settles reactions.finishClock reactions.finish verdict) : Strikes raised none
  | saved {verdict : Verdict} (concluded : Concludes service reactions revision request verdict)
      (struck : finishing reactions.finishClock reactions.finish verdict = .error raised)
      (kept : Settles reactions.finishClock reactions.finish verdict) :
      Strikes raised (some verdict)

/-- The body returns with its verdict stored. -/
def Returned (verdict : Verdict) : Prop :=
  Concludes service reactions revision request verdict ∧
    finishing reactions.finishClock reactions.finish verdict = .ok ()

end Run

section Unique

variable {service : RuntimeService} {reactions : Reactions} {revision : TaskRevision}
  {request : RunRequest}

theorem Concludes.unique {first second : Verdict}
    (one : Concludes service reactions revision request first)
    (other : Concludes service reactions revision request second) : first = second := by
  cases one with
  | blocked held =>
      cases other with
      | blocked held' => rfl
      | reported held' prepared ended => simp [held] at held'
  | reported held prepared ended =>
      cases other with
      | blocked held' => simp [held] at held'
      | reported held' prepared' ended' =>
          obtain ⟨rfl, same⟩ := ended.unique ended'
          cases same
          rfl

theorem Breaks.unique {first second : Raised}
    (one : Breaks service reactions revision request first)
    (other : Breaks service reactions revision request second) : first = second := by
  cases one with
  | opening struck =>
      cases other with
      | opening struck' => simpa [struck] using struck'
      | prepare held refused => simp [struck] at held
      | attempt held prepared ended => simp [struck] at held
  | prepare held refused =>
      cases other with
      | opening struck => simp [held] at struck
      | prepare held' refused' => simpa [refused] using refused'
      | attempt held' prepared ended => simp [refused] at prepared
  | attempt held prepared ended =>
      cases other with
      | opening struck => simp [held] at struck
      | prepare held' refused => simp [prepared] at refused
      | attempt held' prepared' ended' =>
          obtain ⟨_, same⟩ := ended.unique ended'
          simpa using same

theorem Breaks.not_concludes {raised : Raised} {verdict : Verdict}
    (broken : Breaks service reactions revision request raised) :
    ¬ Concludes service reactions revision request verdict := by
  intro concluded
  cases broken with
  | opening struck => cases concluded <;> simp_all
  | prepare held refused =>
      cases concluded with
      | blocked held' => simp [held] at held'
      | reported held' prepared ended => simp [refused] at prepared
  | attempt held prepared ended =>
      cases concluded with
      | blocked held' => simp [held] at held'
      | reported held' prepared' ended' =>
          obtain ⟨_, same⟩ := ended.unique ended'
          cases same

theorem Strikes.unique {first second : Raised} {stored stored' : Option Verdict}
    (one : Strikes service reactions revision request first stored)
    (other : Strikes service reactions revision request second stored') :
    first = second ∧ stored = stored' := by
  cases one with
  | broken struck =>
      cases other with
      | broken struck' => exact ⟨struck.unique struck', rfl⟩
      | unsaved concluded _ _ => exact absurd concluded struck.not_concludes
      | saved concluded _ _ => exact absurd concluded struck.not_concludes
  | unsaved concluded struck lost =>
      cases other with
      | broken struck' => exact absurd concluded struck'.not_concludes
      | unsaved concluded' struck' lost' =>
          cases concluded.unique concluded'
          exact ⟨by simpa [struck] using struck', rfl⟩
      | saved concluded' struck' kept =>
          cases concluded.unique concluded'
          exact absurd kept lost
  | saved concluded struck kept =>
      cases other with
      | broken struck' => exact absurd concluded struck'.not_concludes
      | unsaved concluded' struck' lost =>
          cases concluded.unique concluded'
          exact absurd kept lost
      | saved concluded' struck' kept' =>
          cases concluded.unique concluded'
          exact ⟨by simpa [struck] using struck', rfl⟩

theorem Strikes.not_returned {raised : Raised} {stored : Option Verdict} {verdict : Verdict}
    (struck : Strikes service reactions revision request raised stored) :
    ¬ Returned service reactions revision request verdict := by
  rintro ⟨concluded, quiet⟩
  cases struck with
  | broken broken => exact broken.not_concludes concluded
  | unsaved concluded' struck _ =>
      cases concluded.unique concluded'
      simp [quiet] at struck
  | saved concluded' struck _ =>
      cases concluded.unique concluded'
      simp [quiet] at struck

end Unique

end TaskControl.Runtime
