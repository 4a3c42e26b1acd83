import TaskControl.Domain.Execution
import TaskControl.Foundation.Calls

/-!
# Histories of an execution

The calls that change an execution, made in any order.  Which of them move it along
the transition table, and which of them only ever add to its history.
-/

set_option autoImplicit false

namespace TaskControl

open PythonText Calls

inductive Operation where
  | transitionTo (state : ExecutionState)
  | beginAttempt (attempt : ExecutionAttempt) (startedAt : UtcTimestamp)
  | recordAttemptResult (attempt : ExecutionAttempt)
  | requestCancellation
  | finish (outcome : ExecutionOutcome) (finishedAt : UtcTimestamp) (reasonCode : Option ReasonCode)
      (explanation : Text)

/-! ## A nightly run -/

namespace Nightly

theorem id_bounded : 7 < uuidBound := by decide

theorem second_bounded : 2 ≤ maxDurationSeconds := by decide

theorem first : 1 ≤ 1 := Nat.le_refl 1

theorem unstarted : (none : Option UtcTimestamp) = none ↔ (none : Option ProcessResult) = none :=
  iff_of_true rfl rfl

theorem zero_exit : 0 ≤ (0 : Int) ∧ (0 : Int) ≤ maxExitCode := by decide

theorem one_exit : 0 ≤ (1 : Int) ∧ (1 : Int) ≤ maxExitCode := by decide

def fields : ExecutionFields where
  executionId := ⟨7, id_bounded⟩
  taskId := ⟨7, id_bounded⟩
  revisionId := ⟨7, id_bounded⟩
  triggerSource := .schedule
  requestedAt := ⟨0⟩
  state := .pending
  outcome := none
  reasonCode := none
  explanation := []
  attempts := []
  startedAt := none
  finishedAt := none
  correlationId := none
  idempotencyKey := none
  requestedBy := none
  configurationDigest := none

theorem consistent : fields.complaint = none := rfl

def pending : Execution := ⟨fields, consistent⟩

def attempt : ExecutionAttempt where
  attemptId := ⟨7, id_bounded⟩
  executionId := ⟨7, id_bounded⟩
  attemptNumber := 1
  startedAt := ⟨0⟩
  executorType := "shell"
  finishedAt := none
  result := none
  stdout := []
  stderr := []
  numbered := first
  finishedTogether := unstarted

def succeeded : ProcessResult := .exited 0 zero_exit ⟨2, second_bounded⟩

def failed : ProcessResult := .exited 1 one_exit ⟨2, second_bounded⟩

/-- The attempt with its result. -/
def ended (result : ProcessResult) : ExecutionAttempt :=
  { attempt with
    finishedAt := some ⟨2000000⟩
    result := some result
    finishedTogether := ExecutionAttempt.finished_together ⟨2000000⟩ result }

def calls : List Operation :=
  [.transitionTo .evaluating, .beginAttempt attempt ⟨0⟩, .recordAttemptResult (ended succeeded),
    .finish .succeeded ⟨2000000⟩ none "The process exited with status 0.".toList]

end Nightly

namespace Execution

def apply (execution : Execution) : Operation → Except TaskControlError Execution
  | .transitionTo state => execution.transitionTo state
  | .beginAttempt attempt startedAt => execution.beginAttempt attempt startedAt
  | .recordAttemptResult attempt => execution.recordAttemptResult attempt
  | .requestCancellation => execution.requestCancellation
  | .finish outcome finishedAt reasonCode explanation =>
      execution.finish outcome finishedAt reasonCode explanation

theorem eq_of_fields {first second : Execution}
    (same : first.toExecutionFields = second.toExecutionFields) : first = second := by
  cases first
  cases second
  cases same
  rfl

/-! ## What each call does where it succeeds -/

variable {execution next : Execution}

theorem legal_of_assert {current proposed : ExecutionState}
    (asserted : assertLegalTransition current proposed = .ok ()) :
    isLegalTransition current proposed = true := by
  unfold assertLegalTransition at asserted
  split at asserted
  · assumption
  · cases asserted

theorem transitionTo_inv {state : ExecutionState}
    (moved : execution.transitionTo state = .ok next) :
    isLegalTransition execution.state state = true ∧
      next.toExecutionFields = { execution.toExecutionFields with state } := by
  unfold transitionTo at moved
  cases legal : assertLegalTransition execution.state state with
  | error error =>
      rw [legal] at moved
      cases moved
  | ok _ =>
      rw [legal] at moved
      refine ⟨legal_of_assert legal, ?_⟩
      change (if _ then _ else _) = _ at moved
      split at moved
      · cases moved
      · exact make_eq_ok.mp moved

theorem beginAttempt_inv {attempt : ExecutionAttempt} {startedAt : UtcTimestamp}
    (begun : execution.beginAttempt attempt startedAt = .ok next) :
    execution.isFinished = false ∧ attempt.attemptNumber = execution.attemptCount + 1 ∧
      next.toExecutionFields = { execution.toExecutionFields with
        state := .running
        attempts := execution.attempts ++ [attempt]
        startedAt := execution.startedAt.or (some startedAt) } := by
  unfold beginAttempt at begun
  split at begun
  · cases begun
  · next open_ =>
      split at begun
      · cases begun
      · next numbered =>
          exact ⟨by simpa using open_, by simpa using numbered, make_eq_ok.mp begun⟩

theorem recordAttemptResult_inv {attempt : ExecutionAttempt}
    (recorded : execution.recordAttemptResult attempt = .ok next) :
    ∃ earlier last, execution.attempts = earlier ++ [last] ∧
      last.attemptId = attempt.attemptId ∧
      next.toExecutionFields =
        { execution.toExecutionFields with attempts := earlier ++ [attempt] } := by
  unfold recordAttemptResult at recorded
  split at recorded
  · next found =>
      obtain ⟨last, latest, same⟩ := Option.map_eq_some_iff.mp found
      obtain ⟨earlier, whole⟩ := List.getLast?_eq_some_iff.mp latest
      refine ⟨earlier, last, whole, same, ?_⟩
      rw [make_eq_ok.mp recorded, whole, List.dropLast_concat]
  · cases recorded

theorem requestCancellation_inv (requested : execution.requestCancellation = .ok next) :
    isLegalTransition execution.state .cancelling = true ∧
      next.toExecutionFields = { execution.toExecutionFields with state := .cancelling } := by
  unfold requestCancellation at requested
  cases legal : assertLegalTransition execution.state .cancelling with
  | error error =>
      rw [legal] at requested
      cases requested
  | ok _ =>
      rw [legal] at requested
      exact ⟨legal_of_assert legal, make_eq_ok.mp requested⟩

theorem finish_inv {outcome : ExecutionOutcome} {finishedAt : UtcTimestamp}
    {reasonCode : Option ReasonCode} {explanation : Text}
    (finished : execution.finish outcome finishedAt reasonCode explanation = .ok next) :
    execution.isFinished = false ∧ isLegalTransition execution.state .finished = true ∧
      next.toExecutionFields = { execution.toExecutionFields with
        state := .finished
        outcome := some outcome
        reasonCode
        explanation
        finishedAt := some finishedAt } := by
  unfold finish at finished
  split at finished
  · cases finished
  · next open_ =>
      cases legal : assertLegalTransition execution.state .finished with
      | error error =>
          rw [legal] at finished
          cases finished
      | ok _ =>
          rw [legal] at finished
          exact ⟨by simpa using open_, legal_of_assert legal, make_eq_ok.mp finished⟩

/-- No call leaves the finished state along the table. -/
theorem isFinished_illegal {state : ExecutionState} (done : execution.isFinished = true) :
    isLegalTransition execution.state state = false := by
  unfold isFinished at done
  cases current : execution.state with
  | finished => rfl
  | _ =>
      rw [current] at done
      cases done

/-! ## Legal changes of state -/

/-- The state stays as it is or moves along `_LEGAL_TRANSITIONS`. -/
def LegalChange (earlier later : Execution) : Prop :=
  later.state = earlier.state ∨ isLegalTransition earlier.state later.state = true

/-- An attempt is begun on an execution that has not been evaluated, or is being cancelled. -/
def Jumps (execution : Execution) : Operation → Prop
  | .beginAttempt _ _ => execution.state = .pending ∨ execution.state = .cancelling
  | _ => False

theorem apply_legal_iff {operation : Operation} (applied : execution.apply operation = .ok next) :
    LegalChange execution next ↔ ¬ execution.Jumps operation := by
  cases operation with
  | transitionTo state =>
      obtain ⟨legal, fields⟩ := transitionTo_inv applied
      have moved : next.state = state := congrArg ExecutionFields.state fields
      exact iff_of_true (Or.inr (by rw [moved]; exact legal)) id
  | beginAttempt attempt startedAt =>
      obtain ⟨open_, _, fields⟩ := beginAttempt_inv applied
      have running : next.state = .running := congrArg ExecutionFields.state fields
      unfold LegalChange Jumps
      rw [running]
      unfold isFinished at open_
      cases current : execution.state with
      | finished =>
          rw [current] at open_
          cases open_
      | _ => simp [isLegalTransition, ExecutionState.transitions]
  | recordAttemptResult attempt =>
      obtain ⟨earlier, last, _, _, fields⟩ := recordAttemptResult_inv applied
      have stays : next.state = execution.state := by rw [fields]
      exact iff_of_true (Or.inl stays) id
  | requestCancellation =>
      obtain ⟨legal, fields⟩ := requestCancellation_inv applied
      have moved : next.state = .cancelling := congrArg ExecutionFields.state fields
      exact iff_of_true (Or.inr (by rw [moved]; exact legal)) id
  | finish outcome finishedAt reasonCode explanation =>
      obtain ⟨_, legal, fields⟩ := finish_inv applied
      have moved : next.state = .finished := congrArg ExecutionFields.state fields
      exact iff_of_true (Or.inr (by rw [moved]; exact legal)) id

/-- A sequence of calls that succeed moves the execution along the transition table exactly when
no attempt is begun before its evaluation or after its cancellation was requested. -/
theorem transitions_legal_iff {operations : List Operation} {history : List Execution}
    (ran : perform apply execution operations = .ok history) :
    (execution :: history).IsChain LegalChange ↔
      ∀ call ∈ (execution :: history).zip operations, ¬ call.1.Jumps call.2 :=
  @isChain_iff _ _ _ _ (fun _ => True) LegalChange
    (fun execution operation => ¬ execution.Jumps operation)
    (fun _ _ _ _ applied => apply_legal_iff applied) (fun _ _ _ _ _ _ => trivial) operations
    _ _ trivial ran

theorem transitions_legal_nightly : ∃ history, perform apply Nightly.pending Nightly.calls =
    .ok history ∧ (Nightly.pending :: history).IsChain LegalChange :=
  ⟨_, rfl, (@transitions_legal_iff Nightly.pending Nightly.calls _ rfl).mpr
    (by simp [Nightly.calls, Jumps])⟩

/-- An attempt is begun on an execution that is still pending. -/
theorem pending_runs_unevaluated : ∃ history,
    perform apply Nightly.pending [.beginAttempt Nightly.attempt ⟨0⟩] = .ok history ∧
      ¬ (Nightly.pending :: history).IsChain LegalChange := by
  refine ⟨_, rfl, ?_⟩
  rw [List.isChain_cons_cons]
  rintro ⟨legal, _⟩
  revert legal
  unfold LegalChange
  decide

/-! ## Append-only histories -/

/-- The attempts are numbered from 1 without gaps, and only the last may be unfinished. -/
structure Ordered (execution : Execution) : Prop where
  numbered : execution.attempts.map ExecutionAttempt.attemptNumber =
    List.range' 1 execution.attempts.length
  closed : ∀ attempt ∈ execution.attempts.dropLast, attempt.isFinished = true

/-- The later execution keeps each attempt of the earlier one that had its result, and everything
of one that had finished. -/
structure Preserves (earlier later : Execution) : Prop where
  results : ∀ (n : Nat) (attempt : ExecutionAttempt), earlier.attempts[n]? = some attempt →
    attempt.isFinished = true → later.attempts[n]? = some attempt
  frozen : earlier.isFinished = true → later = earlier

def AppendOnly (history : List Execution) : Prop :=
  (∀ execution ∈ history, execution.Ordered) ∧ history.Pairwise Preserves

/-- The call adds to the history: an attempt is begun when no other is open, and what is recorded
is the result of the open attempt, before the execution ends.  Recording once more what is there
already changes nothing. -/
def Appends (execution : Execution) : Operation → Prop
  | .beginAttempt _ _ => ∀ last ∈ execution.attempts.getLast?, last.isFinished = true
  | .recordAttemptResult attempt => ∀ last ∈ execution.attempts.getLast?, attempt = last ∨
      (attempt.attemptNumber = last.attemptNumber ∧ last.isFinished = false ∧
        execution.isFinished = false)
  | _ => True

theorem Preserves.trans {first second third : Execution} (earlier : Preserves first second)
    (later : Preserves second third) : Preserves first third where
  results n attempt there done := later.results n attempt (earlier.results n attempt there done) done
  frozen done := by
    have same := earlier.frozen done
    rw [← same] at done
    rw [later.frozen done, same]

instance : Trans Preserves Preserves Preserves := ⟨Preserves.trans⟩

theorem Ordered.of_attempts (ordered : execution.Ordered)
    (same : next.attempts = execution.attempts) : next.Ordered := by
  constructor
  · rw [same]
    exact ordered.numbered
  · rw [same]
    exact ordered.closed

theorem preserves_of_attempts (open_ : execution.isFinished = false)
    (same : next.attempts = execution.attempts) : Preserves execution next where
  results n attempt there _ := by rw [same, there]
  frozen done := by simp [open_] at done

/-- A legal move starts before the end. -/
theorem open_of_legal {state : ExecutionState}
    (legal : isLegalTransition execution.state state = true) : execution.isFinished = false := by
  cases done : execution.isFinished with
  | false => rfl
  | true =>
      rw [isFinished_illegal done] at legal
      cases legal

theorem beginAttempt_appends_iff (ordered : execution.Ordered) {attempt : ExecutionAttempt}
    {startedAt : UtcTimestamp} (begun : execution.beginAttempt attempt startedAt = .ok next) :
    (next.Ordered ∧ Preserves execution next) ↔
      ∀ last ∈ execution.attempts.getLast?, last.isFinished = true := by
  obtain ⟨open_, numbered, fields⟩ := beginAttempt_inv begun
  have attempts : next.attempts = execution.attempts ++ [attempt] := by rw [fields]
  constructor
  · rintro ⟨after, _⟩ last latest
    apply after.closed
    rw [attempts, List.dropLast_concat]
    exact List.mem_of_getLast? latest
  · intro done
    refine ⟨⟨?_, ?_⟩, ?_, ?_⟩
    · rw [attempts, List.map_append, ordered.numbered, List.length_append, List.length_singleton,
        List.range'_1_concat, List.map_singleton, numbered, attemptCount, Nat.add_comm]
    · rw [attempts, List.dropLast_concat]
      intro earlier member
      rcases List.eq_nil_or_concat execution.attempts with none | ⟨init, last, whole⟩
      · rw [none] at member
        cases member
      · rw [List.concat_eq_append] at whole
        rw [whole, List.mem_append, List.mem_singleton] at member
        rcases member with inside | rfl
        · apply ordered.closed
          rw [whole, List.dropLast_concat]
          exact inside
        · apply done
          rw [whole, List.getLast?_concat]
          rfl
    · intro n earlier there _
      have within := (List.getElem?_eq_some_iff.mp there).1
      rw [attempts, List.getElem?_append_left within, there]
    · intro finished
      simp [open_] at finished

theorem recordAttemptResult_appends_iff (ordered : execution.Ordered)
    {attempt : ExecutionAttempt} (recorded : execution.recordAttemptResult attempt = .ok next) :
    (next.Ordered ∧ Preserves execution next) ↔
      ∀ last ∈ execution.attempts.getLast?, attempt = last ∨
        (attempt.attemptNumber = last.attemptNumber ∧ last.isFinished = false ∧
          execution.isFinished = false) := by
  obtain ⟨earlier, last, whole, _, fields⟩ := recordAttemptResult_inv recorded
  have attempts : next.attempts = earlier ++ [attempt] := by rw [fields]
  have latest : execution.attempts.getLast? = some last := by rw [whole, List.getLast?_concat]
  have place : execution.attempts[earlier.length]? = some last := by simp [whole]
  have place' : next.attempts[earlier.length]? = some attempt := by simp [attempts]
  rw [latest]
  simp only [Option.mem_some, forall_eq']
  constructor
  · rintro ⟨after, preserves⟩
    by_cases same : attempt = last
    · exact Or.inl same
    right
    refine ⟨?_, ?_, ?_⟩
    · have before := ordered.numbered
      have numbers := after.numbered
      rw [whole, List.map_append, List.length_append, List.length_singleton] at before
      rw [attempts, List.map_append, List.length_append, List.length_singleton, ← before] at numbers
      simpa using List.append_cancel_left numbers
    · cases done : last.isFinished with
      | false => rfl
      | true =>
          have kept := preserves.results earlier.length last place done
          rw [place'] at kept
          exact absurd (Option.some.inj kept) same
    · cases done : execution.isFinished with
      | false => rfl
      | true =>
          rw [preserves.frozen done, place] at place'
          exact absurd (Option.some.inj place').symm same
  · rintro (rfl | ⟨number, open_, running⟩)
    · have unchanged : next = execution := by
        apply eq_of_fields
        rw [fields, ← whole]
      rw [unchanged]
      exact ⟨ordered, fun _ _ there _ => there, fun _ => rfl⟩
    · refine ⟨⟨?_, ?_⟩, ?_, ?_⟩
      · have before := ordered.numbered
        rw [whole, List.map_append, List.length_append, List.length_singleton, List.map_singleton]
          at before
        rw [attempts, List.map_append, List.length_append, List.length_singleton,
          List.map_singleton, number, before]
      · have before := ordered.closed
        rw [whole, List.dropLast_concat] at before
        rw [attempts, List.dropLast_concat]
        exact before
      · intro n other there done
        rw [whole] at there
        rw [attempts]
        rcases Nat.lt_or_ge n earlier.length with inside | outside
        · rwa [List.getElem?_append_left inside] at there ⊢
        · rw [List.getElem?_append_right outside] at there
          obtain ⟨_, rfl⟩ := List.getElem?_eq_some_iff.mp there
          simp [open_] at done
      · intro finished
        simp [running] at finished

/-- One call keeps the history exactly under its condition. -/
theorem apply_appends_iff (ordered : execution.Ordered) {operation : Operation}
    (applied : execution.apply operation = .ok next) :
    (next.Ordered ∧ Preserves execution next) ↔ execution.Appends operation := by
  have moved {state : ExecutionState} (legal : isLegalTransition execution.state state = true)
      (same : next.attempts = execution.attempts) : next.Ordered ∧ Preserves execution next :=
    ⟨ordered.of_attempts same, preserves_of_attempts (open_of_legal legal) same⟩
  cases operation with
  | transitionTo state =>
      obtain ⟨legal, fields⟩ := transitionTo_inv applied
      exact iff_of_true (moved legal (by rw [fields])) trivial
  | beginAttempt attempt startedAt => exact beginAttempt_appends_iff ordered applied
  | recordAttemptResult attempt => exact recordAttemptResult_appends_iff ordered applied
  | requestCancellation =>
      obtain ⟨legal, fields⟩ := requestCancellation_inv applied
      exact iff_of_true (moved legal (by rw [fields])) trivial
  | finish outcome finishedAt reasonCode explanation =>
      obtain ⟨_, legal, fields⟩ := finish_inv applied
      exact iff_of_true (moved legal (by rw [fields])) trivial

/-- From an execution without attempts, a sequence of calls that succeed only adds to the history
exactly when each of its calls does. -/
theorem history_append_only_iff {operations : List Operation} {history : List Execution}
    (empty : execution.attempts = []) (ran : perform apply execution operations = .ok history) :
    AppendOnly (execution :: history) ↔
      ∀ call ∈ (execution :: history).zip operations, call.1.Appends call.2 := by
  have start : execution.Ordered := by
    constructor
    · rw [empty]
      rfl
    · rw [empty]
      intro attempt member
      cases member
  rw [AppendOnly, ← List.isChain_iff_pairwise, ← isChain_and_iff Ordered Preserves start]
  exact isChain_iff Ordered (fun _ _ _ ordered applied => apply_appends_iff ordered applied)
    (fun _ _ _ _ _ related => related.1) operations start ran

theorem history_append_only_nightly : ∃ history, perform apply Nightly.pending Nightly.calls =
    .ok history ∧ AppendOnly (Nightly.pending :: history) :=
  ⟨_, rfl, (@history_append_only_iff Nightly.pending Nightly.calls _ rfl rfl).mpr (by
    simp [Nightly.calls, Nightly.pending, Nightly.fields, Nightly.ended, Nightly.attempt, Appends,
      ExecutionAttempt.isFinished, isFinished, ExecutionState.isTerminal])⟩

/-- What is read of an execution stays the same once it has finished. -/
theorem AppendOnly.views {α : Type} {history : List Execution} (kept : AppendOnly history)
    (view : Execution → α) :
    (history.map fun execution => (execution.isFinished, view execution)).Pairwise
      fun earlier later => earlier.1 = true → later.2 = earlier.2 := by
  rw [List.pairwise_map]
  apply kept.2.imp
  intro earlier later preserves done
  rw [preserves.frozen done]

/-- The exit codes of the attempts. -/
def exitCodes (execution : Execution) : List (Option Int) :=
  execution.attempts.map fun attempt => attempt.result.bind ProcessResult.exitCode

/-- After the end, another result is recorded in place of the one that was there. -/
theorem finished_result_rewritten : ∃ history, perform apply Nightly.pending
      (Nightly.calls ++ [.recordAttemptResult (Nightly.ended Nightly.failed)]) = .ok history ∧
    ¬ AppendOnly (Nightly.pending :: history) := by
  refine ⟨_, rfl, ?_⟩
  intro kept
  have codes := kept.views exitCodes
  revert codes
  decide

end Execution

end TaskControl
