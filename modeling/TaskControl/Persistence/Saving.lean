import TaskControl.Foundation.Effects
import TaskControl.Persistence.ExecutionRecords

/-!
# Saving over a stored execution

A copy of an execution continues what is stored when some of its attempts have
finished since and some are new.  A save of such a copy leaves exactly the copy,
and nothing of what was stored before is lost.
-/

set_option autoImplicit false

namespace TaskControl.Persistence

open PythonText

/-! ## Copies -/

/-- Of two attempts, the second keeps what is fixed when an attempt begins. -/
structure SameAttempt (stored attempt : ExecutionAttempt) : Prop where
  attemptId : attempt.attemptId = stored.attemptId
  executionId : attempt.executionId = stored.executionId
  attemptNumber : attempt.attemptNumber = stored.attemptNumber
  startedAt : attempt.startedAt = stored.startedAt
  executorType : attempt.executorType = stored.executorType

theorem SameAttempt.refl (attempt : ExecutionAttempt) : SameAttempt attempt attempt :=
  ⟨rfl, rfl, rfl, rfl, rfl⟩

theorem SameAttempt.applied {stored attempt : ExecutionAttempt}
    (same : SameAttempt stored attempt) : applyAttemptToRecord stored attempt = attempt := by
  obtain ⟨attemptId, executionId, attemptNumber, startedAt, executorType⟩ := same
  cases stored
  cases attempt
  cases attemptId
  cases executionId
  cases attemptNumber
  cases startedAt
  cases executorType
  rfl

/-- An attempt is the stored one, or that one finished since. -/
def FinishedSince (stored attempt : ExecutionAttempt) : Prop :=
  attempt = stored ∨ (stored.result = none ∧ SameAttempt stored attempt)

theorem FinishedSince.same {stored attempt : ExecutionAttempt}
    (since : FinishedSince stored attempt) : SameAttempt stored attempt := by
  rcases since with rfl | ⟨_, same⟩
  · exact SameAttempt.refl attempt
  · exact same

/-- The attempts of a copy are the stored ones, some of them finished since, and perhaps more. -/
def Continues (stored attempts : List ExecutionAttempt) : Prop :=
  ∃ since more, attempts = since ++ more ∧ List.Forall₂ FinishedSince stored since

theorem continues_append (stored more : List ExecutionAttempt) :
    Continues stored (stored ++ more) :=
  ⟨stored, more, rfl, List.forall₂_same.mpr fun _ _ => Or.inl rfl⟩

theorem continues_refl (stored : List ExecutionAttempt) : Continues stored stored := by
  have whole := continues_append stored []
  rwa [List.append_nil] at whole

theorem continues_finished (earlier : List ExecutionAttempt) {attempt finished : ExecutionAttempt}
    (since : FinishedSince attempt finished) :
    Continues (earlier ++ [attempt]) (earlier ++ [finished]) := by
  have last : List.Forall₂ FinishedSince [attempt] [finished] := .cons since .nil
  have before : List.Forall₂ FinishedSince earlier earlier :=
    List.forall₂_same.mpr fun _ _ => Or.inl rfl
  exact ⟨earlier ++ [finished], [], by rw [List.append_nil], List.rel_append before last⟩

/-- The copy has the identity and the request metadata of the row. -/
structure RequestedAs (record : ExecutionRecord) (execution : Execution) : Prop where
  executionId : execution.executionId = record.executionId
  taskId : execution.taskId = record.taskId
  revisionId : execution.revisionId = record.revisionId
  triggerSource : execution.triggerSource = record.triggerSource
  requestedAt : execution.requestedAt = record.requestedAt
  correlationId : execution.correlationId = record.correlationId
  idempotencyKey : execution.idempotencyKey = record.idempotencyKey
  requestedBy : execution.requestedBy = record.requestedBy

theorem RequestedAs.applied {record : ExecutionRecord} {execution : Execution}
    (same : RequestedAs record execution) :
    applyExecutionToRecord record execution = executionToRecord execution := by
  unfold applyExecutionToRecord executionToRecord
  rw [same.executionId, same.taskId, same.revisionId, same.triggerSource, same.requestedAt,
    same.correlationId, same.idempotencyKey, same.requestedBy]

theorem RequestedAs.refl (execution : Execution) :
    RequestedAs (executionToRecord execution) execution := by
  constructor <;> rfl

/-- Whatever changes the mutable fields only keeps the identity and the request metadata. -/
theorem RequestedAs.of_fields {execution next : Execution} {state : ExecutionState}
    {outcome : Option ExecutionOutcome} {reasonCode : Option ReasonCode} {explanation : Text}
    {attempts : List ExecutionAttempt} {startedAt finishedAt : Option UtcTimestamp}
    {configurationDigest : Option ContentDigest}
    (fields : next.toExecutionFields = { execution.toExecutionFields with
      state, outcome, reasonCode, explanation, attempts, startedAt, finishedAt,
      configurationDigest }) :
    RequestedAs (executionToRecord execution) next := by
  constructor <;> simp only [fields, executionToRecord]

theorem RequestedAs.trans {first second third : Execution}
    (later : RequestedAs (executionToRecord second) third)
    (earlier : RequestedAs (executionToRecord first) second) :
    RequestedAs (executionToRecord first) third where
  executionId := later.executionId.trans earlier.executionId
  taskId := later.taskId.trans earlier.taskId
  revisionId := later.revisionId.trans earlier.revisionId
  triggerSource := later.triggerSource.trans earlier.triggerSource
  requestedAt := later.requestedAt.trans earlier.requestedAt
  correlationId := later.correlationId.trans earlier.correlationId
  idempotencyKey := later.idempotencyKey.trans earlier.idempotencyKey
  requestedBy := later.requestedBy.trans earlier.requestedBy

theorem RequestedAs.symm {first second : Execution}
    (same : RequestedAs (executionToRecord first) second) :
    RequestedAs (executionToRecord second) first where
  executionId := same.executionId.symm
  taskId := same.taskId.symm
  revisionId := same.revisionId.symm
  triggerSource := same.triggerSource.symm
  requestedAt := same.requestedAt.symm
  correlationId := same.correlationId.symm
  idempotencyKey := same.idempotencyKey.symm
  requestedBy := same.requestedBy.symm

/-! ## Attempt rows -/

namespace Database

section Rows

variable {executionId : ExecutionId}

theorem upsertAttempt_new {rows : List ExecutionAttempt} {attempt : ExecutionAttempt}
    (new : ∀ row ∈ rows, row.attemptId ≠ attempt.attemptId) :
    upsertAttempt executionId rows attempt = rows ++ [attempt] := by
  unfold upsertAttempt
  apply if_neg
  intro any
  obtain ⟨row, member, held⟩ := List.any_eq_true.mp any
  exact new row member (of_decide_eq_true held).2

theorem upsertAttempt_held {earlier later : List ExecutionAttempt}
    {stored attempt : ExecutionAttempt} (owned : stored.executionId = executionId)
    (same : SameAttempt stored attempt)
    (before : ∀ row ∈ earlier, row.attemptId ≠ attempt.attemptId)
    (after : ∀ row ∈ later, row.attemptId ≠ attempt.attemptId) :
    upsertAttempt executionId (earlier ++ stored :: later) attempt =
      earlier ++ attempt :: later := by
  have apart : ∀ rows : List ExecutionAttempt,
      (∀ row ∈ rows, row.attemptId ≠ attempt.attemptId) →
      rows.map (fun row =>
        if row.executionId = executionId ∧ row.attemptId = attempt.attemptId then
          applyAttemptToRecord row attempt
        else row) = rows := by
    intro rows differ
    conv_rhs => rw [← List.map_id rows]
    apply List.map_congr_left
    intro row member
    rw [if_neg fun held => differ row member held.2]
    rfl
  unfold upsertAttempt
  rw [if_pos]
  · rw [List.map_append, List.map_cons, apart earlier before, apart later after,
      if_pos ⟨owned, same.attemptId.symm⟩, same.applied]
  · apply List.any_eq_true.mpr
    exact ⟨stored, by simp, decide_eq_true ⟨owned, same.attemptId.symm⟩⟩

/-- By induction on the attempts of the copy: those already saved stand in front of the stored
ones that are still to come. -/
theorem foldl_upsertAttempt (attempts : List ExecutionAttempt) :
    ∀ done stored : List ExecutionAttempt, Continues stored attempts →
      (∀ row ∈ stored, row.executionId = executionId) →
      ((done ++ attempts).map ExecutionAttempt.attemptId).Nodup →
      attempts.foldl (upsertAttempt executionId) (done ++ stored) = done ++ attempts := by
  induction attempts with
  | nil =>
      rintro done stored ⟨since, more, split, related⟩ _ _
      obtain ⟨rfl, rfl⟩ := List.append_eq_nil_iff.mp split.symm
      cases related
      rfl
  | cons attempt rest ih =>
      rintro done stored ⟨since, more, split, related⟩ owned distinct
      have shifted : (((done ++ [attempt]) ++ rest).map ExecutionAttempt.attemptId).Nodup := by
        rwa [List.append_assoc, List.singleton_append]
      have apart : ∀ row ∈ done ++ rest, row.attemptId ≠ attempt.attemptId := by
        rw [List.map_append, List.map_cons, List.nodup_middle, ← List.map_append] at distinct
        intro row member same
        apply (List.nodup_cons.mp distinct).1
        rw [← same]
        exact List.mem_map_of_mem member
      cases related with
      | nil =>
          have new : ∀ row ∈ done ++ [], row.attemptId ≠ attempt.attemptId := by
            intro row member
            rw [List.append_nil] at member
            exact apart row (List.mem_append_left rest member)
          rw [List.foldl_cons, upsertAttempt_new new, List.append_nil]
          have later := ih (done ++ [attempt]) [] ⟨[], rest, rfl, .nil⟩ (by simp) shifted
          rw [List.append_nil, List.append_assoc] at later
          exact later
      | @cons first second later since same related =>
          obtain ⟨rfl, rfl⟩ := List.cons.inj split
          have others : ∀ row ∈ later, row.attemptId ≠ attempt.attemptId := by
            intro row member
            obtain ⟨other, inSince, kept⟩ := Effects.mem_of_related related.flip member
            have same' : SameAttempt row other := FinishedSince.same kept
            rw [← same'.attemptId]
            exact apart other (by simp [inSince])
          rw [List.foldl_cons, upsertAttempt_held (owned first List.mem_cons_self) same.same
            (fun row member => apart row (List.mem_append_left _ member)) others]
          have next := ih (done ++ [attempt]) later ⟨since, more, rfl, related⟩
            (fun row member => owned row (List.mem_cons_of_mem first member)) shifted
          rw [List.append_assoc, List.append_assoc] at next
          exact next

theorem upsertAttempt_executionId (attempt : ExecutionAttempt) (row : ExecutionAttempt) :
    (if row.executionId = executionId ∧ row.attemptId = attempt.attemptId then
      applyAttemptToRecord row attempt else row).executionId = row.executionId := by
  split <;> rfl

/-- An upsert works on the rows of its execution. -/
theorem filter_upsertAttempt {rows : List ExecutionAttempt} {attempt : ExecutionAttempt}
    (owned : attempt.executionId = executionId) :
    (upsertAttempt executionId rows attempt).filter (fun row => row.executionId = executionId) =
      upsertAttempt executionId (rows.filter fun row => row.executionId = executionId) attempt := by
  have same : (rows.filter fun row => row.executionId = executionId).any (fun row =>
      decide (row.executionId = executionId ∧ row.attemptId = attempt.attemptId)) =
      rows.any fun row =>
        decide (row.executionId = executionId ∧ row.attemptId = attempt.attemptId) := by
    rw [List.any_filter]
    congr 1
    funext row
    by_cases own : row.executionId = executionId <;> simp [own]
  unfold upsertAttempt
  rw [same]
  split
  · rw [List.filter_map]
    congr 2
    funext row
    simp only [Function.comp, upsertAttempt_executionId]
  · rw [List.filter_append]
    simp [owned]

theorem filter_upsertAttempt_other {rows : List ExecutionAttempt} {attempt : ExecutionAttempt}
    {other : ExecutionId} (owned : attempt.executionId = executionId)
    (different : other ≠ executionId) :
    (upsertAttempt executionId rows attempt).filter (fun row => row.executionId = other) =
      rows.filter fun row => row.executionId = other := by
  unfold upsertAttempt
  split
  · rw [List.filter_map]
    simp only [Function.comp_def, upsertAttempt_executionId]
    conv_rhs => rw [← List.map_id (rows.filter fun row => row.executionId = other)]
    apply List.map_congr_left
    intro row member
    have own : row.executionId = other := by simpa using (List.mem_filter.mp member).2
    rw [if_neg]
    · rfl
    · rintro ⟨same, _⟩
      exact different (own.symm.trans same)
  · rw [List.filter_append]
    simp [owned, Ne.symm different]

end Rows

/-! ## A save -/

variable {database saved : Database} {execution : Execution}

theorem foldl_attemptsFor (attempts rows : List ExecutionAttempt) {executionId : ExecutionId}
    (owned : ∀ attempt ∈ attempts, attempt.executionId = executionId) :
    (attempts.foldl (upsertAttempt executionId) rows).filter
        (fun row => row.executionId = executionId) =
      attempts.foldl (upsertAttempt executionId)
        (rows.filter fun row => row.executionId = executionId) := by
  induction attempts generalizing rows with
  | nil => rfl
  | cons attempt rest ih =>
      rw [List.foldl_cons, List.foldl_cons,
        ih _ fun other member => owned other (List.mem_cons_of_mem attempt member),
        filter_upsertAttempt (owned attempt List.mem_cons_self)]

theorem foldl_attemptsFor_other (attempts rows : List ExecutionAttempt)
    {executionId other : ExecutionId}
    (owned : ∀ attempt ∈ attempts, attempt.executionId = executionId)
    (different : other ≠ executionId) :
    (attempts.foldl (upsertAttempt executionId) rows).filter
        (fun row => row.executionId = other) =
      rows.filter fun row => row.executionId = other := by
  induction attempts generalizing rows with
  | nil => rfl
  | cons attempt rest ih =>
      rw [List.foldl_cons, ih _ fun later member => owned later (List.mem_cons_of_mem attempt member),
        filter_upsertAttempt_other (owned attempt List.mem_cons_self) different]

/-- A save of a copy that continues what is stored leaves exactly the copy. -/
theorem saveExecution_continues {record : ExecutionRecord}
    (found : database.record? execution.executionId = some record)
    (same : RequestedAs record execution)
    (continues : Continues (database.attemptsFor execution.executionId) execution.attempts)
    (owned : ∀ attempt ∈ execution.attempts, attempt.executionId = execution.executionId)
    (distinct : (execution.attempts.map ExecutionAttempt.attemptId).Nodup)
    (done : database.saveExecution execution = .ok saved) :
    saved.record? execution.executionId = some (executionToRecord execution) ∧
      saved.attemptsFor execution.executionId = execution.attempts := by
  obtain ⟨saved', done', row, _⟩ := saveExecution_ok found
  obtain rfl := Except.ok.inj (done.symm.trans done')
  rw [same.applied] at row
  refine ⟨row, ?_⟩
  unfold saveExecution at done
  rw [found] at done
  rw [← Except.ok.inj done, attemptsFor, foldl_attemptsFor _ _ owned]
  have inFront := @foldl_upsertAttempt execution.executionId execution.attempts []
    (database.attemptsFor execution.executionId) continues
    (fun row member => by simpa using (List.mem_filter.mp member).2) distinct
  exact inFront

theorem saveExecution_others (owned : ∀ attempt ∈ execution.attempts,
      attempt.executionId = execution.executionId)
    (done : database.saveExecution execution = .ok saved) {other : ExecutionId}
    (different : other ≠ execution.executionId) :
    saved.attemptsFor other = database.attemptsFor other := by
  unfold saveExecution at done
  split at done
  · cases done
  · rw [← Except.ok.inj done, attemptsFor, foldl_attemptsFor_other _ _ owned different]
    rfl

theorem addExecution_attempts (done : database.addExecution execution = .ok saved) :
    saved.attempts = database.attempts ++ execution.attempts := by
  unfold addExecution at done
  split at done
  · cases done
  · split at done
    · cases done
    · rw [← Except.ok.inj done]

/-! ## History -/

/-- Of two databases, the second has lost nothing that the first says of how an execution went:
when it started, and its attempts with their results. -/
structure KeepsHistory (executionId : ExecutionId) (before after : Database) : Prop where
  startedAt : ∀ old new moment, before.record? executionId = some old →
    after.record? executionId = some new → old.startedAt = some moment →
      new.startedAt = some moment
  attempts : ∀ row ∈ before.attempts, ∃ row' ∈ after.attempts, FinishedSince row row'

theorem mem_attemptsFor {row : ExecutionAttempt} :
    row ∈ database.attemptsFor row.executionId ↔ row ∈ database.attempts := by
  simp [attemptsFor]

theorem keepsHistory_added (done : database.addExecution execution = .ok saved) :
    KeepsHistory execution.executionId database saved := by
  obtain ⟨absent, _⟩ := addExecution_ok done
  constructor
  · intro old new moment found
    rw [absent] at found
    cases found
  · intro row member
    rw [addExecution_attempts done]
    exact ⟨row, List.mem_append_left _ member, Or.inl rfl⟩

theorem keepsHistory_saved {record : ExecutionRecord}
    (found : database.record? execution.executionId = some record)
    (same : RequestedAs record execution)
    (continues : Continues (database.attemptsFor execution.executionId) execution.attempts)
    (owned : ∀ attempt ∈ execution.attempts, attempt.executionId = execution.executionId)
    (distinct : (execution.attempts.map ExecutionAttempt.attemptId).Nodup)
    (started : ∀ moment, record.startedAt = some moment → execution.startedAt = some moment)
    (done : database.saveExecution execution = .ok saved) :
    KeepsHistory execution.executionId database saved := by
  obtain ⟨row, attempts⟩ := saveExecution_continues found same continues owned distinct done
  constructor
  · intro old new moment was is
    rw [found] at was
    rw [row] at is
    cases was
    cases is
    exact started moment
  · intro row member
    by_cases own : row.executionId = execution.executionId
    · obtain ⟨since, more, split, related⟩ := continues
      have held := mem_attemptsFor.mpr member
      rw [own] at held
      obtain ⟨row', inSince, kept⟩ := Effects.mem_of_related related.flip held
      have inSaved : row' ∈ saved.attemptsFor execution.executionId := by
        rw [attempts, split]
        exact List.mem_append_left more inSince
      exact ⟨row', (List.mem_filter.mp inSaved).1, kept⟩
    · have held := mem_attemptsFor.mpr member
      rw [← saveExecution_others owned done own] at held
      exact ⟨row, (List.mem_filter.mp held).1, Or.inl rfl⟩

/-- What is stored of a copy is read back as the copy. -/
theorem getExecution_copy
    (row : database.record? execution.executionId = some (executionToRecord execution))
    (attempts : database.attemptsFor execution.executionId = execution.attempts)
    (numbered : execution.attempts.Pairwise fun first second =>
      first.attemptNumber ≤ second.attemptNumber) :
    database.getExecution execution.executionId = .ok (some execution) := by
  have sorted : (execution.attempts.mergeSort fun first second =>
      first.attemptNumber ≤ second.attemptNumber) = execution.attempts :=
    List.mergeSort_of_pairwise (numbered.imp fun ordered => decide_eq_true ordered)
  have made : recordToExecution (executionToRecord execution) execution.attempts =
      .ok execution := by
    apply Execution.make_eq_ok.mpr
    unfold ExecutionRecord.fields
    rw [sorted]
    rfl
  unfold getExecution
  rw [row, attempts]
  simp only [made]
  rfl

end Database

/-! ## Attempts of a run -/

theorem started_same {attempt : ExecutionAttempt} {attemptId : AttemptId}
    {executionId : ExecutionId} {attemptNumber : Nat} {startedAt : UtcTimestamp}
    {executorType : String}
    (made : ExecutionAttempt.started attemptId executionId attemptNumber startedAt executorType =
      .ok attempt) :
    attempt.attemptId = attemptId ∧ attempt.executionId = executionId ∧
      attempt.attemptNumber = attemptNumber := by
  unfold ExecutionAttempt.started at made
  split at made
  · cases made
    exact ⟨rfl, rfl, rfl⟩
  · cases made

theorem finish_since {attempt finished : ExecutionAttempt} {result : ProcessResult}
    {finishedAt : UtcTimestamp} {stdout stderr : Text}
    (done : attempt.finish result finishedAt stdout stderr = .ok finished) :
    FinishedSince attempt finished := by
  unfold ExecutionAttempt.finish at done
  split at done
  · cases done
  · rename_i open_
    cases done
    refine Or.inr ⟨?_, rfl, rfl, rfl, rfl, rfl⟩
    simpa [ExecutionAttempt.isFinished] using open_

end TaskControl.Persistence
