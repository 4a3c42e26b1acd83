import TaskControl.Domain.Histories
import TaskControl.Runtime.StaleSaves

/-!
# The attempts of a run

The executor is invoked once for each attempt, and the attempts end with the first
report that the policy answers with no other.
-/

set_option autoImplicit false

namespace TaskControl.Runtime

open PythonText Effects Persistence

/-- How often work was launched so far. -/
def launchCount (world : World) : Nat := world.trace.countP Event.isLaunch

theorem launchCount_committed (executionId : ExecutionId) (world : World) (database : Database) :
    launchCount (committed executionId world database) = launchCount world := by
  unfold committed
  split
  · simp [launchCount, Event.isLaunch]
  · rfl

/-! ## Successful calls -/

theorem save_inv {fault : Fault} {execution saved : Execution} {world world' : World}
    (ran : RuntimeService.save fault execution world = .ok saved world') :
    execution = saved ∧ Commits execution world world' := by
  unfold RuntimeService.save at ran
  obtain ⟨_, mid, stored, returned⟩ := bind_eq_ok.mp ran
  cases returned
  obtain ⟨_, database, done, rfl⟩ := (ends_of_ok stored).mp (transaction_ends fault _ _ world)
  exact ⟨rfl, database, done, rfl⟩

/-! ## Stored copies -/

/-- What is stored of the execution is the copy. -/
structure Held (reactions : Reactions) (new execution : Execution) (world : World) : Prop where
  row : world.database.record? execution.executionId = some (executionToRecord execution)
  attempts : world.database.attemptsFor execution.executionId = execution.attempts
  copy : Copy reactions new execution

section Held

variable {reactions : Reactions} {new execution next : Execution} {world world' : World}

/-- A save of a copy that continues the stored one. -/
theorem Held.commits (held : Held reactions new execution world) (apart : DistinctIds reactions)
    (copy : Copy reactions new next) (continues : Continues execution.attempts next.attempts)
    (saved : Commits next world world') : Held reactions new next world' := by
  obtain ⟨database, done, rfl⟩ := saved
  have same : next.executionId = execution.executionId := copy.named.trans held.copy.named.symm
  have found := held.row
  have attempts := held.attempts
  rw [← same] at found attempts
  rw [← attempts] at continues
  obtain ⟨row, kept⟩ := Database.saveExecution_continues found
    (copy.request.trans held.copy.request.symm) continues copy.owned (copy.distinct apart) done
  unfold committed
  rw [row]
  exact ⟨row, kept, copy⟩

theorem commits_launches {saved : Execution} (commits : Commits saved world world') :
    launchCount world' = launchCount world := by
  obtain ⟨database, _, rfl⟩ := commits
  exact launchCount_committed saved.executionId world database

theorem Held.openRow (held : Held reactions new execution world)
    (open_ : execution.isFinished = false) : OpenRow execution.executionId world :=
  ⟨_, held.row, open_, created_consistent execution⟩

/-! ## One attempt -/

/-- What is kept of a finished attempt. -/
structure AttemptEntry where
  attemptNumber : Nat
  result : Option ProcessResult
  stdout : Text
  stderr : Text

def entryOf (attempt : ExecutionAttempt) : AttemptEntry :=
  ⟨attempt.attemptNumber, attempt.result, attempt.stdout, attempt.stderr⟩

/-- The entry of the attempt that comes to a report. -/
def entryFor (report : Nat → ExecutionReport) (n : Nat) : AttemptEntry :=
  ⟨n, some (report n).result, (report n).stdout, (report n).stderr⟩

theorem attemptFinish_inv {attempt finished : ExecutionAttempt} {result : ProcessResult}
    {finishedAt : UtcTimestamp} {stdout stderr : Text}
    (done : attempt.finish result finishedAt stdout stderr = .ok finished) :
    entryOf finished = ⟨attempt.attemptNumber, some result, stdout, stderr⟩ ∧
      finished.startedAt = attempt.startedAt ∧ finished.finishedAt = some finishedAt := by
  unfold ExecutionAttempt.finish at done
  split at done
  · cases done
  · cases done
    exact ⟨rfl, rfl, rfl⟩

/-- What an attempt that returns went through. -/
theorem runAttempt_inv {answers : AttemptReactions} {revision : TaskRevision}
    {environment : List (Text × Text)} {report : ExecutionReport}
    (ran : RuntimeService.runAttempt answers revision environment execution world =
      .ok (next, report) world') :
    ∃ startedAt attempt running mid mid' finishedAt finished,
      ExecutionAttempt.started answers.attemptId execution.executionId (execution.attemptCount + 1)
        startedAt revision.action.executorType.wire = .ok attempt ∧
      execution.beginAttempt attempt startedAt = .ok running ∧ Commits running world mid ∧
      mid'.database = mid.database ∧ launchCount mid' = launchCount mid + 1 ∧
      attempt.finish report.result finishedAt report.stdout report.stderr = .ok finished ∧
      running.recordAttemptResult finished = .ok next ∧ Commits next mid' world' := by
  unfold RuntimeService.runAttempt at ran
  obtain ⟨startedAt, _, starts⟩ := bind_answer.mp ran
  obtain ⟨attempt, made, starts⟩ := bind_domain.mp starts
  obtain ⟨running, begun, starts⟩ := bind_domain.mp starts
  obtain ⟨_, mid, saved, launches⟩ := bind_eq_ok.mp starts
  obtain ⟨rfl, begins⟩ := save_inv saved
  obtain ⟨_, mid', launched, ends⟩ := bind_eq_ok.mp launches
  obtain ⟨finishedAt, _, ends⟩ := bind_answer.mp ends
  obtain ⟨finished, ended, ends⟩ := bind_domain.mp ends
  obtain ⟨recorded, recording, ends⟩ := bind_domain.mp ends
  obtain ⟨_, _, saved', returned⟩ := bind_eq_ok.mp ends
  obtain ⟨rfl, records⟩ := save_inv saved'
  cases returned
  have noted : mid'.database = mid.database ∧ launchCount mid' = launchCount mid + 1 := by
    unfold RuntimeService.launch at launched
    obtain ⟨_, _, traced, answered⟩ := bind_eq_ok.mp launched
    cases traced
    obtain ⟨_, rfl⟩ := (ends_of_ok answered).mp (answer_ends answers.executor _)
    exact ⟨rfl, by simp [launchCount, Event.isLaunch]⟩
  exact ⟨startedAt, attempt, running, mid, mid', finishedAt, finished, made, begun, begins, noted.1,
    noted.2, ended, recording, records⟩

/-- An attempt that returns has launched the executor once and stored its report. -/
theorem runAttempt_held (apart : DistinctIds reactions) {revision : TaskRevision}
    {environment : List (Text × Text)} {report : ExecutionReport}
    (held : Held reactions new execution world)
    (more : execution.attemptCount + 1 ≤ maxRetryAttempts)
    (ran : RuntimeService.runAttempt (reactions.attempt (execution.attemptCount + 1)) revision
      environment execution world = .ok (next, report) world') :
    Held reactions new next world' ∧ launchCount world' = launchCount world + 1 ∧
      next.attempts.map entryOf = execution.attempts.map entryOf ++
        [⟨execution.attemptCount + 1, some report.result, report.stdout, report.stderr⟩] := by
  obtain ⟨startedAt, attempt, running, mid, mid', finishedAt, finished, made, begun, begins, same,
    launched, ended, recording, records⟩ := runAttempt_inv ran
  obtain ⟨attemptId, owner, numbered⟩ := started_same made
  obtain ⟨_, _, began⟩ := Execution.beginAttempt_inv begun
  have attempts : running.attempts = execution.attempts ++ [attempt] := by rw [began]
  have request : RequestedAs (executionToRecord execution) running := .of_fields began
  have copy := held.copy.begun request attempts owner numbered attemptId more
  have heldBegun : Held reactions new running mid := by
    apply held.commits apart copy _ begins
    rw [attempts]
    exact continues_append execution.attempts [attempt]
  have heldLaunched : Held reactions new running mid' := by
    obtain ⟨row, stored, copied⟩ := heldBegun
    rw [← same] at row stored
    exact ⟨row, stored, copied⟩
  obtain ⟨earlier, last, latest, _, recorded⟩ := Execution.recordAttemptResult_inv recording
  obtain ⟨rfl, ⟨⟩⟩ := List.append_inj' (attempts.symm.trans latest) rfl
  have attempts' : next.attempts = execution.attempts ++ [finished] := by rw [recorded]
  have request' : RequestedAs (executionToRecord running) next := .of_fields recorded
  have since := finish_since ended
  have heldRecorded : Held reactions new next world' := by
    apply heldLaunched.commits apart (copy.recorded request' attempts attempts' since.same) _ records
    rw [attempts, attempts']
    exact continues_finished execution.attempts since
  refine ⟨heldRecorded, ?_, ?_⟩
  · rw [commits_launches records, launched, commits_launches begins]
  · rw [attempts', List.map_append, List.map_singleton, (attemptFinish_inv ended).1, numbered]

/-! ## The loop -/

/-- Attempt `n` is the first whose report the policy answers with no other. -/
structure FirstRefusal (policy : RetryPolicy) (report : Nat → ExecutionReport) (n : Nat) : Prop where
  first : 1 ≤ n
  bounded : n ≤ policy.maxAttempts
  retried : ∀ k, 1 ≤ k → k < n → Retries policy k (report k)
  refused : ¬ Retries policy n (report n)

section Loop

variable {report : Nat → ExecutionReport} {revision : TaskRevision}
  {environment : List (Text × Text)}

theorem runAttempt_returns (apart : DistinctIds reactions)
    (replies : ∀ n, (reactions.attempt n).reply = .ok (report n))
    (open_ : execution.isFinished = false) (held : Held reactions new execution world)
    (more : execution.attemptCount + 1 ≤ maxRetryAttempts) :
    Returns (RuntimeService.runAttempt (reactions.attempt (execution.attemptCount + 1)) revision
        environment execution) world fun result world' =>
      result.2 = report (execution.attemptCount + 1) ∧ result.1.isFinished = false ∧
        result.1.attemptCount = execution.attemptCount + 1 ∧
        Held reactions new result.1 world' ∧ launchCount world' = launchCount world + 1 ∧
        result.1.attempts.map entryOf = execution.attempts.map entryOf ++
          [entryFor report (execution.attemptCount + 1)] := by
  have replied := replies (execution.attemptCount + 1)
  obtain ⟨⟨next, last⟩, world', ran, told, open', _, counted, _⟩ := returns_of_ends
    (runAttempt_ends (reactions.attempt (execution.attemptCount + 1)) revision none environment open_
      (held.openRow open_)) (by
    rintro raised world' ⟨struck, _⟩
    rw [replied] at struck
    cases struck)
  obtain ⟨held', launched, entries⟩ := runAttempt_held apart held more ran
  rw [replied] at told
  obtain rfl := Except.ok.inj told
  exact ⟨_, world', ran, rfl, open', counted, held', launched, entries⟩

theorem finish_held (apart : DistinctIds reactions) {clock : Except Raised UtcTimestamp}
    {fault : Fault} {verdict : Verdict} (reasoned : verdict.Reasoned)
    (open_ : execution.isFinished = false) (held : Held reactions new execution world)
    (quiet : finishing clock fault verdict = .ok ()) :
    Returns (RuntimeService.finish clock fault execution verdict.outcome verdict.reasonCode
        verdict.explanation) world fun finished world' =>
      Held reactions new finished world' ∧ launchCount world' = launchCount world ∧
        finished.attempts = execution.attempts := by
  obtain ⟨finished, world', ran, _⟩ := returns_of_ends
    (finish_ends clock fault open_ reasoned world held.row) (by
    rintro raised world' ⟨struck, _⟩
    rw [quiet] at struck
    cases struck)
  obtain ⟨_, copy, commits⟩ := (ends_of_ok ran).mp
    (finish_commits clock fault open_ reasoned world held.row)
  refine ⟨finished, world', ran, ?_, commits_launches commits, copy.attempts⟩
  apply held.commits apart (held.copy.of_same copy.request copy.attempts) _ commits
  rw [copy.attempts]
  exact continues_refl execution.attempts

/-- By induction on the attempts that are left; each retry is one attempt below the maximum, so
the fuel lasts. -/
theorem attempts_exact (apart : DistinctIds reactions)
    (replies : ∀ n, (reactions.attempt n).reply = .ok (report n))
    (quiet : ∀ n, FirstRefusal revision.controls.retry report n →
      finishing reactions.finishClock reactions.finish
        (verdictOn revision.controls.retry n (report n)) = .ok ()) (fuel : Nat) :
    ∀ {execution : Execution} {world : World}, execution.isFinished = false →
      Held reactions new execution world → 1 ≤ fuel →
      execution.attemptCount + fuel = revision.controls.retry.maxAttempts →
      (∀ k, 1 ≤ k → k < execution.attemptCount + 1 →
        Retries revision.controls.retry k (report k)) →
      ∃ more, FirstRefusal revision.controls.retry report (execution.attemptCount + more) ∧
        Returns (RuntimeService.attempts reactions revision environment fuel execution) world
          fun finished world' => Held reactions new finished world' ∧
            launchCount world' = launchCount world + more ∧
            finished.attempts.map entryOf = execution.attempts.map entryOf ++
              (List.range' (execution.attemptCount + 1) more).map (entryFor report) := by
  induction fuel with
  | zero =>
      intro execution world _ _ some_
      omega
  | succ fuel ih =>
      intro execution world open_ held _ enough retried
      have bounded := revision.controls.retry.attemptsBounded
      obtain ⟨⟨next, last⟩, mid, ran, rfl, open', counted, held', launched, entries⟩ :=
        @runAttempt_returns _ _ _ _ _ revision environment apart replies open_ held (by omega)
      dsimp only at open' counted held' entries
      have step : ∀ post, Returns (do
            let classification := classifyReport (report (execution.attemptCount + 1)).result
            let retry := decideRetry classification.outcome revision.controls.retry
              next.attemptCount
            if retry.shouldRetry then
              RuntimeService.attempts reactions revision environment fuel next
            else
              RuntimeService.finish reactions.finishClock reactions.finish next
                classification.outcome classification.reasonCode
                (RuntimeService.finalExplanation classification retry)) mid post →
          Returns (RuntimeService.attempts reactions revision environment (fuel + 1) execution)
            world post := by
        rintro post ⟨finished, world', later, holds⟩
        refine ⟨finished, world', ?_, holds⟩
        unfold RuntimeService.attempts
        exact bind_eq_ok.mpr ⟨_, mid, ran, later⟩
      by_cases again : Retries revision.controls.retry (execution.attemptCount + 1)
          (report (execution.attemptCount + 1))
      · have below := decideRetry_bounded again
        obtain ⟨more, refusal, returns⟩ := ih open' held' (by omega) (by omega) (by
          intro k first before
          rw [counted] at before
          rcases Nat.lt_or_ge k (execution.attemptCount + 1) with earlier | here
          · exact retried k first earlier
          · obtain rfl : k = execution.attemptCount + 1 := by omega
            exact again)
        rw [counted] at refusal returns
        have same : execution.attemptCount + (more + 1) = execution.attemptCount + 1 + more := by
          omega
        refine ⟨more + 1, same ▸ refusal, step _ ?_⟩
        dsimp only
        rw [counted, if_pos (show _ = true from again)]
        refine returns.mono ?_
        rintro finished world' ⟨kept, launches, rest⟩
        refine ⟨kept, by omega, ?_⟩
        rw [rest, entries, List.append_assoc, List.range'_succ, List.map_cons]
        rfl
      · have refusal : FirstRefusal revision.controls.retry report (execution.attemptCount + 1) :=
          ⟨by omega, by omega, retried, again⟩
        refine ⟨1, refusal, step _ ?_⟩
        dsimp only
        rw [counted, if_neg (show ¬ _ = true from again)]
        refine (finish_held apart (verdictOn_reasoned revision.controls.retry
          (execution.attemptCount + 1) (report (execution.attemptCount + 1))) open' held'
          (quiet _ refusal)).mono ?_
        rintro finished world' ⟨kept, launches, attempts⟩
        refine ⟨kept, by omega, ?_⟩
        rw [attempts, entries]
        rfl

/-- The loop of `_run_attempts` ends with the first report that the policy does not retry: it has
invoked the executor once for each attempt up to that one, and what is stored are the reports in
order. -/
theorem runAttempts_exact (service : RuntimeService) (request : RunRequest)
    (registered : revision.action.executorType ∈ service.registered)
    (secretless : revision.action.secretReferences = []) (apart : DistinctIds reactions)
    (replies : ∀ n, (reactions.attempt n).reply = .ok (report n))
    (quiet : ∀ n, FirstRefusal revision.controls.retry report n →
      finishing reactions.finishClock reactions.finish
        (verdictOn revision.controls.retry n (report n)) = .ok ())
    (open_ : execution.isFinished = false) (fresh : execution.attempts = [])
    (row : world.database.record? execution.executionId = some (executionToRecord execution))
    (unstored : world.database.attemptsFor execution.executionId = []) :
    ∃ n, FirstRefusal revision.controls.retry report n ∧
      Returns (service.runAttempts reactions revision request execution) world
        fun _ world' => launchCount world' = launchCount world + n ∧
          (world'.database.attemptsFor execution.executionId).map entryOf =
            (List.range' 1 n).map (entryFor report) := by
  have prepared : prepare service.registered revision.action request.environmentOverrides =
      .ok (updateEnvironment revision.action.literalEnvironment request.environmentOverrides) := by
    unfold prepare
    rw [if_neg (not_not.mpr registered), if_neg (not_not.mpr secretless)]
  have none_ : execution.attemptCount = 0 := by
    rw [Execution.attemptCount, fresh]
    rfl
  have held : Held reactions execution execution world :=
    ⟨row, unstored.trans fresh.symm, Copy.bare (.refl execution) fresh⟩
  obtain ⟨n, refusal, finished, world', ran, kept, launched, entries⟩ := @attempts_exact _ _ report
    revision (updateEnvironment revision.action.literalEnvironment request.environmentOverrides)
    apart replies quiet revision.controls.retry.maxAttempts execution world open_ held
    revision.controls.retry.positive (by omega) (by omega)
  rw [none_, Nat.zero_add] at refusal entries
  refine ⟨n, refusal, finished, world', ?_, launched, ?_⟩
  · unfold RuntimeService.runAttempts
    exact bind_domain.mpr ⟨_, prepared, ran⟩
  · have stored := kept.attempts
    rw [kept.copy.named] at stored
    rw [stored, entries, fresh]
    rfl

end Loop

end Held

/-! ## A script that fails once -/

namespace Backup

theorem failed_bounds : (0 : Int) ≤ 1 ∧ (1 : Int) ≤ maxExitCode := by decide

def failure : ExecutionReport := ⟨ProcessResult.exited 1 failed_bounds .zero, [], []⟩

/-- The script fails once and then succeeds. -/
def outcomes (n : Nat) : ExecutionReport := if n = 1 then failure else report

/-- A clock that stands still. -/
def rushed : Reactions :=
  { quiet with attempt := fun n =>
      ⟨.ok ⟨2⟩, ⟨n % uuidBound, attemptId_bounded n⟩, .none, .ok (outcomes n), .ok ⟨2⟩, .none⟩ }

theorem rushed_distinct : DistinctIds rushed := numbered_distinct

def retried (policy : RetryPolicy) : TaskRevision :=
  { revision with controls := { controls with retry := policy } }

def unattempted : World :=
  { world with database := { world.database with
      executions := [executionToRecord TaskControl.Nightly.pending] } }

theorem retries_failure {policy : RetryPolicy} (more : 1 < policy.maxAttempts) :
    Retries policy 1 failure := by
  have failed : (classifyReport failure.result).outcome = .failed := rfl
  have enabled : policy.retriesEnabled = true := decide_eq_true more
  unfold Retries decideRetry
  rw [failed, if_neg (by decide), if_neg (by simp [enabled]), if_neg (by omega),
    if_neg fun both => absurd both.1 (by decide)]

theorem refuses_success (policy : RetryPolicy) (n : Nat) : ¬ Retries policy n report := by
  have succeeded : (classifyReport report.result).outcome = .succeeded := rfl
  unfold Retries decideRetry
  rw [succeeded, if_pos (by decide)]
  decide

theorem patienceBounded : 30 ≤ maxDurationSeconds := by decide

theorem thriceBounded : 1 ≤ 3 ∧ 3 ≤ maxRetryAttempts := by decide

/-- Three attempts, thirty seconds apart. -/
def patient : RetryPolicy where
  maxAttempts := 3
  backoff := .fixed
  baseDelay := ⟨30, patienceBounded⟩
  maxDelay := ⟨30, patienceBounded⟩
  retryOutcomeFailures := false
  retryTimeouts := false
  positive := thriceBounded.1
  attemptsBounded := thriceBounded.2
  delaysOrdered := Nat.le_refl 30

/-- The attempts end with the second. -/
theorem refusal_second {policy : RetryPolicy} (more : 1 < policy.maxAttempts) {n : Nat}
    (refusal : FirstRefusal policy outcomes n) : n = 2 := by
  have first := refusal.first
  rcases Nat.lt_trichotomy n 2 with less | equal | greater
  · obtain rfl : n = 1 := by omega
    exact absurd (retries_failure more) refusal.refused
  · exact equal
  · exact absurd (refusal.retried 2 (by omega) greater) (refuses_success policy 2)

end Backup

theorem runAttempts_exact_patient :
    ∃ n, FirstRefusal Backup.patient Backup.outcomes n ∧
      Returns (Backup.service.runAttempts Backup.rushed (Backup.retried Backup.patient)
          Backup.request TaskControl.Nightly.pending) Backup.unattempted
        fun _ world' => launchCount world' = launchCount Backup.unattempted + n ∧
          (world'.database.attemptsFor TaskControl.Nightly.pending.executionId).map entryOf =
            (List.range' 1 n).map (entryFor Backup.outcomes) := by
  apply @runAttempts_exact Backup.rushed TaskControl.Nightly.pending Backup.unattempted
    Backup.outcomes (Backup.retried Backup.patient) Backup.service Backup.request (by decide) rfl
    Backup.rushed_distinct (fun _ => rfl) _ rfl rfl rfl rfl
  intro n refusal
  obtain rfl := Backup.refusal_second (by decide) refusal
  rfl

end TaskControl.Runtime
