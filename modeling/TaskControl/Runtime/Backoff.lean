import TaskControl.Runtime.Retries

/-!
# Delays between attempts

The policy computes a delay before each retry.  The loop over the attempts never
waits for it: how far two attempts are apart is left to the clock.
-/

set_option autoImplicit false

namespace TaskControl

theorem RetryPolicy.delay_bounded (policy : RetryPolicy) (seconds : Nat) :
    min seconds policy.maxDelay.seconds ≤ maxDurationSeconds :=
  (Nat.min_le_right _ _).trans policy.maxDelay.bounded

/-- The delay before a retry, not capped yet. -/
def RetryPolicy.uncappedDelay (policy : RetryPolicy) (retryIndex : Nat) : Nat :=
  match policy.backoff with
  | .fixed => policy.baseDelay.seconds
  | .linear => policy.baseDelay.seconds * (retryIndex + 1)
  | .exponential => policy.baseDelay.seconds * 2 ^ retryIndex

/-- `delay_before`. -/
def RetryPolicy.delayBefore (policy : RetryPolicy) (attemptNumber : Nat) :
    Except TaskControlError Duration :=
  if attemptNumber < 1 then .error (validationError "Attempt numbers start at 1.")
  else if attemptNumber = 1 then .ok .zero
  else
    .ok ⟨min (policy.uncappedDelay (attemptNumber - 2)) policy.maxDelay.seconds,
      policy.delay_bounded _⟩

theorem RetryPolicy.delayBefore_undelayed {policy : RetryPolicy}
    (undelayed : policy.baseDelay.seconds = 0) {attemptNumber : Nat} {delay : Duration}
    (computed : policy.delayBefore attemptNumber = .ok delay) : delay.seconds = 0 := by
  unfold delayBefore at computed
  split at computed
  · cases computed
  · split at computed
    · cases computed
      rfl
    · cases computed
      have nothing : policy.uncappedDelay (attemptNumber - 2) = 0 := by
        unfold uncappedDelay
        rw [undelayed]
        cases policy.backoff <;> simp
      simp [nothing]

/-- The first retry is delayed by the base delay. -/
theorem RetryPolicy.delayBefore_second (policy : RetryPolicy) :
    policy.delayBefore 2 = .ok policy.baseDelay := by
  have base : policy.uncappedDelay 0 = policy.baseDelay.seconds := by
    unfold uncappedDelay
    cases policy.backoff <;> simp
  have capped : min (policy.uncappedDelay (2 - 2)) policy.maxDelay.seconds =
      policy.baseDelay.seconds := by
    rw [Nat.sub_self, base]
    exact Nat.min_eq_left policy.delaysOrdered
  unfold delayBefore
  rw [if_neg (by omega), if_neg (by omega)]
  congr 1
  cases known : policy.baseDelay with
  | mk seconds bounded =>
      rw [known] at capped
      simp only [capped]

namespace Runtime

open PythonText Effects Persistence

/-- No attempt begins before the delay since the one before it is over. -/
def HonoursBackoff (policy : RetryPolicy) (attempts : List ExecutionAttempt) : Prop :=
  ∀ first ∈ attempts, ∀ second ∈ attempts, second.attemptNumber = first.attemptNumber + 1 →
    ∀ finishedAt ∈ first.finishedAt, ∀ delay,
      policy.delayBefore second.attemptNumber = .ok delay →
        finishedAt.add delay ≤ second.startedAt

/-- What the attempts read off the clock, in the order in which they read it. -/
def clockReading (reactions : Reactions) (i : Nat) : Except Raised UtcTimestamp :=
  if i % 2 = 0 then (reactions.attempt (i / 2 + 1)).startClock
  else (reactions.attempt (i / 2 + 1)).endClock

def NonDecreasing (reactions : Reactions) : Prop :=
  ∀ i j first second, i ≤ j → clockReading reactions i = .ok first →
    clockReading reactions j = .ok second → first ≤ second

/-! ## Attempts with their readings -/

/-- The attempt bears the moments that the clock gave for its number. -/
structure Filed (reactions : Reactions) (limit : Nat) (attempt : ExecutionAttempt) : Prop where
  bounded : attempt.attemptNumber ≤ limit
  attemptId : attempt.attemptId = (reactions.attempt attempt.attemptNumber).attemptId
  started : (reactions.attempt attempt.attemptNumber).startClock = .ok attempt.startedAt
  finished : ∀ moment, attempt.finishedAt = some moment →
    (reactions.attempt attempt.attemptNumber).endClock = .ok moment

def FiledRows (reactions : Reactions) (limit : Nat) (executionId : ExecutionId)
    (world : World) : Prop :=
  ∀ row ∈ world.database.attemptsFor executionId, Filed reactions limit row

variable {reactions : Reactions} {limit : Nat}

/-- Rows of one attempt are told apart by its number. -/
theorem Filed.same_number (apart : DistinctIds reactions) (small : limit ≤ maxRetryAttempts)
    {first second : ExecutionAttempt} (filed : Filed reactions limit first)
    (filed' : Filed reactions limit second) (same : first.attemptId = second.attemptId) :
    first.attemptNumber = second.attemptNumber := by
  rw [filed.attemptId, filed'.attemptId] at same
  have bounded := filed.bounded
  have bounded' := filed'.bounded
  rcases Nat.lt_trichotomy first.attemptNumber second.attemptNumber with less | equal | more
  · exact absurd same (apart _ _ first.numbered less (by omega))
  · exact equal
  · exact absurd same.symm (apart _ _ second.numbered more (by omega))

theorem Filed.applied (apart : DistinctIds reactions) (small : limit ≤ maxRetryAttempts)
    {row attempt : ExecutionAttempt} (filed : Filed reactions limit row)
    (filed' : Filed reactions limit attempt) (same : row.attemptId = attempt.attemptId) :
    Filed reactions limit (applyAttemptToRecord row attempt) := by
  have number := filed.same_number apart small filed' same
  refine ⟨filed.bounded, filed.attemptId, filed.started, ?_⟩
  intro moment read
  change (reactions.attempt row.attemptNumber).endClock = _
  rw [number]
  exact filed'.finished moment read

theorem filed_upsert (apart : DistinctIds reactions) (small : limit ≤ maxRetryAttempts)
    {executionId : ExecutionId} {rows : List ExecutionAttempt} {attempt : ExecutionAttempt}
    (filed : ∀ row ∈ rows, row.executionId = executionId → Filed reactions limit row)
    (filed' : Filed reactions limit attempt) :
    ∀ row ∈ Database.upsertAttempt executionId rows attempt, row.executionId = executionId →
      Filed reactions limit row := by
  unfold Database.upsertAttempt
  split
  · intro row member own
    obtain ⟨old, stored, rfl⟩ := List.mem_map.mp member
    rw [Database.upsertAttempt_executionId] at own
    split
    · next same => exact (filed old stored own).applied apart small filed' same.2
    · exact filed old stored own
  · intro row member own
    rcases List.mem_append.mp member with old | last
    · exact filed row old own
    · rw [List.mem_singleton.mp last]
      exact filed'

theorem filed_upserts (apart : DistinctIds reactions) (small : limit ≤ maxRetryAttempts)
    {executionId : ExecutionId} (attempts : List ExecutionAttempt) {rows : List ExecutionAttempt}
    (filed : ∀ row ∈ rows, row.executionId = executionId → Filed reactions limit row)
    (filed' : ∀ attempt ∈ attempts, Filed reactions limit attempt) :
    ∀ row ∈ attempts.foldl (Database.upsertAttempt executionId) rows,
      row.executionId = executionId → Filed reactions limit row := by
  induction attempts generalizing rows with
  | nil => exact filed
  | cons attempt rest ih =>
      rw [List.foldl_cons]
      exact ih (filed_upsert apart small filed (filed' attempt List.mem_cons_self))
        fun other member => filed' other (List.mem_cons_of_mem attempt member)

/-- A save of filed attempts leaves the rows filed, whether it commits or not. -/
theorem save_files (apart : DistinctIds reactions) (small : limit ≤ maxRetryAttempts)
    (fault : Fault) {execution : Execution} {world : World}
    (rows : FiledRows reactions limit execution.executionId world)
    (filed : ∀ attempt ∈ execution.attempts, Filed reactions limit attempt) :
    Ends (RuntimeService.save fault execution) world
      (fun saved world' => execution = saved ∧
        FiledRows reactions limit execution.executionId world')
      (fun _ world' => FiledRows reactions limit execution.executionId world') := by
  have stored (database : Database) (done : world.database.saveExecution execution = .ok database) :
      FiledRows reactions limit execution.executionId
        (committed execution.executionId world database) := by
    have same : (committed execution.executionId world database).database = database := by
      unfold committed
      split <;> rfl
    intro row member
    rw [same] at member
    obtain ⟨held, own⟩ := List.mem_filter.mp member
    unfold Database.saveExecution at done
    split at done
    · cases done
    · cases done
      refine filed_upserts apart small execution.attempts ?_ filed row held (by simpa using own)
      intro old member' own'
      exact rows old (List.mem_filter.mpr ⟨member', by simpa using own'⟩)
  unfold RuntimeService.save
  refine Ends.bind ((transaction_ends fault _ _ world).mono ?_ ?_)
  · rintro _ world' ⟨_, database, done, rfl⟩
    exact ends_pure ⟨rfl, stored database done⟩
  · rintro raised world' (⟨rfl, _⟩ | ⟨_, database, done, rfl⟩)
    · exact rows
    · exact stored database done

/-! ## The loop -/

theorem started_filed {execution : Execution} {attempt : ExecutionAttempt}
    {startedAt : UtcTimestamp} {executorType : String}
    (more : execution.attemptCount + 1 ≤ limit)
    (clock : (reactions.attempt (execution.attemptCount + 1)).startClock = .ok startedAt)
    (made : ExecutionAttempt.started (reactions.attempt (execution.attemptCount + 1)).attemptId
      execution.executionId (execution.attemptCount + 1) startedAt executorType = .ok attempt) :
    Filed reactions limit attempt ∧ attempt.attemptNumber = execution.attemptCount + 1 := by
  unfold ExecutionAttempt.started at made
  split at made
  · cases made
    refine ⟨⟨more, rfl, clock, ?_⟩, rfl⟩
    intro moment never
    cases never
  · cases made

theorem finished_filed {attempt finished : ExecutionAttempt} {result : ProcessResult}
    {finishedAt : UtcTimestamp} {stdout stderr : Text} (filed : Filed reactions limit attempt)
    (clock : (reactions.attempt attempt.attemptNumber).endClock = .ok finishedAt)
    (done : attempt.finish result finishedAt stdout stderr = .ok finished) :
    Filed reactions limit finished := by
  unfold ExecutionAttempt.finish at done
  split at done
  · cases done
  · cases done
    refine ⟨filed.bounded, filed.attemptId, filed.started, ?_⟩
    intro moment read
    cases read
    exact clock

theorem filed_concat {earlier : List ExecutionAttempt} {attempt : ExecutionAttempt}
    (filed : ∀ old ∈ earlier, Filed reactions limit old)
    (filed' : Filed reactions limit attempt) :
    ∀ row ∈ earlier ++ [attempt], Filed reactions limit row := by
  intro row member
  rcases List.mem_append.mp member with old | last
  · exact filed row old
  · rw [List.mem_singleton.mp last]
    exact filed'

theorem runAttempt_files (apart : DistinctIds reactions) (small : limit ≤ maxRetryAttempts)
    (revision : TaskRevision) (environment : List (Text × Text)) {execution : Execution}
    {world : World} (rows : FiledRows reactions limit execution.executionId world)
    (filed : ∀ attempt ∈ execution.attempts, Filed reactions limit attempt)
    (more : execution.attemptCount + 1 ≤ limit) :
    Ends (RuntimeService.runAttempt (reactions.attempt (execution.attemptCount + 1)) revision
        environment execution) world
      (fun result world' => FiledRows reactions limit execution.executionId world' ∧
        result.1.executionId = execution.executionId ∧
        (∀ attempt ∈ result.1.attempts, Filed reactions limit attempt) ∧
        result.1.attemptCount = execution.attemptCount + 1)
      (fun _ world' => FiledRows reactions limit execution.executionId world') := by
  unfold RuntimeService.runAttempt
  refine Ends.bind ((answer_ends _ world).mono ?_ (by rintro _ _ ⟨_, rfl⟩; exact rows))
  rintro startedAt world ⟨clock, rfl⟩
  refine Ends.bind ((domain_ends _ world).mono ?_ (by rintro _ _ ⟨_, _, _, rfl⟩; exact rows))
  rintro attempt world ⟨made, rfl⟩
  obtain ⟨filedAttempt, numbered⟩ := started_filed more clock made
  refine Ends.bind ((domain_ends _ world).mono ?_ (by rintro _ _ ⟨_, _, _, rfl⟩; exact rows))
  rintro running world ⟨begun, rfl⟩
  obtain ⟨_, _, began⟩ := Execution.beginAttempt_inv begun
  have named : running.executionId = execution.executionId := by rw [began]
  have attempts : running.attempts = execution.attempts ++ [attempt] := by rw [began]
  have filedRunning := filed_concat filed filedAttempt
  rw [← attempts] at filedRunning
  rw [← named] at rows ⊢
  refine Ends.bind ((save_files apart small _ rows filedRunning).mono ?_ fun _ _ kept => kept)
  rintro _ mid ⟨rfl, rowsBegun⟩
  unfold RuntimeService.launch
  refine Ends.bind (Ends.bind (ends_modify ((answer_ends _ _).mono ?_
    (by rintro _ _ ⟨_, rfl⟩; exact rowsBegun))))
  rintro report mid' ⟨_, rfl⟩
  refine Ends.bind ((answer_ends _ _).mono ?_ (by rintro _ _ ⟨_, rfl⟩; exact rowsBegun))
  rintro finishedAt mid' ⟨clock', rfl⟩
  refine Ends.bind ((domain_ends _ _).mono ?_ (by rintro _ _ ⟨_, _, _, rfl⟩; exact rowsBegun))
  rintro finished mid' ⟨ended, rfl⟩
  have filedFinished := finished_filed filedAttempt (numbered ▸ clock') ended
  refine Ends.bind ((domain_ends _ _).mono ?_ (by rintro _ _ ⟨_, _, _, rfl⟩; exact rowsBegun))
  rintro recorded mid' ⟨recording, rfl⟩
  obtain ⟨earlier, last, latest, _, fields⟩ := Execution.recordAttemptResult_inv recording
  obtain ⟨rfl, _⟩ := List.append_inj' (attempts.symm.trans latest) rfl
  have named' : recorded.executionId = running.executionId := by rw [fields]
  have attempts' : recorded.attempts = execution.attempts ++ [finished] := by rw [fields]
  have filedRecorded := filed_concat filed filedFinished
  rw [← attempts'] at filedRecorded
  have rowsBegun' : FiledRows reactions limit recorded.executionId
      { mid with trace := mid.trace ++ [.launched .recorded
        (RuntimeService.requestFor revision.action environment revision.controls)
        revision.controls] } := named' ▸ rowsBegun
  refine Ends.bind ((save_files apart small _ rowsBegun' filedRecorded).mono ?_
    fun _ _ kept => named' ▸ kept)
  rintro _ world' ⟨rfl, kept⟩
  refine ends_pure ⟨named' ▸ kept, named', filedRecorded, ?_⟩
  rw [Execution.attemptCount, attempts', List.length_append]
  rfl

/-- By induction on the attempts that are left. -/
theorem attempts_file (apart : DistinctIds reactions) (small : limit ≤ maxRetryAttempts)
    (revision : TaskRevision) (environment : List (Text × Text)) (fuel : Nat) :
    ∀ {execution : Execution} {world : World},
      FiledRows reactions limit execution.executionId world →
      (∀ attempt ∈ execution.attempts, Filed reactions limit attempt) →
      execution.attemptCount + fuel ≤ limit →
      Ends (RuntimeService.attempts reactions revision environment fuel execution) world
        (fun _ world' => FiledRows reactions limit execution.executionId world')
        (fun _ world' => FiledRows reactions limit execution.executionId world') := by
  induction fuel with
  | zero =>
      intro execution world rows _ _
      exact ends_throw rows
  | succ fuel ih =>
      intro execution world rows filed enough
      unfold RuntimeService.attempts
      refine Ends.bind ((runAttempt_files apart small revision environment rows filed
        (by omega)).mono ?_ fun _ _ kept => kept)
      rintro ⟨next, report⟩ mid ⟨kept, named, filed', counted⟩
      dsimp only at named filed' counted ⊢
      split
      · have later := @ih next mid (named ▸ kept) filed' (by omega)
        rw [named] at later
        exact later
      · unfold RuntimeService.finish
        refine Ends.bind ((answer_ends _ mid).mono ?_ (by rintro _ _ ⟨_, rfl⟩; exact kept))
        rintro finishedAt mid ⟨_, rfl⟩
        refine Ends.bind ((domain_ends _ mid).mono ?_ (by rintro _ _ ⟨_, _, _, rfl⟩; exact kept))
        rintro finished mid ⟨done, rfl⟩
        obtain ⟨_, _, fields⟩ := Execution.finish_inv done
        have named' : finished.executionId = execution.executionId := by rw [fields, named]
        have attempts : finished.attempts = next.attempts := by rw [fields]
        rw [← attempts] at filed'
        rw [← named'] at kept ⊢
        exact (save_files apart small _ kept filed').mono (fun _ _ holds => holds.2)
          fun _ _ holds => holds

/-! ## Policies whose delays are kept -/

/-- The execution is stored, and no attempt of it has been made. -/
structure Unattempted (execution : Execution) (world : World) : Prop where
  open_ : execution.isFinished = false
  fresh : execution.attempts = []
  row : world.database.record? execution.executionId = some (executionToRecord execution)
  unstored : world.database.attemptsFor execution.executionId = []

/-- The attempts that are stored when the loop of `_run_attempts` ends, however it ends. -/
def storedAttempts (service : RuntimeService) (reactions : Reactions) (revision : TaskRevision)
    (request : RunRequest) (execution : Execution) (world : World) : List ExecutionAttempt :=
  (finalWorld (service.runAttempts reactions revision request execution world)).database.attemptsFor
    execution.executionId

theorem storedAttempts_filed (service : RuntimeService) (revision : TaskRevision)
    (request : RunRequest) {execution : Execution} {world : World} (apart : DistinctIds reactions)
    (unattempted : Unattempted execution world) :
    ∀ attempt ∈ storedAttempts service reactions revision request execution world,
      Filed reactions revision.controls.retry.maxAttempts attempt := by
  have none_ : execution.attemptCount = 0 := by
    rw [Execution.attemptCount, unattempted.fresh]
    rfl
  have rows : FiledRows reactions revision.controls.retry.maxAttempts execution.executionId
      world := by
    intro row member
    rw [unattempted.unstored] at member
    cases member
  have ends : Ends (service.runAttempts reactions revision request execution) world
      (fun _ world' => FiledRows reactions revision.controls.retry.maxAttempts
        execution.executionId world')
      (fun _ world' => FiledRows reactions revision.controls.retry.maxAttempts
        execution.executionId world') := by
    unfold RuntimeService.runAttempts
    refine Ends.bind ((domain_ends _ world).mono ?_ (by rintro _ _ ⟨_, _, _, rfl⟩; exact rows))
    rintro environment world ⟨_, rfl⟩
    refine attempts_file apart revision.controls.retry.attemptsBounded revision environment
      revision.controls.retry.maxAttempts rows ?_ (by omega)
    rw [unattempted.fresh]
    intro attempt member
    cases member
  exact Runtime.Ends.final ends (fun _ _ kept => kept) fun _ _ kept => kept

/-- An attempt begins no earlier than the one before it finished. -/
theorem Filed.after (steady : NonDecreasing reactions) {first second : ExecutionAttempt}
    (filed : Filed reactions limit first) (filed' : Filed reactions limit second)
    (next : second.attemptNumber = first.attemptNumber + 1) {finishedAt : UtcTimestamp}
    (finished : first.finishedAt = some finishedAt) : finishedAt ≤ second.startedAt := by
  have numbered := first.numbered
  apply steady (2 * (first.attemptNumber - 1) + 1) (2 * first.attemptNumber) _ _ (by omega)
  · have odd : (2 * (first.attemptNumber - 1) + 1) % 2 ≠ 0 := by omega
    have half : (2 * (first.attemptNumber - 1) + 1) / 2 + 1 = first.attemptNumber := by omega
    rw [clockReading, if_neg odd, half]
    exact filed.finished finishedAt finished
  · have even : 2 * first.attemptNumber % 2 = 0 := by omega
    have half : 2 * first.attemptNumber / 2 + 1 = second.attemptNumber := by omega
    rw [clockReading, if_pos even, half]
    exact filed'.started

/-- In every run with a clock that does not go back, the backoff is honoured. -/
def BackoffHonoured (policy : RetryPolicy) : Prop :=
  ∀ (service : RuntimeService) (reactions : Reactions) (revision : TaskRevision)
    (request : RunRequest) (execution : Execution) (world : World),
    revision.controls.retry = policy → DistinctIds reactions → NonDecreasing reactions →
      Unattempted execution world →
        HonoursBackoff policy (storedAttempts service reactions revision request execution world)

namespace Backup

theorem rushed_steady : NonDecreasing rushed := by
  have still (i : Nat) : clockReading rushed i = .ok ⟨2⟩ := by
    unfold clockReading
    split <;> rfl
  intro i j first second _ read read'
  rw [still] at read read'
  cases read
  cases read'
  exact Int.le_refl 2

theorem unattempted_stored : Unattempted TaskControl.Nightly.pending unattempted :=
  ⟨rfl, rfl, rfl, rfl⟩

/-- Where a retry is allowed, the run stores two attempts of the same moment. -/
theorem rushed_attempts {policy : RetryPolicy} (more : 1 < policy.maxAttempts) :
    ∃ first second,
      storedAttempts service rushed (retried policy) request TaskControl.Nightly.pending unattempted =
        [first, second] ∧ first.attemptNumber = 1 ∧ second.attemptNumber = 2 ∧
        first.finishedAt = some ⟨2⟩ ∧ second.startedAt = ⟨2⟩ := by
  have held : Held rushed TaskControl.Nightly.pending TaskControl.Nightly.pending unattempted :=
    ⟨rfl, rfl, Copy.bare (.refl _) rfl⟩
  obtain ⟨n, refusal, finished, world', ran, kept, _, entries⟩ := @attempts_exact _ _ outcomes
    (retried policy) (updateEnvironment (retried policy).action.literalEnvironment
    request.environmentOverrides) rushed_distinct (fun _ => rfl) (by
      intro n refusal
      obtain rfl := refusal_second more refusal
      rfl) policy.maxAttempts TaskControl.Nightly.pending unattempted rfl held policy.positive
    (Nat.zero_add _) (fun k first before => absurd (Nat.lt_of_lt_of_le before first)
      (Nat.lt_irrefl k))
  obtain rfl : n = 2 := by
    have same := refusal_second more refusal
    change 0 + n = 2 at same
    omega
  have whole : service.runAttempts rushed (retried policy) request TaskControl.Nightly.pending
      unattempted = .ok finished world' := bind_domain.mpr ⟨_, rfl, ran⟩
  have stored : storedAttempts service rushed (retried policy) request
      TaskControl.Nightly.pending unattempted = finished.attempts := by
    have attempts := kept.attempts
    rw [kept.copy.named] at attempts
    rw [storedAttempts, whole]
    exact attempts
  have filed := storedAttempts_filed service (retried policy) request rushed_distinct
    unattempted_stored
  rw [stored] at filed
  change finished.attempts.map entryOf = [entryFor outcomes 1, entryFor outcomes 2] at entries
  obtain ⟨first, rest, attempts, one, entries⟩ := List.map_eq_cons_iff.mp entries
  obtain ⟨second, rest, rfl, two, entries⟩ := List.map_eq_cons_iff.mp entries
  obtain rfl := List.map_eq_nil_iff.mp entries
  rw [attempts] at filed stored
  refine ⟨first, second, stored, congrArg AttemptEntry.attemptNumber one,
    congrArg AttemptEntry.attemptNumber two, ?_, ?_⟩
  · cases ended : first.finishedAt with
    | none =>
        have unfinished := first.finishedTogether.mp ended
        have finished_ := congrArg AttemptEntry.result one
        change first.result = _ at finished_
        rw [unfinished] at finished_
        cases finished_
    | some moment =>
        have read := (filed first (by simp)).finished moment ended
        cases read
        rfl
  · have read := (filed second (by simp)).started
    injection read with same
    exact same.symm

end Backup

/-- The backoff is honoured in every run exactly where there is none to honour: the loop never
waits. -/
theorem backoff_honoured_iff (policy : RetryPolicy) :
    BackoffHonoured policy ↔ policy.maxAttempts = 1 ∨ policy.baseDelay.seconds = 0 := by
  constructor
  · intro honoured
    by_cases once : policy.maxAttempts = 1
    · exact .inl once
    · right
      have positive := policy.positive
      obtain ⟨first, second, stored, one, two, finished, started⟩ :=
        @Backup.rushed_attempts policy (by omega)
      have kept := honoured Backup.service Backup.rushed (Backup.retried policy) Backup.request
        TaskControl.Nightly.pending Backup.unattempted rfl Backup.rushed_distinct
        Backup.rushed_steady Backup.unattempted_stored
      rw [stored] at kept
      have delayed := kept first (by simp) second (by simp) (by rw [one, two]) _ finished
        policy.baseDelay (by rw [two]; exact policy.delayBefore_second)
      rw [started] at delayed
      change (2 : Int) + 1000000 * policy.baseDelay.seconds ≤ 2 at delayed
      omega
  · rintro undelayed service reactions revision request execution world rfl apart steady
      unattempted first member second member' next finishedAt finished delay computed
    have filed := storedAttempts_filed service revision request apart unattempted
    have limited := (filed second member').bounded
    have numbered := first.numbered
    rcases undelayed with once | undelayed
    · omega
    · have after := (filed first member).after steady (filed second member') next finished
      have nothing := RetryPolicy.delayBefore_undelayed undelayed computed
      change finishedAt.value + 1000000 * delay.seconds ≤ second.startedAt.value
      change finishedAt.value ≤ second.startedAt.value at after
      omega

/-- The second attempt begins at the very moment at which the first one failed. -/
theorem retried_at_once :
    NonDecreasing Backup.rushed ∧ ¬ HonoursBackoff Backup.patient
      (storedAttempts Backup.service Backup.rushed (Backup.retried Backup.patient) Backup.request
        TaskControl.Nightly.pending Backup.unattempted) := by
  refine ⟨Backup.rushed_steady, ?_⟩
  intro honoured
  obtain ⟨first, second, stored, one, two, finished, started⟩ :=
    @Backup.rushed_attempts Backup.patient (by decide)
  rw [stored] at honoured
  have delayed := honoured first (by simp) second (by simp) (by rw [one, two]) _ finished
    ⟨30, Backup.patienceBounded⟩ (by rw [two]; rfl)
  rw [started] at delayed
  revert delayed
  decide

end Runtime

end TaskControl
