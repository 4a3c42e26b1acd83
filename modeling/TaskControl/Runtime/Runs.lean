import TaskControl.Runtime.Summary

/-!
# Whole runs

`run` from its request to its end.  What happens before the execution is created
changes nothing; what happens after is the pattern of `Ended`.
-/

set_option autoImplicit false

namespace TaskControl.Runtime

open PythonText Effects Persistence

/-! ## Before the execution exists -/

/-- A domain error as an exception. -/
def raising {α : Type} : Except TaskControlError α → Except Raised α
  | .ok value => .ok value
  | .error error => .error (.taskControl error)

/-- What a run is about to create. -/
structure Start where
  task : Task
  revision : TaskRevision
  execution : Execution

/-- The lookup of `findExisting`, as a function of what it reads. -/
def existingOf (reactions : Reactions) (request : RunRequest) (database : Database) :
    Except Raised (Option Execution) :=
  match request.idempotencyKey with
  | some key => do
      reactions.duplicate
      raising (database.findByIdempotencyKey request.taskId key)
  | none => .ok none

/-- The execution that `runNew` creates. -/
def startNew (reactions : Reactions) (request : RunRequest) (task : Task)
    (revision : TaskRevision) : Except Raised Start := do
  let requestedAt ← reactions.requestClock
  let execution ← raising (RuntimeService.newExecution reactions request task revision requestedAt)
  return ⟨task, revision, execution⟩

/-- The part of `run` that only reads: the execution that an identical request created
before, or the one to create. -/
def start (reactions : Reactions) (request : RunRequest) (database : Database) :
    Except Raised (Execution ⊕ Start) := do
  reactions.load
  let found ← raising (RuntimeService.runnable database request.taskId)
  match ← existingOf reactions request database with
  | some existing => return .inl existing
  | none => return .inr (← startNew reactions request found.1 found.2)

theorem raising_eq_ok {α : Type} {result : Except TaskControlError α} {value : α} :
    raising result = .ok value ↔ result = .ok value := by
  cases result <;> simp [raising]

/-- What a run creates is pending, under the identity it was given. -/
theorem start_new {reactions : Reactions} {request : RunRequest} {database : Database}
    {new : Start} (starts : start reactions request database = .ok (.inr new)) :
    RuntimeService.runnable database request.taskId = .ok (new.task, new.revision) ∧
      new.execution.state = .pending ∧ new.execution.attempts = [] ∧
      new.execution.executionId = reactions.executionId ∧
      new.execution.taskId = new.task.taskId ∧
      new.execution.revisionId = new.revision.revisionId := by
  unfold start at starts
  obtain ⟨_, _, starts⟩ := except_bind_eq_ok.mp starts
  obtain ⟨⟨task, revision⟩, loaded, starts⟩ := except_bind_eq_ok.mp starts
  obtain ⟨existing, _, starts⟩ := except_bind_eq_ok.mp starts
  cases existing with
  | some existing => cases starts
  | none =>
      obtain ⟨new', started, starts⟩ := except_bind_eq_ok.mp starts
      cases starts
      obtain ⟨requestedAt, _, started⟩ := except_bind_eq_ok.mp started
      obtain ⟨execution, made, started⟩ := except_bind_eq_ok.mp started
      cases started
      obtain ⟨_, requested, pending, fresh, named, taskId, revisionId, _⟩ :=
        Execution.requested_ok reactions.executionId task.taskId revision.revisionId
          request.triggerSource requestedAt
          (some (request.correlationId.getD reactions.correlationId)) request.idempotencyKey
          request.requestedBy
      have same := raising_eq_ok.mp made
      unfold RuntimeService.newExecution at same
      rw [requested] at same
      cases same
      exact ⟨raising_eq_ok.mp loaded, pending, fresh, named, taskId, revisionId⟩

theorem pending_open {execution : Execution} (pending : execution.state = .pending)
    {world world' : World} (adds : Adds (executionToRecord execution) world world') :
    OpenRow execution.executionId world' := by
  refine ⟨executionToRecord execution, adds.row, ?_, adds.readable⟩
  change execution.state.isTerminal = false
  rw [pending]
  rfl

/-! ## The run -/

section Run

variable (service : RuntimeService) (reactions : Reactions) (request : RunRequest)

/-- The run created its execution and took it to its end. -/
def RanToEnd (new : Start) (result : Except Raised Verdict) (body handler cleanup : Option Verdict)
    (world world' : World) : Prop :=
  ∃ mid, Admitted reactions world.database new.execution ∧
    Adds (executionToRecord new.execution) world mid ∧
    Ended service reactions new.revision request result body handler cleanup ∧
    Executed service reactions new.revision request reactions.executionId body handler cleanup
      mid world'

/-- How a run returns. -/
def RunReturns (world : World) (result : RunResult) (world' : World) : Prop :=
  (∃ existing, start reactions request world.database = .ok (.inl existing) ∧
    result = ⟨existing, true⟩ ∧ world' = world) ∨
  ∃ new, start reactions request world.database = .ok (.inr new) ∧ reactions.create = .none ∧
    result.wasDuplicate = false ∧ ∃ verdict body handler cleanup,
      verdict.Finishes reactions.executionId result.execution ∧
      RanToEnd service reactions request new (.ok verdict) body handler cleanup world world'

/-- How a run raises: before its execution exists, with the creation, or on its way. -/
def RunRaises (world : World) (raised : Raised) (world' : World) : Prop :=
  (start reactions request world.database = .error raised ∧ world' = world) ∨
  ∃ new, start reactions request world.database = .ok (.inr new) ∧
    ((¬ Admitted reactions world.database new.execution ∧ world' = world) ∨
      (reactions.create = .after raised ∧ Admitted reactions world.database new.execution ∧
        Adds (executionToRecord new.execution) world world') ∨
      (reactions.create = .none ∧ ∃ body handler cleanup,
        RanToEnd service reactions request new (.error raised) body handler cleanup world world'))

theorem create_ends {new : Start} {world : World}
    (starts : start reactions request world.database = .ok (.inr new)) :
    Ends (do
      RuntimeService.persistNew reactions new.execution
      return ⟨← RuntimeService.execute service reactions new.revision request new.execution,
        false⟩ : Program Raised World RunResult) world
      (RunReturns service reactions request world) (RunRaises service reactions request world) := by
  obtain ⟨_, pending, fresh, named, _⟩ := start_new starts
  refine Ends.bind ((persistNew_ends reactions new.execution world).mono ?_ ?_)
  · rintro _ mid ⟨quiet, admitted, adds⟩
    have ends := execute_ends service reactions new.revision request pending fresh
      (pending_open pending adds)
    rw [named] at ends
    refine Ends.bind (ends.mono ?_ ?_)
    · rintro result world' ⟨verdict, body, handler, cleanup, ended, finishes, executed⟩
      exact ends_pure (.inr ⟨new, starts, quiet, rfl, verdict, body, handler, cleanup, finishes, mid,
        admitted, adds, ended, executed⟩)
    · rintro raised world' ⟨body, handler, cleanup, ended, executed⟩
      exact .inr ⟨new, starts, .inr (.inr ⟨quiet, body, handler, cleanup, mid, admitted, adds,
        ended, executed⟩)⟩
  · rintro raised world' (same | added)
    · exact .inr ⟨new, starts, .inl same⟩
    · exact .inr ⟨new, starts, .inr (.inl added)⟩

theorem findExisting_ends (world : World) :
    Ends (RuntimeService.findExisting reactions request) world
      (fun existing world' => existingOf reactions request world.database = .ok existing ∧
        world' = world)
      (fun raised world' => existingOf reactions request world.database = .error raised ∧
        world' = world) := by
  unfold RuntimeService.findExisting existingOf
  cases request.idempotencyKey with
  | none => exact ends_pure ⟨rfl, rfl⟩
  | some key =>
      refine Ends.bind ((answer_ends reactions.duplicate world).mono ?_ ?_)
      · rintro _ world ⟨read, rfl⟩
        refine Ends.bind (ends_get ((domain_ends _ world).mono ?_ ?_))
        · rintro existing world ⟨found, rfl⟩
          simp [read, found, raising, bind, Except.bind]
        · rintro raised world ⟨error, failed, rfl, rfl⟩
          simp [read, failed, raising, bind, Except.bind]
      · rintro raised world ⟨struck, rfl⟩
        simp [struck, bind, Except.bind]

theorem runNew_ends {task : Task} {revision : TaskRevision} {world : World}
    {post : RunResult → World → Prop} {raised : Raised → World → Prop}
    (creates : ∀ new, startNew reactions request task revision = .ok new →
      Ends (do
        RuntimeService.persistNew reactions new.execution
        return ⟨← RuntimeService.execute service reactions new.revision request new.execution,
          false⟩ : Program Raised World RunResult) world post raised)
    (misses : ∀ error, startNew reactions request task revision = .error error →
      raised error world) :
    Ends (RuntimeService.runNew service reactions request task revision) world post raised := by
  unfold RuntimeService.runNew
  refine Ends.bind ((answer_ends reactions.requestClock world).mono ?_ ?_)
  · rintro requestedAt world ⟨read, rfl⟩
    refine Ends.bind ((domain_ends _ world).mono ?_ ?_)
    · rintro execution world ⟨made, rfl⟩
      refine creates ⟨task, revision, execution⟩ ?_
      simp [startNew, read, made, raising, bind, Except.bind, pure, Except.pure]
    · rintro raised world ⟨error, failed, rfl, rfl⟩
      refine misses _ ?_
      simp [startNew, read, failed, raising, bind, Except.bind]
  · rintro raised world ⟨struck, rfl⟩
    refine misses _ ?_
    simp [startNew, struck, bind, Except.bind]

/-- A run by what its reading part comes to: an execution that exists, one to create, or an
exception. -/
theorem run_cases {world : World} {post : RunResult → World → Prop}
    {raised : Raised → World → Prop}
    (repeats : ∀ existing, start reactions request world.database = .ok (.inl existing) →
      post ⟨existing, true⟩ world)
    (creates : ∀ new, start reactions request world.database = .ok (.inr new) →
      Ends (do
        RuntimeService.persistNew reactions new.execution
        return ⟨← RuntimeService.execute service reactions new.revision request new.execution,
          false⟩ : Program Raised World RunResult) world post raised)
    (misses : ∀ error, start reactions request world.database = .error error →
      raised error world) :
    Ends (RuntimeService.run service reactions request) world post raised := by
  unfold RuntimeService.run RuntimeService.load
  refine Ends.bind (Ends.bind ((answer_ends reactions.load world).mono ?_ ?_))
  · rintro _ world ⟨load, rfl⟩
    refine Ends.bind (ends_get ((domain_ends _ world).mono ?_ ?_))
    · rintro ⟨task, revision⟩ world ⟨loaded, rfl⟩
      have read : ∀ existing, existingOf reactions request world.database = existing →
          start reactions request world.database = (existing >>= fun
            | some existing => return .inl existing
            | none => return .inr (← startNew reactions request task revision)) := by
        rintro existing rfl
        unfold start
        rw [load, loaded]
        rfl
      refine Ends.bind ((findExisting_ends reactions request world).mono ?_ ?_)
      · rintro existing world ⟨found, rfl⟩
        have begun := read _ found
        cases existing with
        | some existing => exact ends_pure (repeats existing begun)
        | none =>
            refine runNew_ends service reactions request ?_ ?_
            · intro started made
              refine creates started ?_
              rw [begun]
              simp [made, bind, Except.bind, pure, Except.pure]
            · intro raised failed
              refine misses raised ?_
              rw [begun]
              simp [failed, bind, Except.bind]
      · rintro raised world ⟨struck, rfl⟩
        exact misses raised (read _ struck)
    · rintro raised world ⟨error, failed, rfl, rfl⟩
      refine misses _ ?_
      unfold start
      rw [load, failed]
      rfl
  · rintro raised world ⟨struck, rfl⟩
    refine misses _ ?_
    unfold start
    rw [struck]
    rfl

/-- A run returns and raises only in these ways. -/
theorem run_ends (world : World) :
    Ends (RuntimeService.run service reactions request) world
      (RunReturns service reactions request world) (RunRaises service reactions request world) := by
  apply run_cases
  · intro existing starts
    exact .inl ⟨existing, starts, rfl, rfl⟩
  · intro new starts
    exact create_ends service reactions request starts
  · intro raised misses
    exact .inl ⟨misses, rfl⟩

end Run

/-! ## A published task

The task of the concrete runs: a published revision of a Python script that is tried once. -/

namespace Backup

theorem id_bounded : 7 < uuidBound := by decide

theorem later_bounded : 8 < uuidBound := by decide

theorem named : strip "Backup".toList ≠ [] := by decide

theorem nameBounded : "Backup".toList.length ≤ maxNameLength := by decide

theorem slugBounded : "backup".toList.length ≤ slugMaxLength := by decide

theorem slugShaped : TaskControl.slugShaped false "backup".toList = true := by decide

theorem entered : strip "backup.py".toList ≠ [] := by decide

theorem timeoutBounded : 60 ≤ maxDurationSeconds := by decide

theorem correlationBounded : "backup".toList.length ≤ keyMaxLength := by decide

theorem correlationShaped : keyShaped "backup".toList = true := by decide

theorem onceBounded : 1 ≤ maxRetryAttempts := by decide

theorem digestShaped : TaskControl.digestShaped ("sha256:".toList ++ List.replicate 64 '0') = true := by
  decide +kernel

theorem once : 1 ≤ 1 := Nat.le_refl 1

theorem undelayed : Duration.zero.seconds ≤ Duration.zero.seconds := Nat.le_refl _

theorem unsummarised : ([] : Text).length ≤ maxChangeSummaryLength := Nat.zero_le _

theorem enforced : (⟨60, timeoutBounded⟩ : Duration).isZero = true → Duration.zero.isZero = true :=
  fun _ => rfl

theorem forbidden : OverlapPolicy.forbid ≠ .allow → 1 ≤ 1 := fun _ => Nat.le_refl 1

theorem unscheduled : (none : Option CronExpression) ≠ none →
    DeploymentSpecification.default.strategy.carriesItsOwnSchedule = true :=
  fun scheduled => absurd rfl scheduled

def taskId : TaskId := ⟨7, id_bounded⟩

def revisionId : TaskRevisionId := ⟨7, id_bounded⟩

def ownerId : OwnerId := ⟨7, id_bounded⟩

def executionId : ExecutionId := ⟨7, id_bounded⟩

def attemptId : AttemptId := ⟨7, id_bounded⟩

def digest : ContentDigest := ⟨"sha256:".toList ++ List.replicate 64 '0', digestShaped⟩

def task : Task where
  taskId := taskId
  name := "Backup".toList
  slug := ⟨"backup".toList, slugBounded, slugShaped⟩
  ownerId := ownerId
  createdAt := ⟨0⟩
  createdBy := ownerId
  description := []
  lifecycleState := .active
  activeRevisionId := some revisionId
  labels := ∅
  updatedAt := none
  updatedBy := none
  named := named
  nameBounded := nameBounded
  descriptionBounded := Nat.zero_le _
  labelsBounded := Nat.zero_le _
  runnable := fun _ => Option.some_ne_none revisionId

def action : ActionSpecification where
  executorType := .python
  entrypoint := "backup.py".toList
  arguments := []
  workingDirectory := none
  environment := []
  stdinPolicy := .empty
  outputCapture := .captureAll
  useRawShell := false
  requiredCapabilities := ∅
  entered := entered
  argumentsBounded := Nat.zero_le _
  eachBounded := List.forall_mem_nil _
  absolute := fun directory named => absurd named (Option.not_mem_none directory)
  untraversed := fun directory named => absurd named (Option.not_mem_none directory)
  rawOnlyInShell := fun raw => absurd raw Bool.false_ne_true
  rawAlone := fun _ => rfl
  namesUnique := List.nodup_nil

def controls : ExecutionControls where
  timeout := ⟨⟨60, timeoutBounded⟩, .zero, enforced⟩
  retry := {
    maxAttempts := 1
    backoff := .fixed
    baseDelay := .zero
    maxDelay := .zero
    retryOutcomeFailures := false
    retryTimeouts := false
    positive := once
    attemptsBounded := onceBounded
    delaysOrdered := undelayed }
  overlap := .forbid
  maxConcurrent := 1
  activationPolicy := .continueWithLocalJournal
  someConcurrent := once
  overlapAgrees := forbidden

def revision : TaskRevision where
  revisionId := revisionId
  taskId := taskId
  revisionNumber := ⟨1, once⟩
  action := action
  createdAt := ⟨0⟩
  createdBy := ownerId
  schemaVersion := currentRevisionSchemaVersion
  publicationState := .published
  controls := controls
  deployment := .default
  activationSchedule := none
  changeSummary := []
  publishedAt := some ⟨0⟩
  publishedBy := some ownerId
  contentDigest := some digest
  summaryBounded := unsummarised
  scheduleRead := unscheduled
  frozenDigest := TaskRevision.published_marked digest
  frozenPublished := TaskRevision.published_recorded ⟨0⟩ ownerId

theorem succeeded_bounds : (0 : Int) ≤ 0 ∧ (0 : Int) ≤ maxExitCode := by decide

def report : ExecutionReport where
  result := ProcessResult.exited 0 succeeded_bounds .zero
  stdout := []
  stderr := []

/-- Nothing fails, and the script succeeds. -/
def quiet : Reactions where
  load := .ok ()
  duplicate := .ok ()
  requestClock := .ok ⟨1⟩
  executionId := executionId
  correlationId := ⟨"backup".toList, correlationBounded, correlationShaped⟩
  create := .none
  evaluate := .none
  lock := .granted ⟨"backup".toList, "runtime".toList⟩
  attempt _ := ⟨.ok ⟨2⟩, attemptId, .none, .ok report, .ok ⟨3⟩, .none⟩
  finishClock := .ok ⟨4⟩
  finish := .none
  handlerClock := .ok ⟨5⟩
  handler := .none
  release := .ok ()
  cleanupRead := .ok ()
  cleanupClock := .ok ⟨6⟩
  cleanup := .none

def service : RuntimeService := ⟨defaultRegistry, "this installation".toList⟩

def request : RunRequest := ⟨taskId, .schedule, none, none, none, []⟩

/-- The database in which the task and its revision stand, and nothing has run. -/
def world : World where
  database := {
    tasks := fun asked => if asked = taskId then some task else none
    revisions := fun asked => if asked = revisionId then some revision else none
    executions := []
    attempts := [] }
  journal := []
  trace := []

end Backup

end TaskControl.Runtime
