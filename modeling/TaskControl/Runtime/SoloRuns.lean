import TaskControl.Runtime.IdempotentRuns
import TaskControl.Runtime.Retries

/-!
# A call by itself

What `run` does to the database, under any pattern of failures, it does as one call among
others: by transactions that search, insert and save rows of its own execution, and by
launches of it.
-/

set_option autoImplicit false

namespace TaskControl.Runtime

open PythonText Effects Persistence

section

variable {ι : Type} [DecidableEq ι] {requests : ι → RunRequest} {runs : Runs ι} {call : ι}
  {start world world' : World} {executionId : ExecutionId}

/-- The steps of one call lead to the database of a world, with a launch for each of its launches
since the start, and leave the call in a phase. -/
def Follows (requests : ι → RunRequest) (runs : Runs ι) (call : ι) (start world : World)
    (phase : RunPhase) : Prop :=
  ∃ runs', Relation.ReflTransGen (RunStep requests) runs runs' ∧
    runs'.database = world.database ∧ runs'.phase call = phase ∧
    (∀ other, other ≠ call → runs'.phase other = runs.phase other) ∧
    runs'.launched.length + launchCount start = runs.launched.length + launchCount world

/-- The call is running its execution. -/
def Follows.Open (requests : ι → RunRequest) (runs : Runs ι) (call : ι) (start : World)
    (executionId : ExecutionId) (world : World) : Prop :=
  ∃ own : Execution, own.executionId = executionId ∧
    Follows requests runs call start world (.running own)

theorem Follows.refl (same : world.database = runs.database) :
    Follows requests runs call world world (runs.phase call) :=
  ⟨runs, .refl, same.symm, rfl, fun _ _ => rfl, rfl⟩

/-- One more step of the call. -/
theorem Follows.next {phase phase' : RunPhase}
    (follows : Follows requests runs call start world phase)
    (step : ∀ now : Runs ι, now.database = world.database → now.phase call = phase →
      ∃ next, RunStep requests now next ∧ next.database = world'.database ∧
        next.phase = Function.update now.phase call phase' ∧
        next.launched.length + launchCount world = now.launched.length + launchCount world') :
    Follows requests runs call start world' phase' := by
  obtain ⟨now, run, database, stands, others, launches⟩ := follows
  obtain ⟨next, steps, database', phases, launches'⟩ := step now database stands
  refine ⟨next, run.tail steps, database', ?_, fun other different => ?_, by omega⟩
  · rw [phases, Function.update_self]
  · rw [phases, Function.update_of_ne different]
    exact others other different

/-- A step that changes the phase of the call alone. -/
theorem Follows.entered {phase phase' : RunPhase}
    (follows : Follows requests runs call start world phase)
    (step : ∀ now : Runs ι, now.database = world.database → now.phase call = phase →
      RunStep requests now (now.enter call phase')) :
    Follows requests runs call start world phase' :=
  follows.next fun now database stands =>
    ⟨now.enter call phase', step now database stands, database, rfl, rfl⟩

theorem Follows.fails {phase : RunPhase} (follows : Follows requests runs call start world phase)
    (open_ : ∀ result, phase ≠ .returned result) (error : Raised) :
    Follows requests runs call start world (.raised error) :=
  follows.entered fun _ _ stands => .fails (by rw [stands]; exact open_)

theorem Follows.committed (execution : Execution) {database : Database}
    (named : execution.executionId = executionId)
    (follows : Follows.Open requests runs call start executionId world)
    (done : world.database.saveExecution execution = .ok database) :
    Follows requests runs call start (Runtime.committed execution.executionId world database)
      (.running execution) := by
  obtain ⟨own, ownId, follows⟩ := follows
  refine follows.next fun now same stands => ?_
  rw [← same] at done
  refine ⟨_, .saves stands (named.trans ownId.symm) done, ?_, rfl, ?_⟩
  · unfold Runtime.committed
    split <;> rfl
  · rw [launchCount_committed]
    rfl

/-! ## Saves and launches -/

/-- A save leaves the row of the call that it was given, or nothing. -/
theorem save_follows (fault : Fault) {execution : Execution}
    (named : execution.executionId = executionId)
    (follows : Follows.Open requests runs call start executionId world) :
    Ends (RuntimeService.save fault execution) world
      (fun saved world' => saved = execution ∧
        Follows requests runs call start world' (.running execution))
      (fun _ world' => Follows.Open requests runs call start executionId world') := by
  unfold RuntimeService.save
  refine Ends.bind ((transaction_ends fault _ _ world).mono ?_ ?_)
  · rintro _ world' ⟨_, database, done, rfl⟩
    exact ends_pure ⟨rfl, Follows.committed execution named follows done⟩
  · rintro raised world' (⟨rfl, _⟩ | ⟨_, database, done, rfl⟩)
    · exact follows
    · exact ⟨execution, named, Follows.committed execution named follows done⟩

theorem finish_id {execution finished : Execution} {outcome : ExecutionOutcome}
    {finishedAt : UtcTimestamp} {reasonCode : Option ReasonCode} {explanation : Text}
    (done : execution.finish outcome finishedAt reasonCode explanation = .ok finished) :
    finished.executionId = execution.executionId ∧ finished.isFinished = true := by
  unfold Execution.finish at done
  split at done
  · cases done
  · obtain ⟨_, _, made⟩ := except_bind_eq_ok.mp done
    have fields := Execution.make_eq_ok.mp made
    rw [Execution.isFinished, fields]
    exact ⟨rfl, rfl⟩

theorem finish_follows (clock : Except Raised UtcTimestamp) (fault : Fault) {execution : Execution}
    (outcome : ExecutionOutcome) (reasonCode : Option ReasonCode) (explanation : Text)
    (named : execution.executionId = executionId)
    (follows : Follows.Open requests runs call start executionId world) :
    Ends (RuntimeService.finish clock fault execution outcome reasonCode explanation) world
      (fun finished world' => finished.isFinished = true ∧ finished.executionId = executionId ∧
        Follows requests runs call start world' (.running finished))
      (fun _ world' => Follows.Open requests runs call start executionId world') := by
  unfold RuntimeService.finish
  refine Ends.bind ((answer_ends clock world).mono ?_ ?_)
  · rintro moment world ⟨_, rfl⟩
    refine Ends.bind ((domain_ends _ world).mono ?_ ?_)
    · rintro finished world ⟨done, rfl⟩
      obtain ⟨same, ended⟩ := finish_id done
      refine (save_follows fault (same.trans named) follows).mono ?_ fun _ _ open_ => open_
      rintro _ world' ⟨rfl, reached⟩
      exact ⟨ended, same.trans named, reached⟩
    · rintro raised world ⟨_, _, _, rfl⟩
      exact follows
  · rintro raised world ⟨_, rfl⟩
    exact follows

/-- The executor is called while the row of the call is running. -/
theorem launch_follows (path : LaunchPath) (reaction : Except Raised ExecutionReport)
    (request : ExecutionRequest) (controls : ExecutionControls)
    (follows : Follows.Open requests runs call start executionId world) :
    Ends (RuntimeService.launch path reaction request controls) world
      (fun _ world' => Follows.Open requests runs call start executionId world')
      (fun _ world' => Follows.Open requests runs call start executionId world') := by
  have launched : Follows.Open requests runs call start executionId
      { world with trace := world.trace ++ [.launched path request controls] } := by
    obtain ⟨own, ownId, follows⟩ := follows
    refine ⟨own, ownId, follows.next fun now same stands => ⟨_, .launches stands, same, ?_, ?_⟩⟩
    · exact (Function.update_eq_self_iff.mpr stands.symm).symm
    · simp [Runs.withLaunched, launchCount, Event.isLaunch]
      omega
  unfold RuntimeService.launch
  refine Ends.bind (ends_modify ((answer_ends reaction _).mono ?_ ?_))
  · rintro report world ⟨_, rfl⟩
    exact launched
  · rintro raised world ⟨_, rfl⟩
    exact launched

theorem beginAttempt_id {execution running : Execution} {attempt : ExecutionAttempt}
    {startedAt : UtcTimestamp} (done : execution.beginAttempt attempt startedAt = .ok running) :
    running.executionId = execution.executionId := by
  unfold Execution.beginAttempt at done
  split at done
  · cases done
  · split at done
    · cases done
    · rw [Execution.make_eq_ok.mp done]

theorem recordAttemptResult_id {execution recorded : Execution} {attempt : ExecutionAttempt}
    (done : execution.recordAttemptResult attempt = .ok recorded) :
    recorded.executionId = execution.executionId := by
  unfold Execution.recordAttemptResult at done
  split at done
  · rw [Execution.make_eq_ok.mp done]
  · cases done

theorem transitionTo_id {execution moved : Execution} {state : ExecutionState}
    (done : execution.transitionTo state = .ok moved) :
    moved.executionId = execution.executionId := by
  unfold Execution.transitionTo at done
  obtain ⟨_, _, rest⟩ := except_bind_eq_ok.mp done
  split at rest
  · cases rest
  · rw [Execution.make_eq_ok.mp rest]

theorem runAttempt_follows (reactions : AttemptReactions) (revision : TaskRevision)
    (environment : List (Text × Text)) {execution : Execution}
    (named : execution.executionId = executionId)
    (follows : Follows.Open requests runs call start executionId world) :
    Ends (RuntimeService.runAttempt reactions revision environment execution) world
      (fun result world' => result.1.executionId = executionId ∧
        Follows.Open requests runs call start executionId world')
      (fun _ world' => Follows.Open requests runs call start executionId world') := by
  unfold RuntimeService.runAttempt
  refine Ends.bind ((answer_ends _ world).mono ?_ (by rintro _ _ ⟨_, rfl⟩; exact follows))
  rintro startedAt world ⟨_, rfl⟩
  refine Ends.bind ((domain_ends _ world).mono ?_ (by rintro _ _ ⟨_, _, _, rfl⟩; exact follows))
  rintro attempt world ⟨_, rfl⟩
  refine Ends.bind ((domain_ends _ world).mono ?_ (by rintro _ _ ⟨_, _, _, rfl⟩; exact follows))
  rintro running world ⟨began, rfl⟩
  have runningId := (beginAttempt_id began).trans named
  refine Ends.bind ((save_follows _ runningId follows).mono ?_ fun _ _ open_ => open_)
  rintro _ world₁ ⟨rfl, saved⟩
  refine Ends.bind ((launch_follows _ _ _ _ ⟨_, runningId, saved⟩).mono ?_ fun _ _ open_ => open_)
  intro report world₂ launched
  refine Ends.bind ((answer_ends _ world₂).mono ?_ (by rintro _ _ ⟨_, rfl⟩; exact launched))
  rintro finishedAt world₂ ⟨_, rfl⟩
  refine Ends.bind ((domain_ends _ world₂).mono ?_ (by rintro _ _ ⟨_, _, _, rfl⟩; exact launched))
  rintro finished world₂ ⟨_, rfl⟩
  refine Ends.bind ((domain_ends _ world₂).mono ?_ (by rintro _ _ ⟨_, _, _, rfl⟩; exact launched))
  rintro recorded world₂ ⟨noted, rfl⟩
  have recordedId := (recordAttemptResult_id noted).trans runningId
  refine Ends.bind ((save_follows _ recordedId launched).mono ?_ fun _ _ open_ => open_)
  rintro _ world₃ ⟨rfl, saved⟩
  exact ends_pure ⟨recordedId, _, recordedId, saved⟩

/-- What the body of `_execute` and its handler leave when they return. -/
def Concluded (requests : ι → RunRequest) (runs : Runs ι) (call : ι) (start : World)
    (finished : Execution) (world : World) : Prop :=
  finished.isFinished = true ∧ Follows requests runs call start world (.running finished)

theorem finish_concludes (clock : Except Raised UtcTimestamp) (fault : Fault)
    {execution : Execution} (outcome : ExecutionOutcome) (reasonCode : Option ReasonCode)
    (explanation : Text) (named : execution.executionId = executionId)
    (follows : Follows.Open requests runs call start executionId world) :
    Ends (RuntimeService.finish clock fault execution outcome reasonCode explanation) world
      (Concluded requests runs call start)
      (fun _ world' => Follows.Open requests runs call start executionId world') :=
  (finish_follows clock fault outcome reasonCode explanation named follows).mono
    (fun _ _ ⟨ended, _, reached⟩ => ⟨ended, reached⟩) fun _ _ open_ => open_

theorem attempts_follow (reactions : Reactions) (revision : TaskRevision)
    (environment : List (Text × Text)) (fuel : Nat) {execution : Execution}
    (named : execution.executionId = executionId)
    (follows : Follows.Open requests runs call start executionId world) :
    Ends (RuntimeService.attempts reactions revision environment fuel execution) world
      (Concluded requests runs call start)
      (fun _ world' => Follows.Open requests runs call start executionId world') := by
  induction fuel generalizing execution world with
  | zero => exact ends_throw follows
  | succ fuel ih =>
      unfold RuntimeService.attempts
      refine Ends.bind ((runAttempt_follows _ revision environment named follows).mono ?_
        fun _ _ open_ => open_)
      rintro ⟨execution', report⟩ world' ⟨named', follows'⟩
      dsimp only
      split
      · exact ih named' follows'
      · exact finish_concludes _ _ _ _ _ named' follows'

theorem runAttempts_follow (service : RuntimeService) (reactions : Reactions)
    (revision : TaskRevision) (request : RunRequest) {execution : Execution}
    (named : execution.executionId = executionId)
    (follows : Follows.Open requests runs call start executionId world) :
    Ends (service.runAttempts reactions revision request execution) world
      (Concluded requests runs call start)
      (fun _ world' => Follows.Open requests runs call start executionId world') := by
  unfold RuntimeService.runAttempts
  refine Ends.bind ((domain_ends _ world).mono ?_ (by rintro _ _ ⟨_, _, _, rfl⟩; exact follows))
  rintro environment world ⟨_, rfl⟩
  exact attempts_follow _ _ _ _ named follows

/-! ## From pending to terminal -/

/-- A frame in which `finished` is what the row of the call says. -/
def Finishes (requests : ι → RunRequest) (runs : Runs ι) (call : ι) (start : World)
    (finished : Execution) (frame : RuntimeService.Frame) : Prop :=
  frame.finished = some finished ∧ Concluded requests runs call start finished frame.world

/-- A frame of the open execution of the call. -/
def Pending (requests : ι → RunRequest) (runs : Runs ι) (call : ι) (start : World)
    (executionId : ExecutionId) (frame : RuntimeService.Frame) : Prop :=
  frame.execution.executionId = executionId ∧
    Follows.Open requests runs call start executionId frame.world

theorem finishing_follows {program : Program Raised World Execution}
    {frame : RuntimeService.Frame} (named : frame.execution.executionId = executionId)
    (ends : Ends program frame.world (Concluded requests runs call start)
      fun _ world' => Follows.Open requests runs call start executionId world') :
    Ends (RuntimeService.finishing program) frame (Finishes requests runs call start)
      (fun _ => Pending requests runs call start executionId) :=
  finishing_ends (ends.mono (fun _ _ concluded => ⟨rfl, concluded⟩) fun _ _ open_ => ⟨named, open_⟩)

theorem body_follows (service : RuntimeService) (reactions : Reactions) (revision : TaskRevision)
    (request : RunRequest) {frame : RuntimeService.Frame}
    (pending : Pending requests runs call start executionId frame) :
    Ends (service.body reactions revision request) frame (Finishes requests runs call start)
      (fun _ => Pending requests runs call start executionId) := by
  obtain ⟨named, follows⟩ := pending
  unfold RuntimeService.body
  refine Ends.bind (ends_get (Ends.bind (calling_ends ?_)))
  refine Ends.bind ((domain_ends _ _).mono ?_
    (by rintro _ _ ⟨_, _, _, rfl⟩; exact ⟨named, follows⟩))
  rintro evaluating world ⟨moved, rfl⟩
  have evaluatingId := (transitionTo_id moved).trans named
  refine (save_follows _ evaluatingId follows).mono ?_ fun _ _ open_ => ⟨named, open_⟩
  rintro _ world₁ ⟨rfl, saved⟩
  have open₁ : Follows.Open requests runs call start executionId world₁ := ⟨_, evaluatingId, saved⟩
  refine Ends.bind (ends_modify (Ends.bind (calling_ends ?_)))
  unfold RuntimeService.acquireLock
  cases reactions.lock with
  | granted handle =>
      have acquired : Follows.Open requests runs call start executionId
          { world₁ with trace := world₁.trace ++ [.acquired handle] } := by
        obtain ⟨own, ownId, now, run, database, stands, others, launches⟩ := open₁
        refine ⟨own, ownId, now, run, database, stands, others, ?_⟩
        rw [launches]
        simp [launchCount, Event.isLaunch]
      refine Ends.bind (ends_modify (ends_pure (Ends.bind (ends_modify ?_))))
      exact finishing_follows evaluatingId (runAttempts_follow _ _ _ _ evaluatingId acquired)
  | held =>
      refine ends_pure (Ends.bind (ends_modify ?_))
      exact finishing_follows evaluatingId (finish_concludes _ _ _ _ _ evaluatingId open₁)
  | raises error => exact ends_throw ⟨evaluatingId, open₁⟩

theorem handler_follows (reactions : Reactions) (raised : Raised) {frame : RuntimeService.Frame}
    (pending : Pending requests runs call start executionId frame) :
    Ends (RuntimeService.handler reactions raised) frame (Finishes requests runs call start)
      (fun _ => Pending requests runs call start executionId) := by
  obtain ⟨named, follows⟩ := pending
  unfold RuntimeService.handler
  cases raised with
  | taskControl error =>
      exact Ends.bind (ends_get (finishing_follows named
        (finish_concludes _ _ _ _ _ named follows)))
  | _ =>
      refine Ends.bind (ends_get (Ends.bind (finishing_ends
        ((finish_follows _ _ _ _ _ named follows).mono ?_ fun _ _ open_ => ⟨named, open_⟩))))
      rintro finished world' ⟨_, finishedId, reached⟩
      exact ends_throw ⟨named, finished, finishedId, reached⟩

theorem getExecution_id {database : Database} {execution : Execution}
    (read : database.getExecution executionId = .ok (some execution)) :
    execution.executionId = executionId := by
  unfold Database.getExecution at read
  split at read
  · cases read
  · next record found =>
      obtain ⟨other, made, same⟩ := except_bind_eq_ok.mp read
      cases same
      exact (recordToExecution_id made).trans (Database.record?_executionId found)

theorem forceTerminal_follows (reactions : Reactions) {execution : Execution}
    (named : execution.executionId = executionId)
    (follows : Follows.Open requests runs call start executionId world) :
    Ends (RuntimeService.forceTerminal reactions execution) world
      (fun _ world' => Follows.Open requests runs call start executionId world')
      (fun _ world' => Follows.Open requests runs call start executionId world') := by
  unfold RuntimeService.forceTerminal
  have swallowed : ∀ raised world', Follows.Open requests runs call start executionId world' →
      Ends (if raised.isException then pure () else throw raised : Program Raised World Unit) world'
        (fun _ world' => Follows.Open requests runs call start executionId world')
        (fun _ world' => Follows.Open requests runs call start executionId world') := by
    intro raised world' open_
    split
    · exact ends_pure open_
    · exact ends_throw open_
  refine Ends.handle (Ends.bind ((answer_ends _ world).mono ?_
    (by rintro raised _ ⟨_, rfl⟩; exact swallowed raised _ follows)))
  rintro _ world ⟨_, rfl⟩
  refine Ends.bind (ends_get (Ends.bind ((domain_ends _ world).mono ?_
    (by rintro raised _ ⟨_, _, _, rfl⟩; exact swallowed raised _ follows))))
  rintro current world ⟨read, rfl⟩
  cases current with
  | none => exact ends_pure follows
  | some current =>
      rw [named] at read
      dsimp only
      split
      · exact ends_pure follows
      · refine Ends.bind
          ((finish_follows _ _ _ _ _ (getExecution_id read) follows).mono ?_ swallowed)
        rintro finished world' ⟨_, finishedId, reached⟩
        exact ends_pure ⟨finished, finishedId, reached⟩

/-- What follows from a release follows from the world before it. -/
theorem Follows.released {phase : RunPhase} {handle : LockHandle}
    (follows : Follows requests runs call start world phase) :
    Follows requests runs call start { world with trace := world.trace ++ [.released handle] }
      phase := by
  obtain ⟨now, run, database, stands, others, launches⟩ := follows
  refine ⟨now, run, database, stands, others, ?_⟩
  rw [launches]
  simp [launchCount, Event.isLaunch]

theorem cleanup_finished (reactions : Reactions) {finished : Execution}
    {frame : RuntimeService.Frame}
    (finishes : Finishes requests runs call start finished frame) :
    Ends (RuntimeService.cleanup reactions) frame
      (fun _ frame' => Follows requests runs call start frame'.world (.running finished))
      (fun _ frame' => Follows requests runs call start frame'.world (.running finished)) := by
  obtain ⟨set_, ended, reached⟩ := finishes
  have freed : ∀ world handle,
      Follows requests runs call start world (.running finished) →
      Follows requests runs call start { world with trace := world.trace ++ [.released handle] }
        (.running finished) := fun _ _ follows => follows.released
  refine cleanup_keeps freed (fun unset => ?_) reached
  rw [set_, Option.any_some, ended] at unset
  cases unset

theorem cleanup_pending (reactions : Reactions) {frame : RuntimeService.Frame}
    (pending : Pending requests runs call start executionId frame) :
    Ends (RuntimeService.cleanup reactions) frame
      (fun _ frame' => Follows.Open requests runs call start executionId frame'.world)
      (fun _ frame' => Follows.Open requests runs call start executionId frame'.world) := by
  obtain ⟨named, follows⟩ := pending
  refine cleanup_keeps ?_ (fun _ world open_ => forceTerminal_follows reactions named open_) follows
  rintro world handle ⟨own, ownId, follows⟩
  exact ⟨own, ownId, follows.released⟩

/-- Where the row is that of the call, whatever the call does next. -/
def Underway (requests : ι → RunRequest) (runs : Runs ι) (call : ι) (start world : World) : Prop :=
  ∃ own, Follows requests runs call start world (.running own)

theorem execute_follows (service : RuntimeService) (reactions : Reactions)
    (revision : TaskRevision) (request : RunRequest) {execution : Execution}
    (follows : Follows requests runs call start world (.running execution)) :
    Ends (service.execute reactions revision request execution) world
      (fun finished world' => Follows requests runs call start world' (.running finished))
      (fun _ => Underway requests runs call start) := by
  have pending : Pending requests runs call start execution.executionId
      ⟨world, execution, none, none⟩ := ⟨rfl, execution, rfl, follows⟩
  have ends : Ends (always (Effects.handle (service.body reactions revision request)
      (RuntimeService.handler reactions)) (RuntimeService.cleanup reactions))
      ⟨world, execution, none, none⟩
      (fun finished frame => Follows requests runs call start frame.world (.running finished))
      (fun _ frame => Underway requests runs call start frame.world) := by
    refine Ends.always ((Ends.handle ((body_follows service reactions revision request pending).mono
      (fun _ _ finishes => finishes)
      fun raised _ pending' => handler_follows reactions raised pending')).mono ?_ ?_)
    · intro finished frame finishes
      exact (cleanup_finished reactions finishes).mono (fun _ _ reached => reached)
        fun _ _ reached => ⟨finished, reached⟩
    · intro raised frame pending'
      exact (cleanup_pending reactions pending').mono (fun _ _ ⟨own, _, reached⟩ => ⟨own, reached⟩)
        fun _ _ ⟨own, _, reached⟩ => ⟨own, reached⟩
  unfold Ends RuntimeService.execute
  unfold Ends at ends
  split at ends <;> simp_all

/-! ## The whole call -/

theorem Follows.created {task : Task} {revision : TaskRevision} {requestedAt : UtcTimestamp}
    {newId : ExecutionId} {correlationId : CorrelationId} {execution : Execution}
    {database : Database}
    (follows : Follows requests runs call start world (.unmatched task revision))
    (made : creation (requests call) task revision requestedAt newId correlationId = .ok execution)
    (done : world.database.addExecution execution = .ok database) :
    Follows requests runs call start (Runtime.committed execution.executionId world database)
      (.running execution) := by
  refine follows.next fun now same stands => ?_
  rw [← same] at done
  refine ⟨_, .creates stands made done, ?_, rfl, ?_⟩
  · unfold Runtime.committed
    split <;> rfl
  · rw [launchCount_committed]
    rfl

theorem runNew_follows (service : RuntimeService) (reactions : Reactions) {task : Task}
    {revision : TaskRevision}
    (follows : Follows requests runs call start world (.unmatched task revision)) :
    Ends (service.runNew reactions (requests call) task revision) world
      (fun result world' => Follows requests runs call start world' (.returned result))
      (fun raised world' => Follows requests runs call start world' (.raised raised)) := by
  have failed := fun raised => follows.fails (fun _ => nofun) raised
  unfold RuntimeService.runNew
  refine Ends.bind ((answer_ends _ world).mono ?_
    (by rintro raised _ ⟨_, rfl⟩; exact failed raised))
  rintro requestedAt world ⟨_, rfl⟩
  refine Ends.bind ((domain_ends _ world).mono ?_
    (by rintro raised _ ⟨_, _, _, rfl⟩; exact failed raised))
  rintro execution world ⟨made, rfl⟩
  refine Ends.bind ((transaction_ends _ _ _ world).mono ?_ ?_)
  · rintro _ world' ⟨_, database, done, rfl⟩
    refine Ends.bind ((execute_follows service reactions revision _
      (follows.created made done)).mono ?_ ?_)
    · intro finished world' reached
      exact ends_pure (reached.entered fun now _ stands => .returns stands)
    · rintro raised world' ⟨own, reached⟩
      exact reached.fails (fun _ => nofun) raised
  · rintro raised world' (⟨rfl, _⟩ | ⟨_, database, done, rfl⟩)
    · exact failed raised
    · exact (follows.created made done).fails (fun _ => nofun) raised

end

/-- Whatever fails, `run` is one call among others: its searches, inserts, saves and launches are
steps of the call, which returns and raises as `run` does. -/
theorem run_follows {ι : Type} [DecidableEq ι] {requests : ι → RunRequest} {runs : Runs ι}
    {call : ι} {world : World} (service : RuntimeService) (reactions : Reactions)
    (stands : runs.phase call = .starting) (same : world.database = runs.database) :
    Ends (service.run reactions (requests call)) world
      (fun result world' => Follows requests runs call world world' (.returned result))
      (fun raised world' => Follows requests runs call world world' (.raised raised)) := by
  have started := @Follows.refl _ _ requests _ call _ same
  rw [stands] at started
  have failed := fun raised => started.fails (fun _ => nofun) raised
  unfold RuntimeService.run RuntimeService.load
  refine Ends.bind (Ends.bind ((answer_ends _ world).mono ?_
    (by rintro raised _ ⟨_, rfl⟩; exact failed raised)))
  rintro _ world ⟨_, rfl⟩
  refine Ends.bind (ends_get ((domain_ends _ world).mono ?_
    (by rintro raised _ ⟨_, _, _, rfl⟩; exact failed raised)))
  rintro ⟨task, revision⟩ world ⟨found, rfl⟩
  have loaded : Follows requests runs call world world (.loaded task revision) :=
    started.entered fun now database stands => .loads stands (by rw [database]; exact found)
  have failed' := fun raised => loaded.fails (fun _ => nofun) raised
  have searched : Ends (RuntimeService.findExisting reactions (requests call)) world
      (fun found world' => world' = world ∧ existing world.database (requests call) = .ok found)
      (fun _ world' => world' = world) := by
    unfold RuntimeService.findExisting existing
    cases (requests call).idempotencyKey with
    | none => exact ends_pure ⟨rfl, rfl⟩
    | some key =>
        refine Ends.bind ((answer_ends _ world).mono ?_ fun _ _ struck => struck.2)
        rintro _ world ⟨_, rfl⟩
        exact Ends.bind (ends_get ((domain_ends _ world).mono
          (fun _ _ searched => ⟨searched.2, searched.1⟩) fun _ _ ⟨_, _, _, same⟩ => same))
  refine Ends.bind (searched.mono ?_ (by rintro raised _ rfl; exact failed' raised))
  rintro (_ | execution) world' ⟨rfl, found⟩
  · exact runNew_follows service reactions
      (loaded.entered fun now database stands => .misses stands (by rw [database]; exact found))
  · exact ends_pure
      (loaded.entered fun now database stands => .repeats stands (by rw [database]; exact found))

theorem run_follows_backup : Ends (Backup.service.run Backup.quiet Backup.delivery) Backup.world
    (fun result world' => Follows (fun _ => Backup.delivery) Backup.undelivered true Backup.world
      world' (.returned result))
    (fun raised world' => Follows (fun _ => Backup.delivery) Backup.undelivered true Backup.world
      world' (.raised raised)) :=
  @run_follows Bool _ (fun _ => Backup.delivery) Backup.undelivered true Backup.world
    Backup.service Backup.quiet rfl rfl

end TaskControl.Runtime
