import TaskControl.Runtime.Progress

/-!
# What a run comes to

The loop over the attempts, the body of `_execute`, its handlers and its cleanup,
each in terms of the pattern of failures, and from them the whole run: progress
that leaves the execution open, then at most one terminal save by each of the
body, the handler and the cleanup.
-/

set_option autoImplicit false

namespace TaskControl.Runtime

open PythonText Effects Persistence

/-- Progress, and then perhaps a terminal save. -/
def Leaves (executionId : ExecutionId) (revision : TaskRevision) (held : Option LockHandle)
    (launched : Bool) (stored : Option Verdict) (world world' : World) : Prop :=
  ∃ mid, Progress executionId revision held launched world mid ∧ Writes executionId stored mid world'

theorem Progress.leaves {executionId : ExecutionId} {revision : TaskRevision}
    {held : Option LockHandle} {launched : Bool} {world world' : World} (progress : Progress executionId revision held launched world world') :
    Leaves executionId revision held launched none world world' :=
  ⟨world', progress, rfl⟩

theorem settled_of_finishing {clock : Except Raised UtcTimestamp} {fault : Fault}
    {verdict : Verdict} (done : finishing clock fault verdict = .ok ()) :
    settled clock fault verdict = some verdict :=
  if_pos (settles_of_finishing done)

/-! ## The attempts -/

theorem verdictOn_reasoned (policy : RetryPolicy) (n : Nat) (report : ExecutionReport) :
    (verdictOn policy n report).Reasoned := by
  obtain ⟨stated, belongs⟩ := classifyProcessResult_explained report.result .none [0]
  exact reasonComplaint_explained stated belongs

theorem blockedVerdict_reasoned (service : RuntimeService) : (blockedVerdict service).Reasoned :=
  reasonComplaint_explained (by simp [blockedVerdict]) (by
    intro code named
    cases named
    rfl)

theorem handlerVerdict_reasoned (raised : Raised) : (handlerVerdict raised).Reasoned := by
  cases raised with
  | taskControl error =>
      exact reasonComplaint_explained (by simp [handlerVerdict]) (by
        intro code named
        cases named
        rfl)
  | lockNotAcquired message => rfl
  | claimNotHeld message => rfl
  | other message => rfl
  | interrupt => rfl

section Run

variable (service : RuntimeService) (reactions : Reactions) (revision : TaskRevision)
  (request : RunRequest)

/-- How the attempts return: with the verdict on the last report stored. -/
def AttemptsReturn (executionId : ExecutionId) (held : Option LockHandle) (launched : Bool) (world : World)
    (finished : Execution) (world' : World) : Prop :=
  ∃ n report, AttemptsEnd reactions revision.controls.retry n (.ok report) ∧
    finishing reactions.finishClock reactions.finish
      (verdictOn revision.controls.retry n report) = .ok () ∧
    (verdictOn revision.controls.retry n report).Finishes executionId finished ∧
    Leaves executionId revision held launched (some (verdictOn revision.controls.retry n report))
      world world'

/-- How the attempts raise: in an attempt, or in the save of the verdict. -/
def AttemptsRaise (executionId : ExecutionId) (held : Option LockHandle) (launched : Bool) (world : World)
    (raised : Raised) (world' : World) : Prop :=
  (∃ n, AttemptsEnd reactions revision.controls.retry n (.error raised) ∧
    Leaves executionId revision held launched none world world') ∨
  ∃ n report, AttemptsEnd reactions revision.controls.retry n (.ok report) ∧
    finishing reactions.finishClock reactions.finish
      (verdictOn revision.controls.retry n report) = .error raised ∧
    Leaves executionId revision held launched
      (settled reactions.finishClock reactions.finish
        (verdictOn revision.controls.retry n report)) world world'

/-- By induction on the attempts that are left; each retry is one attempt below the
maximum, so the fuel lasts. -/
theorem attempts_ends (held : Option LockHandle) (environment : List (Text × Text)) (fuel : Nat) :
    ∀ {execution : Execution} {world : World}, execution.isFinished = false →
      OpenRow execution.executionId world →
      Reaches reactions revision.controls.retry (execution.attemptCount + 1) →
      1 ≤ fuel → execution.attemptCount + fuel = revision.controls.retry.maxAttempts →
      Ends (RuntimeService.attempts reactions revision environment fuel execution) world
        (AttemptsReturn reactions revision execution.executionId held
          (reactions.attempt (execution.attemptCount + 1)).launches world)
        (AttemptsRaise reactions revision execution.executionId held
          (reactions.attempt (execution.attemptCount + 1)).launches world) := by
  induction fuel with
  | zero =>
      intro execution world open_ row reached some_ enough
      omega
  | succ fuel ih =>
      intro execution world open_ row reached some_ enough
      unfold RuntimeService.attempts
      refine Ends.bind ((runAttempt_ends _ revision held environment open_ row).mono ?_ ?_)
      · rintro ⟨execution', report⟩ world' ⟨replied, open', named, counted, progress⟩
        dsimp only at replied open' named counted ⊢
        have launches := AttemptReactions.launches_of_reply replied
        rw [launches]
        by_cases again : Retries revision.controls.retry execution'.attemptCount report
        · have more := decideRetry_bounded again
          rw [if_pos (show _ = true from again)]
          have reached' : Reaches reactions revision.controls.retry
              (execution'.attemptCount + 1) := by
            rw [counted] at again ⊢
            exact reached.succ replied again
          have next := ih open' (named ▸ progress.open_) reached' (by omega) (by omega)
          rw [named] at next
          refine next.mono ?_ ?_
          · rintro finished world'' ⟨n, last, ended, quiet, finishes, mid, later, writes⟩
            exact ⟨n, last, ended, quiet, finishes, mid, progress.trans later, writes⟩
          · rintro raised world'' struck
            rcases struck with ⟨n, ended, mid, later, writes⟩ |
              ⟨n, last, ended, struck, mid, later, writes⟩
            · exact .inl ⟨n, ended, mid, progress.trans later, writes⟩
            · exact .inr ⟨n, last, ended, struck, mid, progress.trans later, writes⟩
        · rw [if_neg (show ¬ _ = true from again)]
          rw [counted] at again ⊢
          have ended : AttemptsEnd reactions revision.controls.retry (execution.attemptCount + 1)
              (.ok report) := by
            refine ⟨reached, replied, ?_⟩
            rintro _ ⟨⟩
            exact again
          obtain ⟨old, found, _⟩ := progress.open_
          rw [← named] at found
          refine (finish_ends reactions.finishClock reactions.finish open'
            (verdictOn_reasoned revision.controls.retry (execution.attemptCount + 1) report)
            world' found).mono ?_ ?_
          · rintro finished world'' ⟨quiet, finishes, writes⟩
            rw [named] at finishes writes
            exact ⟨_, _, ended, quiet, finishes, _, progress, writes⟩
          · rintro raised world'' ⟨struck, writes⟩
            rw [named] at writes
            exact .inr ⟨_, _, ended, struck, _, progress, writes⟩
      · rintro raised world' ⟨struck, progress⟩
        refine .inl ⟨_, ⟨reached, struck, ?_⟩, progress.leaves⟩
        rintro report ⟨⟩

/-! ## The body -/

/-- The lock that the run holds once it is opened. -/
def heldLock : Option LockHandle :=
  match opening reactions with
  | .ok handle => handle
  | .error _ => none

theorem heldLock_of_opening {handle : Option LockHandle}
    (held : opening reactions = .ok handle) : heldLock reactions = handle := by
  unfold heldLock
  rw [held]

/-- The frame when the body returns: the verdict is stored and the local variable set. -/
def BodyReturns (executionId : ExecutionId) (world : World) (finished : Execution)
    (frame : RuntimeService.Frame) : Prop :=
  ∃ verdict, Returned service reactions revision request verdict ∧
    verdict.Finishes executionId finished ∧ frame.finished = some finished ∧
    frame.handle = heldLock reactions ∧
    Leaves executionId revision (heldLock reactions) (launches service reactions revision request)
      (some verdict) world frame.world

/-- The frame when an exception leaves the body: the copy of the execution that is in scope
is still the open one, whatever was stored. -/
def BodyRaises (executionId : ExecutionId) (world : World) (raised : Raised)
    (frame : RuntimeService.Frame) : Prop :=
  ∃ stored, Strikes service reactions revision request raised stored ∧
    frame.finished = none ∧ frame.handle = heldLock reactions ∧
    frame.execution.executionId = executionId ∧ frame.execution.isFinished = false ∧
    Leaves executionId revision (heldLock reactions) (launches service reactions revision request)
      stored world frame.world

theorem calling_ends {α : Type} {program : Program Raised World α} {frame : RuntimeService.Frame}
    {post : α → RuntimeService.Frame → Prop} {raised : Raised → RuntimeService.Frame → Prop}
    (ends : Ends program frame.world (fun value world => post value { frame with world })
      fun error world => raised error { frame with world }) :
    Ends (RuntimeService.calling program) frame post raised := by
  cases run : program frame.world with
  | ok value world =>
      have ran : RuntimeService.calling program frame = .ok value { frame with world } := by
        unfold RuntimeService.calling
        rw [run]
      exact (ends_of_ok ran).mpr ((ends_of_ok run).mp ends)
  | error error world =>
      have ran : RuntimeService.calling program frame = .error error { frame with world } := by
        unfold RuntimeService.calling
        rw [run]
      exact (ends_of_error ran).mpr ((ends_of_error run).mp ends)

theorem finishing_ends {program : Program Raised World Execution} {frame : RuntimeService.Frame}
    {post : Execution → RuntimeService.Frame → Prop}
    {raised : Raised → RuntimeService.Frame → Prop}
    (ends : Ends program frame.world
      (fun finished world => post finished { frame with world, finished := some finished })
      fun error world => raised error { frame with world }) :
    Ends (RuntimeService.finishing program) frame post raised :=
  Ends.bind (calling_ends (ends.mono (fun _ _ holds => Ends.bind (ends_modify (ends_pure holds)))
    fun _ _ holds => holds))

/-- `_acquire_lock`, once the evaluating save has gone through. -/
theorem acquireLock_ends (revision : TaskRevision) {executionId : ExecutionId} {world : World}
    (quiet : reactions.evaluate.raised = .ok ()) (row : OpenRow executionId world) :
    Ends (RuntimeService.acquireLock reactions) world
      (fun handle world' => opening reactions = .ok handle ∧
        Progress executionId revision handle false world world')
      (fun raised world' => opening reactions = .error raised ∧ world' = world) := by
  unfold RuntimeService.acquireLock
  cases lock : reactions.lock with
  | granted handle =>
      have opened : opening reactions = .ok (some handle) := by
        unfold opening
        rw [quiet, lock]
        rfl
      refine ⟨opened, ⟨fun _ _ => rfl, rfl, rfl, rfl, rfl, fun old found =>
        ⟨old, found, rfl, rfl, rfl⟩⟩, row, _, rfl, ?_, rfl⟩
      intro event member
      rw [List.mem_singleton.mp member]
      rfl
  | held =>
      have opened : opening reactions = .ok none := by
        unfold opening
        rw [quiet, lock]
        rfl
      exact ⟨opened, Progress.refl revision none row⟩
  | raises error =>
      have opened : opening reactions = .error error := by
        unfold opening
        rw [quiet, lock]
        rfl
      exact ⟨opened, rfl⟩

section

variable {service reactions revision request}

/-- An exception of the save of a verdict that the body has come to. -/
theorem Strikes.save {verdict : Verdict} {raised : Raised}
    (concluded : Concludes service reactions revision request verdict)
    (struck : finishing reactions.finishClock reactions.finish verdict = .error raised) :
    Strikes service reactions revision request raised
      (settled reactions.finishClock reactions.finish verdict) := by
  unfold settled
  split
  · next kept => exact .saved concluded struck kept
  · next lost => exact .unsaved concluded struck lost

variable {execution : Execution} {start world : World}

/-- The body without the lock. -/
theorem blocked_ends (opened : opening reactions = .ok none) (open_ : execution.isFinished = false)
    (progress : Progress execution.executionId revision none false start world) :
    Ends (RuntimeService.finishing (RuntimeService.finish reactions.finishClock reactions.finish
        execution .blocked (some ReasonCodes.blockedOverlapLockHeld) service.blockedExplanation))
      ⟨world, execution, none, none⟩
      (BodyReturns service reactions revision request execution.executionId start)
      (BodyRaises service reactions revision request execution.executionId start) := by
  have held := heldLock_of_opening reactions opened
  have launched : launches service reactions revision request = false := by
    unfold launches
    rw [opened]
  have concluded : Concludes service reactions revision request (blockedVerdict service) :=
    .blocked opened
  obtain ⟨old, found, _⟩ := progress.open_
  refine finishing_ends ((finish_ends reactions.finishClock reactions.finish open_
    (blockedVerdict_reasoned service) world found).mono ?_ ?_)
  · rintro finished world' ⟨done, finishes, writes⟩
    refine ⟨blockedVerdict service, ⟨concluded, done⟩, finishes, rfl, held.symm, ?_⟩
    rw [held, launched]
    exact ⟨world, progress, writes⟩
  · rintro raised world' ⟨struck, writes⟩
    refine ⟨_, .save concluded struck, rfl, held.symm, rfl, open_, ?_⟩
    rw [held, launched]
    exact ⟨world, progress, writes⟩

/-- The body with the lock. -/
theorem runAttempts_ends {handle : LockHandle} (opened : opening reactions = .ok (some handle))
    (open_ : execution.isFinished = false) (none_ : execution.attemptCount = 0)
    (progress : Progress execution.executionId revision (some handle) false start world) :
    Ends (RuntimeService.finishing (service.runAttempts reactions revision request execution))
      ⟨world, execution, some handle, none⟩
      (BodyReturns service reactions revision request execution.executionId start)
      (BodyRaises service reactions revision request execution.executionId start) := by
  have held := heldLock_of_opening reactions opened
  unfold RuntimeService.runAttempts
  refine finishing_ends (Ends.bind ((domain_ends (prepare service.registered revision.action
    request.environmentOverrides) world).mono ?_ ?_))
  · rintro environment world ⟨prepared, rfl⟩
    have launched : launches service reactions revision request =
        (reactions.attempt 1).launches := by
      unfold launches
      rw [opened]
      dsimp only
      rw [prepared]
    have ends := attempts_ends reactions revision (some handle) environment
      revision.controls.retry.maxAttempts open_ progress.open_
      (by rw [none_]; exact reaches_first reactions revision.controls.retry)
      revision.controls.retry.positive (by rw [none_]; omega)
    rw [none_] at ends
    refine ends.mono ?_ ?_
    · rintro finished world' ⟨n, report, ended, done, finishes, mid, later, writes⟩
      refine ⟨_, ⟨.reported opened prepared ended, done⟩, finishes, rfl, held.symm, ?_⟩
      rw [held, launched]
      exact ⟨mid, progress.trans later, writes⟩
    · rintro raised world' (⟨n, ended, mid, later, writes⟩ |
        ⟨n, report, ended, struck, mid, later, writes⟩)
      · refine ⟨none, .broken (.attempt opened prepared ended), rfl, held.symm, rfl, open_, ?_⟩
        rw [held, launched]
        exact ⟨mid, progress.trans later, writes⟩
      · refine ⟨_, .save (.reported opened prepared ended) struck, rfl, held.symm, rfl, open_, ?_⟩
        rw [held, launched]
        exact ⟨mid, progress.trans later, writes⟩
  · rintro raised world ⟨error, refused, rfl, rfl⟩
    have launched : launches service reactions revision request = false := by
      unfold launches
      rw [opened]
      dsimp only
      rw [refused]
    refine ⟨none, .broken (.prepare opened refused), rfl, held.symm, rfl, open_, ?_⟩
    rw [held, launched]
    exact progress.leaves

/-- The body that does not come as far as an answer about the lock. -/
theorem unopened {raised : Raised} (struck : opening reactions = .error raised) :
    heldLock reactions = none ∧ launches service reactions revision request = false := by
  unfold heldLock launches
  rw [struck]
  exact ⟨rfl, rfl⟩

end

theorem body_ends {execution : Execution} (pending : execution.state = .pending)
    (fresh : execution.attempts = []) {world : World}
    (row : OpenRow execution.executionId world) :
    Ends (RuntimeService.body service reactions revision request) ⟨world, execution, none, none⟩
      (BodyReturns service reactions revision request execution.executionId world)
      (BodyRaises service reactions revision request execution.executionId world) := by
  have open_ : execution.isFinished = false := by
    rw [Execution.isFinished, pending]
    rfl
  obtain ⟨evaluating, moved, fields⟩ := Execution.transitionTo_evaluating pending
  have named : evaluating.executionId = execution.executionId := by rw [fields]
  have evaluatingOpen : evaluating.isFinished = false := by
    rw [Execution.isFinished, fields]
    rfl
  have none_ : evaluating.attemptCount = 0 := by
    rw [Execution.attemptCount, fields, fresh]
    rfl
  rw [← named] at row
  unfold RuntimeService.body
  refine Ends.bind (ends_get (Ends.bind (calling_ends (Ends.bind (ends_domain_ok _ moved
    ((save_progress reactions.evaluate evaluatingOpen revision (heldLock reactions)
      row).mono ?_ ?_))))))
  · rintro saved mid ⟨quiet, rfl, evaluated⟩
    rw [← named]
    refine Ends.bind (ends_modify (Ends.bind (calling_ends
      ((acquireLock_ends reactions revision quiet evaluated.open_).mono ?_ ?_))))
    · rintro handle mid' ⟨opened, acquired⟩
      rw [heldLock_of_opening reactions opened] at evaluated
      have progress := evaluated.trans acquired
      refine Ends.bind (ends_modify ?_)
      cases handle with
      | none => exact blocked_ends opened evaluatingOpen progress
      | some handle => exact runAttempts_ends opened evaluatingOpen none_ progress
    · rintro raised mid' ⟨struck, rfl⟩
      obtain ⟨held, launched⟩ := @unopened service reactions revision request _ struck
      refine ⟨none, .broken (.opening struck), rfl, held.symm, rfl, evaluatingOpen, ?_⟩
      rw [launched]
      exact evaluated.leaves
  · rintro raised mid ⟨struck, evaluated⟩
    rw [named] at evaluated
    have struck' : opening reactions = .error raised := by
      unfold opening
      rw [struck]
      rfl
    obtain ⟨held, launched⟩ := @unopened service reactions revision request _ struck'
    refine ⟨none, .broken (.opening struck'), rfl, held.symm, rfl, open_, ?_⟩
    rw [launched]
    exact evaluated.leaves

/-! ## The handlers -/

/-- How the `try` of `_execute` ends before its `finally`: what it returns or raises, what
the body and the handler stored, and whether the variable `finished` is set. -/
inductive Guarded : Except Raised Verdict → Option Verdict → Option Verdict → Bool → Prop
  | returned {verdict : Verdict}
      (returned : Returned service reactions revision request verdict) :
      Guarded (.ok verdict) (some verdict) none true
  | handled {error : TaskControlError} {stored : Option Verdict}
      (struck : Strikes service reactions revision request (.taskControl error) stored)
      (recorded : finishing reactions.handlerClock reactions.handler
        (handlerVerdict (.taskControl error)) = .ok ()) :
      Guarded (.ok (handlerVerdict (.taskControl error))) stored
        (some (handlerVerdict (.taskControl error))) true
  | reraised {raised : Raised} {stored : Option Verdict}
      (struck : Strikes service reactions revision request raised stored)
      (unexpected : ∀ error, raised ≠ .taskControl error)
      (recorded : finishing reactions.handlerClock reactions.handler (handlerVerdict raised) =
        .ok ()) :
      Guarded (.error raised) stored (some (handlerVerdict raised)) true
  | escaped {raised raised' : Raised} {stored : Option Verdict}
      (struck : Strikes service reactions revision request raised stored)
      (failed : finishing reactions.handlerClock reactions.handler (handlerVerdict raised) =
        .error raised') :
      Guarded (.error raised') stored
        (settled reactions.handlerClock reactions.handler (handlerVerdict raised)) false

/-- A row that has been finished. -/
def FinishedRow (executionId : ExecutionId) (world : World) : Prop :=
  ∃ record, world.database.record? executionId = some record ∧ record.state = .finished ∧
    record.outcome.isSome = true ∧ Readable record

variable {revision} in
theorem Leaves.row {executionId : ExecutionId} {held : Option LockHandle} {launched : Bool}
    {stored : Option Verdict} {world world' : World}
    (leaves : Leaves executionId revision held launched stored world world') :
    (stored = none ∧ OpenRow executionId world') ∨
      (stored ≠ none ∧ FinishedRow executionId world') := by
  obtain ⟨mid, progress, writes⟩ := leaves
  cases stored with
  | none => exact .inl ⟨rfl, writes ▸ progress.open_⟩
  | some verdict =>
      obtain ⟨record, rfl, written, stores⟩ := writes
      exact .inr ⟨by simp, record, stores.row, written.state, by rw [written.outcome]; rfl,
        stores.readable⟩

theorem Writes.finishedRow {executionId : ExecutionId} {verdict : Verdict} {world world' : World}
    (writes : Writes executionId (some verdict) world world') :
    FinishedRow executionId world' := by
  obtain ⟨record, rfl, written, stores⟩ := writes
  exact ⟨record, stores.row, written.state, by rw [written.outcome]; rfl, stores.readable⟩

/-- The frame that the `finally` clause finds. -/
def GuardedFrame (executionId : ExecutionId) (world : World) (body handler : Option Verdict)
    (finished : Bool) (frame : RuntimeService.Frame) : Prop :=
  frame.handle = heldLock reactions ∧ frame.finished.any Execution.isFinished = finished ∧
    (finished = false → frame.execution.executionId = executionId) ∧
    ∃ mid, Leaves executionId revision (heldLock reactions)
      (launches service reactions revision request) body world mid ∧
      Writes executionId handler mid frame.world

theorem handler_ends {executionId : ExecutionId} {world : World} {raised : Raised}
    {frame : RuntimeService.Frame}
    (raises : BodyRaises service reactions revision request executionId world raised frame) :
    Ends (RuntimeService.handler reactions raised) frame
      (fun result frame' => ∃ verdict body handler,
        Guarded service reactions revision request (.ok verdict) body handler true ∧
        verdict.Finishes executionId result ∧
        GuardedFrame service reactions revision request executionId world body handler true frame')
      (fun raised' frame' => ∃ body handler finished,
        Guarded service reactions revision request (.error raised') body handler finished ∧
        GuardedFrame service reactions revision request executionId world body handler finished
          frame') := by
  obtain ⟨stored, struck, unset, handle, named, open_, leaves⟩ := raises
  have row : ∃ old, frame.world.database.record? frame.execution.executionId = some old := by
    rw [named]
    rcases leaves.row with ⟨_, record, found, _⟩ | ⟨_, record, found, _⟩
    · exact ⟨record, found⟩
    · exact ⟨record, found⟩
  obtain ⟨old, found⟩ := row
  have finishes := finish_ends reactions.handlerClock reactions.handler open_
    (handlerVerdict_reasoned raised) frame.world found
  rw [named] at finishes
  unfold RuntimeService.handler
  cases raised with
  | taskControl error =>
      refine Ends.bind (ends_get (finishing_ends (finishes.mono ?_ ?_)))
      · rintro result world' ⟨recorded, done, writes⟩
        exact ⟨_, stored, _, .handled struck recorded, done, handle, done.finished, by simp,
          frame.world, leaves, writes⟩
      · rintro raised' world' ⟨failed, writes⟩
        exact ⟨stored, _, false, .escaped struck failed, handle, by rw [unset]; rfl,
          fun _ => named, frame.world, leaves, writes⟩
  | _ =>
      refine Ends.bind (ends_get (Ends.bind (finishing_ends (finishes.mono ?_ ?_))))
      · rintro result world' ⟨recorded, done, writes⟩
        exact ⟨stored, _, true, .reraised struck (by simp) recorded, handle, done.finished,
          by simp, frame.world, leaves, writes⟩
      · rintro raised' world' ⟨failed, writes⟩
        exact ⟨stored, _, false, .escaped struck failed, handle, by rw [unset]; rfl,
          fun _ => named, frame.world, leaves, writes⟩

/-! ## The cleanup -/

/-- `except Exception`. -/
def swallow : Except Raised Unit → Except Raised Unit
  | .ok _ => .ok ()
  | .error raised => if raised.isException then .ok () else .error raised

/-- What `_force_terminal` comes to on an open or a finished row. -/
inductive Forces (reactions : Reactions) : Bool → Except Raised Unit → Option Verdict → Prop
  | unread {finished : Bool} {raised : Raised} (struck : reactions.cleanupRead = .error raised) :
      Forces reactions finished (swallow (.error raised)) none
  | finished (read : reactions.cleanupRead = .ok ()) : Forces reactions true (.ok ()) none
  | forced (read : reactions.cleanupRead = .ok ()) :
      Forces reactions false
        (swallow (finishing reactions.cleanupClock reactions.cleanup forcedVerdict))
        (settled reactions.cleanupClock reactions.cleanup forcedVerdict)

theorem forcedVerdict_reasoned : forcedVerdict.Reasoned := rfl

theorem swallowed_ends (post : Except Raised Unit → World → Prop)
    {body : Program Raised World Unit} {world : World}
    (ends : Ends body world (fun _ world' => post (.ok ()) world')
      fun raised world' => post (swallow (.error raised)) world') :
    Ends (handle body fun raised => if raised.isException then pure () else throw raised) world
      (fun _ world' => post (.ok ()) world') (fun raised world' => post (.error raised) world') := by
  refine Ends.handle (ends.mono (fun _ _ holds => holds) ?_)
  intro raised world' holds
  by_cases caught : raised.isException
  · have swallowed : swallow (.error raised) = .ok () := if_pos caught
    rw [swallowed] at holds
    rw [if_pos caught]
    exact holds
  · have escaped : swallow (.error raised) = .error raised := if_neg caught
    rw [escaped] at holds
    rw [if_neg caught]
    exact holds

theorem forceTerminal_ends {execution : Execution} {executionId : ExecutionId}
    (named : execution.executionId = executionId) {finished : Bool} {world : World}
    (row : if finished then FinishedRow executionId world else OpenRow executionId world) :
    Ends (RuntimeService.forceTerminal reactions execution) world
      (fun _ world' => ∃ stored, Forces reactions finished (.ok ()) stored ∧
        Writes executionId stored world world')
      (fun raised world' => ∃ stored, Forces reactions finished (.error raised) stored ∧
        Writes executionId stored world world') := by
  unfold RuntimeService.forceTerminal
  refine swallowed_ends (fun result world' => ∃ stored,
    Forces reactions finished result stored ∧ Writes executionId stored world world') ?_
  refine Ends.bind ((answer_ends reactions.cleanupRead world).mono ?_ ?_)
  · rintro _ world ⟨read, rfl⟩
    refine Ends.bind (ends_get ?_)
    cases finished with
    | true =>
        obtain ⟨record, found, state, _, readable⟩ := row
        obtain ⟨current, got, _, same, _⟩ := Database.getExecution_ok found readable
        rw [named]
        refine Ends.bind (ends_domain_ok _ got ?_)
        have done : current.isFinished = true := by
          rw [Execution.isFinished, same, state]
          rfl
        dsimp only
        rw [if_pos done]
        exact ends_pure ⟨none, .finished read, rfl⟩
    | false =>
        obtain ⟨record, found, state, readable⟩ := row
        obtain ⟨current, got, currentId, same, _⟩ := Database.getExecution_ok found readable
        rw [named]
        refine Ends.bind (ends_domain_ok _ got ?_)
        have open_ : current.isFinished = false := by
          rw [Execution.isFinished, same]
          exact state
        dsimp only
        rw [if_neg (by simp [open_])]
        rw [← currentId] at found
        refine Ends.bind ((finish_ends reactions.cleanupClock reactions.cleanup open_
          forcedVerdict_reasoned world found).mono ?_ ?_)
        · rintro _ world' ⟨done, _, writes⟩
          rw [currentId] at writes
          have forced := Forces.forced read
          rw [done, settled_of_finishing done] at forced
          exact ends_pure ⟨_, forced, writes⟩
        · rintro raised world' ⟨failed, writes⟩
          rw [currentId] at writes
          have forced := Forces.forced read
          rw [failed] at forced
          exact ⟨_, forced, writes⟩
  · rintro raised world ⟨struck, rfl⟩
    exact ⟨none, .unread struck, rfl⟩

/-! ## The `finally` clause -/

/-- The world after the release of the lock, if one was held. -/
def released (held : Option LockHandle) (world : World) : World :=
  match held with
  | some handle => { world with trace := world.trace ++ [.released handle] }
  | none => world

theorem released_database (held : Option LockHandle) (world : World) :
    (released held world).database = world.database := by
  cases held <;> rfl

/-- What `_execute` leaves behind, by what its three parts stored. -/
def Executed (executionId : ExecutionId) (body handler cleanup : Option Verdict)
    (world world' : World) : Prop :=
  ∃ mid mid', Leaves executionId revision (heldLock reactions)
      (launches service reactions revision request) body world mid ∧
    Writes executionId handler mid mid' ∧
    Writes executionId cleanup (released (heldLock reactions) mid') world'

/-- The release of the lock raises nothing. -/
def Released : Prop := heldLock reactions = none ∨ reactions.release = .ok ()

/-- How `_execute` ends: what it returns or raises, and what its body, its handler and its
cleanup stored. -/
inductive Ended : Except Raised Verdict → Option Verdict → Option Verdict → Option Verdict → Prop
  | unreleased {result : Except Raised Verdict} {body handler : Option Verdict} {finished : Bool}
      {raised : Raised}
      (guarded : Guarded service reactions revision request result body handler finished)
      (held : heldLock reactions ≠ none) (struck : reactions.release = .error raised) :
      Ended (.error raised) body handler none
  | finished {result : Except Raised Verdict} {body handler : Option Verdict}
      (guarded : Guarded service reactions revision request result body handler true)
      (released : Released reactions) : Ended result body handler none
  | forced {raised : Raised} {body handler cleanup : Option Verdict}
      (guarded : Guarded service reactions revision request (.error raised) body handler false)
      (released : Released reactions)
      (forces : Forces reactions (body.isSome || handler.isSome) (.ok ()) cleanup) :
      Ended (.error raised) body handler cleanup
  | interrupted {raised raised' : Raised} {body handler cleanup : Option Verdict}
      (guarded : Guarded service reactions revision request (.error raised) body handler false)
      (released : Released reactions)
      (forces : Forces reactions (body.isSome || handler.isSome) (.error raised') cleanup) :
      Ended (.error raised') body handler cleanup

theorem guarded_ends {execution : Execution} (pending : execution.state = .pending)
    (fresh : execution.attempts = []) {world : World}
    (row : OpenRow execution.executionId world) :
    Ends (Effects.handle (RuntimeService.body service reactions revision request)
        (RuntimeService.handler reactions)) ⟨world, execution, none, none⟩
      (fun result frame => ∃ verdict body handler,
        Guarded service reactions revision request (.ok verdict) body handler true ∧
        verdict.Finishes execution.executionId result ∧
        GuardedFrame service reactions revision request execution.executionId world body handler
          true frame)
      (fun raised frame => ∃ body handler finished,
        Guarded service reactions revision request (.error raised) body handler finished ∧
        GuardedFrame service reactions revision request execution.executionId world body handler
          finished frame) := by
  refine Ends.handle ((body_ends service reactions revision request pending fresh row).mono ?_ ?_)
  · rintro result frame ⟨verdict, done, finishes, set_, handle, leaves⟩
    refine ⟨verdict, _, none, .returned done, finishes, handle, ?_, by simp, frame.world, leaves, rfl⟩
    rw [set_]
    exact finishes.finished
  · intro raised frame raises
    exact handler_ends service reactions revision request raises

theorem guardedFrame_row {executionId : ExecutionId} {world : World}
    {body handler : Option Verdict} {finished : Bool} {frame : RuntimeService.Frame}
    (guarded : GuardedFrame service reactions revision request executionId world body handler
      finished frame) :
    if body.isSome || handler.isSome then FinishedRow executionId frame.world
    else OpenRow executionId frame.world := by
  obtain ⟨_, _, _, mid, leaves, writes⟩ := guarded
  cases handler with
  | some verdict =>
      rw [if_pos (by simp)]
      exact writes.finishedRow
  | none =>
      cases writes
      rcases leaves.row with ⟨rfl, open_⟩ | ⟨some_, done⟩
      · rw [if_neg (by simp)]
        exact open_
      · rw [if_pos (by simpa using Option.isSome_iff_ne_none.mpr some_)]
        exact done

/-- After the release, the cleanup runs unless the variable `finished` is set. -/
theorem afterRelease_ends {executionId : ExecutionId} {world : World}
    {body handler : Option Verdict} {finished : Bool} {frame : RuntimeService.Frame}
    (guarded : GuardedFrame service reactions revision request executionId world body handler
      finished frame) :
    Ends (if frame.finished.any Execution.isFinished then pure ()
        else RuntimeService.calling (RuntimeService.forceTerminal reactions frame.execution) :
          Program Raised RuntimeService.Frame Unit)
      { frame with world := released (heldLock reactions) frame.world }
      (fun _ frame' =>
        (finished = true ∧ Executed service reactions revision request executionId body handler none
          world frame'.world) ∨
        (finished = false ∧ ∃ cleanup,
          Forces reactions (body.isSome || handler.isSome) (.ok ()) cleanup ∧
          Executed service reactions revision request executionId body handler cleanup world
            frame'.world))
      (fun raised frame' => finished = false ∧ ∃ cleanup,
        Forces reactions (body.isSome || handler.isSome) (.error raised) cleanup ∧
        Executed service reactions revision request executionId body handler cleanup world
          frame'.world) := by
  have row := guardedFrame_row service reactions revision request guarded
  obtain ⟨_, set_, named, mid, leaves, writes⟩ := guarded
  rw [set_]
  cases finished with
  | true => exact ends_pure (.inl ⟨rfl, mid, frame.world, leaves, writes, rfl⟩)
  | false =>
      have row' : if body.isSome || handler.isSome then
          FinishedRow executionId (released (heldLock reactions) frame.world)
          else OpenRow executionId (released (heldLock reactions) frame.world) := by
        unfold FinishedRow OpenRow at row ⊢
        rw [released_database]
        exact row
      refine calling_ends ((forceTerminal_ends reactions (named rfl) row').mono ?_ ?_)
      · rintro _ world' ⟨cleanup, forces, cleaned⟩
        exact .inr ⟨rfl, cleanup, forces, mid, frame.world, leaves, writes, cleaned⟩
      · rintro raised world' ⟨cleanup, forces, cleaned⟩
        exact ⟨rfl, cleanup, forces, mid, frame.world, leaves, writes, cleaned⟩

theorem cleanup_ends {executionId : ExecutionId} {world : World}
    {body handler : Option Verdict} {finished : Bool} {frame : RuntimeService.Frame}
    (guarded : GuardedFrame service reactions revision request executionId world body handler
      finished frame) :
    Ends (RuntimeService.cleanup reactions) frame
      (fun _ frame' => Released reactions ∧
        ((finished = true ∧ Executed service reactions revision request executionId body handler
            none world frame'.world) ∨
          (finished = false ∧ ∃ cleanup,
            Forces reactions (body.isSome || handler.isSome) (.ok ()) cleanup ∧
            Executed service reactions revision request executionId body handler cleanup world
              frame'.world)))
      (fun raised frame' =>
        (heldLock reactions ≠ none ∧ reactions.release = .error raised ∧
          Executed service reactions revision request executionId body handler none world
            frame'.world) ∨
        (Released reactions ∧ finished = false ∧ ∃ cleanup,
          Forces reactions (body.isSome || handler.isSome) (.error raised) cleanup ∧
          Executed service reactions revision request executionId body handler cleanup world
            frame'.world)) := by
  have after := afterRelease_ends service reactions revision request guarded
  obtain ⟨handle, _, _, mid, leaves, writes⟩ := guarded
  unfold RuntimeService.cleanup
  refine Ends.bind (ends_get ?_)
  rw [handle]
  cases held : heldLock reactions with
  | none =>
      rw [held] at after
      refine Ends.bind (ends_pure (after.mono ?_ ?_))
      · rintro _ frame' done
        exact ⟨.inl held, done⟩
      · rintro raised frame' done
        exact .inr ⟨.inl held, done⟩
  | some handle =>
      rw [held] at after
      refine Ends.bind (calling_ends (Ends.bind ?_))
      refine (answer_ends reactions.release (released (some handle) frame.world)).mono ?_ ?_
      · rintro _ world' ⟨quiet, rfl⟩
        refine after.mono ?_ ?_
        · rintro _ frame' done
          exact ⟨.inr quiet, done⟩
        · rintro raised frame' done
          exact .inr ⟨.inr quiet, done⟩
      · rintro raised world' ⟨struck, rfl⟩
        refine .inl ⟨by simp, struck, mid, frame.world, leaves, writes, ?_⟩
        rw [held]
        rfl

/-- What the frame of `_execute` ends in, the world does. -/
theorem execute_framed {execution : Execution} {world : World} {post : Execution → World → Prop}
    {raised : Raised → World → Prop}
    (framed : Ends (always (Effects.handle (RuntimeService.body service reactions revision request)
        (RuntimeService.handler reactions)) (RuntimeService.cleanup reactions))
      ⟨world, execution, none, none⟩ (fun finished frame => post finished frame.world)
      (fun error frame => raised error frame.world)) :
    Ends (RuntimeService.execute service reactions revision request execution) world post raised := by
  cases run : always (Effects.handle (RuntimeService.body service reactions revision request)
      (RuntimeService.handler reactions)) (RuntimeService.cleanup reactions)
      ⟨world, execution, none, none⟩ with
  | ok result frame =>
      have ran : RuntimeService.execute service reactions revision request execution world =
          .ok result frame.world := by
        unfold RuntimeService.execute
        rw [run]
      exact (ends_of_ok ran).mpr ((ends_of_ok run).mp framed)
  | error raised frame =>
      have ran : RuntimeService.execute service reactions revision request execution world =
          .error raised frame.world := by
        unfold RuntimeService.execute
        rw [run]
      exact (ends_of_error ran).mpr ((ends_of_error run).mp framed)

/-- The run from its pending row to its end. -/
theorem execute_ends {execution : Execution} (pending : execution.state = .pending)
    (fresh : execution.attempts = []) {world : World}
    (row : OpenRow execution.executionId world) :
    Ends (RuntimeService.execute service reactions revision request execution) world
      (fun result world' => ∃ verdict body handler cleanup,
        Ended service reactions revision request (.ok verdict) body handler cleanup ∧
        verdict.Finishes execution.executionId result ∧
        Executed service reactions revision request execution.executionId body handler cleanup
          world world')
      (fun raised world' => ∃ body handler cleanup,
        Ended service reactions revision request (.error raised) body handler cleanup ∧
        Executed service reactions revision request execution.executionId body handler cleanup
          world world') := by
  apply execute_framed
  refine Ends.always ((guarded_ends service reactions revision request pending fresh row).mono
    ?_ ?_)
  · rintro result frame ⟨verdict, body, handler, guarded, finishes, found⟩
    refine (cleanup_ends service reactions revision request found).mono ?_ ?_
    · rintro _ frame' ⟨quiet, ⟨_, executed⟩ | ⟨set_, _⟩⟩
      · exact ⟨verdict, body, handler, none, .finished guarded quiet, finishes, executed⟩
      · cases set_
    · rintro raised frame' (⟨held, struck, executed⟩ | ⟨_, set_, _⟩)
      · exact ⟨body, handler, none, .unreleased guarded held struck, executed⟩
      · cases set_
  · rintro raised frame ⟨body, handler, finished, guarded, found⟩
    refine (cleanup_ends service reactions revision request found).mono ?_ ?_
    · rintro _ frame' ⟨quiet, ⟨rfl, executed⟩ | ⟨rfl, cleanup, forces, executed⟩⟩
      · exact ⟨body, handler, none, .finished guarded quiet, executed⟩
      · exact ⟨body, handler, cleanup, .forced guarded quiet forces, executed⟩
    · rintro raised' frame' (⟨held, struck, executed⟩ | ⟨quiet, rfl, cleanup, forces, executed⟩)
      · exact ⟨body, handler, none, .unreleased guarded held struck, executed⟩
      · exact ⟨body, handler, cleanup, .interrupted guarded quiet forces, executed⟩

end Run

end TaskControl.Runtime
