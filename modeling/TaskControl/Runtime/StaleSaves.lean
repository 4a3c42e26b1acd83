import TaskControl.Runtime.Copies

/-!
# What a run returns and what it stores

The body of `_execute` keeps the store and its copies together.  Its handlers do
not: the copy in scope there is one from before the first attempt, and the save of
it is stale as soon as an attempt has begun.
-/

set_option autoImplicit false

namespace TaskControl.Runtime

open PythonText Effects Persistence

section Parts

variable {reactions : Reactions} {start world : World} {new execution : Execution}

/-! ## The body -/

/-- Whether the first save of a run's first attempt takes effect. -/
def begins (service : RuntimeService) (reactions : Reactions) (revision : TaskRevision)
    (request : RunRequest) : Bool :=
  match opening reactions with
  | .ok (some _) =>
      match prepare service.registered revision.action request.environmentOverrides with
      | .ok _ => (reactions.attempt 1).begins
      | .error _ => false
  | _ => false

/-- The copy in scope in `_execute`: one from before the first attempt. -/
structure InScope (new execution : Execution) : Prop where
  request : RequestedAs (executionToRecord new) execution
  attempts : execution.attempts = []
  startedAt : execution.startedAt = none
  open_ : execution.isFinished = false

/-- What is stored when an exception leaves the body. -/
def BodyLeaves (service : RuntimeService) (reactions : Reactions) (revision : TaskRevision)
    (request : RunRequest) (start : World) (new : Execution) (frame : RuntimeService.Frame) :
    Prop :=
  InScope new frame.execution ∧ ∃ stored, Tracked reactions start new stored frame.world ∧
    if begins service reactions revision request then stored.startedAt.isSome = true
    else stored.startedAt = none ∧ stored.attempts = []

theorem acquireLock_tracked {stored : Execution}
    (tracked : Tracked reactions start new stored world)
    (quiet : reactions.evaluate.raised = .ok ()) :
    Ends (RuntimeService.acquireLock reactions) world
      (fun handle world' => opening reactions = .ok handle ∧
        Tracked reactions start new stored world')
      (fun raised world' => opening reactions = .error raised ∧ world' = world) := by
  unfold RuntimeService.acquireLock opening
  rw [quiet]
  cases reactions.lock with
  | granted handle => exact ⟨rfl, tracked.noted (by simp)⟩
  | held => exact ⟨rfl, tracked⟩
  | raises error => exact ⟨rfl, rfl⟩

theorem body_tracked (apart : DistinctIds reactions) (service : RuntimeService)
    (revision : TaskRevision) (request : RunRequest) (pending : new.state = .pending)
    (scope : InScope new new) (tracked : Tracked reactions start new new world) :
    Ends (RuntimeService.body service reactions revision request) ⟨world, new, none, none⟩
      (fun finished frame => Tracked reactions start new finished frame.world)
      (fun _ frame => BodyLeaves service reactions revision request start new frame) := by
  obtain ⟨evaluating, moved, fields⟩ := Execution.transitionTo_evaluating pending
  have same : RequestedAs (executionToRecord new) evaluating := .of_fields fields
  have scope' : InScope new evaluating := by
    refine ⟨same, by rw [fields]; exact scope.attempts, by rw [fields]; exact scope.startedAt, ?_⟩
    rw [Execution.isFinished, fields]
    rfl
  have none_ : evaluating.attemptCount = 0 := by
    rw [Execution.attemptCount, scope'.attempts]
    rfl
  have evaluated (world' : World) (commits : Commits evaluating world world') :
      Tracked reactions start new evaluating world' := by
    apply tracked.commits apart (Copy.bare same scope'.attempts) _ _ commits
    · rw [scope.attempts, scope'.attempts]
      exact continues_refl []
    · intro moment started
      rw [scope.startedAt] at started
      cases started
  have idle (closed : begins service reactions revision request = false) (stored : Execution)
      (world' : World) (left : Tracked reactions start new stored world')
      (unstarted : stored.startedAt = none) (bare : stored.attempts = []) :
      ∃ stored, Tracked reactions start new stored world' ∧
        if begins service reactions revision request then stored.startedAt.isSome = true
        else stored.startedAt = none ∧ stored.attempts = [] := by
    refine ⟨stored, left, ?_⟩
    rw [closed]
    exact ⟨unstarted, bare⟩
  unfold RuntimeService.body
  refine Ends.bind (ends_get (Ends.bind (calling_ends (Ends.bind (ends_domain_ok _ moved
    ((save_commits reactions.evaluate evaluating world
      (tracked.found (Copy.bare same scope'.attempts))).mono ?_ ?_))))))
  · rintro evaluating mid ⟨quiet, rfl, commits⟩
    have here := evaluated mid commits
    refine Ends.bind (ends_modify (Ends.bind (calling_ends
      ((acquireLock_tracked here quiet).mono ?_ ?_))))
    · rintro handle mid' ⟨opened, locked⟩
      refine Ends.bind (ends_modify ?_)
      cases handle with
      | none =>
          have closed : begins service reactions revision request = false := by
            unfold begins
            rw [opened]
          refine finishing_ends ((finish_commits reactions.finishClock reactions.finish scope'.open_
            (blockedVerdict_reasoned service) mid' locked.row).mono ?_ ?_)
          · rintro finished world' ⟨_, copy, commits⟩
            exact locked.finished apart copy commits
          · intro raised world' left
            refine ⟨scope', ?_⟩
            split at left
            · obtain ⟨finished, copy, commits⟩ := left
              exact idle closed finished world' (locked.finished apart copy commits)
                (copy.startedAt.trans scope'.startedAt) (copy.attempts.trans scope'.attempts)
            · rw [left]
              exact idle closed evaluating mid' locked scope'.startedAt scope'.attempts
      | some handle =>
          unfold RuntimeService.runAttempts
          refine finishing_ends (Ends.bind ((domain_ends (prepare service.registered revision.action
            request.environmentOverrides) mid').mono ?_ ?_))
          · rintro environment mid' ⟨prepared, rfl⟩
            have same_ : begins service reactions revision request =
                (reactions.attempt 1).begins := by
              unfold begins
              rw [opened]
              dsimp only
              rw [prepared]
            refine (attempts_tracked apart revision environment
              revision.controls.retry.maxAttempts scope'.open_ locked
              revision.controls.retry.positive (by omega)).mono (fun _ _ holds => holds) ?_
            rintro raised world' ⟨stored, left, began⟩
            refine ⟨scope', stored, left, ?_⟩
            rw [scope'.startedAt, none_, Option.isSome_none, Bool.false_or] at began
            rw [same_]
            split at began
            · rename_i first
              rw [if_pos first]
              exact began
            · rename_i first
              rw [if_neg first, began]
              exact ⟨scope'.startedAt, scope'.attempts⟩
          · rintro raised mid' ⟨error, refused, rfl, rfl⟩
            have closed : begins service reactions revision request = false := by
              unfold begins
              rw [opened]
              dsimp only
              rw [refused]
            exact ⟨scope', idle closed evaluating mid' locked scope'.startedAt scope'.attempts⟩
    · rintro raised mid' ⟨struck, rfl⟩
      have closed : begins service reactions revision request = false := by
        unfold begins
        rw [struck]
      exact ⟨scope', idle closed evaluating mid' here scope'.startedAt scope'.attempts⟩
  · rintro raised mid ⟨struck, left⟩
    have closed : begins service reactions revision request = false := by
      unfold begins opening
      rw [struck]
      rfl
    refine ⟨scope, ?_⟩
    split at left
    · exact idle closed evaluating mid (evaluated mid left) scope'.startedAt scope'.attempts
    · rw [left]
      exact idle closed new world tracked scope.startedAt scope.attempts

/-! ## The handlers -/

/-- A save of a copy in scope over what is stored: the copy is what is stored then, unless an
attempt had begun. -/
theorem scope_commits (apart : DistinctIds reactions) {begun : Bool}
    {stored scope finished : Execution} {world' : World}
    (inScope : InScope new scope) (tracked : Tracked reactions start new stored world)
    (history : if begun then stored.startedAt.isSome = true
      else stored.startedAt = none ∧ stored.attempts = [])
    (copy : FinishedCopy scope finished) (saved : Commits finished world world') :
    if begun then StartLost start world' else Tracked reactions start new finished world' := by
  have request := copy.request.trans inScope.request
  have bare : finished.attempts = [] := copy.attempts.trans inScope.attempts
  have unstarted : finished.startedAt = none := copy.startedAt.trans inScope.startedAt
  have ownCopy : Copy reactions new finished := Copy.bare request bare
  cases begun with
  | false =>
      obtain ⟨unstarted', bare'⟩ := history
      apply tracked.commits apart ownCopy _ _ saved
      · rw [bare, bare']
        exact continues_refl []
      · intro moment started
        rw [unstarted'] at started
        cases started
  | true =>
      obtain ⟨database, done, rfl⟩ := saved
      obtain ⟨database', done', row, _⟩ := Database.saveExecution_ok (tracked.found ownCopy)
      obtain rfl := Except.ok.inj (done.symm.trans done')
      obtain ⟨events, traced, shown⟩ := tracked.shown
      refine ⟨events, [], _, applyExecutionToRecord (executionToRecord stored) finished, ?_, shown,
        history, unstarted⟩
      unfold committed
      rw [row]
      rw [← traced]

/-- What the handlers leave, by whether their save takes effect. -/
theorem handler_tracked (apart : DistinctIds reactions) {service : RuntimeService}
    {revision : TaskRevision} {request : RunRequest} {frame : RuntimeService.Frame}
    (raised : Raised)
    (leaves : BodyLeaves service reactions revision request start new frame) :
    Ends (RuntimeService.handler reactions raised) frame
      (fun finished frame' =>
        Settles reactions.handlerClock reactions.handler (handlerVerdict raised) ∧
        if begins service reactions revision request then StartLost start frame'.world
        else Tracked reactions start new finished frame'.world)
      (fun _ frame' =>
        if Settles reactions.handlerClock reactions.handler (handlerVerdict raised) ∧
          begins service reactions revision request = true then StartLost start frame'.world
        else ∃ stored, Tracked reactions start new stored frame'.world) := by
  obtain ⟨inScope, stored, tracked, history⟩ := leaves
  have named : frame.execution.executionId = new.executionId := inScope.request.executionId
  have found : frame.world.database.record? frame.execution.executionId =
      some (executionToRecord stored) := by
    have row := tracked.row
    rw [tracked.copy.named] at row
    rw [named]
    exact row
  have finishes := finish_commits reactions.handlerClock reactions.handler inScope.open_
    (handlerVerdict_reasoned raised) frame.world found
  have committed (finished : Execution) (world' : World)
      (copy : FinishedCopy frame.execution finished)
      (saved : Commits finished frame.world world') :
      if begins service reactions revision request then StartLost start world'
      else Tracked reactions start new finished world' :=
    scope_commits apart inScope tracked history copy saved
  have left (world' : World)
      (ends : if Settles reactions.handlerClock reactions.handler (handlerVerdict raised) then
          ∃ finished, FinishedCopy frame.execution finished ∧ Commits finished frame.world world'
        else world' = frame.world) :
      if Settles reactions.handlerClock reactions.handler (handlerVerdict raised) ∧
          begins service reactions revision request = true then StartLost start world'
      else ∃ stored, Tracked reactions start new stored world' := by
    by_cases settles : Settles reactions.handlerClock reactions.handler (handlerVerdict raised)
    · rw [if_pos settles] at ends
      obtain ⟨finished, copy, saved⟩ := ends
      have after := committed finished world' copy saved
      by_cases begun : begins service reactions revision request = true
      · rw [if_pos begun] at after
        rw [if_pos ⟨settles, begun⟩]
        exact after
      · rw [if_neg begun] at after
        rw [if_neg fun both => begun both.2]
        exact ⟨finished, after⟩
    · rw [if_neg settles] at ends
      rw [if_neg fun both => settles both.1, ends]
      exact ⟨stored, tracked⟩
  unfold RuntimeService.handler
  cases raised with
  | taskControl error =>
      refine Ends.bind (ends_get (finishing_ends (finishes.mono ?_ fun _ => left)))
      rintro finished world' ⟨settles, copy, saved⟩
      exact ⟨settles, committed finished world' copy saved⟩
  | _ =>
      refine Ends.bind (ends_get (Ends.bind (finishing_ends (finishes.mono ?_ fun _ => left))))
      rintro finished world' ⟨settles, copy, saved⟩
      refine ends_throw ?_
      exact left world' (by rw [if_pos settles]; exact ⟨finished, copy, saved⟩)

/-! ## The cleanup -/

/-- The trace only grows. -/
def Extends (trace : List Event) (world : World) : Prop := ∃ more, world.trace = trace ++ more

theorem keeps_answer {α : Type} (invariant : World → Prop) (reaction : Except Raised α) :
    Effects.Keeps invariant (answer reaction) := by
  cases reaction with
  | ok value => exact keeps_pure invariant value
  | error raised => exact keeps_throw invariant raised

theorem keeps_domain {α : Type} (invariant : World → Prop) (result : Except TaskControlError α) :
    Effects.Keeps invariant (domain result) := by
  cases result with
  | ok value => exact keeps_pure invariant value
  | error error => exact keeps_throw invariant (Raised.taskControl error)

theorem transaction_extends (trace : List Event) (fault : Fault) (executionId : ExecutionId)
    (change : Database → Except TaskControlError Database) :
    Effects.Keeps (Extends trace) (transaction fault executionId change) := by
  intro world ⟨more, traced⟩
  have extended (database : Database) : Extends trace (committed executionId world database) := by
    unfold committed
    split
    · rename_i record _
      exact ⟨more ++ [.stored record], by simp [traced]⟩
    · exact ⟨more, traced⟩
  have ends := transaction_ends fault executionId change world
  unfold Ends at ends
  split
  · rename_i ran
    rw [ran] at ends
    obtain ⟨_, database, _, rfl⟩ := ends
    exact extended database
  · rename_i ran
    rw [ran] at ends
    rcases ends with ⟨rfl, _⟩ | ⟨_, database, _, rfl⟩
    · exact ⟨more, traced⟩
    · exact extended database

theorem finish_extends (trace : List Event) (clock : Except Raised UtcTimestamp) (fault : Fault)
    (execution : Execution) (outcome : ExecutionOutcome) (reasonCode : Option ReasonCode)
    (explanation : Text) :
    Effects.Keeps (Extends trace)
      (RuntimeService.finish clock fault execution outcome reasonCode explanation) :=
  (keeps_answer _ clock).bind fun _ => (keeps_domain _ _).bind fun _ =>
    (transaction_extends trace fault _ _).bind fun _ => keeps_pure _ _

theorem forceTerminal_extends (trace : List Event) (execution : Execution) :
    Effects.Keeps (Extends trace) (RuntimeService.forceTerminal reactions execution) := by
  apply Triple.handle
  · refine (keeps_answer _ reactions.cleanupRead).bind fun _ => (keeps_get _).bind fun world =>
      (keeps_domain _ _).bind fun current => ?_
    cases current with
    | none => exact keeps_pure _ _
    | some current =>
        exact keeps_ite (fun _ => keeps_pure _ _) fun _ =>
          (finish_extends trace _ _ _ _ _ _).bind fun _ => keeps_pure _ _
  · intro raised
    exact keeps_ite (fun _ => keeps_pure _ _) fun _ => keeps_throw _ raised

/-- The `finally` clause keeps what the release of the lock and the forced save keep. -/
theorem cleanup_keeps {invariant : World → Prop} {frame : RuntimeService.Frame}
    (freed : ∀ world handle, invariant world →
      invariant { world with trace := world.trace ++ [.released handle] })
    (forced : frame.finished.any Execution.isFinished = false → ∀ world, invariant world →
      Ends (RuntimeService.forceTerminal reactions frame.execution) world (fun _ => invariant)
        (fun _ => invariant))
    (holds : invariant frame.world) :
    Ends (RuntimeService.cleanup reactions) frame (fun _ frame' => invariant frame'.world)
      (fun _ frame' => invariant frame'.world) := by
  have after (world : World) (here : invariant world) :
      Ends (if frame.finished.any Execution.isFinished then pure ()
          else RuntimeService.calling (RuntimeService.forceTerminal reactions frame.execution) :
            Program Raised RuntimeService.Frame Unit) { frame with world }
        (fun _ frame' => invariant frame'.world) (fun _ frame' => invariant frame'.world) := by
    cases set_ : frame.finished.any Execution.isFinished with
    | true => exact ends_pure here
    | false => exact calling_ends (forced set_ world here)
  unfold RuntimeService.cleanup
  refine Ends.bind (ends_get ?_)
  cases held : frame.handle with
  | none => exact Ends.bind (ends_pure (after frame.world holds))
  | some handle =>
      refine Ends.bind (calling_ends (Ends.bind (ends_modify ((answer_ends _ _).mono ?_ ?_))))
      · rintro _ world ⟨_, rfl⟩
        exact after _ (freed frame.world handle holds)
      · rintro raised world ⟨_, rfl⟩
        exact freed frame.world handle holds

theorem cleanup_lost {frame : RuntimeService.Frame} (lost : StartLost start frame.world) :
    Ends (RuntimeService.cleanup reactions) frame (fun _ frame' => StartLost start frame'.world)
      (fun _ frame' => StartLost start frame'.world) := by
  apply cleanup_keeps _ _ lost
  · intro world handle lost
    exact lost.extended rfl
  · intro _ world lost
    have ends := @forceTerminal_extends reactions world.trace frame.execution world
      ⟨[], by rw [List.append_nil]⟩
    exact Ends.mono ends (fun _ world' ⟨_, grown⟩ => lost.extended grown)
      fun _ world' ⟨_, grown⟩ => lost.extended grown

theorem cleanup_tracked (apart : DistinctIds reactions) {stored : Execution}
    {frame : RuntimeService.Frame}
    (named : frame.finished.any Execution.isFinished = false →
      frame.execution.executionId = new.executionId)
    (tracked : Tracked reactions start new stored frame.world) :
    Ends (RuntimeService.cleanup reactions) frame
      (fun _ frame' => ∃ stored', Tracked reactions start new stored' frame'.world ∧
        (frame.finished.any Execution.isFinished = true → stored' = stored))
      (fun _ frame' => ∃ stored', Tracked reactions start new stored' frame'.world ∧
        (frame.finished.any Execution.isFinished = true → stored' = stored)) := by
  refine @cleanup_keeps reactions (fun world => ∃ stored',
    Tracked reactions start new stored' world ∧
      (frame.finished.any Execution.isFinished = true → stored' = stored)) frame ?_ ?_
    ⟨stored, tracked, fun _ => rfl⟩
  · rintro world handle ⟨stored', tracked', same⟩
    exact ⟨stored', tracked'.noted (by simp), same⟩
  · rintro unset world ⟨stored', tracked', _⟩
    have unset_ (saved : Execution) (world' : World)
        (left : Tracked reactions start new saved world') :
        ∃ stored', Tracked reactions start new stored' world' ∧
          (frame.finished.any Execution.isFinished = true → stored' = stored) := by
      refine ⟨saved, left, fun set_ => ?_⟩
      rw [unset] at set_
      cases set_
    have here := unset_ stored' world tracked'
    unfold RuntimeService.forceTerminal
    refine Ends.handle (Ends.bind ((answer_ends reactions.cleanupRead world).mono ?_ ?_))
    · rintro _ world ⟨_, rfl⟩
      have read := tracked'.read
      rw [tracked'.copy.named, ← named unset] at read
      refine Ends.bind (ends_get (Ends.bind (ends_domain_ok _ read ?_)))
      dsimp only
      cases done : stored'.isFinished with
      | true => exact ends_pure here
      | false =>
          refine Ends.bind ((finish_commits reactions.cleanupClock reactions.cleanup done
            forcedVerdict_reasoned world tracked'.row).mono ?_ ?_)
          · rintro finished world' ⟨_, copy, commits⟩
            exact ends_pure (unset_ finished world' (tracked'.finished apart copy commits))
          · intro raised world' left
            have kept : ∃ stored', Tracked reactions start new stored' world' ∧
                (frame.finished.any Execution.isFinished = true → stored' = stored) := by
              split at left
              · obtain ⟨finished, copy, commits⟩ := left
                exact unset_ finished world' (tracked'.finished apart copy commits)
              · rw [left]
                exact here
            cases raised.isException with
            | true => exact kept
            | false => exact kept
    · rintro raised world ⟨_, rfl⟩
      cases raised.isException with
      | true => exact here
      | false => exact here

/-! ## From pending to terminal -/

/-- An exception leaves the body after an attempt has begun, and the handler's save takes
effect. -/
def StaleSave (service : RuntimeService) (reactions : Reactions) (revision : TaskRevision)
    (request : RunRequest) : Prop :=
  begins service reactions revision request = true ∧
    ∃ verdict, HandlerSettles service reactions revision request verdict

theorem execute_tracked (apart : DistinctIds reactions) (service : RuntimeService)
    (revision : TaskRevision) (request : RunRequest) (pending : new.state = .pending)
    (scope : InScope new new) (row : OpenRow new.executionId world)
    (tracked : Tracked reactions start new new world) :
    Ends (RuntimeService.execute service reactions revision request new) world
      (fun finished world' =>
        (StaleSave service reactions revision request → StartLost start world') ∧
        (¬ StaleSave service reactions revision request →
          Tracked reactions start new finished world'))
      (fun _ world' =>
        (StaleSave service reactions revision request → StartLost start world') ∧
        (¬ StaleSave service reactions revision request →
          ∃ stored, Tracked reactions start new stored world')) := by
  have bodied := (body_tracked apart service revision request pending scope tracked).and
    (body_ends service reactions revision request pending scope.attempts row)
  have stale {raised : Raised} {stored : Option Verdict}
      (struck : Strikes service reactions revision request raised stored) :
      StaleSave service reactions revision request ↔
        Settles reactions.handlerClock reactions.handler (handlerVerdict raised) ∧
          begins service reactions revision request = true := by
    constructor
    · rintro ⟨begun, verdict, raised', stored', struck', rfl, settles⟩
      obtain ⟨rfl, _⟩ := struck.unique struck'
      exact ⟨settles, begun⟩
    · rintro ⟨settles, begun⟩
      exact ⟨begun, _, raised, stored, struck, rfl, settles⟩
  apply execute_framed
  apply Ends.always
  apply Ends.handle
  refine bodied.mono ?_ ?_
  · rintro finished frame ⟨tracked', verdict, returned, finishes, set_, _⟩
    have fresh : ¬ StaleSave service reactions revision request := by
      rintro ⟨_, _, raised, stored, struck, _⟩
      exact struck.not_returned returned
    have done : frame.finished.any Execution.isFinished = true := by
      rw [set_]
      exact finishes.finished
    refine (cleanup_tracked apart (fun unset => by rw [done] at unset; cases unset)
      tracked').mono ?_ ?_
    · rintro _ frame' ⟨stored', left, same⟩
      rw [same done] at left
      exact ⟨fun struck => absurd struck fresh, fun _ => left⟩
    · rintro _ frame' ⟨stored', left, _⟩
      exact ⟨fun struck => absurd struck fresh, fun _ => ⟨stored', left⟩⟩
  · rintro raised frame ⟨leaves, raises⟩
    obtain ⟨stored, struck, _⟩ := id raises
    have stale_ := stale struck
    refine ((handler_tracked apart raised leaves).and
      (handler_ends service reactions revision request raises)).mono ?_ ?_
    · rintro finished frame' ⟨⟨settles, left⟩, verdict, body, handler, guarded, finishes, found⟩
      have done : frame'.finished.any Execution.isFinished = true := found.2.1
      split at left
      · rename_i begun
        have struck_ := stale_.mpr ⟨settles, begun⟩
        refine (cleanup_lost left).mono ?_ ?_
        · exact fun _ frame'' lost => ⟨fun _ => lost, fun fresh => absurd struck_ fresh⟩
        · exact fun _ frame'' lost => ⟨fun _ => lost, fun fresh => absurd struck_ fresh⟩
      · rename_i idle
        have fresh : ¬ StaleSave service reactions revision request :=
          fun struck_ => idle (stale_.mp struck_).2
        refine (cleanup_tracked apart (fun unset => by rw [done] at unset; cases unset)
          left).mono ?_ ?_
        · rintro _ frame'' ⟨stored', left', same⟩
          rw [same done] at left'
          exact ⟨fun struck_ => absurd struck_ fresh, fun _ => left'⟩
        · rintro _ frame'' ⟨stored', left', _⟩
          exact ⟨fun struck_ => absurd struck_ fresh, fun _ => ⟨stored', left'⟩⟩
    · rintro raised' frame' ⟨left, body, handler, finished, guarded, found⟩
      split at left
      · rename_i both
        have struck_ := stale_.mpr both
        refine (cleanup_lost left).mono ?_ ?_
        · exact fun _ frame'' lost => ⟨fun _ => lost, fun fresh => absurd struck_ fresh⟩
        · exact fun _ frame'' lost => ⟨fun _ => lost, fun fresh => absurd struck_ fresh⟩
      · rename_i both
        have fresh : ¬ StaleSave service reactions revision request :=
          fun struck_ => both (stale_.mp struck_)
        obtain ⟨stored', left⟩ := left
        have named : frame'.finished.any Execution.isFinished = false →
            frame'.execution.executionId = new.executionId :=
          fun unset => found.2.2.1 (found.2.1.symm.trans unset)
        refine (cleanup_tracked apart named left).mono ?_ ?_
        · rintro _ frame'' ⟨stored'', left', _⟩
          exact ⟨fun struck_ => absurd struck_ fresh, fun _ => ⟨stored'', left'⟩⟩
        · rintro _ frame'' ⟨stored'', left', _⟩
          exact ⟨fun struck_ => absurd struck_ fresh, fun _ => ⟨stored'', left'⟩⟩

end Parts

/-! ## Whole runs -/

/-- Every attempt row belongs to an execution row. -/
def Referential (database : Database) : Prop :=
  ∀ attempt ∈ database.attempts, database.record? attempt.executionId ≠ none

/-- What a run returns for an execution that it created is what is stored, and none of its saves
loses what is stored when it is made. -/
structure StoresWhatItReturns (service : RuntimeService) (reactions : Reactions)
    (request : RunRequest) (world : World) : Prop where
  returned : ∀ result final, service.run reactions request world = .ok result final →
    result.wasDuplicate = false →
      final.database.getExecution result.execution.executionId = .ok (some result.execution)
  saves : SavesKeep reactions.executionId world
    (finalWorld (service.run reactions request world))

/-- A save of a run that is stale: its execution was created, an attempt had begun, and the handler
saves the copy from before it. -/
def RunsStale (service : RuntimeService) (reactions : Reactions) (request : RunRequest)
    (database : Database) : Prop :=
  reactions.create = .none ∧ ∃ new, start reactions request database = .ok (.inr new) ∧
    Admitted reactions database new.execution ∧
    StaleSave service reactions new.revision request

/-- The execution that a run creates has not started. -/
theorem start_unstarted {reactions : Reactions} {request : RunRequest} {database : Database}
    {new : Start} (starts : start reactions request database = .ok (.inr new)) :
    new.execution.startedAt = none := by
  unfold start at starts
  obtain ⟨_, _, starts⟩ := except_bind_eq_ok.mp starts
  obtain ⟨found, _, starts⟩ := except_bind_eq_ok.mp starts
  obtain ⟨existing, _, starts⟩ := except_bind_eq_ok.mp starts
  cases existing with
  | some existing => cases starts
  | none =>
      obtain ⟨new', started, starts⟩ := except_bind_eq_ok.mp starts
      cases starts
      obtain ⟨requestedAt, _, started⟩ := except_bind_eq_ok.mp started
      obtain ⟨execution, made, started⟩ := except_bind_eq_ok.mp started
      cases started
      have requested := raising_eq_ok.mp made
      unfold RuntimeService.newExecution Execution.requested at requested
      rw [Execution.make_eq_ok.mp requested]

theorem created_tracked {reactions : Reactions} {request : RunRequest} {world : World} {new : Start}
    (starts : start reactions request world.database = .ok (.inr new))
    (referential : Referential world.database) {database : Database}
    (added : world.database.addExecution new.execution = .ok database) :
    InScope new.execution new.execution ∧
      Tracked reactions world new.execution new.execution
        (committed new.execution.executionId world database) := by
  obtain ⟨_, pending, bare, _⟩ := start_new starts
  obtain ⟨absent, row, _⟩ := Database.addExecution_ok added
  have unstarted : new.execution.startedAt = none := start_unstarted starts
  have open_ : new.execution.isFinished = false := by
    rw [Execution.isFinished, pending]
    rfl
  have after : committed new.execution.executionId world database =
      { world with database, trace := world.trace ++ [.stored (executionToRecord new.execution)] } := by
    unfold committed
    rw [row]
  rw [after]
  refine ⟨⟨.refl _, bare, unstarted, open_⟩, row, ?_, Copy.bare (.refl _) bare,
    .saved .none ⟨new.execution, .inl added⟩ (Database.keepsHistory_added added) row rfl,
    [.stored (executionToRecord new.execution)], rfl, by simp⟩
  rw [Database.attemptsFor, Database.addExecution_attempts added, bare, List.append_nil,
    List.filter_eq_nil_iff]
  intro attempt member own
  apply referential attempt member
  rw [of_decide_eq_true own]
  exact absent

/-- What a run leaves, by whether it saves a stale copy. -/
theorem run_tracked (service : RuntimeService) {reactions : Reactions} (request : RunRequest)
    {world : World} (referential : Referential world.database) (apart : DistinctIds reactions) :
    Ends (service.run reactions request) world
      (fun result world' =>
        (RunsStale service reactions request world.database → StartLost world world') ∧
        (¬ RunsStale service reactions request world.database →
          SavesKeep reactions.executionId world world' ∧
          (result.wasDuplicate = false → world'.database.getExecution
            result.execution.executionId = .ok (some result.execution))))
      (fun _ world' =>
        (RunsStale service reactions request world.database → StartLost world world') ∧
        (¬ RunsStale service reactions request world.database →
          SavesKeep reactions.executionId world world')) := by
  apply run_cases
  · intro existing starts
    refine ⟨?_, fun _ => ⟨.none, by simp⟩⟩
    rintro ⟨_, new, starts', _⟩
    rw [starts] at starts'
    cases starts'
  · intro new starts
    obtain ⟨_, pending, _, named, _⟩ := start_new starts
    have stale : RunsStale service reactions request world.database ↔
        reactions.create = .none ∧ Admitted reactions world.database new.execution ∧
          StaleSave service reactions new.revision request := by
      constructor
      · rintro ⟨quiet, new', starts', admitted, stale⟩
        rw [starts] at starts'
        cases starts'
        exact ⟨quiet, admitted, stale⟩
      · rintro ⟨quiet, admitted, stale⟩
        exact ⟨quiet, new, starts, admitted, stale⟩
    rw [stale]
    refine Ends.bind ((transaction_ends reactions.create _ _ world).mono ?_ ?_)
    · rintro _ world' ⟨quiet, database, added, rfl⟩
      obtain ⟨scope, tracked⟩ := created_tracked starts referential added
      have admitted : Admitted reactions world.database new.execution :=
        ⟨by rw [quiet]; rfl, database, added⟩
      have row : OpenRow new.execution.executionId
          (committed new.execution.executionId world database) := by
        refine ⟨_, tracked.row, ?_, created_consistent new.execution⟩
        exact scope.open_
      refine Ends.bind ((execute_tracked apart service new.revision request pending scope row
        tracked).mono ?_ ?_)
      · rintro finished world' ⟨lost, kept⟩
        refine ends_pure ⟨fun struck => lost struck.2.2, fun fresh => ?_⟩
        have left := kept fun struck => fresh ⟨quiet, admitted, struck⟩
        rw [← named]
        exact ⟨left.saves, fun _ => left.read⟩
      · rintro raised world' ⟨lost, kept⟩
        refine ⟨fun struck => lost struck.2.2, fun fresh => ?_⟩
        obtain ⟨stored, left⟩ := kept fun struck => fresh ⟨quiet, admitted, struck⟩
        rw [← named]
        exact left.saves
    · rintro raised world' (⟨rfl, refused⟩ | ⟨late, database, added, rfl⟩)
      · refine ⟨?_, fun _ => .none⟩
        rintro ⟨quiet, ⟨_, database, added⟩, _⟩
        rcases refused with early | ⟨error, failed, _⟩
        · rw [early] at quiet
          cases quiet
        · rw [added] at failed
          cases failed
      · refine ⟨?_, fun _ => ?_⟩
        · rintro ⟨quiet, _⟩
          rw [late] at quiet
          cases quiet
        · rw [← named]
          exact (created_tracked starts referential added).2.saves
  · intro raised misses
    refine ⟨?_, fun _ => .none⟩
    rintro ⟨_, new, starts, _⟩
    rw [misses] at starts
    cases starts

/-- A run stores what it returns and loses nothing that it has stored, exactly when no exception
leaves its body after an attempt has begun with the handler's save taking effect then. -/
theorem run_stores_what_it_returns_iff (service : RuntimeService) (reactions : Reactions)
    (request : RunRequest) (world : World) (referential : Referential world.database)
    (apart : DistinctIds reactions) :
    StoresWhatItReturns service reactions request world ↔
      ¬ RunsStale service reactions request world.database := by
  have ends := run_tracked service request referential apart
  constructor
  · rintro ⟨_, saves⟩ stale
    apply saves.not_lost
    apply Ends.final ends
    · exact fun _ _ left => left.1 stale
    · exact fun _ _ left => left.1 stale
  · intro fresh
    constructor
    · intro result final ran created
      exact (((ends_of_ok ran).mp ends).2 fresh).2 created
    · apply Ends.final ends
      · exact fun _ _ left => (left.2 fresh).1
      · exact fun _ _ left => left.2 fresh

namespace Backup

theorem attemptId_bounded (n : Nat) : n % uuidBound < uuidBound :=
  Nat.mod_lt n (by decide)

/-- Each attempt gets an identifier of its own. -/
def numbered : Reactions :=
  { quiet with attempt := fun n =>
      { quiet.attempt n with attemptId := ⟨n % uuidBound, attemptId_bounded n⟩ } }

theorem numbered_distinct : DistinctIds numbered := by
  intro m n _ before bounded same
  have small : maxRetryAttempts < uuidBound := by decide
  have values : m % uuidBound = n % uuidBound := congrArg EntityId.value same
  rw [Nat.mod_eq_of_lt (by omega), Nat.mod_eq_of_lt (by omega)] at values
  omega

/-- The executor raises in the middle of the attempt. -/
def lostExecutor : Reactions :=
  { numbered with attempt := fun n =>
      { numbered.attempt n with executor := .error unreachable } }

/-- Whether the run created what it returns, and how many attempts it returns and stores. -/
def attemptsKept : Option (Bool × Nat × Option Nat) :=
  match service.run lostExecutor request world with
  | .ok result final =>
      match final.database.getExecution result.execution.executionId with
      | .ok stored => some (result.wasDuplicate, result.execution.attemptCount,
          stored.map Execution.attemptCount)
      | .error _ => none
  | .error _ _ => none

end Backup

theorem run_stores_what_it_returns_quiet :
    StoresWhatItReturns Backup.service Backup.numbered Backup.request Backup.world ↔
      ¬ RunsStale Backup.service Backup.numbered Backup.request Backup.world.database := by
  apply run_stores_what_it_returns_iff
  · intro attempt member
    cases member
  · exact Backup.numbered_distinct

/-- The returned execution has no attempts, the stored one has one. -/
theorem run_returns_no_attempts :
    ¬ StoresWhatItReturns Backup.service Backup.lostExecutor Backup.request Backup.world := by
  intro stores
  have kept : Backup.attemptsKept = some (false, 0, some 1) := by decide +kernel
  unfold Backup.attemptsKept at kept
  split at kept
  · rename_i result final ran
    split at kept
    · rename_i stored read
      rw [Option.some.injEq, Prod.mk.injEq, Prod.mk.injEq] at kept
      obtain ⟨created, returned, held⟩ := kept
      rw [stores.returned result final ran created] at read
      rw [← Except.ok.inj read, Option.map_some, returned] at held
      cases held
    · cases kept
  · cases kept

end TaskControl.Runtime
