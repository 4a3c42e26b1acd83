import TaskControl.Activation.Launches
import TaskControl.Runtime.Outcomes

/-!
# How a recorded run is lost

A run that an exception of the control plane leaves, and the outcome that its row has by
then.  Every pattern of failures ends a run in one way, so both are read off the pattern.
-/

set_option autoImplicit false

namespace TaskControl.Activation

open PythonText Effects Persistence TaskControl.Runtime

/-- The row that has come to the database for the execution has the outcome. -/
def RowSays (executionId : ExecutionId) (world final : World) (outcome : ExecutionOutcome) : Prop :=
  world.database.record? executionId = none ∧
    ∃ record, final.database.record? executionId = some record ∧ record.outcome = some outcome

/-- An exception of the control plane leaves a run, whose row has an outcome by then or none. -/
inductive RunLost (service : RuntimeService) (reactions : Reactions) (request : RunRequest)
    (database : Database) : Option ExecutionOutcome → Prop
  | unread {raised : Raised} (struck : start reactions request database = .error raised)
      (unreachable : isUnreachable raised = true) : RunLost service reactions request database none
  | uncreated {new : Start} {raised : Raised}
      (starts : start reactions request database = .ok (.inr new))
      (struck : reactions.create = .before raised) (unreachable : isUnreachable raised = true) :
      RunLost service reactions request database none
  | created {new : Start} {raised : Raised}
      (starts : start reactions request database = .ok (.inr new))
      (struck : reactions.create = .after raised)
      (admitted : Admitted reactions database new.execution)
      (unreachable : isUnreachable raised = true) : RunLost service reactions request database none
  | escaped {new : Start} {raised : Raised} {body handler cleanup : Option Verdict}
      (starts : start reactions request database = .ok (.inr new))
      (quiet : reactions.create = .none) (admitted : Admitted reactions database new.execution)
      (ended : Ended service reactions new.revision request (.error raised) body handler cleanup)
      (unreachable : isUnreachable raised = true) :
      RunLost service reactions request database
        ((cleanup.or (handler.or body)).map Verdict.outcome)

section Run

variable {service : RuntimeService} {reactions : Reactions} {revision : TaskRevision}
  {request : RunRequest}

theorem open_undecided {record : ExecutionRecord} (open_ : record.state.isTerminal = false)
    (readable : Readable record) : record.outcome = none :=
  @Execution.outcome_none ⟨record.fields [], readable⟩ open_

/-- The row of the execution after a run has the outcome that was stored last. -/
theorem executed_outcome {executionId : ExecutionId} {body handler cleanup : Option Verdict}
    {world world' : World}
    (executed : Executed service reactions revision request executionId body handler cleanup world
      world') :
    ∃ record, world'.database.record? executionId = some record ∧
      record.outcome = (cleanup.or (handler.or body)).map Verdict.outcome := by
  obtain ⟨mid, mid', ⟨still, progress, bodyWrites⟩, handlerWrites, cleanupWrites⟩ := executed
  cases cleanup with
  | some verdict =>
      obtain ⟨record, rfl, written, stores⟩ := cleanupWrites
      exact ⟨record, stores.row, written.outcome⟩
  | none =>
      cases cleanupWrites
      rw [released_database]
      cases handler with
      | some verdict =>
          obtain ⟨record, rfl, written, stores⟩ := handlerWrites
          exact ⟨record, stores.row, written.outcome⟩
      | none =>
          cases handlerWrites
          cases body with
          | some verdict =>
              obtain ⟨record, rfl, written, stores⟩ := bodyWrites
              exact ⟨record, stores.row, written.outcome⟩
          | none =>
              cases bodyWrites
              obtain ⟨record, found, open_, readable⟩ := progress.open_
              exact ⟨record, found, open_undecided open_ readable⟩

theorem rowSays_iff_of_ran {new : Start} {result : Except Raised Verdict}
    {body handler cleanup : Option Verdict} {world world' : World}
    (starts : start reactions request world.database = .ok (.inr new))
    (ran : RanToEnd service reactions request new result body handler cleanup world world')
    (outcome : ExecutionOutcome) :
    RowSays reactions.executionId world world' outcome ↔
      (cleanup.or (handler.or body)).map Verdict.outcome = some outcome := by
  obtain ⟨_, _, _, named, _⟩ := start_new starts
  obtain ⟨mid, _, adds, _, executed⟩ := ran
  obtain ⟨record, found, decided⟩ := executed_outcome executed
  have fresh := adds.fresh
  change world.database.record? new.execution.executionId = none at fresh
  rw [named] at fresh
  rw [← decided]
  constructor
  · rintro ⟨_, other, stored, outcome⟩
    rw [found] at stored
    rw [Option.some.inj stored]
    exact outcome
  · exact fun outcome => ⟨fresh, record, found, outcome⟩

theorem not_rowSays_self (executionId : ExecutionId) (world : World) (outcome : ExecutionOutcome) :
    ¬ RowSays executionId world world outcome := by
  rintro ⟨absent, record, found, _⟩
  rw [absent] at found
  cases found

/-- A creation that takes no effect raises what struck it, or what the constraints of the tables
say. -/
theorem run_refused (service : RuntimeService) (reactions : Reactions) (request : RunRequest)
    (world : World) :
    Ends (service.run reactions request) world (fun _ _ => True) fun raised _ => ∀ new,
      start reactions request world.database = .ok (.inr new) →
      ¬ Admitted reactions world.database new.execution →
      reactions.create = .before raised ∨
        ∃ error, raised = .taskControl error ∧
          world.database.addExecution new.execution = .error error := by
  apply run_cases
  · intro existing starts
    trivial
  · intro new starts
    refine Ends.bind ((transaction_ends reactions.create _ _ world).mono ?_ ?_)
    · rintro _ world' ⟨quiet, database, done, rfl⟩
      cases run : RuntimeService.execute service reactions new.revision request new.execution
          (committed new.execution.executionId world database) with
      | ok finished final => exact Ends.bind ((ends_of_ok run).mpr (ends_pure trivial))
      | error raised final =>
          refine Ends.bind ((ends_of_error run).mpr ?_)
          intro new' starts' refused
          rw [starts] at starts'
          cases starts'
          exact absurd ⟨by rw [quiet]; rfl, database, done⟩ refused
    · rintro raised world' struck new' starts' refused
      rw [starts] at starts'
      cases starts'
      rcases struck with ⟨_, early | ⟨error, failed, same⟩⟩ | ⟨late, database, done, _⟩
      · exact Or.inl early
      · exact Or.inr ⟨error, same, failed⟩
      · exact absurd ⟨by rw [late]; rfl, database, done⟩ refused
  · intro raised misses new starts
    rw [misses] at starts
    cases starts

/-- A creation that is struck at once raises what struck it. -/
theorem run_struck {raised : Raised} (struck : reactions.create = .before raised) (world : World) :
    Ends (service.run reactions request) world
      (fun _ _ => ∀ new, start reactions request world.database ≠ .ok (.inr new))
      fun raised' _ => ∀ new, start reactions request world.database = .ok (.inr new) →
        raised' = raised := by
  apply run_cases
  · intro existing starts new starts'
    rw [starts] at starts'
    cases starts'
  · intro new starts
    refine Ends.bind ?_
    unfold RuntimeService.persistNew transaction
    rw [struck]
    exact fun _ _ => rfl
  · intro raised' misses new starts
    rw [misses] at starts
    cases starts

theorem reachable_of_addExecution {database : Database} {execution : Execution}
    {error : TaskControlError} (failed : database.addExecution execution = .error error) :
    isUnreachable (.taskControl error) = false := by
  unfold Database.addExecution at failed
  split at failed
  · cases failed
    rfl
  · split at failed
    · cases failed
      rfl
    · cases failed

/-! ### Runs that create their execution -/

section Created

variable {new : Start} {body handler cleanup : Option Verdict} {world : World}

/-- A run that creates its execution takes it to its end. -/
theorem run_ran (starts : start reactions request world.database = .ok (.inr new))
    (quiet : reactions.create = .none)
    (admitted : Admitted reactions world.database new.execution) :
    (∃ result verdict body handler cleanup final,
      service.run reactions request world = .ok result final ∧
      result.execution.outcome = some verdict.outcome ∧
      RanToEnd service reactions request new (.ok verdict) body handler cleanup world final) ∨
    ∃ raised body handler cleanup final,
      service.run reactions request world = .error raised final ∧
      RanToEnd service reactions request new (.error raised) body handler cleanup world final := by
  cases run : service.run reactions request world with
  | ok result final =>
      rcases (ends_of_ok run).mp (run_ends service reactions request world) with
        ⟨existing, starts', _⟩ |
          ⟨new', starts', _, _, verdict, body, handler, cleanup, finishes, ran⟩
      · rw [starts] at starts'
        cases starts'
      · rw [starts] at starts'
        cases starts'
        exact Or.inl ⟨result, verdict, body, handler, cleanup, final, rfl, finishes.outcome, ran⟩
  | error raised final =>
      rcases (ends_of_error run).mp (run_ends service reactions request world) with
        ⟨struck, _⟩ | ⟨new', starts', ⟨refused, _⟩ | ⟨late, _⟩ | ⟨_, body, handler, cleanup, ran⟩⟩
      · rw [starts] at struck
        cases struck
      · rw [starts] at starts'
        cases starts'
        exact absurd admitted refused
      · rw [quiet] at late
        cases late
      · rw [starts] at starts'
        cases starts'
        exact Or.inr ⟨raised, body, handler, cleanup, final, rfl, ran⟩

theorem run_returns_of_ended {verdict : Verdict}
    (starts : start reactions request world.database = .ok (.inr new))
    (quiet : reactions.create = .none) (admitted : Admitted reactions world.database new.execution)
    (ended : Ended service reactions new.revision request (.ok verdict) body handler cleanup) :
    ∃ result final, service.run reactions request world = .ok result final ∧
      result.execution.outcome = some verdict.outcome ∧
      RanToEnd service reactions request new (.ok verdict) body handler cleanup world final := by
  rcases @run_ran service reactions request new world starts quiet admitted with
    ⟨result, verdict', body', handler', cleanup', final, run, outcome, ran⟩ |
      ⟨raised, body', handler', cleanup', final, run, ran⟩
  · obtain ⟨_, _, _, ended', _⟩ := id ran
    obtain ⟨same, rfl, rfl, rfl⟩ := ended'.unique ended
    obtain rfl := Except.ok.inj same
    exact ⟨result, final, run, outcome, ran⟩
  · obtain ⟨_, _, _, ended', _⟩ := ran
    cases (ended'.unique ended).1

theorem run_raises_of_ended {raised : Raised}
    (starts : start reactions request world.database = .ok (.inr new))
    (quiet : reactions.create = .none) (admitted : Admitted reactions world.database new.execution)
    (ended : Ended service reactions new.revision request (.error raised) body handler cleanup) :
    ∃ final, service.run reactions request world = .error raised final ∧
      RanToEnd service reactions request new (.error raised) body handler cleanup world final := by
  rcases @run_ran service reactions request new world starts quiet admitted with
    ⟨result, verdict', body', handler', cleanup', final, run, outcome, ran⟩ |
      ⟨raised', body', handler', cleanup', final, run, ran⟩
  · obtain ⟨_, _, _, ended', _⟩ := ran
    cases (ended'.unique ended).1
  · obtain ⟨_, _, _, ended', _⟩ := id ran
    obtain ⟨same, rfl, rfl, rfl⟩ := ended'.unique ended
    obtain rfl := Except.error.inj same
    exact ⟨final, run, ran⟩

end Created

/-! ### Runs that are lost -/

section Lost

variable {world final : World} {raised : Raised}

/-- What the database has for an execution that was only created. -/
theorem rowSays_created {new : Start}
    (starts : start reactions request world.database = .ok (.inr new))
    (adds : Adds (executionToRecord new.execution) world final) (outcome : ExecutionOutcome) :
    ¬ RowSays reactions.executionId world final outcome := by
  obtain ⟨_, pending, _, named, _⟩ := start_new starts
  have row := adds.row
  rw [show (executionToRecord new.execution).executionId = reactions.executionId from named] at row
  have undecided : (executionToRecord new.execution).outcome = none :=
    open_undecided (by change new.execution.state.isTerminal = false; rw [pending]; rfl)
      adds.readable
  rintro ⟨_, record, found, decided⟩
  rw [row] at found
  rw [← Option.some.inj found, undecided] at decided
  cases decided

/-- A run that an exception of the control plane leaves is lost, with the outcome of its row. -/
theorem runLost_of_raised (run : service.run reactions request world = .error raised final)
    (unreachable : isUnreachable raised = true) :
    ∃ stored, RunLost service reactions request world.database stored ∧
      ∀ outcome, RowSays reactions.executionId world final outcome ↔ stored = some outcome := by
  have nothing : ∀ outcome, RowSays reactions.executionId world world outcome ↔
      (none : Option ExecutionOutcome) = some outcome :=
    fun outcome => iff_of_false (not_rowSays_self _ world outcome) (by simp)
  rcases (ends_of_error run).mp (run_ends service reactions request world) with
    ⟨struck, rfl⟩ | ⟨new, starts, ⟨refused, rfl⟩ | ⟨late, admitted, adds⟩ |
      ⟨quiet, body, handler, cleanup, ran⟩⟩
  · exact ⟨none, .unread struck unreachable, nothing⟩
  · have struck := (ends_of_error run).mp (run_refused service reactions request final)
    rcases struck new starts refused with
      early | ⟨error, rfl, failed⟩
    · exact ⟨none, .uncreated starts early unreachable, nothing⟩
    · rw [reachable_of_addExecution failed] at unreachable
      cases unreachable
  · exact ⟨none, .created starts late admitted unreachable, fun outcome =>
      iff_of_false (rowSays_created starts adds outcome) (by simp)⟩
  · obtain ⟨_, admitted, _, ended, _⟩ := id ran
    exact ⟨_, .escaped starts quiet admitted ended unreachable, rowSays_iff_of_ran starts ran⟩

/-- A run that is lost is left by an exception of the control plane. -/
theorem raised_of_runLost {stored : Option ExecutionOutcome}
    (lost : RunLost service reactions request world.database stored) :
    ∃ raised final, service.run reactions request world = .error raised final ∧
      isUnreachable raised = true ∧
      ∀ outcome, stored = some outcome → RowSays reactions.executionId world final outcome := by
  cases lost with
  | @unread raised struck unreachable =>
      cases run : service.run reactions request world with
      | ok result final =>
          rcases (ends_of_ok run).mp (run_ends service reactions request world) with
            ⟨existing, starts, _⟩ | ⟨new, starts, _⟩
          · rw [struck] at starts
            cases starts
          · rw [struck] at starts
            cases starts
      | error raised' final =>
          rcases (ends_of_error run).mp (run_ends service reactions request world) with
            ⟨struck', _⟩ | ⟨new, starts, _⟩
          · rw [struck] at struck'
            cases struck'
            exact ⟨raised, final, rfl, unreachable, by simp⟩
          · rw [struck] at starts
            cases starts
  | @uncreated new raised starts struck unreachable =>
      have struck_ := @run_struck service reactions request raised struck world
      cases run : service.run reactions request world with
      | ok result final => exact absurd starts ((ends_of_ok run).mp struck_ new)
      | error raised' final =>
          obtain rfl := (ends_of_error run).mp struck_ new starts
          exact ⟨raised', final, rfl, unreachable, by simp⟩
  | @created new raised starts struck admitted unreachable =>
      cases run : service.run reactions request world with
      | ok result final =>
          rcases (ends_of_ok run).mp (run_ends service reactions request world) with
            ⟨existing, starts', _⟩ | ⟨_, _, quiet, _⟩
          · rw [starts] at starts'
            cases starts'
          · rw [struck] at quiet
            cases quiet
      | error raised' final =>
          rcases (ends_of_error run).mp (run_ends service reactions request world) with
            ⟨struck', _⟩ | ⟨new', starts', ⟨refused, _⟩ | ⟨late, _⟩ | ⟨quiet, _⟩⟩
          · rw [starts] at struck'
            cases struck'
          · rw [starts] at starts'
            cases starts'
            exact absurd admitted refused
          · rw [struck] at late
            cases late
            exact ⟨raised, final, rfl, unreachable, by simp⟩
          · rw [struck] at quiet
            cases quiet
  | escaped starts quiet admitted ended unreachable =>
      obtain ⟨final, run, ran⟩ := run_raises_of_ended starts quiet admitted ended
      exact ⟨_, final, run, unreachable, fun outcome said =>
        (rowSays_iff_of_ran starts ran outcome).mpr said⟩

end Lost

end Run

end TaskControl.Activation
