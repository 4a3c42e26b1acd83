import TaskControl.Runtime.Runs

/-!
# Terminal states

Whether a run leaves its execution finished and its lock released, for every
pattern of failures.
-/

set_option autoImplicit false

namespace TaskControl.Runtime

open PythonText Effects Persistence

/-- The world in which a program ends. -/
def finalWorld {α : Type} (result : EStateM.Result Raised World α) : World :=
  match result with
  | .ok _ world => world
  | .error _ world => world

theorem Ends.final {α : Type} {program : Program Raised World α} {world : World}
    {post : α → World → Prop} {raised : Raised → World → Prop} {holds : World → Prop}
    (ends : Ends program world post raised) (returns : ∀ value world', post value world' →
      holds world') (raises : ∀ error world', raised error world' → holds world') :
    holds (finalWorld (program world)) := by
  cases run : program world with
  | ok value world' => exact returns value world' ((ends_of_ok run).mp ends)
  | error error world' => exact raises error world' ((ends_of_error run).mp ends)

/-- What a run has put on the trace. -/
def eventsSince (world final : World) : List Event := final.trace.drop world.trace.length

/-! ## What the parts of a run stored -/

section Run

variable {service : RuntimeService} {reactions : Reactions} {revision : TaskRevision}
  {request : RunRequest}

variable (service reactions revision request) in
/-- The body comes to a verdict, and its save takes effect. -/
def BodySettles (verdict : Verdict) : Prop :=
  Concludes service reactions revision request verdict ∧
    Settles reactions.finishClock reactions.finish verdict

variable (service reactions revision request) in
/-- An exception strikes the body, and the handler's save takes effect. -/
def HandlerSettles (verdict : Verdict) : Prop :=
  ∃ raised stored, Strikes service reactions revision request raised stored ∧
    verdict = handlerVerdict raised ∧ Settles reactions.handlerClock reactions.handler verdict

theorem Strikes.stored_iff {raised : Raised} {stored : Option Verdict} {verdict : Verdict}
    (struck : Strikes service reactions revision request raised stored) :
    stored = some verdict ↔ BodySettles service reactions revision request verdict := by
  cases struck with
  | broken broken =>
      constructor
      · intro stored
        cases stored
      · rintro ⟨concluded, _⟩
        exact absurd concluded broken.not_concludes
  | unsaved concluded _ lost =>
      constructor
      · intro stored
        cases stored
      · rintro ⟨concluded', kept⟩
        cases concluded.unique concluded'
        exact absurd kept lost
  | saved concluded _ kept =>
      constructor
      · rintro ⟨⟩
        exact ⟨concluded, kept⟩
      · rintro ⟨concluded', _⟩
        rw [concluded.unique concluded']

theorem Guarded.body_iff {result : Except Raised Verdict} {body handler : Option Verdict}
    {finished : Bool} {verdict : Verdict}
    (guarded : Guarded service reactions revision request result body handler finished) :
    body = some verdict ↔ BodySettles service reactions revision request verdict := by
  cases guarded with
  | returned returned =>
      obtain ⟨concluded, done⟩ := returned
      constructor
      · rintro ⟨⟩
        exact ⟨concluded, settles_of_finishing done⟩
      · rintro ⟨concluded', _⟩
        rw [concluded.unique concluded']
  | handled struck _ => exact struck.stored_iff
  | reraised struck _ _ => exact struck.stored_iff
  | escaped struck _ => exact struck.stored_iff

theorem Guarded.handler_iff {result : Except Raised Verdict} {body handler : Option Verdict}
    {finished : Bool} {verdict : Verdict}
    (guarded : Guarded service reactions revision request result body handler finished) :
    handler = some verdict ↔ HandlerSettles service reactions revision request verdict := by
  have recorded : ∀ {raised : Raised} {stored : Option Verdict},
      Strikes service reactions revision request raised stored →
      (settled reactions.handlerClock reactions.handler (handlerVerdict raised) = some verdict ↔
        HandlerSettles service reactions revision request verdict) := by
    intro raised stored struck
    unfold settled
    constructor
    · intro kept
      split at kept
      · next settles =>
          cases kept
          exact ⟨raised, stored, struck, rfl, settles⟩
      · cases kept
    · rintro ⟨raised', stored', struck', rfl, settles⟩
      obtain ⟨rfl, _⟩ := struck.unique struck'
      rw [if_pos settles]
  cases guarded with
  | returned returned =>
      constructor
      · intro stored
        cases stored
      · rintro ⟨raised, stored, struck, _⟩
        exact absurd returned struck.not_returned
  | handled struck done => rw [← settled_of_finishing done]; exact recorded struck
  | reraised struck _ done => rw [← settled_of_finishing done]; exact recorded struck
  | escaped struck _ => exact recorded struck

/-- When the local variable `finished` is set, something has been stored. -/
theorem Guarded.stored {result : Except Raised Verdict} {body handler : Option Verdict}
    (guarded : Guarded service reactions revision request result body handler true) :
    body ≠ none ∨ handler ≠ none := by
  cases guarded with
  | returned _ => exact .inl (by simp)
  | handled _ _ => exact .inr (by simp)
  | reraised _ _ _ => exact .inr (by simp)

theorem Ended.guarded {result : Except Raised Verdict} {body handler cleanup : Option Verdict}
    (ended : Ended service reactions revision request result body handler cleanup) :
    ∃ result' finished,
      Guarded service reactions revision request result' body handler finished := by
  cases ended with
  | unreleased guarded _ _ => exact ⟨_, _, guarded⟩
  | finished guarded _ => exact ⟨_, _, guarded⟩
  | forced guarded _ _ => exact ⟨_, _, guarded⟩
  | interrupted guarded _ _ => exact ⟨_, _, guarded⟩

theorem Forces.unique {reactions : Reactions} {finished : Bool} {first second : Except Raised Unit}
    {stored stored' : Option Verdict} (one : Forces reactions finished first stored)
    (other : Forces reactions finished second stored') : first = second := by
  cases one with
  | unread struck =>
      cases other with
      | unread struck' =>
          rw [struck] at struck'
          cases struck'
          rfl
      | finished read => simp [struck] at read
      | forced read => simp [struck] at read
  | finished read =>
      cases other with
      | unread struck => simp [struck] at read
      | finished _ => rfl
  | forced read =>
      cases other with
      | unread struck => simp [struck] at read
      | forced _ => rfl

theorem Forces.stored_unique {reactions : Reactions} {finished : Bool}
    {first second : Except Raised Unit} {stored stored' : Option Verdict}
    (one : Forces reactions finished first stored)
    (other : Forces reactions finished second stored') : stored = stored' := by
  cases one with
  | unread struck =>
      cases other with
      | unread _ => rfl
      | finished read => simp [struck] at read
      | forced read => simp [struck] at read
  | finished read =>
      cases other with
      | unread struck => simp [struck] at read
      | finished _ => rfl
  | forced read =>
      cases other with
      | unread struck => simp [struck] at read
      | forced _ => rfl

theorem Guarded.unique {first second : Except Raised Verdict}
    {body body' handler handler' : Option Verdict} {finished finished' : Bool}
    (one : Guarded service reactions revision request first body handler finished)
    (other : Guarded service reactions revision request second body' handler' finished') :
    first = second ∧ body = body' ∧ handler = handler' ∧ finished = finished' := by
  cases one with
  | returned returned =>
      cases other with
      | returned returned' =>
          obtain rfl := returned.1.unique returned'.1
          exact ⟨rfl, rfl, rfl, rfl⟩
      | handled struck _ => exact absurd returned struck.not_returned
      | reraised struck _ _ => exact absurd returned struck.not_returned
      | escaped struck _ => exact absurd returned struck.not_returned
  | handled struck recorded =>
      cases other with
      | returned returned => exact absurd returned struck.not_returned
      | handled struck' _ =>
          obtain ⟨same, rfl⟩ := struck.unique struck'
          obtain rfl := Raised.taskControl.inj same
          exact ⟨rfl, rfl, rfl, rfl⟩
      | reraised struck' unexpected _ =>
          exact absurd (struck'.unique struck).1 (unexpected _)
      | escaped struck' failed =>
          obtain ⟨rfl, _⟩ := struck.unique struck'
          rw [recorded] at failed
          cases failed
  | reraised struck unexpected recorded =>
      cases other with
      | returned returned => exact absurd returned struck.not_returned
      | handled struck' _ => exact absurd (struck.unique struck').1 (unexpected _)
      | reraised struck' _ _ =>
          obtain ⟨rfl, rfl⟩ := struck.unique struck'
          exact ⟨rfl, rfl, rfl, rfl⟩
      | escaped struck' failed =>
          obtain ⟨rfl, _⟩ := struck.unique struck'
          rw [recorded] at failed
          cases failed
  | escaped struck failed =>
      cases other with
      | returned returned => exact absurd returned struck.not_returned
      | handled struck' recorded =>
          obtain ⟨rfl, _⟩ := struck.unique struck'
          rw [recorded] at failed
          cases failed
      | reraised struck' _ recorded =>
          obtain ⟨rfl, _⟩ := struck.unique struck'
          rw [recorded] at failed
          cases failed
      | escaped struck' failed' =>
          obtain ⟨rfl, rfl⟩ := struck.unique struck'
          rw [failed] at failed'
          cases failed'
          exact ⟨rfl, rfl, rfl, rfl⟩

theorem not_released {reactions : Reactions} {raised : Raised} (held : heldLock reactions ≠ none)
    (struck : reactions.release = .error raised) : ¬ Released reactions := by
  rintro (none_ | quiet)
  · exact held none_
  · rw [struck] at quiet
    cases quiet

/-- A pattern of failures ends a run in one way. -/
theorem Ended.unique {first second : Except Raised Verdict}
    {body body' handler handler' cleanup cleanup' : Option Verdict}
    (one : Ended service reactions revision request first body handler cleanup)
    (other : Ended service reactions revision request second body' handler' cleanup') :
    first = second ∧ body = body' ∧ handler = handler' ∧ cleanup = cleanup' := by
  cases one with
  | unreleased guarded held struck =>
      cases other with
      | unreleased guarded' _ struck' =>
          obtain ⟨_, rfl, rfl, _⟩ := guarded.unique guarded'
          rw [struck] at struck'
          cases struck'
          exact ⟨rfl, rfl, rfl, rfl⟩
      | finished _ released => exact absurd released (not_released held struck)
      | forced _ released _ => exact absurd released (not_released held struck)
      | interrupted _ released _ => exact absurd released (not_released held struck)
  | finished guarded released =>
      cases other with
      | unreleased _ held struck => exact absurd released (not_released held struck)
      | finished guarded' _ =>
          obtain ⟨rfl, rfl, rfl, _⟩ := guarded.unique guarded'
          exact ⟨rfl, rfl, rfl, rfl⟩
      | forced guarded' _ _ => cases (guarded.unique guarded').2.2.2
      | interrupted guarded' _ _ => cases (guarded.unique guarded').2.2.2
  | forced guarded released forces =>
      cases other with
      | unreleased _ held struck => exact absurd released (not_released held struck)
      | finished guarded' _ => cases (guarded.unique guarded').2.2.2
      | forced guarded' _ forces' =>
          obtain ⟨same, rfl, rfl, _⟩ := guarded.unique guarded'
          exact ⟨same, rfl, rfl, forces.stored_unique forces'⟩
      | interrupted guarded' _ forces' =>
          obtain ⟨_, rfl, rfl, _⟩ := guarded.unique guarded'
          cases forces.unique forces'
  | interrupted guarded released forces =>
      cases other with
      | unreleased _ held struck => exact absurd released (not_released held struck)
      | finished guarded' _ => cases (guarded.unique guarded').2.2.2
      | forced guarded' _ forces' =>
          obtain ⟨_, rfl, rfl, _⟩ := guarded.unique guarded'
          cases forces.unique forces'
      | interrupted guarded' _ forces' =>
          obtain ⟨_, rfl, rfl, _⟩ := guarded.unique guarded'
          cases forces.unique forces'
          exact ⟨rfl, rfl, rfl, forces.stored_unique forces'⟩

/-- What the cleanup lets through is an interruption. -/
theorem Forces.interrupt {reactions : Reactions} {finished : Bool} {raised : Raised}
    {stored : Option Verdict} (forces : Forces reactions finished (.error raised) stored) :
    raised = .interrupt := by
  have swallowed : ∀ {result : Except Raised Unit}, .error raised = swallow result →
      raised = .interrupt := by
    intro result same
    cases result with
    | ok _ => cases same
    | error raised' =>
        cases raised' with
        | interrupt =>
            cases same
            rfl
        | _ => cases same
  generalize result : (Except.error raised : Except Raised Unit) = outcome at forces
  cases forces with
  | unread _ => exact swallowed result
  | finished _ => cases result
  | forced _ => exact swallowed result

/-- The cleanup stores nothing over a stored verdict. -/
theorem Forces.stores_once {body handler : Option Verdict} {cleaned : Except Raised Unit}
    {cleanup : Option Verdict}
    (forces : Forces reactions (body.isSome || handler.isSome) cleaned cleanup) :
    cleanup = none ∨ (body = none ∧ handler = none) := by
  cases body with
  | some verdict => cases forces <;> exact .inl rfl
  | none =>
      cases handler with
      | some verdict => cases forces <;> exact .inl rfl
      | none => exact .inr ⟨rfl, rfl⟩

theorem Ended.stores_once {result : Except Raised Verdict}
    {body handler cleanup : Option Verdict}
    (ended : Ended service reactions revision request result body handler cleanup) :
    cleanup = none ∨ (body = none ∧ handler = none) := by
  cases ended with
  | unreleased _ _ _ => exact .inl rfl
  | finished _ _ => exact .inl rfl
  | forced _ _ forces => exact forces.stores_once
  | interrupted _ _ forces => exact forces.stores_once

/-- The cleanup gets as far as its save. -/
def CleanupReaches (reactions : Reactions) : Prop :=
  Released reactions ∧ reactions.cleanupRead = .ok () ∧
    ∃ moment, reactions.cleanupClock = .ok moment

theorem forcedVerdict_settles (willing : reactions.cleanup = .none) :
    Settles reactions.cleanupClock reactions.cleanup forcedVerdict ↔
      ∃ moment, reactions.cleanupClock = .ok moment := by
  have fits : forcedVerdict.explanation.length ≤ maxExplanationLength := by decide +kernel
  unfold Settles
  rw [willing]
  exact ⟨fun settles => settles.1, fun read => ⟨read, fits, rfl⟩⟩

theorem Forces.cleanup_iff {cleaned : Except Raised Unit} {cleanup : Option Verdict}
    (willing : reactions.cleanup = .none) (forces : Forces reactions false cleaned cleanup) :
    cleanup ≠ none ↔
      reactions.cleanupRead = .ok () ∧ ∃ moment, reactions.cleanupClock = .ok moment := by
  cases forces with
  | unread struck => simp [struck]
  | forced read =>
      rw [← forcedVerdict_settles willing]
      unfold settled
      split
      · next settles => simp [read, settles]
      · next lost => simp [lost]

/-- With nothing stored by then, the cleanup stores exactly when it gets as far. -/
theorem Ended.cleanup_iff {result : Except Raised Verdict} {cleanup : Option Verdict}
    (willing : reactions.cleanup = .none)
    (ended : Ended service reactions revision request result none none cleanup) :
    cleanup ≠ none ↔ CleanupReaches reactions := by
  cases ended with
  | unreleased guarded held struck =>
      constructor
      · intro stored
        exact absurd rfl stored
      · rintro ⟨unheld | quiet, _⟩
        · exact absurd unheld held
        · rw [struck] at quiet
          cases quiet
  | finished guarded released => simpa using guarded.stored
  | forced guarded released forces =>
      rw [forces.cleanup_iff willing]
      exact ⟨fun reached => ⟨released, reached⟩, fun reached => reached.2⟩
  | interrupted guarded released forces =>
      rw [forces.cleanup_iff willing]
      exact ⟨fun reached => ⟨released, reached⟩, fun reached => reached.2⟩

theorem Ended.stored_iff {result : Except Raised Verdict} {body handler cleanup : Option Verdict}
    (willing : reactions.cleanup = .none)
    (ended : Ended service reactions revision request result body handler cleanup) :
    (body ≠ none ∨ handler ≠ none ∨ cleanup ≠ none) ↔
      (∃ verdict, BodySettles service reactions revision request verdict) ∨
      (∃ verdict, HandlerSettles service reactions revision request verdict) ∨
      CleanupReaches reactions := by
  obtain ⟨_, _, guarded⟩ := ended.guarded
  have bodyIff : body ≠ none ↔ ∃ verdict, BodySettles service reactions revision request verdict := by
    simp only [← guarded.body_iff, Option.ne_none_iff_exists']
  have handlerIff : handler ≠ none ↔
      ∃ verdict, HandlerSettles service reactions revision request verdict := by
    simp only [← guarded.handler_iff, Option.ne_none_iff_exists']
  rw [← bodyIff, ← handlerIff]
  by_cases unsettled : body = none ∧ handler = none
  · obtain ⟨rfl, rfl⟩ := unsettled
    simp [ended.cleanup_iff willing]
  · have some_ : body ≠ none ∨ handler ≠ none := by
      by_contra neither
      simp only [not_or, not_not] at neither
      exact unsettled neither
    rcases some_ with stored | stored
    · simp [stored]
    · simp [stored]

/-! ## The trace of a run -/

/-- What a save that stores a verdict, or nothing, puts on the trace. -/
def Saves (executionId : ExecutionId) (stored : Option Verdict) (events : List Event) : Prop :=
  match stored with
  | none => events = []
  | some verdict =>
      ∃ record, record.executionId = executionId ∧ verdict.WrittenIn record ∧
        events = [.stored record]

theorem Writes.saves {executionId : ExecutionId} {stored : Option Verdict} {world world' : World}
    (writes : Writes executionId stored world world') :
    ∃ events, Saves executionId stored events ∧ world'.trace = world.trace ++ events := by
  cases stored with
  | none =>
      cases writes
      exact ⟨[], rfl, by simp⟩
  | some verdict =>
      obtain ⟨record, named, written, stores⟩ := writes
      exact ⟨[.stored record], ⟨record, named, written, rfl⟩, stores.trace⟩

/-- The release of the lock on the trace. -/
def releasing (held : Option LockHandle) : List Event := held.toList.map .released

theorem released_trace (held : Option LockHandle) (world : World) :
    (released held world).trace = world.trace ++ releasing held := by
  cases held with
  | none => simp [released, releasing]
  | some handle => rfl

variable (service reactions revision request) in
/-- The events of a run after its execution was created: what it does while the execution is
open, and the saves of the body, the handler and the cleanup, with the release before the last. -/
def Traced (executionId : ExecutionId) (body handler cleanup : Option Verdict)
    (events : List Event) : Prop :=
  ∃ opened fromBody fromHandler fromCleanup,
    (∀ event ∈ opened, InProgress executionId revision (heldLock reactions) event) ∧
    opened.any Event.isLaunch = launches service reactions revision request ∧
    Saves executionId body fromBody ∧ Saves executionId handler fromHandler ∧
    Saves executionId cleanup fromCleanup ∧
    events = opened ++ (fromBody ++ (fromHandler ++ (releasing (heldLock reactions) ++ fromCleanup)))

theorem Executed.traced {executionId : ExecutionId} {body handler cleanup : Option Verdict}
    {world world' : World}
    (executed : Executed service reactions revision request executionId body handler cleanup world
      world') :
    ∃ events, Traced service reactions revision request executionId body handler cleanup events ∧
      world'.trace = world.trace ++ events := by
  obtain ⟨mid, mid', ⟨still, progress, bodyWrites⟩, handlerWrites, cleanupWrites⟩ := executed
  obtain ⟨opened, openTrace, quiet, counted⟩ := progress.trace
  obtain ⟨fromBody, bodySaves, bodyTrace⟩ := bodyWrites.saves
  obtain ⟨fromHandler, handlerSaves, handlerTrace⟩ := handlerWrites.saves
  obtain ⟨fromCleanup, cleanupSaves, cleanupTrace⟩ := cleanupWrites.saves
  refine ⟨_, ⟨opened, fromBody, fromHandler, fromCleanup, quiet, counted, bodySaves, handlerSaves,
    cleanupSaves, rfl⟩, ?_⟩
  rw [cleanupTrace, released_trace, handlerTrace, bodyTrace, openTrace]
  simp only [List.append_assoc]

theorem RanToEnd.traced {new : Start} {result : Except Raised Verdict}
    {body handler cleanup : Option Verdict} {world world' : World}
    (ran : RanToEnd service reactions request new result body handler cleanup world world') :
    ∃ events, Traced service reactions new.revision request reactions.executionId body handler
        cleanup events ∧
      eventsSince world world' = .stored (executionToRecord new.execution) :: events := by
  obtain ⟨mid, _, adds, _, executed⟩ := ran
  obtain ⟨events, traced, trace⟩ := executed.traced
  refine ⟨events, traced, ?_⟩
  rw [eventsSince, trace, adds.trace]
  simp

/-! ## What a run leaves alone -/

theorem Executed.touches {executionId : ExecutionId} {body handler cleanup : Option Verdict}
    {world world' : World}
    (executed : Executed service reactions revision request executionId body handler cleanup world
      world') : Touches executionId world world' := by
  obtain ⟨mid, mid', ⟨still, progress, bodyWrites⟩, handlerWrites, cleanupWrites⟩ := executed
  have before := (progress.touches.trans bodyWrites.touches).trans handlerWrites.touches
  have free : Touches executionId mid' (released (heldLock reactions) mid') := by
    rw [show released (heldLock reactions) mid' = { mid' with
      trace := (released (heldLock reactions) mid').trace } by cases heldLock reactions <;> rfl]
    exact ⟨fun _ _ => rfl, rfl, rfl, rfl, rfl, fun old found => ⟨old, found, rfl, rfl, rfl⟩⟩
  exact (before.trans free).trans cleanupWrites.touches

/-- The row of the execution keeps the task and the revision it was created for. -/
theorem RanToEnd.row {new : Start} {result : Except Raised Verdict}
    {body handler cleanup : Option Verdict} {world world' : World}
    (starts : start reactions request world.database = .ok (.inr new))
    (ran : RanToEnd service reactions request new result body handler cleanup world world') :
    ∃ record, world'.database.record? reactions.executionId = some record ∧
      record.revisionId = new.revision.revisionId ∧ record.taskId = new.task.taskId := by
  obtain ⟨_, _, _, named, taskId, revisionId⟩ := start_new starts
  obtain ⟨mid, _, adds, _, executed⟩ := ran
  have row := adds.row
  rw [show (executionToRecord new.execution).executionId = reactions.executionId from named] at row
  obtain ⟨record, found, same⟩ := executed.touches.identity _ row
  exact ⟨record, found, same.revisionId.trans revisionId, same.taskId.trans taskId⟩

theorem RanToEnd.journal {new : Start} {result : Except Raised Verdict}
    {body handler cleanup : Option Verdict} {world world' : World}
    (ran : RanToEnd service reactions request new result body handler cleanup world world') :
    world'.journal = world.journal := by
  obtain ⟨mid, _, adds, _, executed⟩ := ran
  exact executed.touches.journal.trans adds.journal

/-! ## Terminal states -/

/-- The row of the execution after a run: open when nothing was stored, else finished. -/
theorem Executed.row {executionId : ExecutionId} {body handler cleanup : Option Verdict}
    {world world' : World}
    (executed : Executed service reactions revision request executionId body handler cleanup world
      world') :
    (body = none ∧ handler = none ∧ cleanup = none ∧ OpenRow executionId world') ∨
      ((body ≠ none ∨ handler ≠ none ∨ cleanup ≠ none) ∧ FinishedRow executionId world') := by
  obtain ⟨mid, mid', leaves, handlerWrites, cleanupWrites⟩ := executed
  cases cleanup with
  | some verdict => exact .inr ⟨by simp, cleanupWrites.finishedRow⟩
  | none =>
      cases cleanupWrites
      unfold OpenRow FinishedRow
      rw [released_database]
      cases handler with
      | some verdict => exact .inr ⟨by simp, handlerWrites.finishedRow⟩
      | none =>
          cases handlerWrites
          rcases leaves.row with ⟨rfl, open_⟩ | ⟨some_, done⟩
          · exact .inl ⟨rfl, rfl, rfl, open_⟩
          · exact .inr ⟨.inl some_, done⟩

/-- The stored execution is finished with an outcome, and each lock that was acquired has had
its release attempted. -/
def Terminated (executionId : ExecutionId) (world world' : World) : Prop :=
  (∃ record, world'.database.record? executionId = some record ∧ record.state = .finished ∧
    record.outcome.isSome = true) ∧
  ∀ handle, .acquired handle ∈ eventsSince world world' →
    .released handle ∈ eventsSince world world'

theorem Saves.stored {executionId : ExecutionId} {stored : Option Verdict} {events : List Event}
    (saves : Saves executionId stored events) {event : Event} (member : event ∈ events) :
    ∃ record, event = .stored record := by
  cases stored with
  | none =>
      cases saves
      cases member
  | some verdict =>
      obtain ⟨record, _, _, rfl⟩ := saves
      exact ⟨record, List.mem_singleton.mp member⟩

theorem Saves.any_isLaunch {executionId : ExecutionId} {stored : Option Verdict}
    {events : List Event} (saves : Saves executionId stored events) :
    events.any Event.isLaunch = false := by
  rw [List.any_eq_false]
  intro event member
  obtain ⟨record, rfl⟩ := saves.stored member
  simp [Event.isLaunch]

/-- Each event of a run is one of its progress, a save or a release. -/
theorem Traced.mem {executionId : ExecutionId} {body handler cleanup : Option Verdict}
    {events : List Event}
    (traced : Traced service reactions revision request executionId body handler cleanup events)
    {event : Event} (member : event ∈ events) :
    InProgress executionId revision (heldLock reactions) event ∨
      (∃ record, event = .stored record) ∨ ∃ handle, event = .released handle := by
  obtain ⟨opened, fromBody, fromHandler, fromCleanup, quiet, _, bodySaves, handlerSaves,
    cleanupSaves, rfl⟩ := traced
  simp only [List.mem_append] at member
  rcases member with early | saved | saved | freed | saved
  · exact .inl (quiet event early)
  · exact .inr (.inl (bodySaves.stored saved))
  · exact .inr (.inl (handlerSaves.stored saved))
  · obtain ⟨handle, _, rfl⟩ := List.mem_map.mp freed
    exact .inr (.inr ⟨handle, rfl⟩)
  · exact .inr (.inl (cleanupSaves.stored saved))

theorem Traced.any_isLaunch {executionId : ExecutionId} {body handler cleanup : Option Verdict}
    {events : List Event}
    (traced : Traced service reactions revision request executionId body handler cleanup events) :
    events.any Event.isLaunch = launches service reactions revision request := by
  obtain ⟨opened, fromBody, fromHandler, fromCleanup, _, counted, bodySaves, handlerSaves,
    cleanupSaves, rfl⟩ := traced
  have freed : (releasing (heldLock reactions)).any Event.isLaunch = false := by
    rw [List.any_eq_false]
    intro event member
    obtain ⟨handle, _, rfl⟩ := List.mem_map.mp member
    simp [Event.isLaunch]
  simp only [List.any_append, counted, bodySaves.any_isLaunch, handlerSaves.any_isLaunch,
    cleanupSaves.any_isLaunch, freed, Bool.or_false]

/-- Only a lock that is held has been acquired, and it is released. -/
theorem Traced.releases {executionId : ExecutionId} {body handler cleanup : Option Verdict}
    {events : List Event}
    (traced : Traced service reactions revision request executionId body handler cleanup events)
    {handle : LockHandle} (acquired : .acquired handle ∈ events) : .released handle ∈ events := by
  rcases traced.mem acquired with held | ⟨record, saved⟩ | ⟨freed, released⟩
  · obtain ⟨opened, fromBody, fromHandler, fromCleanup, _, _, _, _, _, rfl⟩ := traced
    rw [show heldLock reactions = some handle from held]
    simp [releasing]
  · cases saved
  · cases released

theorem RanToEnd.terminated_iff {new : Start} {result : Except Raised Verdict}
    {body handler cleanup : Option Verdict} {world world' : World}
    (willing : reactions.cleanup = .none)
    (ran : RanToEnd service reactions request new result body handler cleanup world world') :
    Terminated reactions.executionId world world' ↔
      (∃ verdict, BodySettles service reactions new.revision request verdict) ∨
      (∃ verdict, HandlerSettles service reactions new.revision request verdict) ∨
      CleanupReaches reactions := by
  obtain ⟨events, traced, trace⟩ := ran.traced
  obtain ⟨mid, _, _, ended, executed⟩ := ran
  rw [← ended.stored_iff willing]
  rcases executed.row with ⟨rfl, rfl, rfl, record, found, open_, _⟩ |
    ⟨stored, record, found, state, decided, _⟩
  · refine iff_of_false ?_ (by simp)
    rintro ⟨⟨record', found', done, _⟩, _⟩
    rw [found] at found'
    cases found'
    rw [done] at open_
    cases open_
  · refine iff_of_true ⟨⟨record, found, state, decided⟩, ?_⟩ stored
    intro handle acquired
    rw [trace] at acquired ⊢
    rcases List.mem_cons.mp acquired with impossible | later
    · cases impossible
    · exact List.mem_cons_of_mem _ (traced.releases later)

end Run

/-- The world in which a run ends: the one it started in, that with the row it has created, or
the one that it took its execution to. -/
inductive RunLeaves (service : RuntimeService) (reactions : Reactions) (request : RunRequest)
    (world : World) : World → Prop
  | untouched (idle : ∀ new, start reactions request world.database = .ok (.inr new) →
      ¬ Admitted reactions world.database new.execution) :
      RunLeaves service reactions request world world
  | created {new : Start} {raised : Raised} {world' : World}
      (starts : start reactions request world.database = .ok (.inr new))
      (late : reactions.create = .after raised)
      (adds : Adds (executionToRecord new.execution) world world') :
      RunLeaves service reactions request world world'
  | ran {new : Start} {result : Except Raised Verdict} {body handler cleanup : Option Verdict}
      {world' : World} (starts : start reactions request world.database = .ok (.inr new))
      (quiet : reactions.create = .none)
      (ran : RanToEnd service reactions request new result body handler cleanup world world') :
      RunLeaves service reactions request world world'

section Leaves

variable {service : RuntimeService} {reactions : Reactions} {request : RunRequest} {world : World}

theorem RunReturns.leaves {result : RunResult} {world' : World}
    (returns : RunReturns service reactions request world result world') :
    RunLeaves service reactions request world world' := by
  rcases returns with ⟨existing, starts, _, rfl⟩ |
    ⟨new, starts, quiet, _, verdict, body, handler, cleanup, _, ran⟩
  · exact .untouched (by simp [starts])
  · exact .ran starts quiet ran

theorem RunRaises.leaves {raised : Raised} {world' : World}
    (raises : RunRaises service reactions request world raised world') :
    RunLeaves service reactions request world world' := by
  rcases raises with ⟨struck, rfl⟩ | ⟨new, starts, ⟨refused, rfl⟩ | ⟨late, _, adds⟩ |
    ⟨quiet, body, handler, cleanup, ran⟩⟩
  · exact .untouched (by simp [struck])
  · exact .untouched (by simpa [starts] using refused)
  · exact .created starts late adds
  · exact .ran starts quiet ran

end Leaves

theorem run_leaves (service : RuntimeService) (reactions : Reactions) (request : RunRequest)
    (world : World) :
    RunLeaves service reactions request world
      (finalWorld (service.run reactions request world)) := by
  apply Ends.final (run_ends service reactions request world)
  · intro result world' returns
    exact returns.leaves
  · intro raised world' raises
    exact raises.leaves

/-- Where the final cleanup could save, a run that has created its execution terminates it
exactly when the creation raised nothing and one of the three terminal saves takes effect: that
of the body, that of the handler, or that of a cleanup which is reached. -/
theorem run_terminates_iff (service : RuntimeService) (reactions : Reactions)
    (request : RunRequest) (world : World)
    (fresh : world.database.record? reactions.executionId = none)
    (created : (finalWorld (service.run reactions request world)).database.record?
      reactions.executionId ≠ none)
    (willing : reactions.cleanup = .none) :
    Terminated reactions.executionId world (finalWorld (service.run reactions request world)) ↔
      reactions.create = .none ∧
        ∃ new, start reactions request world.database = .ok (.inr new) ∧
          ((∃ verdict, BodySettles service reactions new.revision request verdict) ∨
            (∃ verdict, HandlerSettles service reactions new.revision request verdict) ∨
            CleanupReaches reactions) := by
  have leaves := run_leaves service reactions request world
  generalize finalWorld (service.run reactions request world) = final at created leaves ⊢
  cases leaves with
  | untouched _ => exact absurd fresh created
  | created starts late adds =>
      refine iff_of_false ?_ (by simp [late])
      obtain ⟨_, pending, _, named, _⟩ := start_new starts
      have row := adds.row
      change final.database.record? _ = _ at row
      rintro ⟨⟨record, found, done, _⟩, _⟩
      rw [show (executionToRecord _).executionId = reactions.executionId from named, found] at row
      cases row
      have open_ : (executionToRecord _).state = .pending := pending
      rw [done] at open_
      cases open_
  | ran starts quiet ran =>
      rw [ran.terminated_iff willing]
      constructor
      · intro stored
        exact ⟨quiet, _, starts, stored⟩
      · rintro ⟨_, new, starts', stored⟩
        rw [starts] at starts'
        cases starts'
        exact stored

namespace Backup

def unreachable : Raised :=
  .taskControl (permanentInfrastructureError "The database is unreachable.")

/-- The script runs, but its result cannot be saved by the body or by the handler, and then
the release of the lock raises. -/
def unreleased : Reactions :=
  { quiet with
    finish := .before unreachable
    handler := .before unreachable
    release := .error unreachable }

theorem unreleased_row :
    ((finalWorld (service.run unreleased request world)).database.record? executionId).map
      ExecutionRecord.state = some .running := by decide +kernel

/-- What the script comes to in its single attempt. -/
theorem attempts_end (reactions : Reactions) (same : reactions.attempt = quiet.attempt) :
    AttemptsEnd reactions revision.controls.retry 1 (.ok report) := by
  refine ⟨reaches_first _ _, ?_, ?_⟩
  · rw [same]
    rfl
  · rintro _ ⟨⟩
    decide +kernel

theorem concludes (reactions : Reactions) (same : reactions.attempt = quiet.attempt)
    (evaluate : reactions.evaluate = .none) (lock : reactions.lock = quiet.lock) :
    Concludes service reactions revision request (verdictOn revision.controls.retry 1 report) := by
  have held : opening reactions = .ok (some ⟨"backup".toList, "runtime".toList⟩) := by
    unfold opening
    rw [evaluate, lock]
    rfl
  exact .reported held rfl (attempts_end reactions same)

theorem verdict_fits :
    (verdictOn revision.controls.retry 1 report).explanation.length ≤ maxExplanationLength := by
  decide +kernel

end Backup

theorem run_terminates_quiet :
    Terminated Backup.executionId Backup.world
      (finalWorld (Backup.service.run Backup.quiet Backup.request Backup.world)) := by
  refine (run_terminates_iff Backup.service Backup.quiet Backup.request Backup.world rfl
    (by decide +kernel) rfl).mpr ⟨rfl, _, rfl, .inl ⟨_, Backup.concludes Backup.quiet rfl rfl rfl,
      ⟨_, rfl⟩, Backup.verdict_fits, rfl⟩⟩

/-- The cleanup, which could have saved, is never reached: the execution stays running. -/
theorem run_left_running :
    (finalWorld (Backup.service.run Backup.unreleased Backup.request Backup.world)).database.record?
      Backup.executionId ≠ none ∧ Backup.unreleased.cleanup = .none ∧
    ¬ Terminated Backup.executionId Backup.world
      (finalWorld (Backup.service.run Backup.unreleased Backup.request Backup.world)) := by
  have row := Backup.unreleased_row
  refine ⟨?_, rfl, ?_⟩
  · intro absent
    rw [absent] at row
    cases row
  · rintro ⟨⟨record, found, done, _⟩, _⟩
    rw [found, Option.map_some, done] at row
    cases row

end TaskControl.Runtime
