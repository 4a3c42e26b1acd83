import TaskControl.Persistence.Saving
import TaskControl.Runtime.Terminal

/-!
# Copies of an execution

A run threads copies of its execution through its saves.  As long as each copy
continues what is stored, the store and the copy agree; the handlers of `_execute`
finish a copy from before the first attempt, and a save of that one loses the
start of the execution and returns it without its attempts.
-/

set_option autoImplicit false

namespace TaskControl.Runtime

open PythonText Effects Persistence

/-! ## Saves -/

/-- A run as far as its saves go: none of them loses what is stored when it is made. -/
inductive SavesKeep (executionId : ExecutionId) (world : World) : World → Prop
  | none : SavesKeep executionId world world
  | saved {mid world' : World} {record : ExecutionRecord}
      (before : SavesKeep executionId world mid)
      (call : ∃ execution, mid.database.addExecution execution = .ok world'.database ∨
        mid.database.saveExecution execution = .ok world'.database)
      (keeps : Database.KeepsHistory executionId mid.database world'.database)
      (row : world'.database.record? executionId = some record)
      (trace : world'.trace = mid.trace ++ [.stored record]) :
      SavesKeep executionId world world'
  | other {mid world' : World} {event : Event} (before : SavesKeep executionId world mid)
      (same : world'.database = mid.database) (silent : ∀ record, event ≠ .stored record)
      (trace : world'.trace = mid.trace ++ [event]) : SavesKeep executionId world world'

/-- On the trace since `start`, a save of a row that says when the execution started comes
before a save of one that does not. -/
def StartLost (start world : World) : Prop :=
  ∃ events later record record', world.trace = start.trace ++ events ++ .stored record' :: later ∧
    .stored record ∈ events ∧ record.startedAt.isSome = true ∧ record'.startedAt = Option.none

/-- What the saves have shown so far is still in the row. -/
theorem SavesKeep.trace {executionId : ExecutionId} {start world : World}
    (saves : SavesKeep executionId start world) :
    ∃ events, world.trace = start.trace ++ events ∧
      (∀ record, .stored record ∈ events → record.startedAt.isSome = true →
        ∃ row, world.database.record? executionId = some row ∧ row.startedAt.isSome = true) ∧
      ∀ earlier later record record', events = earlier ++ .stored record' :: later →
        .stored record ∈ earlier → record.startedAt.isSome = true →
          record'.startedAt.isSome = true := by
  induction saves with
  | none => exact ⟨[], by simp, by simp, by simp⟩
  | @saved mid world' record before call keeps row trace ih =>
      obtain ⟨events, traced, standing, ordered⟩ := ih
      have kept : ∀ other, .stored other ∈ events → other.startedAt.isSome = true →
          record.startedAt.isSome = true := by
        intro other member started
        obtain ⟨old, found, oldStarted⟩ := standing other member started
        obtain ⟨moment, at_⟩ := Option.isSome_iff_exists.mp oldStarted
        rw [keeps.startedAt old record moment found row at_]
        rfl
      refine ⟨events ++ [.stored record], by rw [trace, traced, List.append_assoc], ?_, ?_⟩
      · intro other member started
        refine ⟨record, row, ?_⟩
        rcases List.mem_append.mp member with early | last
        · exact kept other early started
        · cases List.mem_singleton.mp last
          exact started
      · intro earlier later first second split member started
        rcases List.append_eq_append_iff.mp split with
          ⟨more, rfl, tail⟩ | ⟨more, rfl, tail⟩
        · rcases List.append_eq_singleton_iff.mp tail.symm with ⟨rfl, last⟩ | ⟨_, none_⟩
          · cases (List.cons.inj last).1
            rw [List.append_nil] at member
            exact kept first member started
          · cases none_
        · cases more with
          | nil =>
              cases (List.cons.inj tail).1
              exact kept first (by simpa using member) started
          | cons event more =>
              obtain ⟨rfl, rest⟩ := List.cons.inj tail
              exact ordered earlier more first second rfl member started
  | @other mid world' event before same silent trace ih =>
      obtain ⟨events, traced, standing, ordered⟩ := ih
      refine ⟨events ++ [event], by rw [trace, traced, List.append_assoc], ?_, ?_⟩
      · intro record member started
        rw [same]
        rcases List.mem_append.mp member with early | last
        · exact standing record early started
        · exact absurd (List.mem_singleton.mp last).symm (silent record)
      · intro earlier later first second split member started
        rcases List.append_eq_append_iff.mp split with
          ⟨more, rfl, tail⟩ | ⟨more, rfl, tail⟩
        · rcases List.append_eq_singleton_iff.mp tail.symm with ⟨rfl, last⟩ | ⟨_, none_⟩
          · exact absurd (List.cons.inj last).1.symm (silent second)
          · cases none_
        · cases more with
          | nil => exact absurd (List.cons.inj tail).1.symm (silent second)
          | cons other more =>
              obtain ⟨rfl, rest⟩ := List.cons.inj tail
              exact ordered earlier more first second rfl member started

theorem SavesKeep.not_lost {executionId : ExecutionId} {start world : World}
    (saves : SavesKeep executionId start world) : ¬ StartLost start world := by
  rintro ⟨earlier, later, record, record', lost, member, started, unstarted⟩
  obtain ⟨events, traced, _, ordered⟩ := saves.trace
  rw [traced, List.append_assoc] at lost
  have kept := ordered earlier later record record' (List.append_cancel_left lost) member started
  rw [unstarted] at kept
  cases kept

theorem StartLost.extended {start world world' : World} (lost : StartLost start world)
    {more : List Event} (trace : world'.trace = world.trace ++ more) : StartLost start world' := by
  obtain ⟨earlier, later, record, record', split, member, started, unstarted⟩ := lost
  exact ⟨earlier, later ++ more, record, record', by rw [trace, split]; simp, member, started,
    unstarted⟩

/-- A save that takes effect. -/
def Commits (execution : Execution) (world world' : World) : Prop :=
  ∃ database, world.database.saveExecution execution = .ok database ∧
    world' = committed execution.executionId world database

theorem save_commits (fault : Fault) (execution : Execution) (world : World)
    {old : ExecutionRecord}
    (found : world.database.record? execution.executionId = some old) :
    Ends (RuntimeService.save fault execution) world
      (fun saved world' => fault.raised = .ok () ∧ saved = execution ∧
        Commits execution world world')
      (fun raised world' => fault.raised = .error raised ∧
        if fault.commits then Commits execution world world' else world' = world) := by
  obtain ⟨saved, done, _⟩ := Database.saveExecution_ok found
  unfold RuntimeService.save
  refine Ends.bind ((transaction_ends fault _ _ world).mono ?_ ?_)
  · rintro _ world' ⟨rfl, database, stored, rfl⟩
    exact ends_pure ⟨rfl, rfl, database, stored, rfl⟩
  · rintro raised world' (⟨rfl, rfl | ⟨error, failed, _⟩⟩ | ⟨rfl, database, stored, rfl⟩)
    · exact ⟨rfl, rfl⟩
    · rw [done] at failed
      cases failed
    · exact ⟨rfl, database, stored, rfl⟩

/-- The copy that `finish` makes of an execution. -/
structure FinishedCopy (execution finished : Execution) : Prop where
  request : RequestedAs (executionToRecord execution) finished
  attempts : finished.attempts = execution.attempts
  startedAt : finished.startedAt = execution.startedAt
  finished : finished.isFinished = true

theorem finish_commits (clock : Except Raised UtcTimestamp) (fault : Fault) {execution : Execution}
    (open_ : execution.isFinished = false) {verdict : Verdict} (reasoned : verdict.Reasoned)
    (world : World) {old : ExecutionRecord}
    (found : world.database.record? execution.executionId = some old) :
    Ends (RuntimeService.finish clock fault execution verdict.outcome verdict.reasonCode
        verdict.explanation) world
      (fun finished world' => Settles clock fault verdict ∧ FinishedCopy execution finished ∧
        Commits finished world world')
      (fun _ world' => if Settles clock fault verdict then
          ∃ finished, FinishedCopy execution finished ∧ Commits finished world world'
        else world' = world) := by
  unfold RuntimeService.finish
  refine Ends.bind ((answer_ends clock world).mono ?_ ?_)
  · rintro moment world ⟨read, rfl⟩
    by_cases fits : verdict.explanation.length ≤ maxExplanationLength
    · obtain ⟨finished, done, fields⟩ := Execution.finish_ok open_ reasoned fits moment
      have copy : FinishedCopy execution finished := by
        have same : RequestedAs (executionToRecord execution) finished := .of_fields fields
        exact ⟨same, by rw [fields], by rw [fields], by rw [Execution.isFinished, fields]; rfl⟩
      have named : finished.executionId = execution.executionId := copy.request.executionId
      refine Ends.bind (ends_domain_ok _ done ?_)
      refine (save_commits fault finished world (named ▸ found)).mono ?_ ?_
      · rintro _ world' ⟨quiet, rfl, commits⟩
        refine ⟨(settles_iff read fits).mpr ?_, copy, commits⟩
        rw [Fault.raised_ok.mp quiet]
        rfl
      · rintro raised world' ⟨_, left⟩
        by_cases commits : fault.commits = true
        · rw [if_pos commits] at left
          rw [if_pos ((settles_iff read fits).mpr commits)]
          exact ⟨finished, copy, left⟩
        · rw [if_neg commits] at left
          rw [if_neg fun settles => commits ((settles_iff read fits).mp settles)]
          exact left
    · have long : maxExplanationLength < verdict.explanation.length := by omega
      have refused := Execution.finish_long open_ reasoned long moment
      refine Ends.bind ((domain_ends _ world).mono ?_ ?_)
      · rintro finished world' ⟨done, _⟩
        rw [refused] at done
        cases done
      · rintro raised world ⟨error, done, rfl, rfl⟩
        rw [if_neg fun settles => fits settles.2.1]
  · rintro raised world ⟨struck, rfl⟩
    rw [if_neg]
    rintro ⟨⟨moment, read⟩, _⟩
    rw [struck] at read
    cases read

/-! ## Copies that are stored -/

/-- The identifiers that a run generates for its attempts are distinct. -/
def DistinctIds (reactions : Reactions) : Prop :=
  ∀ m n, 1 ≤ m → m < n → n ≤ maxRetryAttempts →
    (reactions.attempt m).attemptId ≠ (reactions.attempt n).attemptId

/-- A copy of the execution of a run: its attempts are its own, numbered from 1. -/
structure Copy (reactions : Reactions) (new execution : Execution) : Prop where
  request : RequestedAs (executionToRecord new) execution
  owned : ∀ attempt ∈ execution.attempts, attempt.executionId = execution.executionId
  numbers : execution.attempts.map ExecutionAttempt.attemptNumber =
    List.range' 1 execution.attemptCount
  ids : execution.attempts.map ExecutionAttempt.attemptId =
    (List.range' 1 execution.attemptCount).map fun n => (reactions.attempt n).attemptId
  bounded : execution.attemptCount ≤ maxRetryAttempts

namespace Copy

variable {reactions : Reactions} {new execution other : Execution}

theorem distinct (copy : Copy reactions new execution) (apart : DistinctIds reactions) :
    (execution.attempts.map ExecutionAttempt.attemptId).Nodup := by
  rw [copy.ids]
  apply List.Nodup.map_on _ List.nodup_range'
  intro m inRange n inRange' same
  have bounded := copy.bounded
  rw [List.mem_range'_1] at inRange inRange'
  rcases Nat.lt_trichotomy m n with less | equal | more
  · exact absurd same (apart m n inRange.1 less (by omega))
  · exact equal
  · exact absurd same.symm (apart n m inRange'.1 more (by omega))

theorem sorted (copy : Copy reactions new execution) :
    execution.attempts.Pairwise fun first second =>
      first.attemptNumber ≤ second.attemptNumber := by
  have ordered := @List.pairwise_le_range' 1 execution.attemptCount 1
  rw [← copy.numbers, List.pairwise_map] at ordered
  exact ordered

theorem bare (request : RequestedAs (executionToRecord new) execution)
    (bare : execution.attempts = []) : Copy reactions new execution := by
  have none_ : execution.attemptCount = 0 := by rw [Execution.attemptCount, bare]; rfl
  refine ⟨request, by simp [bare], ?_, ?_, by omega⟩
  · rw [bare, none_]
    rfl
  · rw [bare, none_]
    rfl

theorem named (copy : Copy reactions new execution) : execution.executionId = new.executionId :=
  copy.request.executionId

/-- A copy that differs in nothing that concerns its attempts. -/
theorem of_same (copy : Copy reactions new execution)
    (request : RequestedAs (executionToRecord execution) other)
    (attempts : other.attempts = execution.attempts) : Copy reactions new other := by
  have count : other.attemptCount = execution.attemptCount := by
    rw [Execution.attemptCount, attempts, Execution.attemptCount]
  refine ⟨request.trans copy.request, ?_, ?_, ?_, ?_⟩
  · rw [attempts, show other.executionId = execution.executionId from request.executionId]
    exact copy.owned
  · rw [attempts, count]
    exact copy.numbers
  · rw [attempts, count]
    exact copy.ids
  · rw [count]
    exact copy.bounded

/-- A copy with one more attempt, numbered after those that are there. -/
theorem begun (copy : Copy reactions new execution)
    (request : RequestedAs (executionToRecord execution) other) {attempt : ExecutionAttempt}
    (attempts : other.attempts = execution.attempts ++ [attempt])
    (owner : attempt.executionId = execution.executionId)
    (numbered : attempt.attemptNumber = execution.attemptCount + 1)
    (attemptId : attempt.attemptId = (reactions.attempt (execution.attemptCount + 1)).attemptId)
    (bounded : execution.attemptCount + 1 ≤ maxRetryAttempts) : Copy reactions new other := by
  have count : other.attemptCount = execution.attemptCount + 1 := by
    rw [Execution.attemptCount, attempts, List.length_append, Execution.attemptCount]
    rfl
  refine ⟨request.trans copy.request, ?_, ?_, ?_, by omega⟩
  · rw [attempts, show other.executionId = execution.executionId from request.executionId]
    intro row member
    rcases List.mem_append.mp member with old | last
    · exact copy.owned row old
    · rw [List.mem_singleton.mp last]
      exact owner
  · rw [attempts, count, List.map_append, copy.numbers, List.range'_1_concat]
    simp [numbered, Nat.add_comm]
  · rw [attempts, count, List.map_append, copy.ids, List.range'_1_concat, List.map_append]
    simp [attemptId, Nat.add_comm]

/-- A copy whose last attempt has finished. -/
theorem recorded (copy : Copy reactions new execution)
    (request : RequestedAs (executionToRecord execution) other)
    {earlier : List ExecutionAttempt} {attempt finished : ExecutionAttempt}
    (latest : execution.attempts = earlier ++ [attempt])
    (attempts : other.attempts = earlier ++ [finished]) (same : SameAttempt attempt finished) :
    Copy reactions new other := by
  have count : other.attemptCount = execution.attemptCount := by
    rw [Execution.attemptCount, attempts, Execution.attemptCount, latest, List.length_append,
      List.length_append]
    rfl
  obtain ⟨first, owned, numbers, ids, bounded⟩ := copy
  rw [latest] at owned numbers ids
  refine ⟨request.trans first, ?_, ?_, ?_, by omega⟩
  · rw [attempts, show other.executionId = execution.executionId from request.executionId]
    intro row member
    rcases List.mem_append.mp member with old | last
    · exact owned row (List.mem_append_left _ old)
    · rw [List.mem_singleton.mp last, same.executionId]
      exact owned attempt (by simp)
  · rw [attempts, count, ← numbers]
    simp [same.attemptNumber]
  · rw [attempts, count, ← ids]
    simp [same.attemptId]

end Copy

/-- The copy is what is stored, and the saves since `start` have kept what they found. -/
structure Tracked (reactions : Reactions) (start : World) (new stored : Execution)
    (world : World) : Prop where
  row : world.database.record? stored.executionId = some (executionToRecord stored)
  attempts : world.database.attemptsFor stored.executionId = stored.attempts
  copy : Copy reactions new stored
  saves : SavesKeep new.executionId start world
  shown : ∃ events, world.trace = start.trace ++ events ∧
    .stored (executionToRecord stored) ∈ events

namespace Tracked

variable {reactions : Reactions} {start world world' : World} {new stored execution : Execution}

theorem found (tracked : Tracked reactions start new stored world)
    (copy : Copy reactions new execution) :
    world.database.record? execution.executionId = some (executionToRecord stored) := by
  have row := tracked.row
  rw [tracked.copy.named] at row
  rw [copy.named]
  exact row

/-- A save of a copy that continues the stored one. -/
theorem commits (tracked : Tracked reactions start new stored world)
    (apart : DistinctIds reactions) (copy : Copy reactions new execution)
    (continues : Continues stored.attempts execution.attempts)
    (started : ∀ moment, stored.startedAt = some moment → execution.startedAt = some moment)
    (saved : Commits execution world world') : Tracked reactions start new execution world' := by
  obtain ⟨database, done, rfl⟩ := saved
  have found := tracked.found copy
  have same := copy.request.trans tracked.copy.request.symm
  have attempts : world.database.attemptsFor execution.executionId = stored.attempts := by
    rw [copy.named, ← tracked.copy.named]
    exact tracked.attempts
  rw [← attempts] at continues
  obtain ⟨row, kept⟩ := Database.saveExecution_continues found same continues copy.owned
    (copy.distinct apart) done
  have keeps := Database.keepsHistory_saved found same continues copy.owned (copy.distinct apart)
    started done
  rw [copy.named] at keeps
  have after : committed execution.executionId world database =
      { world with database, trace := world.trace ++ [.stored (executionToRecord execution)] } := by
    unfold committed
    rw [row]
  rw [after]
  obtain ⟨events, traced, _⟩ := tracked.shown
  refine ⟨row, kept, copy, .saved tracked.saves ⟨execution, .inr done⟩ keeps ?_ rfl,
    events ++ [.stored (executionToRecord execution)], ?_, by simp⟩
  · rw [← copy.named]
    exact row
  · rw [← List.append_assoc, ← traced]

/-- Another event. -/
theorem noted (tracked : Tracked reactions start new stored world) {event : Event}
    (silent : ∀ record, event ≠ .stored record) :
    Tracked reactions start new stored { world with trace := world.trace ++ [event] } := by
  obtain ⟨events, traced, shown⟩ := tracked.shown
  refine ⟨tracked.row, tracked.attempts, tracked.copy, .other tracked.saves rfl silent rfl,
    events ++ [event], ?_, List.mem_append_left _ shown⟩
  change world.trace ++ [event] = start.trace ++ (events ++ [event])
  rw [traced, List.append_assoc]

/-- The finished copy of a stored execution. -/
theorem finished (tracked : Tracked reactions start new stored world)
    (apart : DistinctIds reactions) {finished : Execution} (copy : FinishedCopy stored finished)
    (saved : Commits finished world world') : Tracked reactions start new finished world' := by
  apply tracked.commits apart (tracked.copy.of_same copy.request copy.attempts) _ _ saved
  · rw [copy.attempts]
    exact continues_refl stored.attempts
  · intro moment started
    rw [copy.startedAt, started]

theorem read (tracked : Tracked reactions start new stored world) :
    world.database.getExecution stored.executionId = .ok (some stored) :=
  Database.getExecution_copy tracked.row tracked.attempts tracked.copy.sorted

end Tracked

/-! ## Attempts -/

/-- Whether the first save of an attempt takes effect. -/
def AttemptReactions.begins (reactions : AttemptReactions) : Bool :=
  match reactions.startClock with
  | .ok _ => reactions.begin_.commits
  | .error _ => false

section Parts

variable {reactions : Reactions} {start world : World} {new execution : Execution}

theorem runAttempt_tracked (apart : DistinctIds reactions) (revision : TaskRevision)
    (environment : List (Text × Text)) (open_ : execution.isFinished = false)
    (tracked : Tracked reactions start new execution world)
    (more : execution.attemptCount + 1 ≤ maxRetryAttempts) :
    Ends (RuntimeService.runAttempt (reactions.attempt (execution.attemptCount + 1)) revision
        environment execution) world
      (fun result world' => Tracked reactions start new result.1 world' ∧
        (reactions.attempt (execution.attemptCount + 1)).begins = true ∧
        result.1.startedAt.isSome = true ∧ result.1.isFinished = false ∧
        result.1.attemptCount = execution.attemptCount + 1)
      (fun _ world' => ∃ stored, Tracked reactions start new stored world' ∧
        if (reactions.attempt (execution.attemptCount + 1)).begins then
          stored.startedAt.isSome = true
        else stored = execution) := by
  unfold RuntimeService.runAttempt
  refine Ends.bind ((answer_ends (reactions.attempt (execution.attemptCount + 1)).startClock
    world).mono ?_ ?_)
  · rintro startedAt world ⟨clock, rfl⟩
    have begins : (reactions.attempt (execution.attemptCount + 1)).begins =
        (reactions.attempt (execution.attemptCount + 1)).begin_.commits := by
      unfold AttemptReactions.begins
      rw [clock]
    obtain ⟨attempt, made, _, numbered, unfinished⟩ := ExecutionAttempt.started_ok
      (reactions.attempt (execution.attemptCount + 1)).attemptId execution.executionId
      (Nat.succ_pos execution.attemptCount) startedAt revision.action.executorType.wire
    obtain ⟨attemptId, owner, _⟩ := started_same made
    obtain ⟨running, begun, fields⟩ := Execution.beginAttempt_ok open_ numbered startedAt
    have running_ : running.isFinished = false := by
      rw [Execution.isFinished, fields]
      rfl
    have attempts : running.attempts = execution.attempts ++ [attempt] := by rw [fields]
    have count : running.attemptCount = execution.attemptCount + 1 := by
      rw [Execution.attemptCount, attempts, List.length_append, Execution.attemptCount]
      rfl
    have started : running.startedAt.isSome = true := by
      rw [fields]
      cases execution.startedAt <;> rfl
    have same : RequestedAs (executionToRecord execution) running := .of_fields fields
    have copy := tracked.copy.begun same attempts owner numbered attemptId more
    have afterBegin (world' : World) (commits : Commits running world world') :
        Tracked reactions start new running world' := by
      apply tracked.commits apart copy _ _ commits
      · rw [attempts]
        exact continues_append execution.attempts [attempt]
      · intro moment at_
        rw [fields, at_]
        rfl
    refine Ends.bind (ends_domain_ok _ made (Ends.bind (ends_domain_ok _ begun (Ends.bind
      ((save_commits _ running world (tracked.found copy)).mono ?_ ?_)))))
    · rintro running mid ⟨quiet, rfl, commits⟩
      have here := afterBegin mid commits
      have began : (reactions.attempt (execution.attemptCount + 1)).begins = true := by
        rw [begins, Fault.raised_ok.mp quiet]
        rfl
      have kept (stored : Execution) (world' : World)
          (left : Tracked reactions start new stored world')
          (some_ : stored.startedAt.isSome = true) :
          ∃ stored, Tracked reactions start new stored world' ∧
            if (reactions.attempt (execution.attemptCount + 1)).begins then
              stored.startedAt.isSome = true
            else stored = execution := by
        refine ⟨stored, left, ?_⟩
        rw [if_pos began]
        exact some_
      have silent : ∀ record, Event.launched .recorded (RuntimeService.requestFor revision.action
          environment revision.controls) revision.controls ≠ .stored record := by simp
      have launched := here.noted silent
      unfold RuntimeService.launch
      refine Ends.bind (Ends.bind (ends_modify ((answer_ends _ _).mono ?_ ?_)))
      · rintro report mid' ⟨_, rfl⟩
        refine Ends.bind ((answer_ends _ _).mono ?_ ?_)
        · rintro finishedAt mid' ⟨_, rfl⟩
          obtain ⟨finished, done, finishedId⟩ := ExecutionAttempt.finish_ok unfinished report.result
            finishedAt report.stdout report.stderr
          obtain ⟨recorded, recording, recordedFields⟩ :=
            Execution.recordAttemptResult_ok running_ attempts finishedId
          have since := finish_since done
          have recordedAttempts : recorded.attempts = execution.attempts ++ [finished] := by
            rw [recordedFields]
          have recordedCount : recorded.attemptCount = execution.attemptCount + 1 := by
            rw [Execution.attemptCount, recordedAttempts, List.length_append,
              Execution.attemptCount]
            rfl
          have recordedSame : RequestedAs (executionToRecord running) recorded :=
            .of_fields recordedFields
          have recordedCopy := copy.recorded recordedSame attempts recordedAttempts since.same
          have recordedStarted : recorded.startedAt = running.startedAt := by rw [recordedFields]
          have afterRecord (world' : World) (commits : Commits recorded
              { mid with trace := mid.trace ++ [.launched .recorded (RuntimeService.requestFor
                revision.action environment revision.controls) revision.controls] } world') :
              Tracked reactions start new recorded world' := by
            apply launched.commits apart recordedCopy _ _ commits
            · rw [attempts, recordedAttempts]
              exact continues_finished execution.attempts since
            · intro moment at_
              rw [recordedStarted, at_]
          refine Ends.bind (ends_domain_ok _ done (Ends.bind (ends_domain_ok _ recording (Ends.bind
            ((save_commits _ recorded _ (launched.found recordedCopy)).mono ?_ ?_)))))
          · rintro recorded world' ⟨_, rfl, commits⟩
            refine ⟨afterRecord world' commits, began, ?_, ?_, recordedCount⟩
            · rw [recordedStarted]
              exact started
            · rw [Execution.isFinished, recordedFields]
              exact running_
          · rintro raised world' ⟨_, left⟩
            split at left
            · exact kept recorded world' (afterRecord world' left) (recordedStarted ▸ started)
            · rw [left]
              exact kept running _ launched started
        · rintro raised mid' ⟨_, rfl⟩
          exact kept running _ launched started
      · rintro raised mid' ⟨_, rfl⟩
        exact kept running _ launched started
    · rintro raised world' ⟨_, left⟩
      rw [begins]
      by_cases commits : (reactions.attempt (execution.attemptCount + 1)).begin_.commits = true
      · rw [if_pos commits] at left
        exact ⟨running, afterBegin world' left, by rw [if_pos commits]; exact started⟩
      · rw [if_neg commits] at left
        exact ⟨execution, left ▸ tracked, by rw [if_neg commits]⟩
  · rintro raised world ⟨struck, rfl⟩
    refine ⟨execution, tracked, ?_⟩
    unfold AttemptReactions.begins
    rw [struck]
    rfl

/-- The loop: once an attempt has begun, what is stored says when. -/
theorem attempts_tracked (apart : DistinctIds reactions) (revision : TaskRevision)
    (environment : List (Text × Text)) (fuel : Nat) :
    ∀ {execution : Execution} {world : World}, execution.isFinished = false →
      Tracked reactions start new execution world → 1 ≤ fuel →
      execution.attemptCount + fuel = revision.controls.retry.maxAttempts →
      Ends (RuntimeService.attempts reactions revision environment fuel execution) world
        (fun finished world' => Tracked reactions start new finished world')
        (fun _ world' => ∃ stored, Tracked reactions start new stored world' ∧
          if execution.startedAt.isSome ||
              (reactions.attempt (execution.attemptCount + 1)).begins then
            stored.startedAt.isSome = true
          else stored = execution) := by
  induction fuel with
  | zero =>
      intro execution world _ _ some_ _
      omega
  | succ fuel ih =>
      intro execution world open_ tracked _ enough
      have bounded := revision.controls.retry.attemptsBounded
      unfold RuntimeService.attempts
      refine Ends.bind ((runAttempt_tracked apart revision environment open_ tracked
        (by omega)).mono ?_ ?_)
      · rintro ⟨execution', report⟩ world' ⟨tracked', began, started, open', count⟩
        dsimp only at tracked' started open' count ⊢
        rw [began, Bool.or_true]
        have later (stored : Execution) (world'' : World)
            (left : Tracked reactions start new stored world'')
            (some_ : stored.startedAt.isSome = true) :
            ∃ stored, Tracked reactions start new stored world'' ∧
              if true = true then stored.startedAt.isSome = true else stored = execution := by
          refine ⟨stored, left, ?_⟩
          rw [if_pos rfl]
          exact some_
        by_cases again : Retries revision.controls.retry execution'.attemptCount report
        · have more := decideRetry_bounded again
          rw [if_pos (show _ = true from again)]
          refine (ih open' tracked' (by omega) (by omega)).mono (fun _ _ holds => holds) ?_
          rintro raised world'' ⟨stored, left, some_⟩
          rw [started, Bool.true_or, if_pos rfl] at some_
          exact later stored world'' left some_
        · rw [if_neg (show ¬ _ = true from again)]
          refine (finish_commits reactions.finishClock reactions.finish open'
            (verdictOn_reasoned revision.controls.retry execution'.attemptCount report) world'
            tracked'.row).mono ?_ ?_
          · rintro finished world'' ⟨_, copy, commits⟩
            exact tracked'.finished apart copy commits
          · intro raised world'' left
            split at left
            · obtain ⟨finished, copy, commits⟩ := left
              exact later finished world'' (tracked'.finished apart copy commits)
                (copy.startedAt ▸ started)
            · rw [left]
              exact later execution' world' tracked' started
      · rintro raised world' ⟨stored, left, began⟩
        refine ⟨stored, left, ?_⟩
        split at began
        · rename_i begins
          rw [begins, Bool.or_true, if_pos rfl]
          exact began
        · rename_i idle
          rw [began]
          cases started : execution.startedAt.isSome with
          | true => simp
          | false => simp [idle]

end Parts

end TaskControl.Runtime
