import TaskControl.Activation.LostRuns

/-!
# What an exit code says

Cron and an operator act on the status of an activation: 75 asks for another try, 0 and 1
say that the work ran, 70 that it ran and nothing says so.  The status is computed from the
type of the exception that left the recorded run and from the policy of the manifest.
-/

set_option autoImplicit false

namespace TaskControl.Activation

open PythonText Effects Persistence TaskControl.Runtime

/-! ## What happened -/

/-- What the executor answered to the last of its invocations by the first `n` attempts. -/
def lastAnswer (reactions : Reactions) : Nat → Option (Except Raised ExecutionReport)
  | 0 => none
  | n + 1 =>
      if (reactions.attempt (n + 1)).launches then some (reactions.attempt (n + 1)).executor
      else lastAnswer reactions n

/-- The executor's last answer to a run is a report of the outcome. -/
def RunReported (service : RuntimeService) (reactions : Reactions) (revision : TaskRevision)
    (request : RunRequest) (outcome : ExecutionOutcome) : Prop :=
  launches service reactions revision request = true ∧ ∃ n last report,
    AttemptsEnd reactions revision.controls.retry n last ∧
    lastAnswer reactions n = some (.ok report) ∧ (classifyReport report.result).outcome = outcome

/-- The path of the last launch. -/
def lastLaunch (events : List Event) : Option LaunchPath := (events.filterMap launchPath?).getLast?

/-- The executor's last answer to an activation is a report of the outcome. -/
inductive ExecutorReported (service : ActivationService) (reactions : ActivationReactions)
    (request : RunRequest) (world final : World) (outcome : ExecutionOutcome) : Prop
  | recorded {new : Start} (last : lastLaunch (eventsSince world final) = some .recorded)
      (starts : start reactions.run request world.database = .ok (.inr new))
      (reported : RunReported service.runtime reactions.run new.revision request outcome)
  | degraded (last : lastLaunch (eventsSince world final) = some .degraded)
      (reported : degradedOutcome reactions = some outcome)

/-- An entry that has come to the journal has the outcome. -/
def EntrySays (world final : World) (outcome : ExecutionOutcome) : Prop :=
  ∃ entry ∈ final.journal.drop world.journal.length, entry.outcome = outcome

/-- The status of an activation is true of what the activation did: it declines only where nothing
was launched, it says that the work ran only where the outcome it tells is the executor's and is on
record, and it says that there is no record only where there is none. -/
structure ExitTrue (service : ActivationService) (reactions : ActivationReactions)
    (request : RunRequest) (world : World) (activation : ActivationResult) (final : World) :
    Prop where
  declined : activation.exitCode = exitDeclined →
    ∀ path, ¬ LaunchedOn path (eventsSince world final)
  ran : activation.exitCode = exitSuccess ∨ activation.exitCode = exitFailed → ∃ outcome,
    ExecutorReported service reactions request world final outcome ∧
    activation.exitCode = exitFor outcome ∧
    (RowSays reactions.run.executionId world final outcome ∨ EntrySays world final outcome)
  unrecorded : activation.exitCode = exitUnrecorded →
    (∃ path, LaunchedOn path (eventsSince world final)) ∧
    ∀ outcome, ExecutorReported service reactions request world final outcome →
      ¬ RowSays reactions.run.executionId world final outcome ∧ ¬ EntrySays world final outcome

/-! ## The recorded path -/

section Recorded

variable {service : RuntimeService} {reactions : Reactions} {revision : TaskRevision}
  {request : RunRequest}

theorem executor_of_reply {attempt : AttemptReactions} {report : ExecutionReport}
    (replied : attempt.reply = .ok report) : attempt.executor = .ok report := by
  unfold AttemptReactions.reply at replied
  obtain ⟨_, _, replied⟩ := except_bind_eq_ok.mp replied
  obtain ⟨_, _, replied⟩ := except_bind_eq_ok.mp replied
  obtain ⟨reported, answered, replied⟩ := except_bind_eq_ok.mp replied
  obtain ⟨_, _, replied⟩ := except_bind_eq_ok.mp replied
  obtain ⟨_, _, replied⟩ := except_bind_eq_ok.mp replied
  rw [answered, Except.ok.inj replied]

theorem launches_first {policy : RetryPolicy} {n : Nat} {report : ExecutionReport}
    (ended : AttemptsEnd reactions policy n (.ok report)) :
    (reactions.attempt 1).launches = true := by
  obtain ⟨first, earlier⟩ := ended.reached
  rcases Nat.eq_or_lt_of_le first with rfl | later
  · exact AttemptReactions.launches_of_reply ended.replied
  · obtain ⟨report, replied, _⟩ := earlier 1 le_rfl later
    exact AttemptReactions.launches_of_reply replied

theorem lastAnswer_reply {n : Nat} {report : ExecutionReport} (first : 1 ≤ n)
    (replied : (reactions.attempt n).reply = .ok report) :
    lastAnswer reactions n = some (.ok report) := by
  obtain ⟨m, rfl⟩ := Nat.exists_eq_succ_of_ne_zero (Nat.pos_iff_ne_zero.mp first)
  unfold lastAnswer
  rw [if_pos (AttemptReactions.launches_of_reply replied), executor_of_reply replied]

/-- What the body concludes without a lock held elsewhere is what its executor reported. -/
theorem runReported_of_concludes {verdict : Verdict}
    (concluded : Concludes service reactions revision request verdict)
    (held : opening reactions ≠ .ok none) :
    RunReported service reactions revision request verdict.outcome := by
  cases concluded with
  | blocked none_ => exact absurd none_ held
  | reported held prepared ended =>
      refine ⟨?_, _, _, _, ended, lastAnswer_reply ended.reached.1 ended.replied, rfl⟩
      unfold launches
      rw [held]
      dsimp only
      rw [prepared]
      exact launches_first ended

theorem RunReported.ne_infrastructureFailed {outcome : ExecutionOutcome}
    (reported : RunReported service reactions revision request outcome) :
    outcome ≠ .infrastructureFailed := by
  obtain ⟨_, _, _, report, _, _, rfl⟩ := reported
  exact (classifyReport_outcome report.result).1

end Recorded

theorem degradedOutcome_ne {reactions : ActivationReactions} {outcome : ExecutionOutcome}
    (concluded : degradedOutcome reactions = some outcome) : outcome ≠ .infrastructureFailed := by
  unfold degradedOutcome at concluded
  split at concluded
  · next report _ _ _ =>
      rw [← Option.some.inj concluded]
      exact (classifyReport_outcome report.result).1
  · cases concluded

theorem ExecutorReported.ne_infrastructureFailed {service : ActivationService}
    {reactions : ActivationReactions} {request : RunRequest} {world final : World}
    {outcome : ExecutionOutcome}
    (reported : ExecutorReported service reactions request world final outcome) :
    outcome ≠ .infrastructureFailed := by
  cases reported with
  | recorded _ _ reported => exact reported.ne_infrastructureFailed
  | degraded _ concluded => exact degradedOutcome_ne concluded

theorem exitFor_ran (outcome : ExecutionOutcome) :
    exitFor outcome = exitSuccess ∨ exitFor outcome = exitFailed := by
  unfold exitFor
  split
  · exact Or.inl rfl
  · exact Or.inr rfl

/-! ## The two paths of an activation -/

section Paths

variable {service : ActivationService} {reactions : ActivationReactions}
  {installed : InstalledRevision} {triggerSource : TriggerSource} {world mid final : World}

/-- The recorded path is left for the degraded one. -/
theorem fallsBack_iff :
    service.tryRecorded reactions installed triggerSource world = .ok none mid ↔
      ∃ raised, isUnreachable raised = true ∧
        ((reactions.runtimeFactory = .error raised ∧ mid = world) ∨
          (reactions.runtimeFactory = .ok () ∧ service.runtime.run reactions.run
            (ActivationService.runRequest installed triggerSource) world = .error raised mid)) := by
  have falls : ∀ (raised : Raised) (world' : World),
      (if isUnreachable raised then return none else throw raised :
        Program Raised World (Option RunResult)) world' = .ok none mid ↔
      isUnreachable raised = true ∧ world' = mid := by
    intro raised world'
    split
    · next unreachable =>
        exact ⟨fun same => ⟨unreachable, (EStateM.Result.ok.inj same).2⟩, fun both => both.2 ▸ rfl⟩
    · next reached =>
        exact ⟨nofun, fun both => absurd both.1 reached⟩
  unfold ActivationService.tryRecorded
  simp only [handle_eq_ok, falls]
  constructor
  · rintro (returned | ⟨raised, world', struck, unreachable, rfl⟩)
    · obtain ⟨_, _, _, returned⟩ := bind_eq_ok.mp returned
      obtain ⟨_, _, _, returned⟩ := bind_eq_ok.mp returned
      cases returned
    · refine ⟨raised, unreachable, ?_⟩
      rcases bind_eq_error.mp struck with failed | ⟨_, _, answered, later⟩
      · exact Or.inl (answer_eq_error.mp failed)
      · obtain ⟨built, rfl⟩ := answer_eq_ok.mp answered
        rcases bind_eq_error.mp later with run | ⟨_, _, _, returned⟩
        · exact Or.inr ⟨built, run⟩
        · cases returned
  · rintro ⟨raised, unreachable, ⟨failed, rfl⟩ | ⟨built, run⟩⟩
    · exact Or.inr ⟨raised, mid, bind_eq_error.mpr (Or.inl (answer_eq_error.mpr ⟨failed, rfl⟩)),
        unreachable, rfl⟩
    · exact Or.inr ⟨raised, mid, bind_eq_error.mpr (Or.inr ⟨(), world,
        answer_eq_ok.mpr ⟨built, rfl⟩, bind_eq_error.mpr (Or.inl run)⟩), unreachable, rfl⟩

theorem recorded_iff {result : RunResult} :
    service.tryRecorded reactions installed triggerSource world = .ok (some result) mid ↔
      reactions.runtimeFactory = .ok () ∧ service.runtime.run reactions.run
        (ActivationService.runRequest installed triggerSource) world = .ok result mid := by
  unfold ActivationService.tryRecorded
  rw [handle_eq_ok]
  constructor
  · rintro (returned | ⟨raised, world', _, handled⟩)
    · obtain ⟨_, _, answered, later⟩ := bind_eq_ok.mp returned
      obtain ⟨built, rfl⟩ := answer_eq_ok.mp answered
      obtain ⟨_, _, run, told⟩ := bind_eq_ok.mp later
      cases told
      exact ⟨built, run⟩
    · split at handled
      · cases handled
      · cases handled
  · rintro ⟨built, run⟩
    exact Or.inl (bind_eq_ok.mpr ⟨(), world, answer_eq_ok.mpr ⟨built, rfl⟩,
      bind_eq_ok.mpr ⟨result, mid, run, rfl⟩⟩)

/-- An activation returns from one of its two paths. -/
theorem activate_eq_ok {slug : Slug} {activation : ActivationResult}
    (loaded : service.manifests slug = .ok installed) :
    service.activate reactions slug triggerSource world = .ok activation final ↔
      (∃ result, service.tryRecorded reactions installed triggerSource world =
        .ok (some result) final ∧ recordedResult result = .ok activation) ∨
      ∃ mid, service.tryRecorded reactions installed triggerSource world = .ok none mid ∧
        service.activateDegraded reactions installed triggerSource mid = .ok activation final := by
  unfold ActivationService.activate
  rw [bind_eq_ok]
  constructor
  · rintro ⟨installed', world', loaded', returned⟩
    obtain ⟨same, rfl⟩ := answer_eq_ok.mp loaded'
    rw [loaded] at same
    obtain rfl := Except.ok.inj same
    obtain ⟨tried, mid, run, returned⟩ := bind_eq_ok.mp returned
    cases tried with
    | none => exact Or.inr ⟨mid, run, returned⟩
    | some result =>
        obtain ⟨told, rfl⟩ := answer_eq_ok.mp returned
        exact Or.inl ⟨result, run, told⟩
  · intro paths
    refine ⟨installed, world, answer_eq_ok.mpr ⟨loaded, rfl⟩, bind_eq_ok.mpr ?_⟩
    rcases paths with ⟨result, run, told⟩ | ⟨mid, run, returned⟩
    · exact ⟨some result, final, run, answer_eq_ok.mpr ⟨told, rfl⟩⟩
    · exact ⟨none, mid, run, returned⟩

/-! ### The way back from the recorded path -/

variable (service reactions installed triggerSource) in
/-- An activation falls back on the degraded path, after its run has stored an outcome or none. -/
inductive RecordedLost (database : Database) : Option ExecutionOutcome → Prop
  | unbuilt {raised : Raised} (failed : reactions.runtimeFactory = .error raised)
      (unreachable : isUnreachable raised = true) : RecordedLost database none
  | lost {stored : Option ExecutionOutcome} (built : reactions.runtimeFactory = .ok ())
      (lost : RunLost service.runtime reactions.run
        (ActivationService.runRequest installed triggerSource) database stored) :
      RecordedLost database stored

variable (service reactions installed triggerSource) in
/-- What the recorded path leaves when the degraded one follows it. -/
structure FellBack (world mid : World) (stored : Option ExecutionOutcome) : Prop where
  lost : RecordedLost service reactions installed triggerSource world.database stored
  row : ∀ outcome, RowSays reactions.run.executionId world mid outcome ↔ stored = some outcome
  journal : mid.journal = world.journal
  grown : ∃ events, mid.trace = world.trace ++ events
  undegraded : ¬ LaunchedOn .degraded (eventsSince world mid)
  launched : LaunchedOn .recorded (eventsSince world mid) ↔ ∃ new,
    RecordedLaunches service reactions triggerSource installed world new ∧
      RecordedEscapes service reactions triggerSource installed new

theorem fellBack
    (fallen : service.tryRecorded reactions installed triggerSource world = .ok none mid) :
    ∃ stored, FellBack service reactions installed triggerSource world mid stored := by
  obtain ⟨raised, unreachable, ⟨failed, rfl⟩ | ⟨built, run⟩⟩ := fallsBack_iff.mp fallen
  · refine ⟨none, .unbuilt failed unreachable, ?_, rfl, ⟨[], by simp⟩,
      not_launchedOn_self _ mid, ?_⟩
    · exact fun outcome => iff_of_false (not_rowSays_self _ mid outcome) (by simp)
    · apply iff_of_false (not_launchedOn_self _ mid)
      rintro ⟨new, ⟨built, _⟩, _⟩
      rw [failed] at built
      cases built
  · obtain ⟨stored, lost, row⟩ := runLost_of_raised run unreachable
    have raises := (ends_of_error run).mp (run_ends service.runtime reactions.run
      (ActivationService.runRequest installed triggerSource) world)
    refine ⟨stored, .lost built lost, row, runLeaves_journal raises.leaves,
      runLeaves_extends raises.leaves, not_degraded_of_leaves raises.leaves, ?_⟩
    rw [launched_iff_of_leaves raises.leaves]
    constructor
    · rintro ⟨new, launches⟩
      exact ⟨new, ⟨built, launches⟩, raised, unreachable,
        (raises_escapes launches raises unreachable).mp rfl⟩
    · rintro ⟨new, ⟨_, launches⟩, _⟩
      exact ⟨new, launches⟩

theorem fallsBack_of_lost {stored : Option ExecutionOutcome}
    (lost : RecordedLost service reactions installed triggerSource world.database stored) :
    ∃ mid, service.tryRecorded reactions installed triggerSource world = .ok none mid ∧
      ∀ outcome, stored = some outcome → RowSays reactions.run.executionId world mid outcome := by
  cases lost with
  | unbuilt failed unreachable =>
      exact ⟨world, fallsBack_iff.mpr ⟨_, unreachable, Or.inl ⟨failed, rfl⟩⟩, by simp⟩
  | lost built lost =>
      obtain ⟨raised, mid, run, unreachable, row⟩ := raised_of_runLost lost
      exact ⟨mid, fallsBack_iff.mpr ⟨raised, unreachable, Or.inr ⟨built, run⟩⟩, row⟩

theorem fallsBack_of_escapes {new : Start}
    (launches : RecordedLaunches service reactions triggerSource installed world new)
    (escapes : RecordedEscapes service reactions triggerSource installed new) :
    ∃ mid, service.tryRecorded reactions installed triggerSource world = .ok none mid := by
  obtain ⟨built, launches⟩ := launches
  obtain ⟨escaping, unreachable, escapes⟩ := escapes
  have ends := run_ends service.runtime reactions.run
    (ActivationService.runRequest installed triggerSource) world
  cases run : service.runtime.run reactions.run
    (ActivationService.runRequest installed triggerSource) world with
  | ok result final =>
      exact absurd escapes (returns_not_escapes launches ((ends_of_ok run).mp ends) unreachable)
  | error raised mid =>
      have same := (raises_escapes launches ((ends_of_error run).mp ends) unreachable).mpr escapes
      rw [same] at run
      exact ⟨mid, fallsBack_iff.mpr ⟨escaping, unreachable, Or.inr ⟨built, run⟩⟩⟩

/-! ### The degraded path -/

/-- The policy of the manifest declines, or its secrets are out of reach. -/
def Declines (installed : InstalledRevision) : Prop :=
  installed.activationPolicy.executesWithoutControlState = false ∨
    installed.requiresUnresolvableSecrets = true

theorem activateDegraded_declines (declines : Declines installed) (mid : World) :
    ∃ explanation, service.activateDegraded reactions installed triggerSource mid =
      .ok (declined explanation) mid := by
  unfold ActivationService.activateDegraded
  by_cases strict : installed.activationPolicy.executesWithoutControlState = false
  · rw [if_pos (by simp [strict])]
    exact ⟨_, rfl⟩
  · rw [if_neg (by simpa using strict), if_pos (declines.resolve_left strict)]
    exact ⟨_, rfl⟩

theorem degradedOutcome_eq {outcome : ExecutionOutcome}
    (concluded : degradedOutcome reactions = some outcome) : ∃ report finishedAt,
      reactions.executor = .ok report ∧ reactions.endClock = .ok finishedAt ∧
        (classifyReport report.result).outcome = outcome := by
  unfold degradedOutcome at concluded
  split at concluded
  · next report finishedAt reported ended =>
      exact ⟨report, finishedAt, reported, ended, Option.some.inj concluded⟩
  · cases concluded

theorem append_eq_error {fault : Fault} {entry : JournalEntry} {raised : Raised} :
    append fault entry mid = .error raised final ↔ fault.raised = .error raised ∧ final = { mid with
      journal := mid.journal ++ (if fault.commits then some entry else none).toList } := by
  unfold append
  cases fault with
  | none =>
      constructor
      · rintro ⟨⟩
      · rintro ⟨⟨⟩, _⟩
  | before error =>
      constructor
      · rintro ⟨⟩
        exact ⟨rfl, by simp [Fault.commits]⟩
      · rintro ⟨⟨⟩, rfl⟩
        simp [Fault.commits]
        rfl
  | after error =>
      constructor
      · rintro ⟨⟩
        exact ⟨rfl, rfl⟩
      · rintro ⟨⟨⟩, rfl⟩
        rfl

theorem activateDegraded_unrecorded (degrades : Degrades service reactions installed)
    {outcome : ExecutionOutcome} (concluded : degradedOutcome reactions = some outcome)
    {raised : Raised} (failed : reactions.append.raised = .error raised)
    (transient : isTransient raised = true) (mid : World) :
    ∃ activation, activation.exitCode = exitUnrecorded ∧ ∃ entry, entry.outcome = outcome ∧
      service.activateDegraded reactions installed triggerSource mid = .ok activation
        (degradedWorld installed (if reactions.append.commits then some entry else none) mid) := by
  obtain ⟨executes, resolvable, ⟨startedAt, started⟩, registered⟩ := degrades
  obtain ⟨report, finishedAt, reported, ended, rfl⟩ := degradedOutcome_eq concluded
  let entry := entryFor installed triggerSource reactions.executionId startedAt finishedAt
    report.result
  refine ⟨⟨exitUnrecorded, some entry.outcome, true, false, unrecordedExplanation installed⟩, rfl,
    entry, rfl, ?_⟩
  unfold ActivationService.activateDegraded
  rw [if_neg (by simp [executes]), if_neg (by simp [resolvable])]
  unfold ActivationService.runAndJournal
  refine bind_eq_ok.mpr ⟨startedAt, mid, answer_eq_ok.mpr ⟨started, rfl⟩,
    bind_eq_ok.mpr ⟨(), mid, ?_, bind_eq_ok.mpr ⟨report, degradedWorld installed none mid, ?_,
      bind_eq_ok.mpr ⟨finishedAt, degradedWorld installed none mid, answer_eq_ok.mpr ⟨ended, rfl⟩,
        handle_eq_ok.mpr (Or.inr ⟨raised, _, bind_eq_error.mpr (Or.inl
          (append_eq_error.mpr ⟨failed, rfl⟩)), ?_⟩)⟩⟩⟩⟩
  · unfold ActivationService.executorFor
    rw [if_pos registered]
    rfl
  · unfold RuntimeService.launch
    have launched : degradedWorld installed none mid =
        { mid with trace := mid.trace ++ [degradedLaunch installed] } := by
      unfold degradedWorld
      rw [Option.toList_none, List.append_nil]
    exact bind_eq_ok.mpr ⟨⟨⟩, _, rfl, answer_eq_ok.mpr ⟨reported, launched⟩⟩
  · rw [if_pos transient]
    unfold degradedWorld
    rw [Option.toList_none, List.append_nil]
    rfl

end Paths

/-! ## When the status is true -/

section Truth

variable (service : ActivationService) (reactions : ActivationReactions)
  (installed : InstalledRevision) (triggerSource : TriggerSource)

/-- The recorded run returns a verdict that is not its executor's: the lock is held elsewhere, or
the handler records an error of the control plane. -/
inductive Misreports (new : Start) : Prop
  | blocked (held : opening reactions.run = .ok none)
      (saved : finishing reactions.run.finishClock reactions.run.finish
        (blockedVerdict service.runtime) = .ok ())
  | handled {error : TaskControlError} {stored : Option Verdict}
      (struck : Strikes service.runtime reactions.run new.revision
        (ActivationService.runRequest installed triggerSource) (.taskControl error) stored)
      (recorded : finishing reactions.run.handlerClock reactions.run.handler
        (handlerVerdict (.taskControl error)) = .ok ())

/-- No failure that makes the status of an activation untrue strikes it. -/
structure Truthful (world : World) : Prop where
  ran : reactions.runtimeFactory = .ok () → reactions.run.create = .none →
    Released reactions.run → ∀ new, start reactions.run
      (ActivationService.runRequest installed triggerSource) world.database = .ok (.inr new) →
    Admitted reactions.run world.database new.execution →
    ¬ Misreports service reactions installed triggerSource new
  declined : Declines installed → ∀ new,
    RecordedLaunches service reactions triggerSource installed world new →
    ¬ RecordedEscapes service reactions triggerSource installed new
  unrecorded : Degrades service reactions installed → ∀ stored,
    RecordedLost service reactions installed triggerSource world.database stored →
    ∀ outcome, degradedOutcome reactions = some outcome → ∀ raised,
    reactions.append.raised = .error raised → isTransient raised = true →
    reactions.append.commits = false ∧ stored ≠ some outcome

variable {service reactions installed triggerSource} {world mid final : World}

theorem start_ne_existing (existing : Execution) (database : Database) :
    start reactions.run (ActivationService.runRequest installed triggerSource) database ≠
      .ok (.inl existing) := by
  intro starts
  unfold start at starts
  obtain ⟨_, _, starts⟩ := except_bind_eq_ok.mp starts
  obtain ⟨_, _, starts⟩ := except_bind_eq_ok.mp starts
  obtain ⟨found, none_, starts⟩ := except_bind_eq_ok.mp starts
  cases none_
  obtain ⟨_, _, starts⟩ := except_bind_eq_ok.mp starts
  cases starts

theorem launchedOn_of_lastLaunch {path : LaunchPath} {events : List Event}
    (last : lastLaunch events = some path) : LaunchedOn path events :=
  launchedOn_of_mem (List.mem_of_getLast? last)

theorem lastLaunch_of_launchedOn {path : LaunchPath} {events : List Event}
    (launched : LaunchedOn path events) (only : ∀ other, LaunchedOn other events → other = path) :
    lastLaunch events = some path := by
  cases last : lastLaunch events with
  | some other => rw [only other (launchedOn_of_lastLaunch last)]
  | none =>
      obtain ⟨request, controls, member⟩ := launched
      have empty := List.getLast?_eq_none_iff.mp last
      have listed : path ∈ events.filterMap launchPath? := List.mem_filterMap.mpr ⟨_, member, rfl⟩
      rw [empty] at listed
      cases listed

theorem lastLaunch_degraded (grown : ∃ events, mid.trace = world.trace ++ events)
    (entry : Option JournalEntry) :
    lastLaunch (eventsSince world (degradedWorld installed entry mid)) = some .degraded := by
  obtain ⟨events, grown⟩ := grown
  unfold lastLaunch eventsSince degradedWorld
  rw [grown, List.append_assoc, List.drop_left, List.filterMap_append]
  exact List.getLast?_concat

/-! ### Results of the recorded path -/

theorem recordedResult_of_outcome {result : RunResult} {outcome : ExecutionOutcome}
    (decided : result.execution.outcome = some outcome) :
    ∃ activation, recordedResult result = .ok activation ∧
      activation.exitCode = exitFor outcome := by
  unfold recordedResult
  rw [decided]
  exact ⟨_, rfl, rfl⟩

theorem exitFor_of_told {result : RunResult} {activation : ActivationResult}
    (told : recordedResult result = .ok activation) {outcome : ExecutionOutcome}
    (decided : result.execution.outcome = some outcome) :
    activation.exitCode = exitFor outcome := by
  unfold recordedResult at told
  rw [decided] at told
  cases told
  rfl

theorem exitTrue_of_ran {activation : ActivationResult} {outcome : ExecutionOutcome}
    (exit : activation.exitCode = exitFor outcome)
    (reported : ExecutorReported service reactions
      (ActivationService.runRequest installed triggerSource) world final outcome)
    (kept : RowSays reactions.run.executionId world final outcome ∨
      EntrySays world final outcome) :
    ExitTrue service reactions (ActivationService.runRequest installed triggerSource) world
      activation final := by
  have ran := exitFor_ran outcome
  rw [← exit] at ran
  constructor
  · intro declined
    rw [declined] at ran
    rcases ran with impossible | impossible <;> cases impossible
  · exact fun _ => ⟨outcome, reported, exit, kept⟩
  · intro unrecorded
    rw [unrecorded] at ran
    rcases ran with impossible | impossible <;> cases impossible

theorem exitTrue_of_declined
    (unlaunched : ∀ path, ¬ LaunchedOn path (eventsSince world final)) (explanation : Text) :
    ExitTrue service reactions (ActivationService.runRequest installed triggerSource) world
      (declined explanation) final := by
  constructor
  · exact fun _ => unlaunched
  · rintro (impossible | impossible) <;> cases impossible
  · intro impossible
    cases impossible

theorem exitTrue_of_unrecorded {activation : ActivationResult}
    (launched : ∃ path, LaunchedOn path (eventsSince world final))
    (exit : activation.exitCode = exitUnrecorded)
    (unkept : ∀ outcome, ExecutorReported service reactions
      (ActivationService.runRequest installed triggerSource) world final outcome →
      ¬ RowSays reactions.run.executionId world final outcome ∧ ¬ EntrySays world final outcome) :
    ExitTrue service reactions (ActivationService.runRequest installed triggerSource) world
      activation final := by
  constructor
  · intro declined
    rw [exit] at declined
    cases declined
  · rw [exit]
    rintro (impossible | impossible) <;> cases impossible
  · exact fun _ => ⟨launched, unkept⟩

theorem recorded_true {result : RunResult} {activation : ActivationResult}
    (truthful : Truthful service reactions installed triggerSource world)
    (recorded : service.tryRecorded reactions installed triggerSource world =
      .ok (some result) final) (told : recordedResult result = .ok activation) :
    ExitTrue service reactions (ActivationService.runRequest installed triggerSource) world
      activation final := by
  obtain ⟨built, run⟩ := recorded_iff.mp recorded
  have returns := (ends_of_ok run).mp (run_ends service.runtime reactions.run
    (ActivationService.runRequest installed triggerSource) world)
  have leaves := returns.leaves
  rcases returns with ⟨existing, starts, _⟩ |
    ⟨new, starts, quiet, _, verdict, body, handler, cleanup, finishes, ran⟩
  · exact absurd starts (start_ne_existing existing _)
  obtain ⟨mid, admitted, _, ended, _⟩ := id ran
  have row := rowSays_iff_of_ran starts ran
  cases ended with
  | finished guarded released =>
      have honest := truthful.ran built quiet released new starts admitted
      cases guarded with
      | returned returned =>
          obtain ⟨concluded, saved⟩ := returned
          have held : opening reactions.run ≠ .ok none := by
            intro held
            apply honest
            cases concluded with
            | blocked _ => exact .blocked held saved
            | reported other _ _ =>
                rw [held] at other
                cases other
          have reported := runReported_of_concludes concluded held
          have launched : LaunchedOn .recorded (eventsSince world final) :=
            (launched_iff_of_leaves leaves).mpr ⟨new, starts, quiet, admitted, reported.1⟩
          have last := lastLaunch_of_launchedOn launched fun other elsewhere => by
            cases other with
            | recorded => rfl
            | degraded => exact absurd elsewhere (not_degraded_of_leaves leaves)
          exact exitTrue_of_ran (exitFor_of_told told finishes.outcome)
            (.recorded last starts reported) (Or.inl ((row verdict.outcome).mpr rfl))
      | handled struck recorded => exact absurd (.handled struck recorded) honest

/-! ### Results of the degraded path -/

theorem degraded_true {activation : ActivationResult} {stored : Option ExecutionOutcome}
    (truthful : Truthful service reactions installed triggerSource world)
    (fell : FellBack service reactions installed triggerSource world mid stored)
    (returns : DegradedReturns service reactions installed mid activation final) :
    ExitTrue service reactions (ActivationService.runRequest installed triggerSource) world
      activation final := by
  have declined : Declines installed → ∀ path, ¬ LaunchedOn path (eventsSince world mid) := by
    intro declines path launched
    cases path with
    | recorded =>
        obtain ⟨new, launches, escapes⟩ := fell.launched.mp launched
        exact truthful.declined declines new launches escapes
    | degraded => exact fell.undegraded launched
  cases returns with
  | strict declines =>
      exact exitTrue_of_declined (declined (Or.inl declines)) _
  | secrets needs =>
      exact exitTrue_of_declined (declined (Or.inr needs)) _
  | @journalled entry degrades concluded written named =>
      have last := @lastLaunch_degraded installed world mid fell.grown (some entry)
      have kept : EntrySays world (degradedWorld installed (some entry) mid) entry.outcome := by
        refine ⟨entry, ?_, rfl⟩
        unfold degradedWorld
        rw [fell.journal, List.drop_left]
        exact List.mem_singleton_self entry
      exact exitTrue_of_ran rfl (.degraded last concluded) (Or.inr kept)
  | @unrecorded entry raised degrades concluded failed transient named =>
      obtain ⟨uncommitted, unstored⟩ := truthful.unrecorded degrades stored fell.lost _ concluded
        raised failed transient
      rw [uncommitted]
      have last := @lastLaunch_degraded installed world mid fell.grown none
      refine exitTrue_of_unrecorded ⟨_, launchedOn_of_lastLaunch last⟩ rfl ?_
      intro outcome reported
      have same : degradedOutcome reactions = some outcome := by
        cases reported with
        | recorded other _ _ =>
            rw [if_neg (by simp), last] at other
            cases other
        | degraded _ concluded => exact concluded
      rw [concluded] at same
      constructor
      · intro row
        exact unstored ((fell.row entry.outcome).mp (Option.some.inj same ▸ row))
      · rintro ⟨written, member, _⟩
        unfold degradedWorld at member
        rw [if_neg (by simp), Option.toList_none, List.append_nil, fell.journal,
          List.drop_length] at member
        cases member

/-! ### Activations whose status is untrue -/

section Untrue

variable {slug : Slug} (loaded : service.manifests slug = .ok installed)
  (truth : ∀ activation final,
    service.activate reactions slug triggerSource world = .ok activation final →
    ExitTrue service reactions (ActivationService.runRequest installed triggerSource) world
      activation final)

include loaded truth

/-- A verdict that the body did not get from its executor is no status of the work. -/
theorem not_misreports (built : reactions.runtimeFactory = .ok ())
    (quiet : reactions.run.create = .none) (released : Released reactions.run) {new : Start}
    (starts : start reactions.run (ActivationService.runRequest installed triggerSource)
      world.database = .ok (.inr new))
    (admitted : Admitted reactions.run world.database new.execution) :
    ¬ Misreports service reactions installed triggerSource new := by
  have told : ∀ {verdict : Verdict} {body handler cleanup : Option Verdict},
      Ended service.runtime reactions.run new.revision
        (ActivationService.runRequest installed triggerSource) (.ok verdict) body handler cleanup →
      exitFor verdict.outcome = exitFailed → ∃ final outcome, ExecutorReported service reactions
        (ActivationService.runRequest installed triggerSource) world final outcome ∧
        (lastLaunch (eventsSince world final) = some .recorded →
          launches service.runtime reactions.run new.revision
            (ActivationService.runRequest installed triggerSource) = true) ∧
        ¬ LaunchedOn .degraded (eventsSince world final) ∧
        (cleanup.or (handler.or body)).map Verdict.outcome = some outcome := by
    intro verdict body handler cleanup ended failed
    obtain ⟨result, final, run, decided, ran⟩ := run_returns_of_ended starts quiet admitted ended
    obtain ⟨activation, told, exit⟩ := recordedResult_of_outcome decided
    have recorded := recorded_iff.mpr ⟨built, run⟩
    have returned := truth activation final ((activate_eq_ok loaded).mpr
      (Or.inl ⟨result, recorded, told⟩))
    obtain ⟨outcome, reported, _, kept⟩ := returned.ran (Or.inr (exit.trans failed))
    have leaves := ((ends_of_ok run).mp (run_ends service.runtime reactions.run
      (ActivationService.runRequest installed triggerSource) world)).leaves
    refine ⟨final, outcome, reported, ?_, not_degraded_of_leaves leaves, ?_⟩
    · intro last
      obtain ⟨other, starts', _, _, counted⟩ :=
        (launched_iff_of_leaves leaves).mp (launchedOn_of_lastLaunch last)
      rw [starts] at starts'
      cases starts'
      exact counted
    · rcases kept with row | ⟨written, member, _⟩
      · exact (rowSays_iff_of_ran starts ran outcome).mp row
      · rw [runLeaves_journal leaves, List.drop_length] at member
        cases member
  intro misreports
  cases misreports with
  | blocked held saved =>
      have ended : Ended service.runtime reactions.run new.revision
          (ActivationService.runRequest installed triggerSource)
          (.ok (blockedVerdict service.runtime)) (some (blockedVerdict service.runtime)) none
          none := .finished (.returned ⟨.blocked held, saved⟩) released
      obtain ⟨final, outcome, reported, counted, undegraded, _⟩ := told ended rfl
      cases reported with
      | recorded last _ _ =>
          have launched := counted last
          unfold launches at launched
          rw [held] at launched
          cases launched
      | degraded last _ => exact undegraded (launchedOn_of_lastLaunch last)
  | @handled error stored struck recorded =>
      obtain ⟨final, outcome, reported, _, _, kept⟩ :=
        told (.finished (.handled struck recorded) released) rfl
      exact reported.ne_infrastructureFailed (Option.some.inj kept).symm

theorem not_escapes_of_declines (declines : Declines installed) {new : Start}
    (launches : RecordedLaunches service reactions triggerSource installed world new) :
    ¬ RecordedEscapes service reactions triggerSource installed new := by
  intro escapes
  obtain ⟨mid, fallen⟩ := fallsBack_of_escapes launches escapes
  obtain ⟨stored, fell⟩ := fellBack fallen
  obtain ⟨explanation, returned⟩ :=
    @activateDegraded_declines service reactions installed triggerSource declines mid
  have returns := truth _ mid ((activate_eq_ok loaded).mpr (Or.inr ⟨mid, fallen, returned⟩))
  exact returns.declined rfl .recorded (fell.launched.mpr ⟨new, launches, escapes⟩)

theorem unrecorded_of_true (degrades : Degrades service reactions installed)
    {stored : Option ExecutionOutcome}
    (lost : RecordedLost service reactions installed triggerSource world.database stored)
    {outcome : ExecutionOutcome} (concluded : degradedOutcome reactions = some outcome)
    {raised : Raised} (failed : reactions.append.raised = .error raised)
    (transient : isTransient raised = true) :
    reactions.append.commits = false ∧ stored ≠ some outcome := by
  obtain ⟨mid, fallen, row⟩ := fallsBack_of_lost lost
  obtain ⟨_, fell⟩ := fellBack fallen
  obtain ⟨activation, exit, entry, named, returned⟩ :=
    @activateDegraded_unrecorded service reactions installed triggerSource degrades outcome
      concluded raised failed transient mid
  have returns := truth _ _ ((activate_eq_ok loaded).mpr (Or.inr ⟨mid, fallen, returned⟩))
  have last := @lastLaunch_degraded installed world mid fell.grown
    (if reactions.append.commits then some entry else none)
  obtain ⟨noRow, noEntry⟩ := (returns.unrecorded exit).2 outcome (.degraded last concluded)
  constructor
  · by_contra committed
    apply noEntry
    refine ⟨entry, ?_, named⟩
    unfold degradedWorld
    rw [if_pos (by simpa using committed), fell.journal, List.drop_left]
    exact List.mem_singleton_self entry
  · intro same
    exact noRow (row outcome same)

end Untrue

end Truth

/-- The status of an activation is true exactly when no failure that makes it untrue strikes. -/
theorem activate_exit_true_iff (service : ActivationService) (reactions : ActivationReactions)
    (slug : Slug) (triggerSource : TriggerSource) (world : World) :
    (∀ installed activation final, service.manifests slug = .ok installed →
      service.activate reactions slug triggerSource world = .ok activation final →
      ExitTrue service reactions (ActivationService.runRequest installed triggerSource) world
        activation final) ↔
      ∀ installed, service.manifests slug = .ok installed →
        Truthful service reactions installed triggerSource world := by
  constructor
  · intro truth installed loaded
    have told := fun activation final => truth installed activation final loaded
    constructor
    · intro built quiet released new starts admitted
      exact not_misreports loaded told built quiet released starts admitted
    · intro declines new launches
      exact not_escapes_of_declines loaded told declines launches
    · intro degrades stored lost outcome concluded raised failed transient
      exact unrecorded_of_true loaded told degrades lost concluded failed transient
  · intro truthful installed activation final loaded returned
    rcases (activate_eq_ok loaded).mp returned with ⟨result, recorded, told⟩ |
      ⟨mid, fallen, returned⟩
    · exact recorded_true (truthful installed loaded) recorded told
    · obtain ⟨stored, fell⟩ := fellBack fallen
      exact degraded_true (truthful installed loaded) fell ((ends_of_ok returned).mp
        (activateDegraded_ends service reactions installed triggerSource mid))

namespace Backup

open TaskControl.Runtime.Backup

def strictControls : ExecutionControls :=
  { controls with activationPolicy := .requireControlState }

/-- The published revision, with the policy that requires a record of every run. -/
def strictRevision : TaskRevision := { revision with controls := strictControls }

def strictManifest : InstalledRevision := { installed with controls := strictControls }

theorem strictManifest_of_published : InstalledRevision.install task strictRevision =
    .ok strictManifest := rfl

def strictActivation : ActivationService where
  manifests slug := if slug = task.slug then .ok strictManifest
    else .error (.taskControl (notFoundError "No installed revision on this host."))
  registered := defaultRegistry
  runtime := service

def strictWorld : World :=
  { world with database := { world.database with
      revisions := fun asked => if asked = revisionId then some strictRevision else none } }

end Backup

/-- The status of an activation that returns, and the paths on which it has launched. -/
def toldOf (world : World) :
    EStateM.Result Raised World ActivationResult → Option (Nat × List LaunchPath)
  | .ok activation final =>
      some (activation.exitCode, (eventsSince world final).filterMap launchPath?)
  | .error _ _ => none

/-- The script has run when the database is lost, and the status says that it was not started. -/
theorem activate_declined_after_launch : ∃ activation final,
    Backup.strictActivation.activate (Backup.answers Runtime.Backup.unreleased)
      Runtime.Backup.task.slug .schedule Backup.strictWorld = .ok activation final ∧
    activation.exitCode = exitDeclined ∧
    LaunchedOn .recorded (eventsSince Backup.strictWorld final) ∧
    ¬ ExitTrue Backup.strictActivation (Backup.answers Runtime.Backup.unreleased)
      (ActivationService.runRequest Backup.strictManifest .schedule) Backup.strictWorld activation
      final := by
  have told : toldOf Backup.strictWorld (Backup.strictActivation.activate
      (Backup.answers Runtime.Backup.unreleased) Runtime.Backup.task.slug .schedule
      Backup.strictWorld) = some (exitDeclined, [.recorded]) := by
    decide +kernel
  cases run : Backup.strictActivation.activate (Backup.answers Runtime.Backup.unreleased)
      Runtime.Backup.task.slug .schedule Backup.strictWorld with
  | error raised final =>
      rw [run] at told
      cases told
  | ok activation final =>
      rw [run] at told
      obtain ⟨declined, paths⟩ := Prod.mk.inj (Option.some.inj told)
      have launched : LaunchedOn .recorded (eventsSince Backup.strictWorld final) := by
        apply launchedOn_of_mem
        rw [paths]
        exact List.mem_singleton_self _
      exact ⟨activation, final, rfl, declined, launched,
        fun truth => truth.declined declined .recorded launched⟩

end TaskControl.Activation
