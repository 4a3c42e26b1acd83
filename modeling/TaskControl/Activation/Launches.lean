import TaskControl.Activation.Cases

/-!
# What an activation launches

When both paths of an activation launch the work, and whether what is launched is
what is installed.
-/

set_option autoImplicit false

namespace TaskControl.Activation

open PythonText Effects Persistence TaskControl.Runtime

/-- The work was launched on the path. -/
def LaunchedOn (path : LaunchPath) (events : List Event) : Prop :=
  ∃ request controls, .launched path request controls ∈ events

/-! ## The recorded path -/

section Recorded

variable {service : RuntimeService} {reactions : Reactions} {revision : TaskRevision}
  {request : RunRequest}

/-- Launches of a run are those of its revision, on the recorded path. -/
theorem launch_of_traced {executionId : ExecutionId} {body handler cleanup : Option Verdict}
    {events : List Event}
    (traced : Traced service reactions revision request executionId body handler cleanup events)
    {path : LaunchPath} {launched : ExecutionRequest} {controls : ExecutionControls}
    (member : .launched path launched controls ∈ events) :
    path = .recorded ∧ launched.action = revision.action ∧ controls = revision.controls := by
  rcases traced.mem member with progress | ⟨record, saved⟩ | ⟨handle, released⟩
  · exact progress
  · cases saved
  · cases released

theorem launched_iff_of_traced {executionId : ExecutionId} {body handler cleanup : Option Verdict}
    {events : List Event}
    (traced : Traced service reactions revision request executionId body handler cleanup events) :
    LaunchedOn .recorded events ↔ launches service reactions revision request = true := by
  rw [← traced.any_isLaunch, List.any_eq_true]
  constructor
  · rintro ⟨launched, controls, member⟩
    exact ⟨_, member, rfl⟩
  · rintro ⟨event, member, isLaunch⟩
    cases event with
    | launched path launched controls =>
        obtain ⟨rfl, _⟩ := launch_of_traced traced member
        exact ⟨launched, controls, member⟩
    | _ => cases isLaunch

variable (service reactions request) in
/-- The run creates its execution and gets as far as its executor. -/
def RunLaunches (world : World) (new : Start) : Prop :=
  start reactions request world.database = .ok (.inr new) ∧ reactions.create = .none ∧
    Admitted reactions world.database new.execution ∧
    launches service reactions new.revision request = true

/-- What the recorded path has launched by the end of a run. -/
theorem launched_iff_of_leaves {world final : World}
    (leaves : RunLeaves service reactions request world final) :
    LaunchedOn .recorded (eventsSince world final) ↔
      ∃ new, RunLaunches service reactions request world new := by
  cases leaves with
  | untouched idle =>
      rw [eventsSince, List.drop_length]
      refine iff_of_false ?_ ?_
      · rintro ⟨_, _, member⟩
        cases member
      · rintro ⟨new, starts, _, admitted, _⟩
        exact idle new starts admitted
  | created starts late adds =>
      rw [eventsSince, adds.trace, List.drop_left]
      refine iff_of_false ?_ ?_
      · rintro ⟨_, _, member⟩
        cases List.mem_singleton.mp member
      · rintro ⟨new, _, quiet, _⟩
        rw [late] at quiet
        cases quiet
  | ran starts quiet ran =>
      obtain ⟨events, traced, trace⟩ := ran.traced
      have launched := launched_iff_of_traced traced
      obtain ⟨mid, admitted, _⟩ := ran
      rw [trace]
      constructor
      · rintro ⟨request', controls, member⟩
        rcases List.mem_cons.mp member with impossible | member
        · cases impossible
        · exact ⟨_, starts, quiet, admitted, launched.mp ⟨request', controls, member⟩⟩
      · rintro ⟨new', starts', _, _, counted⟩
        rw [starts] at starts'
        cases starts'
        obtain ⟨request', controls, member⟩ := launched.mpr counted
        exact ⟨request', controls, List.mem_cons_of_mem _ member⟩

/-- Every launch of a run is that of the revision with which it gets as far as its executor. -/
theorem launch_of_leaves {world final : World}
    (leaves : RunLeaves service reactions request world final) {path : LaunchPath}
    {launched : ExecutionRequest} {controls : ExecutionControls}
    (member : .launched path launched controls ∈ eventsSince world final) :
    ∃ new, RunLaunches service reactions request world new ∧
      launched.action = new.revision.action ∧ controls = new.revision.controls := by
  cases leaves with
  | untouched _ =>
      rw [eventsSince, List.drop_length] at member
      cases member
  | created _ _ adds =>
      rw [eventsSince, adds.trace, List.drop_left] at member
      cases List.mem_singleton.mp member
  | ran starts quiet ran =>
      obtain ⟨events, traced, trace⟩ := ran.traced
      obtain ⟨mid, admitted, _⟩ := ran
      rw [trace] at member
      rcases List.mem_cons.mp member with impossible | member
      · cases impossible
      · obtain ⟨rfl, action, same⟩ := launch_of_traced traced member
        have counted := (launched_iff_of_traced traced).mp ⟨launched, controls, member⟩
        exact ⟨_, ⟨starts, quiet, admitted, counted⟩, action, same⟩

/-- The recorded path launches nothing on the degraded one. -/
theorem not_degraded_of_leaves {world final : World}
    (leaves : RunLeaves service reactions request world final) :
    ¬ LaunchedOn .degraded (eventsSince world final) := by
  rintro ⟨request', controls, member⟩
  cases leaves with
  | untouched _ =>
      rw [eventsSince, List.drop_length] at member
      cases member
  | created _ _ adds =>
      rw [eventsSince, adds.trace, List.drop_left] at member
      cases List.mem_singleton.mp member
  | ran _ _ ran =>
      obtain ⟨events, traced, trace⟩ := ran.traced
      rw [trace] at member
      rcases List.mem_cons.mp member with impossible | member
      · cases impossible
      · obtain ⟨degraded, _⟩ := launch_of_traced traced member
        cases degraded

end Recorded

/-! ## Exceptions that leave the recorded path -/

section Escapes

variable (service : RuntimeService) (reactions : Reactions) (revision : TaskRevision)
  (request : RunRequest)

/-- An exception leaves the run that the release of the lock raises, or the save of a handler
with nothing after it. -/
inductive Escapes (raised : Raised) : Prop
  | release (held : heldLock reactions ≠ none) (struck : reactions.release = .error raised)
  | handler {cause : Raised} {stored cleanup : Option Verdict} (released : Released reactions)
      (struck : Strikes service reactions revision request cause stored)
      (failed : finishing reactions.handlerClock reactions.handler (handlerVerdict cause) =
        .error raised)
      (cleaned : Forces reactions (stored.isSome ||
        (settled reactions.handlerClock reactions.handler (handlerVerdict cause)).isSome) (.ok ())
        cleanup)

end Escapes

theorem unreachable_taskControl {raised : Raised} (unreachable : isUnreachable raised = true) :
    ∃ error, raised = .taskControl error := by
  cases raised with
  | taskControl error => exact ⟨error, rfl⟩
  | _ => cases unreachable

/-- A run ends with an exception of the control plane exactly when one escapes it. -/
theorem escapes_iff {service : RuntimeService} {reactions : Reactions} {revision : TaskRevision}
    {request : RunRequest} {result : Except Raised Verdict} {body handler cleanup : Option Verdict}
    (ended : Ended service reactions revision request result body handler cleanup)
    {raised : Raised} (unreachable : isUnreachable raised = true) :
    result = .error raised ↔ Escapes service reactions revision request raised := by
  obtain ⟨error, rfl⟩ := unreachable_taskControl unreachable
  cases ended with
  | unreleased guarded held struck =>
      constructor
      · rintro ⟨⟩
        exact .release held struck
      · rintro (⟨_, struck'⟩ | ⟨released, _, _, _⟩)
        · rw [struck] at struck'
          cases struck'
          rfl
        · exact absurd released (not_released held struck)
  | finished guarded released =>
      refine iff_of_false ?_ ?_
      · rintro rfl
        cases guarded with
        | reraised _ unexpected _ => exact unexpected error rfl
      · rintro (⟨held, struck⟩ | ⟨_, struck, failed, _⟩)
        · exact not_released held struck released
        · cases guarded with
          | returned returned => exact struck.not_returned returned
          | handled struck' recorded =>
              obtain ⟨rfl, _⟩ := struck.unique struck'
              simp [recorded] at failed
          | reraised struck' _ recorded =>
              obtain ⟨rfl, _⟩ := struck.unique struck'
              simp [recorded] at failed
  | forced guarded released forces =>
      cases guarded with
      | escaped struck failed =>
          constructor
          · rintro ⟨⟩
            exact .handler released struck failed forces
          · rintro (⟨held, struck'⟩ | ⟨_, struck', failed', _⟩)
            · exact absurd released (not_released held struck')
            · obtain ⟨rfl, _⟩ := struck.unique struck'
              rw [failed] at failed'
              cases failed'
              rfl
  | interrupted guarded released forces =>
      have interrupt := forces.interrupt
      subst interrupt
      refine iff_of_false (by simp) ?_
      rintro (⟨held, struck'⟩ | ⟨_, struck', _, cleaned⟩)
      · exact not_released held struck' released
      · cases guarded with
        | escaped struck failed =>
            obtain ⟨rfl, rfl⟩ := struck.unique struck'
            cases forces.unique cleaned

section Runs

variable {service : RuntimeService} {reactions : Reactions} {request : RunRequest} {world : World}
  {new : Start} {raised : Raised} {world' : World}

/-- A run that has launched ends with an exception of the control plane exactly when one
escapes it. -/
theorem raises_escapes (launched : RunLaunches service reactions request world new)
    (raises : RunRaises service reactions request world raised world') {escaping : Raised}
    (unreachable : isUnreachable escaping = true) :
    raised = escaping ↔ Escapes service reactions new.revision request escaping := by
  obtain ⟨starts, quiet, admitted, _⟩ := launched
  rcases raises with ⟨struck, _⟩ | ⟨new', starts', ended⟩
  · simp [struck] at starts
  · rw [starts] at starts'
    cases starts'
    rcases ended with ⟨refused, _⟩ | ⟨late, _⟩ | ⟨_, body, handler, cleanup, ran⟩
    · exact absurd admitted refused
    · simp [late] at quiet
    · obtain ⟨mid, _, _, ended, _⟩ := ran
      rw [← escapes_iff ended unreachable, Except.error.injEq]

theorem returns_not_escapes {result : RunResult}
    (launched : RunLaunches service reactions request world new)
    (returns : RunReturns service reactions request world result world') {escaping : Raised}
    (unreachable : isUnreachable escaping = true) :
    ¬ Escapes service reactions new.revision request escaping := by
  obtain ⟨starts, quiet, admitted, _⟩ := launched
  rcases returns with ⟨existing, starts', _⟩ | ⟨new', starts', _, _, verdict, body, handler,
    cleanup, _, mid, _, _, ended, _⟩
  · simp [starts] at starts'
  · rw [starts] at starts'
    cases starts'
    rw [← escapes_iff ended unreachable]
    simp

end Runs

/-! ## The whole activation -/

section Activation

variable (service : ActivationService) (reactions : ActivationReactions) (slug : Slug)
  (triggerSource : TriggerSource)

/-- The recorded path of the activation gets as far as its executor. -/
def RecordedLaunches (installed : InstalledRevision) (world : World) (new : Start) : Prop :=
  reactions.runtimeFactory = .ok () ∧ RunLaunches service.runtime reactions.run
    (ActivationService.runRequest installed triggerSource) world new

/-- An exception of the control plane leaves the recorded path. -/
def RecordedEscapes (installed : InstalledRevision) (new : Start) : Prop :=
  ∃ raised, isUnreachable raised = true ∧ Escapes service.runtime reactions.run new.revision
    (ActivationService.runRequest installed triggerSource) raised

/-- The world that an activation leaves. -/
inductive ActivationLeaves (world : World) : World → Prop
  | untouched (idle : ∀ installed, service.manifests slug = .ok installed →
      reactions.runtimeFactory ≠ .ok ()) : ActivationLeaves world world
  | recorded {installed : InstalledRevision} {final : World}
      (loaded : service.manifests slug = .ok installed)
      (built : reactions.runtimeFactory = .ok ())
      (leaves : RunLeaves service.runtime reactions.run
        (ActivationService.runRequest installed triggerSource) world final)
      (reached : ∀ new, RecordedLaunches service reactions triggerSource installed world new →
        ¬ RecordedEscapes service reactions triggerSource installed new) :
      ActivationLeaves world final
  | unbuilt {installed : InstalledRevision} {final : World}
      (loaded : service.manifests slug = .ok installed)
      (unbuilt : reactions.runtimeFactory ≠ .ok ())
      (leaves : DegradedLeaves service reactions installed world final) :
      ActivationLeaves world final
  | degraded {installed : InstalledRevision} {mid final : World}
      (loaded : service.manifests slug = .ok installed)
      (built : reactions.runtimeFactory = .ok ())
      (recorded : RunLeaves service.runtime reactions.run
        (ActivationService.runRequest installed triggerSource) world mid)
      (escapes : ∀ new, RecordedLaunches service reactions triggerSource installed world new →
        RecordedEscapes service reactions triggerSource installed new)
      (leaves : DegradedLeaves service reactions installed mid final) :
      ActivationLeaves world final

theorem activate_leaves (world : World) :
    ActivationLeaves service reactions slug triggerSource world
      (finalWorld (service.activate reactions slug triggerSource world)) := by
  have fallback : ∀ {installed : InstalledRevision} {mid final : World},
      service.manifests slug = .ok installed →
      Unreached service reactions triggerSource installed world mid →
      DegradedLeaves service reactions installed mid final →
      ActivationLeaves service reactions slug triggerSource world final := by
    intro installed mid final loaded unreached leaves
    obtain ⟨raised, unreachable, ⟨failed, rfl⟩ | ⟨built, raises⟩⟩ := unreached
    · exact .unbuilt loaded (by simp [failed]) leaves
    · apply ActivationLeaves.degraded loaded built raises.leaves ?_ leaves
      intro new launched
      exact ⟨raised, unreachable, (raises_escapes launched.2 raises unreachable).mp rfl⟩
  apply Ends.final (activate_ends service reactions slug triggerSource world)
  · intro activation final returns
    cases returns with
    | recorded loaded built returns told =>
        apply ActivationLeaves.recorded loaded built returns.leaves
        rintro new launched ⟨raised, unreachable, escapes⟩
        exact returns_not_escapes launched.2 returns unreachable escapes
    | degraded loaded unreached returns => exact fallback loaded unreached returns.leaves
  · intro _ final raises
    cases raises with
    | unloaded refused => exact .untouched (by simp [refused])
    | unbuilt loaded failed reached => exact .untouched (by simp [failed])
    | recorded loaded built raises reached =>
        apply ActivationLeaves.recorded loaded built raises.leaves
        rintro new launched ⟨raised, unreachable, escapes⟩
        have same := (raises_escapes launched.2 raises unreachable).mpr escapes
        rw [same, unreachable] at reached
        cases reached
    | untold loaded built returns =>
        apply ActivationLeaves.recorded loaded built returns.leaves
        rintro new launched ⟨raised, unreachable, escapes⟩
        exact returns_not_escapes launched.2 returns unreachable escapes
    | degraded loaded unreached leaves => exact fallback loaded unreached leaves

end Activation

theorem runLeaves_extends {service : RuntimeService} {reactions : Reactions} {request : RunRequest}
    {world final : World} (leaves : RunLeaves service reactions request world final) :
    ∃ events, final.trace = world.trace ++ events := by
  cases leaves with
  | untouched _ => exact ⟨[], by simp⟩
  | created _ _ adds => exact ⟨_, adds.trace⟩
  | ran _ _ ran =>
      obtain ⟨mid, _, adds, _, executed⟩ := ran
      obtain ⟨events, _, trace⟩ := executed.traced
      rw [adds.trace, List.append_assoc] at trace
      exact ⟨_, trace⟩

section Degraded

variable {service : ActivationService} {reactions : ActivationReactions}
  {installed : InstalledRevision} {world mid final : World}

/-- The events of the degraded path: its launch, if it gets as far. -/
theorem DegradedLeaves.events (leaves : DegradedLeaves service reactions installed mid final)
    (grown : ∃ events, mid.trace = world.trace ++ events) {event : Event} :
    event ∈ eventsSince world final ↔ event ∈ eventsSince world mid ∨
      Degrades service reactions installed ∧ event = degradedLaunch installed := by
  obtain ⟨events, grown⟩ := grown
  cases leaves with
  | idle unlaunched => simp [unlaunched]
  | launched degrades _ =>
      unfold eventsSince degradedWorld
      rw [grown, List.append_assoc, List.drop_left, List.drop_left]
      simp [degrades]

theorem DegradedLeaves.recorded_iff (leaves : DegradedLeaves service reactions installed mid final)
    (grown : ∃ events, mid.trace = world.trace ++ events) :
    LaunchedOn .recorded (eventsSince world final) ↔
      LaunchedOn .recorded (eventsSince world mid) := by
  unfold LaunchedOn
  simp only [leaves.events grown, degradedLaunch, Event.launched.injEq, reduceCtorEq, false_and,
    and_false, or_false]

theorem DegradedLeaves.degraded_iff (leaves : DegradedLeaves service reactions installed mid final)
    (grown : ∃ events, mid.trace = world.trace ++ events) :
    LaunchedOn .degraded (eventsSince world final) ↔
      LaunchedOn .degraded (eventsSince world mid) ∨ Degrades service reactions installed := by
  unfold LaunchedOn
  constructor
  · rintro ⟨request, controls, member⟩
    rcases (leaves.events grown).mp member with earlier | ⟨degrades, _⟩
    · exact .inl ⟨request, controls, earlier⟩
    · exact .inr degrades
  · rintro (⟨request, controls, earlier⟩ | degrades)
    · exact ⟨request, controls, (leaves.events grown).mpr (.inl earlier)⟩
    · exact ⟨_, _, (leaves.events grown).mpr (.inr ⟨degrades, rfl⟩)⟩

end Degraded

theorem eventsSince_self (world : World) : eventsSince world world = [] := List.drop_length

theorem not_launchedOn_self (path : LaunchPath) (world : World) :
    ¬ LaunchedOn path (eventsSince world world) := by
  rw [eventsSince_self]
  rintro ⟨_, _, member⟩
  cases member

section Main

variable (service : ActivationService) (reactions : ActivationReactions) (slug : Slug)
  (triggerSource : TriggerSource)

/-- An activation launches its work on both paths exactly when the recorded run gets as far as
its executor, an exception of the control plane leaves that run afterwards, and the degraded path
may execute. -/
theorem activate_launches_once_iff (world : World) :
    ¬ (LaunchedOn .recorded (eventsSince world
          (finalWorld (service.activate reactions slug triggerSource world))) ∧
        LaunchedOn .degraded (eventsSince world
          (finalWorld (service.activate reactions slug triggerSource world)))) ↔
      ¬ ∃ installed new, service.manifests slug = .ok installed ∧
        RecordedLaunches service reactions triggerSource installed world new ∧
        RecordedEscapes service reactions triggerSource installed new ∧
        Degrades service reactions installed := by
  have leaves := activate_leaves service reactions slug triggerSource world
  generalize finalWorld (service.activate reactions slug triggerSource world) = final at leaves ⊢
  apply not_congr
  cases leaves with
  | untouched idle =>
      apply iff_of_false
      · exact fun launched => not_launchedOn_self _ world launched.1
      · rintro ⟨installed, new, loaded, ⟨built, _⟩, _⟩
        exact idle installed loaded built
  | @recorded installed _ loaded built recorded reached =>
      apply iff_of_false
      · exact fun launched => not_degraded_of_leaves recorded launched.2
      · rintro ⟨installed', new, loaded', launched, escapes, _⟩
        rw [loaded] at loaded'
        cases loaded'
        exact reached new launched escapes
  | @unbuilt installed _ loaded unbuilt degraded =>
      apply iff_of_false
      · rintro ⟨launched, _⟩
        rw [degraded.recorded_iff ⟨[], by simp⟩] at launched
        exact not_launchedOn_self _ world launched
      · rintro ⟨_, _, _, ⟨built, _⟩, _⟩
        exact unbuilt built
  | @degraded installed mid _ loaded built recorded escapes degraded =>
      rw [degraded.recorded_iff (runLeaves_extends recorded), degraded.degraded_iff (runLeaves_extends recorded),
        launched_iff_of_leaves recorded]
      constructor
      · rintro ⟨⟨new, launched⟩, again⟩
        have degrades := again.resolve_left (not_degraded_of_leaves recorded)
        exact ⟨installed, new, loaded, ⟨built, launched⟩, escapes new ⟨built, launched⟩, degrades⟩
      · rintro ⟨installed', new, loaded', ⟨_, launched⟩, _, degrades⟩
        rw [loaded] at loaded'
        cases loaded'
        exact ⟨⟨new, launched⟩, .inr degrades⟩

end Main

namespace Backup

open TaskControl.Runtime.Backup

/-- The manifest of the published task. -/
def installed : InstalledRevision where
  taskId := taskId
  slug := task.slug
  revisionId := revisionId
  revisionNumber := revision.revisionNumber
  contentDigest := digest
  action := action
  controls := controls
  deployment := .default
  activationSchedule := none
  description := task.name

theorem installed_of_published : InstalledRevision.install task revision = .ok installed := rfl

def activation : ActivationService where
  manifests slug := if slug = task.slug then .ok installed
    else .error (.taskControl (notFoundError "No installed revision on this host."))
  registered := defaultRegistry
  runtime := service

/-- The answers of an activation whose run meets those of `run`; the degraded path would work. -/
def answers (run : Reactions) : ActivationReactions where
  runtimeFactory := .ok ()
  run := run
  executionId := ⟨8, later_bounded⟩
  startClock := .ok ⟨7⟩
  executor := .ok report
  endClock := .ok ⟨8⟩
  append := .none

end Backup

/-- The path on which an event launches the work. -/
def launchPath? : Event → Option LaunchPath
  | .launched path _ _ => some path
  | _ => none

theorem launchedOn_of_mem {path : LaunchPath} {events : List Event}
    (member : path ∈ events.filterMap launchPath?) : LaunchedOn path events := by
  obtain ⟨event, inEvents, isLaunch⟩ := List.mem_filterMap.mp member
  cases event with
  | launched path' request controls =>
      cases isLaunch
      exact ⟨request, controls, inEvents⟩
  | _ => cases isLaunch

/-- The script has run when the database is lost, and the degraded path runs it again. -/
theorem activate_launches_twice :
    LaunchedOn .recorded (eventsSince Runtime.Backup.world (finalWorld (Backup.activation.activate
        (Backup.answers Runtime.Backup.unreleased) Runtime.Backup.task.slug .schedule
        Runtime.Backup.world))) ∧
      LaunchedOn .degraded (eventsSince Runtime.Backup.world (finalWorld
        (Backup.activation.activate (Backup.answers Runtime.Backup.unreleased)
          Runtime.Backup.task.slug .schedule Runtime.Backup.world))) := by
  have launches : (eventsSince Runtime.Backup.world (finalWorld (Backup.activation.activate
      (Backup.answers Runtime.Backup.unreleased) Runtime.Backup.task.slug .schedule
      Runtime.Backup.world))).filterMap launchPath? = [.recorded, .degraded] := by
    decide +kernel
  constructor
  · apply launchedOn_of_mem
    rw [launches]
    decide
  · apply launchedOn_of_mem
    rw [launches]
    decide

section Main

variable (service : ActivationService) (reactions : ActivationReactions) (slug : Slug)
  (triggerSource : TriggerSource)

/-! ## What is installed and what runs -/

/-- The work that was launched is that of the installed revision, and so is the revision on
record for it: the row of the recorded run, the entries of the degraded one. -/
structure RunsInstalled (installed : InstalledRevision) (executionId : ExecutionId)
    (world final : World) : Prop where
  work : ∀ path request controls, .launched path request controls ∈ eventsSince world final →
    request.action = installed.action ∧ controls = installed.controls
  stored : LaunchedOn .recorded (eventsSince world final) →
    ∀ record, final.database.record? executionId = some record →
      record.revisionId = installed.revisionId
  journalled : ∀ entry ∈ final.journal.drop world.journal.length,
    entry.revisionId = installed.revisionId

/-- The revision that the database has for the task is the one of the manifest, as far as a run
uses it. -/
structure Agrees (installed : InstalledRevision) (revision : TaskRevision) : Prop where
  action : revision.action = installed.action
  controls : revision.controls = installed.controls
  revisionId : revision.revisionId = installed.revisionId

theorem runLeaves_journal {service : RuntimeService} {reactions : Reactions} {request : RunRequest}
    {world final : World} (leaves : RunLeaves service reactions request world final) :
    final.journal = world.journal := by
  cases leaves with
  | untouched _ => rfl
  | created _ _ adds => exact adds.journal
  | ran _ _ ran => exact ran.journal

/-- What the recorded path runs is what is installed exactly when the active revision that it
launches agrees with the manifest. -/
theorem runsInstalled_of_leaves {service : RuntimeService} {reactions : Reactions}
    {request : RunRequest} {world final : World} {installed : InstalledRevision}
    (leaves : RunLeaves service reactions request world final) :
    RunsInstalled installed reactions.executionId world final ↔
      ∀ new, RunLaunches service reactions request world new → Agrees installed new.revision := by
  have unwritten : ∀ entry ∈ final.journal.drop world.journal.length,
      entry.revisionId = installed.revisionId := by
    rw [runLeaves_journal leaves, List.drop_length]
    simp
  have launched := launched_iff_of_leaves leaves
  constructor
  · rintro ⟨work, stored, _⟩ new launches
    cases leaves with
    | untouched idle => exact absurd launches.2.2.1 (idle new launches.1)
    | created starts late adds => simp [late, RunLaunches] at launches
    | ran starts quiet ran =>
        have same := launches.1
        rw [starts] at same
        cases same
        obtain ⟨request', controls', member⟩ := launched.mpr ⟨new, launches⟩
        obtain ⟨record, found, revisionId, _⟩ := ran.row starts
        obtain ⟨events, traced, trace⟩ := ran.traced
        have ofWork := work _ _ _ member
        rw [trace] at member
        rcases List.mem_cons.mp member with impossible | member
        · cases impossible
        · obtain ⟨_, action, controls⟩ := launch_of_traced traced member
          exact ⟨action.symm.trans ofWork.1, controls.symm.trans ofWork.2,
            revisionId.symm.trans (stored (launched.mpr ⟨new, launches⟩) record found)⟩
  · intro agrees
    refine ⟨?_, ?_, unwritten⟩
    · intro path request' controls member
      obtain ⟨new, launches, action, same⟩ := launch_of_leaves leaves member
      have agreed := agrees new launches
      exact ⟨action.trans agreed.action, same.trans agreed.controls⟩
    · intro launchedNow record found
      obtain ⟨new, launches⟩ := launched.mp launchedNow
      cases leaves with
      | untouched idle => exact absurd launches.2.2.1 (idle new launches.1)
      | created starts late adds => simp [late, RunLaunches] at launches
      | ran starts quiet ran =>
          have same := launches.1
          rw [starts] at same
          cases same
          obtain ⟨record', found', revisionId, _⟩ := ran.row starts
          rw [found] at found'
          cases found'
          exact revisionId.trans (agrees _ launches).revisionId

/-- The degraded path runs and journals what is installed. -/
theorem DegradedLeaves.runsInstalled_iff {reactions : ActivationReactions}
    {service : ActivationService} {installed : InstalledRevision} {world mid final : World}
    {executionId : ExecutionId} (leaves : DegradedLeaves service reactions installed mid final)
    (grown : ∃ events, mid.trace = world.trace ++ events) (journal : mid.journal = world.journal) :
    RunsInstalled installed executionId world final ↔
      RunsInstalled installed executionId world mid := by
  have database : final.database = mid.database := by
    cases leaves <;> rfl
  have recorded := leaves.recorded_iff grown
  have written : ∀ entry ∈ final.journal.drop world.journal.length,
      entry.revisionId = installed.revisionId := by
    cases leaves with
    | idle _ =>
        rw [journal, List.drop_length]
        simp
    | launched _ named =>
        unfold degradedWorld
        rw [journal, List.drop_left]
        simpa using named
  have unwritten : ∀ entry ∈ mid.journal.drop world.journal.length,
      entry.revisionId = installed.revisionId := by
    rw [journal, List.drop_length]
    simp
  constructor
  · rintro ⟨work, stored, _⟩
    refine ⟨?_, ?_, unwritten⟩
    · intro path request controls member
      exact work path request controls ((leaves.events grown).mpr (.inl member))
    · rw [← recorded, ← database]
      exact stored
  · rintro ⟨work, stored, _⟩
    refine ⟨?_, ?_, written⟩
    · intro path request controls member
      rcases (leaves.events grown).mp member with earlier | ⟨_, launch⟩
      · exact work path request controls earlier
      · cases launch
        exact ⟨rfl, rfl⟩
    · rw [recorded, database]
      exact stored

theorem runsInstalled_self (installed : InstalledRevision) (executionId : ExecutionId)
    (world : World) : RunsInstalled installed executionId world world := by
  refine ⟨?_, fun launched => absurd launched (not_launchedOn_self _ world), ?_⟩
  · rw [eventsSince_self]
    simp
  · rw [List.drop_length]
    simp

/-- An activation runs what is installed exactly when its recorded path launches nothing or finds
the manifest's own revision active in the database. -/
theorem activate_runs_installed_iff (world : World) {installed : InstalledRevision}
    (loaded : service.manifests slug = .ok installed) :
    RunsInstalled installed reactions.run.executionId world
        (finalWorld (service.activate reactions slug triggerSource world)) ↔
      ∀ new, RecordedLaunches service reactions triggerSource installed world new →
        Agrees installed new.revision := by
  have leaves := activate_leaves service reactions slug triggerSource world
  generalize finalWorld (service.activate reactions slug triggerSource world) = final at leaves ⊢
  cases leaves with
  | untouched idle =>
      apply iff_of_true (runsInstalled_self installed _ world)
      rintro new ⟨built, _⟩
      exact absurd built (idle installed loaded)
  | recorded loaded' built recorded reached =>
      rw [loaded] at loaded'
      cases loaded'
      rw [runsInstalled_of_leaves recorded]
      exact forall_congr' fun new => ⟨fun agrees launched => agrees launched.2,
        fun agrees launched => agrees ⟨built, launched⟩⟩
  | unbuilt loaded' unbuilt degraded =>
      rw [loaded] at loaded'
      cases loaded'
      rw [degraded.runsInstalled_iff ⟨[], by simp⟩ rfl]
      apply iff_of_true (runsInstalled_self installed _ world)
      rintro new ⟨built, _⟩
      exact absurd built unbuilt
  | degraded loaded' built recorded escapes degraded =>
      rw [loaded] at loaded'
      cases loaded'
      rw [degraded.runsInstalled_iff (runLeaves_extends recorded) (runLeaves_journal recorded),
        runsInstalled_of_leaves recorded]
      exact forall_congr' fun new => ⟨fun agrees launched => agrees launched.2,
        fun agrees launched => agrees ⟨built, launched⟩⟩

end Main


namespace Backup

open TaskControl.Runtime.Backup

/-- A later revision, published and activated but not deployed to this host. -/
def later : TaskRevision :=
  { revision with
    revisionId := ⟨8, later_bounded⟩
    action := { action with outputCapture := .discard } }

def laterTask : Task :=
  { task with
    activeRevisionId := some later.revisionId
    runnable := fun _ => Option.some_ne_none later.revisionId }

def laterWorld : World :=
  { Runtime.Backup.world with
    database := { Runtime.Backup.world.database with
      tasks := fun asked => if asked = taskId then some laterTask else none
      revisions := fun asked => if asked = later.revisionId then some later else none } }

end Backup

theorem activate_runs_installed_quiet :
    RunsInstalled Backup.installed Runtime.Backup.executionId Runtime.Backup.world
      (finalWorld (Backup.activation.activate (Backup.answers Runtime.Backup.quiet)
        Runtime.Backup.task.slug .schedule Runtime.Backup.world)) := by
  refine (activate_runs_installed_iff Backup.activation (Backup.answers Runtime.Backup.quiet)
    Runtime.Backup.task.slug .schedule Runtime.Backup.world rfl).mpr ?_
  rintro new ⟨_, starts, _⟩
  have loaded := (start_new starts).1
  have active : RuntimeService.runnable Runtime.Backup.world.database Runtime.Backup.taskId =
      .ok (Runtime.Backup.task, Runtime.Backup.revision) := rfl
  have same : Runtime.Backup.revision = new.revision :=
    (Prod.mk.inj (Except.ok.inj (active.symm.trans loaded))).2
  rw [← same]
  exact ⟨rfl, rfl, rfl⟩

/-- The recorded path runs the revision that is active in the database, not the one installed. -/
theorem activate_runs_another_revision :
    ¬ RunsInstalled Backup.installed Runtime.Backup.executionId Backup.laterWorld
      (finalWorld (Backup.activation.activate (Backup.answers Runtime.Backup.quiet)
        Runtime.Backup.task.slug .schedule Backup.laterWorld)) := by
  intro runs
  have launched : LaunchedOn .recorded (eventsSince Backup.laterWorld
      (finalWorld (Backup.activation.activate (Backup.answers Runtime.Backup.quiet)
        Runtime.Backup.task.slug .schedule Backup.laterWorld))) := by
    apply launchedOn_of_mem
    decide +kernel
  have row : ((finalWorld (Backup.activation.activate (Backup.answers Runtime.Backup.quiet)
      Runtime.Backup.task.slug .schedule Backup.laterWorld)).database.record?
        Runtime.Backup.executionId).map ExecutionRecord.revisionId =
      some Backup.later.revisionId := by decide +kernel
  obtain ⟨record, found, revisionId⟩ := Option.map_eq_some_iff.mp row
  have installed := runs.stored launched record found
  rw [revisionId] at installed
  revert installed
  decide

end TaskControl.Activation
