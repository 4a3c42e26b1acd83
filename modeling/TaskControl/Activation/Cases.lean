import TaskControl.Activation.Service

/-!
# How an activation ends

The degraded path and the whole activation, each in terms of its answers: what it
returns or raises, and the world it leaves.
-/

set_option autoImplicit false

namespace TaskControl.Activation

open PythonText Effects Persistence TaskControl.Runtime

section Degraded

variable (service : ActivationService) (reactions : ActivationReactions)
  (installed : InstalledRevision) (triggerSource : TriggerSource)

/-- The degraded path gets as far as its executor. -/
structure Degrades : Prop where
  executes : installed.activationPolicy.executesWithoutControlState = true
  resolvable : installed.requiresUnresolvableSecrets = false
  started : ∃ moment, reactions.startClock = .ok moment
  registered : installed.action.executorType ∈ service.registered

/-- The outcome of the degraded run, if its executor and the clock after it answer. -/
def degradedOutcome : Option ExecutionOutcome :=
  match reactions.executor, reactions.endClock with
  | .ok report, .ok _ => some (classifyReport report.result).outcome
  | _, _ => none

/-- The request that the degraded path gives its executor. -/
def degradedRequest : ExecutionRequest :=
  RuntimeService.requestFor installed.action installed.action.literalEnvironment installed.controls

def degradedLaunch : Event := .launched .degraded (degradedRequest installed) installed.controls

/-- The world after the degraded path has launched, and perhaps written its entry. -/
def degradedWorld (entry : Option JournalEntry) (world : World) : World :=
  { world with
    journal := world.journal ++ entry.toList
    trace := world.trace ++ [degradedLaunch installed] }

/-- How the degraded path returns. -/
inductive DegradedReturns (world : World) : ActivationResult → World → Prop
  | strict (declines : installed.activationPolicy.executesWithoutControlState = false) :
      DegradedReturns world (declined (strictExplanation installed)) world
  | secrets (needs : installed.requiresUnresolvableSecrets = true) :
      DegradedReturns world (declined (secretsExplanation installed)) world
  | journalled {entry : JournalEntry} (degrades : Degrades service reactions installed)
      (concluded : degradedOutcome reactions = some entry.outcome)
      (written : reactions.append = .none) (named : entry.revisionId = installed.revisionId) :
      DegradedReturns world
        ⟨exitFor entry.outcome, some entry.outcome, true, true, entry.explanation⟩
        (degradedWorld installed (some entry) world)
  | unrecorded {entry : JournalEntry} {raised : Raised}
      (degrades : Degrades service reactions installed)
      (concluded : degradedOutcome reactions = some entry.outcome)
      (failed : reactions.append.raised = .error raised) (transient : isTransient raised = true)
      (named : entry.revisionId = installed.revisionId) :
      DegradedReturns world
        ⟨exitUnrecorded, some entry.outcome, true, false, unrecordedExplanation installed⟩
        (degradedWorld installed (if reactions.append.commits then some entry else none) world)

/-- What the degraded path leaves behind: nothing, or its launch and perhaps its entry. -/
inductive DegradedLeaves (world : World) : World → Prop
  | idle (unlaunched : ¬ Degrades service reactions installed) : DegradedLeaves world world
  | launched {entry : Option JournalEntry} (degrades : Degrades service reactions installed)
      (named : ∀ written ∈ entry, written.revisionId = installed.revisionId) :
      DegradedLeaves world (degradedWorld installed entry world)

variable {service reactions installed} in
theorem DegradedReturns.leaves {world world' : World} {activation : ActivationResult}
    (returns : DegradedReturns service reactions installed world activation world') :
    DegradedLeaves service reactions installed world world' := by
  cases returns with
  | strict declines =>
      apply DegradedLeaves.idle
      intro degrades
      simp [degrades.executes] at declines
  | secrets needs =>
      apply DegradedLeaves.idle
      intro degrades
      simp [degrades.resolvable] at needs
  | journalled degrades _ _ named =>
      apply DegradedLeaves.launched degrades
      intro written member
      cases member
      exact named
  | unrecorded degrades _ _ _ named =>
      apply DegradedLeaves.launched degrades
      intro written member
      split at member
      · cases member
        exact named
      · cases member

theorem append_ends (fault : Fault) (entry : JournalEntry) (world : World) :
    Ends (append fault entry) world
      (fun _ world' => fault = .none ∧ world' = { world with journal := world.journal ++ [entry] })
      (fun raised world' => fault.raised = .error raised ∧ world' =
        { world with journal := world.journal ++ (if fault.commits then [entry] else []) }) := by
  unfold append
  cases fault with
  | none => exact ⟨rfl, rfl⟩
  | before error =>
      refine ⟨rfl, ?_⟩
      change world = { world with journal := world.journal ++ [] }
      rw [List.append_nil]
  | after error => exact ⟨rfl, rfl⟩

theorem runAndJournal_ends (executes : installed.activationPolicy.executesWithoutControlState = true)
    (resolvable : installed.requiresUnresolvableSecrets = false) (world : World) :
    Ends (service.runAndJournal reactions installed triggerSource) world
      (DegradedReturns service reactions installed world)
      (fun _ world' => DegradedLeaves service reactions installed world world') := by
  unfold ActivationService.runAndJournal
  refine Ends.bind ((answer_ends reactions.startClock world).mono ?_ ?_)
  · rintro startedAt world ⟨started, rfl⟩
    refine Ends.bind ((domain_ends _ world).mono ?_ ?_)
    · rintro _ world ⟨found, rfl⟩
      have registered : installed.action.executorType ∈ service.registered := by
        unfold ActivationService.executorFor at found
        by_contra missing
        rw [if_neg missing] at found
        cases found
      have degrades : Degrades service reactions installed :=
        ⟨executes, resolvable, ⟨startedAt, started⟩, registered⟩
      unfold RuntimeService.launch
      refine Ends.bind (Ends.bind (ends_modify ((answer_ends reactions.executor _).mono ?_ ?_)))
      · rintro report _ ⟨reported, rfl⟩
        refine Ends.bind ((answer_ends reactions.endClock _).mono ?_ ?_)
        · rintro finishedAt _ ⟨ended, rfl⟩
          have concluded : degradedOutcome reactions =
              some (classifyReport report.result).outcome := by
            unfold degradedOutcome
            rw [reported, ended]
          refine Ends.handle (Ends.bind ((append_ends reactions.append _ _).mono ?_ ?_))
          · rintro _ world' ⟨written, rfl⟩
            exact ends_pure (.journalled degrades concluded written rfl)
          · rintro raised world' ⟨failed, rfl⟩
            have left : ∀ entry, { world with
                journal := world.journal ++ (if reactions.append.commits then [entry] else [])
                trace := world.trace ++ [degradedLaunch installed] } =
                degradedWorld installed (if reactions.append.commits then some entry else none)
                  world := by
              intro entry
              unfold degradedWorld
              split <;> rfl
            by_cases transient : isTransient raised = true
            · rw [if_pos transient]
              refine ends_pure ?_
              have returns := @DegradedReturns.unrecorded service reactions installed world
                (entryFor installed triggerSource reactions.executionId startedAt finishedAt
                  report.result) raised degrades concluded failed transient rfl
              rw [← left] at returns
              exact returns
            · rw [if_neg transient]
              refine ends_throw ?_
              have raises := @DegradedLeaves.launched service reactions installed world
                (if reactions.append.commits then some (entryFor installed triggerSource
                  reactions.executionId startedAt finishedAt report.result) else none) degrades
                (by split <;> simp [entryFor])
              rw [← left] at raises
              exact raises
        · rintro raised _ ⟨_, rfl⟩
          have raises := @DegradedLeaves.launched service reactions installed world none degrades
            (by simp)
          unfold degradedWorld at raises
          rw [Option.toList_none, List.append_nil] at raises
          exact raises
      · rintro raised _ ⟨_, rfl⟩
        have raises := @DegradedLeaves.launched service reactions installed world none degrades
            (by simp)
        unfold degradedWorld at raises
        rw [Option.toList_none, List.append_nil] at raises
        exact raises
    · rintro raised world ⟨error, refused, _, rfl⟩
      refine .idle ?_
      rintro ⟨_, _, _, registered⟩
      unfold ActivationService.executorFor at refused
      rw [if_pos registered] at refused
      cases refused
  · rintro raised world ⟨struck, rfl⟩
    refine .idle ?_
    rintro ⟨_, _, ⟨moment, read⟩, _⟩
    rw [struck] at read
    cases read

theorem activateDegraded_ends (world : World) :
    Ends (service.activateDegraded reactions installed triggerSource) world
      (DegradedReturns service reactions installed world)
      (fun _ world' => DegradedLeaves service reactions installed world world') := by
  unfold ActivationService.activateDegraded
  cases executes : installed.activationPolicy.executesWithoutControlState with
  | false =>
      rw [if_pos (by simp)]
      exact ends_pure (.strict executes)
  | true =>
      rw [if_neg (by simp)]
      cases needs : installed.requiresUnresolvableSecrets with
      | true =>
          rw [if_pos rfl]
          exact ends_pure (.secrets needs)
      | false =>
          rw [if_neg (by simp)]
          exact runAndJournal_ends service reactions installed triggerSource executes needs world

end Degraded

/-! ## The whole activation -/

section Activation

variable (service : ActivationService) (reactions : ActivationReactions) (slug : Slug)
  (triggerSource : TriggerSource)

/-- The control plane could not be reached, and this is what the recorded path left. -/
def Unreached (installed : InstalledRevision) (world mid : World) : Prop :=
  ∃ raised, isUnreachable raised = true ∧
    ((reactions.runtimeFactory = .error raised ∧ mid = world) ∨
      (reactions.runtimeFactory = .ok () ∧ RunRaises service.runtime reactions.run
        (ActivationService.runRequest installed triggerSource) world raised mid))

/-- How an activation returns. -/
inductive ActivationReturns (world : World) : ActivationResult → World → Prop
  | recorded {installed : InstalledRevision} {result : RunResult} {activation : ActivationResult}
      {world' : World} (loaded : service.manifests slug = .ok installed)
      (built : reactions.runtimeFactory = .ok ())
      (returns : RunReturns service.runtime reactions.run
        (ActivationService.runRequest installed triggerSource) world result world')
      (told : recordedResult result = .ok activation) : ActivationReturns world activation world'
  | degraded {installed : InstalledRevision} {activation : ActivationResult} {mid world' : World}
      (loaded : service.manifests slug = .ok installed)
      (unreached : Unreached service reactions triggerSource installed world mid)
      (returns : DegradedReturns service reactions installed mid activation world') :
      ActivationReturns world activation world'

/-- How an activation raises. -/
inductive ActivationRaises (world : World) : World → Prop
  | unloaded {raised : Raised} (refused : service.manifests slug = .error raised) :
      ActivationRaises world world
  | unbuilt {installed : InstalledRevision} {raised : Raised}
      (loaded : service.manifests slug = .ok installed)
      (failed : reactions.runtimeFactory = .error raised) (reached : isUnreachable raised = false) :
      ActivationRaises world world
  | recorded {installed : InstalledRevision} {raised : Raised} {world' : World}
      (loaded : service.manifests slug = .ok installed)
      (built : reactions.runtimeFactory = .ok ())
      (raises : RunRaises service.runtime reactions.run
        (ActivationService.runRequest installed triggerSource) world raised world')
      (reached : isUnreachable raised = false) : ActivationRaises world world'
  | untold {installed : InstalledRevision} {result : RunResult} {world' : World}
      (loaded : service.manifests slug = .ok installed)
      (built : reactions.runtimeFactory = .ok ())
      (returns : RunReturns service.runtime reactions.run
        (ActivationService.runRequest installed triggerSource) world result world') :
      ActivationRaises world world'
  | degraded {installed : InstalledRevision} {mid world' : World}
      (loaded : service.manifests slug = .ok installed)
      (unreached : Unreached service reactions triggerSource installed world mid)
      (raises : DegradedLeaves service reactions installed mid world') :
      ActivationRaises world world'

/-- An activation returns and raises only in these ways. -/
theorem activate_ends (world : World) :
    Ends (service.activate reactions slug triggerSource) world
      (ActivationReturns service reactions slug triggerSource world)
      (fun _ world' => ActivationRaises service reactions slug triggerSource world world') := by
  unfold ActivationService.activate
  refine Ends.bind ((answer_ends (service.manifests slug) world).mono ?_ ?_)
  · rintro installed world ⟨loaded, rfl⟩
    have fallback : ∀ {mid : World},
        Unreached service reactions triggerSource installed world mid →
        Ends (service.activateDegraded reactions installed triggerSource) mid
          (ActivationReturns service reactions slug triggerSource world)
          (fun _ world' => ActivationRaises service reactions slug triggerSource world world') := by
      intro mid unreached
      refine (activateDegraded_ends service reactions installed triggerSource mid).mono ?_ ?_
      · intro activation world' returns
        exact .degraded loaded unreached returns
      · intro _ world' raises
        exact .degraded loaded unreached raises
    unfold ActivationService.tryRecorded
    refine Ends.bind (Ends.handle (Ends.bind ((answer_ends reactions.runtimeFactory world).mono
      ?_ ?_)))
    · rintro _ world ⟨built, rfl⟩
      refine Ends.bind ((run_ends service.runtime reactions.run
        (ActivationService.runRequest installed triggerSource) world).mono ?_ ?_)
      · intro result world' returns
        refine ends_pure ((answer_ends (recordedResult result) world').mono ?_ ?_)
        · rintro activation world' ⟨told, rfl⟩
          exact .recorded loaded built returns told
        · rintro raised world' ⟨_, rfl⟩
          exact .untold loaded built returns
      · intro raised mid raises
        by_cases unreachable : isUnreachable raised = true
        · rw [if_pos unreachable]
          exact ends_pure (fallback ⟨raised, unreachable, .inr ⟨built, raises⟩⟩)
        · rw [if_neg unreachable]
          exact ends_throw (.recorded loaded built raises (by simpa using unreachable))
    · rintro raised world ⟨failed, rfl⟩
      by_cases unreachable : isUnreachable raised = true
      · rw [if_pos unreachable]
        exact ends_pure (fallback ⟨raised, unreachable, .inl ⟨failed, rfl⟩⟩)
      · rw [if_neg unreachable]
        exact ends_throw (.unbuilt loaded failed (by simpa using unreachable))
  · rintro raised world ⟨refused, rfl⟩
    exact .unloaded refused

end Activation

end TaskControl.Activation
