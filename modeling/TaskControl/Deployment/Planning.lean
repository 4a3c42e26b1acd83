import TaskControl.Cron.Ambiguity
import TaskControl.Cron.Convergence
import TaskControl.Deployment.Collection

/-!
# Planning the estate

`DeploymentService.plan` collects the artefacts of all active tasks and plans them
together.  A revision is published without a schedule under any strategy, and its
task is collected like the others; the renderer then refuses it, and with it the
whole plan.
-/

set_option autoImplicit false

namespace TaskControl.Deployment

open PythonText Effects Cron

/-! ## The plan of a quiet estate -/

/-- Nothing is committed while the estate is collected. -/
def steadily (state : CommittedState) : History := ⟨fun _ => state, fun _ _ _ _ held => held⟩

/-- `DeploymentService.plan`. -/
def DeploymentService.plan (service : DeploymentService) (history : History) (fuel : Nat)
    (layout : CronLayout) (host : Host) : Except TaskControlError (Option DeploymentPlan) := do
  match ← service.desiredArtefacts history fuel with
  | none => return none
  | some (artefacts, _) => some <$> Cron.plan layout host artefacts

/-- The revision that the task runs. -/
def publishedRevision (state : CommittedState) (task : Task) : Option TaskRevision :=
  task.activeRevisionId.bind state.revisions

/-- The revision says when it runs, or its directory does. -/
def Schedulable (revision : TaskRevision) : Prop :=
  revision.activationSchedule ≠ none ∨
    revision.deployment.strategy.carriesItsOwnSchedule = false

instance (revision : TaskRevision) : Decidable (Schedulable revision) :=
  inferInstanceAs (Decidable (_ ∨ _))

/-- Every deployment target has a store on this host. -/
structure AllConfigured (layout : CronLayout) : Prop where
  crontabs : ∀ c, (layout.crontabDescription c).isSome = true
  directories : ∀ d, (layout.directoryDescription d).isSome = true

/-- A host whose texts have no marker, and no file that is named like an active task's slug. -/
structure Unmanaged (host : Host) (state : CommittedState) : Prop where
  regions : ∀ c, findManagedRegions (host.readCrontab c) = .ok []
  members : ∀ c, findBlockMembers (host.readCrontab c) = .ok []
  files : ∀ d, ∀ name ∈ (host.directory d).names, plainName name = true ∧
    findManagedRegions (host.readFile d name) = .ok []
  fresh : ∀ d, ∀ task ∈ state.tasks, task.lifecycleState = .active →
    task.slug.value ∉ (host.directory d).names

/-- What the plan has for a task. -/
def planned (deployment : DeploymentPlan) (taskId : TaskId) : List (Option DesiredArtefact) :=
  (deployment.filter fun entry => entry.taskId = taskId).map PlanEntry.artefact

/-- There is a plan, with the artefact of each active task that has something to schedule, and
nothing for the others. -/
def PlansEach (service : DeploymentService) (state : CommittedState) (fuel : Nat)
    (layout : CronLayout) (host : Host) : Prop :=
  ∃ deployment, service.plan (steadily state) fuel layout host = .ok (some deployment) ∧
    ∀ task ∈ state.tasks, task.lifecycleState = .active → ∀ revision,
      publishedRevision state task = some revision →
      (Schedulable revision → ∃ artefact, service.artefactFrom task revision = .ok artefact ∧
        planned deployment task.taskId = [some artefact]) ∧
      (¬ Schedulable revision → planned deployment task.taskId = [])

/-! ## What a task contributes -/

section Collecting

variable {service : DeploymentService} {state : CommittedState}

/-- The artefact of a task, if it has a stored revision that can be deployed under its slug. -/
def contribution (service : DeploymentService) (state : CommittedState) (task : Task) :
    Option DesiredArtefact :=
  (publishedRevision state task).bind fun revision =>
    (service.artefactFrom task revision).toOption

/-- The task's slug can be the name that its revision's strategy needs. -/
def NameFits (state : CommittedState) (task : Task) : Prop :=
  ∀ revision, publishedRevision state task = some revision →
    assertDeployableFor revision.deployment task.slug = .ok ()

theorem artefactFrom_isOk_iff {task : Task} {revision : TaskRevision} :
    (∃ artefact, service.artefactFrom task revision = .ok artefact) ↔
      assertDeployableFor revision.deployment task.slug = .ok () := by
  unfold DeploymentService.artefactFrom
  cases assertDeployableFor revision.deployment task.slug with
  | error problem => simp [bind, Except.bind]
  | ok _ => simp [bind, Except.bind, pure, Except.pure]

/-- The fields of an artefact that come from the task and its revision as they are. -/
structure BuiltFrom (task : Task) (revision : TaskRevision) (artefact : DesiredArtefact) :
    Prop where
  taskId : artefact.taskId = task.taskId
  slug : artefact.slug = task.slug.value
  deployment : artefact.deployment = revision.deployment
  schedule : artefact.schedule = revision.activationSchedule.map CronExpression.expression

theorem artefactFrom_built {task : Task} {revision : TaskRevision} {artefact : DesiredArtefact}
    (built : service.artefactFrom task revision = .ok artefact) :
    BuiltFrom task revision artefact := by
  obtain ⟨_, _, returned⟩ := except_bind_eq_ok.mp built
  obtain rfl := Except.ok.inj returned
  exact ⟨rfl, rfl, rfl, rfl⟩

theorem contribution_built {task : Task} {artefact : DesiredArtefact}
    (made : contribution service state task = some artefact) :
    ∃ revision, publishedRevision state task = some revision ∧
      service.artefactFrom task revision = .ok artefact := by
  obtain ⟨revision, stored, made⟩ := Option.bind_eq_some_iff.mp made
  refine ⟨revision, stored, ?_⟩
  cases built : service.artefactFrom task revision with
  | error problem =>
      rw [built] at made
      cases made
  | ok other =>
      rw [built] at made
      rw [Option.some.inj made]

theorem contribution_taskId {task : Task} {artefact : DesiredArtefact}
    (made : contribution service state task = some artefact) : artefact.taskId = task.taskId := by
  obtain ⟨revision, _, built⟩ := contribution_built made
  exact (artefactFrom_built built).taskId

/-- A task's artefact can be built exactly if its name fits, and then it is its contribution. -/
theorem artefactFor_steadily (task : Task) (statement : Nat) :
    (∃ made next, service.artefactFor (steadily state) task statement = .ok (made, next)) ↔
      NameFits state task := by
  unfold DeploymentService.artefactFor NameFits publishedRevision
  cases active : task.activeRevisionId with
  | none => simp
  | some revisionId =>
      cases stored : state.revisions revisionId with
      | none => simp [steadily, stored]
      | some revision =>
          simp only [steadily, stored, Option.bind_some, Option.some.injEq, forall_eq',
            ← @artefactFrom_isOk_iff service]
          cases service.artefactFrom task revision with
          | error problem => simp [bind, Except.bind]
          | ok artefact => simp [bind, Except.bind, pure, Except.pure]

theorem artefactFor_contribution {task : Task} {statement next : Nat}
    {made : Option DesiredArtefact}
    (built : service.artefactFor (steadily state) task statement = .ok (made, next)) :
    made = contribution service state task := by
  unfold DeploymentService.artefactFor at built
  unfold contribution publishedRevision
  cases active : task.activeRevisionId with
  | none =>
      rw [active] at built
      cases built
      rfl
  | some revisionId =>
      rw [active] at built
      cases stored : state.revisions revisionId with
      | none =>
          simp only [steadily, stored] at built
          cases built
          simp [stored]
      | some revision =>
          simp only [steadily, stored] at built
          obtain ⟨artefact, one, returned⟩ := except_bind_eq_ok.mp built
          cases returned
          simp [stored, one, Except.toOption]

theorem artefactsOf_steadily (page : List Task) :
    ∀ statement, (∃ own next, service.artefactsOf (steadily state) page statement =
      .ok (own, next)) ↔ ∀ task ∈ page, NameFits state task := by
  induction page with
  | nil => exact fun statement => ⟨fun _ => List.forall_mem_nil _, fun _ => ⟨[], statement, rfl⟩⟩
  | cons task rest ih =>
      intro statement
      rw [List.forall_mem_cons, ← @artefactFor_steadily service state task statement]
      constructor
      · rintro ⟨own, next, built⟩
        obtain ⟨⟨made, mid⟩, one, built⟩ := except_bind_eq_ok.mp built
        obtain ⟨⟨others, last⟩, later, _⟩ := except_bind_eq_ok.mp built
        exact ⟨⟨made, mid, one⟩, (ih mid).mp ⟨others, last, later⟩⟩
      · rintro ⟨⟨made, mid, one⟩, fits⟩
        obtain ⟨others, last, later⟩ := (ih mid).mpr fits
        refine ⟨made.toList ++ others, last, except_bind_eq_ok.mpr ⟨_, one, ?_⟩⟩
        exact except_bind_eq_ok.mpr ⟨_, later, rfl⟩

theorem artefactsOf_contributions (page : List Task) :
    ∀ {statement next : Nat} {own : List DesiredArtefact},
      service.artefactsOf (steadily state) page statement = .ok (own, next) →
        own = page.filterMap (contribution service state) := by
  induction page with
  | nil =>
      intro statement next own built
      cases built
      rfl
  | cons task rest ih =>
      intro statement next own built
      obtain ⟨⟨made, mid⟩, one, built⟩ := except_bind_eq_ok.mp built
      obtain ⟨⟨others, last⟩, later, returned⟩ := except_bind_eq_ok.mp built
      cases returned
      rw [artefactFor_contribution one, ih later, List.filterMap_cons]
      cases contribution service state task <;> rfl

/-- The tasks that are still to be collected. -/
def remaining (state : CommittedState) (offset : Nat) : List Task :=
  (selected state [.active]).drop offset

theorem page_remaining (state : CommittedState) (offset : Nat) :
    listTasks state [.active] pageSize offset = (remaining state offset).take pageSize := rfl

theorem remaining_split {state : CommittedState} {offset : Nat} :
    remaining state offset = listTasks state [.active] pageSize offset ++
      remaining state (offset + (listTasks state [.active] pageSize offset).length) := by
  have cut := (List.take_append_drop pageSize (remaining state offset)).symm
  rw [page_remaining]
  by_cases short : (remaining state offset).length ≤ pageSize
  · have none_ : remaining state (offset + (remaining state offset).length) = [] := by
      unfold remaining
      rw [List.drop_eq_nil_iff, List.length_drop]
      omega
    rw [List.take_of_length_le short, none_, List.append_nil]
  · rw [List.length_take, Nat.min_eq_left (by omega)]
    unfold remaining at cut ⊢
    rwa [List.drop_drop] at cut

/-- By induction on the pages. -/
theorem collect_steadily (fuel : Nat) :
    ∀ offset statement, (remaining state offset).length < fuel →
      ((∃ made last, service.collect (steadily state) fuel offset statement =
        .ok (some (made, last))) ↔ ∀ task ∈ remaining state offset, NameFits state task) := by
  induction fuel with
  | zero =>
      intro offset statement enough
      omega
  | succ fuel ih =>
      intro offset statement enough
      have split_ := @remaining_split state offset
      have here : (steadily state).at_ statement = state := rfl
      rw [DeploymentService.collect, here]
      cases page : listTasks state [.active] pageSize offset with
      | nil =>
          have empty : remaining state offset = [] := by
            rw [page_remaining, List.take_eq_nil_iff] at page
            exact page.resolve_left (by decide)
          rw [empty]
          exact ⟨fun _ => List.forall_mem_nil _, fun _ => ⟨[], statement, rfl⟩⟩
      | cons task rest =>
          rw [page] at split_
          have size := congrArg List.length split_
          have some_ : 0 < (task :: rest).length := Nat.succ_pos _
          rw [List.length_append] at size
          have later := ih (offset + (task :: rest).length)
          rw [split_, List.forall_mem_append, ← artefactsOf_steadily (task :: rest) (statement + 1)]
          constructor
          · rintro ⟨made, last, collected⟩
            obtain ⟨⟨own, next⟩, built, collected⟩ := except_bind_eq_ok.mp collected
            obtain ⟨found, further, collected⟩ := except_bind_eq_ok.mp collected
            cases found with
            | none => cases collected
            | some reached =>
                exact ⟨⟨own, next, built⟩, (later next (by omega)).mp ⟨_, _, further⟩⟩
          · rintro ⟨⟨own, next, built⟩, fits⟩
            obtain ⟨made, last, further⟩ := (later next (by omega)).mpr fits
            refine ⟨own ++ made, last, except_bind_eq_ok.mpr ⟨_, built, ?_⟩⟩
            exact except_bind_eq_ok.mpr ⟨_, further, rfl⟩

theorem collect_contributions (fuel : Nat) :
    ∀ {offset statement last : Nat} {made : List DesiredArtefact},
      service.collect (steadily state) fuel offset statement = .ok (some (made, last)) →
        made = (remaining state offset).filterMap (contribution service state) := by
  induction fuel with
  | zero =>
      intro offset statement last made collected
      cases collected
  | succ fuel ih =>
      intro offset statement last made collected
      obtain ⟨empty, rfl, _⟩ | ⟨rows, own, later, size, rfl, built, further, _⟩ :=
        collect_succ collected
      · change listTasks state [.active] pageSize offset = [] at empty
        rw [page_remaining, List.take_eq_nil_iff] at empty
        rw [empty.resolve_left (by decide)]
        rfl
      · change (listTasks state [.active] pageSize offset).length = rows at size
        rw [remaining_split, List.filterMap_append, size, ← ih further,
          artefactsOf_contributions _ built]
        rfl

/-- What is collected is collected from tasks with slugs that fit. -/
theorem collect_fits (fuel : Nat) :
    ∀ {offset statement last : Nat} {made : List DesiredArtefact},
      service.collect (steadily state) fuel offset statement = .ok (some (made, last)) →
        ∀ task ∈ remaining state offset, NameFits state task := by
  induction fuel with
  | zero =>
      intro offset statement last made collected
      cases collected
  | succ fuel ih =>
      intro offset statement last made collected
      obtain ⟨empty, rfl, _⟩ | ⟨rows, own, later, size, rfl, built, further, _⟩ :=
        collect_succ collected
      · change listTasks state [.active] pageSize offset = [] at empty
        rw [page_remaining, List.take_eq_nil_iff] at empty
        rw [empty.resolve_left (by decide)]
        exact List.forall_mem_nil _
      · change (listTasks state [.active] pageSize offset).length = rows at size
        rw [remaining_split, List.forall_mem_append, size]
        exact ⟨(artefactsOf_steadily _ _).mp ⟨_, _, built⟩, ih further⟩

/-- Each task contributes once. -/
theorem filter_contributions {tasks : List Task} (distinct : (tasks.map Task.taskId).Nodup)
    {task : Task} (member : task ∈ tasks) :
    (tasks.filterMap (contribution service state)).filter
      (fun artefact => artefact.taskId = task.taskId) =
        (contribution service state task).toList := by
  have others (rest : List Task) (absent : task.taskId ∉ rest.map Task.taskId) :
      (rest.filterMap (contribution service state)).filter
        (fun artefact => artefact.taskId = task.taskId) = [] := by
    rw [List.filter_eq_nil_iff]
    intro artefact made same
    obtain ⟨other, inRest, made⟩ := List.mem_filterMap.mp made
    apply absent
    rw [← decide_eq_true_eq.mp same, contribution_taskId made]
    exact List.mem_map_of_mem inRest
  induction tasks with
  | nil => cases member
  | cons first rest ih =>
      rw [List.map_cons, List.nodup_cons] at distinct
      rcases List.mem_cons.mp member with rfl | inRest
      · cases own : contribution service state task with
        | none =>
            rw [List.filterMap_cons_none own, others rest distinct.1]
            rfl
        | some artefact =>
            have mine := contribution_taskId own
            rw [List.filterMap_cons_some own, List.filter_cons_of_pos (by simp [mine]),
              others rest distinct.1]
            rfl
      · have apart : first.taskId ≠ task.taskId := fun same =>
          distinct.1 (same ▸ List.mem_map_of_mem inRest)
        have later := ih distinct.2 inRest
        cases own : contribution service state first with
        | none => rw [List.filterMap_cons_none own, later]
        | some artefact =>
            have theirs := contribution_taskId own
            rw [List.filterMap_cons_some own, List.filter_cons_of_neg (by simp [theirs, apart]),
              later]

end Collecting

/-! ## What is planned for it -/

section Planning

variable {service : DeploymentService} {state : CommittedState} {layout : CronLayout} {host : Host}

theorem expression_ne_nil (cron : CronExpression) : cron.expression ≠ [] := by
  intro none_
  have five := cron.normal.1
  rw [none_] at five
  cases five

theorem crontabEntry_isOk_iff {artefact : DesiredArtefact} :
    (∃ entry, crontabEntry artefact = .ok entry) ↔
      ∃ c rest, artefact.schedule = some (c :: rest) := by
  unfold crontabEntry requireSchedule
  split
  · next c rest scheduled => simp [scheduled, bind, Except.bind, pure, Except.pure]; split <;> simp
  · next unscheduled =>
      constructor
      · rintro ⟨entry, returned⟩
        cases returned
      · rintro ⟨c, rest, scheduled⟩
        exact absurd scheduled (unscheduled c rest)

/-- An artefact is rendered exactly if its revision has something to schedule. -/
theorem render_isOk_iff {task : Task} {revision : TaskRevision} {artefact : DesiredArtefact}
    (built : service.artefactFrom task revision = .ok artefact) :
    (∃ text, renderArtefact artefact = .ok text) ↔ Schedulable revision := by
  obtain ⟨_, _, deployment, schedule⟩ := artefactFrom_built built
  have scheduled : (∃ entry, crontabEntry artefact = .ok entry) ↔
      revision.activationSchedule ≠ none := by
    rw [crontabEntry_isOk_iff, schedule]
    cases revision.activationSchedule with
    | none => simp
    | some cron =>
        obtain ⟨c, rest, shape⟩ := List.exists_cons_of_ne_nil (expression_ne_nil cron)
        simp [shape]
  have kept (lines : Text → List Text) : (∃ text, joinLines <$> (do
      let entry ← crontabEntry artefact
      return lines entry : Except TaskControlError (List Text)) = .ok text) ↔
        ∃ entry, crontabEntry artefact = .ok entry := by
    cases crontabEntry artefact with
    | error problem => simp [bind, Except.bind, Functor.map, Except.map]
    | ok entry => simp [bind, Except.bind, pure, Except.pure, Functor.map, Except.map]
  unfold renderArtefact Schedulable
  rw [deployment]
  cases strategy : revision.deployment.strategy with
  | runPartsDirectory =>
      have none_ : revision.activationSchedule = none := by
        by_contra some_
        have carries := revision.scheduleRead some_
        rw [strategy] at carries
        cases carries
      rw [none_] at schedule
      simp only [DeploymentStrategy.carriesItsOwnSchedule, renderRunPartsScript,
        runPartsScriptLines, schedule, Option.map_none]
      simp [Functor.map, Except.map]
  | cronDFile =>
      have own := kept fun entry => beginMarker artefact :: generatedNotice ::
        descriptionComment artefact ++ [entry, endMarker artefact.slug]
      rw [scheduled] at own
      exact own.trans (or_iff_left (by decide)).symm
  | crontabBlockPerTask =>
      have own := kept fun entry => beginMarker artefact :: descriptionComment artefact ++
        [entry, endMarker artefact.slug]
      rw [scheduled] at own
      exact own.trans (or_iff_left (by decide)).symm
  | crontabSingleBlock =>
      have own := kept fun entry => memberMarker artefact :: descriptionComment artefact ++ [entry]
      rw [scheduled] at own
      exact own.trans (or_iff_left (by decide)).symm

/-- Where every target is configured, every artefact has a place. -/
theorem placement_configured (configured : AllConfigured layout) (artefact : DesiredArtefact) :
    ∃ place, placement layout artefact = some place := by
  have crontabs := configured.crontabs
  have directories := configured.directories
  have permitted := artefact.deployment.permitted
  unfold placement
  cases strategy : artefact.deployment.strategy with
  | runPartsDirectory =>
      obtain ⟨classification, classified⟩ :=
        Option.ne_none_iff_exists'.mp (artefact.deployment.classified strategy)
      rw [strategy] at permitted
      rw [List.mem_singleton.mp permitted, classified]
      have described := directories (.runParts classification)
      simp [DeploymentStrategy.writesAFilePerTask, CronLayout.directoryFor, described]
  | cronDFile =>
      rw [strategy] at permitted
      rw [List.mem_singleton.mp permitted]
      have described : layout.cronD.isSome = true := directories .cronD
      simp [DeploymentStrategy.writesAFilePerTask, CronLayout.directoryFor, described]
  | crontabBlockPerTask | crontabSingleBlock =>
      rw [strategy] at permitted
      have user : layout.userCrontab.isSome = true := crontabs .user
      have system : layout.systemCrontab.isSome = true := crontabs .system
      rcases List.mem_cons.mp permitted with target | permitted
      · simp [DeploymentStrategy.writesAFilePerTask, CronLayout.crontabFor, target, user]
      · have target := List.mem_singleton.mp permitted
        simp [DeploymentStrategy.writesAFilePerTask, CronLayout.crontabFor, target, system]

theorem openTo_unmanaged (unmanaged : Unmanaged host state) {artefact : DesiredArtefact}
    {task : Task} (member : task ∈ state.tasks) (active : task.lifecycleState = .active)
    (named : artefact.slug = task.slug.value) (place : Placement) : OpenTo host artefact place := by
  cases place with
  | entry c form =>
      have none_ : (Estate.of host).entries c form artefact.slug = [] := by
        cases form with
        | region =>
            simp only [Estate.of, unmanaged.regions c]
            rfl
        | member =>
            simp only [Estate.of, unmanaged.members c]
            rfl
      intro entry held
      rw [none_] at held
      cases held
  | file d =>
      rw [OpenTo, named]
      have absent := unmanaged.fresh d task member active
      exact ⟨plainName_slug task.slug, Or.inl (readFile_absent absent)⟩

theorem managedEntries_unmanaged (unmanaged : Unmanaged host state) (c : CrontabName) :
    managedEntries (host.readCrontab c) = .ok [] := by
  unfold managedEntries
  rw [unmanaged.regions c, unmanaged.members c]
  rfl

/-- A plan for a host without managed content is made exactly if every artefact is rendered. -/
theorem plan_unmanaged_iff {desired : List DesiredArtefact} (configured : AllConfigured layout)
    (unmanaged : Unmanaged host state)
    (named : ∀ artefact ∈ desired, ∃ task ∈ state.tasks, task.lifecycleState = .active ∧
      artefact.slug = task.slug.value) :
    (∃ deployment, Cron.plan layout host desired = .ok deployment) ↔
      ∀ artefact ∈ desired, ∃ text, renderArtefact artefact = .ok text := by
  rw [plan_isOk_iff]
  constructor
  · exact fun clear artefact member => (clear.own artefact member).1
  · intro rendered
    refine ⟨fun c _ => ⟨[], [], unmanaged.regions c, unmanaged.members c⟩,
      fun c _ held managed => ?_, fun d _ name listed _ => ?_,
      fun artefact member => ⟨rendered artefact member, ?_⟩⟩
    · obtain rfl := Except.ok.inj ((managedEntries_unmanaged unmanaged c).symm.trans managed)
      exact List.forall_mem_nil _
    · obtain ⟨plain, found⟩ := unmanaged.files d name listed
      exact ⟨plain, [], found, fun region first => by cases first⟩
    · obtain ⟨place, placed⟩ := placement_configured configured artefact
      obtain ⟨task, stored, active, slug⟩ := named artefact member
      exact ⟨place, placed, openTo_unmanaged unmanaged stored active slug place⟩

/-- A plan for such a host removes nothing. -/
theorem removals_unmanaged (unmanaged : Unmanaged host state) {slugs : List Text}
    {removals : List PlanEntry} (retired : planRemovals layout host slugs = .ok removals) :
    removals = [] := by
  rw [← @List.map_eq_nil_iff _ _ PlanEntry.slug removals, List.eq_nil_iff_forall_not_mem]
  intro slug listed
  rcases (planRemovals_ok retired).named slug |>.mp listed with
    ⟨c, _, entries, managed, _, entry, held, _⟩ | ⟨d, _, name, _, region, rest, found, _⟩
  · rw [managedEntries_unmanaged unmanaged c] at managed
    cases managed
    cases held
  · by_cases listed : name ∈ (host.directory d).names
    · rw [(unmanaged.files d name listed).2] at found
      cases found
    · rw [readFile_absent listed] at found
      cases found

theorem planOne_carries {artefact : DesiredArtefact} {entry : PlanEntry}
    (made : planOne layout host artefact = .ok entry) :
    entry.taskId = artefact.taskId ∧ entry.artefact = some artefact := by
  refine ⟨?_, (planOne_ok made).carried⟩
  obtain ⟨_, _, made⟩ := except_bind_eq_ok.mp made
  obtain ⟨_, _, made⟩ := except_bind_eq_ok.mp made
  obtain ⟨_, _, made⟩ := except_bind_eq_ok.mp made
  split at made
  · cases made
    rfl
  · split at made <;>
    · cases made
      rfl

/-- The plan has for a task what was collected for it. -/
theorem planned_collected (unmanaged : Unmanaged host state) {desired : List DesiredArtefact}
    {deployment : DeploymentPlan} (made : Cron.plan layout host desired = .ok deployment)
    (taskId : TaskId) :
    planned deployment taskId =
      (desired.filter fun artefact => artefact.taskId = taskId).map some := by
  obtain ⟨entries, one, rest⟩ := except_bind_eq_ok.mp made
  obtain ⟨removals, retired, returned⟩ := except_bind_eq_ok.mp rest
  rw [← Except.ok.inj returned, removals_unmanaged unmanaged retired, List.append_nil]
  have each := mapM_eq_ok.mp one
  clear one made rest retired returned
  unfold planned
  induction each with
  | nil => rfl
  | cons here _ ih =>
      obtain ⟨same, carried⟩ := planOne_carries here
      rw [List.filter_cons, List.filter_cons, same]
      split
      · rw [List.map_cons, List.map_cons, ih, carried]
      · exact ih

/-- The service plans a quiet estate on a host without managed content, with what each task
contributes, exactly if every active task has something to schedule and a slug that fits. -/
theorem plansEach_iff {fuel : Nat} (enough : state.tasks.length < fuel)
    (configured : AllConfigured layout) (unmanaged : Unmanaged host state) :
    PlansEach service state fuel layout host ↔
      ∀ task ∈ state.tasks, task.lifecycleState = .active → ∀ revision,
        publishedRevision state task = some revision →
          Schedulable revision ∧ assertDeployableFor revision.deployment task.slug = .ok () := by
  have all : remaining state 0 = selected state [.active] := rfl
  have few : (remaining state 0).length < fuel := by
    have most : (selected state [.active]).length ≤ state.tasks.length := by
      unfold selected orderedById
      rw [List.length_insertionSort, if_neg (List.cons_ne_nil _ _)]
      exact List.length_filter_le _ _
    rw [all]
    omega
  have collects := @collect_steadily service state fuel 0 0 few
  have contributes {task : Task} {revision : TaskRevision} {artefact : DesiredArtefact}
      (stored : publishedRevision state task = some revision)
      (built : service.artefactFrom task revision = .ok artefact) :
      contribution service state task = some artefact := by
    simp [contribution, stored, built, Except.toOption]
  have named : ∀ artefact ∈ (remaining state 0).filterMap (contribution service state),
      ∃ task ∈ state.tasks, task.lifecycleState = .active ∧ artefact.slug = task.slug.value := by
    intro artefact member
    obtain ⟨task, inSelected, made⟩ := List.mem_filterMap.mp member
    obtain ⟨revision, _, built⟩ := contribution_built made
    obtain ⟨stored, active⟩ := mem_selected_active.mp inSelected
    exact ⟨task, stored, active, (artefactFrom_built built).slug⟩
  constructor
  · rintro ⟨deployment, made, _⟩ task member active revision stored
    obtain ⟨found, collected, made⟩ := except_bind_eq_ok.mp made
    cases found with
    | none => cases made
    | some reached =>
        obtain ⟨desired, last⟩ := reached
        have listed : task ∈ remaining state 0 := mem_selected_active.mpr ⟨member, active⟩
        have fits := collects.mp ⟨desired, last, collected⟩ task listed revision stored
        obtain ⟨artefact, built⟩ := artefactFrom_isOk_iff.mpr fits
        obtain ⟨plan_, planned_, _⟩ := except_map_eq_ok.mp made
        obtain rfl := collect_contributions fuel collected
        have rendered := (plan_unmanaged_iff configured unmanaged named).mp ⟨plan_, planned_⟩
        have own := List.mem_filterMap.mpr ⟨task, listed, contributes stored built⟩
        exact ⟨(render_isOk_iff built).mp (rendered artefact own), fits⟩
  · intro sound
    have fits : ∀ task ∈ remaining state 0, NameFits state task := by
      intro task listed revision stored
      obtain ⟨member, active⟩ := mem_selected_active.mp listed
      exact (sound task member active revision stored).2
    obtain ⟨desired, last, collected⟩ := collects.mpr fits
    obtain rfl := collect_contributions fuel collected
    have rendered : ∀ artefact ∈ (remaining state 0).filterMap (contribution service state),
        ∃ text, renderArtefact artefact = .ok text := by
      intro artefact inDesired
      obtain ⟨task, listed, made⟩ := List.mem_filterMap.mp inDesired
      obtain ⟨revision, stored, built⟩ := contribution_built made
      obtain ⟨member, active⟩ := mem_selected_active.mp listed
      exact (render_isOk_iff built).mpr (sound task member active revision stored).1
    obtain ⟨deployment, made⟩ := (plan_unmanaged_iff configured unmanaged named).mpr rendered
    refine ⟨deployment, except_bind_eq_ok.mpr ⟨_, collected, ?_⟩, fun task member active revision
      stored => ⟨fun _ => ?_, fun none_ => ?_⟩⟩
    · exact except_map_eq_ok.mpr ⟨deployment, made, rfl⟩
    · have fits := (sound task member active revision stored).2
      obtain ⟨artefact, built⟩ := artefactFrom_isOk_iff.mpr fits
      have listed : task ∈ remaining state 0 := mem_selected_active.mpr ⟨member, active⟩
      refine ⟨artefact, built, ?_⟩
      rw [planned_collected unmanaged made, all,
        filter_contributions (selected_distinct state [.active]) listed, contributes stored built]
      rfl
    · exact absurd (sound task member active revision stored).1 none_

end Planning

/-! ## Two estates -/

namespace Estate

theorem classes_distinct : ([(.hourly, "/etc/cron.hourly"), (.daily, "/etc/cron.daily"),
    (.weekly, "/etc/cron.weekly"), (.monthly, "/etc/cron.monthly")].map
      (Prod.fst : PeriodicClassification × String → PeriodicClassification)).Nodup := by decide

def everyStore : CronLayout where
  userCrontab := some "the user crontab"
  systemCrontab := some "/etc/crontab"
  cronD := some "/etc/cron.d"
  runParts := [(.hourly, "/etc/cron.hourly"), (.daily, "/etc/cron.daily"),
    (.weekly, "/etc/cron.weekly"), (.monthly, "/etc/cron.monthly")]
  distinct := classes_distinct

theorem everyStore_configured : AllConfigured everyStore := by
  constructor
  · intro c
    cases c <;> rfl
  · intro d
    cases d with
    | cronD => rfl
    | runParts classification => cases classification <;> rfl

theorem bareHost_unmanaged (state : CommittedState) : Unmanaged bareHost state := by
  refine ⟨fun c => rfl, fun c => rfl, fun d name listed => ?_, fun d task _ _ listed => ?_⟩ <;>
  · cases listed

theorem plansEach_steady : PlansEach commands steady 2 everyStore bareHost := by
  apply (plansEach_iff (by decide) everyStore_configured (bareHost_unmanaged steady)).mpr
  intro other member _ published stored
  obtain rfl := List.mem_singleton.mp member
  obtain rfl : revision = published := Option.some.inj stored
  exact ⟨Or.inl (Option.some_ne_none _), rfl⟩

def manualRevisionId : TaskRevisionId := ⟨8, TaskControl.Runtime.Backup.later_bounded⟩

theorem scheduled_within : 0 < 201 := by decide

theorem manual_within : 1 < 201 := by decide

def scheduledTask : Task := task ⟨0, scheduled_within⟩

theorem manual_runnable : scheduledTask.lifecycleState = .active → some manualRevisionId ≠ none :=
  fun _ => Option.some_ne_none _

/-- A task whose revision is only ever started by hand. -/
def manualTask : Task :=
  { task ⟨1, manual_within⟩ with activeRevisionId := some manualRevisionId, runnable := manual_runnable }

theorem mixed_keys : ([scheduledTask, manualTask].map Task.taskId).Nodup := by decide

def mixed : CommittedState where
  tasks := [scheduledTask, manualTask]
  revisions := fun revisionId =>
    some (if revisionId = manualRevisionId then TaskControl.Runtime.Backup.revision else revision)
  keyed := mixed_keys

/-- The revision without a schedule passes the checks of publication, and there is no plan for the
scheduled task next to it. -/
theorem manual_task_blocks :
    TaskControl.Runtime.Backup.revision.assertPublishable = .ok () ∧
      TaskControl.Runtime.Backup.revision.publicationState = .published ∧
      publishedRevision mixed manualTask = some TaskControl.Runtime.Backup.revision ∧
      publishedRevision mixed scheduledTask = some revision ∧ Schedulable revision ∧
      AllConfigured everyStore ∧ Unmanaged bareHost mixed ∧
      (∃ problem, commands.plan (steadily mixed) 3 everyStore bareHost = .error problem) ∧
      ¬ PlansEach commands mixed 3 everyStore bareHost := by
  have refused : (commands.plan (steadily mixed) 3 everyStore bareHost).isOk = false := by
    decide +kernel
  refine ⟨rfl, rfl, rfl, rfl, Or.inl (Option.some_ne_none _), everyStore_configured,
    bareHost_unmanaged mixed, ?_, ?_⟩
  · cases made : commands.plan (steadily mixed) 3 everyStore bareHost with
    | error problem => exact ⟨problem, rfl⟩
    | ok found =>
        rw [made] at refused
        cases refused
  · rintro ⟨deployment, made, _⟩
    rw [made] at refused
    cases refused

end Estate

end TaskControl.Deployment
