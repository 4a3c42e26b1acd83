import TaskControl.Activation.Launches
import TaskControl.Deployment.Planning
import TaskControl.Deployment.Publication
import TaskControl.Domain.Slugs

/-!
# The lifecycle gate

The stored tasks and revisions under the operations of their lifecycles.  A run reads
the task's active revision and refuses a draft, whatever the lifecycle of the task says;
a collection reads the active tasks, whatever the state of their revisions is.
-/

set_option autoImplicit false

namespace TaskControl

open PythonText

/-! ## The operations -/

theorem draft_unrunnable :
    TaskLifecycleState.draft = .active → (none : Option TaskRevisionId) ≠ none := by decide

/-- `Task.create`. -/
def Task.create (taskId : TaskId) (name : Text) (slug : Option Slug) (ownerId createdBy : OwnerId)
    (createdAt : UtcTimestamp) (description : Text) (labels : Finset Text) :
    Except TaskControlError Task := do
  let slug ← (slug.map Except.ok).getD (Slug.fromDisplayName name)
  if unnamed : strip name = [] then .error (validationError "A task requires a name.")
  else if long : maxNameLength < name.length then
    .error (validationError "Task name is too long.")
  else if wordy : maxDescriptionLength < description.length then
    .error (validationError "Task description is too long.")
  else if crowded : maxLabels < labels.card then .error (validationError "Too many labels.")
  else
    return {
      taskId, name, slug, ownerId, createdAt, createdBy, description, labels
      lifecycleState := .draft
      activeRevisionId := none
      updatedAt := none
      updatedBy := none
      named := unnamed
      nameBounded := Nat.not_lt.mp long
      descriptionBounded := Nat.not_lt.mp wordy
      labelsBounded := Nat.not_lt.mp crowded
      runnable := draft_unrunnable }

namespace Deployment

open Effects Persistence TaskControl.Runtime TaskControl.Activation
open Cron (DesiredArtefact)

inductive LifecycleOperation where
  | create (taskId : TaskId) (name : Text) (slug : Option Slug) (ownerId createdBy : OwnerId)
      (createdAt : UtcTimestamp) (description : Text) (labels : Finset Text)
  | draft (revision : TaskRevision) (unpublished : revision.publicationState = .draft)
  | activateRevision (taskId : TaskId) (revisionId : TaskRevisionId) (updatedBy : OwnerId)
      (updatedAt : UtcTimestamp)
  | suspend (taskId : TaskId) (updatedBy : OwnerId) (updatedAt : UtcTimestamp)
  | resume (taskId : TaskId) (updatedBy : OwnerId) (updatedAt : UtcTimestamp)
  | retire (taskId : TaskId) (updatedBy : OwnerId) (updatedAt : UtcTimestamp)
  | archive (taskId : TaskId) (updatedBy : OwnerId) (updatedAt : UtcTimestamp)
  | publication (revisionId : TaskRevisionId) (operation : PublicationOperation)

/-- The rows of the tasks and of their revisions. -/
structure LifecycleStore where
  tasks : List Task
  revisions : List TaskRevision
  keyed : (tasks.map Task.taskId).Nodup

namespace LifecycleStore

def task? (store : LifecycleStore) (taskId : TaskId) : Option Task :=
  store.tasks.find? fun task => task.taskId = taskId

def revision? (store : LifecycleStore) (revisionId : TaskRevisionId) : Option TaskRevision :=
  store.revisions.find? fun revision => revision.revisionId = revisionId

theorem keyed_added {store : LifecycleStore} {task : Task}
    (fresh : task.taskId ∉ store.tasks.map Task.taskId) :
    ((store.tasks ++ [task]).map Task.taskId).Nodup := by
  rw [List.map_append, List.map_singleton]
  exact List.nodup_append.mpr ⟨store.keyed, List.nodup_singleton _, fun taskId listed other
    same => by rw [List.mem_singleton.mp same]; rintro rfl; exact fresh listed⟩

theorem any_taskId_iff (store : LifecycleStore) (task : Task) :
    (store.tasks.any fun other => decide (other.taskId = task.taskId)) = true ↔
      task.taskId ∈ store.tasks.map Task.taskId := by
  simp

instance (store : LifecycleStore) (task : Task) :
    Decidable (task.taskId ∈ store.tasks.map Task.taskId) :=
  decidable_of_iff _ (any_taskId_iff store task)

/-- `tasks.add`. -/
def addTask (store : LifecycleStore) (task : Task) : Except TaskControlError LifecycleStore :=
  if taken : task.taskId ∈ store.tasks.map Task.taskId then
    .error (conflictError "A task with this identifier or slug already exists.")
  else if store.tasks.any fun other => other.slug.value = task.slug.value then
    .error (conflictError "A task with this identifier or slug already exists.")
  else .ok { store with tasks := store.tasks ++ [task], keyed := keyed_added taken }

/-- The row of the task after an update, and every other row as it is. -/
def updatedRow (task row : Task) : Task := if row.taskId = task.taskId then task else row

theorem updatedRow_taskId (task row : Task) : (updatedRow task row).taskId = row.taskId := by
  unfold updatedRow
  split
  · next same => exact same.symm
  · rfl

theorem keyed_updated (store : LifecycleStore) (task : Task) :
    ((store.tasks.map (updatedRow task)).map Task.taskId).Nodup := by
  rw [List.map_map]
  have same : Task.taskId ∘ updatedRow task = Task.taskId := funext (updatedRow_taskId task)
  rw [same]
  exact store.keyed

/-- `tasks.update` with what an operation makes of the task, at the version that was read. -/
def updateTask (store : LifecycleStore) (taskId : TaskId)
    (change : Task → Except TaskControlError Task) : Except TaskControlError LifecycleStore :=
  match store.task? taskId with
  | none => .error (notFoundError "Task not found.")
  | some task => do
      let changed ← change task
      return { store with
        tasks := store.tasks.map (updatedRow changed)
        keyed := keyed_updated store changed }

/-- `revisions.add`. -/
def addRevision (store : LifecycleStore) (revision : TaskRevision) :
    Except TaskControlError LifecycleStore :=
  if (store.task? revision.taskId).isNone || store.revisions.any fun other =>
      decide (other.revisionId = revision.revisionId ∨
        other.taskId = revision.taskId ∧
          other.revisionNumber.value = revision.revisionNumber.value) then
    .error (conflictError
      "A revision with this identifier or revision number already exists for this task.")
  else .ok { store with revisions := store.revisions ++ [revision] }

/-- `revisions.save_state` with what an operation makes of the revision: the content of the row
stays, and the operations change none of it. -/
def saveState (store : LifecycleStore) (revisionId : TaskRevisionId)
    (change : TaskRevision → Except TaskControlError TaskRevision) :
    Except TaskControlError LifecycleStore :=
  match store.revision? revisionId with
  | none => .error (notFoundError "Task revision not found.")
  | some revision => do
      let changed ← change revision
      return { store with
        revisions := store.revisions.map fun row =>
          if row.revisionId = changed.revisionId then changed else row }

/-- One operation, in a unit of work of its own. -/
def perform (computeDigest : TaskRevision → ContentDigest) (store : LifecycleStore) :
    LifecycleOperation → Except TaskControlError LifecycleStore
  | .create taskId name slug ownerId createdBy createdAt description labels => do
      store.addTask (← Task.create taskId name slug ownerId createdBy createdAt description labels)
  | .draft revision _ => store.addRevision revision
  | .activateRevision taskId revisionId updatedBy updatedAt =>
      store.updateTask taskId fun task => task.activateRevision revisionId updatedBy updatedAt
  | .suspend taskId updatedBy updatedAt =>
      store.updateTask taskId fun task => task.suspend updatedBy updatedAt
  | .resume taskId updatedBy updatedAt =>
      store.updateTask taskId fun task => task.resume updatedBy updatedAt
  | .retire taskId updatedBy updatedAt =>
      store.updateTask taskId fun task => task.retire updatedBy updatedAt
  | .archive taskId updatedBy updatedAt =>
      store.updateTask taskId fun task => task.archive updatedBy updatedAt
  | .publication revisionId operation =>
      store.saveState revisionId fun revision => operation.run computeDigest revision

/-- The store before anything was created. -/
def empty : LifecycleStore := ⟨[], [], List.nodup_nil⟩

/-- What a sequence of operations leaves; one that fails leaves the store as it was. -/
def after (computeDigest : TaskRevision → ContentDigest) (operations : List LifecycleOperation) :
    LifecycleStore :=
  operations.foldl (fun store operation =>
    (store.perform computeDigest operation).toOption.getD store) empty

/-- The rows as the queries of a collection see them. -/
def committed (store : LifecycleStore) : CommittedState :=
  ⟨store.tasks, store.revision?, store.keyed⟩

/-- The rows as a run sees them. -/
structure ShownIn (store : LifecycleStore) (database : Database) : Prop where
  tasks : database.tasks = store.task?
  revisions : database.revisions = store.revision?

end LifecycleStore

/-! ## The gate -/

/-- A stored task that accepts triggers, and the published revision that it runs. -/
structure Live (store : LifecycleStore) (task : Task) (revision : TaskRevision) : Prop where
  stored : task ∈ store.tasks
  accepting : task.lifecycleState.acceptsTriggers = true
  runs : publishedRevision store.committed task = some revision
  deployable : revision.publicationState.isDeployable = true

/-- Runs launch only what is live, and the desired set has only what is live. -/
structure LifecycleGate (store : LifecycleStore) : Prop where
  runs : ∀ (service : RuntimeService) (reactions : Reactions) (request : RunRequest)
    (world : World), store.ShownIn world.database →
    ∀ path launched controls, .launched path launched controls ∈
      eventsSince world (finalWorld (service.run reactions request world)) →
    ∃ task revision, Live store task revision ∧ task.taskId = request.taskId ∧
      launched.action = revision.action ∧ controls = revision.controls
  deploys : ∀ (service : DeploymentService) (fuel : Nat) (artefacts : List DesiredArtefact)
    (last : Nat), service.desiredArtefacts (steadily store.committed) fuel =
      .ok (some (artefacts, last)) →
    ∀ artefact ∈ artefacts, ∃ task revision, Live store task revision ∧
      service.artefactFrom task revision = .ok artefact

/-- No task that could run is out of service or has a revision that is, and neither has an active
task whose artefact is collected. -/
structure InService (store : LifecycleStore) : Prop where
  runs : ∀ task ∈ store.tasks, ∀ revision,
    publishedRevision store.committed task = some revision →
    revision.publicationState ≠ .draft → revision.action.secretReferences = [] →
    task.lifecycleState = .active ∧ revision.publicationState = .published
  deploys : (∀ task ∈ store.tasks, task.lifecycleState = .active →
      NameFits store.committed task) →
    ∀ task ∈ store.tasks, task.lifecycleState = .active → ∀ revision,
      publishedRevision store.committed task = some revision →
      revision.publicationState = .published

section Gate

variable {store : LifecycleStore}

theorem live_iff {task : Task} {revision : TaskRevision} (stored : task ∈ store.tasks)
    (runs : publishedRevision store.committed task = some revision) :
    Live store task revision ↔
      task.lifecycleState = .active ∧ revision.publicationState = .published := by
  constructor
  · rintro ⟨_, accepting, _, deployable⟩
    exact ⟨eq_of_beq accepting, eq_of_beq deployable⟩
  · rintro ⟨active, published⟩
    exact ⟨stored, by rw [active]; rfl, runs, by rw [published]; rfl⟩

theorem task?_of_mem {task : Task} (stored : task ∈ store.tasks) :
    store.task? task.taskId = some task := by
  unfold LifecycleStore.task?
  cases found : store.tasks.find? fun other => other.taskId = task.taskId with
  | none => exact absurd (List.find?_eq_none.mp found task stored) (by simp)
  | some other =>
      have same := List.find?_some found
      rw [List.inj_on_of_nodup_map store.keyed (List.mem_of_find?_eq_some found) stored
        (of_decide_eq_true same)]

theorem revision?_named {revisionId : TaskRevisionId} {revision : TaskRevision}
    (found : store.revision? revisionId = some revision) : revision.revisionId = revisionId := by
  simpa using List.find?_some found

theorem task?_named {taskId : TaskId} {task : Task} (found : store.task? taskId = some task) :
    task ∈ store.tasks ∧ task.taskId = taskId :=
  ⟨List.mem_of_find?_eq_some found, by simpa using List.find?_some found⟩

theorem Live.listed {task : Task} {revision : TaskRevision} (live : Live store task revision) :
    revision ∈ store.revisions := by
  obtain ⟨revisionId, _, found⟩ := Option.bind_eq_some_iff.mp live.runs
  exact List.mem_of_find?_eq_some found

/-- What a run reads in the store. -/
theorem runnable_iff {database : Database} (shown : store.ShownIn database) {taskId : TaskId}
    {task : Task} {revision : TaskRevision} :
    RuntimeService.runnable database taskId = .ok (task, revision) ↔
      task ∈ store.tasks ∧ task.taskId = taskId ∧
        publishedRevision store.committed task = some revision ∧
        revision.publicationState ≠ .draft := by
  unfold RuntimeService.runnable publishedRevision
  rw [shown.tasks, shown.revisions]
  constructor
  · intro loaded
    cases found : store.task? taskId with
    | none =>
        rw [found] at loaded
        cases loaded
    | some other =>
        rw [found] at loaded
        dsimp only at loaded
        split at loaded
        · cases loaded
        · next revisionId active =>
            split at loaded
            · cases loaded
            · next row stored =>
                split at loaded
                · cases loaded
                · next frozen =>
                    cases loaded
                    exact ⟨(task?_named found).1, (task?_named found).2,
                      by rw [active]; exact stored, frozen⟩
  · rintro ⟨stored, rfl, runs, frozen⟩
    obtain ⟨revisionId, active, found⟩ := Option.bind_eq_some_iff.mp runs
    have row : store.revision? revisionId = some revision := found
    rw [task?_of_mem stored]
    simp only [active, row, if_neg frozen]

/-! ## What a run launches -/

theorem secretless_of_launches {service : RuntimeService} {reactions : Reactions}
    {revision : TaskRevision} {request : RunRequest}
    (launched : launches service reactions revision request = true) :
    revision.action.secretReferences = [] := by
  unfold launches at launched
  split at launched
  · split at launched
    · next prepared =>
        unfold prepare at prepared
        split at prepared
        · cases prepared
        · split at prepared
          · cases prepared
          · next secretless => exact not_not.mp secretless
    · cases launched
  · cases launched

theorem runs_live (inService : InService store) {service : RuntimeService} {reactions : Reactions}
    {request : RunRequest} {world : World} (shown : store.ShownIn world.database)
    {path : LaunchPath} {launched : ExecutionRequest} {controls : ExecutionControls}
    (member : .launched path launched controls ∈
      eventsSince world (finalWorld (service.run reactions request world))) :
    ∃ task revision, Live store task revision ∧ task.taskId = request.taskId ∧
      launched.action = revision.action ∧ controls = revision.controls := by
  obtain ⟨new, launches, action, same⟩ :=
    launch_of_leaves (run_leaves service reactions request world) member
  obtain ⟨starts, _, _, counted⟩ := launches
  obtain ⟨stored, named, runs, frozen⟩ := (runnable_iff shown).mp (start_new starts).1
  have ready := inService.runs new.task stored new.revision runs frozen
    (secretless_of_launches counted)
  exact ⟨new.task, new.revision, (live_iff stored runs).mpr ready, named, action, same⟩

/-- The rows of the store, with nothing run yet. -/
def unrun (store : LifecycleStore) : World where
  database := ⟨store.task?, store.revision?, [], []⟩
  journal := []
  trace := []

/-- A runtime that has an adapter for the action. -/
def adapted (revision : TaskRevision) : RuntimeService := ⟨[revision.action.executorType], []⟩

def asked (task : Task) : RunRequest := ⟨task.taskId, .manual, none, none, none, []⟩

/-- Where nothing fails, a run of a stored task with a frozen revision without secrets launches. -/
theorem unrun_launches {task : Task} {revision : TaskRevision} (stored : task ∈ store.tasks)
    (runs : publishedRevision store.committed task = some revision)
    (frozen : revision.publicationState ≠ .draft)
    (secretless : revision.action.secretReferences = []) :
    ∃ new, RunLaunches (adapted revision) Backup.quiet (asked task) (unrun store) new := by
  have loaded : RuntimeService.runnable (unrun store).database task.taskId = .ok (task, revision) :=
    (runnable_iff ⟨rfl, rfl⟩).mpr ⟨stored, rfl, runs, frozen⟩
  obtain ⟨execution, requested, _, fresh, _, taskId, revisionId, _⟩ :=
    Execution.requested_ok Backup.executionId task.taskId revision.revisionId .manual ⟨1⟩
      (some Backup.quiet.correlationId) none none
  have made : raising (RuntimeService.newExecution Backup.quiet (asked task) task revision ⟨1⟩) =
      .ok execution := raising_eq_ok.mpr requested
  have started : startNew Backup.quiet (asked task) task revision =
      .ok ⟨task, revision, execution⟩ := by
    exact except_bind_eq_ok.mpr ⟨⟨1⟩, rfl, except_bind_eq_ok.mpr ⟨execution, made, rfl⟩⟩
  have starts : start Backup.quiet (asked task) (unrun store).database =
      .ok (.inr ⟨task, revision, execution⟩) := by
    have read : raising (RuntimeService.runnable (unrun store).database (asked task).taskId) =
        .ok (task, revision) := raising_eq_ok.mpr loaded
    exact except_bind_eq_ok.mpr ⟨(), rfl, except_bind_eq_ok.mpr ⟨_, read,
      except_bind_eq_ok.mpr ⟨none, rfl, except_bind_eq_ok.mpr ⟨_, started, rfl⟩⟩⟩⟩
  obtain ⟨id, active, found⟩ := Option.bind_eq_some_iff.mp runs
  have row : store.revision? id = some revision := found
  have admitted : Admitted Backup.quiet (unrun store).database execution := by
    constructor
    · rfl
    · have free : (unrun store).database.keyTaken execution = false := rfl
      have referenced : (((unrun store).database.tasks execution.taskId).isNone ||
          ((unrun store).database.revisions execution.revisionId).isNone) = false := by
        rw [taskId, revisionId, revision?_named row]
        simp [unrun, task?_of_mem stored, row]
      unfold Database.addExecution
      rw [free, referenced]
      exact ⟨_, rfl⟩
  refine ⟨_, starts, rfl, admitted, ?_⟩
  have prepared : prepare [revision.action.executorType] revision.action [] =
      .ok (updateEnvironment revision.action.literalEnvironment []) := by
    unfold prepare
    rw [if_neg (by simp), if_neg (by simp [secretless])]
  unfold launches
  rw [show opening Backup.quiet = .ok (some ⟨"backup".toList, "runtime".toList⟩) from rfl]
  dsimp only [adapted, asked]
  rw [prepared]
  rfl

theorem inService_of_runs (gate : LifecycleGate store) {task : Task} {revision : TaskRevision}
    (stored : task ∈ store.tasks) (runs : publishedRevision store.committed task = some revision)
    (frozen : revision.publicationState ≠ .draft)
    (secretless : revision.action.secretReferences = []) :
    task.lifecycleState = .active ∧ revision.publicationState = .published := by
  have launches := unrun_launches stored runs frozen secretless
  obtain ⟨launched, controls, member⟩ := (launched_iff_of_leaves (run_leaves (adapted revision)
    Backup.quiet (asked task) (unrun store))).mpr launches
  obtain ⟨other, own, live, named, _⟩ := gate.runs _ _ _ (unrun store) ⟨rfl, rfl⟩ _ _ _ member
  obtain rfl := List.inj_on_of_nodup_map store.keyed live.stored stored named
  obtain rfl := Option.some.inj (live.runs.symm.trans runs)
  exact (live_iff stored runs).mp live

/-! ## What a collection puts into the desired set -/

/-- The artefacts of a collection are those of the active tasks, in a store that stays as it is. -/
theorem collected_contributions {service : DeploymentService} {fuel last : Nat}
    {artefacts : List DesiredArtefact}
    (collected : service.desiredArtefacts (steadily store.committed) fuel =
      .ok (some (artefacts, last))) (artefact : DesiredArtefact) :
    artefact ∈ artefacts ↔ ∃ task ∈ store.tasks, task.lifecycleState = .active ∧
      ∃ revision, publishedRevision store.committed task = some revision ∧
        service.artefactFrom task revision = .ok artefact := by
  rw [collect_contributions fuel collected, List.mem_filterMap]
  constructor
  · rintro ⟨task, listed, made⟩
    obtain ⟨stored, active⟩ := mem_selected_active.mp listed
    exact ⟨task, stored, active, contribution_built made⟩
  · rintro ⟨task, stored, active, revision, runs, built⟩
    exact ⟨task, mem_selected_active.mpr ⟨stored, active⟩,
      by simp [contribution, runs, built, Except.toOption]⟩

theorem collects_iff (service : DeploymentService) :
    (∃ fuel artefacts last, service.desiredArtefacts (steadily store.committed) fuel =
      .ok (some (artefacts, last))) ↔
      ∀ task ∈ store.tasks, task.lifecycleState = .active → NameFits store.committed task := by
  constructor
  · rintro ⟨fuel, artefacts, last, collected⟩ task stored active
    exact collect_fits fuel collected task (mem_selected_active.mpr ⟨stored, active⟩)
  · intro named
    have collects := @collect_steadily service store.committed
      ((remaining store.committed 0).length + 1) 0 0 (Nat.lt_succ_self _)
    obtain ⟨artefacts, last, collected⟩ := collects.mpr fun task listed =>
      named task (mem_selected_active.mp listed).1 (mem_selected_active.mp listed).2
    exact ⟨_, artefacts, last, collected⟩

theorem deploys_live (inService : InService store) {service : DeploymentService}
    {fuel last : Nat} {artefacts : List DesiredArtefact}
    (collected : service.desiredArtefacts (steadily store.committed) fuel =
      .ok (some (artefacts, last))) {artefact : DesiredArtefact} (member : artefact ∈ artefacts) :
    ∃ task revision, Live store task revision ∧ service.artefactFrom task revision = .ok artefact := by
  obtain ⟨task, stored, active, revision, runs, built⟩ :=
    (collected_contributions collected artefact).mp member
  have named := (collects_iff service).mp ⟨fuel, artefacts, last, collected⟩
  have published := inService.deploys named task stored active revision runs
  exact ⟨task, revision, (live_iff stored runs).mpr ⟨active, published⟩, built⟩

theorem inService_of_deploys (gate : LifecycleGate store)
    (named : ∀ task ∈ store.tasks, task.lifecycleState = .active → NameFits store.committed task)
    {task : Task} (stored : task ∈ store.tasks) (active : task.lifecycleState = .active)
    {revision : TaskRevision} (runs : publishedRevision store.committed task = some revision) :
    revision.publicationState = .published := by
  have commands : DeploymentService := ⟨fun _ => []⟩
  obtain ⟨fuel, artefacts, last, collected⟩ := (collects_iff commands).mpr named
  obtain ⟨artefact, built⟩ := (@artefactFrom_isOk_iff commands task revision).mpr
    (named task stored active revision runs)
  have member := (collected_contributions collected artefact).mpr
    ⟨task, stored, active, revision, runs, built⟩
  obtain ⟨other, own, live, made⟩ := gate.deploys commands fuel artefacts last collected artefact
    member
  have same := (artefactFrom_built made).taskId.symm.trans (artefactFrom_built built).taskId
  obtain rfl := List.inj_on_of_nodup_map store.keyed live.stored stored same
  obtain rfl := Option.some.inj (live.runs.symm.trans runs)
  exact ((live_iff stored runs).mp live).2

end Gate

namespace Backup

open TaskControl.Runtime.Backup

/-- The task is created, its revision is published and becomes the one that runs. -/
def released : List LifecycleOperation :=
  [.create taskId "Backup".toList none ownerId ownerId ⟨0⟩ [] ∅, .draft draft rfl,
    .publication revisionId (.publish ownerId ⟨1⟩),
    .activateRevision taskId revisionId ownerId ⟨2⟩]

def suspended : LifecycleStore :=
  .after (fun _ => digest) (released ++ [.suspend taskId ownerId ⟨3⟩])

def withdrawn : LifecycleStore :=
  .after (fun _ => digest) (released ++ [.publication revisionId .withdraw])

def commands : DeploymentService := ⟨Task.name⟩

theorem suspended_states :
    suspended.tasks.map Task.lifecycleState = [.suspended] := by decide +kernel

theorem withdrawn_states :
    withdrawn.revisions.map TaskRevision.publicationState = [.withdrawn] := by decide +kernel

end Backup

end Deployment

end TaskControl
