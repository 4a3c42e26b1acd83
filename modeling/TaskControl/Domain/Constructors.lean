import TaskControl.Domain.Revision
import TaskControl.Domain.Task

/-!
# Constructors of tasks and revisions

The constructors that an import and a read of the database go through.  Whatever
they made, they make again of its own fields.
-/

set_option autoImplicit false

namespace TaskControl

open PythonText

/-! ## Tasks -/

theorem runnable_of {state : TaskLifecycleState} {activeRevisionId : Option TaskRevisionId}
    (idle : ¬ (state = .active ∧ activeRevisionId = none)) :
    state = .active → activeRevisionId ≠ none := fun active missing => idle ⟨active, missing⟩

/-- The constructor of `Task`, on values that were read for its fields. -/
def makeTask (taskId : TaskId) (name : Text) (slug : Slug) (ownerId : OwnerId)
    (createdAt : UtcTimestamp) (createdBy : OwnerId) (description : Text)
    (lifecycleState : TaskLifecycleState) (activeRevisionId : Option TaskRevisionId)
    (labels : Finset Text) (updatedAt : Option UtcTimestamp) (updatedBy : Option OwnerId) :
    Except TaskControlError Task :=
  if named : strip name = [] then .error (validationError "A task requires a name.")
  else if nameBounded : name.length ≤ maxNameLength then
    if descriptionBounded : description.length ≤ maxDescriptionLength then
      if labelsBounded : labels.card ≤ maxLabels then
        if idle : lifecycleState = .active ∧ activeRevisionId = none then
          .error (validationError "An active task must reference a published revision.")
        else
          .ok {
            taskId, name, slug, ownerId, createdAt, createdBy, description, lifecycleState
            activeRevisionId, labels, updatedAt, updatedBy
            named, nameBounded, descriptionBounded, labelsBounded
            runnable := runnable_of idle }
      else .error (validationError "Too many labels.")
    else .error (validationError "Task description is too long.")
  else .error (validationError "Task name is too long.")

/-! ## Revisions -/

/-- What the constructor of `TaskRevision` says of a schedule that a directory overrides. -/
def ignoredSchedule : TaskControlError :=
  validationError
    ("A run-parts deployment takes its cadence from the directory, so this revision's schedule " ++
      "would be ignored. Remove the schedule, or choose a strategy that carries one.")

/-- The publication of a revision: its state, when and by whom it was published, and its digest. -/
structure Publication where
  state : PublicationState
  publishedAt : Option UtcTimestamp
  publishedBy : Option OwnerId
  contentDigest : Option ContentDigest

namespace Publication

/-- What the constructor of `TaskRevision` checks of it. -/
def check (publication : Publication) : Except TaskControlError Unit :=
  if publication.state.isFrozen then
    if publication.contentDigest.isNone then .error TaskRevision.unpublished
    else if publication.publishedAt.isNone || publication.publishedBy.isNone then
      .error (validationError
        "A frozen revision must record when and by whom it was published.")
    else .ok ()
  else if publication.contentDigest.isSome then
    .error (validationError
      ("A draft revision must not carry a content digest: its content can still change, so any " ++
        "digest would immediately be a lie."))
  else .ok ()

theorem check_ok {publication : Publication} (checked : publication.check = .ok ()) :
    (publication.state.isFrozen = true ↔ publication.contentDigest ≠ none) ∧
      (publication.state.isFrozen = true →
        publication.publishedAt ≠ none ∧ publication.publishedBy ≠ none) := by
  obtain ⟨state, publishedAt, publishedBy, contentDigest⟩ := publication
  unfold check at checked
  cases frozen : state.isFrozen <;> cases contentDigest <;> cases publishedAt <;>
    cases publishedBy <;> simp_all

theorem frozenDigest_of {publication : Publication} (checked : publication.check = .ok ()) :
    publication.state.isFrozen = true ↔ publication.contentDigest ≠ none := (check_ok checked).1

theorem frozenPublished_of {publication : Publication} (checked : publication.check = .ok ()) :
    publication.state.isFrozen = true →
      publication.publishedAt ≠ none ∧ publication.publishedBy ≠ none := (check_ok checked).2

end Publication

theorem scheduleRead_of {schedule : Option CronExpression} {strategy : DeploymentStrategy}
    (carried : ¬ (schedule.isSome = true ∧ strategy.carriesItsOwnSchedule = false)) :
    schedule ≠ none → strategy.carriesItsOwnSchedule = true := fun scheduled => by
  by_contra directory
  exact carried ⟨Option.isSome_iff_ne_none.mpr scheduled, Bool.eq_false_iff.mpr directory⟩

/-- The constructor of `TaskRevision`, on values that were read for its fields. -/
def makeRevision (revisionId : TaskRevisionId) (taskId : TaskId) (revisionNumber : RevisionNumber)
    (action : ActionSpecification) (createdAt : UtcTimestamp) (createdBy : OwnerId)
    (schemaVersion : SchemaVersion) (controls : ExecutionControls)
    (deployment : DeploymentSpecification) (activationSchedule : Option CronExpression)
    (changeSummary : Text) (publication : Publication) : Except TaskControlError TaskRevision :=
  if summaryBounded : changeSummary.length ≤ maxChangeSummaryLength then
    if carried : activationSchedule.isSome = true ∧
        deployment.strategy.carriesItsOwnSchedule = false then .error ignoredSchedule
    else
      match checked : publication.check with
      | .error error => .error error
      | .ok () =>
          .ok {
            revisionId, taskId, revisionNumber, action, createdAt, createdBy, schemaVersion
            publicationState := publication.state
            controls, deployment, activationSchedule, changeSummary
            publishedAt := publication.publishedAt
            publishedBy := publication.publishedBy
            contentDigest := publication.contentDigest
            summaryBounded
            scheduleRead := scheduleRead_of carried
            frozenDigest := Publication.frozenDigest_of checked
            frozenPublished := Publication.frozenPublished_of checked }
  else .error (validationError "Change summary is too long.")

def publicationOf (revision : TaskRevision) : Publication where
  state := revision.publicationState
  publishedAt := revision.publishedAt
  publishedBy := revision.publishedBy
  contentDigest := revision.contentDigest

/-- The fields of a revision that an edit replaces. -/
structure Changes where
  action : ActionSpecification
  schemaVersion : SchemaVersion
  controls : ExecutionControls
  deployment : DeploymentSpecification
  activationSchedule : Option CronExpression
  changeSummary : Text

/-- `with_changes`, given the new value of each field. -/
def withChanges (revision : TaskRevision) (changes : Changes) :
    Except TaskControlError TaskRevision :=
  if revision.publicationState.isEditable then
    makeRevision revision.revisionId revision.taskId revision.revisionNumber changes.action
      revision.createdAt revision.createdBy changes.schemaVersion changes.controls
      changes.deployment changes.activationSchedule changes.changeSummary (publicationOf revision)
  else
    .error (domainRuleViolationError
      ("A published revision cannot be edited. Create a new revision instead — editing in " ++
        "place would change what past executions meant."))

/-! ## What they made -/

theorem makeTask_fields (task : Task) :
    makeTask task.taskId task.name task.slug task.ownerId task.createdAt task.createdBy
      task.description task.lifecycleState task.activeRevisionId task.labels task.updatedAt
      task.updatedBy = .ok task := by
  have idle : ¬ (task.lifecycleState = .active ∧ task.activeRevisionId = none) :=
    fun both => task.runnable both.1 both.2
  rw [makeTask, dif_neg task.named, dif_pos task.nameBounded, dif_pos task.descriptionBounded,
    dif_pos task.labelsBounded, dif_neg idle]

theorem check_publicationOf (revision : TaskRevision) :
    (publicationOf revision).check = .ok () := by
  have digested := revision.frozenDigest
  have published := revision.frozenPublished
  unfold Publication.check publicationOf
  cases frozen : revision.publicationState.isFrozen with
  | true =>
      obtain ⟨digest, held⟩ := Option.ne_none_iff_exists'.mp (digested.mp frozen)
      obtain ⟨at_, by_⟩ := published frozen
      obtain ⟨moment, since⟩ := Option.ne_none_iff_exists'.mp at_
      obtain ⟨owner, who⟩ := Option.ne_none_iff_exists'.mp by_
      simp [held, since, who]
  | false =>
      have undigested : revision.contentDigest = none := by
        by_contra held
        rw [digested.mpr held] at frozen
        cases frozen
      simp [undigested]

theorem makeRevision_fields (revision : TaskRevision) :
    makeRevision revision.revisionId revision.taskId revision.revisionNumber revision.action
      revision.createdAt revision.createdBy revision.schemaVersion revision.controls
      revision.deployment revision.activationSchedule revision.changeSummary
      (publicationOf revision) = .ok revision := by
  have carried : ¬ (revision.activationSchedule.isSome = true ∧
      revision.deployment.strategy.carriesItsOwnSchedule = false) := by
    rintro ⟨scheduled, directory⟩
    rw [revision.scheduleRead (Option.isSome_iff_ne_none.mp scheduled)] at directory
    cases directory
  rw [makeRevision, dif_pos revision.summaryBounded, dif_neg carried]
  split
  · next refused =>
      rw [check_publicationOf] at refused
      cases refused
  · rfl

theorem makeTask_ok {taskId : TaskId} {name : Text} {slug : Slug} {ownerId : OwnerId}
    {createdAt : UtcTimestamp} {createdBy : OwnerId} {description : Text}
    {lifecycleState : TaskLifecycleState} {activeRevisionId : Option TaskRevisionId}
    {labels : Finset Text} {updatedAt : Option UtcTimestamp} {updatedBy : Option OwnerId}
    {task : Task}
    (made : makeTask taskId name slug ownerId createdAt createdBy description lifecycleState
      activeRevisionId labels updatedAt updatedBy = .ok task) :
    task.createdAt = createdAt ∧ task.updatedAt = updatedAt := by
  unfold makeTask at made
  split at made
  · cases made
  · repeat' split at made
    all_goals cases made
    exact ⟨rfl, rfl⟩

/-- What a revision has from the fields that it was made of. -/
structure MadeOf (revision : TaskRevision) (revisionId : TaskRevisionId)
    (action : ActionSpecification) (createdAt : UtcTimestamp) (schemaVersion : SchemaVersion)
    (deployment : DeploymentSpecification) (activationSchedule : Option CronExpression)
    (publishedAt : Option UtcTimestamp) : Prop where
  revisionId : revision.revisionId = revisionId
  action : revision.action = action
  createdAt : revision.createdAt = createdAt
  schemaVersion : revision.schemaVersion = schemaVersion
  deployment : revision.deployment = deployment
  activationSchedule : revision.activationSchedule = activationSchedule
  publishedAt : revision.publishedAt = publishedAt

theorem makeRevision_ok {revisionId : TaskRevisionId} {taskId : TaskId}
    {revisionNumber : RevisionNumber} {action : ActionSpecification} {createdAt : UtcTimestamp}
    {createdBy : OwnerId} {schemaVersion : SchemaVersion} {controls : ExecutionControls}
    {deployment : DeploymentSpecification} {activationSchedule : Option CronExpression}
    {changeSummary : Text} {publication : Publication} {revision : TaskRevision}
    (made : makeRevision revisionId taskId revisionNumber action createdAt createdBy schemaVersion
      controls deployment activationSchedule changeSummary publication = .ok revision) :
    MadeOf revision revisionId action createdAt schemaVersion deployment activationSchedule
      publication.publishedAt := by
  unfold makeRevision at made
  repeat' split at made
  all_goals cases made
  exact ⟨rfl, rfl, rfl, rfl, rfl, rfl, rfl⟩

end TaskControl
