import TaskControl.Domain.Constructors
import TaskControl.Domain.ManifestCodec
import TaskControl.Domain.ValueCodec
import TaskControl.Persistence.TaskRecords

/-!
# Stored definitions

The rows of tasks and revisions and the mappers in both directions.  A definition that
was stored is read back as it was, and a stored revision has the digest of its row.
-/

set_option autoImplicit false

namespace TaskControl.Persistence

open PythonText JsonText Effects

/-! ## Tasks -/

/-- `task_to_record`; the key of the row is the identifier of the task. -/
def taskToRecord (task : Task) (storageVersion : Nat) : TaskRecord where
  slug := task.slug.value
  name := task.name
  description := task.description
  ownerId := task.ownerId.text
  lifecycleState := task.lifecycleState.wire
  activeRevisionId := task.activeRevisionId.map EntityId.text
  labels := sortedTexts task.labels
  createdAt := task.createdAt
  createdBy := task.createdBy.text
  updatedAt := task.updatedAt
  updatedBy := task.updatedBy.map EntityId.text
  storageVersion := storageVersion

/-- An identifier in a column. -/
def idColumn (kind : IdentifierKind) (column : Text) : Reading (EntityId kind) :=
  idValue kind (textJson column)

/-- An identifier in a column that can be `NULL`. -/
def idColumn? (kind : IdentifierKind) (column : Option Text) : Reading (Option (EntityId kind)) :=
  whenTruthy (idValue kind) (optionJson textJson column)

/-- `record_to_task`, on the row under a key. -/
def recordToTask (key : Text) (record : TaskRecord) : Reading Task := do
  let taskId ← idColumn .task key
  let slug ← constructed (Slug.make record.slug)
  let ownerId ← idColumn .owner record.ownerId
  let createdBy ← idColumn .owner record.createdBy
  let lifecycleState ← wordValue lifecycleStates TaskLifecycleState.wire .draft
    (some (wordJson record.lifecycleState))
  let activeRevisionId ← idColumn? .taskRevision record.activeRevisionId
  let updatedBy ← idColumn? .owner record.updatedBy
  constructed (makeTask taskId record.name slug ownerId record.createdAt createdBy
    record.description lifecycleState activeRevisionId record.labels.toFinset record.updatedAt
    updatedBy)

/-! ## Revisions -/

/-- A row of the `task_revisions` table. -/
structure TaskRevisionRecord where
  revisionId : Text
  taskId : Text
  revisionNumber : Int
  schemaVersion : Text
  publicationState : String
  changeSummary : Text
  content : Json
  contentDigest : Option Text
  createdAt : UtcTimestamp
  createdBy : Text
  publishedAt : Option UtcTimestamp
  publishedBy : Option Text

def contentFields (revision : TaskRevision) : List (String × Json) :=
  [("action", revision.action.toPrimitive),
    ("controls", revision.controls.toPrimitive),
    ("deployment", revision.deployment.toPrimitive),
    ("activation_schedule", optionJson CronExpression.toPrimitive revision.activationSchedule)]

def revisionContent (revision : TaskRevision) : Json := dictionary (contentFields revision)

def revisionToRecord (revision : TaskRevision) : TaskRevisionRecord where
  revisionId := revision.revisionId.text
  taskId := revision.taskId.text
  revisionNumber := revision.revisionNumber.value
  schemaVersion := revision.schemaVersion.text
  publicationState := revision.publicationState.wire
  changeSummary := revision.changeSummary
  content := revisionContent revision
  contentDigest := revision.contentDigest.map ContentDigest.value
  createdAt := revision.createdAt
  createdBy := revision.createdBy.text
  publishedAt := revision.publishedAt
  publishedBy := revision.publishedBy.map EntityId.text

/-- `apply_revision_state_to_record`: the content is not copied. -/
def applyRevisionStateToRecord (record : TaskRevisionRecord) (revision : TaskRevision) :
    TaskRevisionRecord :=
  { record with
    publicationState := revision.publicationState.wire
    publishedAt := revision.publishedAt
    publishedBy := revision.publishedBy.map EntityId.text
    contentDigest := revision.contentDigest.map ContentDigest.value }

/-- The members of a stored content that has an action. -/
def contentMembers (record : TaskRevisionRecord) : Reading (List (Points × Json)) :=
  match orEmpty record.content with
  | .obj members => if (valueAt? members "action").isSome then .ok members else invalidPrimitive
  | _ => .error .untyped

def columnPublication (record : TaskRevisionRecord) (state : PublicationState) :
    Reading Publication := do
  let publishedBy ← idColumn? .owner record.publishedBy
  let contentDigest ← whenTruthy digestValue (optionJson textJson record.contentDigest)
  return { state, publishedAt := record.publishedAt, publishedBy, contentDigest }

def recordToRevision (classes : CharacterClasses) (record : TaskRevisionRecord) :
    Reading TaskRevision := do
  let members ← contentMembers record
  let revisionId ← idColumn .taskRevision record.revisionId
  let taskId ← idColumn .task record.taskId
  let revisionNumber ← constructed (RevisionNumber.make record.revisionNumber)
  let action ← item members "action" >>= ActionSpecification.fromPrimitive classes
  let createdBy ← idColumn .owner record.createdBy
  let schemaVersion ← schemaText record.schemaVersion
  let state ← wordValue publicationStates PublicationState.wire .draft
    (some (wordJson record.publicationState))
  let controls ← ExecutionControls.fromPrimitive (orEmpty (valueAt members "controls"))
  let deployment ←
    DeploymentSpecification.fromPrimitive classes (orEmpty (valueAt members "deployment"))
  let activationSchedule ←
    whenTruthy CronExpression.fromPrimitive (valueAt members "activation_schedule")
  let publication ← columnPublication record state
  constructed (makeRevision revisionId taskId revisionNumber action record.createdAt createdBy
    schemaVersion controls deployment activationSchedule record.changeSummary publication)

/-! ## What is stored is read back -/

@[simp] theorem idColumn_text {kind : IdentifierKind} (id : EntityId kind) :
    idColumn kind id.text = .ok id := idValue_idJson id

@[simp] theorem idColumn?_text {kind : IdentifierKind} (id : Option (EntityId kind)) :
    idColumn? kind (id.map EntityId.text) = .ok id := by
  rw [← whenTruthy_id id]
  cases id <;> rfl

/-- A task is read back as it was stored. -/
theorem recordToTask_taskToRecord (task : Task) (storageVersion : Nat) :
    recordToTask task.taskId.text (taskToRecord task storageVersion) = .ok task := by
  have lifecycleState := @wordValue_wordJson _ lifecycleStates TaskLifecycleState.wire (by decide)
    task.lifecycleState (by cases task.lifecycleState <;> decide) .draft
  simp [recordToTask, taskToRecord, bind, Except.bind, Slug.make_value, constructed,
    lifecycleState, makeTask_fields]

/-- What a revision needs to be read back; the instants of a column need no check. -/
structure Kept (classes : CharacterClasses) (revision : TaskRevision) : Prop where
  action : revision.action.Storable classes
  deployment : revision.deployment.Storable classes
  activationSchedule : ∀ schedule ∈ revision.activationSchedule, schedule.Storable
  schemaVersion : revision.schemaVersion.Readable

section

variable {classes : CharacterClasses} {revision : TaskRevision}

theorem contentMembers_written :
    contentMembers (revisionToRecord revision) = .ok (entries (contentFields revision)) := by
  have action : (valueAt? (entries (contentFields revision)) "action").isSome = true := by
    simp [contentFields]
  exact if_pos action

theorem columnPublication_written (state : PublicationState) :
    columnPublication (revisionToRecord revision) state =
      .ok { publicationOf revision with state } := by
  have contentDigest : whenTruthy digestValue
      (optionJson textJson (revision.contentDigest.map ContentDigest.value)) =
        .ok revision.contentDigest := by
    rw [← whenTruthy_digest revision.contentDigest]
    cases revision.contentDigest <;> rfl
  simp only [columnPublication, revisionToRecord, idColumn?_text, contentDigest, bind, Except.bind]
  rfl

theorem makeNumber_value (number : RevisionNumber) :
    RevisionNumber.make number.value = .ok number := by
  have some_ : ¬ (number.value : Int) < 1 := by
    have positive := number.positive
    omega
  have same : (number.value : Int).toNat = number.value := Int.toNat_natCast _
  simp only [RevisionNumber.make, dif_neg some_, same]

/-- A revision is read back as it was stored. -/
theorem recordToRevision_revisionToRecord (kept : Kept classes revision) :
    recordToRevision classes (revisionToRecord revision) = .ok revision := by
  have state := @wordValue_wordJson _ publicationStates PublicationState.wire (by decide)
    revision.publicationState (by cases revision.publicationState <;> decide) .draft
  have schedule := CronExpression.whenTruthy_toPrimitive kept.activationSchedule
  simp only [recordToRevision, contentMembers_written, columnPublication_written, bind, Except.bind]
  simp [revisionToRecord, contentFields, item, valueAt, constructed, makeNumber_value, state,
    ActionSpecification.fromPrimitive_toPrimitive kept.action, schemaText_text kept.schemaVersion,
    ExecutionControls.fromPrimitive_toPrimitive, InstalledRevision.orEmpty_controls,
    InstalledRevision.orEmpty_deployment,
    DeploymentSpecification.fromPrimitive_toPrimitive kept.deployment, schedule]
  rw [show (⟨revision.publicationState, (publicationOf revision).publishedAt,
    (publicationOf revision).publishedBy, (publicationOf revision).contentDigest⟩ : Publication) =
      publicationOf revision from rfl, makeRevision_fields]

end

end TaskControl.Persistence
