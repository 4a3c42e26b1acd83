import TaskControl.Domain.Constructors
import TaskControl.Domain.ManifestCodec
import TaskControl.Domain.ValueCodec
import TaskControl.Runtime.Runs

/-!
# Task bundles

A task and one of its revisions as plain data.  What an export writes is imported as
the bundle that it was, and what an import accepts is exported and imported again
unchanged.
-/

set_option autoImplicit false

namespace TaskControl.Serialization

open PythonText JsonText Effects IsoTime

/-! ## Bundles -/

structure TaskBundle where
  task : Task
  revision : TaskRevision
  belongs : revision.taskId = task.taskId

/-- The constructor. -/
def TaskBundle.make (task : Task) (revision : TaskRevision) : Except TaskControlError TaskBundle :=
  if belongs : revision.taskId = task.taskId then .ok ⟨task, revision, belongs⟩
  else
    .error (validationError "The revision in a bundle must belong to the bundle's task.")

def taskFields (task : Task) : List (String × Json) :=
  [("task_id", idJson task.taskId),
    ("name", textJson task.name),
    ("slug", textJson task.slug.value),
    ("description", textJson task.description),
    ("owner_id", idJson task.ownerId),
    ("lifecycle_state", wordJson task.lifecycleState.wire),
    ("active_revision_id", optionJson idJson task.activeRevisionId),
    ("labels", .arr ((sortedTexts task.labels).map textJson)),
    ("created_at", timestampJson task.createdAt),
    ("created_by", idJson task.createdBy),
    ("updated_at", optionJson timestampJson task.updatedAt),
    ("updated_by", optionJson idJson task.updatedBy)]

def revisionFields (revision : TaskRevision) : List (String × Json) :=
  [("revision_id", idJson revision.revisionId),
    ("revision_number", natJson revision.revisionNumber.value),
    ("publication_state", wordJson revision.publicationState.wire),
    ("change_summary", textJson revision.changeSummary),
    ("created_at", timestampJson revision.createdAt),
    ("created_by", idJson revision.createdBy),
    ("published_at", optionJson timestampJson revision.publishedAt),
    ("published_by", optionJson idJson revision.publishedBy),
    ("content_digest", optionJson digestJson revision.contentDigest),
    ("action", revision.action.toPrimitive),
    ("controls", revision.controls.toPrimitive),
    ("deployment", revision.deployment.toPrimitive),
    ("activation_schedule", optionJson CronExpression.toPrimitive revision.activationSchedule)]

def bundleKind : String := "TaskBundle"

def bundleFields (task : Task) (revision : TaskRevision) : List (String × Json) :=
  [("kind", wordJson bundleKind),
    ("schema_version", textJson revision.schemaVersion.text),
    ("task", dictionary (taskFields task)),
    ("revision", dictionary (revisionFields revision))]

/-- `to_primitive`. -/
def TaskBundle.toPrimitive (bundle : TaskBundle) : Json :=
  dictionary (bundleFields bundle.task bundle.revision)

/-! ## Importing -/

/-- `_require_mapping`. -/
def requireMapping (members : List (Points × Json)) (key : String) :
    Reading (List (Points × Json)) :=
  match valueAt? members key with
  | some (.obj inner) => .ok inner
  | _ => invalidPrimitive

def isKind : Option Json → Bool
  | some (.str s) => decide (s = nameOf bundleKind)
  | _ => false

def readTask (members : List (Points × Json)) : Reading Task := do
  let taskId ← item members "task_id" >>= idValue .task
  let name ← item members "name"
  let slug ← item members "slug" >>= fun value => relayed (checked Slug.make value)
  let ownerId ← item members "owner_id" >>= idValue .owner
  let createdAt ← item members "created_at" >>= timestampValue
  let createdBy ← item members "created_by" >>= idValue .owner
  let lifecycleState ← wordValue lifecycleStates TaskLifecycleState.wire .draft
    (valueAt? members "lifecycle_state")
  let activeRevisionId ← whenTruthy (idValue .taskRevision) (valueAt members "active_revision_id")
  let labels ← listValue (valueAt members "labels")
  let labels ← labels.mapM textValue
  let updatedAt ← whenTruthy timestampValue (valueAt members "updated_at")
  let updatedBy ← whenTruthy (idValue .owner) (valueAt members "updated_by")
  let name ← stringValue name
  let description ← textValue ((valueAt? members "description").getD (textJson []))
  constructed (makeTask taskId name slug ownerId createdAt createdBy description lifecycleState
    activeRevisionId labels.toFinset updatedAt updatedBy)

def readPublication (members : List (Points × Json)) (state : PublicationState) :
    Reading Publication := do
  let publishedAt ← whenTruthy timestampValue (valueAt members "published_at")
  let publishedBy ← whenTruthy (idValue .owner) (valueAt members "published_by")
  let contentDigest ← whenTruthy digestValue (valueAt members "content_digest")
  return { state, publishedAt, publishedBy, contentDigest }

def readRevision (classes : CharacterClasses) (taskId : TaskId) (schemaVersion : SchemaVersion)
    (members : List (Points × Json)) : Reading TaskRevision := do
  let revisionId ← item members "revision_id" >>= idValue .taskRevision
  let revisionNumber ← InstalledRevision.readNumber members "revision_number"
  let action ← item members "action" >>= ActionSpecification.fromPrimitive classes
  let createdAt ← item members "created_at" >>= timestampValue
  let createdBy ← item members "created_by" >>= idValue .owner
  let state ← wordValue publicationStates PublicationState.wire .draft
    (valueAt? members "publication_state")
  let controls ← ExecutionControls.fromPrimitive (orEmpty (valueAt members "controls"))
  let deployment ←
    DeploymentSpecification.fromPrimitive classes (orEmpty (valueAt members "deployment"))
  let activationSchedule ←
    whenTruthy CronExpression.fromPrimitive (valueAt members "activation_schedule")
  let publication ← readPublication members state
  let changeSummary ← textValue ((valueAt? members "change_summary").getD (textJson []))
  constructed (makeRevision revisionId taskId revisionNumber action createdAt createdBy
    schemaVersion controls deployment activationSchedule changeSummary publication)

/-- `from_primitive`. -/
def TaskBundle.fromPrimitive (classes : CharacterClasses) (data : Json) : Reading TaskBundle := do
  let members ← mapping data
  if isKind (valueAt? members "kind") then
    let schemaVersion ← schemaValue ((valueAt? members "schema_version").getD (textJson []))
    if schemaVersion.isCompatibleWith currentRevisionSchemaVersion then
      let taskData ← requireMapping members "task"
      let revisionData ← requireMapping members "revision"
      let task ← readTask taskData
      let revision ← readRevision classes task.taskId schemaVersion revisionData
      constructed (make task revision)
    else invalidPrimitive
  else invalidPrimitive

/-! ## An export is imported -/

/-- The instants of a task are those of a `datetime`. -/
structure StorableTask (task : Task) : Prop where
  createdAt : InRange task.createdAt.value
  updatedAt : ∀ moment ∈ task.updatedAt, InRange moment.value

theorem readTask_written {task : Task} (storable : StorableTask task) :
    readTask (entries (taskFields task)) = .ok task := by
  have lifecycleState := @wordValue_wordJson _ lifecycleStates TaskLifecycleState.wire (by decide)
    task.lifecycleState (by cases task.lifecycleState <;> decide) .draft
  have labels := @mapM_written _ textValue textJson (sortedTexts task.labels)
    fun label _ => textValue_textJson label
  have slug := checked_pointsOf Slug.make (Slug.make_value task.slug)
  change checked Slug.make (textJson task.slug.value) = _ at slug
  have createdAt := timestampValue_timestampJson storable.createdAt
  have updatedAt := whenTruthy_timestamp storable.updatedAt
  simp [readTask, taskFields, item, valueAt, bind, Except.bind, idValue_idJson, slug, relayed,
    createdAt, lifecycleState, labels, whenTruthy_id, updatedAt, makeTask_fields, constructed]

theorem readRevision_written {classes : CharacterClasses} {revision : TaskRevision}
    (storable : revision.Storable classes) :
    readRevision classes revision.taskId revision.schemaVersion
        (entries (revisionFields revision)) = .ok revision := by
  have state := @wordValue_wordJson _ publicationStates PublicationState.wire (by decide)
    revision.publicationState (by cases revision.publicationState <;> decide) .draft
  have number := @InstalledRevision.readNumber_written (entries (revisionFields revision))
    "revision_number" revision.revisionNumber (by simp [revisionFields])
  have createdAt := timestampValue_timestampJson storable.createdAt
  have publication (state : PublicationState) :
      readPublication (entries (revisionFields revision)) state =
        .ok { publicationOf revision with state } := by
    have publishedAt := whenTruthy_timestamp storable.publishedAt
    simp [readPublication, revisionFields, valueAt, bind, Except.bind, publishedAt, whenTruthy_id,
      whenTruthy_digest]
    rfl
  have schedule := CronExpression.whenTruthy_toPrimitive storable.activationSchedule
  simp only [readRevision, number, publication, bind, Except.bind]
  simp [revisionFields, item, valueAt, idValue_idJson, createdAt, state,
    ActionSpecification.fromPrimitive_toPrimitive storable.action,
    ExecutionControls.fromPrimitive_toPrimitive, InstalledRevision.orEmpty_controls,
    InstalledRevision.orEmpty_deployment,
    DeploymentSpecification.fromPrimitive_toPrimitive storable.deployment, schedule]
  exact congrArg constructed (makeRevision_fields revision)

theorem requireMapping_dictionary {members : List (Points × Json)} {key : String}
    {fields : List (String × Json)} (held : valueAt? members key = some (dictionary fields)) :
    requireMapping members key = .ok (entries fields) := by
  simp only [requireMapping, held, dictionary]

/-- What a bundle needs to be read back: instants of a `datetime`, a revision that can be
stored, and a schema version of this build. -/
structure TaskBundle.Storable (classes : CharacterClasses) (bundle : TaskBundle) : Prop where
  task : StorableTask bundle.task
  revision : bundle.revision.Storable classes
  compatible :
    bundle.revision.schemaVersion.isCompatibleWith currentRevisionSchemaVersion = true

/-- An export is imported as the bundle that it was. -/
theorem fromPrimitive_toPrimitive {classes : CharacterClasses} {bundle : TaskBundle}
    (storable : bundle.Storable classes) :
    TaskBundle.fromPrimitive classes bundle.toPrimitive = .ok bundle := by
  obtain ⟨task, revision, belongs⟩ := bundle
  have kind : isKind (some (wordJson bundleKind)) = true := by simp [isKind, wordJson]
  have written := readRevision_written storable.revision
  rw [belongs] at written
  have made : TaskBundle.make task revision = .ok ⟨task, revision, belongs⟩ := dif_pos belongs
  have taskData : requireMapping (entries (bundleFields task revision)) "task" =
      .ok (entries (taskFields task)) := requireMapping_dictionary (by simp [bundleFields])
  have revisionData : requireMapping (entries (bundleFields task revision)) "revision" =
      .ok (entries (revisionFields revision)) := requireMapping_dictionary (by simp [bundleFields])
  have version : valueAt? (entries (bundleFields task revision)) "schema_version" =
      some (textJson revision.schemaVersion.text) := by simp [bundleFields]
  have named : valueAt? (entries (bundleFields task revision)) "kind" =
      some (wordJson bundleKind) := by simp [bundleFields]
  have compatible := storable.compatible
  simp only [TaskBundle.fromPrimitive, TaskBundle.toPrimitive, dictionary, mapping, bind,
    Except.bind, named, kind, version, Option.getD_some,
    schemaValue_text (SchemaVersion.readable_of_compatible compatible), compatible, taskData,
    revisionData, readTask_written storable.task, written, made, constructed, if_true]

/-! ## An import is exported -/

theorem storable_of_task {members : List (Points × Json)} {task : Task}
    (read : readTask members = .ok task) : StorableTask task := by
  obtain ⟨taskId, _, read⟩ := except_bind_eq_ok.mp read
  obtain ⟨name, _, read⟩ := except_bind_eq_ok.mp read
  obtain ⟨slug, _, read⟩ := except_bind_eq_ok.mp read
  obtain ⟨ownerId, _, read⟩ := except_bind_eq_ok.mp read
  obtain ⟨createdAt, created, read⟩ := except_bind_eq_ok.mp read
  obtain ⟨createdBy, _, read⟩ := except_bind_eq_ok.mp read
  obtain ⟨lifecycleState, _, read⟩ := except_bind_eq_ok.mp read
  obtain ⟨activeRevisionId, _, read⟩ := except_bind_eq_ok.mp read
  obtain ⟨items, _, read⟩ := except_bind_eq_ok.mp read
  obtain ⟨labels, _, read⟩ := except_bind_eq_ok.mp read
  obtain ⟨updatedAt, updated, read⟩ := except_bind_eq_ok.mp read
  obtain ⟨updatedBy, _, read⟩ := except_bind_eq_ok.mp read
  obtain ⟨called, _, read⟩ := except_bind_eq_ok.mp read
  obtain ⟨description, _, read⟩ := except_bind_eq_ok.mp read
  obtain ⟨sameCreated, sameUpdated⟩ := makeTask_ok (constructed_ok read)
  refine ⟨sameCreated ▸ inRange_of_item created, fun moment member => ?_⟩
  rw [sameUpdated] at member
  exact inRange_of_timestamp (whenTruthy_ok updated moment member)

theorem storable_of_revision {classes : CharacterClasses} {taskId : TaskId}
    {schemaVersion : SchemaVersion} {members : List (Points × Json)} {revision : TaskRevision}
    (read : readRevision classes taskId schemaVersion members = .ok revision) :
    revision.Storable classes ∧ revision.schemaVersion = schemaVersion := by
  obtain ⟨revisionId, _, read⟩ := except_bind_eq_ok.mp read
  obtain ⟨revisionNumber, _, read⟩ := except_bind_eq_ok.mp read
  obtain ⟨action, acts, read⟩ := except_bind_eq_ok.mp read
  obtain ⟨createdAt, created, read⟩ := except_bind_eq_ok.mp read
  obtain ⟨createdBy, _, read⟩ := except_bind_eq_ok.mp read
  obtain ⟨state, _, read⟩ := except_bind_eq_ok.mp read
  obtain ⟨controls, _, read⟩ := except_bind_eq_ok.mp read
  obtain ⟨deployment, deploys, read⟩ := except_bind_eq_ok.mp read
  obtain ⟨activationSchedule, scheduled, read⟩ := except_bind_eq_ok.mp read
  obtain ⟨publication, published, read⟩ := except_bind_eq_ok.mp read
  obtain ⟨changeSummary, _, read⟩ := except_bind_eq_ok.mp read
  have made := makeRevision_ok (constructed_ok read)
  obtain ⟨_, _, acts⟩ := except_bind_eq_ok.mp acts
  obtain ⟨publishedAt, since, published⟩ := except_bind_eq_ok.mp published
  obtain ⟨publishedBy, _, published⟩ := except_bind_eq_ok.mp published
  obtain ⟨contentDigest, _, published⟩ := except_bind_eq_ok.mp published
  cases published
  refine ⟨⟨?_, ?_, ?_, ?_, ?_⟩, made.schemaVersion⟩
  · rw [made.action]
    exact ActionSpecification.storable_of_read acts
  · rw [made.deployment]
    exact DeploymentSpecification.storable_of_read deploys
  · rw [made.activationSchedule]
    exact fun schedule member =>
      CronExpression.storable_of_read (whenTruthy_ok scheduled schedule member)
  · rw [made.createdAt]
    exact inRange_of_item created
  · rw [made.publishedAt]
    exact fun moment member => inRange_of_timestamp (whenTruthy_ok since moment member)

/-- What an import accepts can be read back from an export. -/
theorem storable_of_import {classes : CharacterClasses} {data : Json} {bundle : TaskBundle}
    (read : TaskBundle.fromPrimitive classes data = .ok bundle) : bundle.Storable classes := by
  obtain ⟨members, _, read⟩ := except_bind_eq_ok.mp read
  split at read
  · obtain ⟨schemaVersion, _, read⟩ := except_bind_eq_ok.mp read
    split at read
    · next compatible =>
        obtain ⟨taskData, _, read⟩ := except_bind_eq_ok.mp read
        obtain ⟨revisionData, _, read⟩ := except_bind_eq_ok.mp read
        obtain ⟨task, taskRead, read⟩ := except_bind_eq_ok.mp read
        obtain ⟨revision, revisionRead, read⟩ := except_bind_eq_ok.mp read
        have made := constructed_ok read
        obtain ⟨storable, same⟩ := storable_of_revision revisionRead
        unfold TaskBundle.make at made
        split at made
        · cases made
          exact ⟨storable_of_task taskRead, storable, same ▸ compatible⟩
        · cases made
    · cases read
  · cases read

namespace Backup

def bundle : TaskBundle := ⟨Runtime.Backup.task, Runtime.Backup.revision, rfl⟩

theorem bundle_storable : bundle.Storable CharacterClasses.ascii where
  task := ⟨by decide, fun moment held => absurd held (Option.not_mem_none moment)⟩
  revision := {
    action := fun _ member => absurd member List.not_mem_nil
    deployment := fun user named => absurd named (Option.not_mem_none user)
    activationSchedule := fun schedule held => absurd held (Option.not_mem_none schedule)
    createdAt := by decide
    publishedAt := fun moment held => by
      cases held
      decide }
  compatible := rfl

end Backup

end TaskControl.Serialization
