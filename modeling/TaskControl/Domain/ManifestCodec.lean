import TaskControl.Domain.Manifest
import TaskControl.Domain.RevisionCodec

/-!
# Stored manifests

`to_primitive` and `from_primitive` of an installed revision, and the digest of what
it carries out.  The digest is a function of content that is primitive already; it
covers the work of a revision and not what the revision is called.
-/

set_option autoImplicit false

namespace TaskControl

open PythonText JsonText Effects

/-! ## Content -/

/-- `canonical_content`. -/
def TaskRevision.canonicalContent (revision : TaskRevision) : Json :=
  dictionary [
    ("schema_version", textJson revision.schemaVersion.text),
    ("action", revision.action.toPrimitive),
    ("controls", revision.controls.toPrimitive),
    ("deployment", revision.deployment.toPrimitive),
    ("activation_schedule", optionJson CronExpression.toPrimitive revision.activationSchedule)]

/-- `compute_digest`, over `ContentDigest.of_canonical`. -/
def TaskRevision.computeDigest (digest : Json → ContentDigest) (revision : TaskRevision) :
    ContentDigest := digest revision.canonicalContent

/-- The constructor on an integer. -/
def RevisionNumber.make (value : Int) : Except TaskControlError RevisionNumber :=
  if low : value < 1 then .error (validationError "RevisionNumber starts at 1.")
  else .ok ⟨value.toNat, positive_of low⟩

namespace InstalledRevision

/-- `_digestible_content`. -/
def digestibleContent (installed : InstalledRevision) : Json :=
  dictionary [
    ("schema_version", textJson currentRevisionSchemaVersion.text),
    ("action", installed.action.toPrimitive),
    ("controls", installed.controls.toPrimitive),
    ("deployment", installed.deployment.toPrimitive),
    ("activation_schedule", optionJson textJson installed.activationSchedule)]

/-- What `verify_integrity` says of a manifest that was changed. -/
def modified (installed : InstalledRevision) : TaskControlError :=
  validationError
    (s!"The installed manifest for '{String.ofList installed.slug.value}' does not match its own " ++
      "digest, so it was modified after installation. Refusing to run it. Re-run " ++
      "'taskctl schedule apply' to reinstall from the published revision.")

/-- `verify_integrity`. -/
def verifyIntegrity (digest : Json → ContentDigest) (installed : InstalledRevision) :
    Except TaskControlError Unit :=
  if (digest installed.digestibleContent).value = installed.contentDigest.value then .ok ()
  else .error installed.modified

/-! ## Writing and reading -/

def manifestFormatVersion : Nat := 1

def fields (installed : InstalledRevision) : List (String × Json) :=
  [("format_version", natJson manifestFormatVersion),
    ("task_id", textJson installed.taskId.text),
    ("slug", textJson installed.slug.value),
    ("revision_id", textJson installed.revisionId.text),
    ("revision_number", natJson installed.revisionNumber.value),
    ("content_digest", textJson installed.contentDigest.value),
    ("description", textJson installed.description),
    ("action", installed.action.toPrimitive),
    ("controls", installed.controls.toPrimitive),
    ("deployment", installed.deployment.toPrimitive),
    ("activation_schedule", optionJson textJson installed.activationSchedule)]

/-- `to_primitive`. -/
def toPrimitive (installed : InstalledRevision) : Json := dictionary installed.fields

section

variable (classes : CharacterClasses) (members : List (Points × Json))

/-- A required identifier, slug or digest. -/
def readChecked {α : Type} (make : Text → Except TaskControlError α) (key : String) : Reading α := do
  let value ← item members key
  relayed (checked make value)

def readNumber (key : String) : Reading RevisionNumber := do
  let value ← item members key
  let number ← wholeNumber value
  constructed (RevisionNumber.make number)

/-- The fields in the order in which the constructor is given them. -/
def readFields : Reading InstalledRevision := do
  let taskId ← readChecked members (EntityId.fromPrimitive .task) "task_id"
  let slug ← readChecked members Slug.make "slug"
  let revisionId ← readChecked members (EntityId.fromPrimitive .taskRevision) "revision_id"
  let revisionNumber ← readNumber members "revision_number"
  let contentDigest ← readChecked members ContentDigest.make "content_digest"
  let action ← item members "action"
  let action ← ActionSpecification.fromPrimitive classes action
  let controls ← ExecutionControls.fromPrimitive (orEmpty (valueAt members "controls"))
  let deployment ←
    DeploymentSpecification.fromPrimitive classes (orEmpty (valueAt members "deployment"))
  let activationSchedule ← optionally textValue (valueAt members "activation_schedule")
  let description ← textValue ((valueAt? members "description").getD (textJson []))
  return {
    taskId, slug, revisionId, revisionNumber, contentDigest, action, controls, deployment
    activationSchedule, description }

end

/-- `except KeyError`. -/
def requiringFields {α : Type} : Reading α → Reading α
  | .error (.missing _) => invalidPrimitive
  | result => result

/-- `from_primitive`. -/
def fromPrimitive (classes : CharacterClasses) (data : Json) : Reading InstalledRevision := do
  let members ← mapping data
  if (valueAt? members "format_version").any equalsOne then
    requiringFields (readFields classes members)
  else invalidPrimitive

/-! ## What is written is read back -/

variable {classes : CharacterClasses}

/-- What the constructors check that the fields do not keep. -/
structure Storable (classes : CharacterClasses) (installed : InstalledRevision) : Prop where
  action : installed.action.Storable classes
  deployment : installed.deployment.Storable classes

theorem readChecked_written {α : Type} {members : List (Points × Json)}
    {make : Text → Except TaskControlError α} {key : String} {t : Text} {value : α}
    (written : valueAt? members key = some (textJson t)) (made : make t = .ok value) :
    readChecked members make key = .ok value := by
  simp only [readChecked, item, written, bind, Except.bind, textJson, checked_pointsOf make made,
    relayed]

theorem readNumber_written {members : List (Points × Json)} {key : String} {number : RevisionNumber}
    (written : valueAt? members key = some (natJson number.value)) :
    readNumber members key = .ok number := by
  have some_ : ¬ (number.value : Int) < 1 := by
    have := number.positive
    omega
  have same : (number.value : Int).toNat = number.value := Int.toNat_natCast _
  simp only [readNumber, item, written, bind, Except.bind, wholeNumber_natJson, RevisionNumber.make,
    dif_neg some_, same, constructed]

theorem orEmpty_controls (controls : ExecutionControls) :
    orEmpty controls.toPrimitive = controls.toPrimitive := rfl

theorem orEmpty_deployment (deployment : DeploymentSpecification) :
    orEmpty deployment.toPrimitive = deployment.toPrimitive := rfl

theorem readFields_written {installed : InstalledRevision} (storable : installed.Storable classes) :
    readFields classes (entries installed.fields) = .ok installed := by
  have taskId := @readChecked_written _ (entries installed.fields) (EntityId.fromPrimitive .task)
    "task_id" _ _ (by simp [fields]) (EntityId.fromPrimitive_text installed.taskId)
  have slug := @readChecked_written _ (entries installed.fields) Slug.make "slug" _ _
    (by simp [fields]) (Slug.make_value installed.slug)
  have revisionId := @readChecked_written _ (entries installed.fields)
    (EntityId.fromPrimitive .taskRevision) "revision_id" _ _ (by simp [fields])
    (EntityId.fromPrimitive_text installed.revisionId)
  have revisionNumber := @readNumber_written (entries installed.fields) "revision_number"
    installed.revisionNumber (by simp [fields])
  have contentDigest := @readChecked_written _ (entries installed.fields) ContentDigest.make
    "content_digest" _ _ (by simp [fields]) (ContentDigest.make_value installed.contentDigest)
  have schedule := optionally_text installed.activationSchedule
  simp only [readFields, taskId, slug, revisionId, revisionNumber, contentDigest, bind, Except.bind]
  simp [item, valueAt, fields, orEmpty_controls, orEmpty_deployment, schedule,
    ActionSpecification.fromPrimitive_toPrimitive storable.action,
    ExecutionControls.fromPrimitive_toPrimitive,
    DeploymentSpecification.fromPrimitive_toPrimitive storable.deployment]
  rfl

theorem fromPrimitive_toPrimitive {installed : InstalledRevision}
    (storable : installed.Storable classes) :
    fromPrimitive classes installed.toPrimitive = .ok installed := by
  have version : (valueAt? (entries installed.fields) "format_version").any equalsOne = true := by
    simp [fields]
    rfl
  simp only [fromPrimitive, toPrimitive, mapping_dictionary, bind, Except.bind, version, if_true,
    readFields_written storable]
  rfl

/-! ## What is read is written back -/

theorem storable_of_fields {members : List (Points × Json)} {installed : InstalledRevision}
    (read : readFields classes members = .ok installed) : installed.Storable classes := by
  obtain ⟨taskId, _, read⟩ := except_bind_eq_ok.mp read
  obtain ⟨slug, _, read⟩ := except_bind_eq_ok.mp read
  obtain ⟨revisionId, _, read⟩ := except_bind_eq_ok.mp read
  obtain ⟨revisionNumber, _, read⟩ := except_bind_eq_ok.mp read
  obtain ⟨contentDigest, _, read⟩ := except_bind_eq_ok.mp read
  obtain ⟨value, _, read⟩ := except_bind_eq_ok.mp read
  obtain ⟨action, acts, read⟩ := except_bind_eq_ok.mp read
  obtain ⟨controls, _, read⟩ := except_bind_eq_ok.mp read
  obtain ⟨deployment, deploys, read⟩ := except_bind_eq_ok.mp read
  obtain ⟨activationSchedule, _, read⟩ := except_bind_eq_ok.mp read
  obtain ⟨description, _, read⟩ := except_bind_eq_ok.mp read
  cases read
  exact ⟨ActionSpecification.storable_of_read acts, DeploymentSpecification.storable_of_read deploys⟩

theorem storable_of_read {data : Json} {installed : InstalledRevision}
    (read : fromPrimitive classes data = .ok installed) : installed.Storable classes := by
  obtain ⟨members, _, read⟩ := except_bind_eq_ok.mp read
  split at read
  · cases done : readFields classes members with
    | ok other =>
        rw [done] at read
        cases read
        exact storable_of_fields done
    | error error =>
        rw [done] at read
        cases error <;> cases read
  · cases read

/-! ## Integrity -/

/-- The manifests carry out the same work. -/
structure SameWork (installed other : InstalledRevision) : Prop where
  action : other.action = installed.action
  controls : other.controls = installed.controls
  deployment : other.deployment = installed.deployment
  activationSchedule : other.activationSchedule = installed.activationSchedule

theorem SameWork.digestibleContent {installed other : InstalledRevision}
    (same : installed.SameWork other) : other.digestibleContent = installed.digestibleContent := by
  unfold InstalledRevision.digestibleContent
  rw [same.action, same.controls, same.deployment, same.activationSchedule]

/-- No two works have one content. -/
theorem sameWork_of_content {installed other : InstalledRevision}
    (storable : installed.Storable classes) (storable' : other.Storable classes)
    (same : other.digestibleContent = installed.digestibleContent) : installed.SameWork other := by
  have found (key : String) := congrArg (fun members => valueAt? members key) (Json.obj.inj same)
  have action := found "action"
  have controls := found "controls"
  have deployment := found "deployment"
  have schedule := found "activation_schedule"
  simp at action controls deployment schedule
  exact {
    action := eq_of_written (ActionSpecification.fromPrimitive_toPrimitive storable.action)
      (ActionSpecification.fromPrimitive_toPrimitive storable'.action) action
    controls := eq_of_written (ExecutionControls.fromPrimitive_toPrimitive installed.controls)
      (ExecutionControls.fromPrimitive_toPrimitive other.controls) controls
    deployment := eq_of_written
      (DeploymentSpecification.fromPrimitive_toPrimitive storable.deployment)
      (DeploymentSpecification.fromPrimitive_toPrimitive storable'.deployment) deployment
    activationSchedule := eq_of_written (optionally_text installed.activationSchedule)
      (optionally_text other.activationSchedule) schedule }

end InstalledRevision

end TaskControl
