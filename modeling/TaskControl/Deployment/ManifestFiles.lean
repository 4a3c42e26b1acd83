import TaskControl.Deployment.Publication
import TaskControl.Domain.ManifestCodec
import TaskControl.Foundation.JsonIndented

/-!
# Manifest files

`InstalledRevisionStore.install` writes a manifest as indented JSON, and `load` reads
the file that is under a slug's path and checks it against its own digest.  The
digest covers the work: a file that was edited is accepted exactly when it still
says the same work, whatever it says of the identity.  A revision of an older schema
is never accepted, because its manifest is digested under the current one.
-/

set_option autoImplicit false

namespace TaskControl.Deployment

open PythonText JsonText Effects

/-! ## Files -/

/-- The text that `install` writes; none where `json.dumps` raises. -/
def manifestText (limits : Interpreter) (installed : InstalledRevision) : Option Text :=
  (dumpsValue limits 0 installed.toPrimitive).map (· ++ ['\n'])

/-- What `load` raises. -/
inductive LoadError where
  | notFound (error : TaskControlError)
  | unreadable (error : ReadError)
  | modified (error : TaskControlError)
  deriving DecidableEq

/-- How parsing ends that gives no value: text that is no JSON is refused. -/
def parseError : JsonError → ReadError
  | .decode => .raised .validation
  | .recursion => .raised .recursion
  | .digits => .raised .value

/-- `load`, where the file can be read as text if there is one. -/
def load (limits : Interpreter) (classes : CharacterClasses) (digest : Json → ContentDigest)
    (slug : Slug) (file : Option Text) : Except LoadError InstalledRevision :=
  match file with
  | none =>
      .error (.notFound (notFoundError
        (s!"No installed revision for '{String.ofList slug.value}' on this host. Run " ++
          "'taskctl schedule apply' to install it.")))
  | some text =>
      match loads limits text with
      | .error failed => .error (.unreadable (parseError failed))
      | .ok data =>
          match InstalledRevision.fromPrimitive classes data with
          | .error error => .error (.unreadable error)
          | .ok installed =>
              match installed.verifyIntegrity digest with
              | .error error => .error (.modified error)
              | .ok () => .ok installed

/-! ## What is written is parsed -/

/-- JSON without surrogates to join, in so many levels at most. -/
structure Nests (levels : Nat) (value : Json) : Prop where
  settled : value.joined = value
  depth : value.depth ≤ levels

section

variable {levels : Nat}

theorem Nests.mono {more : Nat} {value : Json} (nests : Nests levels value) (fewer : levels ≤ more) :
    Nests more value := ⟨nests.settled, nests.depth.trans fewer⟩

theorem nests_text (t : Text) : Nests levels (textJson t) :=
  ⟨congrArg Json.str (joinSurrogates_pointsOf t), Nat.zero_le _⟩

theorem nests_word (wire : String) : Nests levels (wordJson wire) := nests_text wire.toList

theorem nests_nat (n : Nat) : Nests levels (natJson n) := ⟨rfl, Nat.zero_le _⟩

theorem nests_bool (value : Bool) : Nests levels (.bool value) := ⟨rfl, Nat.zero_le _⟩

theorem nests_option {α : Type} {write : α → Json} (each : ∀ content, Nests levels (write content))
    (value : Option α) : Nests levels (optionJson write value) := by
  cases value with
  | none => exact ⟨rfl, Nat.zero_le _⟩
  | some content => exact each content

theorem nests_items {items : List Json} (each : ∀ item ∈ items, Nests levels item) :
    joinedItems items = items ∧ depthItems items ≤ levels := by
  induction items with
  | nil => exact ⟨rfl, Nat.zero_le _⟩
  | cons item rest ih =>
      obtain ⟨here, later⟩ := List.forall_mem_cons.mp each
      obtain ⟨joined, deep⟩ := ih later
      exact ⟨by rw [joinedItems, here.settled, joined], max_le here.depth deep⟩

theorem nests_list {α : Type} {write : α → Json} (each : ∀ item, Nests levels (write item))
    (items : List α) : Nests (levels + 1) (.arr (items.map write)) := by
  have all : ∀ item ∈ items.map write, Nests levels item := by
    intro item member
    obtain ⟨content, _, rfl⟩ := List.mem_map.mp member
    exact each content
  obtain ⟨joined, deep⟩ := nests_items all
  exact ⟨congrArg Json.arr joined, Nat.succ_le_succ deep⟩

theorem nests_dictionary {fields : List (String × Json)}
    (each : ∀ field ∈ fields, Nests levels field.2) : Nests (levels + 1) (dictionary fields) := by
  have members : joinedFields (entries fields) = entries fields ∧
      depthFields (entries fields) ≤ levels := by
    induction fields with
    | nil => exact ⟨rfl, Nat.zero_le _⟩
    | cons field rest ih =>
        obtain ⟨here, later⟩ := List.forall_mem_cons.mp each
        obtain ⟨joined, deep⟩ := ih later
        refine ⟨?_, max_le here.depth deep⟩
        have name : joinSurrogates (nameOf field.1) = nameOf field.1 := joinSurrogates_pointsOf _
        change (joinSurrogates (nameOf field.1), field.2.joined) :: joinedFields (entries rest) = _
        rw [name, here.settled, joined]
        rfl
  exact ⟨congrArg Json.obj members.1, Nat.succ_le_succ members.2⟩

end

theorem nests_binding (binding : EnvironmentBinding) : Nests 1 binding.toPrimitive := by
  obtain ⟨name, content, named⟩ := binding
  cases content with
  | value text =>
      exact nests_dictionary (by simp [nests_text])
  | secret reference =>
      exact nests_dictionary (by simp [nests_text])

theorem nests_action (action : ActionSpecification) : Nests 3 action.toPrimitive := by
  refine nests_dictionary ?_
  have arguments := (@nests_list 0 _ textJson nests_text action.arguments).mono
    (show 1 ≤ 2 by decide)
  have capabilities := (@nests_list 0 _ textJson nests_text
    (sortedTexts action.requiredCapabilities)).mono (show 1 ≤ 2 by decide)
  have environment := nests_list nests_binding action.environment
  have directory := @nests_option 2 _ textJson nests_text action.workingDirectory
  simp [nests_text, nests_word, nests_bool, arguments, capabilities, environment, directory]

theorem nests_controls (controls : ExecutionControls) : Nests 2 controls.toPrimitive := by
  refine nests_dictionary ?_
  have timeout : Nests 1 (dictionary (ExecutionControls.timeoutFields controls.timeout)) :=
    nests_dictionary (by simp [ExecutionControls.timeoutFields, nests_nat])
  have retry : Nests 1 (dictionary (ExecutionControls.retryFields controls.retry)) :=
    nests_dictionary (by simp [ExecutionControls.retryFields, nests_nat, nests_word, nests_bool])
  simp [timeout, retry, nests_nat, nests_word]

theorem nests_deployment (deployment : DeploymentSpecification) :
    Nests 1 deployment.toPrimitive := by
  refine nests_dictionary ?_
  have classification := @nests_option 0 _ (fun word : PeriodicClassification => wordJson word.wire)
    (fun word => nests_word word.wire) deployment.classification
  have executionUser := @nests_option 0 _ textJson nests_text deployment.executionUser
  simp [nests_word, classification, executionUser]

theorem nests_manifest (installed : InstalledRevision) : Nests 4 installed.toPrimitive := by
  refine nests_dictionary ?_
  have action := nests_action installed.action
  have controls := (nests_controls installed.controls).mono (show 2 ≤ 3 by decide)
  have deployment := (nests_deployment installed.deployment).mono (show 1 ≤ 3 by decide)
  have schedule := @nests_option 3 _ textJson nests_text installed.activationSchedule
  simp [InstalledRevision.fields, nests_text, nests_nat, action, controls, deployment, schedule]

section

variable {limits : Interpreter} {classes : CharacterClasses} {digest : Json → ContentDigest}
  {installed edited : InstalledRevision} {slug : Slug} {text : Text}

theorem loads_manifestText (written : manifestText limits installed = some text)
    (deep : 4 ≤ limits.maxDepth) : loads limits text = .ok installed.toPrimitive := by
  obtain ⟨lines, dumped, rfl⟩ := Option.map_eq_some_iff.mp written
  have nests := nests_manifest installed
  rw [loads_dumpsValue dumped (nests.depth.trans deep), nests.settled]

theorem ContentDigest.eq_of_value {first second : ContentDigest}
    (same : first.value = second.value) : first = second := by
  cases first
  cases second
  cases same
  rfl

/-- A manifest passes its check exactly if its content has its digest. -/
theorem verifyIntegrity_iff :
    installed.verifyIntegrity digest = .ok () ↔
      digest installed.digestibleContent = installed.contentDigest := by
  unfold InstalledRevision.verifyIntegrity
  split
  · next same => exact iff_of_true rfl (ContentDigest.eq_of_value same)
  · next other => exact iff_of_false nofun fun same => other (congrArg ContentDigest.value same)

/-- What is loaded is a manifest that was parsed and has its own digest. -/
theorem load_ok (loaded : load limits classes digest slug (some text) = .ok installed) :
    installed.Storable classes ∧ digest installed.digestibleContent = installed.contentDigest := by
  unfold load at loaded
  split at loaded
  · cases loaded
  · split at loaded
    · cases loaded
    · split at loaded
      · cases loaded
      · next parsed =>
          split at loaded
          · cases loaded
          · next verified =>
              cases loaded
              exact ⟨InstalledRevision.storable_of_read parsed, verifyIntegrity_iff.mp verified⟩

/-- A file that was written is loaded as the manifest that it was written from, if it has its own
digest. -/
theorem load_verified (storable : installed.Storable classes)
    (written : manifestText limits installed = some text) (deep : 4 ≤ limits.maxDepth)
    (same : digest installed.digestibleContent = installed.contentDigest) :
    load limits classes digest slug (some text) = .ok installed := by
  unfold load
  simp only [loads_manifestText written deep,
    InstalledRevision.fromPrimitive_toPrimitive storable, verifyIntegrity_iff.mpr same]

theorem load_modified (storable : installed.Storable classes)
    (written : manifestText limits installed = some text) (deep : 4 ≤ limits.maxDepth)
    (other : digest installed.digestibleContent ≠ installed.contentDigest) :
    load limits classes digest slug (some text) = .error (.modified installed.modified) := by
  have refused : installed.verifyIntegrity digest = .error installed.modified :=
    if_neg fun equal => other (ContentDigest.eq_of_value equal)
  unfold load
  simp only [loads_manifestText written deep,
    InstalledRevision.fromPrimitive_toPrimitive storable, refused]

end

/-! ## Edits -/

/-- The two contents do not share a digest. -/
def Distinguishes (digest : Json → ContentDigest) (first second : Json) : Prop :=
  digest first = digest second → first = second

theorem publishable_compatible {revision : TaskRevision}
    (accepted : revision.assertPublishable = .ok ()) :
    revision.schemaVersion.isCompatibleWith currentRevisionSchemaVersion = true := by
  unfold TaskRevision.assertPublishable at accepted
  split at accepted
  · cases accepted
  · split at accepted
    · cases accepted
    · next compatible => exact not_not.mp compatible

/-- Of the versions that can be published, each has a text of its own. -/
theorem version_of_text {version : SchemaVersion}
    (compatible : version.isCompatibleWith currentRevisionSchemaVersion = true)
    (same : version.text = currentRevisionSchemaVersion.text) :
    version = currentRevisionSchemaVersion := by
  obtain ⟨major, minor⟩ := version
  obtain ⟨rfl, fewer⟩ := of_decide_eq_true compatible
  have bounded : minor ≤ 2 := fewer
  interval_cases minor
  · revert same
    decide
  · revert same
    decide
  · rfl

theorem textJson_injective {first second : Text} (same : textJson first = textJson second) :
    first = second := pointOf_injective.list_map (Json.str.inj same)

/-- What a manifest has from its revision. -/
structure TakenFrom (revision : TaskRevision) (installed : InstalledRevision) : Prop where
  action : installed.action = revision.action
  controls : installed.controls = revision.controls
  deployment : installed.deployment = revision.deployment
  contentDigest : revision.contentDigest = some installed.contentDigest

theorem install_takenFrom {task : Task} {revision : TaskRevision} {installed : InstalledRevision}
    (made : InstalledRevision.install task revision = .ok installed) :
    TakenFrom revision installed := by
  unfold InstalledRevision.install at made
  split at made
  · cases made
  · next digested =>
      cases made
      exact ⟨rfl, rfl, rfl, digested⟩

/-- The content of a manifest is that of its revision exactly where the schema is the current one. -/
theorem digestible_installed {task : Task} {revision : TaskRevision} {installed : InstalledRevision}
    (made : InstalledRevision.install task revision = .ok installed)
    (compatible : revision.schemaVersion.isCompatibleWith currentRevisionSchemaVersion = true) :
    revision.canonicalContent = installed.digestibleContent ↔
      revision.schemaVersion = currentRevisionSchemaVersion := by
  unfold InstalledRevision.install at made
  split at made
  · cases made
  · cases made
    constructor
    · intro same
      have versions := congrArg (fun members => valueAt? members "schema_version") (Json.obj.inj same)
      simp at versions
      exact version_of_text compatible (textJson_injective versions)
    · intro current
      have schedule : optionJson CronExpression.toPrimitive revision.activationSchedule =
          optionJson textJson (revision.activationSchedule.map CronExpression.expression) := by
        cases revision.activationSchedule <;> rfl
      unfold TaskRevision.canonicalContent InstalledRevision.digestibleContent
      rw [current, schedule]

namespace Backup

theorem depth_allowed : 1 ≤ 10 := by decide

theorem digits_allowed : ∀ limit ∈ (none : Option Nat), 640 ≤ limit := nofun

def interpreter : Interpreter := ⟨10, none, depth_allowed, digits_allowed⟩

/-- Every content has this digest. -/
def constant : Json → ContentDigest := fun _ => Runtime.Backup.digest

theorem draft_storable : draft.Storable CharacterClasses.ascii where
  action := fun _ member => absurd member List.not_mem_nil
  deployment := fun user named => absurd named (Option.not_mem_none user)
  activationSchedule := fun schedule held => absurd held (Option.not_mem_none schedule)
  createdAt := by decide
  publishedAt := fun moment held => absurd held (Option.not_mem_none moment)

/-- The manifest of the published draft. -/
def manifest : InstalledRevision where
  taskId := Runtime.Backup.taskId
  slug := Runtime.Backup.task.slug
  revisionId := Runtime.Backup.revisionId
  revisionNumber := draft.revisionNumber
  contentDigest := Runtime.Backup.digest
  action := Runtime.Backup.action
  controls := Runtime.Backup.controls
  deployment := .default
  activationSchedule := none
  description := "Backup".toList

theorem draft_published : draft.publish (TaskRevision.computeDigest constant)
    Runtime.Backup.ownerId ⟨0⟩ = .ok Runtime.Backup.revision := rfl

theorem revision_installed :
    InstalledRevision.install Runtime.Backup.task Runtime.Backup.revision = .ok manifest := rfl

theorem contents_distinguished :
    Distinguishes constant draft.canonicalContent manifest.digestibleContent :=
  fun _ => (digestible_installed revision_installed rfl).mpr rfl

theorem manifest_written : ∃ text, manifestText interpreter manifest = some text :=
  Option.isSome_iff_exists.mp (by decide +kernel)

end Backup

end TaskControl.Deployment
