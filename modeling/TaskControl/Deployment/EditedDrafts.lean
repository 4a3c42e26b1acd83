import TaskControl.Deployment.ManifestFiles
import TaskControl.Persistence.RevisionHistory

/-!
# Edited drafts

`with_changes` edits a draft in memory and `save_state` writes no content.  A draft that is
edited, published and saved is stored with the digest of the edit and the content of the
draft, and its manifest loads exactly if the edit changed nothing of the content.
-/

set_option autoImplicit false

namespace TaskControl.Deployment

open PythonText JsonText Effects Persistence

section

variable {classes : CharacterClasses} {digest : Json → ContentDigest}

/-- An edit that is published keeps the identity of the draft and has its own digest. -/
theorem published_edit {copy edited published : TaskRevision} {changes : Changes}
    {publishedBy : OwnerId} {publishedAt : UtcTimestamp}
    (edit : withChanges copy changes = .ok edited)
    (done : edited.publish (TaskRevision.computeDigest digest) publishedBy publishedAt =
      .ok published) :
    published.revisionId = copy.revisionId ∧ published.publicationState = .published ∧
      published.contentDigest = some (digest edited.canonicalContent) := by
  unfold withChanges at edit
  split at edit
  · obtain ⟨_, _, rest⟩ := except_bind_eq_ok.mp done
    obtain ⟨_, _, rest⟩ := except_bind_eq_ok.mp rest
    cases rest
    exact ⟨(makeRevision_ok edit).revisionId, rfl, rfl⟩
  · cases edit

/-- The manifest of a kept revision of the current schema loads exactly if the revision has its own
digest. -/
theorem installed_loads_iff {limits : Interpreter} {slug : Slug} {text : Text} {task : Task}
    {stored : TaskRevision} {installed : InstalledRevision} {held : ContentDigest}
    (kept : Kept classes stored) (current : stored.schemaVersion = currentRevisionSchemaVersion)
    (has : stored.contentDigest = some held)
    (made : InstalledRevision.install task stored = .ok installed)
    (written : manifestText limits installed = some text) (deep : 4 ≤ limits.maxDepth) :
    load limits classes digest slug (some text) = .ok installed ↔
      digest stored.canonicalContent = held := by
  have compatible : stored.schemaVersion.isCompatibleWith currentRevisionSchemaVersion = true := by
    rw [current]
    rfl
  have content := (digestible_installed made compatible).mpr current
  obtain ⟨action, _, deployment, digested⟩ := install_takenFrom made
  have named : held = installed.contentDigest := Option.some.inj (has.symm.trans digested)
  have storable : installed.Storable classes := by
    constructor
    · rw [action]
      exact kept.action
    · rw [deployment]
      exact kept.deployment
  rw [content, named]
  exact ⟨fun loaded => (load_ok loaded).2, load_verified storable written deep⟩

end

namespace Backup

theorem onesShaped : digestShaped ("sha256:".toList ++ List.replicate 64 '1') = true := by
  decide +kernel

def ones : ContentDigest := ⟨"sha256:".toList ++ List.replicate 64 '1', onesShaped⟩

def editedVersion : Text := "1.1".toList

/-- One digest for the contents of the edited version and one for all others. -/
def versioned : Json → ContentDigest
  | .obj members =>
      match valueAt? members "schema_version" with
      | some (.str version) =>
          if version = pointsOf editedVersion then ones else Runtime.Backup.digest
      | _ => Runtime.Backup.digest
  | _ => Runtime.Backup.digest

/-- The draft with another schema version. -/
def changes : Changes where
  action := draft.action
  schemaVersion := ⟨1, 1⟩
  controls := draft.controls
  deployment := draft.deployment
  activationSchedule := draft.activationSchedule
  changeSummary := draft.changeSummary

def edited : TaskRevision := { draft with schemaVersion := ⟨1, 1⟩ }

theorem draft_edited : withChanges draft changes = .ok edited := rfl

theorem versioned_edited : versioned edited.canonicalContent = ones :=
  ContentDigest.eq_of_value (by decide +kernel)

theorem versioned_draft : versioned draft.canonicalContent = Runtime.Backup.digest :=
  ContentDigest.eq_of_value (by decide +kernel)

theorem digests_differ : Runtime.Backup.digest ≠ ones :=
  fun same => absurd (congrArg ContentDigest.value same) (by decide +kernel)

theorem versioned_distinguishes :
    Distinguishes versioned draft.canonicalContent edited.canonicalContent := by
  intro same
  rw [versioned_draft, versioned_edited] at same
  exact absurd same digests_differ

end Backup

end TaskControl.Deployment
