import TaskControl.Deployment.Publication
import TaskControl.Foundation.Transition
import TaskControl.Persistence.DefinitionRecords

/-!
# Revisions over time

The repository of revisions, under any number of sessions: each reads revisions, publishes,
supersedes or withdraws the copies that it holds, and saves their state when it likes, however
old the copy.  A save writes no content, so a definition stays what it was when it was added
and a published one keeps its digest.
-/

set_option autoImplicit false

namespace TaskControl.Persistence

open PythonText JsonText Effects

/-! ## The repository -/

/-- The `task_revisions` table, and the keys of the tasks that its rows refer to. -/
structure RevisionTable where
  tasks : List Text
  rows : List TaskRevisionRecord

/-- The `CHECK` constraints. -/
def TaskRevisionRecord.checked (row : TaskRevisionRecord) : Bool :=
  (decide (row.publicationState = PublicationState.draft.wire) || row.contentDigest.isSome) &&
    decide (1 ≤ row.revisionNumber)

/-- Two rows that the keys of the table keep apart. -/
def TaskRevisionRecord.collides (row other : TaskRevisionRecord) : Bool :=
  decide (row.revisionId = other.revisionId) ||
    (decide (row.taskId = other.taskId) && decide (row.revisionNumber = other.revisionNumber))

/-- How `save_state` ends that saves nothing. -/
inductive SaveStateError where
  | notFound (error : TaskControlError)
  | integrity
  deriving DecidableEq

namespace RevisionTable

def row? (table : RevisionTable) (key : Text) : Option TaskRevisionRecord :=
  table.rows.find? fun row => row.revisionId = key

/-- `add`, where any constraint that is violated raises the same error. -/
def add (table : RevisionTable) (revision : TaskRevision) :
    Except TaskControlError RevisionTable :=
  let record := revisionToRecord revision
  if record.checked && table.tasks.contains record.taskId && !table.rows.any record.collides then
    .ok { table with rows := table.rows ++ [record] }
  else
    .error (conflictError
      "A revision with this identifier or revision number already exists for this task.")

/-- `get`. -/
def get (classes : CharacterClasses) (table : RevisionTable) (revisionId : TaskRevisionId) :
    Reading (Option TaskRevision) :=
  match table.row? revisionId.text with
  | none => .ok none
  | some row => (recordToRevision classes row).map some

/-- The rows after an `UPDATE` of one of them. -/
def replaced (saved row : TaskRevisionRecord) : TaskRevisionRecord :=
  if row.revisionId = saved.revisionId then saved else row

/-- `save_state`. -/
def saveState (table : RevisionTable) (revision : TaskRevision) :
    Except SaveStateError RevisionTable :=
  match table.row? revision.revisionId.text with
  | none => .error (.notFound (notFoundError "Task revision not found."))
  | some row =>
      let saved := applyRevisionStateToRecord row revision
      if saved.checked then .ok { table with rows := table.rows.map (replaced saved) }
      else .error .integrity

end RevisionTable

/-! ## What a save changes -/

/-- The revision with the publication of another. -/
def republished (revision next : TaskRevision) : TaskRevision :=
  { revision with
    publicationState := next.publicationState
    publishedAt := next.publishedAt
    publishedBy := next.publishedBy
    contentDigest := next.contentDigest
    frozenDigest := next.frozenDigest
    frozenPublished := next.frozenPublished }

/-- All that a save leaves as it is. -/
structure SameDefinition (revision other : TaskRevision) : Prop where
  revisionId : other.revisionId = revision.revisionId
  taskId : other.taskId = revision.taskId
  revisionNumber : other.revisionNumber = revision.revisionNumber
  action : other.action = revision.action
  createdAt : other.createdAt = revision.createdAt
  createdBy : other.createdBy = revision.createdBy
  schemaVersion : other.schemaVersion = revision.schemaVersion
  controls : other.controls = revision.controls
  deployment : other.deployment = revision.deployment
  activationSchedule : other.activationSchedule = revision.activationSchedule
  changeSummary : other.changeSummary = revision.changeSummary

namespace SameDefinition

variable {first second third : TaskRevision}

theorem refl (revision : TaskRevision) : SameDefinition revision revision :=
  ⟨rfl, rfl, rfl, rfl, rfl, rfl, rfl, rfl, rfl, rfl, rfl⟩

theorem symm (same : SameDefinition first second) : SameDefinition second first where
  revisionId := same.revisionId.symm
  taskId := same.taskId.symm
  revisionNumber := same.revisionNumber.symm
  action := same.action.symm
  createdAt := same.createdAt.symm
  createdBy := same.createdBy.symm
  schemaVersion := same.schemaVersion.symm
  controls := same.controls.symm
  deployment := same.deployment.symm
  activationSchedule := same.activationSchedule.symm
  changeSummary := same.changeSummary.symm

theorem trans (same : SameDefinition first second) (then_ : SameDefinition second third) :
    SameDefinition first third where
  revisionId := then_.revisionId.trans same.revisionId
  taskId := then_.taskId.trans same.taskId
  revisionNumber := then_.revisionNumber.trans same.revisionNumber
  action := then_.action.trans same.action
  createdAt := then_.createdAt.trans same.createdAt
  createdBy := then_.createdBy.trans same.createdBy
  schemaVersion := then_.schemaVersion.trans same.schemaVersion
  controls := then_.controls.trans same.controls
  deployment := then_.deployment.trans same.deployment
  activationSchedule := then_.activationSchedule.trans same.activationSchedule
  changeSummary := then_.changeSummary.trans same.changeSummary

theorem content (same : SameDefinition first second) :
    second.canonicalContent = first.canonicalContent := by
  unfold TaskRevision.canonicalContent
  rw [same.schemaVersion, same.action, same.controls, same.deployment, same.activationSchedule]

theorem kept {classes : CharacterClasses} (same : SameDefinition first second)
    (kept : Kept classes first) : Kept classes second where
  action := same.action ▸ kept.action
  deployment := same.deployment ▸ kept.deployment
  activationSchedule := same.activationSchedule ▸ kept.activationSchedule
  schemaVersion := same.schemaVersion ▸ kept.schemaVersion

theorem republished_eq (same : SameDefinition first second) : republished first second = second := by
  obtain ⟨revisionId, taskId, revisionNumber, action, createdAt, createdBy, schemaVersion, controls,
    deployment, activationSchedule, changeSummary⟩ := same
  cases first
  cases second
  cases revisionId
  cases taskId
  cases revisionNumber
  cases action
  cases createdAt
  cases createdBy
  cases schemaVersion
  cases controls
  cases deployment
  cases activationSchedule
  cases changeSummary
  rfl

end SameDefinition

theorem sameDefinition_republished (revision next : TaskRevision) :
    SameDefinition revision (republished revision next) :=
  ⟨rfl, rfl, rfl, rfl, rfl, rfl, rfl, rfl, rfl, rfl, rfl⟩

theorem applied_republished (revision next : TaskRevision) :
    applyRevisionStateToRecord (revisionToRecord revision) next =
      revisionToRecord (republished revision next) := rfl

theorem wire_draft {state : PublicationState} (thawed : state.isFrozen = false) :
    state.wire = PublicationState.draft.wire := by
  cases state <;> first | rfl | cases thawed

/-- A revision meets the `CHECK` constraints because its constructor did. -/
theorem revisionToRecord_checked (revision : TaskRevision) :
    (revisionToRecord revision).checked = true := by
  have numbered : (1 : Int) ≤ revision.revisionNumber.value := by
    have positive := revision.revisionNumber.positive
    omega
  unfold TaskRevisionRecord.checked revisionToRecord
  rw [decide_eq_true numbered, Bool.and_true, Bool.or_eq_true, decide_eq_true_eq]
  cases frozen : revision.publicationState.isFrozen with
  | false => exact .inl (wire_draft frozen)
  | true =>
      obtain ⟨digest, held⟩ := Option.ne_none_iff_exists'.mp (revision.frozenDigest.mp frozen)
      exact .inr (by rw [held]; rfl)

namespace RevisionTable

variable {classes : CharacterClasses} {table : RevisionTable} {current next : TaskRevision}

theorem row?_key {key : Text} {row : TaskRevisionRecord} (found : table.row? key = some row) :
    row.revisionId = key := by
  simpa using List.find?_some found

/-- A save stores the publication of the revision and leaves all the rest as it is. -/
theorem saveState_ok (stored : table.row? next.revisionId.text = some (revisionToRecord current)) :
    ∃ saved, table.saveState next = .ok saved ∧
      saved.row? next.revisionId.text = some (revisionToRecord (republished current next)) ∧
      (∀ key, key ≠ next.revisionId.text → saved.row? key = table.row? key) ∧
      saved.tasks = table.tasks := by
  have named : (revisionToRecord current).revisionId = next.revisionId.text := row?_key stored
  have key : (revisionToRecord (republished current next)).revisionId = next.revisionId.text := named
  refine ⟨{ table with
    rows := table.rows.map (replaced (revisionToRecord (republished current next))) }, ?_, ?_, ?_,
    rfl⟩
  · simp only [saveState, stored, applied_republished, revisionToRecord_checked, if_true]
  · unfold row? at stored ⊢
    rw [List.find?_map]
    have same : ((fun row : TaskRevisionRecord => decide (row.revisionId = next.revisionId.text)) ∘
        replaced (revisionToRecord (republished current next))) =
          fun row => decide (row.revisionId = next.revisionId.text) := by
      funext row
      simp only [Function.comp, replaced, key]
      split
      · next named => rw [key, named]
      · rfl
    rw [same, stored, Option.map_some, replaced, key, if_pos (row?_key stored)]
  · intro other different
    unfold row?
    rw [List.find?_map]
    have same : ((fun row : TaskRevisionRecord => decide (row.revisionId = other)) ∘
        replaced (revisionToRecord (republished current next))) =
          fun row => decide (row.revisionId = other) := by
      funext row
      simp only [Function.comp, replaced, key]
      split
      · next named => rw [key, named]
      · rfl
    rw [same]
    cases found : table.rows.find? (fun row => decide (row.revisionId = other)) with
    | none => rfl
    | some row =>
        have named : row.revisionId = other := by simpa using List.find?_some found
        rw [Option.map_some, replaced, key, named, if_neg different]

/-- What is added is found, and nothing that was there is lost. -/
theorem add_ok {added : RevisionTable} (done : table.add current = .ok added) :
    table.row? current.revisionId.text = none ∧
      added.row? current.revisionId.text = some (revisionToRecord current) ∧
      ∀ key, key ≠ current.revisionId.text → added.row? key = table.row? key := by
  unfold add at done
  simp only at done
  split at done
  · next free =>
      cases done
      have absent : table.row? current.revisionId.text = none := by
        rw [row?, List.find?_eq_none]
        intro row member taken
        simp only [Bool.and_eq_true, Bool.not_eq_true'] at free
        have collides : (revisionToRecord current).collides row = true := by
          have named : row.revisionId = current.revisionId.text := of_decide_eq_true taken
          simp [TaskRevisionRecord.collides, revisionToRecord, named]
        have taken := List.any_eq_true.mpr ⟨row, member, collides⟩
        rw [free.2] at taken
        cases taken
      refine ⟨absent, ?_, ?_⟩
      · rw [row?] at absent ⊢
        rw [List.find?_append, absent]
        simp [revisionToRecord]
      · intro key different
        rw [row?, List.find?_append, row?]
        cases found : table.rows.find? (fun row => decide (row.revisionId = key)) with
        | some row => rfl
        | none => simp [revisionToRecord, Ne.symm different]
  · cases done

theorem get_stored {revisionId : TaskRevisionId}
    (stored : table.row? revisionId.text = some (revisionToRecord current))
    (kept : Kept classes current) : table.get classes revisionId = .ok (some current) := by
  simp only [get, stored, recordToRevision_revisionToRecord kept]
  rfl

end RevisionTable

/-! ## Sessions -/

/-- A digest in the revision is that of its content. -/
def Verified (digest : Json → ContentDigest) (revision : TaskRevision) : Prop :=
  ∀ held ∈ revision.contentDigest, held = revision.computeDigest digest

/-- What a session does with a copy before it saves it. -/
inductive Moves (digest : Json → ContentDigest) (copy : TaskRevision) : TaskRevision → Prop where
  | published {publishedBy : OwnerId} {publishedAt : UtcTimestamp} {next : TaskRevision}
      (done : copy.publish (TaskRevision.computeDigest digest) publishedBy publishedAt = .ok next) :
      Moves digest copy next
  | superseded {next : TaskRevision} (done : copy.supersede = .ok next) : Moves digest copy next
  | withdrawn {next : TaskRevision} (done : copy.withdraw = .ok next) : Moves digest copy next

/-- The table and every copy of a revision that any session holds. -/
structure RevisionWorld where
  table : RevisionTable
  copies : List TaskRevision

/-- One session does one thing; each unit of work is one transaction. -/
inductive Step (classes : CharacterClasses) (digest : Json → ContentDigest) :
    RevisionWorld → RevisionWorld → Prop where
  | added {world : RevisionWorld} {revision : TaskRevision} {table : RevisionTable}
      (kept : Kept classes revision) (verified : Verified digest revision)
      (stored : world.table.add revision = .ok table) :
      Step classes digest world ⟨table, revision :: world.copies⟩
  | loaded {world : RevisionWorld} {revisionId : TaskRevisionId} {revision : TaskRevision}
      (found : world.table.get classes revisionId = .ok (some revision)) :
      Step classes digest world ⟨world.table, revision :: world.copies⟩
  | moved {world : RevisionWorld} {copy next : TaskRevision} (held : copy ∈ world.copies)
      (moves : Moves digest copy next) :
      Step classes digest world ⟨world.table, next :: world.copies⟩
  | saved {world : RevisionWorld} {copy : TaskRevision} {table : RevisionTable}
      (held : copy ∈ world.copies) (frozen : copy.publicationState.isFrozen = true)
      (stored : world.table.saveState copy = .ok table) :
      Step classes digest world ⟨table, world.copies⟩

/-- No revision is stored yet and no session holds one. -/
def Blank (world : RevisionWorld) : Prop := world.table.rows = [] ∧ world.copies = []

section

variable {classes : CharacterClasses} {digest : Json → ContentDigest}

/-- A draft has no digest that could be wrong. -/
theorem verified_draft {revision : TaskRevision}
    (draft : revision.publicationState.isFrozen = false) : Verified digest revision := by
  intro held member
  have frozen := revision.frozenDigest.mpr (Option.ne_none_iff_exists'.mpr ⟨held, member⟩)
  rw [draft] at frozen
  cases frozen

theorem assertLegal_ok {current proposed : PublicationState}
    (legal : assertLegalPublicationTransition current proposed = .ok ()) :
    proposed ∈ current.transitions := by
  unfold assertLegalPublicationTransition at legal
  split at legal
  · next listed => exact listed
  · cases legal

/-- All that a move does to a copy. -/
structure Moved (digest : Json → ContentDigest) (copy next : TaskRevision) : Prop where
  same : SameDefinition copy next
  frozen : next.publicationState.isFrozen = true
  legal : next.publicationState ∈ copy.publicationState.transitions
  verified : Verified digest copy → Verified digest next

theorem moved_of_move {copy next : TaskRevision} {proposed : PublicationState}
    (stays : proposed.isFrozen = true) (done : copy.move proposed stays = .ok next) :
    Moved digest copy next := by
  obtain ⟨_, legal, rest⟩ := except_bind_eq_ok.mp done
  split at rest
  · cases rest
    exact {
      same := ⟨rfl, rfl, rfl, rfl, rfl, rfl, rfl, rfl, rfl, rfl, rfl⟩
      frozen := stays
      legal := assertLegal_ok legal
      verified := id }
  · cases rest

theorem Moves.moved {copy next : TaskRevision} (moves : Moves digest copy next) :
    Moved digest copy next := by
  cases moves with
  | published done =>
      obtain ⟨_, legal, rest⟩ := except_bind_eq_ok.mp done
      obtain ⟨_, _, rest⟩ := except_bind_eq_ok.mp rest
      cases rest
      exact {
        same := ⟨rfl, rfl, rfl, rfl, rfl, rfl, rfl, rfl, rfl, rfl, rfl⟩
        frozen := rfl
        legal := assertLegal_ok legal
        verified := fun _ held member => (Option.some.inj member).symm }
  | superseded done => exact moved_of_move _ done
  | withdrawn done => exact moved_of_move _ done

/-! ## What every session keeps -/

/-- The revision that is stored under a key, can be read and has its own digest. -/
structure Stored (classes : CharacterClasses) (digest : Json → ContentDigest)
    (table : RevisionTable) (key : Text) (current : TaskRevision) : Prop where
  row : table.row? key = some (revisionToRecord current)
  kept : Kept classes current
  verified : Verified digest current

/-- Every row is that of a stored revision, and every copy has the definition of the revision that
is stored under its key. -/
structure Sound (classes : CharacterClasses) (digest : Json → ContentDigest)
    (world : RevisionWorld) : Prop where
  rows : ∀ key row, world.table.row? key = some row →
    ∃ current, Stored classes digest world.table key current
  copies : ∀ copy ∈ world.copies, Verified digest copy ∧
    ∃ current, Stored classes digest world.table copy.revisionId.text current ∧
      SameDefinition current copy

/-- A revision has become another: its definition is the same, and a frozen one is still frozen,
with the digest that it had. -/
structure Became (before after : TaskRevision) : Prop where
  same : SameDefinition before after
  frozen : before.publicationState.isFrozen = true →
    after.publicationState.isFrozen = true ∧ after.contentDigest = before.contentDigest

theorem Became.refl (revision : TaskRevision) : Became revision revision :=
  ⟨SameDefinition.refl revision, fun frozen => ⟨frozen, rfl⟩⟩

theorem Became.trans {first second third : TaskRevision} (became : Became first second)
    (then_ : Became second third) : Became first third where
  same := became.same.trans then_.same
  frozen := fun frozen => by
    obtain ⟨still, kept⟩ := became.frozen frozen
    obtain ⟨stays, keeps⟩ := then_.frozen still
    exact ⟨stays, keeps.trans kept⟩

/-- Everything that is stored is stored still, as what it has become. -/
def Later (classes : CharacterClasses) (digest : Json → ContentDigest)
    (world world' : RevisionWorld) : Prop :=
  ∀ key current, Stored classes digest world.table key current →
    ∃ now, Stored classes digest world'.table key now ∧ Became current now

theorem Later.refl (world : RevisionWorld) : Later classes digest world world :=
  fun _ current stored => ⟨current, stored, Became.refl current⟩

theorem Later.trans {first second third : RevisionWorld} (later : Later classes digest first second)
    (then_ : Later classes digest second third) : Later classes digest first third := by
  intro key current stored
  obtain ⟨mid, storedMid, became⟩ := later key current stored
  obtain ⟨now, storedNow, becomes⟩ := then_ key mid storedMid
  exact ⟨now, storedNow, became.trans becomes⟩

namespace Stored

variable {table : RevisionTable} {key : Text} {current other : TaskRevision}

theorem named (stored : Stored classes digest table key current) :
    current.revisionId.text = key := RevisionTable.row?_key stored.row

/-- Under one key there is one revision, because the row is read back. -/
theorem unique (stored : Stored classes digest table key current)
    (stored' : Stored classes digest table key other) : current = other := by
  have rows : revisionToRecord current = revisionToRecord other :=
    Option.some.inj (stored.row.symm.trans stored'.row)
  have read := recordToRevision_revisionToRecord stored.kept
  rw [rows, recordToRevision_revisionToRecord stored'.kept] at read
  exact (Except.ok.inj read).symm

theorem found {revisionId : TaskRevisionId}
    (stored : Stored classes digest table revisionId.text current) :
    table.get classes revisionId = .ok (some current) :=
  RevisionTable.get_stored stored.row stored.kept

end Stored

/-- Frozen revisions of one definition that have their own digest have one digest. -/
theorem digest_eq {current copy : TaskRevision} (same : SameDefinition current copy)
    (verified : Verified digest current) (verifiedCopy : Verified digest copy)
    (frozen : current.publicationState.isFrozen = true)
    (frozenCopy : copy.publicationState.isFrozen = true) :
    copy.contentDigest = current.contentDigest := by
  obtain ⟨held, has⟩ := Option.ne_none_iff_exists'.mp (current.frozenDigest.mp frozen)
  obtain ⟨heldCopy, hasCopy⟩ := Option.ne_none_iff_exists'.mp (copy.frozenDigest.mp frozenCopy)
  rw [has, hasCopy, verified held has, verifiedCopy heldCopy hasCopy, TaskRevision.computeDigest,
    TaskRevision.computeDigest, same.content]

/-- Copies keep their rows, whatever is stored later. -/
theorem Sound.copies_later {world world' : RevisionWorld} (sound : Sound classes digest world)
    (later : Later classes digest world world') :
    ∀ copy ∈ world.copies, Verified digest copy ∧
      ∃ current, Stored classes digest world'.table copy.revisionId.text current ∧
        SameDefinition current copy := by
  intro copy held
  obtain ⟨verified, current, stored, same⟩ := sound.copies copy held
  obtain ⟨now, storedNow, became⟩ := later _ _ stored
  exact ⟨verified, now, storedNow, became.same.symm.trans same⟩

theorem sound_added {world : RevisionWorld} {revision : TaskRevision} {table : RevisionTable}
    (sound : Sound classes digest world) (kept : Kept classes revision)
    (verified : Verified digest revision) (done : world.table.add revision = .ok table) :
    Sound classes digest ⟨table, revision :: world.copies⟩ ∧
      Later classes digest world ⟨table, revision :: world.copies⟩ := by
  obtain ⟨absent, found, others⟩ := RevisionTable.add_ok done
  have stored : Stored classes digest table revision.revisionId.text revision :=
    ⟨found, kept, verified⟩
  have later : Later classes digest world ⟨table, revision :: world.copies⟩ := by
    intro key current there
    have different : key ≠ revision.revisionId.text := by
      rintro rfl
      rw [there.row] at absent
      cases absent
    exact ⟨current, ⟨(others key different).trans there.row, there.kept, there.verified⟩,
      Became.refl current⟩
  refine ⟨⟨fun key row there => ?_, fun copy held => ?_⟩, later⟩
  · by_cases named : key = revision.revisionId.text
    · rw [named]
      exact ⟨revision, stored⟩
    · obtain ⟨current, known⟩ := sound.rows key row ((others key named).symm.trans there)
      obtain ⟨now, storedNow, _⟩ := later key current known
      exact ⟨now, storedNow⟩
  · rcases List.mem_cons.mp held with rfl | held
    · exact ⟨verified, copy, stored, SameDefinition.refl copy⟩
    · exact sound.copies_later later copy held

theorem sound_loaded {world : RevisionWorld} {revisionId : TaskRevisionId} {revision : TaskRevision}
    (sound : Sound classes digest world)
    (found : world.table.get classes revisionId = .ok (some revision)) :
    Sound classes digest ⟨world.table, revision :: world.copies⟩ := by
  refine ⟨sound.rows, fun copy held => ?_⟩
  rcases List.mem_cons.mp held with rfl | held
  · cases there : world.table.row? revisionId.text with
    | none =>
        rw [RevisionTable.get, there] at found
        cases found
    | some row =>
        obtain ⟨current, stored⟩ := sound.rows _ _ there
        rw [stored.found] at found
        obtain rfl : current = copy := Option.some.inj (Except.ok.inj found)
        refine ⟨stored.verified, current, ?_, SameDefinition.refl current⟩
        rw [stored.named]
        exact stored
  · exact sound.copies copy held

theorem sound_moved {world : RevisionWorld} {copy next : TaskRevision}
    (sound : Sound classes digest world) (held : copy ∈ world.copies)
    (moved : Moved digest copy next) :
    Sound classes digest ⟨world.table, next :: world.copies⟩ := by
  refine ⟨sound.rows, fun other member => ?_⟩
  rcases List.mem_cons.mp member with rfl | member
  · obtain ⟨verified, current, stored, same⟩ := sound.copies copy held
    refine ⟨moved.verified verified, current, ?_, same.trans moved.same⟩
    rw [moved.same.revisionId]
    exact stored
  · exact sound.copies other member

/-- What a save of a held copy leaves: the copy under its key, and every other row as it was. -/
theorem save_held {world : RevisionWorld} {copy : TaskRevision} (sound : Sound classes digest world)
    (held : copy ∈ world.copies) :
    ∃ table, world.table.saveState copy = .ok table ∧
      Stored classes digest table copy.revisionId.text copy ∧
      ∀ key, key ≠ copy.revisionId.text → table.row? key = world.table.row? key := by
  obtain ⟨verified, current, stored, same⟩ := sound.copies copy held
  obtain ⟨table, done, found, others, _⟩ := RevisionTable.saveState_ok stored.row
  rw [same.republished_eq] at found
  exact ⟨table, done, ⟨found, same.kept stored.kept, verified⟩, others⟩

theorem sound_saved {world : RevisionWorld} {copy : TaskRevision} {table : RevisionTable}
    (sound : Sound classes digest world) (held : copy ∈ world.copies)
    (frozen : copy.publicationState.isFrozen = true)
    (done : world.table.saveState copy = .ok table) :
    Sound classes digest ⟨table, world.copies⟩ ∧
      Later classes digest world ⟨table, world.copies⟩ := by
  obtain ⟨saved, saves, stored, others⟩ := save_held sound held
  rw [saves] at done
  cases done
  obtain ⟨verified, known, there, same⟩ := sound.copies copy held
  have later : Later classes digest world ⟨table, world.copies⟩ := by
    intro key current was
    by_cases named : key = copy.revisionId.text
    · subst named
      obtain rfl := was.unique there
      exact ⟨copy, stored, same, fun wasFrozen =>
        ⟨frozen, digest_eq same was.verified verified wasFrozen frozen⟩⟩
    · exact ⟨current, ⟨(others key named).trans was.row, was.kept, was.verified⟩,
        Became.refl current⟩
  refine ⟨⟨fun key row there => ?_, fun other member => ?_⟩, later⟩
  · by_cases named : key = copy.revisionId.text
    · rw [named]
      exact ⟨copy, stored⟩
    · obtain ⟨current, was⟩ := sound.rows key row ((others key named).symm.trans there)
      obtain ⟨now, storedNow, _⟩ := later key current was
      exact ⟨now, storedNow⟩
  · exact sound.copies_later later other member

theorem step_sound {world world' : RevisionWorld} (sound : Sound classes digest world)
    (step : Step classes digest world world') :
    Sound classes digest world' ∧ Later classes digest world world' := by
  cases step with
  | added kept verified stored => exact sound_added sound kept verified stored
  | loaded found => exact ⟨sound_loaded sound found, Later.refl _⟩
  | moved held moves => exact ⟨sound_moved sound held moves.moved, Later.refl _⟩
  | saved held frozen stored => exact sound_saved sound held frozen stored

theorem sound_blank {world : RevisionWorld} (blank : Blank world) : Sound classes digest world := by
  obtain ⟨table, copies⟩ := world
  obtain ⟨rows, held⟩ := blank
  refine ⟨fun key row found => ?_, fun copy member => ?_⟩
  · have empty : table.rows = [] := rows
    rw [RevisionTable.row?, empty] at found
    cases found
  · have empty : copies = [] := held
    rw [empty] at member
    cases member

theorem run_sound {world world' : RevisionWorld} (sound : Sound classes digest world)
    (run : Relation.ReflTransGen (Step classes digest) world world') :
    Sound classes digest world' ∧ Later classes digest world world' := by
  induction run with
  | refl => exact ⟨sound, Later.refl world⟩
  | tail _ last ih =>
      obtain ⟨soundMid, later⟩ := ih
      obtain ⟨soundNow, then_⟩ := step_sound soundMid last
      exact ⟨soundNow, later.trans then_⟩

theorem reachable_sound {world : RevisionWorld}
    (reached : Transition.Reachable Blank (Step classes digest) world) :
    Sound classes digest world :=
  reached.invariant (Sound classes digest) (fun _ blank => sound_blank blank)
    fun _ _ sound step => (step_sound sound step).1

/-- A copy that is held has the definition of what is stored under its key. -/
theorem stored_of_held {world : RevisionWorld} {copy : TaskRevision}
    (reached : Transition.Reachable Blank (Step classes digest) world)
    (held : copy ∈ world.copies) :
    ∃ current, Stored classes digest world.table copy.revisionId.text current ∧
      SameDefinition current copy :=
  ((reachable_sound reached).copies copy held).2

end

namespace Backup

/-- Every content has this digest. -/
def constant : Json → ContentDigest := fun _ => Runtime.Backup.digest

theorem draft_kept : Kept CharacterClasses.ascii Deployment.Backup.draft where
  action := fun _ member => absurd member List.not_mem_nil
  deployment := fun user named => absurd named (Option.not_mem_none user)
  activationSchedule := fun schedule held => absurd held (Option.not_mem_none schedule)
  schemaVersion := SchemaVersion.readable_of_compatible rfl

def empty : RevisionWorld := ⟨⟨[Runtime.Backup.taskId.text], []⟩, []⟩

/-- The draft is stored, and the session that added it holds it. -/
def drafted : RevisionWorld :=
  ⟨⟨[Runtime.Backup.taskId.text], [revisionToRecord Deployment.Backup.draft]⟩,
    [Deployment.Backup.draft]⟩

theorem draft_added : empty.table.add Deployment.Backup.draft = .ok drafted.table := by
  have accepted : ((revisionToRecord Deployment.Backup.draft).checked &&
      empty.table.tasks.contains (revisionToRecord Deployment.Backup.draft).taskId &&
      !empty.table.rows.any (revisionToRecord Deployment.Backup.draft).collides) = true := by
    decide +kernel
  simp only [RevisionTable.add, accepted, if_true]
  rfl

theorem drafted_reached (digest : Json → ContentDigest) :
    Transition.Reachable Blank (Step CharacterClasses.ascii digest) drafted :=
  (Transition.Reachable.start (show Blank empty from ⟨rfl, rfl⟩)).next
    (.added draft_kept (verified_draft rfl) draft_added)

theorem draft_held : Deployment.Backup.draft ∈ drafted.copies := List.mem_singleton_self _

theorem draft_moves : Moves constant Deployment.Backup.draft Runtime.Backup.revision :=
  @Moves.published constant _ Runtime.Backup.ownerId ⟨0⟩ _ rfl

theorem draft_found : drafted.table.get CharacterClasses.ascii Runtime.Backup.revisionId =
    .ok (some Deployment.Backup.draft) := by
  have row : drafted.table.row? Runtime.Backup.revisionId.text =
      some (revisionToRecord Deployment.Backup.draft) :=
    List.find?_cons_of_pos (decide_eq_true rfl)
  exact RevisionTable.get_stored row draft_kept

end Backup

/-- From the stored state the move of a copy is legal exactly where the copy has that state, or the
move withdraws what is not withdrawn. -/
theorem legal_elsewhere_iff {stored copied proposed : PublicationState}
    (legal : proposed ∈ copied.transitions) :
    proposed ∈ stored.transitions ↔
      stored = copied ∨ proposed = .withdrawn ∧ stored ≠ .withdrawn := by
  revert legal
  cases stored <;> cases copied <;> cases proposed <;> decide

end TaskControl.Persistence
