import TaskControl.Deployment.LifecycleGate
import TaskControl.Foundation.Calls

/-!
# What the store keeps

Tasks and revisions under every operation that changes their rows.  A row keeps its
identity and moves along the tables of its lifecycle; the content of a revision never
changes, and what froze it stays with it.
-/

set_option autoImplicit false

namespace TaskControl.Deployment

open PythonText Effects

/-! ## The operations -/

/-- An operation of a lifecycle, or a change of a task's metadata. -/
inductive StoreOperation where
  | lifecycle (operation : LifecycleOperation)
  | updateMetadata (taskId : TaskId) (updatedBy : OwnerId) (updatedAt : UtcTimestamp)
      (name description : Option Text) (ownerId : Option OwnerId) (labels : Option (Finset Text))

namespace LifecycleStore

/-- One operation, in a unit of work of its own. -/
def carryOut (computeDigest : TaskRevision → ContentDigest) (store : LifecycleStore) :
    StoreOperation → Except TaskControlError LifecycleStore
  | .lifecycle operation => store.perform computeDigest operation
  | .updateMetadata taskId updatedBy updatedAt name description ownerId labels =>
      store.updateTask taskId fun task =>
        task.updateMetadata updatedBy updatedAt name description ownerId labels

/-- The store after an operation; one that fails leaves it as it was. -/
def next (computeDigest : TaskRevision → ContentDigest) (store : LifecycleStore)
    (operation : StoreOperation) : LifecycleStore :=
  (store.carryOut computeDigest operation).toOption.getD store

/-- What a sequence of operations makes of the empty store. -/
def reached (computeDigest : TaskRevision → ContentDigest) (operations : List StoreOperation) :
    LifecycleStore :=
  operations.foldl (next computeDigest) empty

end LifecycleStore

/-! ## What stays of a row -/

def TaskMoves (state later : TaskLifecycleState) : Prop := later ∈ state.transitions

def RevisionMoves (state later : PublicationState) : Prop := later ∈ state.transitions

/-- A task and what became of it: an archived one stays as it is. -/
structure SameTask (task later : Task) : Prop where
  taskId : later.taskId = task.taskId
  slug : later.slug = task.slug
  createdAt : later.createdAt = task.createdAt
  createdBy : later.createdBy = task.createdBy
  moves : Relation.ReflTransGen TaskMoves task.lifecycleState later.lifecycleState
  archived : task.lifecycleState = .archived → later = task

/-- A revision and what became of it: a frozen one keeps its digest and its publication. -/
structure SameRevision (revision later : TaskRevision) : Prop where
  content : SameContent revision later
  moves : Relation.ReflTransGen RevisionMoves revision.publicationState later.publicationState
  digest : revision.publicationState.isFrozen = true → later.contentDigest = revision.contentDigest
  publishedAt : revision.publicationState.isFrozen = true → later.publishedAt = revision.publishedAt
  publishedBy : revision.publicationState.isFrozen = true → later.publishedBy = revision.publishedBy
  withdrawn : revision.publicationState = .withdrawn → later = revision

/-- Every row of the store is in the later one. -/
structure KeepsRows (store later : LifecycleStore) : Prop where
  tasks : ∀ task ∈ store.tasks, ∃ row ∈ later.tasks, SameTask task row
  revisions : ∀ revision ∈ store.revisions, ∃ row ∈ later.revisions, SameRevision revision row

/-- A frozen revision has the digest of the draft that it was published from, whose content is its
own and could be published. -/
def Sealed (computeDigest : TaskRevision → ContentDigest) (revision : TaskRevision) : Prop :=
  revision.publicationState.isFrozen = true → ∃ draft, SameContent draft revision ∧
    draft.publicationState = .draft ∧ draft.assertPublishable = .ok () ∧
    revision.contentDigest = some (computeDigest draft)

/-- No two revisions share an identifier, and none of one task share a number. -/
structure Sound (computeDigest : TaskRevision → ContentDigest) (store : LifecycleStore) : Prop where
  keyed : (store.revisions.map TaskRevision.revisionId).Nodup
  numbered : (store.revisions.map fun revision =>
    (revision.taskId, revision.revisionNumber.value)).Nodup
  digested : ∀ revision ∈ store.revisions, Sealed computeDigest revision

theorem SameTask.refl (task : Task) : SameTask task task :=
  ⟨rfl, rfl, rfl, rfl, .refl, fun _ => rfl⟩

theorem SameTask.trans {task middle later : Task} (first : SameTask task middle)
    (second : SameTask middle later) : SameTask task later where
  taskId := second.taskId.trans first.taskId
  slug := second.slug.trans first.slug
  createdAt := second.createdAt.trans first.createdAt
  createdBy := second.createdBy.trans first.createdBy
  moves := first.moves.trans second.moves
  archived final := by
    have same := first.archived final
    subst same
    exact second.archived final

theorem SameContent.refl (revision : TaskRevision) : SameContent revision revision := by
  constructor <;> rfl

theorem SameContent.trans {revision middle later : TaskRevision}
    (first : SameContent revision middle) (second : SameContent middle later) :
    SameContent revision later where
  revisionId := second.revisionId.trans first.revisionId
  taskId := second.taskId.trans first.taskId
  revisionNumber := second.revisionNumber.trans first.revisionNumber
  action := second.action.trans first.action
  createdAt := second.createdAt.trans first.createdAt
  createdBy := second.createdBy.trans first.createdBy
  schemaVersion := second.schemaVersion.trans first.schemaVersion
  controls := second.controls.trans first.controls
  deployment := second.deployment.trans first.deployment
  activationSchedule := second.activationSchedule.trans first.activationSchedule
  changeSummary := second.changeSummary.trans first.changeSummary

theorem frozen_of_move {state later : PublicationState} (moves : RevisionMoves state later) :
    later.isFrozen = true := by
  unfold RevisionMoves at moves
  cases state with
  | draft =>
      simp only [PublicationState.transitions, List.mem_cons, List.not_mem_nil, or_false] at moves
      rcases moves with rfl | rfl <;> rfl
  | published =>
      simp only [PublicationState.transitions, List.mem_cons, List.not_mem_nil, or_false] at moves
      rcases moves with rfl | rfl <;> rfl
  | superseded =>
      rw [List.mem_singleton.mp moves]
      rfl
  | withdrawn => cases moves

theorem SameRevision.frozen {revision later : TaskRevision} (same : SameRevision revision later)
    (frozen : revision.publicationState.isFrozen = true) :
    later.publicationState.isFrozen = true := by
  rcases Relation.ReflTransGen.cases_tail same.moves with unmoved | ⟨_, _, last⟩
  · rw [unmoved]
    exact frozen
  · exact frozen_of_move last

theorem SameRevision.refl (revision : TaskRevision) : SameRevision revision revision :=
  ⟨.refl revision, .refl, fun _ => rfl, fun _ => rfl, fun _ => rfl, fun _ => rfl⟩

theorem SameRevision.trans {revision middle later : TaskRevision}
    (first : SameRevision revision middle) (second : SameRevision middle later) :
    SameRevision revision later where
  content := first.content.trans second.content
  moves := first.moves.trans second.moves
  digest frozen := (second.digest (first.frozen frozen)).trans (first.digest frozen)
  publishedAt frozen := (second.publishedAt (first.frozen frozen)).trans (first.publishedAt frozen)
  publishedBy frozen := (second.publishedBy (first.frozen frozen)).trans (first.publishedBy frozen)
  withdrawn final := by
    have same := first.withdrawn final
    subst same
    exact second.withdrawn final

theorem KeepsRows.refl (store : LifecycleStore) : KeepsRows store store :=
  ⟨fun task stored => ⟨task, stored, .refl task⟩,
    fun revision stored => ⟨revision, stored, .refl revision⟩⟩

theorem KeepsRows.trans {store middle later : LifecycleStore} (first : KeepsRows store middle)
    (second : KeepsRows middle later) : KeepsRows store later := by
  constructor
  · intro task stored
    obtain ⟨row, inMiddle, same⟩ := first.tasks task stored
    obtain ⟨last, inLater, same'⟩ := second.tasks row inMiddle
    exact ⟨last, inLater, same.trans same'⟩
  · intro revision stored
    obtain ⟨row, inMiddle, same⟩ := first.revisions revision stored
    obtain ⟨last, inLater, same'⟩ := second.revisions row inMiddle
    exact ⟨last, inLater, same.trans same'⟩

/-! ## The tasks -/

theorem legal_task_move {current proposed : TaskLifecycleState} {done : Unit}
    (legal : assertLegalTaskTransition current proposed = .ok done) :
    proposed ∈ current.transitions := by
  unfold assertLegalTaskTransition at legal
  split at legal
  · next member => exact member
  · cases legal

theorem unmoved_archived {current proposed : TaskLifecycleState}
    (legal : proposed ∈ current.transitions) : current ≠ .archived := by
  rintro rfl
  cases legal

theorem transitionTo_same {task moved : Task} {proposed : TaskLifecycleState} {updatedBy : OwnerId}
    {updatedAt : UtcTimestamp} (done : task.transitionTo proposed updatedBy updatedAt = .ok moved) :
    SameTask task moved := by
  obtain ⟨_, legal, rest⟩ := except_bind_eq_ok.mp done
  have member := legal_task_move legal
  split at rest
  · cases rest
  · cases rest
    exact ⟨rfl, rfl, rfl, rfl, .single member, fun final => absurd final (unmoved_archived member)⟩

theorem activateRevision_same {task moved : Task} {revisionId : TaskRevisionId}
    {updatedBy : OwnerId} {updatedAt : UtcTimestamp}
    (done : task.activateRevision revisionId updatedBy updatedAt = .ok moved) :
    SameTask task moved := by
  unfold Task.activateRevision at done
  split at done
  · cases done
  · next open_ =>
      split at done
      · obtain ⟨_, legal, rest⟩ := except_bind_eq_ok.mp done
        cases rest
        exact ⟨rfl, rfl, rfl, rfl, .single (legal_task_move legal),
          fun final => absurd final open_⟩
      · next active =>
          have already := not_not.mp active
          cases done
          refine ⟨rfl, rfl, rfl, rfl, ?_, fun final => absurd final open_⟩
          rw [already]

theorem updateMetadata_same {task changed : Task} {updatedBy : OwnerId} {updatedAt : UtcTimestamp}
    {name description : Option Text} {ownerId : Option OwnerId} {labels : Option (Finset Text)}
    (done : task.updateMetadata updatedBy updatedAt name description ownerId labels =
      .ok changed) : SameTask task changed := by
  unfold Task.updateMetadata at done
  split at done
  · cases done
  · next editable =>
      have open_ : task.lifecycleState ≠ .archived := by
        intro final
        rw [final] at editable
        exact editable (by decide)
      split at done
      · cases done
      · split at done
        · cases done
        · split at done
          · cases done
          · split at done
            · cases done
            · cases done
              exact ⟨rfl, rfl, rfl, rfl, .refl, fun final => absurd final open_⟩

/-! ## The revisions -/

section Revisions

variable {computeDigest : TaskRevision → ContentDigest} {revision moved : TaskRevision}

theorem same_publish {publishedBy : OwnerId} {publishedAt : UtcTimestamp}
    (done : revision.publish computeDigest publishedBy publishedAt = .ok moved) :
    SameRevision revision moved ∧ Sealed computeDigest moved := by
  obtain ⟨_, legal, rest⟩ := except_bind_eq_ok.mp done
  obtain ⟨_, accepted, rest⟩ := except_bind_eq_ok.mp rest
  have member := assertLegalPublicationTransition_ok.mp legal
  have draft := published_from member
  have thawed : revision.publicationState.isFrozen ≠ true := by
    rw [draft]
    decide
  cases rest
  have content := ((publish_follows publishedBy publishedAt).moves _ done).content
  constructor
  · exact ⟨content, .single member, fun frozen => absurd frozen thawed,
      fun frozen => absurd frozen thawed, fun frozen => absurd frozen thawed,
      fun final => by rw [draft] at final; cases final⟩
  · intro _
    exact ⟨revision, content, draft, accepted, rfl⟩

theorem same_move {proposed : PublicationState} {stays : proposed.isFrozen = true}
    (done : revision.move proposed stays = .ok moved) : SameRevision revision moved ∧
      (Sealed computeDigest revision → Sealed computeDigest moved) := by
  obtain ⟨member, frozen, rfl⟩ := move_ok.mp done
  have content := (moved_movedTo frozen stays).content
  constructor
  · refine ⟨content, .single member, fun _ => rfl, fun _ => rfl, fun _ => rfl, fun final => ?_⟩
    rw [final] at member
    cases member
  · intro whole _
    obtain ⟨draft, same, unfrozen, accepted, digest⟩ := whole frozen
    exact ⟨draft, same.trans content, unfrozen, accepted, digest⟩

/-- What an operation of the publication makes of a revision. -/
theorem same_publication {operation : PublicationOperation}
    (done : operation.run computeDigest revision = .ok moved) : SameRevision revision moved ∧
      (Sealed computeDigest revision → Sealed computeDigest moved) := by
  cases operation with
  | publish publishedBy publishedAt =>
      obtain ⟨same, whole⟩ := same_publish done
      exact ⟨same, fun _ => whole⟩
  | supersede => exact same_move done
  | withdraw => exact same_move done

theorem sealed_draft (draft : revision.publicationState = .draft) :
    Sealed computeDigest revision := by
  intro frozen
  rw [draft] at frozen
  cases frozen

end Revisions

/-! ## One operation on the store -/

section Steps

variable {computeDigest : TaskRevision → ContentDigest} {store later : LifecycleStore}

/-- What an operation that succeeds does to the store. -/
structure Evolves (computeDigest : TaskRevision → ContentDigest)
    (store later : LifecycleStore) : Prop where
  sound : Sound computeDigest later
  keeps : KeepsRows store later

theorem addTask_evolves (sound : Sound computeDigest store) {task : Task}
    (added : store.addTask task = .ok later) : Evolves computeDigest store later := by
  unfold LifecycleStore.addTask at added
  split at added
  · cases added
  · split at added
    · cases added
    · cases added
      exact ⟨⟨sound.keyed, sound.numbered, sound.digested⟩,
        fun row stored => ⟨row, List.mem_append_left _ stored, .refl row⟩,
        fun row stored => ⟨row, stored, .refl row⟩⟩

theorem updateTask_evolves (sound : Sound computeDigest store) {taskId : TaskId}
    {change : Task → Except TaskControlError Task}
    (same : ∀ task changed, change task = .ok changed → SameTask task changed)
    (updated : store.updateTask taskId change = .ok later) :
    Evolves computeDigest store later := by
  unfold LifecycleStore.updateTask at updated
  split at updated
  · cases updated
  · next task found =>
      obtain ⟨changed, made, rest⟩ := except_bind_eq_ok.mp updated
      cases rest
      refine ⟨⟨sound.keyed, sound.numbered, sound.digested⟩, ?_,
        fun row stored => ⟨row, stored, .refl row⟩⟩
      intro row stored
      refine ⟨_, List.mem_map_of_mem stored, ?_⟩
      unfold LifecycleStore.updatedRow
      split
      · next own =>
          have kept := same task changed made
          obtain rfl := List.inj_on_of_nodup_map store.keyed stored (task?_named found).1
            (own.trans kept.taskId)
          exact kept
      · exact .refl row

theorem addRevision_evolves (sound : Sound computeDigest store) {revision : TaskRevision}
    (draft : revision.publicationState = .draft) (added : store.addRevision revision = .ok later) :
    Evolves computeDigest store later := by
  unfold LifecycleStore.addRevision at added
  split at added
  · cases added
  · next fresh =>
      cases added
      have apart : ∀ other ∈ store.revisions, ¬ (other.revisionId = revision.revisionId ∨
          other.taskId = revision.taskId ∧
            other.revisionNumber.value = revision.revisionNumber.value) := by
        intro other stored taken
        exact fresh (Bool.or_eq_true _ _ ▸
          .inr (List.any_eq_true.mpr ⟨other, stored, decide_eq_true taken⟩))
      refine ⟨⟨?_, ?_, ?_⟩, fun row stored => ⟨row, stored, .refl row⟩,
        fun row stored => ⟨row, List.mem_append_left _ stored, .refl row⟩⟩
      · rw [List.map_append, List.map_singleton]
        refine List.nodup_append.mpr ⟨sound.keyed, List.nodup_singleton _, ?_⟩
        rintro revisionId listed own last rfl
        obtain ⟨other, stored, same⟩ := List.mem_map.mp listed
        exact apart other stored (.inl (same.trans (List.mem_singleton.mp last)))
      · rw [List.map_append, List.map_singleton]
        refine List.nodup_append.mpr ⟨sound.numbered, List.nodup_singleton _, ?_⟩
        rintro number listed own last rfl
        obtain ⟨other, stored, same⟩ := List.mem_map.mp listed
        obtain ⟨ofTask, numbered⟩ := Prod.mk.injEq .. ▸ same.trans (List.mem_singleton.mp last)
        exact apart other stored (.inr ⟨ofTask, numbered⟩)
      · intro row stored
        rcases List.mem_append.mp stored with earlier | last
        · exact sound.digested row earlier
        · rw [List.mem_singleton.mp last]
          exact sealed_draft draft

/-- A row is replaced by one that has its identity. -/
theorem replaced_identity {revisions : List TaskRevision} {changed : TaskRevision}
    (same : ∀ row ∈ revisions, row.revisionId = changed.revisionId → SameRevision row changed)
    {row : TaskRevision} (stored : row ∈ revisions) :
    SameRevision row (if row.revisionId = changed.revisionId then changed else row) := by
  split
  · next own => exact same row stored own
  · exact .refl row

theorem saveState_evolves (sound : Sound computeDigest store) {revisionId : TaskRevisionId}
    {operation : PublicationOperation}
    (saved : store.saveState revisionId (fun revision => operation.run computeDigest revision) =
      .ok later) : Evolves computeDigest store later := by
  unfold LifecycleStore.saveState at saved
  split at saved
  · cases saved
  · next revision found =>
      obtain ⟨changed, made, rest⟩ := except_bind_eq_ok.mp saved
      cases rest
      have stored := List.mem_of_find?_eq_some found
      obtain ⟨same, whole⟩ := same_publication made
      have own : ∀ row ∈ store.revisions, row.revisionId = changed.revisionId →
          SameRevision row changed := by
        intro row listed named
        obtain rfl := List.inj_on_of_nodup_map sound.keyed listed stored
          (named.trans same.content.revisionId)
        exact same
      have named : (store.revisions.map fun row =>
          if row.revisionId = changed.revisionId then changed else row).map
          TaskRevision.revisionId = store.revisions.map TaskRevision.revisionId := by
        rw [List.map_map]
        exact List.map_congr_left fun row listed => (replaced_identity own listed).content.revisionId
      have numbered : (store.revisions.map fun row =>
          if row.revisionId = changed.revisionId then changed else row).map
          (fun row => (row.taskId, row.revisionNumber.value)) =
          store.revisions.map fun row => (row.taskId, row.revisionNumber.value) := by
        rw [List.map_map]
        refine List.map_congr_left fun row listed => ?_
        have content := (replaced_identity own listed).content
        dsimp only [Function.comp]
        rw [content.taskId, content.revisionNumber]
      refine ⟨⟨named ▸ sound.keyed, numbered ▸ sound.numbered, ?_⟩,
        fun row stored => ⟨row, stored, .refl row⟩,
        fun row listed => ⟨_, List.mem_map_of_mem listed, replaced_identity own listed⟩⟩
      intro row listed
      obtain ⟨before, member, rfl⟩ := List.mem_map.mp listed
      split
      · exact whole (sound.digested revision stored)
      · exact sound.digested before member

theorem carryOut_evolves (sound : Sound computeDigest store) {operation : StoreOperation}
    (done : store.carryOut computeDigest operation = .ok later) :
    Evolves computeDigest store later := by
  cases operation with
  | updateMetadata => exact updateTask_evolves sound (fun _ _ => updateMetadata_same) done
  | lifecycle operation =>
      cases operation with
      | create =>
          obtain ⟨task, _, added⟩ := except_bind_eq_ok.mp done
          exact addTask_evolves sound added
      | draft revision unpublished => exact addRevision_evolves sound unpublished done
      | activateRevision => exact updateTask_evolves sound (fun _ _ => activateRevision_same) done
      | suspend => exact updateTask_evolves sound (fun _ _ => transitionTo_same) done
      | resume => exact updateTask_evolves sound (fun _ _ => transitionTo_same) done
      | retire => exact updateTask_evolves sound (fun _ _ => transitionTo_same) done
      | archive => exact updateTask_evolves sound (fun _ _ => transitionTo_same) done
      | publication => exact saveState_evolves sound done

theorem next_evolves (sound : Sound computeDigest store) (operation : StoreOperation) :
    Evolves computeDigest store (store.next computeDigest operation) := by
  unfold LifecycleStore.next
  cases done : store.carryOut computeDigest operation with
  | error problem => exact ⟨sound, .refl store⟩
  | ok later => exact carryOut_evolves sound done

end Steps

theorem empty_sound (computeDigest : TaskRevision → ContentDigest) :
    Sound computeDigest LifecycleStore.empty :=
  ⟨List.nodup_nil, List.nodup_nil, fun _ stored => absurd stored List.not_mem_nil⟩

theorem evolves_of_sound {computeDigest : TaskRevision → ContentDigest} {store : LifecycleStore}
    (sound : Sound computeDigest store) (operations : List StoreOperation) :
    Evolves computeDigest store (operations.foldl (LifecycleStore.next computeDigest) store) := by
  obtain ⟨held, keeps⟩ := Calls.foldl_related (Sound computeDigest) KeepsRows.refl
    (fun _ _ _ => KeepsRows.trans) operations
    (fun middle held operation _ =>
      ⟨(next_evolves held operation).sound, (next_evolves held operation).keeps⟩) sound
  exact ⟨held, keeps⟩

end TaskControl.Deployment
