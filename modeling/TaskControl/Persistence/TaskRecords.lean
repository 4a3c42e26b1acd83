import TaskControl.Domain.Task

/-!
# Stored tasks

The columns of the `tasks` table that an update can touch, and what the object
mapper writes: an `UPDATE` sets the columns whose value differs from the one the
session had loaded, and leaves the others as the database has them.
-/

set_option autoImplicit false

namespace TaskControl.Persistence

open PythonText

/-- A row of the `tasks` table; its key, which no update changes, is left out. -/
structure TaskRecord where
  slug : Text
  name : Text
  description : Text
  ownerId : Text
  lifecycleState : String
  activeRevisionId : Option Text
  labels : List Text
  createdAt : UtcTimestamp
  createdBy : Text
  updatedAt : Option UtcTimestamp
  updatedBy : Option Text
  storageVersion : Nat
  deriving DecidableEq

/-- `apply_task_to_record`: identity and creation metadata are not copied. -/
def applyTaskToRecord (record : TaskRecord) (task : Task) : TaskRecord :=
  { record with
    slug := task.slug.value
    name := task.name
    description := task.description
    ownerId := task.ownerId.text
    lifecycleState := task.lifecycleState.wire
    activeRevisionId := task.activeRevisionId.map EntityId.text
    labels := task.labels.sort (· ≤ ·)
    updatedAt := task.updatedAt
    updatedBy := task.updatedBy.map EntityId.text }

/-- The value an `UPDATE` leaves in a column. -/
def setColumn {α : Type} [DecidableEq α] (loaded changed stored : α) : α :=
  if changed = loaded then stored else changed

/-- The `UPDATE` of a flush: what the session loaded, what it holds now, and the row. -/
def flushRecord (loaded changed stored : TaskRecord) : TaskRecord where
  slug := setColumn loaded.slug changed.slug stored.slug
  name := setColumn loaded.name changed.name stored.name
  description := setColumn loaded.description changed.description stored.description
  ownerId := setColumn loaded.ownerId changed.ownerId stored.ownerId
  lifecycleState := setColumn loaded.lifecycleState changed.lifecycleState stored.lifecycleState
  activeRevisionId :=
    setColumn loaded.activeRevisionId changed.activeRevisionId stored.activeRevisionId
  labels := setColumn loaded.labels changed.labels stored.labels
  createdAt := setColumn loaded.createdAt changed.createdAt stored.createdAt
  createdBy := setColumn loaded.createdBy changed.createdBy stored.createdBy
  updatedAt := setColumn loaded.updatedAt changed.updatedAt stored.updatedAt
  updatedBy := setColumn loaded.updatedBy changed.updatedBy stored.updatedBy
  storageVersion := setColumn loaded.storageVersion changed.storageVersion stored.storageVersion

/-- On the row that was loaded, a flush stores exactly what the session holds. -/
theorem flushRecord_loaded (loaded changed : TaskRecord) :
    flushRecord loaded changed loaded = changed := by
  have column : ∀ {α : Type} [DecidableEq α] (old new : α), setColumn old new old = new := by
    intro α _ old new
    unfold setColumn
    split
    · next same => exact same.symm
    · rfl
  simp only [flushRecord, column]

/-- What `SqlAlchemyTaskRepository.update` raises before it writes. -/
inductive UpdateError where
  | notFound (error : TaskControlError)
  | concurrencyConflict (message : String)
  deriving DecidableEq

/-- `SqlAlchemyTaskRepository.update` up to its flush, on the record that `session.get`
gives: the new state of the instance. -/
def updateRecord (record : Option TaskRecord) (task : Task) (expectedVersion : Nat) :
    Except UpdateError TaskRecord :=
  match record with
  | none => .error (.notFound (notFoundError "Task not found."))
  | some record =>
      if record.storageVersion ≠ expectedVersion then
        .error (.concurrencyConflict
          (s!"Task {String.ofList task.taskId.text} was modified by someone else: expected " ++
            s!"storage version {expectedVersion}, found {record.storageVersion}."))
      else
        .ok { applyTaskToRecord record task with storageVersion := expectedVersion + 1 }

theorem updateRecord_ok {record : Option TaskRecord} {task : Task} {expectedVersion : Nat}
    {changed : TaskRecord} (updated : updateRecord record task expectedVersion = .ok changed) :
    ∃ loaded, record = some loaded ∧ loaded.storageVersion = expectedVersion ∧
      changed.storageVersion = expectedVersion + 1 := by
  cases record with
  | none => cases updated
  | some loaded =>
      simp only [updateRecord] at updated
      split at updated
      · cases updated
      · next matches_ =>
          cases updated
          exact ⟨loaded, rfl, Classical.not_not.mp matches_, rfl⟩

/-- A record of another version is refused. -/
theorem updateRecord_stale (record : TaskRecord) {expectedVersion : Nat}
    (stale : record.storageVersion ≠ expectedVersion) (task : Task) :
    ∃ message, updateRecord (some record) task expectedVersion =
      .error (.concurrencyConflict message) := by
  simp only [updateRecord, if_pos stale]
  exact ⟨_, rfl⟩

end TaskControl.Persistence
