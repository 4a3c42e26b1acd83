import TaskControl.Domain.Identifiers
import TaskControl.Domain.Lifecycle
import TaskControl.Domain.Values

/-!
# Tasks

The durable identity of an operational activity.  A `Task` carries the checks of
its constructor; in particular an active task names the revision that it runs.
-/

set_option autoImplicit false

namespace TaskControl

open PythonText

def maxNameLength : Nat := 200

def maxDescriptionLength : Nat := 4000

def maxLabels : Nat := 50

structure Task where
  taskId : TaskId
  name : Text
  slug : Slug
  ownerId : OwnerId
  createdAt : UtcTimestamp
  createdBy : OwnerId
  description : Text
  lifecycleState : TaskLifecycleState
  activeRevisionId : Option TaskRevisionId
  labels : Finset Text
  updatedAt : Option UtcTimestamp
  updatedBy : Option OwnerId
  named : strip name ≠ []
  nameBounded : name.length ≤ maxNameLength
  descriptionBounded : description.length ≤ maxDescriptionLength
  labelsBounded : labels.card ≤ maxLabels
  runnable : lifecycleState = .active → activeRevisionId ≠ none

namespace Task

/-- `activate_revision`. -/
def activateRevision (task : Task) (revisionId : TaskRevisionId) (updatedBy : OwnerId)
    (updatedAt : UtcTimestamp) : Except TaskControlError Task := do
  if task.lifecycleState = .archived then
    .error (domainRuleViolationError "An archived task cannot activate a revision.")
  else
    if task.lifecycleState ≠ .active then
      assertLegalTaskTransition task.lifecycleState .active
    return { task with
      lifecycleState := .active
      activeRevisionId := some revisionId
      updatedAt := some updatedAt
      updatedBy := some updatedBy
      runnable := fun _ => Option.some_ne_none revisionId }

/-- `transition_to`. -/
def transitionTo (task : Task) (proposed : TaskLifecycleState) (updatedBy : OwnerId)
    (updatedAt : UtcTimestamp) : Except TaskControlError Task := do
  assertLegalTaskTransition task.lifecycleState proposed
  if unrunnable : proposed = .active ∧ task.activeRevisionId = none then
    .error (domainRuleViolationError
      "A task cannot become active without a published revision to run. Activate a revision instead.")
  else
    return { task with
      lifecycleState := proposed
      updatedAt := some updatedAt
      updatedBy := some updatedBy
      runnable := fun active missing => unrunnable ⟨active, missing⟩ }

def suspend (task : Task) (updatedBy : OwnerId) (updatedAt : UtcTimestamp) :
    Except TaskControlError Task :=
  task.transitionTo .suspended updatedBy updatedAt

def resume (task : Task) (updatedBy : OwnerId) (updatedAt : UtcTimestamp) :
    Except TaskControlError Task :=
  task.transitionTo .active updatedBy updatedAt

def retire (task : Task) (updatedBy : OwnerId) (updatedAt : UtcTimestamp) :
    Except TaskControlError Task :=
  task.transitionTo .retired updatedBy updatedAt

def archive (task : Task) (updatedBy : OwnerId) (updatedAt : UtcTimestamp) :
    Except TaskControlError Task :=
  task.transitionTo .archived updatedBy updatedAt

/-- `update_metadata`. -/
def updateMetadata (task : Task) (updatedBy : OwnerId) (updatedAt : UtcTimestamp)
    (name description : Option Text) (ownerId : Option OwnerId) (labels : Option (Finset Text)) :
    Except TaskControlError Task :=
  if ¬ task.lifecycleState.isEditable then
    .error (domainRuleViolationError "An archived task is read-only.")
  else if unnamed : strip (name.getD task.name) = [] then
    .error (validationError "A task requires a name.")
  else if long : maxNameLength < (name.getD task.name).length then
    .error (validationError "Task name is too long.")
  else if wordy : maxDescriptionLength < (description.getD task.description).length then
    .error (validationError "Task description is too long.")
  else if crowded : maxLabels < (labels.getD task.labels).card then
    .error (validationError "Too many labels.")
  else
    .ok { task with
      name := name.getD task.name
      description := description.getD task.description
      ownerId := ownerId.getD task.ownerId
      labels := labels.getD task.labels
      updatedAt := some updatedAt
      updatedBy := some updatedBy
      named := unnamed
      nameBounded := Nat.not_lt.mp long
      descriptionBounded := Nat.not_lt.mp wordy
      labelsBounded := Nat.not_lt.mp crowded }

end Task

end TaskControl
