import TaskControl.Common.Errors

/-!
# Task and revision lifecycles

Two independent state machines: whether a task is operationally available, and
how mature the content of a revision is.
-/

set_option autoImplicit false

namespace TaskControl

inductive TaskLifecycleState where
  | draft
  | active
  | suspended
  | retired
  | archived
  deriving DecidableEq, Repr

namespace TaskLifecycleState

def wire : TaskLifecycleState → String
  | .draft => "draft"
  | .active => "active"
  | .suspended => "suspended"
  | .retired => "retired"
  | .archived => "archived"

def acceptsTriggers (state : TaskLifecycleState) : Bool := state == .active

def isEditable (state : TaskLifecycleState) : Bool := state != .archived

/-- `_TASK_TRANSITIONS`. -/
def transitions : TaskLifecycleState → List TaskLifecycleState
  | .draft => [.active, .archived]
  | .active => [.suspended, .retired]
  | .suspended => [.active, .retired]
  | .retired => [.active, .archived]
  | .archived => []

end TaskLifecycleState

inductive PublicationState where
  | draft
  | published
  | superseded
  | withdrawn
  deriving DecidableEq, Repr

namespace PublicationState

def wire : PublicationState → String
  | .draft => "draft"
  | .published => "published"
  | .superseded => "superseded"
  | .withdrawn => "withdrawn"

def isEditable (state : PublicationState) : Bool := state == .draft

def isDeployable (state : PublicationState) : Bool := state == .published

def isFrozen (state : PublicationState) : Bool := state != .draft

/-- `_PUBLICATION_TRANSITIONS`. -/
def transitions : PublicationState → List PublicationState
  | .draft => [.published, .withdrawn]
  | .published => [.superseded, .withdrawn]
  | .superseded => [.withdrawn]
  | .withdrawn => []

end PublicationState

def assertLegalTaskTransition (current proposed : TaskLifecycleState) :
    Except TaskControlError Unit :=
  if proposed ∈ current.transitions then .ok ()
  else
    .error (domainRuleViolationError
      s!"A task cannot move from {current.wire} to {proposed.wire}.")

def assertLegalPublicationTransition (current proposed : PublicationState) :
    Except TaskControlError Unit :=
  if proposed ∈ current.transitions then .ok ()
  else
    .error (domainRuleViolationError
      s!"A revision cannot move from {current.wire} to {proposed.wire}.")

end TaskControl
