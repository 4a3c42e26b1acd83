import Mathlib

/-!
# The error taxonomy

The exception classes that the modelled code raises and the handlers that tell
them apart.  The structured `details` of an error are read by no modelled
function and are left out; the class and the message are kept.
-/

set_option autoImplicit false

namespace TaskControl

inductive ErrorCode where
  | validationFailed
  | domainRuleViolation
  | notAuthorised
  | notFound
  | conflict
  | configurationInvalid
  | transientInfrastructureFailure
  | permanentInfrastructureFailure
  deriving DecidableEq, Repr

/-- The classes below `TaskControlError`. -/
inductive ErrorClass where
  | validation
  | ambiguousManagedContent
  | domainRuleViolation
  | notAuthorised
  | notFound
  | conflict
  | configuration
  | transientInfrastructure
  | permanentInfrastructure
  deriving DecidableEq, Repr

/-- The code of a class; `AmbiguousManagedContentError` inherits that of
`ValidationError`. -/
def ErrorClass.code : ErrorClass → ErrorCode
  | .validation => .validationFailed
  | .ambiguousManagedContent => .validationFailed
  | .domainRuleViolation => .domainRuleViolation
  | .notAuthorised => .notAuthorised
  | .notFound => .notFound
  | .conflict => .conflict
  | .configuration => .configurationInvalid
  | .transientInfrastructure => .transientInfrastructureFailure
  | .permanentInfrastructure => .permanentInfrastructureFailure

structure TaskControlError where
  errorClass : ErrorClass
  message : String
  deriving DecidableEq, Repr

def TaskControlError.code (error : TaskControlError) : ErrorCode := error.errorClass.code

def validationError (message : String) : TaskControlError := ⟨.validation, message⟩

def ambiguousManagedContentError (message : String) : TaskControlError :=
  ⟨.ambiguousManagedContent, message⟩

def domainRuleViolationError (message : String) : TaskControlError :=
  ⟨.domainRuleViolation, message⟩

def notFoundError (message : String) : TaskControlError := ⟨.notFound, message⟩

def conflictError (message : String) : TaskControlError := ⟨.conflict, message⟩

def configurationError (message : String) : TaskControlError := ⟨.configuration, message⟩

def transientInfrastructureError (message : String) : TaskControlError :=
  ⟨.transientInfrastructure, message⟩

def permanentInfrastructureError (message : String) : TaskControlError :=
  ⟨.permanentInfrastructure, message⟩

/-- Whatever a Python call can raise.  `other` is any further subclass of
`Exception`; `interrupt` is a `BaseException` that `except Exception` does not
catch, such as `KeyboardInterrupt`. -/
inductive Raised where
  | taskControl (error : TaskControlError)
  | lockNotAcquired (message : String)
  | claimNotHeld (message : String)
  | other (message : String)
  | interrupt
  deriving DecidableEq, Repr

/-- Whether `except Exception` catches it. -/
def Raised.isException : Raised → Bool
  | .interrupt => false
  | _ => true

/-- `str(error)`. -/
def Raised.text : Raised → String
  | .taskControl error => error.message
  | .lockNotAcquired message => message
  | .claimNotHeld message => message
  | .other message => message
  | .interrupt => ""

end TaskControl
