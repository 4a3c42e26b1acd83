import TaskControl.Common.Errors
import TaskControl.Foundation.PythonText

/-!
# Actions

What a task does, described independently of any scheduler: a command as an
argument vector, its environment, and references to secrets that are resolved
only where the command runs.
-/

set_option autoImplicit false

namespace TaskControl

open PythonText

inductive ExecutorType where
  | shell
  | python
  | executable
  | tcl
  | http
  | plugin
  deriving DecidableEq, Repr

def ExecutorType.wire : ExecutorType → String
  | .shell => "shell"
  | .python => "python"
  | .executable => "executable"
  | .tcl => "tcl"
  | .http => "http"
  | .plugin => "plugin"

/-- Whether an adapter for this executor exists in the current phase. -/
def ExecutorType.isImplemented : ExecutorType → Bool
  | .shell | .python | .executable => true
  | .tcl | .http | .plugin => false

inductive OutputCapturePolicy where
  | captureAll
  | captureTail
  | discard
  deriving DecidableEq, Repr

def OutputCapturePolicy.wire : OutputCapturePolicy → String
  | .captureAll => "capture_all"
  | .captureTail => "capture_tail"
  | .discard => "discard"

inductive StdinPolicy where
  | empty
  | inherit
  deriving DecidableEq, Repr

def StdinPolicy.wire : StdinPolicy → String
  | .empty => "empty"
  | .inherit => "inherit"

/-! ## References to secrets -/

def isProviderStart (c : Char) : Bool := 97 ≤ c.toNat && c.toNat ≤ 122

def isProviderChar (c : Char) : Bool :=
  isProviderStart c || (48 ≤ c.toNat && c.toNat ≤ 57) || c == '_' || c == '-'

/-- The end of `^(?P<provider>[a-z][a-z0-9_-]*)://(?P<path>[^\s]+)$`: the path, where
`$` also matches before a final newline. -/
def matchPath (t : Text) : Option Text :=
  let path := if endsWithNewline t then t.dropLast else t
  if path ≠ [] ∧ path.all (fun c => !isSpace c) then some path else none

/-- The groups of the pattern of a secret reference. -/
def matchSecretReference (t : Text) : Option (Text × Text) :=
  let provider := t.takeWhile isProviderChar
  match provider, t.dropWhile isProviderChar with
  | start :: _, ':' :: '/' :: '/' :: rest =>
      if isProviderStart start then (matchPath rest).map fun path => (provider, path) else none
  | _, _ => none

/-- `f"{provider}://{path}"`. -/
def secretBody (provider path : Text) : Text := provider ++ "://".toList ++ path

structure SecretReference where
  provider : Text
  path : Text
  version : Option Text
  provided : provider ≠ []
  located : path ≠ []
  shaped : matchSecretReference (secretBody provider path) ≠ none
  versioned : version ≠ some []

/-! ## Actions -/

/-- A binding holds a literal value or a secret reference, never both. -/
inductive BindingContent where
  | value (text : Text)
  | secret (reference : SecretReference)

/-- Of the alphabet check on a name what later code depends on is kept: it is not empty. -/
structure EnvironmentBinding where
  name : Text
  content : BindingContent
  named : name ≠ []

def EnvironmentBinding.value? (binding : EnvironmentBinding) : Option Text :=
  match binding.content with
  | .value text => some text
  | .secret _ => none

def EnvironmentBinding.secret? (binding : EnvironmentBinding) : Option SecretReference :=
  match binding.content with
  | .value _ => none
  | .secret reference => some reference

def maxArguments : Nat := 1024

def maxArgumentLength : Nat := 32768

structure ActionSpecification where
  executorType : ExecutorType
  entrypoint : Text
  arguments : List Text
  workingDirectory : Option Text
  environment : List EnvironmentBinding
  stdinPolicy : StdinPolicy
  outputCapture : OutputCapturePolicy
  useRawShell : Bool
  requiredCapabilities : Finset Text
  entered : strip entrypoint ≠ []
  argumentsBounded : arguments.length ≤ maxArguments
  eachBounded : ∀ argument ∈ arguments, argument.length ≤ maxArgumentLength ∧ '\x00' ∉ argument
  absolute : ∀ directory ∈ workingDirectory, directory.head? = some '/'
  untraversed : ∀ directory ∈ workingDirectory, "..".toList ∉ directory.splitOn '/'
  rawOnlyInShell : useRawShell = true → executorType = .shell
  rawAlone : useRawShell = true → arguments = []
  namesUnique : (environment.map EnvironmentBinding.name).Nodup

/-- `secret_references`. -/
def ActionSpecification.secretReferences (action : ActionSpecification) : List SecretReference :=
  action.environment.filterMap EnvironmentBinding.secret?

/-- The literal bindings as name and value, which is all a process is given of them. -/
def ActionSpecification.literalEnvironment (action : ActionSpecification) : List (Text × Text) :=
  action.environment.filterMap fun binding => binding.value?.map fun text => (binding.name, text)

end TaskControl
