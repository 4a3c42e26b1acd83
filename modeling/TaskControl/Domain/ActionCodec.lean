import TaskControl.Domain.Primitives
import TaskControl.Domain.SecretReferences

/-!
# Stored actions

`to_primitive` and `from_primitive` of an environment binding and of an action,
with the checks of their constructors.  What is alphanumeric is a matter of the
interpreter's character tables, which are a parameter.
-/

set_option autoImplicit false

namespace TaskControl

open PythonText JsonText Effects

/-! ## Sets of texts -/

theorem texts_transitive : IsTrans Text (· ≤ ·) := inferInstance

theorem texts_antisymmetric : @Std.Antisymm Text (· ≤ ·) := inferInstance

theorem texts_total : @Std.Total Text (· ≤ ·) := inferInstance

/-- `sorted` of a set of texts. -/
def sortedTexts (texts : Finset Text) : List Text :=
  @Finset.sort Text texts (· ≤ ·) LinearOrder.toDecidableLE texts_transitive texts_antisymmetric
    texts_total

@[simp] theorem toFinset_sortedTexts (texts : Finset Text) :
    (sortedTexts texts).toFinset = texts :=
  Finset.sort_toFinset texts (· ≤ ·)

/-! ## Characters -/

/-- What `isalnum` and `isdigit` hold of: no white space is alphanumeric. -/
structure CharacterClasses where
  alnum : Char → Bool
  digit : Char → Bool
  solid : ∀ c, alnum c = true → isSpace c = false

theorem isAlphanum_solid (c : Char) (alnum : c.isAlphanum = true) : isSpace c = false := by
  have ranges : (65 ≤ c.toNat ∧ c.toNat ≤ 90 ∨ 97 ≤ c.toNat ∧ c.toNat ≤ 122) ∨
      48 ≤ c.toNat ∧ c.toNat ≤ 57 := by
    simpa [Char.isAlphanum, Char.isAlpha, Char.isUpper, Char.isLower, Char.isDigit,
      UInt32.le_iff_toNat_le] using alnum
  unfold isSpace
  simp only [Bool.or_eq_false_iff, Bool.and_eq_false_iff, decide_eq_false_iff_not, beq_eq_false_iff_ne]
  omega

/-- The letters and digits of ASCII. -/
def CharacterClasses.ascii : CharacterClasses := ⟨Char.isAlphanum, Char.isDigit, isAlphanum_solid⟩

/-- Whether a name is alphanumeric but for some characters, and starts with no digit. -/
def CharacterClasses.accepts (classes : CharacterClasses) (loose : List Char) (name : Text) : Bool :=
  let bare := name.filter fun c => !loose.contains c
  !bare.isEmpty && bare.all classes.alnum && !name.head?.any classes.digit

/-! ## Environment bindings -/

namespace EnvironmentBinding

/-- The constructor. -/
def make (classes : CharacterClasses) (name : Text) (value : Option Text)
    (secret : Option SecretReference) : Except TaskControlError EnvironmentBinding :=
  if named : name = [] then .error (validationError "An environment binding requires a name.")
  else if ¬ classes.accepts ['_'] name then
    .error (validationError
      ("Environment variable names must be alphanumeric with underscores and must not start " ++
        "with a digit."))
  else
    match value, secret with
    | some text, none => .ok ⟨name, .value text, named⟩
    | none, some reference => .ok ⟨name, .secret reference, named⟩
    | _, _ =>
        .error (validationError
          ("An environment binding must hold exactly one of a literal value or a secret " ++
            "reference."))

/-- `to_primitive`. -/
def toPrimitive (binding : EnvironmentBinding) : Json :=
  match binding.content with
  | .secret reference =>
      dictionary [("name", textJson binding.name), ("secret", textJson reference.text)]
  | .value text => dictionary [("name", textJson binding.name), ("value", textJson text)]

end EnvironmentBinding

/-- A string that a constructor checks; it wants one and refuses everything else. -/
def checkedText {α : Type} (make : Text → Except TaskControlError α) : Json → Reading α
  | .str s =>
      match textOf s with
      | some t => constructed (make t)
      | none => .error .untyped
  | _ => invalidPrimitive

/-- A string, where the constructor refuses what is none. -/
def stringValue : Json → Reading Text := checkedText .ok

/-- `from_primitive`. -/
def EnvironmentBinding.fromPrimitive (classes : CharacterClasses) (data : Json) :
    Reading EnvironmentBinding := do
  let members ← mapping data
  let secret ← optionally (checkedText SecretReference.parse) (valueAt members "secret")
  let name ← stringValue ((valueAt? members "name").getD (textJson []))
  let value ← optionally textValue (valueAt members "value")
  constructed (make classes name value secret)

/-! ## Actions -/

namespace ActionSpecification

def executorTypes : List ExecutorType := [.shell, .python, .executable, .tcl, .http, .plugin]

def stdinPolicies : List StdinPolicy := [.empty, .inherit]

def outputCaptures : List OutputCapturePolicy := [.captureAll, .captureTail, .discard]

def argumentFits (argument : Text) : Bool :=
  decide (argument.length ≤ maxArgumentLength) && !argument.contains '\x00'

def directoryAbsolute (directory : Text) : Bool := directory.head? == some '/'

def directoryUntraversed (directory : Text) : Bool := !(directory.splitOn '/').contains "..".toList

theorem argumentFits_iff {argument : Text} : argumentFits argument = true ↔
    argument.length ≤ maxArgumentLength ∧ '\x00' ∉ argument := by
  simp [argumentFits]

theorem eachBounded_of {arguments : List Text} (fit : arguments.all argumentFits = true) :
    ∀ argument ∈ arguments, argument.length ≤ maxArgumentLength ∧ '\x00' ∉ argument :=
  fun argument member => argumentFits_iff.mp (List.all_eq_true.mp fit argument member)

theorem absolute_of {workingDirectory : Option Text}
    (absolute : workingDirectory.all directoryAbsolute = true) :
    ∀ directory ∈ workingDirectory, directory.head? = some '/' := by
  rintro directory rfl
  simpa [directoryAbsolute] using absolute

theorem untraversed_of {workingDirectory : Option Text}
    (untraversed : workingDirectory.all directoryUntraversed = true) :
    ∀ directory ∈ workingDirectory, "..".toList ∉ directory.splitOn '/' := by
  rintro directory rfl
  simpa [directoryUntraversed] using untraversed

theorem rawOnlyInShell_of {useRawShell : Bool} {executorType : ExecutorType}
    (raw : ¬ (useRawShell = true ∧ executorType ≠ .shell)) :
    useRawShell = true → executorType = .shell := fun used => by
  by_contra other
  exact raw ⟨used, other⟩

theorem rawAlone_of {useRawShell : Bool} {arguments : List Text}
    (alone : ¬ (useRawShell = true ∧ arguments ≠ [])) : useRawShell = true → arguments = [] :=
  fun used => by
    by_contra some_
    exact alone ⟨used, some_⟩

/-- The constructor. -/
def make (executorType : ExecutorType) (entrypoint : Text) (arguments : List Text)
    (workingDirectory : Option Text) (environment : List EnvironmentBinding)
    (stdinPolicy : StdinPolicy) (outputCapture : OutputCapturePolicy) (useRawShell : Bool)
    (requiredCapabilities : Finset Text) : Except TaskControlError ActionSpecification :=
  if entered : strip entrypoint = [] then
    .error (validationError "An action requires an entrypoint.")
  else if bounded : arguments.length ≤ maxArguments then
    if fit : arguments.all argumentFits = true then
      if absolute : workingDirectory.all directoryAbsolute = true then
        if untraversed : workingDirectory.all directoryUntraversed = true then
          if shell : useRawShell = true ∧ executorType ≠ .shell then
            .error (validationError
              "Raw shell interpretation is only meaningful for the shell executor.")
          else if alone : useRawShell = true ∧ arguments ≠ [] then
            .error (validationError
              ("A raw shell command is a single string. Supplying separate arguments alongside " ++
                "it is ambiguous — put them in the command, or use an argument vector instead."))
          else if unique : (environment.map EnvironmentBinding.name).Nodup then
            .ok {
              executorType, entrypoint, arguments, workingDirectory, environment, stdinPolicy
              outputCapture, useRawShell, requiredCapabilities
              entered, argumentsBounded := bounded
              eachBounded := eachBounded_of fit
              absolute := absolute_of absolute
              untraversed := untraversed_of untraversed
              rawOnlyInShell := rawOnlyInShell_of shell
              rawAlone := rawAlone_of alone
              namesUnique := unique }
          else .error (validationError "Environment variable names must be unique.")
        else
          .error (validationError "The working directory must not contain a parent traversal.")
      else
        .error (validationError
          ("The working directory must be an absolute path. A relative path depends on where " ++
            "the runtime happened to start."))
    else
      match arguments.find? fun argument => !argumentFits argument with
      | some argument =>
          if argument.length ≤ maxArgumentLength then
            .error (validationError "Arguments must not contain a null byte.")
          else .error (validationError "Argument exceeds the maximum supported length.")
      | none => .error (validationError "Argument exceeds the maximum supported length.")
  else .error (validationError "Too many arguments.")

/-- `to_primitive`. -/
def toPrimitive (action : ActionSpecification) : Json :=
  dictionary [
    ("executor_type", wordJson action.executorType.wire),
    ("entrypoint", textJson action.entrypoint),
    ("arguments", .arr (action.arguments.map textJson)),
    ("working_directory", optionJson textJson action.workingDirectory),
    ("environment", .arr (action.environment.map EnvironmentBinding.toPrimitive)),
    ("stdin_policy", wordJson action.stdinPolicy.wire),
    ("output_capture", wordJson action.outputCapture.wire),
    ("use_raw_shell", .bool action.useRawShell),
    ("required_capabilities", .arr ((sortedTexts action.requiredCapabilities).map textJson))]

/-- The executor type; both exceptions of its lookup become a `ValidationError`. -/
def readExecutor (members : List (Points × Json)) : Reading ExecutorType :=
  match valueAt? members "executor_type" with
  | some value =>
      match wordOf executorTypes ExecutorType.wire value with
      | .ok executorType => .ok executorType
      | .error _ => invalidPrimitive
  | none => invalidPrimitive

/-- `from_primitive`. -/
def fromPrimitive (classes : CharacterClasses) (data : Json) : Reading ActionSpecification := do
  let members ← mapping data
  let executorType ← readExecutor members
  let arguments ← listValue (valueAt members "arguments")
  let environment ← listValue (valueAt members "environment")
  let environment ← environment.mapM (EnvironmentBinding.fromPrimitive classes)
  let stdinPolicy ← wordValue stdinPolicies StdinPolicy.wire .empty (valueAt? members "stdin_policy")
  let outputCapture ←
    wordValue outputCaptures OutputCapturePolicy.wire .captureAll (valueAt? members "output_capture")
  let capabilities ← listValue (valueAt members "required_capabilities")
  let capabilities ← capabilities.mapM textValue
  let entrypoint ← stringValue ((valueAt? members "entrypoint").getD (textJson []))
  let arguments ← arguments.mapM stringValue
  let workingDirectory ← optionally textValue (valueAt members "working_directory")
  constructed (make executorType entrypoint arguments workingDirectory environment stdinPolicy
    outputCapture (flagValue members "use_raw_shell") capabilities.toFinset)

end ActionSpecification

/-! ## What is written is read back -/

section

variable {classes : CharacterClasses}

theorem checkedText_textJson {α : Type} (make : Text → Except TaskControlError α) (t : Text) :
    checkedText make (textJson t) = constructed (make t) := by
  simp only [checkedText, textJson, textOf_pointsOf]

@[simp] theorem stringValue_textJson (t : Text) : stringValue (textJson t) = .ok t :=
  checkedText_textJson _ t

/-- What the constructor checks of a name, and a reference that its text names. -/
structure EnvironmentBinding.Storable (classes : CharacterClasses) (binding : EnvironmentBinding) :
    Prop where
  named : classes.accepts ['_'] binding.name = true
  plain : ∀ reference ∈ binding.secret?, reference.Plain

/-- What the constructor checks of a binding's name holds, and the secrets are named by their
texts. -/
def ActionSpecification.Storable (classes : CharacterClasses) (action : ActionSpecification) :
    Prop :=
  ∀ binding ∈ action.environment, binding.Storable classes

namespace EnvironmentBinding

theorem make_fields {binding : EnvironmentBinding}
    (named : classes.accepts ['_'] binding.name = true) :
    make classes binding.name binding.value? binding.secret? = .ok binding := by
  obtain ⟨name, content, nonempty⟩ := binding
  rw [make, dif_neg nonempty, if_neg (not_not.mpr named)]
  cases content <;> rfl

theorem fromPrimitive_toPrimitive {binding : EnvironmentBinding}
    (storable : binding.Storable classes) :
    fromPrimitive classes binding.toPrimitive = .ok binding := by
  have made := make_fields storable.named
  obtain ⟨name, content, named⟩ := binding
  cases content with
  | value text =>
      simp only [value?, secret?] at made
      simp [fromPrimitive, toPrimitive, valueAt, bind, Except.bind, Except.map, made, constructed]
  | secret reference =>
      have back := SecretReference.roundTrips_of_plain (storable.plain reference rfl)
      simp only [value?, secret?] at made
      simp [fromPrimitive, toPrimitive, valueAt, bind, Except.bind, Except.map, made, constructed,
        checkedText_textJson, show SecretReference.parse reference.text = .ok reference from back]

end EnvironmentBinding

namespace ActionSpecification

theorem make_fields (action : ActionSpecification) :
    make action.executorType action.entrypoint action.arguments action.workingDirectory
      action.environment action.stdinPolicy action.outputCapture action.useRawShell
      action.requiredCapabilities = .ok action := by
  have fit : action.arguments.all argumentFits = true :=
    List.all_eq_true.mpr fun argument member =>
      argumentFits_iff.mpr (action.eachBounded argument member)
  have absolute : action.workingDirectory.all directoryAbsolute = true := by
    cases written : action.workingDirectory with
    | none => rfl
    | some directory => simpa [directoryAbsolute] using action.absolute directory written
  have untraversed : action.workingDirectory.all directoryUntraversed = true := by
    cases written : action.workingDirectory with
    | none => rfl
    | some directory => simpa [directoryUntraversed] using action.untraversed directory written
  have shell : ¬ (action.useRawShell = true ∧ action.executorType ≠ .shell) :=
    fun raw => raw.2 (action.rawOnlyInShell raw.1)
  have alone : ¬ (action.useRawShell = true ∧ action.arguments ≠ []) :=
    fun raw => raw.2 (action.rawAlone raw.1)
  rw [make, dif_neg action.entered, dif_pos action.argumentsBounded, dif_pos fit,
    dif_pos absolute, dif_pos untraversed, dif_neg shell, dif_neg alone,
    dif_pos action.namesUnique]

theorem readExecutor_written (executorType : ExecutorType) :
    wordOf executorTypes ExecutorType.wire (wordJson executorType.wire) = .ok executorType :=
  wordOf_wordJson (by decide) (by cases executorType <;> decide)

theorem fromPrimitive_toPrimitive {action : ActionSpecification}
    (storable : action.Storable classes) :
    fromPrimitive classes action.toPrimitive = .ok action := by
  have environment := mapM_written fun binding member =>
    EnvironmentBinding.fromPrimitive_toPrimitive (storable binding member)
  have stdinPolicy := @wordValue_wordJson _ stdinPolicies StdinPolicy.wire (by decide)
    action.stdinPolicy (by cases action.stdinPolicy <;> decide) .empty
  have outputCapture := @wordValue_wordJson _ outputCaptures OutputCapturePolicy.wire (by decide)
    action.outputCapture (by cases action.outputCapture <;> decide) .captureAll
  have capabilities := @mapM_written _ textValue textJson (sortedTexts action.requiredCapabilities)
    fun name _ => textValue_textJson name
  have arguments := @mapM_written _ stringValue textJson action.arguments
    fun argument _ => stringValue_textJson argument
  have directory := optionally_text action.workingDirectory
  simp [fromPrimitive, toPrimitive, bind, Except.bind, readExecutor, valueAt, flagValue,
    readExecutor_written, environment, stdinPolicy, outputCapture, capabilities, arguments,
    directory, make_fields, constructed]

end ActionSpecification

/-! ## What is read is written back -/

/-- Every reference that a text names is named by its own text. -/
theorem SecretReference.plain_of_parse {t : Text} {reference : SecretReference}
    (parsed : parse t = .ok reference) : reference.Plain := by
  unfold parse at parsed
  dsimp only at parsed
  split at parsed
  · cases parsed
  · next provider path matched =>
      split at parsed
      · cases parsed
      · obtain ⟨rfl, rfl⟩ := make_ok parsed
        obtain ⟨alphabet, rest, split, located⟩ := matchSecretReference_some matched
        obtain ⟨solid, shape⟩ := matchPath_some located
        have hashless : '#' ∉ rest := by
          intro member
          have inBody : '#' ∈ t.takeWhile (· ≠ '#') := by
            rw [split, secretBody]
            exact List.mem_append_right _ member
          simpa using List.mem_takeWhile_imp inBody
        refine ⟨alphabet, fun member => hashless ?_, Bool.eq_false_iff.mpr fun ends => ?_⟩
        · rcases shape with ⟨same, _⟩ | longer
          · rwa [same]
          · rw [longer]
            exact List.mem_append_left _ member
        · have last : reference.path.getLast? = some '\n' := by simpa [endsWithNewline] using ends
          have space := solid '\n' (List.mem_of_getLast? last)
          rw [isSpace_newline] at space
          cases space

theorem checkedText_ok {α : Type} {make : Text → Except TaskControlError α} {data : Json} {value : α}
    (read : checkedText make data = .ok value) : ∃ t, make t = .ok value := by
  unfold checkedText at read
  split at read
  · split at read
    · next t _ =>
        cases made : make t with
        | ok value' =>
            rw [made] at read
            cases read
            exact ⟨t, made⟩
        | error error =>
            rw [made] at read
            cases read
    · cases read
  · cases read

theorem optionally_ok {α : Type} {read : Json → Reading α} {data : Json} {value : Option α}
    (done : optionally read data = .ok value) :
    ∀ content ∈ value, ∃ present, read present = .ok content := by
  rintro content rfl
  unfold optionally at done
  split at done
  · cases done
  · cases present : read data with
    | ok content' =>
        rw [present] at done
        cases done
        exact ⟨data, present⟩
    | error error =>
        rw [present] at done
        cases done

theorem EnvironmentBinding.make_ok {name : Text} {value : Option Text}
    {secret : Option SecretReference} {binding : EnvironmentBinding}
    (made : make classes name value secret = .ok binding) :
    classes.accepts ['_'] binding.name = true ∧ binding.secret? = secret := by
  unfold make at made
  split at made
  · cases made
  · split at made
    · cases made
    · next accepted =>
        split at made
        · cases made
          exact ⟨not_not.mp accepted, rfl⟩
        · cases made
          exact ⟨not_not.mp accepted, rfl⟩
        · cases made

theorem constructed_ok {α : Type} {made : Except TaskControlError α} {value : α}
    (done : constructed made = .ok value) : made = .ok value := by
  cases made with
  | ok value' => exact congrArg Except.ok (Except.ok.inj done)
  | error error => cases done

theorem EnvironmentBinding.storable_of_read {data : Json} {binding : EnvironmentBinding}
    (read : fromPrimitive classes data = .ok binding) : binding.Storable classes := by
  obtain ⟨members, _, read⟩ := except_bind_eq_ok.mp read
  obtain ⟨secret, referred, read⟩ := except_bind_eq_ok.mp read
  obtain ⟨name, _, read⟩ := except_bind_eq_ok.mp read
  obtain ⟨value, _, read⟩ := except_bind_eq_ok.mp read
  obtain ⟨named, same⟩ := make_ok (constructed_ok read)
  refine ⟨named, fun reference held => ?_⟩
  rw [same] at held
  obtain ⟨present, parsed⟩ := optionally_ok referred reference held
  obtain ⟨t, parsed⟩ := checkedText_ok parsed
  exact SecretReference.plain_of_parse parsed

theorem ActionSpecification.make_environment {executorType : ExecutorType} {entrypoint : Text}
    {arguments : List Text} {workingDirectory : Option Text} {environment : List EnvironmentBinding}
    {stdinPolicy : StdinPolicy} {outputCapture : OutputCapturePolicy} {useRawShell : Bool}
    {requiredCapabilities : Finset Text} {action : ActionSpecification}
    (made : make executorType entrypoint arguments workingDirectory environment stdinPolicy
      outputCapture useRawShell requiredCapabilities = .ok action) :
    action.environment = environment := by
  unfold make at made
  repeat' split at made
  all_goals first | (cases made; done) | (cases made; rfl)

theorem ActionSpecification.storable_of_read {data : Json} {action : ActionSpecification}
    (read : fromPrimitive classes data = .ok action) : action.Storable classes := by
  obtain ⟨members, _, read⟩ := except_bind_eq_ok.mp read
  obtain ⟨executorType, _, read⟩ := except_bind_eq_ok.mp read
  obtain ⟨arguments, _, read⟩ := except_bind_eq_ok.mp read
  obtain ⟨listed, _, read⟩ := except_bind_eq_ok.mp read
  obtain ⟨environment, bindings, read⟩ := except_bind_eq_ok.mp read
  obtain ⟨stdinPolicy, _, read⟩ := except_bind_eq_ok.mp read
  obtain ⟨outputCapture, _, read⟩ := except_bind_eq_ok.mp read
  obtain ⟨capabilities, _, read⟩ := except_bind_eq_ok.mp read
  obtain ⟨capabilities, _, read⟩ := except_bind_eq_ok.mp read
  obtain ⟨entrypoint, _, read⟩ := except_bind_eq_ok.mp read
  obtain ⟨arguments, _, read⟩ := except_bind_eq_ok.mp read
  obtain ⟨workingDirectory, _, read⟩ := except_bind_eq_ok.mp read
  intro binding member
  rw [make_environment (constructed_ok read)] at member
  obtain ⟨item, _, bound⟩ := mem_of_related (mapM_eq_ok.mp bindings) member
  exact EnvironmentBinding.storable_of_read bound

end

end TaskControl
