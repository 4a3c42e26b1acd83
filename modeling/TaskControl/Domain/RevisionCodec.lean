import TaskControl.Domain.ActionCodec
import TaskControl.Domain.CronAcceptance
import TaskControl.Domain.Revision

/-!
# Stored controls, deployments and schedules

`to_primitive` and `from_primitive` of what a revision has besides its action, with
the checks of the constructors.  A schedule is its own text, which the constructor
normalises.
-/

set_option autoImplicit false

namespace TaskControl

open PythonText JsonText Effects

/-! ## Durations and policies -/

/-- The constructor on an integer. -/
def Duration.make (seconds : Int) : Except TaskControlError Duration :=
  if seconds < 0 then .error (validationError "Duration must not be negative.")
  else if bounded : seconds.toNat ≤ maxDurationSeconds then .ok ⟨seconds.toNat, bounded⟩
  else .error (validationError "Duration exceeds the supported maximum of one year.")

/-- `Duration(data.get(key, default))`. -/
def durationValue (members : List (Points × Json)) (key : String) (default : Nat) :
    Reading Duration := do
  let seconds ← wholeNumber ((valueAt? members key).getD (natJson default))
  constructed (Duration.make seconds)

theorem enforced_of {runTimeout terminationGrace : Duration}
    (idle : ¬ (runTimeout.isZero = true ∧ ¬ terminationGrace.isZero = true)) :
    runTimeout.isZero = true → terminationGrace.isZero = true := fun unlimited => by
  by_contra graceful
  exact idle ⟨unlimited, graceful⟩

/-- The constructor. -/
def TimeoutPolicy.make (runTimeout terminationGrace : Duration) :
    Except TaskControlError TimeoutPolicy :=
  if idle : runTimeout.isZero = true ∧ ¬ terminationGrace.isZero = true then
    .error (validationError "A termination grace period requires a run timeout to enforce.")
  else .ok ⟨runTimeout, terminationGrace, enforced_of idle⟩

theorem positive_of {maxAttempts : Int} (low : ¬ maxAttempts < 1) : 1 ≤ maxAttempts.toNat := by
  omega

/-- The constructor on an integer. -/
def RetryPolicy.make (maxAttempts : Int) (backoff : BackoffStrategy) (baseDelay maxDelay : Duration)
    (retryOutcomeFailures retryTimeouts : Bool) : Except TaskControlError RetryPolicy :=
  if low : maxAttempts < 1 then
    .error (validationError
      "RetryPolicy max_attempts must be at least 1, which means no retry.")
  else if bounded : maxAttempts.toNat ≤ maxRetryAttempts then
    if ordered : baseDelay.seconds ≤ maxDelay.seconds then
      .ok {
        maxAttempts := maxAttempts.toNat
        backoff, baseDelay, maxDelay, retryOutcomeFailures, retryTimeouts
        positive := positive_of low
        attemptsBounded := bounded
        delaysOrdered := ordered }
    else
      .error (validationError "RetryPolicy max_delay must not be shorter than base_delay.")
  else .error (validationError "RetryPolicy max_attempts exceeds the supported maximum.")

/-! ## Execution controls -/

namespace ExecutionControls

def backoffStrategies : List BackoffStrategy := [.fixed, .linear, .exponential]

def overlapPolicies : List OverlapPolicy := [.allow, .forbid, .queue, .replace]

def activationPolicies : List ActivationPolicy := [.requireControlState, .continueWithLocalJournal]

theorem overlapAgrees_of {overlap : OverlapPolicy} {maxConcurrent : Int}
    (agrees : ¬ (overlap ≠ .allow ∧ 1 < maxConcurrent)) :
    overlap ≠ .allow → maxConcurrent.toNat ≤ 1 := fun other => by
  by_contra more
  exact agrees ⟨other, by omega⟩

/-- The constructor on an integer. -/
def make (timeout : TimeoutPolicy) (retry : RetryPolicy) (overlap : OverlapPolicy)
    (maxConcurrent : Int) (activationPolicy : ActivationPolicy) :
    Except TaskControlError ExecutionControls :=
  if low : maxConcurrent < 1 then .error (validationError "max_concurrent must be at least 1.")
  else if contrary : overlap ≠ .allow ∧ 1 < maxConcurrent then
    .error (validationError
      ("max_concurrent above 1 requires an overlap policy of 'allow'. Otherwise the two " ++
        "settings disagree about whether overlap is permitted."))
  else
    .ok {
      timeout, retry, overlap, activationPolicy
      maxConcurrent := maxConcurrent.toNat
      someConcurrent := positive_of low
      overlapAgrees := overlapAgrees_of contrary }

def timeoutFields (policy : TimeoutPolicy) : List (String × Json) :=
  [("run_timeout_seconds", natJson policy.runTimeout.seconds),
    ("termination_grace_seconds", natJson policy.terminationGrace.seconds)]

def retryFields (policy : RetryPolicy) : List (String × Json) :=
  [("max_attempts", natJson policy.maxAttempts),
    ("backoff", wordJson policy.backoff.wire),
    ("base_delay_seconds", natJson policy.baseDelay.seconds),
    ("max_delay_seconds", natJson policy.maxDelay.seconds),
    ("retry_outcome_failures", .bool policy.retryOutcomeFailures),
    ("retry_timeouts", .bool policy.retryTimeouts)]

/-- `to_primitive`. -/
def toPrimitive (controls : ExecutionControls) : Json :=
  dictionary [
    ("timeout", dictionary (timeoutFields controls.timeout)),
    ("retry", dictionary (retryFields controls.retry)),
    ("overlap", wordJson controls.overlap.wire),
    ("max_concurrent", natJson controls.maxConcurrent),
    ("activation_policy", wordJson controls.activationPolicy.wire)]

/-- `value or {}`, on which `get` is called. -/
def group (value : Json) : Reading (List (Points × Json)) :=
  match orEmpty value with
  | .obj inner => .ok inner
  | _ => .error (.raised .attribute)

def readTimeout (members : List (Points × Json)) : Reading TimeoutPolicy := do
  let runTimeout ← durationValue members "run_timeout_seconds" 0
  let terminationGrace ← durationValue members "termination_grace_seconds" 0
  constructed (TimeoutPolicy.make runTimeout terminationGrace)

def readRetry (members : List (Points × Json)) : Reading RetryPolicy := do
  let backoff ←
    wordValue backoffStrategies BackoffStrategy.wire .exponential (valueAt? members "backoff")
  let baseDelay ← durationValue members "base_delay_seconds" 30
  let maxDelay ← durationValue members "max_delay_seconds" 3600
  let maxAttempts ← wholeNumber ((valueAt? members "max_attempts").getD (natJson 1))
  constructed (RetryPolicy.make maxAttempts backoff baseDelay maxDelay
    (flagValue members "retry_outcome_failures") (flagValue members "retry_timeouts"))

/-- A number that the constructor only compares. -/
def comparedNumber : Json → Reading Int
  | .int n => .ok n
  | _ => .error .untyped

/-- `from_primitive`. -/
def fromPrimitive (data : Json) : Reading ExecutionControls := do
  let members ← mapping data
  let timeoutData ← group (valueAt members "timeout")
  let timeout ← readTimeout timeoutData
  let retryData ← group (valueAt members "retry")
  let retry ← readRetry retryData
  let overlap ← wordValue overlapPolicies OverlapPolicy.wire .forbid (valueAt? members "overlap")
  let activationPolicy ← wordValue activationPolicies ActivationPolicy.wire .requireControlState
    (valueAt? members "activation_policy")
  let maxConcurrent ← comparedNumber ((valueAt? members "max_concurrent").getD (natJson 1))
  constructed (make timeout retry overlap maxConcurrent activationPolicy)

end ExecutionControls

/-! ## Deployments -/

namespace DeploymentSpecification

def strategies : List DeploymentStrategy :=
  [.runPartsDirectory, .crontabBlockPerTask, .crontabSingleBlock, .cronDFile]

def targets : List DeploymentTarget := [.userCrontab, .systemCrontab, .cronD, .runParts]

def classifications : List PeriodicClassification := [.hourly, .daily, .weekly, .monthly]

/-- The checks of a user's name that have nothing to do with the target. -/
def userNamed (classes : CharacterClasses) (user : Text) : Bool :=
  decide (user.length ≤ maxExecutionUserLength) && classes.accepts ['-', '_'] user

theorem classified_of {strategy : DeploymentStrategy} {classification : Option PeriodicClassification}
    (classified : ¬ (strategy = .runPartsDirectory ∧ classification = none)) :
    strategy = .runPartsDirectory → classification ≠ none :=
  fun directory missing => classified ⟨directory, missing⟩

theorem isSpace_loose : isSpace '-' = false ∧ isSpace '_' = false := by decide

theorem named_of {classes : CharacterClasses} {executionUser : Option Text}
    (named : executionUser.all (userNamed classes) = true) :
    ∀ user ∈ executionUser, LinePattern.Token user ∧ user.length ≤ maxExecutionUserLength := by
  rintro user rfl
  rw [Option.all_some, userNamed, Bool.and_eq_true, decide_eq_true_eq] at named
  obtain ⟨bounded, accepted⟩ := named
  unfold CharacterClasses.accepts at accepted
  rw [Bool.and_eq_true, Bool.and_eq_true, List.all_eq_true] at accepted
  obtain ⟨⟨nonempty, alphanumeric⟩, _⟩ := accepted
  refine ⟨⟨?_, fun c member => ?_⟩, bounded⟩
  · rintro rfl
    simp at nonempty
  · by_cases loose : c = '-' ∨ c = '_'
    · rcases loose with rfl | rfl
      · exact isSpace_loose.1
      · exact isSpace_loose.2
    · exact classes.solid c (alphanumeric c (List.mem_filter.mpr ⟨member, by simpa using loose⟩))

theorem expressed_of {executionUser : Option Text} {target : DeploymentTarget}
    (expressed : executionUser = none ∨ target.expressesExecutionUser = true) :
    executionUser ≠ none → target.expressesExecutionUser = true :=
  fun named => expressed.resolve_left named

/-- What `_validate_execution_user` says of a name that it refuses. -/
def userError (user : Text) : TaskControlError :=
  if strip user = [] then
    validationError
      ("An execution user must be a name, not blank. Omit it to run as the target's default " ++
        "user.")
  else if user.length ≤ maxExecutionUserLength then
    validationError
      ("An execution user name may contain only letters, digits, hyphens, and underscores, and " ++
        "may not start with a digit.")
  else validationError "Execution user name is too long."

theorem permitted_of {strategy : DeploymentStrategy} {target : DeploymentTarget}
    (permitted : strategy.permittedTargets.contains target = true) :
    target ∈ strategy.permittedTargets := by simpa using permitted

/-- The constructor. -/
def make (classes : CharacterClasses) (strategy : DeploymentStrategy) (target : DeploymentTarget)
    (classification : Option PeriodicClassification) (executionUser : Option Text) :
    Except TaskControlError DeploymentSpecification :=
  if permitted : strategy.permittedTargets.contains target = true then
    if classified : strategy = .runPartsDirectory ∧ classification = none then
      .error (validationError
        ("Run-parts deployment requires a classification, because the directory supplies the " ++
          "schedule. Classify the task as hourly, daily, weekly, or monthly, or choose a " ++
          "strategy that carries its own schedule."))
    else if named : executionUser.all (userNamed classes) = true then
      if expressed : executionUser = none ∨ target.expressesExecutionUser = true then
        .ok {
          strategy, target, classification, executionUser
          permitted := permitted_of permitted
          classified := classified_of classified
          named := named_of named
          expressed := expressed_of expressed }
      else
        .error (validationError
          (s!"A '{target.wire}' artefact cannot name the user the work runs as, so asking it " ++
            s!"to run as '{String.ofList (executionUser.getD [])}' would silently run it as " ++
            "somebody else. Use the system crontab or /etc/cron.d, or omit the execution user."))
    else .error (userError (executionUser.getD []))
  else
    .error (validationError
      (s!"A '{strategy.wire}' artefact cannot be written to '{target.wire}'. Permitted targets " ++
        "for this strategy: " ++ String.intercalate ", "
          ((strategy.permittedTargets.map DeploymentTarget.wire).mergeSort (· ≤ ·)) ++ "."))

/-- `to_primitive`. -/
def toPrimitive (deployment : DeploymentSpecification) : Json :=
  dictionary [
    ("strategy", wordJson deployment.strategy.wire),
    ("target", wordJson deployment.target.wire),
    ("classification",
      optionJson (fun word => wordJson word.wire) deployment.classification),
    ("execution_user", optionJson textJson deployment.executionUser)]

def classificationValue (value : Json) : Reading PeriodicClassification :=
  relayed (wordOf classifications PeriodicClassification.wire value)

/-- `from_primitive`. -/
def fromPrimitive (classes : CharacterClasses) (data : Json) : Reading DeploymentSpecification := do
  let members ← mapping data
  let strategy ←
    wordValue strategies DeploymentStrategy.wire .crontabBlockPerTask (valueAt? members "strategy")
  let target ←
    wordValue targets DeploymentTarget.wire strategy.defaultTarget (valueAt? members "target")
  let classification ← whenTruthy classificationValue (valueAt members "classification")
  let executionUser ← optionally textValue (valueAt members "execution_user")
  constructed (make classes strategy target classification executionUser)

end DeploymentSpecification

/-! ## Schedules -/

namespace CronExpression

theorem normal_of_accepted {written text : Text}
    (accepted : normaliseCronExpression written = .ok text) :
    (splitWords text).length = 5 ∧ text = List.intercalate [' '] (splitWords text) := by
  rcases CronGrammar.normalise_cases written with ⟨_, _, raised⟩ | ⟨count, _, run⟩ | ⟨_, _, raised⟩
  · rw [raised] at accepted
    cases accepted
  · rw [run] at accepted
    obtain rfl := Except.ok.inj accepted
    have words : splitWords (joinWords (splitWords written)) = splitWords written :=
      splitWords_joinWords fun _ found => mem_splitWords found
    rw [words]
    exact ⟨count, rfl⟩
  · rw [raised] at accepted
    cases accepted

/-- The constructor on a string. -/
def make (written : Text) : Except Raised CronExpression :=
  match accepted : normaliseCronExpression written with
  | .ok text => .ok ⟨text, normal_of_accepted accepted⟩
  | .error raised => .error raised

/-- What the constructor checks, which takes a text as it stands that it has normalised. -/
def Storable (schedule : CronExpression) : Prop :=
  normaliseCronExpression schedule.expression = .ok schedule.expression

def toPrimitive (schedule : CronExpression) : Json := textJson schedule.expression

/-- `CronExpression(value)`. -/
def fromPrimitive : Json → Reading CronExpression
  | .str s =>
      match textOf s with
      | some t =>
          match make t with
          | .ok schedule => .ok schedule
          | .error (.taskControl _) => invalidPrimitive
          | .error _ => .error (.raised .value)
      | none => .error .untyped
  | _ => invalidPrimitive

end CronExpression

/-! ## What is written is read back -/

theorem Duration.make_seconds (duration : Duration) : make duration.seconds = .ok duration := by
  have natural : ¬ (duration.seconds : Int) < 0 := by omega
  have same : (duration.seconds : Int).toNat = duration.seconds := Int.toNat_natCast _
  simp only [make, if_neg natural, same, dif_pos duration.bounded]

theorem TimeoutPolicy.make_fields (policy : TimeoutPolicy) :
    make policy.runTimeout policy.terminationGrace = .ok policy :=
  dif_neg fun idle => idle.2 (policy.enforced idle.1)

theorem RetryPolicy.make_fields (policy : RetryPolicy) :
    make policy.maxAttempts policy.backoff policy.baseDelay policy.maxDelay
      policy.retryOutcomeFailures policy.retryTimeouts = .ok policy := by
  have some_ : ¬ (policy.maxAttempts : Int) < 1 := by
    have := policy.positive
    omega
  have same : (policy.maxAttempts : Int).toNat = policy.maxAttempts := Int.toNat_natCast _
  simp only [make, dif_neg some_, same, dif_pos policy.attemptsBounded, dif_pos policy.delaysOrdered]

namespace ExecutionControls

theorem make_fields (controls : ExecutionControls) :
    make controls.timeout controls.retry controls.overlap controls.maxConcurrent
      controls.activationPolicy = .ok controls := by
  have some_ : ¬ (controls.maxConcurrent : Int) < 1 := by
    have := controls.someConcurrent
    omega
  have agrees : ¬ (controls.overlap ≠ .allow ∧ (1 : Int) < controls.maxConcurrent) := by
    rintro ⟨other, more⟩
    have := controls.overlapAgrees other
    omega
  have same : (controls.maxConcurrent : Int).toNat = controls.maxConcurrent := Int.toNat_natCast _
  simp only [make, dif_neg some_, dif_neg agrees, same]

@[simp] theorem group_dictionary (field : String × Json) (rest : List (String × Json)) :
    group (dictionary (field :: rest)) = .ok (entries (field :: rest)) := rfl

theorem durationValue_written {members : List (Points × Json)} {key : String} {default : Nat}
    {duration : Duration} (written : valueAt? members key = some (natJson duration.seconds)) :
    durationValue members key default = .ok duration := by
  simp [durationValue, written, bind, Except.bind, Duration.make_seconds, constructed]

theorem readTimeout_written (policy : TimeoutPolicy) :
    readTimeout (entries (timeoutFields policy)) = .ok policy := by
  have runTimeout := @durationValue_written (entries (timeoutFields policy)) "run_timeout_seconds" 0
    policy.runTimeout (by simp [timeoutFields])
  have grace := @durationValue_written (entries (timeoutFields policy)) "termination_grace_seconds" 0
    policy.terminationGrace (by simp [timeoutFields])
  simp only [readTimeout, runTimeout, grace, bind, Except.bind, TimeoutPolicy.make_fields, constructed]

theorem readRetry_written (policy : RetryPolicy) :
    readRetry (entries (retryFields policy)) = .ok policy := by
  have backoff := @wordValue_wordJson _ backoffStrategies BackoffStrategy.wire (by decide)
    policy.backoff (by cases policy.backoff <;> decide) .exponential
  have baseDelay := @durationValue_written (entries (retryFields policy)) "base_delay_seconds" 30
    policy.baseDelay (by simp [retryFields])
  have maxDelay := @durationValue_written (entries (retryFields policy)) "max_delay_seconds" 3600
    policy.maxDelay (by simp [retryFields])
  simp only [readRetry, baseDelay, maxDelay, bind, Except.bind]
  simp [retryFields, backoff, flagValue, RetryPolicy.make_fields, constructed]

theorem fromPrimitive_toPrimitive (controls : ExecutionControls) :
    fromPrimitive controls.toPrimitive = .ok controls := by
  have overlap := @wordValue_wordJson _ overlapPolicies OverlapPolicy.wire (by decide)
    controls.overlap (by cases controls.overlap <;> decide) .forbid
  have activationPolicy := @wordValue_wordJson _ activationPolicies ActivationPolicy.wire (by decide)
    controls.activationPolicy (by cases controls.activationPolicy <;> decide) .requireControlState
  have timeout : group (dictionary (timeoutFields controls.timeout)) =
    .ok (entries (timeoutFields controls.timeout)) := group_dictionary ..
  have retry : group (dictionary (retryFields controls.retry)) =
    .ok (entries (retryFields controls.retry)) := group_dictionary ..
  have number (n : Nat) : comparedNumber (natJson n) = .ok (n : Int) := rfl
  simp [fromPrimitive, toPrimitive, bind, Except.bind, valueAt, timeout, retry, readTimeout_written,
    readRetry_written, overlap, activationPolicy, number, make_fields, constructed]

end ExecutionControls

/-! ### Deployments and schedules -/

namespace DeploymentSpecification

/-- What the constructor checks of a user's name. -/
def Storable (classes : CharacterClasses) (deployment : DeploymentSpecification) : Prop :=
  ∀ user ∈ deployment.executionUser, userNamed classes user = true

variable {classes : CharacterClasses}

theorem make_fields {deployment : DeploymentSpecification} (storable : deployment.Storable classes) :
    make classes deployment.strategy deployment.target deployment.classification
      deployment.executionUser = .ok deployment := by
  have permitted : deployment.strategy.permittedTargets.contains deployment.target = true := by
    simpa using deployment.permitted
  have classified :
      ¬ (deployment.strategy = .runPartsDirectory ∧ deployment.classification = none) :=
    fun both => deployment.classified both.1 both.2
  have named : deployment.executionUser.all (userNamed classes) = true := by
    cases written : deployment.executionUser with
    | none => rfl
    | some user => exact storable user written
  have expressed : deployment.executionUser = none ∨
      deployment.target.expressesExecutionUser = true :=
    or_iff_not_imp_left.mpr deployment.expressed
  rw [make, dif_pos permitted, dif_neg classified, dif_pos named, dif_pos expressed]

theorem fromPrimitive_toPrimitive {deployment : DeploymentSpecification}
    (storable : deployment.Storable classes) :
    fromPrimitive classes deployment.toPrimitive = .ok deployment := by
  have strategy := @wordValue_wordJson _ strategies DeploymentStrategy.wire (by decide)
    deployment.strategy (by cases deployment.strategy <;> decide) .crontabBlockPerTask
  have target := @wordValue_wordJson _ targets DeploymentTarget.wire (by decide)
    deployment.target (by cases deployment.target <;> decide) deployment.strategy.defaultTarget
  have classification : whenTruthy classificationValue (optionJson
      (fun word : PeriodicClassification => wordJson word.wire) deployment.classification) =
      .ok deployment.classification := by
    refine whenTruthy_optionJson fun word _ => ⟨by cases word <;> decide, ?_⟩
    rw [classificationValue, wordOf_wordJson (by decide) (by cases word <;> decide)]
    rfl
  have executionUser := optionally_text deployment.executionUser
  simp [fromPrimitive, toPrimitive, bind, Except.bind, valueAt, strategy, target, classification,
    executionUser, make_fields storable, constructed]

theorem make_ok {strategy : DeploymentStrategy} {target : DeploymentTarget}
    {classification : Option PeriodicClassification} {executionUser : Option Text}
    {deployment : DeploymentSpecification}
    (made : make classes strategy target classification executionUser = .ok deployment) :
    deployment.Storable classes := by
  unfold make at made
  split at made
  · split at made
    · cases made
    · split at made
      · next named =>
          split at made
          · cases made
            rintro user rfl
            simpa using named
          · cases made
      · cases made
  · cases made

theorem storable_of_read {data : Json} {deployment : DeploymentSpecification}
    (read : fromPrimitive classes data = .ok deployment) : deployment.Storable classes := by
  obtain ⟨members, _, read⟩ := except_bind_eq_ok.mp read
  obtain ⟨strategy, _, read⟩ := except_bind_eq_ok.mp read
  obtain ⟨target, _, read⟩ := except_bind_eq_ok.mp read
  obtain ⟨classification, _, read⟩ := except_bind_eq_ok.mp read
  obtain ⟨executionUser, _, read⟩ := except_bind_eq_ok.mp read
  exact make_ok (constructed_ok read)

end DeploymentSpecification

namespace CronExpression

theorem make_expression {schedule : CronExpression} (storable : schedule.Storable) :
    make schedule.expression = .ok schedule := by
  unfold make
  split
  · next text accepted =>
      rw [storable] at accepted
      cases accepted
      rfl
  · next raised refused =>
      rw [storable] at refused
      cases refused

theorem make_ok {written : Text} {schedule : CronExpression} (made : make written = .ok schedule) :
    schedule.Storable := by
  unfold make at made
  split at made
  · next text accepted =>
      cases made
      exact CronGrammar.normalise_again accepted
  · cases made

theorem expression_ne_nil (schedule : CronExpression) : schedule.expression ≠ [] := by
  intro empty
  have fields := schedule.normal.1
  rw [empty] at fields
  cases fields

theorem whenTruthy_toPrimitive {schedule : Option CronExpression}
    (storable : ∀ held ∈ schedule, held.Storable) :
    whenTruthy fromPrimitive (optionJson toPrimitive schedule) = .ok schedule := by
  refine whenTruthy_optionJson fun held member => ⟨truthy_textJson held.expression_ne_nil, ?_⟩
  simp only [toPrimitive, textJson, fromPrimitive, textOf_pointsOf,
    make_expression (storable held member)]

theorem storable_of_read {data : Json} {schedule : CronExpression}
    (read : fromPrimitive data = .ok schedule) : schedule.Storable := by
  unfold fromPrimitive at read
  split at read
  · split at read
    · split at read
      · next made =>
          cases read
          exact make_ok made
      · cases read
      · cases read
    · cases read
  · cases read

end CronExpression

/-- What the constructors check of a revision that its fields do not keep, and the range of the
instants. -/
structure TaskRevision.Storable (classes : CharacterClasses) (revision : TaskRevision) : Prop where
  action : revision.action.Storable classes
  deployment : revision.deployment.Storable classes
  activationSchedule : ∀ schedule ∈ revision.activationSchedule, schedule.Storable
  createdAt : IsoTime.InRange revision.createdAt.value
  publishedAt : ∀ moment ∈ revision.publishedAt, IsoTime.InRange moment.value

end TaskControl
