import TaskControl.Domain.Actions
import TaskControl.Domain.Identifiers
import TaskControl.Domain.Lifecycle
import TaskControl.Domain.Results
import TaskControl.Domain.Strategies

/-!
# Task revisions

An immutable snapshot of everything that affects execution.  A `TaskRevision`
carries the checks of its constructor: a frozen one has its digest and says when
and by whom it was published, and a draft has no digest.
-/

set_option autoImplicit false

namespace TaskControl

open PythonText

/-! ## Values -/

structure RevisionNumber where
  value : Nat
  positive : 1 ≤ value

structure SchemaVersion where
  major : Nat
  minor : Nat
  deriving DecidableEq, Repr

/-- `is_compatible_with`. -/
def SchemaVersion.isCompatibleWith (version supported : SchemaVersion) : Bool :=
  decide (version.major = supported.major ∧ version.minor ≤ supported.minor)

/-- `f"{major}.{minor}"`. -/
def SchemaVersion.text (version : SchemaVersion) : Text :=
  decimal version.major ++ '.' :: decimal version.minor

def currentRevisionSchemaVersion : SchemaVersion := ⟨1, 2⟩

def isHexDigit (c : Char) : Bool :=
  (48 ≤ c.toNat && c.toNat ≤ 57) || (97 ≤ c.toNat && c.toNat ≤ 102)

/-- `^sha256:[0-9a-f]{64}$`; `$` also matches before a final newline. -/
def digestShaped (t : Text) : Bool :=
  let body := if endsWithNewline t then t.dropLast else t
  body.take 7 == "sha256:".toList && body.length == 71 && (body.drop 7).all isHexDigit

structure ContentDigest where
  value : Text
  shaped : digestShaped value = true

/-- Of the constructor's checks the shape is kept: five fields, one blank apart.  The
ranges of the fields are read by no modelled function. -/
structure CronExpression where
  expression : Text
  normal : (splitWords expression).length = 5 ∧
    expression = List.intercalate [' '] (splitWords expression)

/-! ## Execution controls -/

inductive ActivationPolicy where
  | requireControlState
  | continueWithLocalJournal
  deriving DecidableEq, Repr

def ActivationPolicy.wire : ActivationPolicy → String
  | .requireControlState => "require_control_state"
  | .continueWithLocalJournal => "continue_with_local_journal"

def ActivationPolicy.executesWithoutControlState (policy : ActivationPolicy) : Bool :=
  policy == .continueWithLocalJournal

structure ExecutionControls where
  timeout : TimeoutPolicy
  retry : RetryPolicy
  overlap : OverlapPolicy
  maxConcurrent : Nat
  activationPolicy : ActivationPolicy
  someConcurrent : 1 ≤ maxConcurrent
  overlapAgrees : overlap ≠ .allow → maxConcurrent ≤ 1

/-! ## Revisions -/

def maxChangeSummaryLength : Nat := 2000

structure TaskRevision where
  revisionId : TaskRevisionId
  taskId : TaskId
  revisionNumber : RevisionNumber
  action : ActionSpecification
  createdAt : UtcTimestamp
  createdBy : OwnerId
  schemaVersion : SchemaVersion
  publicationState : PublicationState
  controls : ExecutionControls
  deployment : DeploymentSpecification
  activationSchedule : Option CronExpression
  changeSummary : Text
  publishedAt : Option UtcTimestamp
  publishedBy : Option OwnerId
  contentDigest : Option ContentDigest
  summaryBounded : changeSummary.length ≤ maxChangeSummaryLength
  scheduleRead : activationSchedule ≠ none → deployment.strategy.carriesItsOwnSchedule = true
  frozenDigest : publicationState.isFrozen = true ↔ contentDigest ≠ none
  frozenPublished : publicationState.isFrozen = true → publishedAt ≠ none ∧ publishedBy ≠ none

/-- `_SECRET_LIKE_NAMES`. -/
def secretLikeNames : List Text :=
  ["password".toList, "passwd".toList, "secret".toList, "token".toList, "api_key".toList,
    "apikey".toList, "credential".toList]

def minSecretLikeValueLength : Nat := 8

/-- `_looks_like_an_inline_secret`. -/
def looksLikeAnInlineSecret (name value : Text) : Bool :=
  secretLikeNames.any (fun marker => decide (marker <:+: name.flatMap lowerChar)) &&
    decide (minSecretLikeValueLength ≤ value.length)

namespace TaskRevision

/-- `assert_publishable`. -/
def assertPublishable (revision : TaskRevision) : Except TaskControlError Unit :=
  if ¬ revision.action.executorType.isImplemented then
    .error (validationError
      ("This executor type has no adapter in the current phase, so a published revision " ++
        "using it could never run."))
  else if ¬ revision.schemaVersion.isCompatibleWith currentRevisionSchemaVersion then
    .error (validationError "Revision schema version is not supported by this build.")
  else if revision.action.environment.any (fun binding =>
      binding.value?.any (looksLikeAnInlineSecret binding.name)) then
    .error (validationError
      ("This environment binding looks like an inline secret. Use a secret reference so " ++
        "the value is never stored, logged, or digested."))
  else .ok ()

/-- A revision that has left the draft state, its content and digest unchanged. -/
def moved (revision : TaskRevision) (proposed : PublicationState)
    (frozen : revision.publicationState.isFrozen = true) (stays : proposed.isFrozen = true) :
    TaskRevision :=
  { revision with
    publicationState := proposed
    frozenDigest := iff_of_true stays (revision.frozenDigest.mp frozen)
    frozenPublished := fun _ => revision.frozenPublished frozen }

theorem published_frozen : PublicationState.published.isFrozen = true := rfl

theorem superseded_frozen : PublicationState.superseded.isFrozen = true := rfl

theorem withdrawn_frozen : PublicationState.withdrawn.isFrozen = true := rfl

theorem published_marked (digest : ContentDigest) :
    PublicationState.published.isFrozen = true ↔ some digest ≠ none :=
  iff_of_true published_frozen (by simp)

theorem published_recorded (publishedAt : UtcTimestamp) (publishedBy : OwnerId) :
    PublicationState.published.isFrozen = true →
      some publishedAt ≠ none ∧ some publishedBy ≠ none :=
  fun _ => ⟨by simp, by simp⟩

/-- `publish`; `computeDigest` is the digest of the canonical content. -/
def publish (computeDigest : TaskRevision → ContentDigest) (revision : TaskRevision)
    (publishedBy : OwnerId) (publishedAt : UtcTimestamp) : Except TaskControlError TaskRevision := do
  assertLegalPublicationTransition revision.publicationState .published
  revision.assertPublishable
  return { revision with
    publicationState := .published
    publishedAt := some publishedAt
    publishedBy := some publishedBy
    contentDigest := some (computeDigest revision)
    frozenDigest := published_marked (computeDigest revision)
    frozenPublished := published_recorded publishedAt publishedBy }

/-- A revision that was never published has no digest, and its constructor refuses to
take it out of the draft state. -/
def unpublished : TaskControlError :=
  validationError
    ("A frozen revision must carry a content digest. Without one its content cannot be " ++
      "verified or compared.")

/-- `replace(self, publication_state=proposed)` for a frozen state. -/
def move (revision : TaskRevision) (proposed : PublicationState)
    (stays : proposed.isFrozen = true) : Except TaskControlError TaskRevision := do
  assertLegalPublicationTransition revision.publicationState proposed
  if frozen : revision.publicationState.isFrozen = true then
    return revision.moved proposed frozen stays
  else .error unpublished

def supersede (revision : TaskRevision) : Except TaskControlError TaskRevision :=
  revision.move .superseded superseded_frozen

/-- A draft may legally be withdrawn, but has no digest to be withdrawn with. -/
def withdraw (revision : TaskRevision) : Except TaskControlError TaskRevision :=
  revision.move .withdrawn withdrawn_frozen

end TaskRevision

end TaskControl
