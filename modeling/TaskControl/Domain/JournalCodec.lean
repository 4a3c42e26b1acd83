import TaskControl.Domain.JournalEntry
import TaskControl.Foundation.IsoTime
import TaskControl.Foundation.JsonWriting

/-!
# Journal lines

`JournalEntry.to_primitive` and `from_primitive` around `json.dumps` and
`json.loads`.  The reader takes the exit code, the signal number and the
explanation as they come, so that an entry is generic in them: one that is
written has optional integers and a string there, one that is read any JSON.
Strings are code points and instants are those of a `datetime`.
-/

set_option autoImplicit false

namespace TaskControl

open PythonText JsonText IsoTime

/-! ## Entries -/

/-- The instant of a `UtcTimestamp`, which its `datetime` holds. -/
structure Moment where
  value : Int
  inRange : InRange value
  deriving DecidableEq

/-- A reason code whose detail is any string. -/
structure StoredReason where
  outcome : ExecutionOutcome
  detail : Points
  permitted : outcome.permitsReasonCode = true
  detailed : detail ≠ []
  deriving DecidableEq

structure JournalRecord (Number Words : Type) where
  executionId : ExecutionId
  taskId : TaskId
  slug : Slug
  revisionId : TaskRevisionId
  contentDigest : ContentDigest
  triggerSource : TriggerSource
  startedAt : Moment
  finishedAt : Moment
  outcome : ExecutionOutcome
  reasonCode : Option StoredReason
  exitCode : Number
  signalNumber : Number
  terminationCause : TerminationCause
  explanation : Words

/-- A `JournalEntry` of the declared types. -/
abbrev WrittenEntry := JournalRecord (Option Int) Points

/-- A `JournalEntry` as `from_primitive` makes it. -/
abbrev ReadEntry := JournalRecord Json Json

def numberJson : Option Int → Json
  | none => .null
  | some n => .int n

/-- The written entry among those that are read. -/
def JournalRecord.read (entry : WrittenEntry) : ReadEntry :=
  { entry with
    exitCode := numberJson entry.exitCode
    signalNumber := numberJson entry.signalNumber
    explanation := .str entry.explanation }

/-! ## Writing -/

def nameOf (key : String) : Points := pointsOf key.toList

def StoredReason.value (reason : StoredReason) : Points :=
  pointsOf (reason.outcome.wire.toList ++ ['.']) ++ reason.detail

def textScalar (t : Text) : Scalar := .str (pointsOf t)

def numberScalar : Option Int → Scalar
  | none => .null
  | some n => .int n

def reasonScalar : Option StoredReason → Scalar
  | none => .null
  | some reason => .str reason.value

def journalFormatVersion : Int := 1

/-- `to_primitive`. -/
def JournalRecord.toPrimitive (entry : WrittenEntry) : List (Points × Scalar) :=
  [(nameOf "format_version", .int journalFormatVersion),
    (nameOf "execution_id", textScalar entry.executionId.text),
    (nameOf "task_id", textScalar entry.taskId.text),
    (nameOf "slug", textScalar entry.slug.value),
    (nameOf "revision_id", textScalar entry.revisionId.text),
    (nameOf "content_digest", textScalar entry.contentDigest.value),
    (nameOf "trigger_source", textScalar entry.triggerSource.wire.toList),
    (nameOf "started_at", textScalar (isoformat entry.startedAt.value)),
    (nameOf "finished_at", textScalar (isoformat entry.finishedAt.value)),
    (nameOf "outcome", textScalar entry.outcome.wire.toList),
    (nameOf "reason_code", reasonScalar entry.reasonCode),
    (nameOf "exit_code", numberScalar entry.exitCode),
    (nameOf "signal_number", numberScalar entry.signalNumber),
    (nameOf "termination_cause", textScalar entry.terminationCause.wire.toList),
    (nameOf "explanation", .str entry.explanation)]

/-- The line of an entry without its line end; none where `json.dumps` raises. -/
def JournalRecord.line (limits : Interpreter) (entry : WrittenEntry) : Option Text :=
  dumps limits entry.toPrimitive

/-! ## Reading -/

/-- The exceptions that reading a line ends with. -/
inductive LineError where
  | jsonDecode
  | validation
  | attribute
  | value
  | overflow
  | recursion
  deriving DecidableEq

/-- What the readers of the journal catch. -/
def LineError.caught (error : LineError) : Bool := error == .jsonDecode || error == .validation

/-- `data[key]`: a `KeyError` is turned into a `ValidationError`. -/
def required (members : List (Points × Json)) (key : String) : Except LineError Json :=
  match member members (nameOf key) with
  | some value => .ok value
  | none => .error .validation

/-- The result of a constructor that raises `ValidationError`. -/
def validated {α : Type} : Except TaskControlError α → Except LineError α
  | .ok value => .ok value
  | .error _ => .error .validation

/-- A text that a constructor checks; none of these lets a surrogate pass. -/
def checked {α : Type} (make : Text → Except TaskControlError α) (value : Json) :
    Except LineError α :=
  match value with
  | .str s =>
      match textOf s with
      | some t => validated (make t)
      | none => .error .validation
  | _ => .error .validation

def ContentDigest.make (value : Text) : Except TaskControlError ContentDigest :=
  if shaped : digestShaped value = true then .ok ⟨value, shaped⟩
  else .error (validationError "ContentDigest must look like 'sha256:<64 hex characters>'.")

/-- A member of an enumeration by its value. -/
def wordOf {α : Type} (words : List α) (wire : α → String) (value : Json) : Except LineError α :=
  match value with
  | .str s =>
      match words.find? fun word => s = nameOf (wire word) with
      | some word => .ok word
      | none => .error .value
  | _ => .error .value

def triggerSources : List TriggerSource := [.manual, .schedule, .api, .retry]

def executionOutcomes : List ExecutionOutcome :=
  [.succeeded, .failed, .launchFailed, .outcomeFailed, .timedOut, .cancelled, .skipped, .blocked,
    .conditionError, .infrastructureFailed, .unknown]

def terminationCauses : List TerminationCause :=
  [.notTerminated, .runTimeout, .cancellationRequested, .superseded, .external]

/-- `UtcTimestamp.from_primitive`: an instant that is no instant in UTC overflows. -/
def momentOf (value : Json) : Except LineError Moment :=
  match value with
  | .str s =>
      match fromisoformat s with
      | some micros => if inRange : InRange micros then .ok ⟨micros, inRange⟩ else .error .overflow
      | none => .error .validation
  | _ => .error .validation

def Decimal.roundsToZero (d : Decimal) : Bool :=
  match d.exponent with
  | .ofNat _ => d.mantissa == 0
  | .negSucc k => decide (d.mantissa * 2 ^ 1075 ≤ 10 ^ (k + 1))

/-- Whether the nearest `float` is 1. -/
def Decimal.roundsToOne (d : Decimal) : Bool :=
  !d.negative &&
    match d.exponent with
    | .ofNat 0 => d.mantissa == 1
    | .ofNat _ => false
    | .negSucc k => decide ((2 ^ 54 - 1) * 10 ^ (k + 1) ≤ d.mantissa * 2 ^ 54 ∧
        d.mantissa * 2 ^ 53 ≤ (2 ^ 53 + 1) * 10 ^ (k + 1))

/-- `value == 1`. -/
def equalsOne : Json → Bool
  | .bool value => value
  | .int n => n == 1
  | .decimal d => Decimal.roundsToOne d
  | _ => false

/-- `bool(value)`. -/
def truthy : Json → Bool
  | .null => false
  | .bool value => value
  | .int n => n != 0
  | .decimal d => !Decimal.roundsToZero d
  | .nan => true
  | .infinity _ => true
  | .str s => !s.isEmpty
  | .arr items => !items.isEmpty
  | .obj members => !members.isEmpty

def dot : CodePoint := pointOf '.'

def permittedOutcomes : List ExecutionOutcome :=
  executionOutcomes.filter ExecutionOutcome.permitsReasonCode

/-- The constructor of `ReasonCode`. -/
def reasonOf (value : Json) : Except LineError StoredReason :=
  match value with
  | .str s =>
      let detail := (s.dropWhile (· ≠ dot)).tail
      match permittedOutcomes.find? fun outcome => s.takeWhile (· ≠ dot) = nameOf outcome.wire with
      | some outcome =>
          if legal : outcome.permitsReasonCode = true ∧ detail ≠ [] then
            .ok ⟨outcome, detail, legal.1, legal.2⟩
          else .error .validation
      | none => .error .validation
  | _ => .error .validation

def optionalReason (value : Json) : Except LineError (Option StoredReason) :=
  if truthy value then (reasonOf value).map some else .ok none

def causeOf (value : Option Json) : Except LineError TerminationCause :=
  match value with
  | some value => wordOf terminationCauses TerminationCause.wire value
  | none => .ok .notTerminated

/-! ### The fields that are checked -/

section

variable (members : List (Points × Json))

def readId (kind : IdentifierKind) (key : String) : Except LineError (EntityId kind) :=
  (required members key).bind (checked (EntityId.fromPrimitive kind))

def readSlug : Except LineError Slug := (required members "slug").bind (checked Slug.make)

def readDigest : Except LineError ContentDigest :=
  (required members "content_digest").bind (checked ContentDigest.make)

def readTrigger : Except LineError TriggerSource :=
  (required members "trigger_source").bind (wordOf triggerSources TriggerSource.wire)

def readMoment (key : String) : Except LineError Moment := (required members key).bind momentOf

def readOutcome : Except LineError ExecutionOutcome :=
  (required members "outcome").bind (wordOf executionOutcomes ExecutionOutcome.wire)

def readReason : Except LineError (Option StoredReason) :=
  optionalReason ((member members (nameOf "reason_code")).getD .null)

def readCause : Except LineError TerminationCause :=
  causeOf (member members (nameOf "termination_cause"))

/-- Whether the entry is of the format version that the reader understands. -/
def understood : Bool := (member members (nameOf "format_version")).any equalsOne

/-- `from_primitive` of a dictionary of that version. -/
def readEntry : Except LineError ReadEntry := do
  let executionId ← readId members .execution "execution_id"
  let taskId ← readId members .task "task_id"
  let slug ← readSlug members
  let revisionId ← readId members .taskRevision "revision_id"
  let contentDigest ← readDigest members
  let triggerSource ← readTrigger members
  let startedAt ← readMoment members "started_at"
  let finishedAt ← readMoment members "finished_at"
  let outcome ← readOutcome members
  let reasonCode ← readReason members
  let terminationCause ← readCause members
  .ok {
    executionId, taskId, slug, revisionId, contentDigest, triggerSource, startedAt, finishedAt
    outcome, reasonCode, terminationCause
    exitCode := (member members (nameOf "exit_code")).getD .null
    signalNumber := (member members (nameOf "signal_number")).getD .null
    explanation := (member members (nameOf "explanation")).getD (.str []) }

end

/-- `from_primitive`. -/
def fromPrimitive (data : Json) : Except LineError ReadEntry :=
  match data with
  | .obj members => if understood members then readEntry members else .error .validation
  | _ => .error .attribute

def jsonError : JsonError → LineError
  | .decode => .jsonDecode
  | .recursion => .recursion
  | .digits => .value

/-- `JournalEntry.from_primitive(json.loads(line))`. -/
def parseLine (limits : Interpreter) (line : Text) : Except LineError ReadEntry :=
  match loads limits line with
  | .ok data => fromPrimitive data
  | .error failed => .error (jsonError failed)

/-! ## A written entry is read back -/

theorem textScalar_json (t : Text) : (textScalar t).json = .str (pointsOf t) := by
  rw [textScalar, Scalar.json, joinSurrogates_pointsOf]

theorem numberScalar_json (number : Option Int) : (numberScalar number).json = numberJson number := by
  cases number <;> rfl

theorem wordOf_trigger (word : TriggerSource) :
    wordOf triggerSources TriggerSource.wire (.str (nameOf word.wire)) = .ok word := by
  cases word <;> rfl

theorem wordOf_outcome (word : ExecutionOutcome) :
    wordOf executionOutcomes ExecutionOutcome.wire (.str (nameOf word.wire)) = .ok word := by
  cases word <;> rfl

theorem wordOf_cause (word : TerminationCause) :
    wordOf terminationCauses TerminationCause.wire (.str (nameOf word.wire)) = .ok word := by
  cases word <;> rfl

theorem checked_pointsOf {α : Type} (make : Text → Except TaskControlError α) {t : Text} {value : α}
    (made : make t = .ok value) : checked make (.str (pointsOf t)) = .ok value := by
  simp only [checked, textOf_pointsOf, made, validated]

theorem Slug.make_value (slug : Slug) : Slug.make slug.value = .ok slug := by
  have nonempty : slug.value ≠ [] := by
    intro empty
    have shaped := slug.shaped
    rw [empty] at shaped
    cases shaped
  rw [Slug.make, if_neg nonempty, dif_pos slug.bounded, dif_pos slug.shaped]

theorem ContentDigest.make_value (digest : ContentDigest) :
    ContentDigest.make digest.value = .ok digest := dif_pos digest.shaped

theorem momentOf_isoformat (moment : Moment) :
    momentOf (.str (pointsOf (isoformat moment.value))) = .ok moment := by
  simp only [momentOf, fromisoformat_isoformat moment.inRange, dif_pos moment.inRange]

/-- The words of the outcomes with reason codes have no dot. -/
theorem permitted_found (outcome : ExecutionOutcome) (permitted : outcome.permitsReasonCode = true) :
    permittedOutcomes.find? (fun other => nameOf outcome.wire = nameOf other.wire) = some outcome := by
  cases outcome <;> first | rfl | cases permitted

theorem wire_dotless (outcome : ExecutionOutcome) :
    ∀ p ∈ nameOf outcome.wire, p ≠ dot := by
  cases outcome <;> decide

theorem reasonOf_value (reason : StoredReason) : reasonOf (.str reason.value) = .ok reason := by
  have shape : reason.value = nameOf reason.outcome.wire ++ dot :: reason.detail := by
    simp [StoredReason.value, nameOf, pointsOf, dot]
  have plain : ∀ p ∈ nameOf reason.outcome.wire, decide (p ≠ dot) = true := by
    simpa using wire_dotless reason.outcome
  have front : reason.value.takeWhile (· ≠ dot) = nameOf reason.outcome.wire := by
    rw [shape, List.takeWhile_append_of_pos plain]
    simp
  have back : (reason.value.dropWhile (· ≠ dot)).tail = reason.detail := by
    rw [shape, List.dropWhile_append_of_pos plain]
    simp
  unfold reasonOf
  simp only [front, back, permitted_found reason.outcome reason.permitted,
    dif_pos (And.intro reason.permitted reason.detailed)]

/-- The members that the reader finds in the line of an entry. -/
def JournalRecord.members (entry : WrittenEntry) : List (Points × Json) :=
  readMembers entry.toPrimitive

def entryKeys : List String :=
  ["format_version", "execution_id", "task_id", "slug", "revision_id", "content_digest",
    "trigger_source", "started_at", "finished_at", "outcome", "reason_code", "exit_code",
    "signal_number", "termination_cause", "explanation"]

theorem entryKeys_distinct : (entryKeys.map nameOf).Nodup := by decide +kernel

theorem members_keys (entry : WrittenEntry) :
    entry.members.map (·.1) = entryKeys.map nameOf := by
  have plain (key : String) : joinSurrogates (nameOf key) = nameOf key := joinSurrogates_pointsOf _
  simp only [JournalRecord.members, readMembers, JournalRecord.toPrimitive, entryKeys,
    List.map_cons, List.map_nil, plain]

/-- A member that is written is found under its name. -/
theorem member_written {entry : WrittenEntry} {key : String} {value : Scalar}
    (written : (nameOf key, value) ∈ entry.toPrimitive) :
    member entry.members (nameOf key) = some value.json := by
  have distinct : (entry.members.map (·.1)).Nodup := by
    rw [members_keys]
    exact entryKeys_distinct
  refine member_of_mem distinct (List.mem_map.mpr ⟨_, written, ?_⟩)
  rw [Prod.mk.injEq]
  exact ⟨joinSurrogates_pointsOf _, rfl⟩

theorem required_written {entry : WrittenEntry} {key : String} {value : Scalar}
    (written : (nameOf key, value) ∈ entry.toPrimitive) :
    required entry.members key = .ok value.json := by
  rw [required, member_written written]

theorem joined_detailed (reason : StoredReason) : joinSurrogates reason.detail ≠ [] :=
  joinSurrogates_ne_nil reason.detailed

/-- The reason code with its surrogates joined. -/
def StoredReason.joined (reason : StoredReason) : StoredReason :=
  { reason with detail := joinSurrogates reason.detail, detailed := joined_detailed reason }

/-- The entry with the surrogates of its strings joined. -/
def JournalRecord.joined (entry : WrittenEntry) : WrittenEntry :=
  { entry with
    reasonCode := entry.reasonCode.map StoredReason.joined
    explanation := joinSurrogates entry.explanation }

theorem joinSurrogates_value (reason : StoredReason) :
    joinSurrogates reason.value = reason.joined.value := joinSurrogates_text _ _

theorem value_truthy (reason : StoredReason) : truthy (.str reason.value) = true := by
  have nonempty : reason.value ≠ [] := by
    intro empty
    have parts := List.append_eq_nil_iff.mp empty
    exact reason.detailed parts.2
  simpa [truthy] using nonempty

theorem optionalReason_written (reason : Option StoredReason) :
    optionalReason (reasonScalar reason).json = .ok (reason.map StoredReason.joined) := by
  cases reason with
  | none => rfl
  | some reason =>
      rw [reasonScalar, Scalar.json, joinSurrogates_value, optionalReason,
        if_pos (value_truthy reason.joined), reasonOf_value]
      rfl

/-! ### Every field -/

section

variable (entry : WrittenEntry)

theorem readId_written {kind : IdentifierKind} {key : String} {id : EntityId kind}
    (written : (nameOf key, textScalar id.text) ∈ entry.toPrimitive) :
    readId entry.members kind key = .ok id := by
  rw [readId, required_written written, textScalar_json]
  exact checked_pointsOf _ (EntityId.fromPrimitive_text id)

theorem readSlug_written : readSlug entry.members = .ok entry.slug := by
  rw [readSlug, @required_written entry "slug" (textScalar entry.slug.value)
    (by simp [JournalRecord.toPrimitive]), textScalar_json]
  exact checked_pointsOf _ entry.slug.make_value

theorem readDigest_written : readDigest entry.members = .ok entry.contentDigest := by
  rw [readDigest, @required_written entry "content_digest" (textScalar entry.contentDigest.value)
    (by simp [JournalRecord.toPrimitive]), textScalar_json]
  exact checked_pointsOf _ entry.contentDigest.make_value

theorem readMoment_written {key : String} {moment : Moment}
    (written : (nameOf key, textScalar (isoformat moment.value)) ∈ entry.toPrimitive) :
    readMoment entry.members key = .ok moment := by
  rw [readMoment, required_written written, textScalar_json]
  exact momentOf_isoformat moment

theorem readTrigger_written : readTrigger entry.members = .ok entry.triggerSource := by
  rw [readTrigger, @required_written entry "trigger_source"
    (textScalar entry.triggerSource.wire.toList) (by simp [JournalRecord.toPrimitive]),
    textScalar_json]
  exact wordOf_trigger entry.triggerSource

theorem readOutcome_written : readOutcome entry.members = .ok entry.outcome := by
  rw [readOutcome, @required_written entry "outcome" (textScalar entry.outcome.wire.toList)
    (by simp [JournalRecord.toPrimitive]), textScalar_json]
  exact wordOf_outcome entry.outcome

theorem readReason_written : readReason entry.members =
    .ok (entry.reasonCode.map StoredReason.joined) := by
  rw [readReason, @member_written entry "reason_code" (reasonScalar entry.reasonCode)
    (by simp [JournalRecord.toPrimitive])]
  exact optionalReason_written entry.reasonCode

theorem readCause_written : readCause entry.members = .ok entry.terminationCause := by
  rw [readCause, @member_written entry "termination_cause"
    (textScalar entry.terminationCause.wire.toList) (by simp [JournalRecord.toPrimitive]),
    textScalar_json]
  exact wordOf_cause entry.terminationCause

theorem understood_written : understood entry.members = true := by
  rw [understood, @member_written entry "format_version" (.int journalFormatVersion)
    (by simp [JournalRecord.toPrimitive])]
  rfl

/-- A written entry is read back, with its surrogates joined. -/
theorem fromPrimitive_written : fromPrimitive (.obj entry.members) = .ok entry.joined.read := by
  have exitCode := @member_written entry "exit_code" (numberScalar entry.exitCode)
    (by simp [JournalRecord.toPrimitive])
  have signalNumber := @member_written entry "signal_number" (numberScalar entry.signalNumber)
    (by simp [JournalRecord.toPrimitive])
  have explanation := @member_written entry "explanation" (.str entry.explanation)
    (by simp [JournalRecord.toPrimitive])
  rw [numberScalar_json] at exitCode signalNumber
  rw [fromPrimitive, if_pos (understood_written entry), readEntry,
    @readId_written entry .execution "execution_id" entry.executionId
      (by simp [JournalRecord.toPrimitive]),
    @readId_written entry .task "task_id" entry.taskId (by simp [JournalRecord.toPrimitive]),
    @readId_written entry .taskRevision "revision_id" entry.revisionId
      (by simp [JournalRecord.toPrimitive]),
    readSlug_written, readDigest_written, readTrigger_written,
    @readMoment_written entry "started_at" entry.startedAt (by simp [JournalRecord.toPrimitive]),
    @readMoment_written entry "finished_at" entry.finishedAt (by simp [JournalRecord.toPrimitive]),
    readOutcome_written, readReason_written, readCause_written, exitCode, signalNumber, explanation]
  rfl

end

theorem parseLine_line {limits : Interpreter} {entry : WrittenEntry} {line : Text}
    (written : entry.line limits = some line) : parseLine limits line = .ok entry.joined.read := by
  rw [parseLine, loads_dumps written]
  exact fromPrimitive_written entry

/-- An entry without a split surrogate pair. -/
def JournalRecord.Whole (entry : WrittenEntry) : Prop :=
  Unsplit entry.explanation ∧ ∀ reason ∈ entry.reasonCode, Unsplit reason.detail

theorem StoredReason.joined_eq_self {reason : StoredReason} :
    reason.joined = reason ↔ Unsplit reason.detail := by
  rw [← joinSurrogates_eq_self]
  constructor
  · exact congrArg StoredReason.detail
  · intro same
    cases reason
    simp only [StoredReason.joined, StoredReason.mk.injEq, true_and]
    exact same

theorem joined_eq_self {entry : WrittenEntry} : entry.joined = entry ↔ entry.Whole := by
  have reasons : entry.reasonCode.map StoredReason.joined = entry.reasonCode ↔
      ∀ reason ∈ entry.reasonCode, Unsplit reason.detail := by
    cases entry.reasonCode <;> simp [StoredReason.joined_eq_self]
  rw [JournalRecord.Whole, ← joinSurrogates_eq_self, ← reasons]
  constructor
  · intro same
    exact ⟨congrArg JournalRecord.explanation same, congrArg JournalRecord.reasonCode same⟩
  · rintro ⟨words, reason⟩
    unfold JournalRecord.joined
    rw [words, reason]

theorem numberJson_injective {first second : Option Int} (same : numberJson first = numberJson second) :
    first = second := by
  cases first <;> cases second <;> simp_all [numberJson]

theorem read_injective {first second : WrittenEntry} (same : first.read = second.read) :
    first = second := by
  cases first
  cases second
  simp only [JournalRecord.read, JournalRecord.mk.injEq, Json.str.injEq] at same ⊢
  obtain ⟨execution, task, slug, revision, digest, trigger, started, finished, outcome, reason, exit_,
    signal, cause, words⟩ := same
  exact ⟨execution, task, slug, revision, digest, trigger, started, finished, outcome, reason,
    numberJson_injective exit_, numberJson_injective signal, cause, words⟩

/-! ## Entries of the domain -/

theorem stored_detailed (code : ReasonCode) : pointsOf code.detail ≠ [] := by
  simpa [pointsOf] using code.detailed

def ReasonCode.stored (code : ReasonCode) : StoredReason :=
  ⟨code.outcome, pointsOf code.detail, code.permitted, stored_detailed code⟩

/-- An entry whose strings are texts and whose instants a `datetime` holds. -/
def JournalEntry.recorded (entry : JournalEntry) (started : InRange entry.startedAt.value)
    (finished : InRange entry.finishedAt.value) : WrittenEntry where
  executionId := entry.executionId
  taskId := entry.taskId
  slug := entry.slug
  revisionId := entry.revisionId
  contentDigest := entry.contentDigest
  triggerSource := entry.triggerSource
  startedAt := ⟨entry.startedAt.value, started⟩
  finishedAt := ⟨entry.finishedAt.value, finished⟩
  outcome := entry.outcome
  reasonCode := entry.reasonCode.map ReasonCode.stored
  exitCode := entry.exitCode
  signalNumber := entry.signalNumber
  terminationCause := entry.terminationCause
  explanation := pointsOf entry.explanation

/-- No text has a split surrogate pair. -/
theorem recorded_whole (entry : JournalEntry) (started : InRange entry.startedAt.value)
    (finished : InRange entry.finishedAt.value) : (entry.recorded started finished).Whole := by
  refine ⟨pointsOf_unsplit entry.explanation, fun reason found => ?_⟩
  obtain ⟨code, _, rfl⟩ := Option.mem_map.mp found
  exact pointsOf_unsplit code.detail

end TaskControl
