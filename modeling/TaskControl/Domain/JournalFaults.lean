import TaskControl.Domain.JournalCodec

/-!
# Lines that cannot be read

Which lines of a journal raise an exception that its readers do not catch.  The
fields of an entry are read in a fixed order and the first that is unusable
decides: most raise a `ValidationError`, but an unknown word raises a plain
`ValueError`, and an instant outside the years of `datetime` an `OverflowError`.
-/

set_option autoImplicit false

namespace TaskControl

open PythonText JsonText IsoTime

/-! ## The order of the fields -/

/-- The fields whose reading can fail. -/
inductive EntryField where
  | executionId
  | taskId
  | slug
  | revisionId
  | contentDigest
  | triggerSource
  | startedAt
  | finishedAt
  | outcome
  | reasonCode
  | terminationCause
  deriving DecidableEq

def readingOrder : List EntryField :=
  [.executionId, .taskId, .slug, .revisionId, .contentDigest, .triggerSource, .startedAt,
    .finishedAt, .outcome, .reasonCode, .terminationCause]

section

variable (members : List (Points × Json))

def forget {α : Type} (result : Except LineError α) : Except LineError Unit :=
  result.map fun _ => ()

/-- Whether a field can be read, or how it cannot. -/
def EntryField.check : EntryField → Except LineError Unit
  | .executionId => forget (readId members .execution "execution_id")
  | .taskId => forget (readId members .task "task_id")
  | .slug => forget (readSlug members)
  | .revisionId => forget (readId members .taskRevision "revision_id")
  | .contentDigest => forget (readDigest members)
  | .triggerSource => forget (readTrigger members)
  | .startedAt => forget (readMoment members "started_at")
  | .finishedAt => forget (readMoment members "finished_at")
  | .outcome => forget (readOutcome members)
  | .reasonCode => forget (readReason members)
  | .terminationCause => forget (readCause members)

def EntryField.Usable (field : EntryField) : Prop := field.check members = .ok ()

/-- The member is there and is none of the words. -/
def UnknownWord (key : String) (words : List String) : Prop :=
  ∃ value, member members (nameOf key) = some value ∧ ∀ word ∈ words, value ≠ .str (nameOf word)

/-- The member is an instant with an offset, which in UTC no `datetime` holds. -/
def OutOfRange (key : String) : Prop :=
  ∃ s micros, member members (nameOf key) = some (.str s) ∧ fromisoformat s = some micros ∧
    ¬ InRange micros

/-- What the readers of the journal do not catch. -/
def EntryField.Foreign : EntryField → Prop
  | .triggerSource => UnknownWord members "trigger_source" (triggerSources.map TriggerSource.wire)
  | .startedAt => OutOfRange members "started_at"
  | .finishedAt => OutOfRange members "finished_at"
  | .outcome => UnknownWord members "outcome" (executionOutcomes.map ExecutionOutcome.wire)
  | .terminationCause =>
      UnknownWord members "termination_cause" (terminationCauses.map TerminationCause.wire)
  | _ => False

/-- The first field that is unusable is an unknown word or out of range. -/
def FirstForeign : Prop :=
  ∃ before field after, readingOrder = before ++ field :: after ∧
    (∀ earlier ∈ before, earlier.Usable members) ∧ field.Foreign members

end

/-- The line raises what the readers do not catch: the interpreter's limits are exceeded before the
text shows to be no JSON, the text is JSON but no object, or the entry is of the version that is
understood and its first unusable field is foreign. -/
inductive Fatal (limits : Interpreter) (line : Text) : Prop where
  | nested (failed : loads limits line = .error .recursion)
  | long (failed : loads limits line = .error .digits)
  | noObject (data : Json) (parsed : loads limits line = .ok data)
      (other : ∀ members, data ≠ .obj members)
  | foreign (members : List (Points × Json)) (parsed : loads limits line = .ok (.obj members))
      (version : understood members = true) (first : FirstForeign members)

/-! ## What each field raises -/

/-- The exceptions that are not caught. -/
def Escapes (result : Except LineError Unit) : Prop :=
  ∃ error, result = .error error ∧ error.caught = false

theorem escapes_forget {α : Type} {result : Except LineError α} :
    Escapes (forget result) ↔ ∃ error, result = .error error ∧ error.caught = false := by
  cases result <;> simp [Escapes, forget, Except.map]

theorem required_error {members : List (Points × Json)} {key : String} {error : LineError}
    (failed : required members key = .error error) : error = .validation := by
  unfold required at failed
  split at failed
  · cases failed
  · cases failed
    rfl

theorem checked_error {α : Type} {make : Text → Except TaskControlError α} {value : Json}
    {error : LineError} (failed : checked make value = .error error) : error = .validation := by
  unfold checked at failed
  split at failed
  · split at failed
    · unfold validated at failed
      split at failed
      · cases failed
      · cases failed
        rfl
    · cases failed
      rfl
  · cases failed
    rfl

theorem checkedField_caught {α : Type} {members : List (Points × Json)} {key : String}
    {make : Text → Except TaskControlError α} :
    ¬ Escapes (forget ((required members key).bind (checked make))) := by
  rw [escapes_forget]
  rintro ⟨error, failed, uncaught⟩
  have validation : error = .validation := by
    cases found : required members key with
    | error earlier =>
        rw [found] at failed
        cases failed
        exact required_error found
    | ok value =>
        rw [found] at failed
        exact checked_error failed
  subst validation
  cases uncaught

theorem reason_caught {members : List (Points × Json)} :
    ¬ Escapes (forget (readReason members)) := by
  rw [escapes_forget]
  rintro ⟨error, failed, uncaught⟩
  unfold readReason optionalReason at failed
  split at failed
  · unfold reasonOf at failed
    split at failed
    · simp only at failed
      split at failed
      · split at failed
        · cases failed
        · cases failed
          cases uncaught
      · cases failed
        cases uncaught
    · cases failed
      cases uncaught
  · cases failed

theorem wordOf_error {α : Type} {words : List α} {wire : α → String} {value : Json}
    {error : LineError} : wordOf words wire value = .error error ↔
      error = .value ∧ ∀ word ∈ words, value ≠ .str (nameOf (wire word)) := by
  unfold wordOf
  split
  · next s =>
      split
      · next word found =>
          have same := List.find?_some found
          constructor
          · intro failed
            cases failed
          · intro unknown
            have differs := unknown.2 word (List.mem_of_find?_eq_some found)
            exact absurd (congrArg Json.str (of_decide_eq_true same)) differs
      · next missing =>
          rw [List.find?_eq_none] at missing
          constructor
          · intro failed
            cases failed
            refine ⟨rfl, fun word listed same => missing word listed ?_⟩
            exact decide_eq_true (Json.str.inj same)
          · rintro ⟨rfl, _⟩
            rfl
  · next other =>
      constructor
      · intro failed
        cases failed
        exact ⟨rfl, fun word _ => other _⟩
      · rintro ⟨rfl, _⟩
        rfl

theorem momentOf_error {value : Json} {error : LineError} (uncaught : error.caught = false) :
    momentOf value = .error error ↔ error = .overflow ∧
      ∃ s micros, value = .str s ∧ fromisoformat s = some micros ∧ ¬ InRange micros := by
  constructor
  · intro failed
    unfold momentOf at failed
    split at failed
    · next s =>
        split at failed
        · next micros read =>
            split at failed
            · cases failed
            · next outside =>
                cases failed
                exact ⟨rfl, s, micros, rfl, read, outside⟩
        · cases failed
          cases uncaught
    · cases failed
      cases uncaught
  · rintro ⟨rfl, s, micros, rfl, read, outside⟩
    simp only [momentOf, read, dif_neg outside]

theorem required_ok {members : List (Points × Json)} {key : String} {value : Json} :
    required members key = .ok value ↔ member members (nameOf key) = some value := by
  unfold required
  split
  · next found => simp [found]
  · next missing => simp [missing]

/-- A required field escapes where its value does. -/
theorem required_escapes {α : Type} {members : List (Points × Json)} {key : String}
    {read : Json → Except LineError α} :
    Escapes (forget ((required members key).bind read)) ↔
      ∃ value, member members (nameOf key) = some value ∧ Escapes (forget (read value)) := by
  cases found : required members key with
  | error failed =>
      have validation := required_error found
      subst validation
      constructor
      · rintro ⟨error, failed, uncaught⟩
        cases failed
        cases uncaught
      · rintro ⟨value, present, _⟩
        rw [required_ok.mpr present] at found
        cases found
  | ok value =>
      have present := required_ok.mp found
      simp [Except.bind, present]

theorem word_escapes {α : Type} {words : List α} {wire : α → String} {value : Json} :
    Escapes (forget (wordOf words wire value)) ↔
      ∀ word ∈ words.map wire, value ≠ .str (nameOf word) := by
  rw [escapes_forget, List.forall_mem_map]
  constructor
  · rintro ⟨error, failed, _⟩
    exact (wordOf_error.mp failed).2
  · intro unknown
    exact ⟨.value, wordOf_error.mpr ⟨rfl, unknown⟩, rfl⟩

theorem moment_escapes {members : List (Points × Json)} {key : String} :
    Escapes (forget (readMoment members key)) ↔ OutOfRange members key := by
  rw [readMoment, required_escapes]
  constructor
  · rintro ⟨value, present, escapes⟩
    obtain ⟨error, failed, uncaught⟩ := escapes_forget.mp escapes
    obtain ⟨_, s, micros, rfl, read, outside⟩ := (momentOf_error uncaught).mp failed
    exact ⟨s, micros, present, read, outside⟩
  · rintro ⟨s, micros, present, read, outside⟩
    have failed := (@momentOf_error (.str s) .overflow rfl).mpr ⟨rfl, s, micros, rfl, read, outside⟩
    exact ⟨.str s, present, escapes_forget.mpr ⟨.overflow, failed, rfl⟩⟩

theorem cause_escapes {members : List (Points × Json)} :
    Escapes (forget (readCause members)) ↔
      UnknownWord members "termination_cause" (terminationCauses.map TerminationCause.wire) := by
  unfold readCause UnknownWord
  cases found : member members (nameOf "termination_cause") with
  | none => simp [causeOf, Escapes, forget, Except.map]
  | some value => simp [causeOf, word_escapes]

/-- A field escapes exactly where it is foreign. -/
theorem check_escapes {members : List (Points × Json)} (field : EntryField) :
    Escapes (field.check members) ↔ field.Foreign members := by
  cases field with
  | executionId => exact iff_of_false checkedField_caught id
  | taskId => exact iff_of_false checkedField_caught id
  | slug => exact iff_of_false checkedField_caught id
  | revisionId => exact iff_of_false checkedField_caught id
  | contentDigest => exact iff_of_false checkedField_caught id
  | triggerSource =>
      rw [EntryField.check, readTrigger, required_escapes]
      simp only [word_escapes]
      rfl
  | startedAt => exact moment_escapes
  | finishedAt => exact moment_escapes
  | outcome =>
      rw [EntryField.check, readOutcome, required_escapes]
      simp only [word_escapes]
      rfl
  | reasonCode => exact iff_of_false reason_caught id
  | terminationCause => exact cause_escapes

/-! ## The first field that fails -/

def checkAll (members : List (Points × Json)) : List EntryField → Except LineError Unit
  | [] => .ok ()
  | field :: rest => (field.check members).bind fun _ => checkAll members rest

theorem checkAll_escapes {members : List (Points × Json)} (fields : List EntryField) :
    Escapes (checkAll members fields) ↔ ∃ before field after, fields = before ++ field :: after ∧
      (∀ earlier ∈ before, earlier.Usable members) ∧ Escapes (field.check members) := by
  induction fields with
  | nil => simp [checkAll, Escapes]
  | cons field rest ih =>
      cases checked : field.check members with
      | error failed =>
          have whole : checkAll members (field :: rest) = .error failed := by
            rw [checkAll, checked]
            rfl
          rw [whole]
          constructor
          · intro escapes
            exact ⟨[], field, rest, rfl, by simp, by rwa [checked]⟩
          · rintro ⟨before, other, after, shape, usable, escapes⟩
            cases before with
            | nil =>
                obtain ⟨rfl, _⟩ := List.cons.inj shape
                rwa [checked] at escapes
            | cons first later =>
                obtain ⟨rfl, _⟩ := List.cons.inj shape
                have fine := usable _ List.mem_cons_self
                rw [EntryField.Usable, checked] at fine
                cases fine
      | ok done =>
          have whole : checkAll members (field :: rest) = checkAll members rest := by
            rw [checkAll, checked]
            rfl
          rw [whole, ih]
          constructor
          · rintro ⟨before, other, after, rfl, usable, escapes⟩
            exact ⟨field :: before, other, after, rfl, List.forall_mem_cons.mpr ⟨checked, usable⟩,
              escapes⟩
          · rintro ⟨before, other, after, shape, usable, escapes⟩
            cases before with
            | nil =>
                obtain ⟨rfl, _⟩ := List.cons.inj shape
                obtain ⟨error, failed, _⟩ := escapes
                rw [checked] at failed
                cases failed
            | cons first later =>
                obtain ⟨rfl, rfl⟩ := List.cons.inj shape
                exact ⟨later, other, after, rfl, (List.forall_mem_cons.mp usable).2, escapes⟩

theorem forget_bind {α β : Type} {result : Except LineError α} {next : α → Except LineError β}
    {rest : Except LineError Unit} (follows : ∀ value, forget (next value) = rest) :
    forget (result.bind next) = (forget result).bind fun _ => rest := by
  cases result with
  | error failed => rfl
  | ok value => exact follows value

/-- Reading an entry fails as its first unusable field does. -/
theorem readEntry_checks (members : List (Points × Json)) :
    forget (readEntry members) = checkAll members readingOrder := by
  unfold readEntry readingOrder
  iterate 11 refine forget_bind fun _ => ?_
  rfl

theorem entry_escapes {members : List (Points × Json)} :
    (∃ error, readEntry members = .error error ∧ error.caught = false) ↔ FirstForeign members := by
  rw [← escapes_forget, readEntry_checks, checkAll_escapes]
  simp only [check_escapes]
  rfl

/-- The lines that raise what the readers do not catch. -/
theorem parseLine_escapes {limits : Interpreter} {line : Text} :
    (∃ error, parseLine limits line = .error error ∧ error.caught = false) ↔ Fatal limits line := by
  unfold parseLine
  constructor
  · rintro ⟨error, failed, uncaught⟩
    split at failed
    · next data parsed =>
        unfold fromPrimitive at failed
        split at failed
        · next members =>
            split at failed
            · next version =>
                exact .foreign members parsed version (entry_escapes.mp ⟨error, failed, uncaught⟩)
            · cases failed
              cases uncaught
        · next other => exact .noObject data parsed other
    · next kind parsed =>
        cases kind with
        | decode =>
            cases failed
            cases uncaught
        | recursion => exact .nested parsed
        | digits => exact .long parsed
  · rintro (parsed | parsed | ⟨data, parsed, other⟩ | ⟨members, parsed, version, first⟩)
    · simp only [parsed]
      exact ⟨.recursion, rfl, rfl⟩
    · simp only [parsed]
      exact ⟨.value, rfl, rfl⟩
    · have refused : fromPrimitive data = .error .attribute := by
        unfold fromPrimitive
        split
        · next members => exact absurd rfl (other members)
        · rfl
      simp only [parsed, refused]
      exact ⟨.attribute, rfl, rfl⟩
    · obtain ⟨error, failed, uncaught⟩ := entry_escapes.mpr first
      simp only [parsed, fromPrimitive, version, if_true]
      exact ⟨error, failed, uncaught⟩

end TaskControl
