import TaskControl.Foundation.PythonText
import TaskControl.Foundation.Substitution

/-!
# Redaction

Log records between a caller and a sink.  The filter scrubs the registered secrets
from every text of a record, the formatter masks what a sensitive key names, at any
depth.  The set of secrets is iterated in an arbitrary order.
-/

set_option autoImplicit false

namespace TaskControl.Infrastructure

open PythonText Substitution

/-! ## Secrets -/

/-- `REDACTED`. -/
def redacted : Text := "***redacted***".toList

def minSecretLength : Nat := 8

/-- What `register_secret` keeps. -/
structure Secret where
  value : Text
  long : minSecretLength ≤ value.length

/-- `register_secret`; a shorter value is ignored. -/
def registerSecret (secrets : List Secret) (value : Text) : List Secret :=
  if long : minSecretLength ≤ value.length then
    if secrets.any fun secret => secret.value == value then secrets else secrets ++ [⟨value, long⟩]
  else secrets

/-- What the calls of `register_secret` leave registered. -/
def registered (calls : List Text) : List Secret := calls.foldl registerSecret []

/-- The registered secrets are replaced in the order in which the set is iterated. -/
def scrub (secrets : List Secret) (text : Text) : Text :=
  replaceEach (secrets.map Secret.value) redacted text

/-! ## Sensitive keys -/

/-- The characters that match a letter of the pattern when the case is ignored. -/
def caseVariants (letter : Char) : List Char :=
  let others :=
    if letter = 'i' then [Char.ofNat 0x130, Char.ofNat 0x131]
    else if letter = 's' then [Char.ofNat 0x17F]
    else if letter = 'k' then [Char.ofNat 0x212A]
    else []
  letter :: letter.toUpper :: others

/-- The words that `_SENSITIVE_KEY_PATTERN` matches. -/
def sensitiveWords : List Text :=
  ["secret".toList, "password".toList, "passwd".toList, "token".toList, "apikey".toList,
    "api_key".toList, "api-key".toList, "credential".toList, "privatekey".toList,
    "private_key".toList, "private-key".toList, "authorization".toList]

def startsWithWord : Text → Text → Bool
  | [], _ => true
  | _ :: _, [] => false
  | letter :: word, c :: text => (caseVariants letter).contains c && startsWithWord word text

/-- `_SENSITIVE_KEY_PATTERN.search`. -/
def sensitive (key : Text) : Bool :=
  key.tails.any fun rest => sensitiveWords.any fun word => startsWithWord word rest

/-! ## Values -/

inductive LogKey where
  | text (key : Text)
  | other (shown : Text)
  deriving DecidableEq

def LogKey.isSensitive : LogKey → Bool
  | .text key => sensitive key
  | .other _ => false

inductive SequenceKind where
  | list
  | tuple

/-- A value of a record; `other` is anything that the filter passes as it is. -/
inductive LogValue where
  | text (text : Text)
  | mapping (entries : List (LogKey × LogValue))
  | sequence (kind : SequenceKind) (items : List LogValue)
  | other (shown : Text)

mutual

/-- `_redact_value`. -/
def redactValue (secrets : List Secret) : LogValue → LogValue
  | .text text => .text (scrub secrets text)
  | .mapping entries => .mapping (redactMapping secrets entries)
  | .sequence kind items => .sequence kind (redactItems secrets items)
  | .other shown => .other shown

/-- `_redact_mapping`. -/
def redactMapping (secrets : List Secret) : List (LogKey × LogValue) → List (LogKey × LogValue)
  | [] => []
  | (key, value) :: rest =>
      (key, if key.isSensitive then .text redacted else redactValue secrets value) ::
        redactMapping secrets rest

def redactItems (secrets : List Secret) : List LogValue → List LogValue
  | [] => []
  | item :: rest => redactValue secrets item :: redactItems secrets rest

end

/-! ## Records -/

inductive LogArguments where
  | mapping (entries : List (LogKey × LogValue))
  | positional (items : List LogValue)

/-- A record as the logger built it; `attributes` are those that the caller attached. -/
structure LogRecord where
  timestamp : Text
  level : Text
  logger : Text
  msg : LogValue
  args : LogArguments
  attributes : List (Text × LogValue)
  exception : Option Text

/-- `_RESERVED_RECORD_FIELDS`. -/
def reservedRecordFields : List Text :=
  ["name".toList, "msg".toList, "args".toList, "levelname".toList, "levelno".toList,
    "pathname".toList, "filename".toList, "module".toList, "exc_info".toList, "exc_text".toList,
    "stack_info".toList, "lineno".toList, "funcName".toList, "created".toList, "msecs".toList,
    "relativeCreated".toList, "thread".toList, "threadName".toList, "processName".toList,
    "process".toList, "taskName".toList, "asctime".toList, "message".toList,
    "taskcontrol_context".toList, "color_message".toList]

def isExtra (key : Text) : Bool := !reservedRecordFields.contains key && key.head? != some '_'

/-- `_record_extras`. -/
def recordExtras (record : LogRecord) : List (LogKey × LogValue) :=
  (record.attributes.filter fun field => isExtra field.1).map fun field =>
    (.text field.1, field.2)

def redactArguments (secrets : List Secret) : LogArguments → LogArguments
  | .mapping entries => .mapping (redactMapping secrets entries)
  | .positional items => .positional (redactItems secrets items)

def redactMessage (secrets : List Secret) : LogValue → LogValue
  | .text text => .text (scrub secrets text)
  | message => message

/-- `RedactionFilter.filter`. -/
def redactionFilter (secrets : List Secret) (record : LogRecord) : LogRecord :=
  { record with
    msg := if secrets.isEmpty then record.msg else redactMessage secrets record.msg
    args := if secrets.isEmpty then record.args else redactArguments secrets record.args
    attributes := record.attributes.map fun field =>
      if isExtra field.1 then (field.1, redactValue secrets field.2) else field }

/-- `entries[key] = value`. -/
def setKey (entries : List (LogKey × LogValue)) (key : LogKey) (value : LogValue) :
    List (LogKey × LogValue) :=
  if entries.any fun entry => decide (entry.1 = key) then
    entries.map fun entry => if entry.1 = key then (key, value) else entry
  else entries ++ [(key, value)]

/-- `entries.update(others)`. -/
def update (entries others : List (LogKey × LogValue)) : List (LogKey × LogValue) :=
  others.foldl (fun entries other => setKey entries other.1 other.2) entries

/-- The context inside nested `correlation_context` blocks, from the outermost. -/
def boundContext (blocks : List (List (LogKey × LogValue))) : List (LogKey × LogValue) :=
  blocks.foldl update []

/-- What the formatter sets itself; `message` is `getMessage`. -/
def ownFields (message : LogRecord → Text) (record : LogRecord) : List (LogKey × LogValue) :=
  [(.text "timestamp".toList, .text record.timestamp), (.text "level".toList, .text record.level),
    (.text "logger".toList, .text record.logger),
    (.text "message".toList, .text (message record))]

def exceptionField (record : LogRecord) : List (LogKey × LogValue) :=
  match record.exception with
  | none => []
  | some shown => [(.text "exception".toList, .text shown)]

/-- What `StructuredFormatter.format` dumps of a record that came through the filter. -/
def structuredPayload (message : LogRecord → Text) (secrets : List Secret)
    (context : List (LogKey × LogValue)) (record : LogRecord) : List (LogKey × LogValue) :=
  update (update (update (ownFields message record) (redactMapping secrets context))
    (redactMapping secrets (recordExtras record))) (exceptionField record)

/-! ## What is inside a value -/

inductive Inside : LogValue → LogValue → Prop where
  | here (value : LogValue) : Inside value value
  | entry {inner value : LogValue} {key : LogKey} {entries : List (LogKey × LogValue)}
      (member : (key, value) ∈ entries) (within : Inside inner value) :
      Inside inner (.mapping entries)
  | item {inner value : LogValue} {kind : SequenceKind} {items : List LogValue}
      (member : value ∈ items) (within : Inside inner value) :
      Inside inner (.sequence kind items)

/-- No text inside the value has the secret in it. -/
def Clean (secret : Secret) (value : LogValue) : Prop :=
  ∀ text, Inside (.text text) value → Free secret.value text

/-- Whatever a sensitive key names is masked, at any depth. -/
def Masked (value : LogValue) : Prop :=
  ∀ entries, Inside (.mapping entries) value → ∀ entry ∈ entries, entry.1.isSensitive = true →
    entry.2 = .text redacted

/-- What the sinks may see of a value. -/
structure Safe (secret : Secret) (value : LogValue) : Prop where
  clean : Clean secret value
  masked : Masked value

section Values

variable {secrets : List Secret} {secret : Secret}

theorem redactMapping_eq_map (entries : List (LogKey × LogValue)) :
    redactMapping secrets entries = entries.map fun entry =>
      (entry.1, if entry.1.isSensitive then .text redacted else redactValue secrets entry.2) := by
  induction entries with
  | nil => rfl
  | cons entry rest ih =>
      obtain ⟨key, value⟩ := entry
      rw [redactMapping, ih]
      rfl

theorem redactItems_eq_map (items : List LogValue) :
    redactItems secrets items = items.map (redactValue secrets) := by
  induction items with
  | nil => rfl
  | cons item rest ih =>
      rw [redactItems, ih]
      rfl

/-- Whatever is inside a redacted value is the mask or was redacted itself. -/
theorem inside_redactValue {inner result value : LogValue} (within : Inside inner result)
    (made : result = redactValue secrets value) :
    inner = .text redacted ∨ ∃ original, inner = redactValue secrets original := by
  induction within generalizing value with
  | here => exact .inr ⟨value, made⟩
  | entry member within ih =>
      cases value with
      | mapping entries =>
          rw [redactValue, redactMapping_eq_map] at made
          cases made
          obtain ⟨⟨key, original⟩, _, same⟩ := List.mem_map.mp member
          obtain ⟨_, rfl⟩ := Prod.mk.inj same
          by_cases named : key.isSensitive = true
          · rw [if_pos named] at within
            cases within
            exact .inl rfl
          · rw [if_neg named] at ih
            exact ih rfl
      | text text => cases made
      | sequence kind items => cases made
      | other shown => cases made
  | item member within ih =>
      cases value with
      | sequence kind items =>
          rw [redactValue, redactItems_eq_map] at made
          cases made
          obtain ⟨original, _, same⟩ := List.mem_map.mp member
          exact ih same.symm
      | text text => cases made
      | mapping entries => cases made
      | other shown => cases made

theorem secret_nonempty (secret : Secret) : secret.value ≠ [] := by
  have long := secret.long
  unfold minSecretLength at long
  exact List.ne_nil_of_length_pos (by omega)

theorem secrets_nonempty : ∀ other ∈ secrets.map Secret.value, other ≠ [] := by
  intro other listed
  obtain ⟨secret, _, rfl⟩ := List.mem_map.mp listed
  exact secret_nonempty secret

/-- The texts of a redacted value have no registered secret that the mask separates. -/
theorem clean_redactValue (registered : secret ∈ secrets)
    (separates : Separates redacted secret.value) (value : LogValue) :
    Clean secret (redactValue secrets value) := by
  intro text within
  rcases inside_redactValue within rfl with mask | ⟨original, made⟩
  · cases mask
    exact separates.free (secret_nonempty secret)
  · cases original with
    | text original =>
        cases made
        exact replaceEach_free secrets_nonempty separates (List.mem_map_of_mem registered) original
    | mapping entries => cases made
    | sequence kind items => cases made
    | other shown => cases made

theorem masked_redactValue (value : LogValue) : Masked (redactValue secrets value) := by
  intro entries within entry listed named
  rcases inside_redactValue within rfl with mask | ⟨original, made⟩
  · cases mask
  · cases original with
    | mapping originals =>
        rw [redactValue, redactMapping_eq_map] at made
        cases made
        obtain ⟨other, _, rfl⟩ := List.mem_map.mp listed
        exact if_pos named
    | text original => cases made
    | sequence kind items => cases made
    | other shown => cases made

theorem safe_redactValue (registered : secret ∈ secrets)
    (separates : Separates redacted secret.value) (value : LogValue) :
    Safe secret (redactValue secrets value) :=
  ⟨clean_redactValue registered separates value, masked_redactValue value⟩

/-- A mask is safe. -/
theorem safe_redacted (separates : Separates redacted secret.value) :
    Safe secret (.text redacted) := by
  constructor
  · intro text within
    cases within
    exact separates.free (secret_nonempty secret)
  · intro entries within
    cases within

end Values

/-! ## What passes unchanged -/

/-- Induction over the values inside a value. -/
theorem LogValue.induction {P : LogValue → Prop} (text : ∀ text, P (.text text))
    (mapping : ∀ entries : List (LogKey × LogValue), (∀ entry ∈ entries, P entry.2) →
      P (.mapping entries))
    (sequence : ∀ kind items, (∀ item ∈ items, P item) → P (.sequence kind items))
    (other : ∀ shown, P (.other shown)) (value : LogValue) : P value :=
  @LogValue.rec P (fun entries => ∀ entry ∈ entries, P entry.2) (fun items => ∀ item ∈ items, P item)
    (fun entry => P entry.2) text mapping sequence other
    (fun _ member => absurd member List.not_mem_nil)
    (fun _ _ first rest => List.forall_mem_cons.mpr ⟨first, rest⟩)
    (fun _ member => absurd member List.not_mem_nil)
    (fun _ _ first rest => List.forall_mem_cons.mpr ⟨first, rest⟩)
    (fun _ _ inner => inner) value

section Unchanged

variable {secrets : List Secret}

theorem Safe.entry {secret : Secret} {entries : List (LogKey × LogValue)}
    (safe : Safe secret (.mapping entries)) {entry : LogKey × LogValue} (listed : entry ∈ entries) :
    Safe secret entry.2 :=
  ⟨fun text within => safe.clean text (.entry listed within),
    fun inner within => safe.masked inner (.entry listed within)⟩

theorem Safe.item {secret : Secret} {kind : SequenceKind} {items : List LogValue}
    (safe : Safe secret (.sequence kind items)) {item : LogValue} (listed : item ∈ items) :
    Safe secret item :=
  ⟨fun text within => safe.clean text (.item listed within),
    fun inner within => safe.masked inner (.item listed within)⟩

/-- A value that is safe already is not changed. -/
theorem redactValue_safe (value : LogValue) (masked : Masked value)
    (safe : ∀ secret ∈ secrets, Safe secret value) : redactValue secrets value = value := by
  induction value using LogValue.induction with
  | text text =>
      rw [redactValue, scrub, replaceEach_of_free secrets_nonempty]
      intro other listed
      obtain ⟨secret, member, rfl⟩ := List.mem_map.mp listed
      exact (safe secret member).clean text (.here _)
  | mapping entries ih =>
      rw [redactValue, redactMapping_eq_map]
      congr 1
      refine (List.map_congr_left fun entry listed => ?_).trans (List.map_id entries)
      by_cases named : entry.1.isSensitive = true
      · rw [if_pos named, ← masked entries (.here _) entry listed named]
        rfl
      · rw [if_neg named, ih entry listed (fun inner within => masked inner (.entry listed within))
          fun secret member => (safe secret member).entry listed]
        rfl
  | sequence kind items ih =>
      rw [redactValue, redactItems_eq_map]
      congr 1
      refine (List.map_congr_left fun item listed => ?_).trans (List.map_id items)
      exact ih item listed (fun inner within => masked inner (.item listed within))
        fun secret member => (safe secret member).item listed
  | other shown => rw [redactValue]

end Unchanged

/-! ## What reaches a sink -/

/-- The record that the formatter sees: its message, its arguments and its extras. -/
structure SafeRecord (secret : Secret) (record : LogRecord) : Prop where
  msg : ∀ text, record.msg = .text text → Free secret.value text
  mapped : ∀ entries, record.args = .mapping entries → Safe secret (.mapping entries)
  positional : ∀ items, record.args = .positional items → ∀ item ∈ items, Safe secret item
  extras : ∀ entry ∈ recordExtras record, Safe secret entry.2

section Sinks

variable {secrets : List Secret} {secret : Secret}

theorem mem_setKey {entries : List (LogKey × LogValue)} {key : LogKey} {value : LogValue}
    {entry : LogKey × LogValue} (member : entry ∈ setKey entries key value) :
    entry ∈ entries ∨ entry = (key, value) := by
  unfold setKey at member
  split at member
  · obtain ⟨other, listed, rfl⟩ := List.mem_map.mp member
    split
    · exact .inr rfl
    · exact .inl listed
  · exact (List.mem_append.mp member).imp id List.mem_singleton.mp

theorem mem_update {entries others : List (LogKey × LogValue)} {entry : LogKey × LogValue}
    (member : entry ∈ update entries others) : entry ∈ entries ∨ entry ∈ others := by
  induction others generalizing entries with
  | nil => exact .inl member
  | cons other rest ih =>
      rcases ih member with earlier | later
      · rcases mem_setKey earlier with listed | rfl
        · exact .inl listed
        · exact .inr List.mem_cons_self
      · exact .inr (List.mem_cons_of_mem _ later)

theorem safe_redactMapping (member : secret ∈ secrets)
    (separates : Separates redacted secret.value) {entries : List (LogKey × LogValue)}
    {entry : LogKey × LogValue} (listed : entry ∈ redactMapping secrets entries) :
    Safe secret entry.2 ∧ (entry.1.isSensitive = true → entry.2 = .text redacted) := by
  rw [redactMapping_eq_map] at listed
  obtain ⟨original, _, rfl⟩ := List.mem_map.mp listed
  refine ⟨?_, fun named => if_pos named⟩
  dsimp only
  split
  · exact safe_redacted separates
  · exact safe_redactValue member separates original.2

theorem filter_safe (member : secret ∈ secrets) (separates : Separates redacted secret.value)
    (record : LogRecord) : SafeRecord secret (redactionFilter secrets record) := by
  have some_ : secrets.isEmpty = false := by
    rw [List.isEmpty_eq_false_iff]
    rintro rfl
    cases member
  constructor
  · intro text shown
    simp only [redactionFilter, some_] at shown
    cases kept : record.msg with
    | text original =>
        rw [kept] at shown
        cases shown
        exact replaceEach_free secrets_nonempty separates (List.mem_map_of_mem member) original
    | mapping entries =>
        rw [kept] at shown
        cases shown
    | sequence kind items =>
        rw [kept] at shown
        cases shown
    | other shown' =>
        rw [kept] at shown
        cases shown
  · intro entries shown
    simp only [redactionFilter, some_] at shown
    cases kept : record.args with
    | mapping originals =>
        rw [kept] at shown
        cases shown
        have safe := safe_redactValue member separates (.mapping originals)
        rwa [redactValue] at safe
    | positional items =>
        rw [kept] at shown
        cases shown
  · intro items shown item listed
    simp only [redactionFilter, some_] at shown
    cases kept : record.args with
    | mapping originals =>
        rw [kept] at shown
        cases shown
    | positional originals =>
        rw [kept] at shown
        cases shown
        rw [redactItems_eq_map] at listed
        obtain ⟨original, _, rfl⟩ := List.mem_map.mp listed
        exact safe_redactValue member separates original
  · intro entry listed
    obtain ⟨field, kept, rfl⟩ := List.mem_map.mp listed
    obtain ⟨filtered, extra⟩ := List.mem_filter.mp kept
    obtain ⟨original, _, rfl⟩ := List.mem_map.mp filtered
    by_cases own : isExtra original.1 = true
    · rw [if_pos own]
      exact safe_redactValue member separates original.2
    · rw [if_neg own] at extra
      exact absurd extra own

/-- What the formatter dumps is safe, but for the fields that it sets itself. -/
theorem payload_safe (member : secret ∈ secrets) (separates : Separates redacted secret.value)
    (message : LogRecord → Text) (context : List (LogKey × LogValue)) (record : LogRecord)
    {entry : LogKey × LogValue} (listed : entry ∈ structuredPayload message secrets context record) :
    (entry ∈ ownFields message record ∨ entry ∈ exceptionField record) ∨
      Safe secret entry.2 ∧ (entry.1.isSensitive = true → entry.2 = .text redacted) := by
  rcases mem_update listed with rest | thrown
  · rcases mem_update rest with rest | extra
    · rcases mem_update rest with own | bound
      · exact .inl (.inl own)
      · exact .inr (safe_redactMapping member separates bound)
    · exact .inr (safe_redactMapping member separates extra)
  · exact .inl (.inr thrown)

theorem mem_registerSecret {value : Text} (long : minSecretLength ≤ value.length)
    {calls : List Text} {secrets : List Secret}
    (known : value ∈ calls ∨ ⟨value, long⟩ ∈ secrets) :
    ⟨value, long⟩ ∈ calls.foldl registerSecret secrets := by
  induction calls generalizing secrets with
  | nil => exact known.resolve_left List.not_mem_nil
  | cons call rest ih =>
      apply ih
      by_cases later : value ∈ rest
      · exact .inl later
      · right
        unfold registerSecret
        rcases known with first | earlier
        · obtain rfl := (List.mem_cons.mp first).resolve_right later
          rw [dif_pos long]
          split
          · next present =>
              obtain ⟨secret, listed, same⟩ := List.any_eq_true.mp present
              obtain ⟨value', long'⟩ := secret
              obtain rfl : value' = value := eq_of_beq same
              exact listed
          · exact List.mem_append_right _ (List.mem_singleton_self _)
        · split
          · split
            · exact earlier
            · exact List.mem_append_left _ earlier
          · exact earlier

end Sinks

/-- A secret without a star that is not part of the mask's word is kept apart by the mask. -/
theorem separates_starless {value : Text} (starless : '*' ∉ value)
    (foreign : Free value "redacted".toList) : Separates redacted value := by
  have shape : redacted = "***".toList ++ "redacted".toList ++ "***".toList := by decide
  rw [shape]
  refine separates_of_fences (by decide) (by decide) ?_ foreign
  intro item listed
  have star : item = '*' := by
    simpa using listed
  rw [star]
  exact starless

namespace Backup

def password : Text := "hunter2-super-secret".toList

theorem password_long : minSecretLength ≤ password.length := by decide

theorem password_foreign : Free password "redacted".toList := by
  unfold Free
  decide

theorem password_separates : Separates redacted password :=
  separates_starless (by decide) password_foreign

def secrets : List Secret := registered ["abc".toList, password]

/-- A record whose message, argument and extra all have the password in them. -/
def record : LogRecord where
  timestamp := "2026-01-01T00:00:00+0000".toList
  level := "INFO".toList
  logger := "taskcontrol".toList
  msg := .text ("connecting with ".toList ++ password)
  args := .positional [.text password]
  attributes := [("dsn".toList, .sequence .list [.text ("u:".toList ++ password)])]
  exception := none

def message (_ : LogRecord) : Text := []

end Backup

end TaskControl.Infrastructure
