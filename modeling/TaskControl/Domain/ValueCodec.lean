import TaskControl.Domain.CronGrammar
import TaskControl.Domain.Primitives
import TaskControl.Domain.Revision

/-!
# Identifiers, instants, digests and versions as primitives

How the single values of a task and a revision are written, and that they are read
as themselves.
-/

set_option autoImplicit false

namespace TaskControl

open PythonText JsonText Effects IsoTime CronGrammar

/-! ## Schema versions -/

/-- `SchemaVersion.parse`; `$` also matches before a final newline. -/
def parseSchemaVersion (t : Text) : Except Raised SchemaVersion := do
  let body := if endsWithNewline t then t.dropLast else t
  let (major, minor) := partitionAt '.' body
  if body.contains '.' && isNumber major && isNumber minor then
    let major ← int major
    let minor ← int minor
    return ⟨major, minor⟩
  else invalid "SchemaVersion must look like 'major.minor'."

theorem decimalValue_digit {c : Char} (digit : c.isDigit = true) :
    decimalValue c = some (c.toNat - 48) := by
  have range : 48 ≤ c.toNat ∧ c.toNat ≤ 57 := by
    simpa [Char.isDigit, UInt32.le_iff_toNat_le] using digit
  have found : decimalZeros.find? (fun first => first ≤ c.toNat && c.toNat < first + 10) =
      some 48 := by
    refine List.find?_cons_of_pos ?_
    simp only [Bool.and_eq_true, decide_eq_true_eq]
    omega
  rw [decimalValue, found]
  rfl

theorem decimal_digits (n : Nat) : decimal n = Nat.toDigits 10 n := by
  simp [decimal, Nat.toString_eq_repr, Nat.repr]

theorem isDecimal_decimal {n : Nat} {c : Char} (member : c ∈ decimal n) : c.isDigit = true := by
  rw [decimal_digits] at member
  exact Nat.isDigit_of_mem_toDigits (by omega) (by omega) member

theorem valueOf_eq {t : Text} (digits : ∀ c ∈ t, c.isDigit = true) (n : Nat) :
    t.foldl (fun number c => 10 * number + (decimalValue c).getD 0) n =
      Nat.ofDigitChars 10 t n := by
  induction t generalizing n with
  | nil => rfl
  | cons c rest ih =>
      obtain ⟨digit, later⟩ := List.forall_mem_cons.mp digits
      rw [List.foldl_cons, decimalValue_digit digit, ih later, Nat.ofDigitChars_cons]
      rfl

theorem int_decimal {n : Nat} (short : (decimal n).length ≤ 4300) : int (decimal n) = .ok n := by
  rw [int, if_pos short, valueOf_eq fun c member => isDecimal_decimal member, decimal_digits,
    Nat.ofDigitChars_ten_toDigits]

theorem isNumber_decimal (n : Nat) : isNumber (decimal n) = true := by
  refine isNumber_iff.mpr ⟨?_, fun c member => ?_⟩
  · rw [decimal_digits]
    exact Nat.toDigits_ne_nil
  · rw [isDecimal, decimalValue_digit (isDecimal_decimal member)]
    rfl

/-- Numbers of a version that Python reads: at most 4300 digits each. -/
def SchemaVersion.Readable (version : SchemaVersion) : Prop :=
  (decimal version.major).length ≤ 4300 ∧ (decimal version.minor).length ≤ 4300

theorem SchemaVersion.readable_of_compatible {version : SchemaVersion}
    (compatible : version.isCompatibleWith currentRevisionSchemaVersion = true) :
    version.Readable := by
  obtain ⟨major, minor⟩ := version
  obtain ⟨rfl, fewer⟩ := of_decide_eq_true compatible
  have bounded : minor ≤ 2 := fewer
  unfold Readable
  interval_cases minor <;> decide

theorem parseSchemaVersion_text {version : SchemaVersion} (readable : version.Readable) :
    parseSchemaVersion version.text = .ok version := by
  have apart : ∀ c ∈ decimal version.major, decide (c ≠ '.') = true := by
    intro c member
    refine decide_eq_true fun same => ?_
    have digit := isDecimal_decimal member
    rw [same] at digit
    cases digit
  have lasts : endsWithNewline version.text = false := by
    have tail : (decimal version.minor).getLast? ≠ some '\n' := by
      intro same
      have digit := isDecimal_decimal (List.mem_of_getLast? same)
      cases digit
    have nonempty : decimal version.minor ≠ [] := by
      rw [decimal_digits]
      exact Nat.toDigits_ne_nil
    obtain ⟨c, rest, written⟩ := List.exists_cons_of_ne_nil nonempty
    rw [written] at tail
    rw [endsWithNewline, SchemaVersion.text, List.getLast?_append, written,
      List.getLast?_cons_cons]
    simpa [List.getLast?_cons] using tail
  have cut : partitionAt '.' version.text = (decimal version.major, decimal version.minor) := by
    rw [partitionAt, SchemaVersion.text, List.takeWhile_append_of_pos apart,
      List.dropWhile_append_of_pos apart]
    simp
  have dotted : '.' ∈ version.text := by simp [SchemaVersion.text]
  simp [parseSchemaVersion, lasts, cut, dotted, isNumber_decimal, int_decimal readable.1,
    int_decimal readable.2, bind, Except.bind]
  rfl

/-! ## Writing and reading -/

def idJson {kind : IdentifierKind} (id : EntityId kind) : Json := textJson id.text

def timestampJson (moment : UtcTimestamp) : Json := textJson (isoformat moment.value)

def digestJson (digest : ContentDigest) : Json := textJson digest.value

/-- `TaskLifecycleState`, in the order of its declaration. -/
def lifecycleStates : List TaskLifecycleState := [.draft, .active, .suspended, .retired, .archived]

/-- `PublicationState`, in the order of its declaration. -/
def publicationStates : List PublicationState := [.draft, .published, .superseded, .withdrawn]

def idValue (kind : IdentifierKind) (value : Json) : Reading (EntityId kind) :=
  relayed (checked (EntityId.fromPrimitive kind) value)

/-- `UtcTimestamp.from_primitive`. -/
def timestampValue (value : Json) : Reading UtcTimestamp := do
  let moment ← relayed (momentOf value)
  return ⟨moment.value⟩

def digestValue (value : Json) : Reading ContentDigest :=
  relayed (checked ContentDigest.make value)

/-- `SchemaVersion.parse`, with a `ValueError` for a number that is too long. -/
def schemaText (t : Text) : Reading SchemaVersion :=
  match parseSchemaVersion t with
  | .ok version => .ok version
  | .error (.taskControl _) => invalidPrimitive
  | .error _ => .error (.raised .value)

/-- `SchemaVersion.parse(str(value))`; the text of a `float` is left out. -/
def schemaValue : Json → Reading SchemaVersion
  | .str s =>
      match textOf s with
      | some t => schemaText t
      | none => invalidPrimitive
  | .decimal _ => .error .untyped
  | _ => invalidPrimitive

/-! ## What is written is read -/

theorem idValue_idJson {kind : IdentifierKind} (id : EntityId kind) :
    idValue kind (idJson id) = .ok id := by
  unfold idValue idJson textJson
  rw [checked_pointsOf _ (EntityId.fromPrimitive_text id)]
  rfl

theorem truthy_idJson {kind : IdentifierKind} (id : EntityId kind) : truthy (idJson id) = true := by
  refine truthy_textJson ?_
  rw [EntityId.text]
  exact List.append_ne_nil_of_right_ne_nil _ (List.cons_ne_nil _ _)

theorem timestampValue_timestampJson {moment : UtcTimestamp} (inRange : InRange moment.value) :
    timestampValue (timestampJson moment) = .ok moment := by
  have read := momentOf_isoformat ⟨moment.value, inRange⟩
  simp only [timestampValue, timestampJson, textJson, read, relayed, bind, Except.bind]
  rfl

theorem truthy_timestampJson (moment : UtcTimestamp) : truthy (timestampJson moment) = true := by
  refine truthy_textJson ?_
  rw [isoformat]
  exact List.append_ne_nil_of_right_ne_nil _ (List.cons_ne_nil _ _)

theorem digestValue_digestJson (digest : ContentDigest) :
    digestValue (digestJson digest) = .ok digest := by
  unfold digestValue digestJson textJson
  rw [checked_pointsOf _ (ContentDigest.make_value digest)]
  rfl

theorem truthy_digestJson (digest : ContentDigest) : truthy (digestJson digest) = true := by
  refine truthy_textJson fun empty => ?_
  have shaped := digest.shaped
  rw [empty] at shaped
  cases shaped

theorem whenTruthy_id {kind : IdentifierKind} (id : Option (EntityId kind)) :
    whenTruthy (idValue kind) (optionJson idJson id) = .ok id :=
  whenTruthy_optionJson fun held _ => ⟨truthy_idJson held, idValue_idJson held⟩

theorem whenTruthy_timestamp {moment : Option UtcTimestamp}
    (inRange : ∀ held ∈ moment, InRange held.value) :
    whenTruthy timestampValue (optionJson timestampJson moment) = .ok moment :=
  whenTruthy_optionJson fun held member =>
    ⟨truthy_timestampJson held, timestampValue_timestampJson (inRange held member)⟩

theorem whenTruthy_digest (digest : Option ContentDigest) :
    whenTruthy digestValue (optionJson digestJson digest) = .ok digest :=
  whenTruthy_optionJson fun held _ => ⟨truthy_digestJson held, digestValue_digestJson held⟩

theorem schemaText_text {version : SchemaVersion} (readable : version.Readable) :
    schemaText version.text = .ok version := by
  simp only [schemaText, parseSchemaVersion_text readable]

theorem schemaValue_text {version : SchemaVersion} (readable : version.Readable) :
    schemaValue (textJson version.text) = .ok version := by
  simp only [schemaValue, textJson, textOf_pointsOf, schemaText_text readable]

/-! ## What is read -/

theorem whenTruthy_ok {α : Type} {read : Json → Reading α} {value : Json} {result : Option α}
    (done : whenTruthy read value = .ok result) :
    ∀ content ∈ result, read value = .ok content := by
  intro content member
  rw [Option.mem_def.mp member] at done
  unfold whenTruthy at done
  split at done
  · cases found : read value with
    | ok other =>
        rw [found] at done
        cases done
        rfl
    | error error =>
        rw [found] at done
        cases done
  · cases done

theorem inRange_of_timestamp {value : Json} {moment : UtcTimestamp}
    (read : timestampValue value = .ok moment) : InRange moment.value := by
  obtain ⟨held, _, made⟩ := except_bind_eq_ok.mp read
  cases made
  exact held.inRange

theorem inRange_of_item {members : List (Points × Json)} {key : String} {moment : UtcTimestamp}
    (read : item members key >>= timestampValue = .ok moment) : InRange moment.value := by
  obtain ⟨_, _, read⟩ := except_bind_eq_ok.mp read
  exact inRange_of_timestamp read

end TaskControl
