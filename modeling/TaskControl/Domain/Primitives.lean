import TaskControl.Domain.JournalCodec
import TaskControl.Foundation.Effects

/-!
# Stored primitives

What `to_primitive` makes of the values of the domain, and how `from_primitive`
takes it apart.  A dictionary is found by its names, whatever JSON it comes from;
the model does not follow Python where a value has another type than its field.
-/

set_option autoImplicit false

namespace TaskControl

open PythonText JsonText

/-! ## Writing -/

def entries (fields : List (String × Json)) : List (Points × Json) :=
  fields.map fun field => (nameOf field.1, field.2)

/-- A dictionary, in the order in which it is written. -/
def dictionary (fields : List (String × Json)) : Json := .obj (entries fields)

def textJson (t : Text) : Json := .str (pointsOf t)

/-- `str(word)` of a member of an enumeration. -/
def wordJson (wire : String) : Json := .str (nameOf wire)

def natJson (n : Nat) : Json := .int n

def optionJson {α : Type} (write : α → Json) : Option α → Json
  | none => .null
  | some value => write value

/-! ## Reading -/

/-- How a reader ends that gives no value. -/
inductive ReadError where
  | raised (error : LineError)
  /-- A `KeyError`. -/
  | missing (key : String)
  /-- A value of another type than its field, with which Python goes on or raises. -/
  | untyped
  deriving DecidableEq

abbrev Reading := Except ReadError

def invalidPrimitive {α : Type} : Reading α := .error (.raised .validation)

/-- The result of a reader of the journal. -/
def relayed {α : Type} : Except LineError α → Reading α
  | .ok value => .ok value
  | .error error => .error (.raised error)

def constructed {α : Type} : Except TaskControlError α → Reading α
  | .ok value => .ok value
  | .error _ => invalidPrimitive

/-- `isinstance(data, dict)`. -/
def mapping : Json → Reading (List (Points × Json))
  | .obj members => .ok members
  | _ => invalidPrimitive

/-- `data.get(key)`. -/
def valueAt? (members : List (Points × Json)) (key : String) : Option Json :=
  member members (nameOf key)

/-- `data.get(key)`, where an absent value is `None`. -/
def valueAt (members : List (Points × Json)) (key : String) : Json :=
  (valueAt? members key).getD .null

/-- `data[key]`. -/
def item (members : List (Points × Json)) (key : String) : Reading Json :=
  match valueAt? members key with
  | some value => .ok value
  | none => .error (.missing key)

def textValue : Json → Reading Text
  | .str s =>
      match textOf s with
      | some t => .ok t
      | none => .error .untyped
  | _ => .error .untyped

/-- A value that is read where it is not `None`. -/
def optionally {α : Type} (read : Json → Reading α) : Json → Reading (Option α)
  | .null => .ok none
  | value => (read value).map some

/-- A value that is read where it is truthy. -/
def whenTruthy {α : Type} (read : Json → Reading α) (value : Json) : Reading (Option α) :=
  if truthy value then (read value).map some else .ok none

/-- `tuple(value or ())` of a list. -/
def listValue : Json → Reading (List Json)
  | .arr items => .ok items
  | value => if truthy value then .error .untyped else .ok []

/-- `value or {}`. -/
def orEmpty (value : Json) : Json := if truthy value then value else .obj []

/-- `Enumeration(data.get(key, default))`. -/
def wordValue {α : Type} (words : List α) (wire : α → String) (default : α) :
    Option Json → Reading α
  | some value => relayed (wordOf words wire value)
  | none => .ok default

/-- What the constructors take that want a whole number and no `bool`. -/
def wholeNumber : Json → Reading Int
  | .int n => .ok n
  | _ => invalidPrimitive

/-- `bool(data.get(key, False))`. -/
def flagValue (members : List (Points × Json)) (key : String) : Bool :=
  (valueAt? members key).any truthy

/-! ## What is written is found -/

section

variable {α : Type}

theorem pointOf_injective : Function.Injective pointOf := by
  intro c d same
  have values : c.toNat = d.toNat := congrArg Subtype.val same
  rw [← Char.ofNat_toNat c, values, Char.ofNat_toNat]

theorem nameOf_injective : Function.Injective nameOf := by
  intro key other same
  have lists := pointOf_injective.list_map same
  exact String.toList_inj.mp lists

@[simp] theorem valueAt?_entries (fields : List (String × Json)) (key : String) :
    valueAt? (entries fields) key =
      (fields.reverse.find? fun field => decide (field.1 = key)).map (·.2) := by
  have same : ∀ field : String × Json,
      decide (nameOf field.1 = nameOf key) = decide (field.1 = key) := fun field =>
    decide_eq_decide.mpr nameOf_injective.eq_iff
  rw [valueAt?, member, entries, ← List.map_reverse, List.find?_map, Option.map_map]
  simp only [Function.comp_def, same]

@[simp] theorem mapping_dictionary (fields : List (String × Json)) :
    mapping (dictionary fields) = .ok (entries fields) := rfl

@[simp] theorem textValue_textJson (t : Text) : textValue (textJson t) = .ok t := by
  simp only [textValue, textJson, textOf_pointsOf]

@[simp] theorem wholeNumber_natJson (n : Nat) : wholeNumber (natJson n) = .ok (n : Int) := rfl

@[simp] theorem optionally_null (read : Json → Reading α) : optionally read .null = .ok none := rfl

@[simp] theorem optionally_textJson (read : Json → Reading α) (t : Text) :
    optionally read (textJson t) = (read (textJson t)).map some := rfl

@[simp] theorem listValue_arr (items : List Json) : listValue (.arr items) = .ok items := rfl

@[simp] theorem orEmpty_dictionary (field : String × Json) (rest : List (String × Json)) :
    orEmpty (dictionary (field :: rest)) = dictionary (field :: rest) := rfl

@[simp] theorem truthy_bool (value : Bool) : truthy (.bool value) = value := rfl

theorem optionally_optionJson {read : Json → Reading α} {write : α → Json} {value : Option α}
    (written : ∀ content ∈ value, write content ≠ .null ∧ read (write content) = .ok content) :
    optionally read (optionJson write value) = .ok value := by
  cases value with
  | none => rfl
  | some content =>
      obtain ⟨present, back⟩ := written content rfl
      unfold optionJson optionally
      split
      · next absent => exact absurd absent present
      · rw [back]
        rfl

theorem optionally_text (value : Option Text) :
    optionally textValue (optionJson textJson value) = .ok value :=
  optionally_optionJson fun t _ => ⟨nofun, textValue_textJson t⟩

theorem whenTruthy_optionJson {read : Json → Reading α} {write : α → Json} {value : Option α}
    (written : ∀ content ∈ value, truthy (write content) = true ∧ read (write content) = .ok content) :
    whenTruthy read (optionJson write value) = .ok value := by
  cases value with
  | none => rfl
  | some content =>
      obtain ⟨present, back⟩ := written content rfl
      unfold whenTruthy optionJson
      rw [if_pos present, back]
      rfl

theorem truthy_textJson {t : Text} (nonempty : t ≠ []) : truthy (textJson t) = true := by
  cases t with
  | nil => exact absurd rfl nonempty
  | cons c rest => rfl

/-- A word of the enumeration is read as itself, where no two of them are written alike. -/
theorem wordOf_wordJson {words : List α} {wire : α → String} (wires : (words.map wire).Nodup)
    {word : α} (listed : word ∈ words) : wordOf words wire (wordJson (wire word)) = .ok word := by
  have found : words.find? (fun other => nameOf (wire word) = nameOf (wire other)) = some word := by
    induction words with
    | nil => cases listed
    | cons first rest ih =>
        rw [List.map_cons, List.nodup_cons] at wires
        rcases List.mem_cons.mp listed with rfl | later
        · exact List.find?_cons_of_pos (by simp)
        · have other : nameOf (wire word) ≠ nameOf (wire first) := by
            intro same
            exact wires.1 (List.mem_map.mpr ⟨word, later, nameOf_injective same⟩)
          rw [List.find?_cons_of_neg (by simpa using other)]
          exact ih wires.2 later
  simp only [wordOf, wordJson, found]

theorem wordValue_wordJson {words : List α} {wire : α → String} (wires : (words.map wire).Nodup)
    {word : α} (listed : word ∈ words) (default : α) :
    wordValue words wire default (some (wordJson (wire word))) = .ok word := by
  rw [wordValue, wordOf_wordJson wires listed]
  rfl

/-- What is read back is written in one way only. -/
theorem eq_of_written {read : Json → Reading α} {write : α → Json} {first second : α}
    (back : read (write first) = .ok first) (back' : read (write second) = .ok second)
    (same : write second = write first) : second = first := by
  rw [same, back] at back'
  exact (Except.ok.inj back').symm

/-- A list whose items are read back is read back. -/
theorem mapM_written {read : Json → Reading α} {write : α → Json} {items : List α}
    (written : ∀ item ∈ items, read (write item) = .ok item) :
    items.mapM (read ∘ write) = .ok items :=
  Effects.mapM_eq_ok.mpr (List.forall₂_same.mpr written)

end

end TaskControl
