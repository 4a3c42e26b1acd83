import TaskControl.Common.Errors
import TaskControl.Foundation.PythonText

/-!
# Value objects

Instants are microseconds since the epoch in UTC, which is the resolution of
`datetime`; the stored form of an instant (`to_naive_utc`) is the same number.
-/

set_option autoImplicit false

namespace TaskControl

open PythonText

structure UtcTimestamp where
  value : Int
  deriving DecidableEq, Repr

instance : LE UtcTimestamp := ⟨fun first second => first.value ≤ second.value⟩

instance : LT UtcTimestamp := ⟨fun first second => first.value < second.value⟩

instance (first second : UtcTimestamp) : Decidable (first ≤ second) :=
  inferInstanceAs (Decidable (first.value ≤ second.value))

instance (first second : UtcTimestamp) : Decidable (first < second) :=
  inferInstanceAs (Decidable (first.value < second.value))

theorem UtcTimestamp.le_def {first second : UtcTimestamp} :
    first ≤ second ↔ first.value ≤ second.value := Iff.rfl

theorem UtcTimestamp.lt_def {first second : UtcTimestamp} :
    first < second ↔ first.value < second.value := Iff.rfl

instance : LinearOrder UtcTimestamp where
  le_refl := fun moment => Int.le_refl moment.value
  le_trans := fun _ _ _ => Int.le_trans
  lt_iff_le_not_ge := fun _ _ => Int.lt_iff_le_not_le
  le_antisymm := fun _ _ first second => congrArg UtcTimestamp.mk (Int.le_antisymm first second)
  le_total := fun first second => Int.le_total first.value second.value
  toDecidableLE := inferInstance

def maxDurationSeconds : Nat := 86400 * 366

structure Duration where
  seconds : Nat
  bounded : seconds ≤ maxDurationSeconds
  deriving DecidableEq, Repr

/-- `moment + duration.as_timedelta()`. -/
def UtcTimestamp.add (moment : UtcTimestamp) (span : Duration) : UtcTimestamp :=
  ⟨moment.value + 1000000 * span.seconds⟩

/-! ## Slugs -/

def slugMaxLength : Nat := 100

/-- `[a-z0-9]`. -/
def isSlugChar (c : Char) : Bool :=
  let n := c.toNat
  (97 ≤ n && n ≤ 122) || (48 ≤ n && n ≤ 57)

/-- The rest of `^[a-z0-9]+(?:-[a-z0-9]+)*$`, inside a word or before one; `$` also
matches before a final newline. -/
def slugShaped : Bool → Text → Bool
  | inWord, [] => inWord
  | inWord, c :: rest =>
      if isSlugChar c then slugShaped true rest
      else if c = '-' then inWord && slugShaped false rest
      else c == '\n' && rest.isEmpty && inWord

structure Slug where
  value : Text
  bounded : value.length ≤ slugMaxLength
  shaped : slugShaped false value = true
  deriving DecidableEq

/-- The constructor of `Slug` on a string. -/
def Slug.make (value : Text) : Except TaskControlError Slug :=
  if value = [] then .error (validationError "Slug must not be empty.")
  else if bounded : value.length ≤ slugMaxLength then
    if shaped : slugShaped false value = true then .ok ⟨value, bounded, shaped⟩
    else
      .error (validationError
        "Slug must be lower-case alphanumeric words separated by single hyphens.")
  else .error (validationError "Slug is too long.")

end TaskControl
