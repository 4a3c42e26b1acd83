import TaskControl.Foundation.IsoTime
import TaskControl.Foundation.Occurrences
import TaskControl.Domain.Values

/-!
# Previews of schedules

`preview_occurrences` over any schedule, and the arithmetic of `datetime`, which raises
where the result is not a date of the years 1 to 9999.
-/

set_option autoImplicit false

namespace TaskControl

open IsoTime Occurrences

def maxPreviewOccurrences : Int := 500

/-- A `datetime` that was computed. -/
def representable (micros : Int) : Except Raised Int :=
  if InRange micros then .ok micros else .error (.other "OverflowError: date value out of range")

theorem representable_ok {micros result : Int} :
    representable micros = .ok result ↔ InRange micros ∧ result = micros := by
  unfold representable
  by_cases range : InRange micros
  · rw [if_pos range]
    simp [range, eq_comm]
  · rw [if_neg range]
    simp [range]

/-- `schedule.next_occurrence_after`. -/
abbrev NextOccurrence := UtcTimestamp → Except Raised (Option UtcTimestamp)

/-- `preview_occurrences`. -/
def previewOccurrences (nextOccurrenceAfter : NextOccurrence) (after : UtcTimestamp)
    (count : Int) : Except Raised (List UtcTimestamp) :=
  if count < 1 then
    .error (.taskControl (validationError "Preview count must be at least 1."))
  else if maxPreviewOccurrences < count then
    .error (.taskControl (validationError "Preview count exceeds the supported maximum."))
  else collect nextOccurrenceAfter count.toNat after

/-- Where every answer of the schedule is right, its preview lists the first occurrences. -/
theorem previewOccurrences_firsts {nextOccurrenceAfter : NextOccurrence}
    {occurs : Set UtcTimestamp} {after : UtcTimestamp} {found : List UtcTimestamp}
    (firsts : Firsts occurs after found) (some_ : 1 ≤ found.length)
    (few : (found.length : Int) ≤ maxPreviewOccurrences)
    (right : ∀ cursor ∈ (after :: found).dropLast, ∀ next, IsNext occurs cursor next →
      next ∈ found → nextOccurrenceAfter cursor = .ok (some next)) :
    previewOccurrences nextOccurrenceAfter after found.length = .ok found := by
  rw [previewOccurrences, if_neg (by omega), if_neg (by omega), Int.toNat_natCast]
  exact collect_firsts firsts right

end TaskControl
