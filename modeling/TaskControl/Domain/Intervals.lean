import TaskControl.Domain.Previews

/-!
# Interval schedules

`IntervalSchedule` fires at its anchor and every interval after it.  The number of
intervals that have passed is found by a floor division of two numbers of seconds, which
are floating-point numbers; the division is a parameter here, exact for spans that are
shorter than 2^53 microseconds.
-/

set_option autoImplicit false

namespace TaskControl

open IsoTime Occurrences

structure IntervalSchedule where
  every : Duration
  anchor : UtcTimestamp
  nonzero : every.seconds ≠ 0

namespace IntervalSchedule

/-- `every.as_timedelta()` in microseconds. -/
def step (schedule : IntervalSchedule) : Int := 1000000 * schedule.every.seconds

/-- `int(elapsed.total_seconds() // step.total_seconds())`, on microseconds, is the exact
quotient where both spans are exact as floating-point numbers. -/
def ExactBelow (floorDivide : Int → Int → Int) : Prop :=
  ∀ elapsed step : Int, 0 ≤ elapsed → elapsed < 2 ^ 53 → 0 < step → step < 2 ^ 53 →
    floorDivide elapsed step = elapsed / step

/-- `IntervalSchedule.next_occurrence_after`. -/
def nextOccurrenceAfter (floorDivide : Int → Int → Int) (schedule : IntervalSchedule) :
    NextOccurrence := fun moment => do
  if moment < schedule.anchor then return some schedule.anchor
  else
    let elapsed := moment.value - schedule.anchor.value
    let completed := floorDivide elapsed schedule.step
    let candidate ← representable (schedule.anchor.value + schedule.step * (completed + 1))
    return some ⟨candidate⟩

/-- The instants at which the schedule fires. -/
def multiples (schedule : IntervalSchedule) : Set UtcTimestamp :=
  {t | ∃ k : Nat, t.value = schedule.anchor.value + k * schedule.step}

variable (schedule : IntervalSchedule)

theorem step_pos : 0 < schedule.step := by
  have nonzero := schedule.nonzero
  unfold step
  omega

theorem step_lt : schedule.step < 2 ^ 53 := by
  have bounded := schedule.every.bounded
  unfold step
  unfold maxDurationSeconds at bounded
  omega

/-- The instant after the intervals that have passed since the anchor. -/
def following (moment : UtcTimestamp) : UtcTimestamp :=
  if moment < schedule.anchor then schedule.anchor
  else
    ⟨schedule.anchor.value +
      schedule.step * ((moment.value - schedule.anchor.value) / schedule.step + 1)⟩

theorem following_isNext (moment : UtcTimestamp) :
    IsNext schedule.multiples moment (schedule.following moment) := by
  have positive := schedule.step_pos
  unfold following
  split_ifs with early
  · refine ⟨⟨⟨0, by simp⟩, early⟩, ?_⟩
    rintro t ⟨⟨k, value⟩, _⟩
    have passed : 0 ≤ (k : Int) * schedule.step := by positivity
    rw [UtcTimestamp.le_def]
    omega
  · have since : 0 ≤ moment.value - schedule.anchor.value := by
      rw [UtcTimestamp.lt_def] at early
      omega
    have quotient := Int.ediv_nonneg since positive.le
    have whole := Int.mul_ediv_add_emod (moment.value - schedule.anchor.value) schedule.step
    have rest := Int.emod_lt_of_pos (moment.value - schedule.anchor.value) positive
    have rest_nonneg := Int.emod_nonneg (moment.value - schedule.anchor.value) positive.ne'
    generalize (moment.value - schedule.anchor.value) / schedule.step = passed at *
    refine ⟨⟨⟨(passed + 1).toNat, ?_⟩, ?_⟩, ?_⟩
    · rw [Int.toNat_of_nonneg (by omega), mul_comm]
    · rw [UtcTimestamp.lt_def]
      simp only [mul_add, mul_one]
      omega
    · rintro t ⟨⟨k, value⟩, after⟩
      rw [UtcTimestamp.lt_def] at after
      have beyond : schedule.step * passed < schedule.step * k := by
        rw [mul_comm schedule.step (k : Int)]
        omega
      have more : passed + 1 ≤ k := lt_of_mul_lt_mul_left beyond positive.le
      have enough := mul_le_mul_of_nonneg_left more positive.le
      rw [UtcTimestamp.le_def]
      simp only
      rw [value, mul_comm (k : Int)]
      omega

/-- A multiple of the interval is followed by the next one. -/
theorem following_multiple {moment : UtcTimestamp} (fires : moment ∈ schedule.multiples) :
    (schedule.following moment).value = moment.value + schedule.step := by
  obtain ⟨k, value⟩ := fires
  have positive := schedule.step_pos
  have passed : 0 ≤ (k : Int) * schedule.step := by positivity
  have late : ¬ moment < schedule.anchor := by
    rw [UtcTimestamp.lt_def]
    omega
  have quotient : (moment.value - schedule.anchor.value) / schedule.step = k := by
    rw [value, add_sub_cancel_left, Int.mul_ediv_cancel _ positive.ne']
  rw [following, if_neg late, quotient, value]
  ring

/-- The search answers with the instant that follows. -/
theorem nextOccurrenceAfter_following {floorDivide : Int → Int → Int}
    (exact : ExactBelow floorDivide) {moment : UtcTimestamp}
    (near : |moment.value - schedule.anchor.value| < 2 ^ 53)
    (range : InRange (schedule.following moment).value) :
    schedule.nextOccurrenceAfter floorDivide moment = .ok (some (schedule.following moment)) := by
  unfold nextOccurrenceAfter
  unfold following at range ⊢
  split_ifs with early
  · rfl
  · rw [if_neg early] at range
    have since : 0 ≤ moment.value - schedule.anchor.value := by
      rw [UtcTimestamp.lt_def] at early
      omega
    rw [abs_of_nonneg since] at near
    have quotient := exact _ _ since near schedule.step_pos schedule.step_lt
    simp only [quotient]
    rw [representable_ok.mpr ⟨range, rfl⟩]
    rfl

/-! ## The first instants -/

/-- The first instants after a moment. -/
def series : Nat → UtcTimestamp → List UtcTimestamp
  | 0, _ => []
  | count + 1, cursor => schedule.following cursor :: series count (schedule.following cursor)

theorem series_length (count : Nat) (moment : UtcTimestamp) :
    (schedule.series count moment).length = count := by
  induction count generalizing moment with
  | zero => rfl
  | succ count ih => rw [series, List.length_cons, ih]

theorem series_firsts (count : Nat) (moment : UtcTimestamp) :
    Firsts schedule.multiples moment (schedule.series count moment) := by
  induction count generalizing moment with
  | zero => exact Firsts.nil _ _
  | succ count ih => exact Firsts.cons (schedule.following_isNext moment) (ih _)

theorem series_spaced (count : Nat) (moment : UtcTimestamp) :
    (schedule.series count moment).IsChain
      fun earlier later => later.value = earlier.value + schedule.step := by
  induction count generalizing moment with
  | zero => exact List.isChain_nil
  | succ count ih =>
      have fires := (schedule.following_isNext moment).1.1
      rw [series]
      cases count with
      | zero => exact List.isChain_singleton _
      | succ more =>
          refine List.isChain_cons_cons.mpr ⟨schedule.following_multiple fires, ?_⟩
          exact ih (schedule.following moment)

theorem gives_next_multiples (floorDivide : Int → Int → Int)
    (exact : ExactBelow floorDivide) (schedule : IntervalSchedule) :
    (∀ moment : UtcTimestamp, |moment.value - schedule.anchor.value| < 2 ^ 53 →
      ∃ next, IsNext schedule.multiples moment next ∧
        (InRange next.value →
          schedule.nextOccurrenceAfter floorDivide moment = .ok (some next))) ∧
    ∀ (after : UtcTimestamp) (count : Nat), 1 ≤ count → count ≤ maxPreviewOccurrences →
      ∃ found, found.length = count ∧ Firsts schedule.multiples after found ∧
        found.IsChain (fun earlier later => later.value = earlier.value + schedule.step) ∧
        ((∀ t ∈ found, InRange t.value) →
          (∀ cursor ∈ (after :: found).dropLast,
            |cursor.value - schedule.anchor.value| < 2 ^ 53) →
          previewOccurrences (schedule.nextOccurrenceAfter floorDivide) after count =
            .ok found) := by
  constructor
  · intro moment near
    exact ⟨schedule.following moment, schedule.following_isNext moment,
      schedule.nextOccurrenceAfter_following exact near⟩
  · intro after count some_ few
    have firsts := schedule.series_firsts count after
    have length := schedule.series_length count after
    refine ⟨schedule.series count after, length, firsts, schedule.series_spaced count after, ?_⟩
    intro range near
    have listed := @previewOccurrences_firsts (schedule.nextOccurrenceAfter floorDivide) _ after _
      firsts (by omega) (by omega) (by
        intro cursor asked next isNext found
        obtain rfl := isNext.unique (schedule.following_isNext cursor)
        exact schedule.nextOccurrenceAfter_following exact (near cursor asked) (range _ found))
    rw [length] at listed
    exact listed

/-- The first of January 1970. -/
def epoch : UtcTimestamp := ⟨0⟩

theorem quarterHour_bounded : 900 ≤ maxDurationSeconds := by decide

theorem quarterHour_nonzero : 900 ≠ 0 := by decide

/-- Every quarter of an hour. -/
def quarterly : IntervalSchedule where
  every := ⟨900, quarterHour_bounded⟩
  anchor := epoch
  nonzero := quarterHour_nonzero

/-- Asked at a quarter of an hour, the schedule answers with the one after it. -/
theorem gives_next_multiples_quarterly :
    (∃ next, IsNext quarterly.multiples ⟨900000000⟩ next ∧
      quarterly.nextOccurrenceAfter (· / ·) ⟨900000000⟩ = .ok (some next)) ∧
    ∃ found, Firsts quarterly.multiples epoch found ∧
      previewOccurrences (quarterly.nextOccurrenceAfter (· / ·)) epoch 3 = .ok found := by
  obtain ⟨single, listed⟩ :=
    gives_next_multiples (· / ·) (fun _ _ _ _ _ _ => rfl) quarterly
  constructor
  · obtain ⟨next, isNext, answer⟩ := single ⟨900000000⟩ (by decide)
    have same := isNext.unique (quarterly.following_isNext ⟨900000000⟩)
    exact ⟨next, isNext, answer (by rw [same]; decide)⟩
  · obtain ⟨found, length, firsts, _, answer⟩ := listed epoch 3 (by decide) (by decide)
    have same := firsts.unique (quarterly.series_firsts 3 epoch) length
    exact ⟨found, firsts, answer (by rw [same]; decide) (by rw [same]; decide)⟩

end IntervalSchedule

end TaskControl
