import TaskControl.Foundation.Zones
import TaskControl.Domain.Previews

/-!
# Weekday schedules

`WeekdayTimeSchedule` fires at a local time on chosen weekdays.  Its search starts at the
local date of the moment and goes on day by day.  Days are counted from the first of
January 1970; the zone is the one its name is loaded as.
-/

set_option autoImplicit false

namespace TaskControl

open IsoTime Occurrences

inductive Weekday where
  | monday
  | tuesday
  | wednesday
  | thursday
  | friday
  | saturday
  | sunday
  deriving DecidableEq, Repr

/-- `_WEEKDAY_ORDER`. -/
def weekdayOrder : List Weekday :=
  [.monday, .tuesday, .wednesday, .thursday, .friday, .saturday, .sunday]

/-- `Weekday.from_date_object`. -/
def Weekday.fromDateObject (day : Int) : Weekday :=
  weekdayOrder.getD ((day + epochOrdinal + 6) % 7).toNat .monday

example : Weekday.fromDateObject 0 = .thursday := by decide

/-- A `time` without a zone. -/
structure WallTime where
  micros : Nat
  fold : Bool
  inside : micros < 86400000000

def hour (micros : Int) : Int := micros % dayLength / (3600 * second)

def minute (micros : Int) : Int := micros % dayLength / (60 * second) % 60

structure WeekdayTimeSchedule where
  at_ : WallTime
  weekdays : List Weekday
  timezone : Zone
  skipNonexistentTimes : Bool
  chosen : weekdays ≠ []

def searchLimitDays : Nat := 1500

namespace WeekdayTimeSchedule

/-! ## The program -/

/-- `datetime.combine(local_date, self.at)`. -/
def naive (schedule : WeekdayTimeSchedule) (day : Int) : Int :=
  day * dayLength + schedule.at_.micros

/-- `does_not_exist`. -/
def doesNotExist (schedule : WeekdayTimeSchedule) (roundTripped : Int) : Bool :=
  hour roundTripped != hour schedule.at_.micros || minute roundTripped != minute schedule.at_.micros

/-- The round of the search for a date, before its time is compared with the moment. -/
def candidate (schedule : WeekdayTimeSchedule) (day : Int) : Except Raised (Option UtcTimestamp) :=
  if Weekday.fromDateObject day ∉ schedule.weekdays then return none
  else do
    let localised ← representable (schedule.timezone.resolve schedule.at_.fold (schedule.naive day))
    let roundTripped ← representable (schedule.timezone.read localised)
    if schedule.doesNotExist roundTripped && schedule.skipNonexistentTimes then return none
    else return some ⟨localised⟩

/-- The round with its date. -/
def look (schedule : WeekdayTimeSchedule) (localNow : Int) (offset : Nat) :
    Except Raised (Option UtcTimestamp) := do
  let shifted ← representable (localNow + offset * dayLength)
  schedule.candidate (shifted / dayLength)

/-- `WeekdayTimeSchedule.next_occurrence_after`. -/
def nextOccurrenceAfter (schedule : WeekdayTimeSchedule) : NextOccurrence := fun moment => do
  let localNow ← representable (schedule.timezone.read moment.value)
  search (schedule.look localNow) moment searchLimitDays 0

variable (schedule : WeekdayTimeSchedule)

/-! ## The occurrences -/

def Selected (day : Int) : Prop := Weekday.fromDateObject day ∈ schedule.weekdays

instance (day : Int) : Decidable (schedule.Selected day) :=
  inferInstanceAs (Decidable (Weekday.fromDateObject day ∈ schedule.weekdays))

/-- The occurrence of a date: its local time, the first instant that reads it, or where none does
the shifted instant. -/
structure OccursOn (day : Int) (t : UtcTimestamp) : Prop where
  date : InRange (schedule.naive day)
  selected : schedule.Selected day
  instant : InRange t.value
  time : (schedule.timezone.read t.value = schedule.naive day ∧
      ∀ other, schedule.timezone.read other = schedule.naive day → t.value ≤ other) ∨
    ((∀ other, schedule.timezone.read other ≠ schedule.naive day) ∧
      schedule.skipNonexistentTimes = false ∧
      t.value = schedule.timezone.resolve false (schedule.naive day))

def occurrences : Set UtcTimestamp := {t | ∃ day, schedule.OccursOn day t}

/-- The local date of a moment. -/
def localDate (moment : UtcTimestamp) : Int := schedule.timezone.read moment.value / dayLength

/-- The moment has a local date, and an occurrence that comes after it is that of a date before the
end of the search horizon. -/
def WithinHorizon (moment : UtcTimestamp) : Prop :=
  InRange moment.value ∧ InRange (schedule.timezone.read moment.value) ∧
    ∃ day t, schedule.OccursOn day t ∧ moment < t ∧ day < schedule.localDate moment + searchLimitDays

/-- The answer is the next occurrence, which it stays until then, and the previews list the first
occurrences. -/
structure RightAfter (moment : UtcTimestamp) : Prop where
  answer : ∃ next, schedule.nextOccurrenceAfter moment = .ok (some next) ∧
    IsNext schedule.occurrences moment next ∧
    ∀ later, moment ≤ later → later < next → schedule.WithinHorizon later →
      schedule.nextOccurrenceAfter later = .ok (some next)
  preview : ∀ found, Firsts schedule.occurrences moment found → 1 ≤ found.length →
    (found.length : Int) ≤ maxPreviewOccurrences →
    (∀ cursor ∈ (moment :: found).dropLast, schedule.WithinHorizon cursor) →
    previewOccurrences schedule.nextOccurrenceAfter moment found.length = .ok found

/-! ## The dates of a search -/

/-- The instant the search takes for a date. -/
def timeOn (day : Int) : UtcTimestamp :=
  ⟨schedule.timezone.resolve schedule.at_.fold (schedule.naive day)⟩

/-- The date is past the calendar, or its local time is not read by an instant of it and back. -/
def Broken (day : Int) : Prop :=
  ¬ InRange (schedule.naive day) ∨ schedule.Selected day ∧
    ¬ (InRange (schedule.timeOn day).value ∧
      InRange (schedule.timezone.read (schedule.timeOn day).value))

/-- The date is selected and not skipped, and its time is later than the moment. -/
structure Later (moment : UtcTimestamp) (day : Int) : Prop where
  date : InRange (schedule.naive day)
  selected : schedule.Selected day
  instant : InRange (schedule.timeOn day).value
  read : InRange (schedule.timezone.read (schedule.timeOn day).value)
  kept : schedule.skipNonexistentTimes = true →
    schedule.doesNotExist (schedule.timezone.read (schedule.timeOn day).value) = false
  later : moment < schedule.timeOn day

/-- The date is one of those from the local date of the moment to the end of the horizon. -/
def Searched (moment : UtcTimestamp) (day : Int) : Prop :=
  schedule.localDate moment ≤ day ∧ day < schedule.localDate moment + searchLimitDays

/-- A searched date before this one has its time after the moment. -/
def Preceded (moment : UtcTimestamp) (day : Int) : Prop :=
  ∃ earlier, schedule.Searched moment earlier ∧ earlier < day ∧ schedule.Later moment earlier

/-- Nothing leads the search from the next occurrence after the moment.  The dates from its local
date on offer a time that is later, and until then none of them breaks, none has a time that is no
occurrence, and none has a time later than an occurrence still to come, be it of a date before the
local date, whose occurrence was shifted past midnight, or of a date from then on. -/
structure Undisturbed (moment : UtcTimestamp) : Prop where
  offered : ∃ day, schedule.Searched moment day ∧ schedule.Later moment day
  converts : ∀ day, schedule.Searched moment day → schedule.Broken day →
    schedule.Preceded moment day
  genuine : ∀ day, schedule.Searched moment day → schedule.Later moment day →
    schedule.timeOn day ∉ schedule.occurrences → schedule.Preceded moment day
  startDay : ∀ before t, schedule.OccursOn before t → before < schedule.localDate moment →
    moment < t → ∀ day, schedule.Searched moment day → schedule.Later moment day →
      t < schedule.timeOn day → schedule.Preceded moment day
  dateOrder : ∀ other t, schedule.OccursOn other t → schedule.localDate moment ≤ other →
    moment < t → ∀ day, schedule.Searched moment day → schedule.Later moment day →
      t < schedule.timeOn day → schedule.Preceded moment day

/-! ## The search on dates -/

theorem inRange_iff (micros : Int) : InRange micros ↔
    1 - epochOrdinal ≤ micros / dayLength ∧ micros / dayLength ≤ maxOrdinal - epochOrdinal := by
  unfold InRange dayLength second
  omega

theorem naive_day (day : Int) : schedule.naive day / dayLength = day := by
  have inside := schedule.at_.inside
  unfold naive dayLength second
  omega

theorem shifted_day (localNow : Int) (offset : Nat) :
    (localNow + offset * dayLength) / dayLength = localNow / dayLength + offset := by
  unfold dayLength second
  omega

theorem shifted_inRange (localNow : Int) (offset : Nat) :
    InRange (localNow + offset * dayLength) ↔
      InRange (schedule.naive (localNow / dayLength + offset)) := by
  rw [inRange_iff, inRange_iff, naive_day, shifted_day]

theorem representable_error {micros : Int} (out : ¬ InRange micros) :
    ∃ e, representable micros = .error e := ⟨_, if_neg out⟩

/-- What the search makes of a date of the calendar. -/
theorem candidate_cases {day : Int} (date : InRange (schedule.naive day)) :
    (schedule.candidate day = .ok none ∧ ¬ schedule.Broken day ∧
        ∀ moment, ¬ schedule.Later moment day) ∨
      (schedule.candidate day = .ok (some (schedule.timeOn day)) ∧ ¬ schedule.Broken day ∧
        ∀ moment, moment < schedule.timeOn day → schedule.Later moment day) ∨
      ((∃ e, schedule.candidate day = .error e) ∧ schedule.Broken day ∧
        ∀ moment, ¬ schedule.Later moment day) := by
  unfold candidate
  by_cases selected : Weekday.fromDateObject day ∈ schedule.weekdays
  · rw [if_neg (not_not.mpr selected)]
    by_cases instant : InRange (schedule.timeOn day).value
    · have localised := representable_ok.mpr ⟨instant, rfl⟩
      by_cases read : InRange (schedule.timezone.read (schedule.timeOn day).value)
      · have sound : ¬ schedule.Broken day := by
          rintro (past | ⟨_, broken⟩)
          · exact past date
          · exact broken ⟨instant, read⟩
        have roundTripped := representable_ok.mpr ⟨read, rfl⟩
        unfold timeOn at localised roundTripped
        rw [localised]
        simp only [bind, Except.bind]
        rw [roundTripped]
        simp only
        by_cases skipped : (schedule.doesNotExist
            (schedule.timezone.read (schedule.timeOn day).value) &&
              schedule.skipNonexistentTimes) = true
        · unfold timeOn at skipped
          rw [if_pos skipped]
          refine Or.inl ⟨rfl, sound, fun moment later => ?_⟩
          obtain ⟨missing, skips⟩ := Bool.and_eq_true_iff.mp skipped
          have kept := later.kept skips
          unfold timeOn at kept
          rw [missing] at kept
          cases kept
        · refine Or.inr (Or.inl ⟨?_, sound, fun moment after => ?_⟩)
          · unfold timeOn at skipped
            rw [if_neg skipped]
            rfl
          · refine ⟨date, selected, instant, read, fun skips => ?_, after⟩
            rw [skips, Bool.and_true] at skipped
            exact Bool.eq_false_iff.mpr skipped
      · obtain ⟨e, failed⟩ := representable_error read
        unfold timeOn at localised failed
        rw [localised]
        simp only [bind, Except.bind]
        rw [failed]
        exact Or.inr (Or.inr ⟨⟨e, rfl⟩, Or.inr ⟨selected, fun both => read both.2⟩,
          fun moment later => read later.read⟩)
    · obtain ⟨e, failed⟩ := representable_error instant
      unfold timeOn at failed
      rw [failed]
      exact Or.inr (Or.inr ⟨⟨e, rfl⟩, Or.inr ⟨selected, fun both => instant both.1⟩,
        fun moment later => instant later.instant⟩)
  · rw [if_pos selected]
    refine Or.inl ⟨rfl, ?_, fun moment later => selected later.selected⟩
    rintro (past | ⟨chosen, _⟩)
    · exact past date
    · exact selected chosen

theorem look_shifted {localNow : Int} {offset : Nat}
    (date : InRange (schedule.naive (localNow / dayLength + offset))) :
    schedule.look localNow offset = schedule.candidate (localNow / dayLength + offset) := by
  have range := (schedule.shifted_inRange localNow offset).mpr date
  rw [look, representable_ok.mpr ⟨range, rfl⟩]
  simp only [bind, Except.bind]
  rw [shifted_day]

theorem look_past {localNow : Int} {offset : Nat}
    (past : ¬ InRange (schedule.naive (localNow / dayLength + offset))) :
    ∃ e, schedule.look localNow offset = .error e := by
  obtain ⟨e, failed⟩ := representable_error (mt (schedule.shifted_inRange localNow offset).mp past)
  rw [look, failed]
  exact ⟨e, rfl⟩

theorem look_fails {localNow : Int} {offset : Nat} :
    Fails (schedule.look localNow) offset ↔ schedule.Broken (localNow / dayLength + offset) := by
  by_cases date : InRange (schedule.naive (localNow / dayLength + offset))
  · rw [Fails, look_shifted schedule date]
    rcases schedule.candidate_cases date with ⟨done, sound, _⟩ | ⟨done, sound, _⟩ | ⟨failed, broken, _⟩
    · simp [done, sound]
    · simp [done, sound]
    · exact iff_of_true failed broken
  · exact iff_of_true (schedule.look_past date) (Or.inl date)

theorem look_hit {localNow : Int} {offset : Nat} {moment t : UtcTimestamp} :
    (schedule.look localNow offset = .ok (some t) ∧ moment < t) ↔
      schedule.Later moment (localNow / dayLength + offset) ∧
        t = schedule.timeOn (localNow / dayLength + offset) := by
  by_cases date : InRange (schedule.naive (localNow / dayLength + offset))
  · rw [look_shifted schedule date]
    rcases schedule.candidate_cases date with ⟨done, _, never⟩ | ⟨done, _, kept⟩ | ⟨⟨e, failed⟩, _, never⟩
    · simp [done, never moment]
    · rw [done]
      constructor
      · rintro ⟨same, after⟩
        obtain rfl := Option.some.inj (Except.ok.inj same)
        exact ⟨kept moment after, rfl⟩
      · rintro ⟨later, rfl⟩
        exact ⟨rfl, later.later⟩
    · simp [failed, never moment]
  · obtain ⟨e, failed⟩ := schedule.look_past date
    constructor
    · rintro ⟨found, _⟩
      rw [failed] at found
      cases found
    · rintro ⟨later, _⟩
      exact absurd later.date date

/-- The search answers with the time of the first date that is later than the moment, if no date
before it breaks. -/
theorem nextOccurrenceAfter_eq {moment next : UtcTimestamp}
    (localNow : InRange (schedule.timezone.read moment.value)) :
    schedule.nextOccurrenceAfter moment = .ok (some next) ↔
      ∃ day, schedule.Searched moment day ∧ schedule.Later moment day ∧
        next = schedule.timeOn day ∧ ∀ earlier, schedule.Searched moment earlier → earlier < day →
          ¬ schedule.Later moment earlier ∧ ¬ schedule.Broken earlier := by
  have run : schedule.nextOccurrenceAfter moment =
      search (schedule.look (schedule.timezone.read moment.value)) moment searchLimitDays 0 := by
    rw [nextOccurrenceAfter, representable_ok.mpr ⟨localNow, rfl⟩]
    rfl
  have hit (offset : Nat) : Hit (schedule.look (schedule.timezone.read moment.value)) moment offset ↔
      schedule.Later moment (schedule.localDate moment + offset) := by
    constructor
    · rintro ⟨t, found⟩
      exact (schedule.look_hit.mp found).1
    · intro later
      exact ⟨_, schedule.look_hit.mpr ⟨later, rfl⟩⟩
  rw [run, search_eq_some]
  constructor
  · rintro ⟨i, _, high, found, after, clear⟩
    obtain ⟨later, same⟩ := schedule.look_hit.mp ⟨found, after⟩
    refine ⟨schedule.localDate moment + i, ⟨by omega, by omega⟩, later, same, ?_⟩
    rintro earlier ⟨from_, _⟩ before
    obtain ⟨j, rfl⟩ := Int.le.dest from_
    obtain ⟨noHit, noFail⟩ := clear j (Nat.zero_le j) (by omega)
    exact ⟨mt (hit j).mpr noHit, mt schedule.look_fails.mpr noFail⟩
  · rintro ⟨day, ⟨from_, until_⟩, later, rfl, clear⟩
    obtain ⟨i, rfl⟩ := Int.le.dest from_
    obtain ⟨found, after⟩ := schedule.look_hit.mpr ⟨later, rfl⟩
    refine ⟨i, Nat.zero_le i, by omega, found, after, fun j _ before => ?_⟩
    obtain ⟨notLater, sound⟩ := clear (schedule.localDate moment + j) ⟨by omega, by omega⟩
      (by omega)
    exact ⟨mt (hit j).mp notLater, mt schedule.look_fails.mp sound⟩

/-- The answer at a moment is the next occurrence exactly where nothing leads the search from it. -/
theorem answers_iff {moment : UtcTimestamp}
    (localNow : InRange (schedule.timezone.read moment.value)) :
    (∃ next, schedule.nextOccurrenceAfter moment = .ok (some next) ∧
      IsNext schedule.occurrences moment next) ↔ schedule.Undisturbed moment := by
  constructor
  · rintro ⟨next, answer, isNext⟩
    obtain ⟨day, searched, later, rfl, clear⟩ :=
      (schedule.nextOccurrenceAfter_eq localNow).mp answer
    have preceded {other : Int} (beyond : day < other) : schedule.Preceded moment other :=
      ⟨day, searched, beyond, later⟩
    have passed {t : UtcTimestamp} (occurs : t ∈ schedule.occurrences) (after : moment < t)
        {other : Int} (searched' : schedule.Searched moment other)
        (later' : schedule.Later moment other) (beyond : t < schedule.timeOn other) :
        schedule.Preceded moment other := by
      rcases lt_trichotomy day other with after' | rfl | before
      · exact preceded after'
      · exact absurd (isNext.2 ⟨occurs, after⟩) (not_le.mpr beyond)
      · exact absurd later' (clear other searched' before).1
    constructor
    · exact ⟨day, searched, later⟩
    · intro other searched' broken
      rcases lt_trichotomy day other with after | rfl | before
      · exact preceded after
      · rcases broken with past | ⟨_, unread⟩
        · exact absurd later.date past
        · exact absurd ⟨later.instant, later.read⟩ unread
      · exact absurd broken (clear other searched' before).2
    · intro other searched' later' wrong
      rcases lt_trichotomy day other with after | rfl | before
      · exact preceded after
      · exact absurd isNext.1.1 wrong
      · exact absurd later' (clear other searched' before).1
    · intro before t occurs _ after other searched' later' beyond
      exact passed ⟨before, occurs⟩ after searched' later' beyond
    · intro date t occurs _ after other searched' later' beyond
      exact passed ⟨date, occurs⟩ after searched' later' beyond
  · intro undisturbed
    obtain ⟨day, ⟨searched, later⟩, least⟩ := Int.exists_least_of_bdd
      ⟨schedule.localDate moment, fun _ holds => holds.1.1⟩ undisturbed.offered
    have first : ¬ schedule.Preceded moment day := by
      rintro ⟨earlier, searched', before, later'⟩
      have notBefore := least earlier ⟨searched', later'⟩
      omega
    refine ⟨schedule.timeOn day, ?_, ⟨?_, later.later⟩, ?_⟩
    · refine (schedule.nextOccurrenceAfter_eq localNow).mpr ⟨day, searched, later, rfl, ?_⟩
      intro earlier searched' before
      constructor
      · intro later'
        have notBefore := least earlier ⟨searched', later'⟩
        omega
      · intro broken
        obtain ⟨other, inside, sooner, later'⟩ := undisturbed.converts earlier searched' broken
        have notBefore := least other ⟨inside, later'⟩
        omega
    · by_contra wrong
      exact first (undisturbed.genuine day searched later wrong)
    · rintro t ⟨⟨date, occurs⟩, after⟩
      by_contra beyond
      rcases lt_or_ge date (schedule.localDate moment) with before | from_
      · exact first (undisturbed.startDay date t occurs before after day searched later
          (not_le.mp beyond))
      · exact first (undisturbed.dateOrder date t occurs from_ after day searched later
          (not_le.mp beyond))

/-- The search is right after every moment exactly where it is disturbed after none. -/
theorem gives_next_occurrence_iff :
    (∀ moment, schedule.WithinHorizon moment → schedule.RightAfter moment) ↔
      ∀ moment, schedule.WithinHorizon moment → schedule.Undisturbed moment := by
  constructor
  · intro right moment within
    obtain ⟨next, answer, isNext, _⟩ := (right moment within).answer
    exact (schedule.answers_iff within.2.1).mp ⟨next, answer, isNext⟩
  · intro undisturbed moment within
    have answers (cursor : UtcTimestamp) (inside : schedule.WithinHorizon cursor)
        (next : UtcTimestamp) (isNext : IsNext schedule.occurrences cursor next) :
        schedule.nextOccurrenceAfter cursor = .ok (some next) := by
      obtain ⟨found, answer, isFound⟩ :=
        (schedule.answers_iff inside.2.1).mpr (undisturbed cursor inside)
      rw [isNext.unique isFound]
      exact answer
    obtain ⟨next, answer, isNext⟩ := (schedule.answers_iff within.2.1).mpr (undisturbed moment within)
    constructor
    · refine ⟨next, answer, isNext, fun later notBefore before inside => ?_⟩
      exact answers later inside next (isNext.stable notBefore before)
    · intro found firsts some_ few inside
      exact previewOccurrences_firsts firsts some_ few fun cursor asked next isNext _ =>
        answers cursor (inside cursor asked) next isNext

/-! ## Zones whose changes stay within a date -/

/-- The local date never goes back, each occurrence falls on its own date, and a local time that
does not exist is noticed where it is to be skipped. -/
structure Settled : Prop where
  fold : schedule.at_.fold = false
  forward : ∀ earlier later, earlier ≤ later → schedule.localDate earlier ≤ schedule.localDate later
  sameDay : ∀ day t, schedule.OccursOn day t → schedule.localDate t = day
  noticed : ∀ day, schedule.skipNonexistentTimes = true →
    (∀ t, schedule.timezone.read t ≠ schedule.naive day) →
    schedule.doesNotExist (schedule.timezone.read (schedule.timeOn day).value) = true

variable {schedule}

theorem doesNotExist_naive (day : Int) : schedule.doesNotExist (schedule.naive day) = false := by
  have inside := schedule.at_.inside
  have rest : schedule.naive day % dayLength = schedule.at_.micros % dayLength := by
    unfold naive dayLength second
    omega
  simp [doesNotExist, hour, minute, rest]

/-- The occurrence of a date is the instant that the search takes for it. -/
theorem OccursOn.timeOn (fold : schedule.at_.fold = false) {day : Int} {t : UtcTimestamp}
    (occurs : schedule.OccursOn day t) : t = schedule.timeOn day := by
  rw [WeekdayTimeSchedule.timeOn, fold]
  apply congrArg UtcTimestamp.mk
  rcases occurs.time with ⟨reads, least⟩ | ⟨_, _, shifted⟩
  · obtain ⟨again, first⟩ := (schedule.timezone.resolves (schedule.naive day)).earliest t.value reads
    exact le_antisymm (least _ again) first
  · exact shifted

theorem OccursOn.later (fold : schedule.at_.fold = false) {day : Int} {t moment : UtcTimestamp}
    (occurs : schedule.OccursOn day t) (sound : ¬ schedule.Broken day) (after : moment < t) :
    schedule.Later moment day := by
  obtain rfl := occurs.timeOn fold
  have converts := fun unread => sound (Or.inr ⟨occurs.selected, unread⟩)
  refine ⟨occurs.date, occurs.selected, occurs.instant, (not_not.mp converts).2, ?_, after⟩
  intro skips
  rcases occurs.time with ⟨reads, _⟩ | ⟨_, kept, _⟩
  · rw [reads]
    exact doesNotExist_naive day
  · rw [skips] at kept
    cases kept

theorem Settled.occurs (settled : schedule.Settled) {day : Int} {moment : UtcTimestamp}
    (later : schedule.Later moment day) : schedule.OccursOn day (schedule.timeOn day) := by
  refine ⟨later.date, later.selected, later.instant, ?_⟩
  have resolves := schedule.timezone.resolves (schedule.naive day)
  by_cases exists_ : ∃ t, schedule.timezone.read t = schedule.naive day
  · obtain ⟨t, reads⟩ := exists_
    rw [WeekdayTimeSchedule.timeOn, settled.fold]
    exact Or.inl ⟨(resolves.earliest t reads).1, fun other same => (resolves.earliest other same).2⟩
  · have missing := not_exists.mp exists_
    refine Or.inr ⟨missing, ?_, by rw [WeekdayTimeSchedule.timeOn, settled.fold]⟩
    cases skips : schedule.skipNonexistentTimes with
    | false => rfl
    | true =>
        have noticed := settled.noticed day skips missing
        rw [later.kept skips] at noticed
        cases noticed

/-- There nothing leads the search from the next occurrence, as long as the dates convert. -/
theorem Settled.undisturbed (settled : schedule.Settled) {moment : UtcTimestamp}
    (within : schedule.WithinHorizon moment)
    (sound : ∀ day, schedule.Searched moment day → ¬ schedule.Broken day) :
    schedule.Undisturbed moment := by
  have searched {day : Int} {t : UtcTimestamp} (occurs : schedule.OccursOn day t)
      (after : moment < t) : schedule.localDate moment ≤ day := by
    rw [← settled.sameDay day t occurs]
    exact settled.forward moment t after.le
  constructor
  · obtain ⟨_, _, day, t, occurs, after, until_⟩ := within
    have inside : schedule.Searched moment day := ⟨searched occurs after, until_⟩
    exact ⟨day, inside, occurs.later settled.fold (sound day inside) after⟩
  · intro day inside broken
    exact absurd broken (sound day inside)
  · intro day _ later wrong
    exact absurd ⟨day, settled.occurs later⟩ wrong
  · intro before t occurs early after
    have from_ := searched occurs after
    omega
  · intro other t occurs from_ after day inside later beyond
    have order := settled.forward t (schedule.timeOn day) beyond.le
    rw [settled.sameDay other t occurs, settled.sameDay day _ (settled.occurs later)] at order
    rcases Int.lt_or_eq_of_le order with before | rfl
    · have inside' : schedule.Searched moment other := ⟨from_, lt_trans before inside.2⟩
      exact ⟨other, inside', before, occurs.later settled.fold (sound other inside') after⟩
    · rw [occurs.timeOn settled.fold] at beyond
      exact absurd beyond (lt_irrefl _)

end WeekdayTimeSchedule

/-! ## A change of the clock late in the evening -/

namespace Toronto

/-- Half past eleven in the evening of 30 March 1919. -/
def change : Int := -1601753400000000

/-- The clock is put forward by an hour, to half past midnight. -/
def offset (t : Int) : Int := if t < change then -18000000000 else -14400000000

def resolve (fold : Bool) (wall : Int) : Int :=
  if wall < change - 18000000000 ∨ (wall < change - 14400000000 ∧ fold = false) then
    wall + 18000000000
  else wall + 14400000000

theorem near (t : Int) : -dayLength < offset t ∧ offset t < dayLength := by
  unfold offset dayLength second
  split <;> omega

theorem resolves (wall : Int) : Resolves offset wall (resolve false wall) (resolve true wall) := by
  constructor
  · intro t
    simp only [localTime, offset, resolve]
    split_ifs <;> omega
  · intro t
    simp only [localTime, offset, resolve]
    split_ifs <;> omega
  · intro missing
    refine ⟨change, ?_⟩
    have before := missing (wall + 18000000000)
    have after := missing (wall + 14400000000)
    simp only [localTime, offset] at before after
    simp only [localTime, offset, resolve, and_true, and_false, or_false, reduceCtorEq]
    split_ifs at before after ⊢ <;> omega

def zone : Zone := ⟨offset, resolve, near, resolves⟩

theorem at_inside : 85500000000 < 86400000000 := by decide

theorem sunday_chosen : [Weekday.sunday] ≠ [] := List.cons_ne_nil _ _

/-- A quarter to midnight on Sundays. -/
def schedule : WeekdayTimeSchedule where
  at_ := ⟨85500000000, false, at_inside⟩
  weekdays := [.sunday]
  timezone := zone
  skipNonexistentTimes := false
  chosen := sunday_chosen

/-- Ten minutes after the change. -/
def moment : UtcTimestamp := ⟨-1601752800000000⟩

/-- Five minutes later the occurrence of that Sunday is due. -/
def due : UtcTimestamp := ⟨-1601752500000000⟩

/-- The occurrence of the Sunday after it. -/
def answered : UtcTimestamp := ⟨-1601151300000000⟩

theorem due_occurs : schedule.OccursOn (-18540) due := by
  refine ⟨by decide +kernel, by decide +kernel, by decide +kernel, Or.inr ⟨?_, rfl, ?_⟩⟩
  · intro other
    have same : schedule.naive (-18540) = -1601770500000000 := by decide +kernel
    rw [same]
    simp only [schedule, zone, Zone.read, localTime, offset, change]
    split_ifs <;> omega
  · decide +kernel

theorem answered_occurs : schedule.OccursOn (-18533) answered := by
  refine ⟨by decide +kernel, by decide +kernel, by decide +kernel, Or.inl ⟨by decide +kernel, ?_⟩⟩
  intro other reads
  have first : schedule.timezone.resolve false (schedule.naive (-18533)) = answered.value := by
    decide +kernel
  rw [← first]
  exact ((zone.resolves (schedule.naive (-18533))).earliest other reads).2

theorem answers : schedule.nextOccurrenceAfter moment = .ok (some answered) := by decide +kernel

/-- The search starts on Monday and passes over the occurrence that is due. -/
theorem due_passed_over :
    ¬ ∀ moment, schedule.WithinHorizon moment → schedule.RightAfter moment := by
  intro right
  have within : schedule.WithinHorizon moment :=
    ⟨by decide +kernel, by decide +kernel, -18533, answered, answered_occurs, by decide +kernel,
      by decide +kernel⟩
  obtain ⟨next, answer, isNext, _⟩ := (right moment within).answer
  obtain rfl : answered = next := Option.some.inj (Except.ok.inj (answers.symm.trans answer))
  exact absurd (isNext.2 ⟨⟨-18540, due_occurs⟩, by decide +kernel⟩) (by decide +kernel)

end Toronto

end TaskControl
