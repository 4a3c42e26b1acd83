import TaskControl.Foundation.CodePoints

/-!
# Instants in ISO 8601

The calendar of Python's `datetime`, its `isoformat` for an instant in UTC, and
`fromisoformat` as far as the result is aware of an offset.  Instants are
microseconds since 1970; days are numbered from the first of January of year 1.
The reader of times is that of the C implementation: its text ends with a NUL,
and a NUL inside the text ends it as well.
-/

set_option autoImplicit false

namespace IsoTime

open PythonText

/-! ## The calendar -/

def isLeap (year : Nat) : Bool := year % 4 == 0 && (year % 100 != 0 || year % 400 == 0)

def daysInMonth (leap : Bool) (month : Nat) : Nat :=
  if month = 2 then if leap then 29 else 28
  else if month = 4 ∨ month = 6 ∨ month = 9 ∨ month = 11 then 30
  else 31

/-- `_DAYS_BEFORE_MONTH`, with the leap day. -/
def daysBeforeMonth (leap : Bool) (month : Nat) : Nat :=
  ([0, 0, 31, 59, 90, 120, 151, 181, 212, 243, 273, 304, 334].getD month 0) +
    (if 2 < month ∧ leap = true then 1 else 0)

def daysBeforeYear (year : Nat) : Nat :=
  (year - 1) * 365 + (year - 1) / 4 - (year - 1) / 100 + (year - 1) / 400

def maxYear : Nat := 9999

/-- The number of the last day of year 9999. -/
def maxOrdinal : Nat := 3652059

structure Date where
  year : Nat
  month : Nat
  day : Nat
  deriving DecidableEq

def Date.Valid (date : Date) : Prop :=
  1 ≤ date.year ∧ date.year ≤ maxYear ∧ 1 ≤ date.month ∧ date.month ≤ 12 ∧ 1 ≤ date.day ∧
    date.day ≤ daysInMonth (isLeap date.year) date.month

instance (date : Date) : Decidable date.Valid := by
  unfold Date.Valid
  infer_instance

/-- `ymd_to_ord`. -/
def Date.ordinal (date : Date) : Nat :=
  daysBeforeYear date.year + daysBeforeMonth (isLeap date.year) date.month + date.day

/-- The month and the day of a day of the year, both from the day's number that starts at 0. -/
def monthDay (leap : Bool) (n : Nat) : Nat × Nat :=
  let month := (n + 50) / 32
  if daysBeforeMonth leap month ≤ n then (month, n - daysBeforeMonth leap month + 1)
  else (month - 1, n - (daysBeforeMonth leap month - daysInMonth leap (month - 1)) + 1)

/-- The end of `ord_to_ymd`, from the numbers of full cycles of 400, 100, 4 and 1 years and the
number of days behind them. -/
def dateFrom (n400 n100 n4 n1 n : Nat) : Date :=
  let year := n400 * 400 + 1 + n100 * 100 + n4 * 4 + n1
  if n1 = 4 ∨ n100 = 4 then ⟨year - 1, 12, 31⟩
  else
    let leap := n1 == 3 && (n4 != 24 || n100 == 3)
    ⟨year, (monthDay leap n).1, (monthDay leap n).2⟩

/-- `ord_to_ymd`. -/
def dateOf (ordinal : Nat) : Date :=
  let n400 := (ordinal - 1) / 146097
  let in400 := (ordinal - 1) % 146097
  let in100 := in400 % 36524
  let in4 := in100 % 1461
  dateFrom n400 (in400 / 36524) (in100 / 1461) (in4 / 365) (in4 % 365)

/-- The Monday of the first ISO week (`iso_week1_monday`). -/
def firstMonday (year : Nat) : Nat :=
  let firstDay := (Date.mk year 1 1).ordinal
  let firstWeekday := (firstDay + 6) % 7
  firstDay - firstWeekday + (if 3 < firstWeekday then 7 else 0)

/-- `iso_to_ymd`, with the number of the day as the result. -/
def weekOrdinal (year week day : Nat) : Option Nat :=
  let firstWeekday := ((Date.mk year 1 1).ordinal + 6) % 7
  let long := firstWeekday == 3 || (firstWeekday == 2 && isLeap year)
  let ordinal := firstMonday year + (week - 1) * 7 + (day - 1)
  if 1 ≤ year ∧ year ≤ maxYear ∧ 1 ≤ week ∧ (week < 53 ∨ (week = 53 ∧ long = true)) ∧ 1 ≤ day ∧
      day < 8 ∧ ordinal ≤ maxOrdinal then some ordinal
  else none

/-! ## Instants -/

def second : Int := 1000000

def dayLength : Int := 86400 * second

/-- The number of the first of January 1970. -/
def epochOrdinal : Int := 719163

/-- An instant that a `datetime` can hold. -/
def InRange (micros : Int) : Prop :=
  (1 - epochOrdinal) * dayLength ≤ micros ∧ micros < (maxOrdinal + 1 - epochOrdinal) * dayLength

instance (micros : Int) : Decidable (InRange micros) := by
  unfold InRange
  infer_instance

/-- A decimal of fixed width. -/
def padded : Nat → Nat → Text
  | 0, _ => []
  | count + 1, n => Nat.digitChar (n / 10 ^ count % 10) :: padded count n

/-- `isoformat` of a time of the day. -/
def timeText (micros : Nat) : Text :=
  padded 2 (micros / 3600000000) ++ ':' :: padded 2 (micros / 60000000 % 60) ++
    ':' :: padded 2 (micros / 1000000 % 60) ++
    (if micros % 1000000 = 0 then [] else '.' :: padded 6 (micros % 1000000))

def dateText (date : Date) : Text :=
  padded 4 date.year ++ '-' :: padded 2 date.month ++ '-' :: padded 2 date.day

/-- `isoformat` of an instant in UTC. -/
def isoformat (micros : Int) : Text :=
  dateText (dateOf (micros / dayLength + epochOrdinal).toNat) ++
    'T' :: timeText (micros % dayLength).toNat ++ "+00:00".toList

/-! ## Reading -/

def nul : Char := Char.ofNat 0

/-- The character that a pointer to the text sees. -/
def peek (t : Text) : Char := t.headD nul

/-- `parse_digits`. -/
def readDigits : Nat → Nat → Text → Option (Nat × Text)
  | 0, total, t => some (total, t)
  | _ + 1, _, [] => none
  | count + 1, total, c :: rest =>
      if c.isDigit then readDigits count (10 * total + (c.toNat - 48)) rest else none

def charAt (t : Text) (i : Nat) : Char := t.getD i nul

/-- `_find_isoformat_datetime_separator`. -/
def separatorAt (t : Text) : Option Nat :=
  if t.length = 7 then some 7
  else if charAt t 4 = '-' then
    if charAt t 5 = 'W' then
      if charAt t 8 = '-' then
        if t.length = 9 then none
        else if (charAt t 10).isDigit then some 8
        else some 10
      else some 8
    else some 10
  else if charAt t 4 = 'W' then
    let stop := 7 + ((t.drop 7).takeWhile Char.isDigit).length
    if stop < 9 then some stop
    else if stop % 2 = 0 then some 7
    else some 8
  else some 8

/-- A hyphen, where the parts of the date are separated by them. -/
def readHyphen (separated : Bool) (t : Text) : Option Text :=
  if separated then if peek t = '-' then some t.tail else none else some t

/-- The week and the day of the week of a date that reaches up to `stop`. -/
def readWeek (year : Nat) (separated : Bool) (stop : Nat) (t : Text) : Option Nat :=
  match readDigits 2 0 t with
  | none => none
  | some (week, t) =>
      if (if separated then 8 else 7) < stop then
        ((readHyphen separated t).bind fun t => readDigits 1 0 t).bind fun day =>
          weekOrdinal year week day.1
      else weekOrdinal year week 1

def readMonth (year : Nat) (separated : Bool) (t : Text) : Option Nat :=
  match readDigits 2 0 t with
  | none => none
  | some (month, t) =>
      ((readHyphen separated t).bind fun t => readDigits 2 0 t).bind fun day =>
        if (Date.mk year month day.1).Valid then some (Date.mk year month day.1).ordinal else none

/-- `parse_isoformat_date`, with the number of the day as the result. -/
def readDate (stop : Nat) (t : Text) : Option Nat :=
  match readDigits 4 0 t with
  | none => none
  | some (year, t) =>
      let separated := peek t == '-'
      let t := if separated then t.tail else t
      if peek t = 'W' then readWeek year separated stop t.tail else readMonth year separated t

/-- Up to three fields and a fraction; `ended` says that nothing but a NUL follows. -/
structure Clock where
  fields : List Nat
  micros : Nat
  ended : Bool
  deriving DecidableEq

namespace Clock

def hours (clock : Clock) : Nat := clock.fields.getD 0 0

def minutes (clock : Clock) : Nat := clock.fields.getD 1 0

def seconds (clock : Clock) : Nat := clock.fields.getD 2 0

def total (clock : Clock) : Int := 3600 * clock.hours + 60 * clock.minutes + clock.seconds

end Clock

/-- The first six digits of a fraction; further digits are skipped. -/
def readFraction (stop : Char) (fields : List Nat) (t : Text) : Option Clock :=
  let count := min 6 t.length
  match readDigits count 0 t with
  | none => none
  | some (value, rest) =>
      let rest := rest.dropWhile Char.isDigit
      some ⟨fields, value * 10 ^ (6 - count), rest.headD stop == nul⟩

/-- `parse_hh_mm_ss_ff` on the text in front of the character `stop`.  The first number counts the
fields still to come; whether colons separate them shows behind the first one.  Behind a field a
single character may end the text, if it takes one byte. -/
def readClock (stop : Char) : Nat → Option Bool → List Nat → Text → Option Clock
  | 0, _, fields, t => readFraction stop fields t
  | more + 1, separated, fields, t =>
      match readDigits 2 0 t with
      | none => none
      | some (value, []) => some ⟨fields ++ [value], 0, stop == nul⟩
      | some (value, [c]) =>
          if c.toNat < 0x80 then some ⟨fields ++ [value], 0, c == nul⟩ else none
      | some (value, c :: rest) =>
          let colons := separated.getD (c == ':')
          if colons && c == ':' then readClock stop more (some colons) (fields ++ [value]) rest
          else if c = '.' ∨ c = ',' then readFraction stop (fields ++ [value]) rest
          else if colons then none
          else readClock stop more (some colons) (fields ++ [value]) (c :: rest)

def isZoneMark (c : Char) : Bool := c == '+' || c == '-' || c == 'Z'

/-- The offset in microseconds: none of a day or more, and zero where the seconds are. -/
def zoneOffset (negative : Bool) (clock : Clock) : Option Int :=
  let size := clock.total * second + clock.micros
  if clock.total = 0 then some 0
  else if size < dayLength then some (if negative then -size else size)
  else none

/-- `parse_isoformat_time` of a time with an offset. -/
def readTime (t : Text) : Option (Clock × Int) :=
  match t.dropWhile fun c => !isZoneMark c with
  | [] => none
  | mark :: zone =>
      (readClock mark 3 none [] (t.takeWhile fun c => !isZoneMark c)).bind fun clock =>
        if mark = 'Z' then if peek zone = nul then some (clock, 0) else none
        else
          (readClock nul 3 none [] zone).bind fun offset =>
            if offset.ended then (zoneOffset (mark == '-') offset).map fun offset => (clock, offset)
            else none

/-- The first of the places where a separator may stand that has a surrogate. -/
def sanitized (s : Points) : Points :=
  match [7, 8, 10].find? fun i => (s[i]?).any fun p => isHigh p || isLow p with
  | some i => s.set i (pointOf 'T')
  | none => s

/-- The instant of a text with an offset. -/
def readText (t : Text) : Option Int :=
  (separatorAt t).bind fun stop =>
    (readDate stop t).bind fun ordinal =>
      (readTime (t.drop (stop + 1))).bind fun time =>
        if time.1.hours < 24 ∧ time.1.minutes < 60 ∧ time.1.seconds < 60 then
          some ((ordinal - epochOrdinal) * dayLength + time.1.total * second + time.1.micros - time.2)
        else none

/-- `fromisoformat`: the instant, where the string has one with an offset. -/
def fromisoformat (s : Points) : Option Int :=
  if s.length < 7 then none else (textOf (sanitized s)).bind readText

/-! ## Days and dates -/

theorem isLeap_iff {year : Nat} :
    isLeap year = true ↔ year % 4 = 0 ∧ (year % 100 ≠ 0 ∨ year % 400 = 0) := by
  simp [isLeap]

theorem monthDay_spec : ∀ leap : Bool, ∀ n < if leap then 366 else 365,
    1 ≤ (monthDay leap n).1 ∧ (monthDay leap n).1 ≤ 12 ∧ 1 ≤ (monthDay leap n).2 ∧
      (monthDay leap n).2 ≤ daysInMonth leap (monthDay leap n).1 ∧
      daysBeforeMonth leap (monthDay leap n).1 + (monthDay leap n).2 = n + 1 := by
  decide +kernel

section

variable (n400 : Nat) {n100 n4 n1 : Nat} (century : n100 ≤ 3) (cycle : n4 ≤ 24) (year : n1 ≤ 3)

include century cycle year in
theorem daysBeforeYear_parts :
    daysBeforeYear (n400 * 400 + 1 + n100 * 100 + n4 * 4 + n1) =
      n400 * 146097 + n100 * 36524 + n4 * 1461 + n1 * 365 := by
  unfold daysBeforeYear
  omega

include century cycle year in
theorem isLeap_parts :
    isLeap (n400 * 400 + 1 + n100 * 100 + n4 * 4 + n1) =
      (n1 == 3 && (n4 != 24 || n100 == 3)) := by
  rw [Bool.eq_iff_iff, isLeap_iff]
  simp only [Bool.and_eq_true, Bool.or_eq_true, beq_iff_eq, bne_iff_ne]
  omega

end

/-- The day before the first of January is the last of December of a leap year, at the end of a
cycle of 4 or of 400 years. -/
theorem leapEnd_spec {year : Nat} (leap : isLeap year = true) (positive : 1 ≤ year)
    (bounded : year ≤ maxYear) :
    (Date.mk year 12 31).Valid ∧ (Date.mk year 12 31).ordinal = daysBeforeYear year + 366 := by
  constructor
  · refine ⟨positive, bounded, ?_⟩
    simp [daysInMonth]
  · simp only [Date.ordinal, leap]
    rfl

/-- The numbers of cycles and days that `ord_to_ymd` finds. -/
structure Cycles (n n400 n100 n4 n1 rest : Nat) : Prop where
  whole : n = n400 * 146097 + n100 * 36524 + n4 * 1461 + n1 * 365 + rest + 1
  day : rest < 365
  year : n1 * 365 + rest < 1461
  cycle : n4 * 1461 + n1 * 365 + rest < 36524
  century : n100 * 36524 + n4 * 1461 + n1 * 365 + rest < 146097

/-- The last day of a leap year, which ends a cycle of 4 or of 400 years. -/
theorem leapEnd_ordinal {n n400 n100 n4 : Nat} (century : n100 ≤ 3) (cycle : n4 ≤ 24)
    (leap : n4 ≠ 24 ∨ n100 = 3) (whole : n = n400 * 146097 + n100 * 36524 + n4 * 1461 + 1461)
    (bounded : n ≤ 3652059) :
    (Date.mk (n400 * 400 + 1 + n100 * 100 + n4 * 4 + 3) 12 31).Valid ∧
      (Date.mk (n400 * 400 + 1 + n100 * 100 + n4 * 4 + 3) 12 31).ordinal = n := by
  have parts := daysBeforeYear_parts n400 century cycle (Nat.le_refl 3)
  have long : isLeap (n400 * 400 + 1 + n100 * 100 + n4 * 4 + 3) = true := by
    rw [isLeap_parts _ century cycle (Nat.le_refl 3)]
    simp [leap]
  have bound : n400 * 400 + 1 + n100 * 100 + n4 * 4 + 3 ≤ maxYear := by
    unfold maxYear
    omega
  obtain ⟨valid, ordinal⟩ := leapEnd_spec long (by omega) bound
  exact ⟨valid, by omega⟩

theorem dateFrom_spec {n n400 n100 n4 n1 rest : Nat} (cycles : Cycles n n400 n100 n4 n1 rest)
    (bounded : n ≤ 3652059) :
    (dateFrom n400 n100 n4 n1 rest).Valid ∧ (dateFrom n400 n100 n4 n1 rest).ordinal = n := by
  obtain ⟨whole, day, year, cycle, century⟩ := cycles
  unfold dateFrom
  by_cases ends : n1 = 4 ∨ n100 = 4
  · rw [if_pos ends]
    by_cases four : n1 = 4
    · have none_ : rest = 0 := by omega
      have length : n = n400 * 146097 + n100 * 36524 + n4 * 1461 + 1461 := by linarith
      have same : n400 * 400 + 1 + n100 * 100 + n4 * 4 + n1 - 1 =
          n400 * 400 + 1 + n100 * 100 + n4 * 4 + 3 := by omega
      rw [same]
      exact leapEnd_ordinal (by omega) (by omega) (by omega) length bounded
    · have last : n100 = 4 ∧ n4 = 0 ∧ n1 = 0 ∧ rest = 0 := by omega
      obtain ⟨rfl, rfl, rfl, rfl⟩ := last
      have length : n = n400 * 146097 + 3 * 36524 + 24 * 1461 + 1461 := by linarith
      have same : n400 * 400 + 1 + 4 * 100 + 0 * 4 + 0 - 1 =
          n400 * 400 + 1 + 3 * 100 + 24 * 4 + 3 := by omega
      have ended := @leapEnd_ordinal n n400 3 24 (by omega) (by omega) (by omega) length bounded
      rw [same]
      exact ended
  · have centuryBound : n100 ≤ 3 := by omega
    have cycleBound : n4 ≤ 24 := by omega
    have yearBound : n1 ≤ 3 := by omega
    have parts := daysBeforeYear_parts n400 centuryBound cycleBound yearBound
    have leap := isLeap_parts n400 centuryBound cycleBound yearBound
    have inside : rest < if (n1 == 3 && (n4 != 24 || n100 == 3)) = true then 366 else 365 := by
      split <;> omega
    obtain ⟨low, high, first, last, sum⟩ := monthDay_spec _ rest inside
    rw [if_neg ends]
    refine ⟨⟨by simp only; omega, ?_, low, high, first, ?_⟩, ?_⟩
    · unfold maxYear
      simp only
      omega
    · simp only
      rw [leap]
      exact last
    · simp only [Date.ordinal]
      rw [parts, leap]
      omega

/-- Every number of a day is that of its date. -/
theorem dateOf_spec {n : Nat} (positive : 1 ≤ n) (bounded : n ≤ maxOrdinal) :
    (dateOf n).Valid ∧ (dateOf n).ordinal = n := by
  refine dateFrom_spec ?_ bounded
  constructor <;> omega

/-! ## Written instants are read back -/

theorem digitChar_digit : ∀ n < 10, (Nat.digitChar n).isDigit = true ∧
    (Nat.digitChar n).toNat - 48 = n := by decide

theorem readDigits_padded (count total n : Nat) (rest : Text) :
    readDigits count total (padded count n ++ rest) =
      some (total * 10 ^ count + n % 10 ^ count, rest) := by
  induction count generalizing total with
  | zero => simp [readDigits, padded, Nat.mod_one]
  | succ count ih =>
      obtain ⟨digit, value⟩ := digitChar_digit (n / 10 ^ count % 10) (Nat.mod_lt _ (by omega))
      have sum : (10 * total + n / 10 ^ count % 10) * 10 ^ count + n % 10 ^ count =
          total * 10 ^ (count + 1) + n % 10 ^ (count + 1) := by
        rw [Nat.mod_pow_succ, Nat.pow_succ]
        ring
      rw [padded, List.cons_append, readDigits, if_pos digit, value, ih, sum]

theorem readDigits_field (count : Nat) {n : Nat} (small : n < 10 ^ count) (rest : Text) :
    readDigits count 0 (padded count n ++ rest) = some (n, rest) := by
  rw [readDigits_padded, Nat.zero_mul, Nat.zero_add, Nat.mod_eq_of_lt small]

theorem padded_length (count n : Nat) : (padded count n).length = count := by
  induction count with
  | zero => rfl
  | succ count ih => rw [padded, List.length_cons, ih]

theorem padded_digit {count n : Nat} {c : Char} (found : c ∈ padded count n) :
    c.isDigit = true := by
  induction count with
  | zero => cases found
  | succ count ih =>
      rcases List.mem_cons.mp found with rfl | later
      · exact (digitChar_digit _ (Nat.mod_lt _ (by omega))).1
      · exact ih later

theorem peek_padded (count n : Nat) (rest : Text) :
    (peek (padded (count + 1) n ++ rest)).isDigit = true :=
  (digitChar_digit _ (Nat.mod_lt _ (by omega))).1

theorem ne_of_digit {c d : Char} (digit : c.isDigit = true) (other : d.isDigit = false) : c ≠ d := by
  rintro rfl
  rw [digit] at other
  cases other

theorem daysInMonth_le (leap : Bool) (month : Nat) : daysInMonth leap month ≤ 31 := by
  unfold daysInMonth
  split_ifs <;> omega

theorem readMonth_padded {date : Date} (valid : date.Valid) (rest : Text) :
    readMonth date.year true (padded 2 date.month ++ '-' :: (padded 2 date.day ++ rest)) =
      some date.ordinal := by
  have fields := valid
  obtain ⟨_, _, _, month, _, day⟩ := fields
  have short := daysInMonth_le (isLeap date.year) date.month
  rw [readMonth, readDigits_field 2 (by omega)]
  simp only
  rw [readHyphen, if_pos rfl, if_pos (by rfl), Option.bind_some, List.tail_cons,
    readDigits_field 2 (by omega), Option.bind_some, if_pos valid]

theorem readDate_dateText {date : Date} (valid : date.Valid) (rest : Text) :
    readDate 10 (dateText date ++ rest) = some date.ordinal := by
  have year : date.year < 10 ^ 4 := by
    have bound := valid.2.1
    unfold maxYear at bound
    omega
  have shape : dateText date ++ rest = padded 4 date.year ++
      ('-' :: (padded 2 date.month ++ '-' :: (padded 2 date.day ++ rest))) := by simp [dateText]
  have plain := ne_of_digit (d := 'W')
    (peek_padded 1 date.month ('-' :: (padded 2 date.day ++ rest))) (by decide)
  rw [shape, readDate, readDigits_field 4 year]
  simp only
  rw [show (peek ('-' :: (padded 2 date.month ++ '-' :: (padded 2 date.day ++ rest))) == '-') = true
      from rfl, if_pos rfl, List.tail_cons, if_neg plain, readMonth_padded valid]

/-! ### The time -/

theorem readClock_colon {stop : Char} {more value : Nat} {separated : Option Bool}
    {fields : List Nat} {t rest : Text} (colons : separated.getD true = true) (nonempty : rest ≠ [])
    (read : readDigits 2 0 t = some (value, ':' :: rest)) :
    readClock stop (more + 1) separated fields t =
      readClock stop more (some true) (fields ++ [value]) rest := by
  obtain ⟨d, later, rfl⟩ := List.exists_cons_of_ne_nil nonempty
  rw [readClock, read]
  simp only [beq_self_eq_true, Bool.and_true, colons, if_true]

theorem readClock_last {stop : Char} {more value : Nat} {separated : Option Bool}
    {fields : List Nat} {t : Text} (read : readDigits 2 0 t = some (value, [])) :
    readClock stop (more + 1) separated fields t =
      some ⟨fields ++ [value], 0, stop == nul⟩ := by
  rw [readClock, read]

theorem readClock_point {stop : Char} {more value : Nat} {fields : List Nat} {t rest : Text}
    (nonempty : rest ≠ []) (read : readDigits 2 0 t = some (value, '.' :: rest)) :
    readClock stop (more + 1) (some true) fields t =
      readFraction stop (fields ++ [value]) rest := by
  obtain ⟨d, later, rfl⟩ := List.exists_cons_of_ne_nil nonempty
  rw [readClock, read]
  simp only [Option.getD_some, Bool.true_and, show ('.' == ':') = false by decide, Bool.false_eq_true,
    if_false, true_or, if_true]

theorem readFraction_padded (stop : Char) (fields : List Nat) {n : Nat} (small : n < 1000000) :
    readFraction stop fields (padded 6 n) = some ⟨fields, n, stop == nul⟩ := by
  have read := readDigits_field 6 (show n < 10 ^ 6 by omega) []
  rw [List.append_nil] at read
  have count : min 6 (padded 6 n).length = 6 := by rw [padded_length, Nat.min_self]
  rw [readFraction, count, read]
  simp

/-- The hours, minutes, seconds and microseconds of a time of the day. -/
def clockOf (micros : Nat) : List Nat :=
  [micros / 3600000000, micros / 60000000 % 60, micros / 1000000 % 60]

theorem readClock_timeText (stop : Char) {micros : Nat} (inside : micros < 86400000000) :
    readClock stop 3 none [] (timeText micros) =
      some ⟨clockOf micros, micros % 1000000, stop == nul⟩ := by
  have hour : micros / 3600000000 < 10 ^ 2 := by omega
  have minute : micros / 60000000 % 60 < 10 ^ 2 := by omega
  have secondBound : micros / 1000000 % 60 < 10 ^ 2 := by omega
  have fieldNe (count n : Nat) (rest : Text) : padded (count + 1) n ++ rest ≠ [] := by
    rw [padded, List.cons_append]
    exact List.cons_ne_nil _ _
  unfold timeText
  rw [List.append_assoc, List.append_assoc, List.cons_append, List.cons_append]
  rw [readClock_colon rfl (fieldNe 1 _ _) (readDigits_field 2 hour _),
    readClock_colon rfl (fieldNe 1 _ _) (readDigits_field 2 minute _)]
  by_cases whole : micros % 1000000 = 0
  · rw [if_pos whole, readClock_last (readDigits_field 2 secondBound _), whole]
    rfl
  · have some_ := fieldNe 5 (micros % 1000000) []
    rw [List.append_nil] at some_
    rw [if_neg whole, readClock_point some_ (readDigits_field 2 secondBound _),
      readFraction_padded stop _ (Nat.mod_lt _ (by omega))]
    rfl

theorem timeText_unmarked (micros : Nat) : ∀ c ∈ timeText micros, isZoneMark c = false := by
  have digit {count n : Nat} {c : Char} (found : c ∈ padded count n) : isZoneMark c = false := by
    have plain := padded_digit found
    cases marked : isZoneMark c with
    | false => rfl
    | true =>
        simp only [isZoneMark, Bool.or_eq_true, beq_iff_eq] at marked
        rcases marked with (rfl | rfl) | rfl <;> revert plain <;> decide
  intro c found
  simp only [timeText, List.mem_append, List.mem_cons] at found
  rcases found with ((hour | rfl | minute) | rfl | seconds) | fraction
  · exact digit hour
  · rfl
  · exact digit minute
  · rfl
  · exact digit seconds
  · split at fraction
    · cases fraction
    · rcases List.mem_cons.mp fraction with rfl | micro
      · rfl
      · exact digit micro

theorem readTime_timeText {micros : Nat} (inside : micros < 86400000000) :
    readTime (timeText micros ++ "+00:00".toList) =
      some (⟨clockOf micros, micros % 1000000, false⟩, 0) := by
  have unmarked : ∀ c ∈ timeText micros, (!isZoneMark c) = true := by
    intro c found
    rw [timeText_unmarked micros c found]
    rfl
  have front : (timeText micros ++ "+00:00".toList).takeWhile (fun c => !isZoneMark c) =
      timeText micros := by
    rw [List.takeWhile_append_of_pos unmarked]
    exact List.append_nil _
  have back : (timeText micros ++ "+00:00".toList).dropWhile (fun c => !isZoneMark c) =
      '+' :: "00:00".toList := by
    rw [List.dropWhile_append_of_pos unmarked]
    rfl
  have zone : readClock nul 3 none [] "00:00".toList = some ⟨[0, 0], 0, true⟩ := by decide
  rw [readTime, back]
  simp only
  rw [front, readClock_timeText '+' inside, Option.bind_some, zone]
  rfl

/-! ### The instant -/

theorem dateText_length (date : Date) : (dateText date).length = 10 := by
  simp [dateText, padded_length]

theorem separatorAt_dateText (date : Date) (rest : Text) :
    separatorAt (dateText date ++ 'T' :: rest) = some 10 := by
  have long : (dateText date ++ 'T' :: rest).length ≠ 7 := by
    rw [List.length_append, dateText_length]
    omega
  have month : charAt (dateText date ++ 'T' :: rest) 5 ≠ 'W' :=
    ne_of_digit (digitChar_digit (date.month / 10 ^ 1 % 10) (Nat.mod_lt _ (by omega))).1 (by decide)
  rw [separatorAt, if_neg long, if_pos (by rfl), if_neg month]

/-- The day and the time of the day of an instant. -/
theorem day_of_inRange {micros : Int} (range : InRange micros) :
    ∃ ordinal time : Nat, 1 ≤ ordinal ∧ ordinal ≤ maxOrdinal ∧ time < 86400000000 ∧
      (micros / dayLength + epochOrdinal).toNat = ordinal ∧ (micros % dayLength).toNat = time ∧
      micros = (ordinal - epochOrdinal) * dayLength + time := by
  simp only [InRange, dayLength, second, epochOrdinal, maxOrdinal] at range ⊢
  refine ⟨_, _, ?_, ?_, ?_, rfl, rfl, ?_⟩ <;> omega

theorem clockOf_total (time : Nat) (micros : Nat) (ended : Bool) :
    (Clock.mk (clockOf time) micros ended).total = (time / 3600000000 * 3600 +
      time / 60000000 % 60 * 60 + time / 1000000 % 60 : Nat) := by
  simp only [Clock.total, Clock.hours, Clock.minutes, Clock.seconds, clockOf, List.getD_cons_zero,
    List.getD_cons_succ]
  omega

theorem readText_isoformat {micros : Int} (range : InRange micros) :
    readText (isoformat micros) = some micros := by
  obtain ⟨ordinal, time, positive, bounded, inside, day, rest, whole⟩ := day_of_inRange range
  obtain ⟨valid, number⟩ := dateOf_spec positive bounded
  have dropped : (dateText (dateOf ordinal) ++ 'T' :: (timeText time ++ "+00:00".toList)).drop
      (10 + 1) = timeText time ++ "+00:00".toList := by
    rw [← List.drop_drop, List.drop_left' (dateText_length _)]
    rfl
  have fields : time / 3600000000 < 24 ∧ time / 60000000 % 60 < 60 ∧ time / 1000000 % 60 < 60 := by
    omega
  have sum : (ordinal - epochOrdinal) * dayLength + (Clock.mk (clockOf time) (time % 1000000)
      false).total * second + (time % 1000000 : Nat) - 0 = micros := by
    rw [clockOf_total, whole, second]
    omega
  rw [isoformat, day, rest, List.append_assoc, List.cons_append, readText, separatorAt_dateText,
    Option.bind_some, readDate_dateText valid, Option.bind_some, dropped,
    readTime_timeText inside, Option.bind_some, number]
  exact (if_pos fields).trans (congrArg some sum)

theorem sanitized_pointsOf (t : Text) : sanitized (pointsOf t) = pointsOf t := by
  have plain (i : Nat) : ((pointsOf t)[i]?).any (fun p => isHigh p || isLow p) = false := by
    rw [pointsOf, List.getElem?_map]
    cases t[i]? with
    | none => rfl
    | some c =>
        obtain ⟨high, low⟩ := pointOf_plain c
        simp [high, low]
  simp only [sanitized, List.find?_cons, List.find?_nil, plain]

theorem isoformat_length (micros : Int) : 7 ≤ (isoformat micros).length := by
  rw [isoformat, List.length_append, List.length_append, dateText_length]
  omega

/-- A written instant is read back. -/
theorem fromisoformat_isoformat {micros : Int} (range : InRange micros) :
    fromisoformat (pointsOf (isoformat micros)) = some micros := by
  have long : ¬ (pointsOf (isoformat micros)).length < 7 := by
    rw [pointsOf, List.length_map]
    have length := isoformat_length micros
    omega
  rw [fromisoformat, if_neg long, sanitized_pointsOf, textOf_pointsOf, Option.bind_some,
    readText_isoformat range]

end IsoTime
