import TaskControl.Foundation.Effects
import TaskControl.Foundation.Words
import TaskControl.Common.Errors

/-!
# Cron expressions

Which texts the constructor of a cron expression accepts: five fields of numbers,
ranges and steps within their bounds.  Digits are those of any script, as the
pattern and `int` read them.
-/

set_option autoImplicit false

namespace TaskControl

open PythonText Effects

/-! ## Numbers -/

/-- `\d`. -/
def isDecimal (c : Char) : Bool := (decimalValue c).isSome

/-- `\d+`. -/
def isNumber (text : Text) : Bool := !text.isEmpty && text.all isDecimal

/-- `int` on decimal digits, which refuses more than 4300 of them. -/
def int (digits : Text) : Except Raised Nat :=
  if digits.length ≤ 4300 then
    .ok (digits.foldl (fun number c => 10 * number + (decimalValue c).getD 0) 0)
  else .error (.other "Exceeds the limit (4300 digits) for integer string conversion")

/-! ## Fields -/

structure CronField where
  name : String
  low : Nat
  high : Nat

/-- `_CRON_FIELDS`. -/
def cronFields : List CronField :=
  [⟨"minute", 0, 59⟩, ⟨"hour", 0, 23⟩, ⟨"day-of-month", 1, 31⟩, ⟨"month", 1, 12⟩,
    ⟨"day-of-week", 0, 6⟩]

/-- `str.partition` on one character, without the separator. -/
def partitionAt (separator : Char) (text : Text) : Text × Text :=
  (text.takeWhile (· ≠ separator), (text.dropWhile (· ≠ separator)).tail)

/-- An optional part of a pattern that starts with a separator. -/
def optionalPart (separator : Char) (text : Text) : Bool :=
  match text with
  | [] => true
  | c :: rest => c = separator && isNumber rest

/-- `\*|\d+(-\d+)?`. -/
def isCronBody (body : Text) : Bool :=
  body = ['*'] ||
    (isNumber (body.takeWhile (· ≠ '-')) && optionalPart '-' (body.dropWhile (· ≠ '-')))

/-- `^(\*|\d+(-\d+)?)(/\d+)?$`, on a term without white space. -/
def isCronTerm (term : Text) : Bool :=
  isCronBody (term.takeWhile (· ≠ '/')) && optionalPart '/' (term.dropWhile (· ≠ '/'))

def invalid {α : Type} (message : String) : Except Raised α :=
  .error (.taskControl (validationError message))

/-- The round of `_validate_cron_field` for one term. -/
def validateCronTerm (field : CronField) (term : Text) : Except Raised Unit := do
  if term.isEmpty || !isCronTerm term then
    invalid s!"Malformed {field.name} field in cron expression."
  else
    let (body, step) := partitionAt '/' term
    let least ← if step.isEmpty then pure 1 else int step
    if least < 1 then
      invalid s!"Step in the {field.name} field must be at least 1."
    else if body = ['*'] then return ()
    else
      let (start, stop) := partitionAt '-' body
      let first ← int start
      let last ← if stop.isEmpty then pure first else int stop
      if first < field.low || field.high < first || last < field.low || field.high < last then
        invalid (s!"Value in the {field.name} field is outside the permitted range " ++
          s!"{field.low}-{field.high}.")
      else if last < first then invalid s!"Range in the {field.name} field ends before it starts."
      else return ()

/-- `_validate_cron_field`. -/
def validateCronField (field : CronField) (value : Text) : Except Raised Unit :=
  (value.splitOn ',').forM (validateCronTerm field)

/-- The constructor of `CronExpression` on a string: the normalised text. -/
def normaliseCronExpression (expression : Text) : Except Raised Text := do
  if strip expression = [] then invalid "A cron expression must not be empty."
  else
    let text := joinWords (splitWords expression)
    if text.head? = some '@' then
      invalid ("Shorthand cron expressions are not supported, because they are not " ++
        "portable across schedulers. Write the five fields explicitly.")
    else
      let fields := text.splitOn ' '
      if fields.length ≠ cronFields.length then
        invalid ("A cron expression must have exactly five fields: " ++
          "minute hour day-of-month month day-of-week.")
      else
        (fields.zip cronFields).forM fun pair => validateCronField pair.2 pair.1
        return text

example : (normaliseCronExpression " */5\t0  * 1,6 1-5 ".toList).toOption =
    some "*/5 0 * 1,6 1-5".toList := by decide +kernel

/-! ## What is accepted -/

theorem forM_eq_ok {ε α : Type} {check : α → Except ε Unit} {items : List α}
    (done : items.forM check = .ok ()) : ∀ item ∈ items, check item = .ok () := by
  induction items with
  | nil =>
      intro item member
      cases member
  | cons first rest ih =>
      obtain ⟨_, passed, later⟩ := except_bind_eq_ok.mp done
      intro item member
      rcases List.mem_cons.mp member with rfl | inRest
      · exact passed
      · exact ih later item inRest

theorem splitOn_head {separator c : Char} {rest : Text} (other : c ≠ separator) :
    ∃ word words, (c :: rest).splitOn separator = (c :: word) :: words := by
  rw [List.splitOn_cons_eq_if_modifyHead, if_neg (by simpa using other)]
  cases split : rest.splitOn separator with
  | nil => exact absurd split (List.splitOn_ne_nil _ _)
  | cons word words => exact ⟨word, words, rfl⟩

theorem splitOn_separator (separator : Char) (rest : Text) :
    (separator :: rest).splitOn separator = [] :: rest.splitOn separator := by
  rw [List.splitOn_cons_eq_if_modifyHead, if_pos (by simp)]

theorem isNumber_head {separator c : Char} {rest : Text}
    (number : isNumber ((c :: rest).takeWhile (· ≠ separator)) = true) : isDecimal c = true := by
  by_cases same : c = separator
  · simp [isNumber, same] at number
  · rw [List.takeWhile_cons_of_pos (by simpa using same)] at number
    simp only [isNumber, List.all_cons, Bool.and_eq_true] at number
    exact number.2.1

theorem isCronTerm_head {c : Char} {rest : Text} (term : isCronTerm (c :: rest) = true) :
    c = '*' ∨ isDecimal c = true := by
  have body := (Bool.and_eq_true_iff.mp term).1
  by_cases step : c = '/'
  · rw [step] at body
    cases body
  · rw [List.takeWhile_cons_of_pos (by simpa using step)] at body
    rcases Bool.or_eq_true_iff.mp body with every | number
    · simp only [decide_eq_true_eq, List.cons.injEq] at every
      exact Or.inl every.1
    · exact Or.inr (isNumber_head (Bool.and_eq_true_iff.mp number).1)

/-- An accepted field starts with an asterisk or a digit. -/
theorem validateCronField_head {field : CronField} {value : Text}
    (valid : validateCronField field value = .ok ()) :
    ∃ c rest, value = c :: rest ∧ (c = '*' ∨ isDecimal c = true) := by
  have terms := forM_eq_ok valid
  have shaped (term : Text) (member : term ∈ value.splitOn ',') :
      term ≠ [] ∧ isCronTerm term = true := by
    have passed := terms term member
    unfold validateCronTerm at passed
    split at passed
    · cases passed
    · next clear => simpa using clear
  cases value with
  | nil => exact absurd rfl (shaped [] (by simp)).1
  | cons c rest =>
      refine ⟨c, rest, rfl, ?_⟩
      by_cases comma : c = ','
      · rw [comma, splitOn_separator] at shaped
        exact absurd rfl (shaped [] List.mem_cons_self).1
      · obtain ⟨word, words, first⟩ := @splitOn_head ',' c rest comma
        rw [first] at shaped
        exact isCronTerm_head (shaped (c :: word) List.mem_cons_self).2

/-- What is known of the text of an accepted expression. -/
structure AcceptedCron (text : Text) : Prop where
  fields : (text.splitOn ' ').length = 5
  oneLine : '\n' ∉ text
  starts : ∃ c rest, text = c :: rest ∧ (c = '*' ∨ isDecimal c = true)

theorem normaliseCronExpression_ok {written text : Text}
    (accepted : normaliseCronExpression written = .ok text) : AcceptedCron text := by
  unfold normaliseCronExpression at accepted
  split at accepted
  · cases accepted
  · dsimp only at accepted
    split at accepted
    · cases accepted
    · split at accepted
      · cases accepted
      · next count =>
          obtain ⟨_, valid, returned⟩ := except_bind_eq_ok.mp accepted
          obtain rfl := Except.ok.inj returned
          have five := not_not.mp count
          refine ⟨five, newline_not_mem_joinWords written, ?_⟩
          generalize joinWords (splitWords written) = text at five valid
          cases text with
          | nil => simp [cronFields] at five
          | cons c rest =>
              refine ⟨c, rest, rfl, ?_⟩
              by_cases blank : c = ' '
              · rw [blank, splitOn_separator] at valid
                obtain ⟨_, _, impossible, _⟩ :=
                  validateCronField_head (forM_eq_ok valid _ List.mem_cons_self)
                cases impossible
              · obtain ⟨word, words, first⟩ := @splitOn_head ' ' c rest blank
                rw [first] at valid
                obtain ⟨_, _, same, starts⟩ :=
                  validateCronField_head (forM_eq_ok valid _ List.mem_cons_self)
                cases same
                exact starts

end TaskControl
