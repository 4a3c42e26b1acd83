import TaskControl.Domain.Schedules

/-!
# The grammar of cron expressions

Five fields, each a list of terms separated by commas: `*`, a number or a range, each with
an optional step.  The grammar is a parameter of what a digit is, since the constructor of an
expression reads digits of every script; `int` refuses numbers of more than 4300 digits.
-/

set_option autoImplicit false

namespace TaskControl

open PythonText Effects

namespace CronGrammar

/-! ## The grammar -/

inductive Body where
  | every
  | value (n : Text)
  | range (first last : Text)

def Body.text : Body → Text
  | .every => ['*']
  | .value n => n
  | .range first last => first ++ '-' :: last

def Body.numerals : Body → List Text
  | .every => []
  | .value n => [n]
  | .range first last => [first, last]

structure Term where
  body : Body
  step : Option Text

def Term.text (term : Term) : Text :=
  match term.step with
  | none => term.body.text
  | some step => term.body.text ++ '/' :: step

def Term.numerals (term : Term) : List Text := term.body.numerals ++ term.step.toList

def valueOf (digits : Text) : Nat :=
  digits.foldl (fun number c => 10 * number + (decimalValue c).getD 0) 0

structure Numeral (digit : Char → Bool) (t : Text) : Prop where
  nonempty : t ≠ []
  digits : ∀ c ∈ t, digit c = true

/-- The numbers of the term are written in the digits. -/
def Term.Written (digit : Char → Bool) (term : Term) : Prop :=
  ∀ t ∈ term.numerals, Numeral digit t

def Body.Bounded (field : CronField) : Body → Prop
  | .every => True
  | .value n => field.low ≤ valueOf n ∧ valueOf n ≤ field.high
  | .range first last =>
      field.low ≤ valueOf first ∧ valueOf first ≤ valueOf last ∧ valueOf last ≤ field.high

structure Term.Sound (field : CronField) (term : Term) : Prop where
  bounded : term.body.Bounded field
  steps : ∀ step, term.step = some step → 1 ≤ valueOf step

def Field (digit : Char → Bool) (field : CronField) (text : Text) : Prop :=
  ∃ terms : List Term, terms ≠ [] ∧ text = List.intercalate [','] (terms.map Term.text) ∧
    ∀ term ∈ terms, term.Written digit ∧ term.Sound field

/-- The words of the text are five fields. -/
def Expression (digit : Char → Bool) (text : Text) : Prop :=
  List.Forall₂ (fun word field => Field digit field word) (splitWords text) cronFields

/-! ## The shape of a term -/

theorem cut_clear {separator : Char} {text : Text} (clear : separator ∉ text) :
    text.takeWhile (· ≠ separator) = text ∧ text.dropWhile (· ≠ separator) = [] := by
  constructor
  · rw [List.takeWhile_eq_self_iff]
    intro c found
    exact decide_eq_true fun same => clear (same ▸ found)
  · rw [List.dropWhile_eq_nil_iff]
    intro c found
    exact decide_eq_true fun same => clear (same ▸ found)

theorem cut_at {separator : Char} {front : Text} (clear : separator ∉ front) (rest : Text) :
    (front ++ separator :: rest).takeWhile (· ≠ separator) = front ∧
      (front ++ separator :: rest).dropWhile (· ≠ separator) = separator :: rest := by
  have passed : ∀ c ∈ front, decide (c ≠ separator) = true := by
    intro c found
    exact decide_eq_true fun same => clear (same ▸ found)
  constructor
  · rw [List.takeWhile_append_of_pos passed]
    simp
  · rw [List.dropWhile_append_of_pos passed]
    simp

theorem cut (separator : Char) (text : Text) : separator ∉ text ∨
    ∃ front rest, separator ∉ front ∧ text = front ++ separator :: rest := by
  by_cases found : separator ∈ text
  · obtain ⟨front, rest, whole, clear⟩ := List.eq_append_cons_of_mem found
    exact Or.inr ⟨front, rest, clear, whole⟩
  · exact Or.inl found

theorem isNumber_iff {t : Text} : isNumber t = true ↔ Numeral isDecimal t := by
  unfold isNumber
  constructor
  · intro number
    obtain ⟨some_, digits⟩ := Bool.and_eq_true_iff.mp number
    exact ⟨by simpa using some_, by simpa using digits⟩
  · intro numeral
    have some_ := numeral.nonempty
    have digits := numeral.digits
    simp_all

theorem Numeral.clear {t : Text} (numeral : Numeral isDecimal t) {c : Char}
    (other : isDecimal c = false) : c ∉ t := by
  intro found
  rw [numeral.digits c found] at other
  cases other

theorem slash_not_decimal : isDecimal '/' = false := by decide +kernel

theorem hyphen_not_decimal : isDecimal '-' = false := by decide +kernel

theorem star_not_decimal : isDecimal '*' = false := by decide +kernel

theorem comma_not_decimal : isDecimal ',' = false := by decide +kernel

theorem at_not_decimal : isDecimal '@' = false := by decide +kernel

theorem optionalPart_cons (separator : Char) (rest : Text) :
    optionalPart separator (separator :: rest) = isNumber rest := by
  simp [optionalPart]

theorem isCronBody_iff {text : Text} : isCronBody text = true ↔
    ∃ body : Body, body.text = text ∧ ∀ t ∈ body.numerals, Numeral isDecimal t := by
  constructor
  · intro shaped
    rcases Bool.or_eq_true_iff.mp shaped with star | numbers
    · exact ⟨.every, (of_decide_eq_true star).symm, by simp [Body.numerals]⟩
    · obtain ⟨first, last⟩ := Bool.and_eq_true_iff.mp numbers
      rcases cut '-' text with clear | ⟨front, rest, clear, rfl⟩
      · rw [(cut_clear clear).1] at first
        exact ⟨.value text, rfl, by simpa [Body.numerals] using isNumber_iff.mp first⟩
      · rw [(cut_at clear rest).1] at first
        rw [(cut_at clear rest).2, optionalPart_cons] at last
        refine ⟨.range front rest, rfl, ?_⟩
        simpa [Body.numerals] using ⟨isNumber_iff.mp first, isNumber_iff.mp last⟩
  · rintro ⟨body, rfl, written⟩
    cases body with
    | every => rfl
    | value n =>
        have number := written n List.mem_cons_self
        obtain ⟨front, back⟩ := cut_clear (number.clear hyphen_not_decimal)
        rw [Body.text, isCronBody, front, back, isNumber_iff.mpr number]
        simp [optionalPart]
    | range first last =>
        have number := written first List.mem_cons_self
        have second := written last (List.mem_cons_of_mem _ List.mem_cons_self)
        obtain ⟨front, back⟩ := cut_at (number.clear hyphen_not_decimal) last
        rw [Body.text, isCronBody, front, back, isNumber_iff.mpr number, optionalPart_cons,
          isNumber_iff.mpr second]
        simp

theorem Body.clear {body : Body} (written : ∀ t ∈ body.numerals, Numeral isDecimal t) {c : Char}
    (star : c ≠ '*') (hyphen : c ≠ '-') (other : isDecimal c = false) : c ∉ body.text := by
  cases body with
  | every => simpa [Body.text] using star
  | value n => exact (written n List.mem_cons_self).clear other
  | range first last =>
      have front := (written first List.mem_cons_self).clear other
      have back := (written last (List.mem_cons_of_mem _ List.mem_cons_self)).clear other
      simp [Body.text, front, back, hyphen]

theorem isCronTerm_iff {text : Text} : isCronTerm text = true ↔
    ∃ term : Term, term.text = text ∧ term.Written isDecimal := by
  constructor
  · intro shaped
    obtain ⟨front, back⟩ := Bool.and_eq_true_iff.mp shaped
    rcases cut '/' text with clear | ⟨before, step, clear, rfl⟩
    · rw [(cut_clear clear).1] at front
      obtain ⟨body, rfl, written⟩ := isCronBody_iff.mp front
      exact ⟨⟨body, none⟩, rfl, by simpa [Term.Written, Term.numerals] using written⟩
    · rw [(cut_at clear step).1] at front
      rw [(cut_at clear step).2, optionalPart_cons] at back
      obtain ⟨body, rfl, written⟩ := isCronBody_iff.mp front
      have number := isNumber_iff.mp back
      refine ⟨⟨body, some step⟩, rfl, ?_⟩
      intro t found
      rcases List.mem_append.mp found with inBody | inStep
      · exact written t inBody
      · obtain rfl := List.mem_singleton.mp inStep
        exact number
  · rintro ⟨⟨body, step⟩, rfl, written⟩
    have inBody : ∀ t ∈ body.numerals, Numeral isDecimal t := fun t found =>
      written t (List.mem_append_left _ found)
    have clear := Body.clear inBody (by decide) (by decide) slash_not_decimal
    have shaped := isCronBody_iff.mpr ⟨body, rfl, inBody⟩
    cases step with
    | none =>
        obtain ⟨front, back⟩ := cut_clear clear
        rw [Term.text, isCronTerm, front, back, shaped]
        rfl
    | some step =>
        have number := written step (List.mem_append_right _ (by simp))
        obtain ⟨front, back⟩ := cut_at clear step
        rw [Term.text, isCronTerm, front, back, shaped, optionalPart_cons,
          isNumber_iff.mpr number]
        rfl

/-! ## Reading a term -/

/-- `int` refuses the digits. -/
def TooLong (t : Text) : Prop := 4300 < t.length

/-- A number that `int` refuses is read: that of the step or, behind a step that is in order, one
of the body. -/
def Term.ReadsLong (term : Term) : Prop :=
  (∃ step, term.step = some step ∧ TooLong step) ∨
    (∀ step, term.step = some step → 1 ≤ valueOf step) ∧ ∃ t ∈ term.body.numerals, TooLong t

theorem int_short {t : Text} (short : ¬ TooLong t) : int t = .ok (valueOf t) :=
  if_pos (Nat.le_of_not_lt short)

theorem int_long {t : Text} (long : TooLong t) :
    int t = .error (.other "Exceeds the limit (4300 digits) for integer string conversion") :=
  if_neg (Nat.not_le_of_lt long)

/-- The numbers of a range that were read against the bounds of the field. -/
def within (field : CronField) (first last : Nat) : Except Raised Unit :=
  if first < field.low || field.high < first || last < field.low || field.high < last then
    invalid (s!"Value in the {field.name} field is outside the permitted range " ++
      s!"{field.low}-{field.high}.")
  else if last < first then invalid s!"Range in the {field.name} field ends before it starts."
  else return ()

def Body.read (field : CronField) : Body → Except Raised Unit
  | .every => return ()
  | .value n => do
      let first ← int n
      within field first first
  | .range n m => do
      let first ← int n
      let last ← int m
      within field first last

def Term.read (field : CronField) (term : Term) : Except Raised Unit := do
  let least ← match term.step with
    | none => pure 1
    | some step => int step
  if least < 1 then invalid s!"Step in the {field.name} field must be at least 1."
  else term.body.read field

theorem partition_body {n rest : Text} (number : Numeral isDecimal n) :
    partitionAt '-' n = (n, []) ∧ partitionAt '-' (n ++ '-' :: rest) = (n, rest) := by
  have clear := number.clear hyphen_not_decimal
  obtain ⟨front, back⟩ := cut_clear clear
  obtain ⟨front', back'⟩ := cut_at clear rest
  constructor
  · rw [partitionAt, front, back]
    rfl
  · rw [partitionAt, front', back']
    rfl

theorem partition_term {term : Term} (written : term.Written isDecimal) :
    partitionAt '/' term.text = (term.body.text, term.step.getD []) := by
  have clear := Body.clear (fun t found => written t (List.mem_append_left _ found)) (by decide)
    (by decide) slash_not_decimal
  obtain ⟨body, step⟩ := term
  cases step with
  | none =>
      obtain ⟨front, back⟩ := cut_clear clear
      rw [Term.text, partitionAt, front, back]
      rfl
  | some step =>
      obtain ⟨front, back⟩ := cut_at clear step
      rw [Term.text, partitionAt, front, back]
      rfl

theorem body_text_every {body : Body} (written : ∀ t ∈ body.numerals, Numeral isDecimal t) :
    body.text = ['*'] ↔ body = .every := by
  cases body with
  | every => simp [Body.text]
  | value n =>
      have clear := (written n List.mem_cons_self).clear star_not_decimal
      constructor
      · intro same
        rw [Body.text] at same
        rw [same] at clear
        simp at clear
      · intro same
        cases same
  | range first last =>
      constructor
      · intro same
        have hyphen : '-' ∈ ['*'] := by
          rw [← same, Body.text]
          simp
        simp at hyphen
      · intro same
        cases same

/-- The round of a term that has the shape, on its parts. -/
theorem validateCronTerm_text (field : CronField) {term : Term} (written : term.Written isDecimal) :
    validateCronTerm field term.text = term.read field := by
  have shaped := isCronTerm_iff.mpr ⟨term, rfl, written⟩
  have some_ : term.text.isEmpty = false := by
    cases text : term.text with
    | nil =>
        rw [text] at shaped
        cases shaped
    | cons c rest => rfl
  have inBody : ∀ t ∈ term.body.numerals, Numeral isDecimal t := fun t found =>
    written t (List.mem_append_left _ found)
  have behind (body : Body) (inBody : ∀ t ∈ body.numerals, Numeral isDecimal t) :
      (if body.text = ['*'] then return ()
      else do
        let first ← int (partitionAt '-' body.text).1
        let last ← if (partitionAt '-' body.text).2.isEmpty = true then pure first
          else int (partitionAt '-' body.text).2
        within field first last) = body.read field := by
    have every := body_text_every inBody
    cases body with
    | every => rfl
    | value n =>
        have number := inBody n List.mem_cons_self
        rw [if_neg (by simp [every]), Body.text, (@partition_body n [] number).1]
        rfl
    | range first last =>
        have number := inBody first List.mem_cons_self
        have second := (inBody last (List.mem_cons_of_mem _ List.mem_cons_self)).nonempty
        rw [if_neg (by simp [every]), Body.text, (partition_body number).2]
        simp only [List.isEmpty_iff, if_neg second]
        rfl
  unfold validateCronTerm
  rw [if_neg (by simp [some_, shaped]), partition_term written]
  obtain ⟨body, step⟩ := term
  cases step with
  | none => exact behind body inBody
  | some step =>
      have number := (written step (List.mem_append_right _ (by simp))).nonempty
      have stepped : ¬ step.isEmpty = true := by simpa using number
      simp only [Option.getD_some, if_neg stepped, Term.read]
      rw [← behind body inBody]
      rfl

/-! ## The outcome for a term -/

def Refused {α : Type} (result : Except Raised α) : Prop :=
  ∃ message, result = .error (.taskControl (validationError message))

/-- Something other than a `ValidationError` is raised. -/
def Escaped {α : Type} (result : Except Raised α) : Prop :=
  ∃ message, result = .error (.other message)

theorem within_ok {field : CronField} {first last : Nat}
    (inside : field.low ≤ first ∧ first ≤ last ∧ last ≤ field.high) :
    within field first last = .ok () := by
  have outside : ¬ (decide (first < field.low) || decide (field.high < first) ||
      decide (last < field.low) || decide (field.high < last)) = true := by
    simp only [Bool.or_eq_true, decide_eq_true_eq]
    omega
  rw [within, if_neg outside, if_neg (by omega)]
  rfl

theorem within_refused {field : CronField} {first last : Nat}
    (outside : ¬ (field.low ≤ first ∧ first ≤ last ∧ last ≤ field.high)) :
    Refused (within field first last) := by
  unfold within
  split
  · exact ⟨_, rfl⟩
  · next inBounds =>
      simp only [Bool.or_eq_true, decide_eq_true_eq, not_or] at inBounds
      rw [if_pos (by omega)]
      exact ⟨_, rfl⟩

theorem Body.read_long {field : CronField} {body : Body} (long : ∃ t ∈ body.numerals, TooLong t) :
    Escaped (body.read field) := by
  obtain ⟨t, found, long⟩ := long
  cases body with
  | every => cases found
  | value n =>
      obtain rfl := List.mem_singleton.mp found
      rw [Body.read, int_long long]
      exact ⟨_, rfl⟩
  | range first last =>
      by_cases early : TooLong first
      · rw [Body.read, int_long early]
        exact ⟨_, rfl⟩
      · rcases List.mem_cons.mp found with rfl | second
        · exact absurd long early
        · obtain rfl := List.mem_singleton.mp second
          rw [Body.read, int_short early, int_long long]
          exact ⟨_, rfl⟩

/-- The body with numbers that `int` takes. -/
theorem Body.read_short {field : CronField} {body : Body}
    (short : ¬ ∃ t ∈ body.numerals, TooLong t) :
    (body.Bounded field ∧ body.read field = .ok ()) ∨
      (¬ body.Bounded field ∧ Refused (body.read field)) := by
  have each : ∀ t ∈ body.numerals, int t = .ok (valueOf t) := fun t found =>
    int_short fun long => short ⟨t, found, long⟩
  cases body with
  | every => exact Or.inl ⟨trivial, rfl⟩
  | value n =>
      have run : (Body.value n).read field = within field (valueOf n) (valueOf n) := by
        rw [Body.read, each n List.mem_cons_self]
        rfl
      rw [run]
      by_cases inside : field.low ≤ valueOf n ∧ valueOf n ≤ field.high
      · exact Or.inl ⟨inside, within_ok ⟨inside.1, Nat.le_refl _, inside.2⟩⟩
      · exact Or.inr ⟨inside, within_refused (by omega)⟩
  | range first last =>
      have run : (Body.range first last).read field =
          within field (valueOf first) (valueOf last) := by
        rw [Body.read, each first List.mem_cons_self,
          each last (List.mem_cons_of_mem _ List.mem_cons_self)]
        rfl
      rw [run]
      by_cases inside : (Body.range first last).Bounded field
      · exact Or.inl ⟨inside, within_ok inside⟩
      · exact Or.inr ⟨inside, within_refused inside⟩

/-- The three outcomes of a term. -/
theorem Term.read_cases (field : CronField) (term : Term) :
    (term.ReadsLong ∧ Escaped (term.read field)) ∨
      (¬ term.ReadsLong ∧ term.Sound field ∧ term.read field = .ok ()) ∨
      (¬ term.ReadsLong ∧ ¬ term.Sound field ∧ Refused (term.read field)) := by
  have ordered (steps : ∀ step, term.step = some step → 1 ≤ valueOf step)
      (short : ¬ ∃ step, term.step = some step ∧ TooLong step)
      (run : term.read field = term.body.read field) :
      (term.ReadsLong ∧ Escaped (term.read field)) ∨
        (¬ term.ReadsLong ∧ term.Sound field ∧ term.read field = .ok ()) ∨
        (¬ term.ReadsLong ∧ ¬ term.Sound field ∧ Refused (term.read field)) := by
    rw [run]
    by_cases long : ∃ t ∈ term.body.numerals, TooLong t
    · exact Or.inl ⟨Or.inr ⟨steps, long⟩, Body.read_long long⟩
    · have reads : ¬ term.ReadsLong := by
        rintro (step | ⟨_, body⟩)
        · exact short step
        · exact long body
      rcases @Body.read_short field _ long with ⟨inside, done⟩ | ⟨outside, refused⟩
      · exact Or.inr (Or.inl ⟨reads, ⟨inside, steps⟩, done⟩)
      · exact Or.inr (Or.inr ⟨reads, fun sound => outside sound.bounded, refused⟩)
  cases stepped : term.step with
  | none =>
      refine ordered (by simp [stepped]) (by simp [stepped]) ?_
      rw [Term.read, stepped]
      rfl
  | some step =>
      by_cases long : TooLong step
      · refine Or.inl ⟨Or.inl ⟨step, stepped, long⟩, ?_⟩
        rw [Term.read, stepped]
        simp only [int_long long]
        exact ⟨_, rfl⟩
      · by_cases least : 1 ≤ valueOf step
        · refine ordered (by simp [stepped, least]) (by simp [stepped, long]) ?_
          rw [Term.read, stepped]
          simp only [int_short long]
          exact if_neg (Nat.not_lt_of_le least)
        · refine Or.inr (Or.inr ⟨?_, ?_, ?_⟩)
          · rintro (⟨other, same, tooLong⟩ | ⟨steps, _⟩)
            · rw [stepped] at same
              exact long (Option.some.inj same ▸ tooLong)
            · exact least (steps step stepped)
          · exact fun sound => least (sound.steps step stepped)
          · rw [Term.read, stepped]
            simp only [int_short long]
            exact ⟨_, if_pos (Nat.lt_of_not_le least)⟩

/-- The text is a term on which `int` raises. -/
def LongTerm (text : Text) : Prop :=
  ∃ term : Term, term.text = text ∧ term.Written isDecimal ∧ term.ReadsLong

/-- The text is a term within the bounds, with numbers that `int` takes. -/
def SoundTerm (field : CronField) (text : Text) : Prop :=
  ∃ term : Term, term.text = text ∧ term.Written isDecimal ∧ term.Sound field ∧ ¬ term.ReadsLong

theorem validateCronTerm_cases (field : CronField) (text : Text) :
    (LongTerm text ∧ Escaped (validateCronTerm field text)) ∨
      (SoundTerm field text ∧ validateCronTerm field text = .ok ()) ∨
      ((∀ term : Term, term.text = text → term.Written isDecimal → ¬ term.Sound field) ∧
        Refused (validateCronTerm field text)) := by
  by_cases shaped : isCronTerm text = true
  · obtain ⟨term, rfl, written⟩ := isCronTerm_iff.mp shaped
    have read := validateCronTerm_text field written
    rw [read]
    rcases term.read_cases field with ⟨long, escaped⟩ | ⟨short, sound, done⟩ | ⟨short, unsound, refused⟩
    · exact Or.inl ⟨⟨term, rfl, written, long⟩, escaped⟩
    · exact Or.inr (Or.inl ⟨⟨term, rfl, written, sound, short⟩, done⟩)
    · refine Or.inr (Or.inr ⟨?_, refused⟩)
      intro other same otherWritten sound
      have otherRead := validateCronTerm_text field otherWritten
      rw [same, read] at otherRead
      rw [otherRead] at refused
      obtain ⟨message, raised⟩ := refused
      rcases other.read_cases field with ⟨_, _, escaped⟩ | ⟨_, _, done⟩ | ⟨_, bad, _⟩
      · rw [raised] at escaped
        cases escaped
      · rw [raised] at done
        cases done
      · exact bad sound
  · refine Or.inr (Or.inr ⟨?_, ?_⟩)
    · intro term same written _
      exact shaped (isCronTerm_iff.mpr ⟨term, same, written⟩)
    · unfold validateCronTerm
      rw [if_pos (by simp [shaped])]
      exact ⟨_, rfl⟩

theorem SoundTerm.validated {field : CronField} {text : Text} (sound : SoundTerm field text) :
    validateCronTerm field text = .ok () := by
  obtain ⟨term, rfl, written, sound, short⟩ := sound
  rw [validateCronTerm_text field written]
  rcases term.read_cases field with ⟨long, _⟩ | ⟨_, _, done⟩ | ⟨_, unsound, _⟩
  · exact absurd long short
  · exact done
  · exact absurd sound unsound

theorem LongTerm.escapes (field : CronField) {text : Text} (long : LongTerm text) :
    Escaped (validateCronTerm field text) := by
  obtain ⟨term, rfl, written, long⟩ := long
  rw [validateCronTerm_text field written]
  rcases term.read_cases field with ⟨_, escaped⟩ | ⟨short, _⟩ | ⟨short, _⟩
  · exact escaped
  · exact absurd long short
  · exact absurd long short

end CronGrammar

end TaskControl
