import TaskControl.Domain.CronGrammar

/-!
# Accepted cron expressions

The terms of the five fields are validated in order and the first that fails decides what
is raised.  The constructor is right about a text exactly when its digits are ASCII digits
and no number is read that `int` refuses.
-/

set_option autoImplicit false

namespace TaskControl

open PythonText Effects

namespace CronGrammar

/-! ## The outcome for the terms of five fields -/

/-- The terms in the order in which they are validated, with the fields they belong to. -/
def checks (words : List Text) : List (CronField × Text) :=
  (words.zip cronFields).flatMap fun pair => (pair.1.splitOn ',').map fun term => (pair.2, term)

def validateAll (items : List (CronField × Text)) : Except Raised Unit :=
  items.forM fun item => validateCronTerm item.1 item.2

/-- Before any term that is refused, one is read on which `int` raises. -/
def FirstLong (items : List (CronField × Text)) : Prop :=
  ∃ before item after, items = before ++ item :: after ∧
    (∀ earlier ∈ before, SoundTerm earlier.1 earlier.2) ∧ LongTerm item.2

theorem validateAll_cons (item : CronField × Text) (rest : List (CronField × Text)) :
    validateAll (item :: rest) =
      validateCronTerm item.1 item.2 >>= fun _ => validateAll rest := rfl

theorem validateAll_append (before after : List (CronField × Text)) :
    validateAll (before ++ after) = validateAll before >>= fun _ => validateAll after := by
  induction before with
  | nil => rfl
  | cons item rest ih =>
      rw [List.cons_append, validateAll_cons, validateAll_cons, ih]
      exact (bind_assoc _ _ _).symm

theorem validateAll_fields (pairs : List (Text × CronField)) :
    validateAll (pairs.flatMap fun pair => (pair.1.splitOn ',').map fun term => (pair.2, term)) =
      pairs.forM fun pair => validateCronField pair.2 pair.1 := by
  have single (field : CronField) (terms : List Text) :
      validateAll (terms.map fun term => (field, term)) = terms.forM (validateCronTerm field) := by
    induction terms with
    | nil => rfl
    | cons term rest ih =>
        rw [List.map_cons, validateAll_cons, ih]
        rfl
  induction pairs with
  | nil => rfl
  | cons pair rest ih =>
      rw [List.flatMap_cons, validateAll_append, single, ih]
      rfl

theorem validateAll_sound {items : List (CronField × Text)}
    (sound : ∀ item ∈ items, SoundTerm item.1 item.2) : validateAll items = .ok () := by
  induction items with
  | nil => rfl
  | cons item rest ih =>
      rw [validateAll_cons, (sound item List.mem_cons_self).validated]
      exact ih fun later found => sound later (List.mem_cons_of_mem _ found)

theorem FirstLong.escapes {items : List (CronField × Text)} (first : FirstLong items) :
    Escaped (validateAll items) := by
  obtain ⟨before, item, after, rfl, sound, long⟩ := first
  obtain ⟨message, raised⟩ := long.escapes item.1
  rw [validateAll_append, validateAll_sound sound, validateAll_cons, raised]
  exact ⟨message, rfl⟩

/-- The three outcomes. -/
theorem validateAll_cases (items : List (CronField × Text)) :
    (FirstLong items ∧ Escaped (validateAll items)) ∨
      ((∀ item ∈ items, SoundTerm item.1 item.2) ∧ validateAll items = .ok ()) ∨
      ((∃ item ∈ items, ∀ term : Term, term.text = item.2 → term.Written isDecimal →
        ¬ term.Sound item.1) ∧ Refused (validateAll items)) := by
  induction items with
  | nil => exact Or.inr (Or.inl ⟨by simp, rfl⟩)
  | cons item rest ih =>
      rcases validateCronTerm_cases item.1 item.2 with ⟨long, _⟩ | ⟨sound, done⟩ | ⟨unsound, refused⟩
      · have first : FirstLong (item :: rest) := ⟨[], item, rest, rfl, by simp, long⟩
        exact Or.inl ⟨first, first.escapes⟩
      · have run : validateAll (item :: rest) = validateAll rest := by
          rw [validateAll_cons, done]
          rfl
        rw [run]
        rcases ih with ⟨first, escaped⟩ | ⟨others, finished⟩ | ⟨⟨other, found, bad⟩, refused⟩
        · obtain ⟨before, long, after, rfl, sounds, isLong⟩ := first
          refine Or.inl ⟨⟨item :: before, long, after, rfl, ?_, isLong⟩, escaped⟩
          exact List.forall_mem_cons.mpr ⟨sound, sounds⟩
        · exact Or.inr (Or.inl ⟨List.forall_mem_cons.mpr ⟨sound, others⟩, finished⟩)
        · exact Or.inr (Or.inr ⟨⟨other, List.mem_cons_of_mem _ found, bad⟩, refused⟩)
      · obtain ⟨message, raised⟩ := refused
        refine Or.inr (Or.inr ⟨⟨item, List.mem_cons_self, unsound⟩, message, ?_⟩)
        rw [validateAll_cons, raised]
        rfl

/-! ## The outcome for an expression -/

theorem words_of_join {text : Text} (some_ : splitWords text ≠ []) :
    (joinWords (splitWords text)).splitOn ' ' = splitWords text := by
  refine List.splitOn_intercalate ' ' ?_ some_
  intro word found blank
  have solid := splitWords_solid found ' ' blank
  cases solid

theorem normalise_other {text : Text}
    (other : (splitWords text).length ≠ cronFields.length) :
    Refused (normaliseCronExpression text) := by
  unfold normaliseCronExpression
  split
  · exact ⟨_, rfl⟩
  · dsimp only
    split
    · exact ⟨_, rfl⟩
    · have count : ((joinWords (splitWords text)).splitOn ' ').length ≠ cronFields.length := by
        by_cases none_ : splitWords text = []
        · rw [none_]
          decide
        · rwa [words_of_join none_]
      rw [if_pos count]
      exact ⟨_, rfl⟩

/-- The first term of a text that starts with an at sign has not the shape. -/
theorem validateAll_shorthand {words : List Text} (count : words.length = cronFields.length)
    (shorthand : (joinWords words).head? = some '@') : Refused (validateAll (checks words)) := by
  have first : ∃ rest others, words = ('@' :: rest) :: others := by
    cases words with
    | nil => cases shorthand
    | cons word others =>
        have head : (word ++ [' ']).head? = some '@' := by
          cases others with
          | nil =>
              cases word with
              | nil => cases shorthand
              | cons c rest => simpa [joinWords] using shorthand
          | cons next more =>
              rw [joinWords_cons] at shorthand
              cases word with
              | nil => cases shorthand
              | cons c rest => simpa using shorthand
        cases word with
        | nil => cases head
        | cons c rest =>
            obtain rfl : c = '@' := by simpa using head
            exact ⟨rest, others, rfl⟩
  obtain ⟨rest, others, rfl⟩ := first
  obtain ⟨word, words, cut⟩ := @splitOn_head ',' '@' rest (by decide)
  have shape : isCronTerm ('@' :: word) = false := by
    rw [Bool.eq_false_iff]
    intro shaped
    rcases isCronTerm_head shaped with star | digit
    · cases star
    · rw [at_not_decimal] at digit
      cases digit
  obtain ⟨more, listed⟩ : ∃ more, checks (('@' :: rest) :: others) =
      (⟨"minute", 0, 59⟩, '@' :: word) :: more := by
    simp [checks, cronFields, cut]
  have refused : Refused (validateCronTerm ⟨"minute", 0, 59⟩ ('@' :: word)) := by
    unfold validateCronTerm
    rw [if_pos (by simp [shape])]
    exact ⟨_, rfl⟩
  obtain ⟨message, raised⟩ := refused
  rw [listed, validateAll_cons, raised]
  exact ⟨message, rfl⟩

/-- Five words are validated term by term. -/
theorem normalise_five {text : Text} (count : (splitWords text).length = cronFields.length) :
    normaliseCronExpression text =
        (validateAll (checks (splitWords text)) >>= fun _ => .ok (joinWords (splitWords text))) ∨
      Refused (normaliseCronExpression text) ∧
        Refused (validateAll (checks (splitWords text))) := by
  have some_ : splitWords text ≠ [] := by
    intro none_
    rw [none_] at count
    cases count
  have solid : ¬ strip text = [] := fun empty => some_ (splitWords_strip empty)
  unfold normaliseCronExpression
  rw [if_neg solid]
  dsimp only
  by_cases shorthand : (joinWords (splitWords text)).head? = some '@'
  · rw [if_pos shorthand]
    exact Or.inr ⟨⟨_, rfl⟩, validateAll_shorthand count shorthand⟩
  · rw [if_neg shorthand, words_of_join some_, if_neg (not_not.mpr count), checks,
      validateAll_fields]
    exact Or.inl rfl

/-- Five words, and before any term that is refused one is read on which `int` raises. -/
def ReadsLong (text : Text) : Prop :=
  (splitWords text).length = cronFields.length ∧ FirstLong (checks (splitWords text))

theorem normalise_cases (text : Text) :
    (ReadsLong text ∧ Escaped (normaliseCronExpression text)) ∨
      ((splitWords text).length = cronFields.length ∧
        (∀ item ∈ checks (splitWords text), SoundTerm item.1 item.2) ∧
        normaliseCronExpression text = .ok (joinWords (splitWords text))) ∨
      (((splitWords text).length = cronFields.length →
          ∃ item ∈ checks (splitWords text), ∀ term : Term, term.text = item.2 →
            term.Written isDecimal → ¬ term.Sound item.1) ∧
        Refused (normaliseCronExpression text)) := by
  by_cases count : (splitWords text).length = cronFields.length
  · rcases validateAll_cases (checks (splitWords text)) with
      ⟨first, escaped⟩ | ⟨sound, done⟩ | ⟨unsound, refused⟩
    · rcases normalise_five count with run | ⟨_, message, raised⟩
      · obtain ⟨message, raised⟩ := escaped
        rw [run, raised]
        exact Or.inl ⟨⟨count, first⟩, message, rfl⟩
      · rw [raised] at escaped
        obtain ⟨_, impossible⟩ := escaped
        cases impossible
    · rcases normalise_five count with run | ⟨_, message, raised⟩
      · rw [run, done]
        exact Or.inr (Or.inl ⟨count, sound, rfl⟩)
      · rw [raised] at done
        cases done
    · refine Or.inr (Or.inr ⟨fun _ => unsound, ?_⟩)
      rcases normalise_five count with run | ⟨refused', _⟩
      · obtain ⟨message, raised⟩ := refused
        rw [run, raised]
        exact ⟨message, rfl⟩
      · exact refused'
  · exact Or.inr (Or.inr ⟨fun same => absurd same count, normalise_other count⟩)

theorem ReadsLong.escapes {text : Text} (long : ReadsLong text) :
    Escaped (normaliseCronExpression text) := by
  obtain ⟨count, first⟩ := long
  obtain ⟨message, raised⟩ := first.escapes
  rcases normalise_five count with run | ⟨_, _, refused⟩
  · rw [run, raised]
    exact ⟨message, rfl⟩
  · rw [raised] at refused
    cases refused

/-- The normalised text is accepted again, as it is. -/
theorem normalise_again {text normal : Text} (done : normaliseCronExpression text = .ok normal) :
    normaliseCronExpression normal = .ok normal := by
  rcases normalise_cases text with ⟨_, _, raised⟩ | ⟨count, sound, run⟩ | ⟨_, _, raised⟩
  · rw [raised] at done
    cases done
  · rw [run] at done
    obtain rfl := Except.ok.inj done
    have words : splitWords (joinWords (splitWords text)) = splitWords text :=
      splitWords_joinWords fun _ found => mem_splitWords found
    have count' : (splitWords (joinWords (splitWords text))).length = cronFields.length := by
      rw [words]
      exact count
    rcases normalise_five count' with again | ⟨_, _, refused⟩
    · rw [again, words, validateAll_sound sound]
      rfl
    · rw [words, validateAll_sound sound] at refused
      cases refused
  · rw [raised] at done
    cases done

/-! ## The constructor and the grammar -/

theorem isDecimal_of_isDigit {c : Char} (digit : c.isDigit = true) : isDecimal c = true := by
  obtain ⟨low, high⟩ := Bool.and_eq_true_iff.mp digit
  have bounds : 0x30 ≤ c.toNat ∧ c.toNat < 0x30 + 10 := by
    have low' := of_decide_eq_true low
    have high' := of_decide_eq_true high
    rw [ge_iff_le, UInt32.le_iff_toNat_le] at low'
    rw [UInt32.le_iff_toNat_le] at high'
    exact ⟨low', Nat.lt_succ_of_le high'⟩
  have found : (decimalZeros.find? fun first =>
      decide (first ≤ c.toNat) && decide (c.toNat < first + 10)).isSome = true := by
    rw [List.find?_isSome]
    exact ⟨0x30, List.mem_cons_self, by simpa using bounds⟩
  unfold isDecimal decimalValue
  rw [Option.isSome_map]
  exact found

theorem Term.Written.mono {digit digit' : Char → Bool} {term : Term} (written : term.Written digit)
    (more : ∀ c, digit c = true → digit' c = true) : term.Written digit' := by
  intro t found
  obtain ⟨nonempty, digits⟩ := written t found
  exact ⟨nonempty, fun c inside => more c (digits c inside)⟩

/-- The digits of a term are those of its numbers. -/
theorem Term.Written.digit {digit : Char → Bool} {term : Term} (written : term.Written digit)
    {c : Char} (found : c ∈ term.text) (decimal : isDecimal c = true) : digit c = true := by
  have other {d : Char} (apart : isDecimal d = false) : c ≠ d := by
    rintro rfl
    rw [apart] at decimal
    cases decimal
  have inBody (body : Body) (numerals : ∀ t ∈ body.numerals, Numeral digit t)
      (inside : c ∈ body.text) : digit c = true := by
    cases body with
    | every => exact absurd (List.mem_singleton.mp inside) (other star_not_decimal)
    | value n => exact (numerals n List.mem_cons_self).digits c inside
    | range first last =>
        rcases List.mem_append.mp inside with front | back
        · exact (numerals first List.mem_cons_self).digits c front
        · rcases List.mem_cons.mp back with hyphen | rest
          · exact absurd hyphen (other hyphen_not_decimal)
          · exact (numerals last (List.mem_cons_of_mem _ List.mem_cons_self)).digits c rest
  have numerals : ∀ t ∈ term.body.numerals, Numeral digit t := fun t inside =>
    written t (List.mem_append_left _ inside)
  obtain ⟨body, step⟩ := term
  cases step with
  | none => exact inBody body numerals found
  | some step =>
      rcases List.mem_append.mp found with front | back
      · exact inBody body numerals front
      · rcases List.mem_cons.mp back with slash | rest
        · exact absurd slash (other slash_not_decimal)
        · exact (written step (List.mem_append_right _ (by simp))).digits c rest

/-- The text is a term of the grammar. -/
def IsTerm (digit : Char → Bool) (field : CronField) (text : Text) : Prop :=
  ∃ term : Term, term.text = text ∧ term.Written digit ∧ term.Sound field

theorem exists_terms {digit : Char → Bool} {field : CronField} {texts : List Text}
    (each : ∀ text ∈ texts, IsTerm digit field text) :
    ∃ terms : List Term, terms.map Term.text = texts ∧
      ∀ term ∈ terms, term.Written digit ∧ term.Sound field := by
  induction texts with
  | nil => exact ⟨[], rfl, by simp⟩
  | cons text rest ih =>
      obtain ⟨term, rfl, term_⟩ := each text List.mem_cons_self
      obtain ⟨terms, rfl, others⟩ := ih fun other found => each other (List.mem_cons_of_mem _ found)
      exact ⟨term :: terms, rfl, List.forall_mem_cons.mpr ⟨term_, others⟩⟩

theorem field_iff {digit : Char → Bool} (plain : ∀ c, digit c = true → isDecimal c = true)
    {field : CronField} {word : Text} :
    Field digit field word ↔ ∀ text ∈ word.splitOn ',', IsTerm digit field text := by
  constructor
  · rintro ⟨terms, some_, rfl, each⟩
    have clear : ∀ text ∈ terms.map Term.text, ',' ∉ text := by
      intro text found
      obtain ⟨term, inTerms, rfl⟩ := List.mem_map.mp found
      have written := (each term inTerms).1.mono plain
      obtain ⟨body, step⟩ := term
      have inBody := Body.clear (fun t inside => written t (List.mem_append_left _ inside))
        (show ',' ≠ '*' by decide) (by decide) comma_not_decimal
      cases step with
      | none => exact inBody
      | some step =>
          have number := (written step (List.mem_append_right _ (by simp))).clear comma_not_decimal
          simp [Term.text, inBody, number]
    rw [List.splitOn_intercalate ',' clear (by simpa using some_)]
    intro text found
    obtain ⟨term, inTerms, rfl⟩ := List.mem_map.mp found
    exact ⟨term, rfl, each term inTerms⟩
  · intro each
    obtain ⟨terms, texts, all⟩ := exists_terms each
    refine ⟨terms, ?_, ?_, all⟩
    · rintro rfl
      exact List.splitOn_ne_nil _ _ texts.symm
    · rw [texts]
      exact (List.intercalate_splitOn ',').symm

theorem expression_iff {digit : Char → Bool} (plain : ∀ c, digit c = true → isDecimal c = true)
    {text : Text} : Expression digit text ↔ (splitWords text).length = cronFields.length ∧
      ∀ item ∈ checks (splitWords text), IsTerm digit item.1 item.2 := by
  rw [Expression, List.forall₂_iff_zip]
  refine and_congr_right fun _ => ?_
  constructor
  · intro fields item found
    obtain ⟨⟨word, field⟩, inPairs, inTerms⟩ := List.mem_flatMap.mp found
    obtain ⟨term, inWord, rfl⟩ := List.mem_map.mp inTerms
    exact (field_iff plain).mp (fields inPairs) term inWord
  · intro items word field inPairs
    refine (field_iff plain).mpr fun term inWord => ?_
    exact items (field, term) (List.mem_flatMap.mpr ⟨(word, field), inPairs,
      List.mem_map.mpr ⟨term, inWord, rfl⟩⟩)

/-- The constructor accepts the text exactly where it is an expression in ASCII digits, refuses it
with nothing but a `ValidationError`, and accepts what it made of it unchanged. -/
structure Exact (text : Text) : Prop where
  accepted : (∃ normal, normaliseCronExpression text = .ok normal) ↔
    Expression Char.isDigit text
  refused : ∀ error, normaliseCronExpression text = .error error →
    ∃ message, error = .taskControl (validationError message)
  stable : ∀ normal, normaliseCronExpression text = .ok normal →
    normaliseCronExpression normal = .ok normal

theorem cronExpression_exact_iff (text : Text) :
    Exact text ↔ (Expression isDecimal text → Expression Char.isDigit text) ∧
      ¬ ReadsLong text := by
  have ascii := @expression_iff Char.isDigit (fun _ => isDecimal_of_isDigit) text
  have anyScript := @expression_iff isDecimal (fun _ decimal => decimal) text
  constructor
  · intro exact_
    have short : ¬ ReadsLong text := by
      intro long
      obtain ⟨message, raised⟩ := long.escapes
      obtain ⟨_, impossible⟩ := exact_.refused _ raised
      cases impossible
    refine ⟨fun expression => ?_, short⟩
    obtain ⟨count, items⟩ := anyScript.mp expression
    rcases normalise_cases text with ⟨long, _⟩ | ⟨_, _, run⟩ | ⟨unsound, _⟩
    · exact absurd long short
    · exact exact_.accepted.mp ⟨_, run⟩
    · obtain ⟨item, found, bad⟩ := unsound count
      obtain ⟨term, same, written, sound⟩ := items item found
      exact absurd sound (bad term same written)
  · rintro ⟨narrow, short⟩
    rcases normalise_cases text with ⟨long, _⟩ | ⟨count, sound, run⟩ | ⟨unsound, refused⟩
    · exact absurd long short
    · have expression : Expression isDecimal text := by
        refine anyScript.mpr ⟨count, fun item found => ?_⟩
        obtain ⟨term, same, written, good, _⟩ := sound item found
        exact ⟨term, same, written, good⟩
      refine ⟨⟨fun _ => narrow expression, fun _ => ⟨_, run⟩⟩, ?_, fun _ => normalise_again⟩
      intro error raised
      rw [run] at raised
      cases raised
    · obtain ⟨message, raised⟩ := refused
      refine ⟨⟨?_, ?_⟩, ?_, fun _ => normalise_again⟩
      · rintro ⟨normal, done⟩
        rw [raised] at done
        cases done
      · intro expression
        obtain ⟨count, items⟩ := ascii.mp expression
        obtain ⟨item, found, bad⟩ := unsound count
        obtain ⟨term, same, written, sound⟩ := items item found
        exact absurd sound (bad term same (written.mono fun _ => isDecimal_of_isDigit))
      · intro error other
        rw [raised] at other
        exact ⟨message, (Except.error.inj other).symm⟩

/-- The minute 3 in Arabic-Indic digits. -/
def arabicIndic : Text := "\u0663 * * * *".toList

theorem arabicIndic_accepted : ¬ Exact arabicIndic := by
  intro exact_
  have accepted : normaliseCronExpression arabicIndic = .ok arabicIndic := by decide +kernel
  have expression := exact_.accepted.mp ⟨_, accepted⟩
  obtain ⟨_, items⟩ := (expression_iff fun _ => isDecimal_of_isDigit).mp expression
  have words : splitWords arabicIndic = [['\u0663'], ['*'], ['*'], ['*'], ['*']] := by
    decide +kernel
  have first : (⟨"minute", 0, 59⟩, ['\u0663']) ∈ checks (splitWords arabicIndic) := by
    have alone : ['\u0663'] ∈ ['\u0663'].splitOn ',' := by decide +kernel
    rw [words]
    simp [checks, cronFields, alone]
  obtain ⟨term, same, written, _⟩ := items _ first
  have inTerm : '\u0663' ∈ term.text := by
    rw [same]
    exact List.mem_cons_self
  have digit := written.digit inTerm (by decide +kernel)
  cases digit

end CronGrammar

end TaskControl
