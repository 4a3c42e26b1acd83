import TaskControl.Foundation.Json

/-!
# Written JSON is read back

What the writer makes of a dictionary of scalars is printable ASCII; the reader
gives the dictionary back, with its surrogates joined.  A text that breaks off
inside the object is no JSON, and no limit of the interpreter is met before the
reader finds that out.
-/

set_option autoImplicit false

namespace JsonText

open PythonText LinePattern

/-! ## Surrogates -/

/-- No high surrogate stands directly before a low one. -/
def Unsplit (s : Points) : Prop :=
  s.IsChain fun high low => ¬ (isHigh high = true ∧ isLow low = true)

instance (s : Points) : Decidable (Unsplit s) := by
  unfold Unsplit
  infer_instance

theorem joinPair_eq_none {p q : CodePoint} :
    joinPair p q = none ↔ ¬ (isHigh p = true ∧ isLow q = true) := by
  unfold joinPair
  split <;> simp_all

theorem joinPair_of_plain {p : CodePoint} (plain : isHigh p = false) (q : CodePoint) :
    joinPair p q = none := by
  rw [joinPair_eq_none]
  simp [plain]

theorem joinSurrogates_plain {p : CodePoint} (plain : isHigh p = false) (rest : Points) :
    joinSurrogates (p :: rest) = p :: joinSurrogates rest := by
  cases rest with
  | nil => rfl
  | cons q rest => rw [joinSurrogates, joinPair_of_plain plain]

theorem joinSurrogates_length (s : Points) : (joinSurrogates s).length ≤ s.length := by
  fun_induction joinSurrogates s with
  | case1 => simp
  | case2 => simp
  | case3 p q rest whole joined ih =>
      simp only [List.length_cons]
      omega
  | case4 p q rest apart ih =>
      simp only [List.length_cons] at ih ⊢
      omega

/-- Joining leaves exactly the strings alone in which there is nothing to join. -/
theorem joinSurrogates_eq_self {s : Points} : joinSurrogates s = s ↔ Unsplit s := by
  unfold Unsplit
  fun_induction joinSurrogates s with
  | case1 => simp
  | case2 => simp
  | case3 p q rest whole joined ih =>
      have shorter := joinSurrogates_length rest
      have pair : isHigh p = true ∧ isLow q = true := by
        by_contra apart
        rw [joinPair_eq_none.mpr apart] at joined
        cases joined
      constructor
      · intro same
        have lengths := congrArg List.length same
        simp only [List.length_cons] at lengths
        omega
      · intro chain
        rw [List.isChain_cons_cons] at chain
        exact absurd pair chain.1
  | case4 p q rest apart ih =>
      rw [List.isChain_cons_cons, ← ih, List.cons.injEq]
      simp [joinPair_eq_none.mp apart]

theorem units_plain {p : CodePoint} (small : p.val < 0x10000) : units p = [p] := if_pos small

theorem units_pair {p : CodePoint} (large : ¬ p.val < 0x10000) :
    units p = [highUnit p, lowUnit p] := if_neg large

theorem isHigh_iff {p : CodePoint} : isHigh p = true ↔ 0xD800 ≤ p.val ∧ p.val < 0xDC00 :=
  decide_eq_true_iff

theorem isLow_iff {p : CodePoint} : isLow p = true ↔ 0xDC00 ≤ p.val ∧ p.val < 0xE000 :=
  decide_eq_true_iff

theorem highUnit_val (p : CodePoint) : (highUnit p).val = 0xD800 + (p.val - 0x10000) / 0x400 := rfl

theorem lowUnit_val (p : CodePoint) : (lowUnit p).val = 0xDC00 + (p.val - 0x10000) % 0x400 := rfl

theorem highUnit_high (p : CodePoint) : isHigh (highUnit p) = true := by
  have bound := p.property
  rw [isHigh_iff, highUnit_val]
  omega

theorem highUnit_not_low (p : CodePoint) : ¬ isLow (highUnit p) = true := by
  have bound := p.property
  rw [isLow_iff, highUnit_val]
  omega

theorem lowUnit_low (p : CodePoint) : isLow (lowUnit p) = true := by
  rw [isLow_iff, lowUnit_val]
  omega

/-- The units of a code point beyond the first 65536 join to it. -/
theorem joinPair_units {p : CodePoint} (large : ¬ p.val < 0x10000) :
    joinPair (highUnit p) (lowUnit p) = some p := by
  have whole : joined (highUnit p).val (lowUnit p).val = p.val := by
    have high := highUnit_val p
    have low := lowUnit_val p
    have bound := p.property
    unfold joined
    omega
  unfold joinPair
  split
  · simp only [whole]
  · next apart => exact absurd ⟨highUnit_high p, lowUnit_low p⟩ apart

theorem joinSurrogates_pair {p : CodePoint} (large : ¬ p.val < 0x10000) (rest : Points) :
    joinSurrogates (units p ++ rest) = p :: joinSurrogates rest := by
  rw [units_pair large, List.cons_append, List.cons_append, List.nil_append, joinSurrogates,
    joinPair_units large]

theorem small_of_surrogate {p : CodePoint} (surrogate : isHigh p = true ∨ isLow p = true) :
    p.val < 0x10000 := by
  rw [isHigh_iff, isLow_iff] at surrogate
  omega

/-- A string that starts with `q` has no low surrogate in front after it is split, unless `q` is
one. -/
theorem joinSurrogates_apart {p q : CodePoint} (apart : joinPair p q = none) (rest : Points) :
    joinSurrogates (p :: (units q ++ rest)) = p :: joinSurrogates (units q ++ rest) := by
  by_cases small : q.val < 0x10000
  · rw [units_plain small, List.singleton_append, joinSurrogates, apart]
  · have alone : joinPair p (highUnit q) = none := by
      rw [joinPair_eq_none]
      exact fun pair => highUnit_not_low q pair.2
    rw [units_pair small, List.cons_append, joinSurrogates, alone]

/-- Splitting every code point into its units is undone by joining. -/
theorem joinSurrogates_units (s : Points) :
    joinSurrogates (s.flatMap units) = joinSurrogates s := by
  fun_induction joinSurrogates s with
  | case1 => rfl
  | case2 p =>
      by_cases small : p.val < 0x10000
      · simp [units_plain small, joinSurrogates]
      · rw [List.flatMap_cons, joinSurrogates_pair small]
        rfl
  | case3 p q rest whole joins ih =>
      have pair : isHigh p = true ∧ isLow q = true := by
        by_contra apart
        rw [joinPair_eq_none.mpr apart] at joins
        cases joins
      rw [List.flatMap_cons, List.flatMap_cons, units_plain (small_of_surrogate (Or.inl pair.1)),
        units_plain (small_of_surrogate (Or.inr pair.2)), List.singleton_append,
        List.singleton_append, joinSurrogates, joins, ← ih]
  | case4 p q rest apart ih =>
      rw [List.flatMap_cons]
      by_cases small : p.val < 0x10000
      · rw [units_plain small, List.singleton_append, List.flatMap_cons,
          joinSurrogates_apart apart, ← List.flatMap_cons, ih]
      · rw [joinSurrogates_pair small, ih]

theorem pointsOf_unsplit (t : Text) : Unsplit (pointsOf t) := by
  unfold Unsplit pointsOf
  rw [List.isChain_map]
  refine List.Pairwise.isChain (List.pairwise_of_forall fun c d pair => ?_)
  rw [(pointOf_plain c).1] at pair
  cases pair.1

theorem joinSurrogates_pointsOf (t : Text) : joinSurrogates (pointsOf t) = pointsOf t :=
  joinSurrogates_eq_self.mpr (pointsOf_unsplit t)

/-- A text in front of a string is kept. -/
theorem joinSurrogates_text (t : Text) (s : Points) :
    joinSurrogates (pointsOf t ++ s) = pointsOf t ++ joinSurrogates s := by
  induction t with
  | nil => rfl
  | cons c rest ih =>
      rw [pointsOf, List.map_cons, List.cons_append, joinSurrogates_plain (pointOf_plain c).1]
      exact congrArg _ ih

theorem joinSurrogates_ne_nil {s : Points} (nonempty : s ≠ []) : joinSurrogates s ≠ [] := by
  fun_cases joinSurrogates s with
  | case1 => exact absurd rfl nonempty
  | case2 => simp
  | case3 => simp
  | case4 => simp

/-! ## Strings -/

theorem hexValue_digitChar : ∀ n < 16, hexValue (Nat.digitChar n) = some n := by decide

theorem codePoint_val (p : CodePoint) : codePoint p.val = some p := dif_pos p.property

theorem hexUnit_digits {p : CodePoint} (small : p.val < 0x10000) :
    hexUnit (Nat.digitChar (p.val / 4096 % 16)) (Nat.digitChar (p.val / 256 % 16))
      (Nat.digitChar (p.val / 16 % 16)) (Nat.digitChar (p.val % 16)) = some p := by
  have digit (n : Nat) : hexValue (Nat.digitChar (n % 16)) = some (n % 16) :=
    hexValue_digitChar _ (Nat.mod_lt _ (by omega))
  have whole : ((p.val / 4096 % 16 * 16 + p.val / 256 % 16) * 16 + p.val / 16 % 16) * 16 +
      p.val % 16 = p.val := by omega
  simp only [hexUnit, digit, Option.bind_eq_bind, Option.bind_some]
  rw [whole, codePoint_val]

theorem scanUnits_unicode {first second third fourth : Char} {unit : CodePoint}
    (read : hexUnit first second third fourth = some unit) (rest : Text) :
    scanUnits ('\\' :: 'u' :: first :: second :: third :: fourth :: rest) =
      (scanUnits rest).map (prepend unit) := by
  rw [scanUnits.eq_def]
  simp only [show ¬ ('\\' = '"') by decide, if_false, if_true, read, Option.bind_some]

theorem scanUnits_escapeUnit {p : CodePoint} (small : p.val < 0x10000) (rest : Text) :
    scanUnits (escapeUnit p.val ++ rest) = (scanUnits rest).map (prepend p) :=
  scanUnits_unicode (hexUnit_digits small) rest

theorem units_small {p unit : CodePoint} (found : unit ∈ units p) : unit.val < 0x10000 := by
  have bound := p.property
  by_cases small : p.val < 0x10000
  · rw [units_plain small, List.mem_singleton] at found
    rwa [found]
  · rw [units_pair small] at found
    rcases List.mem_pair.mp found with rfl | rfl
    · rw [highUnit_val]
      omega
    · rw [lowUnit_val]
      omega

def prependAll (points : Points) (scanned : Points × Text) : Points × Text :=
  (points ++ scanned.1, scanned.2)

theorem scanUnits_escapeUnits {points : Points} (small : ∀ p ∈ points, p.val < 0x10000)
    (rest : Text) :
    scanUnits (points.flatMap (fun unit => escapeUnit unit.val) ++ rest) =
      (scanUnits rest).map (prependAll points) := by
  induction points with
  | nil => cases h : scanUnits rest <;> simp [h, prependAll]
  | cons p later ih =>
      rw [List.flatMap_cons, List.append_assoc, scanUnits_escapeUnit (small p (by simp)),
        ih fun q found => small q (by simp [found]), Option.map_map]
      rfl

/-- An escape of two characters. -/
theorem scanUnits_short {p : CodePoint} {e : Char} (unicode : e ≠ 'u')
    (escaped : shortEscape e = some p) (rest : Text) :
    scanUnits ('\\' :: e :: rest) = (scanUnits rest).map (prepend p) := by
  rw [scanUnits.eq_def]
  simp only [show ¬ ('\\' = '"') by decide, if_false, if_true, unicode, escaped, Option.bind_some]

theorem scanUnits_plain {c : Char} (quote : c ≠ '"') (slash : c ≠ '\\') (solid : ¬ c.toNat < 0x20)
    (rest : Text) : scanUnits (c :: rest) = (scanUnits rest).map (prepend (pointOf c)) := by
  rw [scanUnits.eq_def]
  simp only [quote, slash, solid, if_false]

theorem toNat_ofNat {n : Nat} (small : n < 0xD800) : (Char.ofNat n).toNat = n := by
  rw [Char.toNat_ofNat, if_pos (Or.inl small)]

theorem prepend_small {p : CodePoint} (small : p.val < 0x10000) :
    prepend p = prependAll (units p) := by
  rw [units_plain small]
  rfl

/-- What a code point is written as: an escape of two characters, itself, or its units. -/
inductive Escaped (p : CodePoint) : Text → Prop
  | short {e : Char} (small : p.val < 0x10000) (unicode : e ≠ 'u')
      (names : shortEscape e = some p) (printable : 0x20 ≤ e.toNat ∧ e.toNat ≤ 0x7E) : Escaped p ['\\', e]
  | itself (quote : p.val ≠ 0x22) (slash : p.val ≠ 0x5C)
      (printable : 0x20 ≤ p.val ∧ p.val ≤ 0x7E) : Escaped p [Char.ofNat p.val]
  | units : Escaped p ((units p).flatMap fun unit => escapeUnit unit.val)

theorem escape_escaped (p : CodePoint) : Escaped p (escape p) := by
  have named {e : Char} {n : Nat} (same : p.val = n) (small : n < 0x10000) (unicode : e ≠ 'u')
      (names : shortEscape e = codePoint n) (printable : 0x20 ≤ e.toNat ∧ e.toNat ≤ 0x7E) :
      Escaped p ['\\', e] := by
    rw [← same] at small
    rw [← same, codePoint_val] at names
    exact .short small unicode names printable
  unfold escape
  by_cases quote : p.val = 0x22
  · rw [if_pos quote]
    exact named quote (by decide) (by decide) (by decide) (by decide)
  rw [if_neg quote]
  by_cases slash : p.val = 0x5C
  · rw [if_pos slash]
    exact named slash (by decide) (by decide) (by decide) (by decide)
  rw [if_neg slash]
  by_cases eight : p.val = 8
  · rw [if_pos eight]
    exact named eight (by decide) (by decide) (by decide) (by decide)
  rw [if_neg eight]
  by_cases twelve : p.val = 12
  · rw [if_pos twelve]
    exact named twelve (by decide) (by decide) (by decide) (by decide)
  rw [if_neg twelve]
  by_cases ten : p.val = 10
  · rw [if_pos ten]
    exact named ten (by decide) (by decide) (by decide) (by decide)
  rw [if_neg ten]
  by_cases thirteen : p.val = 13
  · rw [if_pos thirteen]
    exact named thirteen (by decide) (by decide) (by decide) (by decide)
  rw [if_neg thirteen]
  by_cases nine : p.val = 9
  · rw [if_pos nine]
    exact named nine (by decide) (by decide) (by decide) (by decide)
  rw [if_neg nine]
  by_cases printable : 0x20 ≤ p.val ∧ p.val ≤ 0x7E
  · rw [if_pos printable]
    exact .itself quote slash printable
  rw [if_neg printable]
  exact .units

/-- The reader takes the escape of a code point for its units. -/
theorem scanUnits_escape (p : CodePoint) (rest : Text) :
    scanUnits (escape p ++ rest) = (scanUnits rest).map (prependAll (units p)) := by
  have escaped := escape_escaped p
  generalize escape p = text at escaped ⊢
  cases escaped with
  | short small unicode names printable =>
      rw [← prepend_small small]
      exact scanUnits_short unicode names rest
  | itself quote slash printable =>
      have value : (Char.ofNat p.val).toNat = p.val := toNat_ofNat (by omega)
      have same : pointOf (Char.ofNat p.val) = p := Subtype.ext value
      have other {c : Char} (differs : p.val ≠ c.toNat) : Char.ofNat p.val ≠ c := by
        intro equal
        rw [equal] at value
        exact differs value.symm
      rw [List.singleton_append, scanUnits_plain (other quote) (other slash) (by omega), same,
        prepend_small (by omega)]
  | units => exact scanUnits_escapeUnits (fun _ found => units_small found) rest

theorem scanUnits_escapes (s : Points) (rest : Text) :
    scanUnits (s.flatMap escape ++ '"' :: rest) = some (s.flatMap units, rest) := by
  induction s with
  | nil =>
      rw [List.flatMap_nil, List.nil_append, scanUnits.eq_def]
      simp
  | cons p later ih =>
      rw [List.flatMap_cons, List.append_assoc, scanUnits_escape, ih]
      rfl

/-- A written string is read back with its surrogates joined. -/
theorem scanString_escapes (s : Points) (rest : Text) :
    scanString (s.flatMap escape ++ '"' :: rest) = some (joinSurrogates s, rest) := by
  rw [scanString, scanUnits_escapes, Option.map_some, joinSurrogates_units]

/-- What is scanned of a text is scanned of a longer one. -/
theorem scanUnits_append {t : Text} {scanned : Points × Text} (more : Text)
    (found : scanUnits t = some scanned) :
    scanUnits (t ++ more) = some (scanned.1, scanned.2 ++ more) := by
  fun_induction scanUnits t generalizing scanned with
  | case1 => cases found
  | case2 rest =>
      cases found
      rw [List.cons_append, scanUnits.eq_def]
      simp
  | case3 => cases found
  | case4 first second third fourth rest quote ih =>
      obtain ⟨unit, read, later⟩ := Option.bind_eq_some_iff.mp found
      obtain ⟨tail, inner, rfl⟩ := Option.map_eq_some_iff.mp later
      simp only [List.cons_append]
      rw [scanUnits_unicode read, ih inner]
      rfl
  | case5 => cases found
  | case6 e rest unicode quote ih =>
      obtain ⟨point, read, later⟩ := Option.bind_eq_some_iff.mp found
      obtain ⟨tail, inner, rfl⟩ := Option.map_eq_some_iff.mp later
      simp only [List.cons_append]
      rw [scanUnits_short unicode read, ih inner]
      rfl
  | case7 => cases found
  | case8 c rest quote slash solid ih =>
      obtain ⟨tail, inner, rfl⟩ := Option.map_eq_some_iff.mp found
      rw [List.cons_append, scanUnits_plain quote slash solid, ih inner]
      rfl

/-- A string that breaks off before its closing quote is none. -/
theorem scanUnits_cut {s : Points} {t : Text} (cut : t <+: s.flatMap escape) :
    scanUnits t = none := by
  obtain ⟨rest, whole⟩ := cut
  cases found : scanUnits t with
  | none => rfl
  | some scanned =>
      have longer := scanUnits_append (rest ++ ['"']) found
      rw [← List.append_assoc, whole, scanUnits_escapes] at longer
      have ends := congrArg (fun scanned => scanned.2.length) (Option.some.inj longer)
      simp at ends

theorem scanString_cut {s : Points} {t : Text} (cut : t <+: s.flatMap escape) :
    scanString t = none := by rw [scanString, scanUnits_cut cut, Option.map_none]

/-! ## Integers -/

/-- Digits that the reader takes for one integer. -/
structure Numeral (t : Text) : Prop where
  nonempty : t ≠ []
  digital : ∀ c ∈ t, c.isDigit = true
  normal : t.head? = some '0' → t = ['0']

theorem Numeral.cut {t front : Text} (numeral : Numeral t) (cut : front <+: t)
    (nonempty : front ≠ []) : Numeral front where
  nonempty := nonempty
  digital c found := numeral.digital c (cut.subset found)
  normal zero := by
    obtain ⟨rest, rfl⟩ := cut
    have whole := numeral.normal (by rw [List.head?_append, zero]; rfl)
    cases front with
    | nil => exact absurd rfl nonempty
    | cons c later =>
        rw [List.cons_append, List.cons.injEq, List.append_eq_nil_iff] at whole
        rw [whole.1, whole.2.1]

theorem toDigits_head {n : Nat} (positive : n ≠ 0) : (Nat.toDigits 10 n).head? ≠ some '0' := by
  induction n using Nat.strong_induction_on with
  | _ n ih =>
      by_cases small : n < 10
      · have plain : ∀ n < 10, n ≠ 0 → Nat.digitChar n ≠ '0' := by decide
        rw [Nat.toDigits_of_lt_base small]
        simpa using plain n small positive
      · have front : Nat.toDigits 10 (n / 10) ≠ [] := Nat.toDigits_ne_nil
        rw [Nat.toDigits_of_base_le (by omega) (by omega), List.head?_append_of_ne_nil _ front]
        exact ih (n / 10) (by omega) (by omega)

theorem toDigits_numeral (n : Nat) : Numeral (Nat.toDigits 10 n) where
  nonempty := Nat.toDigits_ne_nil
  digital _ found := Nat.isDigit_of_mem_toDigits (by omega) (by omega) found
  normal zero := by
    by_cases positive : n = 0
    · subst positive
      rfl
    · exact absurd zero (toDigits_head positive)

/-- What cannot continue a number. -/
def Stops (t : Text) : Prop :=
  ∀ c ∈ t.head?, c.isDigit = false ∧ c ≠ '.' ∧ c ≠ 'e' ∧ c ≠ 'E'

theorem stops_nil : Stops [] := by simp [Stops]

theorem Stops.digits_nil {t : Text} (stops : Stops t) : digits t = [] ∧ afterDigits t = t := by
  cases t with
  | nil => exact ⟨rfl, rfl⟩
  | cons c rest =>
      have plain := (stops c rfl).1
      simp [digits, afterDigits, plain]

theorem digits_append {front t : Text} (digital : ∀ c ∈ front, c.isDigit = true) (stops : Stops t) :
    digits (front ++ t) = front ∧ afterDigits (front ++ t) = t := by
  obtain ⟨none_, all⟩ := stops.digits_nil
  unfold digits afterDigits at *
  rw [List.takeWhile_append_of_pos digital, List.dropWhile_append_of_pos digital, none_, all]
  exact ⟨List.append_nil _, rfl⟩

theorem scanWhole_numeral {front t : Text} (numeral : Numeral front) (stops : Stops t) :
    scanWhole (front ++ t) = some (front, t) := by
  cases front with
  | nil => exact absurd rfl numeral.nonempty
  | cons c later =>
      have digit := numeral.digital c (by simp)
      obtain ⟨taken, rest⟩ := @digits_append later t
        (fun d found => numeral.digital d (by simp [found])) stops
      rw [List.cons_append, scanWhole, taken, rest]
      by_cases zero : c = '0'
      · have whole := numeral.normal (by rw [zero]; rfl)
        rw [List.cons.injEq] at whole
        rw [if_pos zero, whole.1, whole.2]
        rfl
      · rw [if_neg zero, if_pos digit]

theorem scanFraction_stops {t : Text} (stops : Stops t) : scanFraction t = ([], t) := by
  unfold scanFraction
  split
  · exact absurd rfl (stops '.' rfl).2.1
  · rfl

theorem scanExponent_stops {t : Text} (stops : Stops t) : scanExponent t = (none, t) := by
  unfold scanExponent
  split
  · rfl
  · next e rest =>
      obtain ⟨_, _, small, large⟩ := stops e rfl
      simp [small, large]

theorem scanNumber_numeral {limits : Interpreter} {front t : Text} (negative : Bool)
    (numeral : Numeral front) (stops : Stops t) (allowed : limits.allows front.length = true) :
    scanNumber limits negative (front ++ t) =
      .ok (.int (signed negative (numeralValue front)), t) := by
  unfold scanNumber
  rw [scanWhole_numeral numeral stops]
  simp only [scanFraction_stops stops, scanExponent_stops stops, allowed, and_self, if_true]

/-! ## Scalars -/

theorem literal_other {expected found : Char} (differs : expected ≠ found) (rest t : Text) :
    literal (expected :: rest) (found :: t) = none := by
  simp [literal, List.dropPrefix?, differs.symm]

theorem literal_same (c : Char) (rest t : Text) :
    literal (c :: rest) (c :: t) = literal rest t := by
  simp [literal, List.dropPrefix?]

/-- Neither a word nor the start of a nested value. -/
structure Plain (c : Char) : Prop where
  noNull : 'n' ≠ c
  noTrue : 't' ≠ c
  noFalse : 'f' ≠ c
  noNan : 'N' ≠ c
  noInfinity : 'I' ≠ c
  noQuote : c ≠ '"'
  noObject : c ≠ '\x7b'
  noArray : c ≠ '['

theorem plain_digit {c : Char} (digit : c.isDigit = true) : Plain c := by
  constructor <;> rintro rfl <;> revert digit <;> decide

theorem plain_minus : Plain '-' := by constructor <;> decide

theorem scanWord_plain {c : Char} (plain : Plain c) (t : Text)
    (finite : literal "-Infinity".toList (c :: t) = none) : scanWord (c :: t) = none := by
  have null := literal_other plain.noNull "ull".toList t
  have true_ := literal_other plain.noTrue "rue".toList t
  have false_ := literal_other plain.noFalse "alse".toList t
  have nan := literal_other plain.noNan "aN".toList t
  have infinity := literal_other plain.noInfinity "nfinity".toList t
  simp only [scanWord, words, List.findSome?_cons, List.findSome?_nil, finite,
    show "null".toList = 'n' :: "ull".toList from rfl,
    show "true".toList = 't' :: "rue".toList from rfl,
    show "false".toList = 'f' :: "alse".toList from rfl,
    show "NaN".toList = 'N' :: "aN".toList from rfl,
    show "Infinity".toList = 'I' :: "nfinity".toList from rfl, null, true_, false_, nan, infinity,
    Option.map_none]

theorem minus_ne_digit {c : Char} (digit : c.isDigit = true) : '-' ≠ c := by
  rintro rfl
  revert digit
  decide

theorem scanOnce_plain {limits : Interpreter} {inner : Option Scanner} {c : Char} (plain : Plain c)
    (t : Text) : scanOnce limits inner (c :: t) = scanScalar limits (c :: t) := by
  simp only [scanOnce, plain.noQuote, plain.noObject, plain.noArray, if_false]

/-- An integer in front of what cannot continue it. -/
theorem scanOnce_numeral {limits : Interpreter} {front t : Text} (inner : Option Scanner)
    (numeral : Numeral front) (stops : Stops t) (allowed : limits.allows front.length = true) :
    scanOnce limits inner (front ++ t) = .ok (.int (numeralValue front), t) := by
  have number := scanNumber_numeral false numeral stops allowed
  cases front with
  | nil => exact absurd rfl numeral.nonempty
  | cons c later =>
      have digit := numeral.digital c (by simp)
      have finite : literal "-Infinity".toList (c :: (later ++ t)) = none :=
        literal_other (minus_ne_digit digit) "Infinity".toList _
      rw [List.cons_append] at number ⊢
      rw [scanOnce_plain (plain_digit digit), scanScalar, scanWord_plain (plain_digit digit) _ finite]
      · exact number
      · exact fun _ same => minus_ne_digit digit (List.cons.inj same).1.symm

theorem scanOnce_negative {limits : Interpreter} {front t : Text} (inner : Option Scanner)
    (numeral : Numeral front) (stops : Stops t) (allowed : limits.allows front.length = true) :
    scanOnce limits inner ('-' :: (front ++ t)) = .ok (.int (-(numeralValue front : Int)), t) := by
  have number := scanNumber_numeral true numeral stops allowed
  have finite : literal "-Infinity".toList ('-' :: (front ++ t)) = none := by
    cases front with
    | nil => exact absurd rfl numeral.nonempty
    | cons c later =>
        have digit := numeral.digital c (by simp)
        rw [show "-Infinity".toList = '-' :: 'I' :: "nfinity".toList from rfl, literal_same]
        exact literal_other (plain_digit digit).noInfinity "nfinity".toList _
  rw [scanOnce_plain plain_minus, scanScalar, scanWord_plain plain_minus _ finite]
  exact number

theorem scanOnce_string {limits : Interpreter} {inner : Option Scanner} {t rest : Text}
    {value : Points} (found : scanString t = some (value, rest)) :
    scanOnce limits inner ('"' :: t) = .ok (.str value, rest) := by
  rw [scanOnce.eq_def]
  simp only [if_true, found]

theorem scanOnce_unclosed {limits : Interpreter} {inner : Option Scanner} {t : Text}
    (missing : scanString t = none) : scanOnce limits inner ('"' :: t) = .error .decode := by
  rw [scanOnce.eq_def]
  simp only [if_true, missing]

theorem numeralValue_toDigits (n : Nat) : numeralValue (Nat.toDigits 10 n) = n :=
  Nat.ofDigitChars_ten_toDigits

/-- A written scalar is read back, in front of what cannot continue a number. -/
theorem scanOnce_scalar {limits : Interpreter} {value : Scalar} {text : Text}
    (inner : Option Scanner) (written : dumpsScalar limits value = some text) {t : Text}
    (stops : Stops t) : scanOnce limits inner (text ++ t) = .ok (value.json, t) := by
  cases value with
  | null =>
      cases written
      rw [show "null".toList = 'n' :: "ull".toList from rfl, List.cons_append]
      simp only [scanOnce, scanScalar, scanWord, words, List.findSome?_cons, ← List.cons_append,
        show 'n' :: "ull".toList = "null".toList from rfl, literal_append, Option.map_some]
      rfl
  | int n =>
      obtain ⟨allowed, same⟩ := Option.ite_none_right_eq_some.mp written
      obtain rfl := Option.some.inj same
      by_cases negative : n < 0
      · have size : -((n.natAbs : Nat) : Int) = n := by omega
        rw [dumpsInt, if_pos negative, List.singleton_append, List.cons_append,
          scanOnce_negative inner (toDigits_numeral _) stops allowed, numeralValue_toDigits, size]
        rfl
      · have size : ((n.natAbs : Nat) : Int) = n := by omega
        rw [dumpsInt, if_neg negative, List.nil_append,
          scanOnce_numeral inner (toDigits_numeral _) stops allowed, numeralValue_toDigits, size]
        rfl
  | str s =>
      cases written
      have shape : dumpsString s ++ t = '"' :: (s.flatMap escape ++ '"' :: t) := by
        simp [dumpsString]
      rw [shape, scanOnce_string (scanString_escapes s t)]
      rfl

theorem allows_less {limits : Interpreter} {less more : Nat} (fewer : less ≤ more)
    (allowed : limits.allows more = true) : limits.allows less = true := by
  unfold Interpreter.allows at *
  split
  · next limit bound =>
      rw [bound, decide_eq_true_eq] at allowed
      rw [decide_eq_true_eq]
      omega
  · rfl

/-- A scan that ends without a value, or with one and nothing behind it. -/
def Exhausts (scanned : Except JsonError (Json × Text)) : Prop :=
  scanned = .error .decode ∨ ∃ value, scanned = .ok (value, [])

/-- A numeral that breaks off behind its sign. -/
theorem exhausts_numeral {limits : Interpreter} {inner : Option Scanner} {sign text front : Text}
    {value : Text → Int} (bare : scanOnce limits inner sign = .error .decode)
    (read : ∀ {shorter : Text}, Numeral shorter → limits.allows shorter.length = true →
      scanOnce limits inner (sign ++ (shorter ++ [])) = .ok (.int (value shorter), []))
    (numeral : Numeral text) (allowed : limits.allows text.length = true) (cut : front <+: text) :
    Exhausts (scanOnce limits inner (sign ++ front)) := by
  by_cases nonempty : front = []
  · rw [nonempty, List.append_nil]
    exact Or.inl bare
  · have found := read (numeral.cut cut nonempty) (allows_less cut.length_le allowed)
    rw [List.append_nil] at found
    exact Or.inr ⟨_, found⟩

/-- A written scalar that breaks off: no error but that it is no JSON. -/
theorem exhausts_scalar {limits : Interpreter} {value : Scalar} {text front : Text}
    (inner : Option Scanner) (written : dumpsScalar limits value = some text)
    (cut : front <+: text) : Exhausts (scanOnce limits inner front) := by
  cases value with
  | null =>
      cases written
      rw [← List.mem_inits] at cut
      fin_cases cut
      · exact Or.inl rfl
      · exact Or.inl rfl
      · exact Or.inl rfl
      · exact Or.inl rfl
      · exact Or.inr ⟨.null, rfl⟩
  | int n =>
      obtain ⟨allowed, same⟩ := Option.ite_none_right_eq_some.mp written
      obtain rfl := Option.some.inj same
      unfold dumpsInt at cut
      by_cases negative : n < 0
      · rw [if_pos negative, List.singleton_append] at cut
        cases front with
        | nil => exact Or.inl rfl
        | cons c later =>
            obtain ⟨rfl, inside⟩ := List.cons_prefix_cons.mp cut
            exact @exhausts_numeral limits inner ['-'] _ _ _ rfl
              (fun numeral fits => scanOnce_negative inner numeral stops_nil fits)
              (toDigits_numeral _) allowed inside
      · rw [if_neg negative, List.nil_append] at cut
        exact @exhausts_numeral limits inner [] _ _ _ rfl
          (fun numeral fits => scanOnce_numeral inner numeral stops_nil fits)
          (toDigits_numeral _) allowed cut
  | str s =>
      cases written
      unfold dumpsString at cut
      cases front with
      | nil => exact Or.inl rfl
      | cons c later =>
          obtain ⟨rfl, inside⟩ := List.cons_prefix_cons.mp cut
          rcases List.prefix_concat_iff.mp inside with rfl | opened
          · exact Or.inr ⟨_, scanOnce_string (scanString_escapes s [])⟩
          · exact Or.inl (scanOnce_unclosed (scanString_cut opened))

/-! ## Objects -/

/-- A scanner of values, for whatever depth is left. -/
def ReadsValues (limits : Interpreter) (scan : Scanner) : Prop :=
  ∃ inner, scan = scanOnce limits inner

theorem scanValue_reads (limits : Interpreter) (depth : Nat) :
    ReadsValues limits (scanValue limits depth) := by
  cases depth with
  | zero => exact ⟨none, rfl⟩
  | succ depth => exact ⟨some (scanValue limits depth), rfl⟩

/-- What the reader makes of the members. -/
def readMembers (members : List (Points × Scalar)) : List (Points × Json) :=
  members.map fun entry => (joinSurrogates entry.1, entry.2.json)

theorem stops_brace (t : Text) : Stops ('\x7d' :: t) := by
  intro c found
  obtain rfl := Option.some.inj found
  decide

theorem stops_comma (t : Text) : Stops (',' :: t) := by
  intro c found
  obtain rfl := Option.some.inj found
  decide

theorem skipSpace_solid {c : Char} (solid : isJsonSpace c = false) (t : Text) :
    skipSpace (c :: t) = c :: t := by
  simp [skipSpace, solid]

theorem skipSpace_space (t : Text) : skipSpace (' ' :: t) = skipSpace t := rfl

/-- Not beginning with white space. -/
def Solid (t : Text) : Prop := ∀ c ∈ t.head?, isJsonSpace c = false

theorem skipSpace_of_solid {t : Text} (solid : Solid t) : skipSpace t = t := by
  cases t with
  | nil => rfl
  | cons c rest => exact skipSpace_solid (solid c rfl) rest

theorem Solid.cut {t front : Text} (solid : Solid t) (cut : front <+: t) : Solid front := by
  intro c found
  obtain ⟨rest, rfl⟩ := cut
  exact solid c (by rw [List.head?_append, found]; rfl)

theorem isJsonSpace_digit {c : Char} (digit : c.isDigit = true) : isJsonSpace c = false := by
  cases space : isJsonSpace c with
  | false => rfl
  | true =>
      simp only [isJsonSpace, Bool.or_eq_true, beq_iff_eq] at space
      rcases space with ((rfl | rfl) | rfl) | rfl <;> revert digit <;> decide

theorem scalar_solid {limits : Interpreter} {value : Scalar} {text : Text}
    (written : dumpsScalar limits value = some text) (t : Text) : Solid (text ++ t) := by
  cases value with
  | null =>
      cases written
      intro c found
      obtain rfl := Option.some.inj found
      decide
  | int n =>
      obtain ⟨allowed, same⟩ := Option.ite_none_right_eq_some.mp written
      obtain rfl := Option.some.inj same
      intro c found
      unfold dumpsInt at found
      by_cases negative : n < 0
      · rw [if_pos negative] at found
        obtain rfl := Option.some.inj found
        decide
      · have numeral := toDigits_numeral n.natAbs
        rw [if_neg negative, List.nil_append, List.head?_append_of_ne_nil _ numeral.nonempty] at found
        exact isJsonSpace_digit (numeral.digital c (List.mem_of_mem_head? found))
  | str s =>
      cases written
      intro c found
      obtain rfl := Option.some.inj found
      decide

theorem dumpsEntry_shape (key : Points) (text t : Text) :
    dumpsEntry key text ++ t = '"' :: (key.flatMap escape ++ '"' :: ':' :: ' ' :: (text ++ t)) := by
  simp [dumpsEntry, dumpsString]

theorem scanName_entry (key : Points) {text : Text} (solid : Solid text) :
    scanName ('"' :: (key.flatMap escape ++ '"' :: ':' :: ' ' :: text)) =
      some (joinSurrogates key, text) := by
  rw [scanName, scanString_escapes, Option.bind_some, skipSpace_solid (by decide)]
  simp only
  rw [skipSpace_space, skipSpace_of_solid solid]

theorem prefix_cases {t front back : Text} (cut : t <+: front ++ back) :
    t <+: front ∨ ∃ rest, t = front ++ rest ∧ rest <+: back := by
  rcases List.prefix_or_prefix_of_prefix cut (List.prefix_append front back) with inside | ⟨rest, rfl⟩
  · exact Or.inl inside
  · exact Or.inr ⟨rest, rfl, (List.prefix_append_right_inj front).mp cut⟩

/-- Behind the closing quote of a name. -/
theorem scanName_opened {key : Points} {text t : Text} (solid : Solid text)
    (cut : t <+: ':' :: ' ' :: text) :
    scanName ('"' :: (key.flatMap escape ++ '"' :: t)) = none ∨
      ∃ rest, scanName ('"' :: (key.flatMap escape ++ '"' :: t)) =
        some (joinSurrogates key, rest) ∧ rest <+: text := by
  rw [scanName, scanString_escapes, Option.bind_some]
  cases t with
  | nil => exact Or.inl rfl
  | cons c t =>
      obtain ⟨rfl, spaced⟩ := List.cons_prefix_cons.mp cut
      refine Or.inr ⟨skipSpace t, ?_, ?_⟩
      · rw [skipSpace_solid (by decide)]
        rfl
      · cases t with
        | nil => exact List.nil_prefix
        | cons c t =>
            obtain ⟨rfl, inside⟩ := List.cons_prefix_cons.mp spaced
            rw [skipSpace_space, skipSpace_of_solid (solid.cut inside)]
            exact inside

/-- A member that breaks off has no name, or a value that breaks off. -/
theorem scanName_cut {key : Points} {text t : Text} (solid : Solid text)
    (cut : t <+: dumpsEntry key text) :
    scanName t = none ∨ ∃ rest, scanName t = some (joinSurrogates key, rest) ∧ rest <+: text := by
  have shape := dumpsEntry_shape key text []
  rw [List.append_nil, List.append_nil] at shape
  rw [shape] at cut
  cases t with
  | nil => exact Or.inl rfl
  | cons c t =>
      obtain ⟨rfl, inside⟩ := List.cons_prefix_cons.mp cut
      rcases prefix_cases inside with opened | ⟨rest, rfl, later⟩
      · rw [scanName, scanString_cut opened]
        exact Or.inl rfl
      · cases rest with
        | nil =>
            rw [List.append_nil, scanName, scanString_cut List.prefix_rfl]
            exact Or.inl rfl
        | cons c rest =>
            obtain ⟨rfl, behind⟩ := List.cons_prefix_cons.mp later
            exact scanName_opened solid behind

/-! ### One member -/

section

variable {limits : Interpreter} {scan : Scanner} {t rest after : Text} {key : Points} {value : Json}

theorem scanMembers_last (more : Nat) (held : List (Points × Json))
    (named : scanName t = some (key, rest)) (read : scan rest = .ok (value, '\x7d' :: after)) :
    scanMembers scan (more + 1) held t = .ok (.obj (held ++ [(key, value)]), after) := by
  rw [scanMembers, named]
  simp only [read]
  rw [skipSpace_solid (by decide)]
  rfl

theorem scanMembers_next (more : Nat) (held : List (Points × Json))
    (named : scanName t = some (key, rest)) (read : scan rest = .ok (value, ',' :: ' ' :: after)) :
    scanMembers scan (more + 1) held t =
      scanMembers scan more (held ++ [(key, value)]) (skipSpace after) := by
  rw [scanMembers, named]
  simp only [read]
  rw [skipSpace_solid (by decide)]
  rfl

theorem scanMembers_comma (more : Nat) (held : List (Points × Json))
    (named : scanName t = some (key, rest)) (read : scan rest = .ok (value, [','])) :
    scanMembers scan (more + 1) held t = scanMembers scan more (held ++ [(key, value)]) [] := by
  rw [scanMembers, named]
  simp only [read]
  rfl

theorem scanMembers_unnamed (more : Nat) (held : List (Points × Json))
    (unnamed : scanName t = none) : scanMembers scan more held t = .error .decode := by
  cases more with
  | zero => rfl
  | succ more => rw [scanMembers, unnamed]

theorem scanMembers_exhausted (more : Nat) (held : List (Points × Json))
    (named : scanName t = some (key, rest)) (exhausts : Exhausts (scan rest)) :
    scanMembers scan more held t = .error .decode := by
  cases more with
  | zero => rfl
  | succ more =>
      rw [scanMembers, named]
      rcases exhausts with failed | ⟨value, read⟩
      · simp only [failed]
      · simp only [read]
        rfl

end

/-! ### All members -/

theorem dumpsMembers_head {limits : Interpreter} {members : List (Points × Scalar)} {text : Text}
    (written : dumpsMembers limits members = some text) (nonempty : members ≠ []) :
    ∃ rest, text = '"' :: rest := by
  cases members with
  | nil => exact absurd rfl nonempty
  | cons entry later =>
      obtain ⟨first, _, whole⟩ := Option.bind_eq_some_iff.mp written
      by_cases last : later = []
      · rw [if_pos last] at whole
        cases whole
        exact ⟨_, rfl⟩
      · rw [if_neg last] at whole
        obtain ⟨others, _, rfl⟩ := Option.map_eq_some_iff.mp whole
        exact ⟨_, rfl⟩

theorem members_solid {limits : Interpreter} {members : List (Points × Scalar)} {text : Text}
    (written : dumpsMembers limits members = some text) (nonempty : members ≠ []) : Solid text := by
  obtain ⟨rest, rfl⟩ := dumpsMembers_head written nonempty
  intro c found
  obtain rfl := Option.some.inj found
  decide

theorem skipSpace_members {limits : Interpreter} {members : List (Points × Scalar)} {text : Text}
    (written : dumpsMembers limits members = some text) (nonempty : members ≠ []) (t : Text) :
    skipSpace (text ++ t) = text ++ t := by
  obtain ⟨rest, rfl⟩ := dumpsMembers_head written nonempty
  exact skipSpace_solid (by decide) _

/-- The members of a written object are read back. -/
theorem scanMembers_written {limits : Interpreter} {scan : Scanner}
    (reads : ReadsValues limits scan) {members : List (Points × Scalar)} (nonempty : members ≠ [])
    {text : Text} (written : dumpsMembers limits members = some text) (t : Text)
    (held : List (Points × Json)) {more : Nat} (enough : members.length ≤ more) :
    scanMembers scan more held (text ++ '\x7d' :: t) =
      .ok (.obj (held ++ readMembers members), t) := by
  induction members generalizing text held more with
  | nil => exact absurd rfl nonempty
  | cons entry later ih =>
      obtain ⟨inner, rfl⟩ := reads
      obtain ⟨more, rfl⟩ : ∃ less, more = less + 1 :=
        Nat.exists_eq_add_one.mpr (by simp only [List.length_cons] at enough; omega)
      obtain ⟨first, value, whole⟩ := Option.bind_eq_some_iff.mp written
      by_cases last : later = []
      · rw [if_pos last] at whole
        obtain rfl := Option.some.inj whole
        rw [dumpsEntry_shape, scanMembers_last more held
          (scanName_entry entry.1 (scalar_solid value _))
          (scanOnce_scalar inner value (stops_brace t)), last]
        rfl
      · rw [if_neg last] at whole
        obtain ⟨others, rest, rfl⟩ := Option.map_eq_some_iff.mp whole
        rw [List.append_assoc, dumpsEntry_shape, List.cons_append, List.cons_append,
          scanMembers_next more held (scanName_entry entry.1 (scalar_solid value _))
            (scanOnce_scalar inner value (stops_comma _)), skipSpace_members rest last,
          ih last rest _ (by simp only [List.length_cons] at enough; omega), List.append_assoc]
        rfl

theorem stops_of_prefix_comma {t rest : Text} (cut : t <+: ',' :: rest) : Stops t := by
  intro c found
  obtain ⟨more, whole⟩ := cut
  cases t with
  | nil => cases found
  | cons d later =>
      obtain rfl := Option.some.inj found
      rw [(List.cons.inj whole).1]
      decide

/-- The members of a written object, breaking off somewhere, are no JSON. -/
theorem scanMembers_cut {limits : Interpreter} {scan : Scanner} (reads : ReadsValues limits scan)
    {members : List (Points × Scalar)} (nonempty : members ≠ []) {text t : Text}
    (written : dumpsMembers limits members = some text) (held : List (Points × Json)) (more : Nat)
    (cut : t <+: text) : scanMembers scan more held t = .error .decode := by
  induction members generalizing text t held more with
  | nil => exact absurd rfl nonempty
  | cons entry later ih =>
      obtain ⟨inner, rfl⟩ := reads
      obtain ⟨first, value, whole⟩ := Option.bind_eq_some_iff.mp written
      have solid : Solid first := by
        have front := scalar_solid value []
        rwa [List.append_nil] at front
      have inside {t : Text} (cut : t <+: dumpsEntry entry.1 first) :
          scanMembers (scanOnce limits inner) more held t = .error .decode := by
        rcases scanName_cut solid cut with unnamed | ⟨rest, named, broken⟩
        · exact scanMembers_unnamed more held unnamed
        · exact scanMembers_exhausted more held named (exhausts_scalar inner value broken)
      by_cases last : later = []
      · rw [if_pos last] at whole
        obtain rfl := Option.some.inj whole
        exact inside cut
      · rw [if_neg last] at whole
        obtain ⟨others, rest, rfl⟩ := Option.map_eq_some_iff.mp whole
        rcases prefix_cases cut with broken | ⟨tail, rfl, behind⟩
        · exact inside broken
        · cases more with
          | zero => rfl
          | succ more =>
              have read := scanOnce_scalar inner value (stops_of_prefix_comma behind)
              have named := scanName_entry entry.1 (scalar_solid value tail)
              rw [← dumpsEntry_shape] at named
              cases tail with
              | nil => exact inside (by rw [List.append_nil])
              | cons c tail =>
                  obtain ⟨rfl, spaced⟩ := List.cons_prefix_cons.mp behind
                  cases tail with
                  | nil =>
                      rw [scanMembers_comma more held named read]
                      exact ih last rest _ more List.nil_prefix
                  | cons c tail =>
                      obtain ⟨rfl, broken⟩ := List.cons_prefix_cons.mp spaced
                      rw [scanMembers_next more held named read,
                        skipSpace_of_solid ((members_solid rest last).cut broken)]
                      exact ih last rest _ more broken

theorem dumpsMembers_length {limits : Interpreter} {members : List (Points × Scalar)} {text : Text}
    (written : dumpsMembers limits members = some text) : members.length ≤ text.length := by
  induction members generalizing text with
  | nil => exact Nat.zero_le _
  | cons entry later ih =>
      obtain ⟨first, value, whole⟩ := Option.bind_eq_some_iff.mp written
      by_cases last : later = []
      · rw [if_pos last] at whole
        obtain rfl := Option.some.inj whole
        simp [last, dumpsEntry, dumpsString]
      · rw [if_neg last] at whole
        obtain ⟨others, rest, rfl⟩ := Option.map_eq_some_iff.mp whole
        have shorter := ih rest
        simp only [List.length_cons, List.length_append]
        omega

theorem scanObject_members {scan : Scanner} {t : Text} (opened : skipSpace ('"' :: t) = '"' :: t) :
    scanObject scan ('"' :: t) = scanMembers scan ('"' :: t).length [] ('"' :: t) := by
  rw [scanObject, opened]
  rfl

theorem loads_object (limits : Interpreter) (t : Text) :
    ∃ scan, ReadsValues limits scan ∧ loads limits ('\x7b' :: t) =
      (scanObject scan t).bind fun scanned =>
        if skipSpace scanned.2 = [] then .ok scanned.1 else .error .decode := by
  obtain ⟨depth, nested⟩ := Nat.exists_eq_add_one.mpr limits.nests
  refine ⟨scanValue limits depth, scanValue_reads limits depth, ?_⟩
  have opened : scanValue limits limits.maxDepth (skipSpace ('\x7b' :: t)) =
      scanObject (scanValue limits depth) t := by
    rw [nested, skipSpace_solid (by decide), scanValue, scanOnce.eq_def]
    rfl
  have marked : ('\x7b' :: t).head? ≠ some byteOrderMark := by
    rw [List.head?_cons]
    decide
  rw [loads, if_neg marked, opened]
  cases scanObject (scanValue limits depth) t <;> rfl

/-- A written object is read back. -/
theorem loads_dumps {limits : Interpreter} {members : List (Points × Scalar)} {line : Text}
    (written : dumps limits members = some line) :
    loads limits line = .ok (.obj (readMembers members)) := by
  obtain ⟨text, inner, rfl⟩ := Option.map_eq_some_iff.mp written
  obtain ⟨scan, reads, same⟩ := loads_object limits (text ++ ['\x7d'])
  rw [List.cons_append, same]
  by_cases nonempty : members = []
  · subst nonempty
    cases inner
    rfl
  · obtain ⟨rest, begins⟩ := dumpsMembers_head inner nonempty
    have fits := dumpsMembers_length inner
    have read := scanMembers_written reads nonempty inner [] []
      (show members.length ≤ (text ++ ['\x7d']).length by
        rw [List.length_append]
        omega)
    have opened := skipSpace_members inner nonempty ['\x7d']
    rw [begins, List.cons_append] at opened read ⊢
    rw [scanObject_members opened, read]
    rfl

/-- A written object that breaks off is no JSON. -/
theorem loads_cut {limits : Interpreter} {members : List (Points × Scalar)} {line t : Text}
    (written : dumps limits members = some line) (cut : t <+: line) (unfinished : t ≠ line) :
    loads limits t = .error .decode := by
  obtain ⟨text, inner, rfl⟩ := Option.map_eq_some_iff.mp written
  cases t with
  | nil =>
      have empty (depth : Nat) : scanValue limits depth [] = .error .decode := by
        cases depth <;> rfl
      rw [loads, if_neg (by simp), skipSpace, List.dropWhile_nil, empty]
  | cons c t =>
      rw [List.cons_append] at cut unfinished
      obtain ⟨rfl, inside⟩ := List.cons_prefix_cons.mp cut
      obtain ⟨scan, reads, same⟩ := loads_object limits t
      rw [same]
      have broken : t <+: text := by
        rcases List.prefix_concat_iff.mp inside with rfl | broken
        · exact absurd rfl unfinished
        · exact broken
      have failed : scanObject scan t = .error .decode := by
        cases t with
        | nil => rfl
        | cons c t =>
            have nonempty : members ≠ [] := by
              rintro rfl
              cases inner
              simp at broken
            obtain ⟨rest, rfl⟩ := dumpsMembers_head inner nonempty
            obtain ⟨rfl, _⟩ := List.cons_prefix_cons.mp broken
            rw [scanObject_members (skipSpace_solid (by decide) _)]
            exact scanMembers_cut reads nonempty inner [] _ broken
      rw [failed]
      rfl

/-! ## Looking members up -/

/-- Where no two members have one name, each is found under its own. -/
theorem member_of_mem {members : List (Points × Json)} (distinct : (members.map (·.1)).Nodup)
    {key : Points} {value : Json} (found : (key, value) ∈ members) :
    member members key = some value := by
  have first {entries : List (Points × Json)} (distinct : (entries.map (·.1)).Nodup)
      (found : (key, value) ∈ entries) :
      entries.find? (fun entry => entry.1 = key) = some (key, value) := by
    induction entries with
    | nil => cases found
    | cons entry rest ih =>
        rw [List.map_cons, List.nodup_cons] at distinct
        rcases List.mem_cons.mp found with rfl | later
        · simp
        · have other : entry.1 ≠ key := by
            rintro rfl
            exact distinct.1 (List.mem_map.mpr ⟨_, later, rfl⟩)
          rw [List.find?_cons_of_neg (by simpa using other)]
          exact ih distinct.2 later
  have reversed : (members.reverse.map (·.1)).Nodup := by
    rw [List.map_reverse, List.nodup_reverse]
    exact distinct
  rw [member, first reversed (List.mem_reverse.mpr found)]
  rfl

/-! ## What is written is printable ASCII -/

/-- Every character is printable ASCII; no line boundary is among them. -/
def Printable (t : Text) : Prop := ∀ c ∈ t, 0x20 ≤ c.toNat ∧ c.toNat ≤ 0x7E

instance (t : Text) : Decidable (Printable t) := List.decidableBAll _ t

theorem printable_append {front back : Text} :
    Printable (front ++ back) ↔ Printable front ∧ Printable back := List.forall_mem_append

theorem printable_cons {c : Char} {t : Text} :
    Printable (c :: t) ↔ (0x20 ≤ c.toNat ∧ c.toNat ≤ 0x7E) ∧ Printable t := List.forall_mem_cons

theorem Printable.unbroken {t : Text} (printable : Printable t) : Unbroken t := by
  intro c found
  have range := printable c found
  simp only [isLineBreak, Bool.or_eq_false_iff, Bool.and_eq_false_iff, decide_eq_false_iff_not,
    beq_eq_false_iff_ne]
  omega

theorem digitChar_printable :
    ∀ n < 16, 0x20 ≤ (Nat.digitChar n).toNat ∧ (Nat.digitChar n).toNat ≤ 0x7E := by decide

theorem escapeUnit_printable (n : Nat) : Printable (escapeUnit n) := by
  have digit (k : Nat) := digitChar_printable (k % 16) (Nat.mod_lt _ (by omega))
  simp only [escapeUnit, hexDigits, printable_cons]
  exact ⟨by decide, by decide, digit _, digit _, digit _, digit _, by simp [Printable]⟩

theorem escape_printable (p : CodePoint) : Printable (escape p) := by
  have escaped := escape_escaped p
  generalize escape p = text at escaped ⊢
  cases escaped with
  | short small unicode names printable =>
      exact printable_cons.mpr ⟨by decide, printable_cons.mpr ⟨printable, by decide⟩⟩
  | itself quote slash printable =>
      have value : (Char.ofNat p.val).toNat = p.val := toNat_ofNat (by omega)
      rw [← value] at printable
      exact printable_cons.mpr ⟨printable, by decide⟩
  | units =>
      intro c found
      obtain ⟨unit, _, inside⟩ := List.mem_flatMap.mp found
      exact escapeUnit_printable unit.val c inside

theorem dumpsString_printable (s : Points) : Printable (dumpsString s) := by
  have inner : Printable (s.flatMap escape) := by
    intro c found
    obtain ⟨p, _, inside⟩ := List.mem_flatMap.mp found
    exact escape_printable p c inside
  unfold dumpsString
  rw [List.cons_append, printable_cons, printable_append]
  exact ⟨by decide, inner, by decide⟩

theorem digit_printable {c : Char} (digit : c.isDigit = true) :
    0x20 ≤ c.toNat ∧ c.toNat ≤ 0x7E := by
  have range := Char.isDigit_iff_toNat.mp digit
  have zero : '0'.toNat = 48 := rfl
  have nine : '9'.toNat = 57 := rfl
  omega

theorem dumpsScalar_printable {limits : Interpreter} {value : Scalar} {text : Text}
    (written : dumpsScalar limits value = some text) : Printable text := by
  cases value with
  | null =>
      cases written
      decide
  | int n =>
      obtain ⟨_, same⟩ := Option.ite_none_right_eq_some.mp written
      obtain rfl := Option.some.inj same
      unfold dumpsInt
      rw [printable_append]
      constructor
      · split <;> decide
      · exact fun c found => digit_printable ((toDigits_numeral _).digital c found)
  | str s =>
      cases written
      exact dumpsString_printable s

theorem dumpsMembers_printable {limits : Interpreter} {members : List (Points × Scalar)}
    {text : Text} (written : dumpsMembers limits members = some text) : Printable text := by
  induction members generalizing text with
  | nil =>
      cases written
      decide
  | cons entry later ih =>
      obtain ⟨first, value, whole⟩ := Option.bind_eq_some_iff.mp written
      have front : Printable (dumpsEntry entry.1 first) := by
        unfold dumpsEntry
        rw [printable_append, printable_cons, printable_cons]
        exact ⟨dumpsString_printable entry.1, by decide, by decide, dumpsScalar_printable value⟩
      by_cases last : later = []
      · rw [if_pos last] at whole
        obtain rfl := Option.some.inj whole
        exact front
      · rw [if_neg last] at whole
        obtain ⟨others, rest, rfl⟩ := Option.map_eq_some_iff.mp whole
        rw [printable_append, printable_cons, printable_cons]
        exact ⟨front, by decide, by decide, ih rest⟩

theorem dumps_printable {limits : Interpreter} {members : List (Points × Scalar)} {line : Text}
    (written : dumps limits members = some line) : Printable line := by
  obtain ⟨text, inner, rfl⟩ := Option.map_eq_some_iff.mp written
  rw [List.cons_append, printable_cons, printable_append]
  exact ⟨by decide, dumpsMembers_printable inner, by decide⟩

end JsonText
