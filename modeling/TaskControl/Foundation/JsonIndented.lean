import TaskControl.Foundation.JsonWriting

/-!
# Indented JSON is read back

Values of any depth, written with each item on a line of its own.  Of the numbers
the writer knows the integers.  The reader gives a value back with the surrogates
of its strings joined, if it may nest calls as deep as the value is.
-/

set_option autoImplicit false

namespace JsonText

open PythonText LinePattern

/-! ## Writing -/

/-- A line feed and two blanks for each level. -/
def lineBreak (level : Nat) : Text := '\n' :: List.replicate (2 * level) ' '

/-- Items between brackets. -/
def layOut (opening closing : Char) (level : Nat) : List Text → Text
  | [] => [opening, closing]
  | first :: rest =>
      opening :: (lineBreak (level + 1) ++
        List.intercalate (',' :: lineBreak (level + 1)) (first :: rest) ++
        lineBreak level ++ [closing])

mutual

/-- `json.dumps(value, indent=2)` at a level of indentation. -/
def dumpsValue (limits : Interpreter) (level : Nat) : Json → Option Text
  | .null => some "null".toList
  | .bool value => some (if value then "true".toList else "false".toList)
  | .int n => dumpsScalar limits (.int n)
  | .str s => some (dumpsString s)
  | .arr items => (dumpsItems limits (level + 1) items).map (layOut '[' ']' level)
  | .obj members => (dumpsFields limits (level + 1) members).map (layOut '\x7b' '\x7d' level)
  | .decimal _ => none
  | .nan => none
  | .infinity _ => none

def dumpsItems (limits : Interpreter) (level : Nat) : List Json → Option (List Text)
  | [] => some []
  | item :: rest =>
      (dumpsValue limits level item).bind fun text =>
        (dumpsItems limits level rest).map (text :: ·)

def dumpsFields (limits : Interpreter) (level : Nat) : List (Points × Json) → Option (List Text)
  | [] => some []
  | (key, value) :: rest =>
      (dumpsValue limits level value).bind fun text =>
        (dumpsFields limits level rest).map (dumpsEntry key text :: ·)

end

/-! ## Depth and surrogates -/

mutual

/-- How many arrays and objects are nested. -/
def Json.depth : Json → Nat
  | .arr items => depthItems items + 1
  | .obj members => depthFields members + 1
  | .null | .bool _ | .int _ | .decimal _ | .nan | .infinity _ | .str _ => 0

def depthItems : List Json → Nat
  | [] => 0
  | item :: rest => max item.depth (depthItems rest)

def depthFields : List (Points × Json) → Nat
  | [] => 0
  | (_, value) :: rest => max value.depth (depthFields rest)

end

mutual

/-- The value with the surrogates of its strings joined. -/
def Json.joined : Json → Json
  | .str s => .str (joinSurrogates s)
  | .arr items => .arr (joinedItems items)
  | .obj members => .obj (joinedFields members)
  | .null => .null
  | .bool value => .bool value
  | .int n => .int n
  | .decimal value => .decimal value
  | .nan => .nan
  | .infinity negative => .infinity negative

def joinedItems : List Json → List Json
  | [] => []
  | item :: rest => item.joined :: joinedItems rest

def joinedFields : List (Points × Json) → List (Points × Json)
  | [] => []
  | (key, value) :: rest => (joinSurrogates key, value.joined) :: joinedFields rest

end

/-! ## Layout -/

/-- Neither white space nor what ends an array, an object or the reading. -/
def StartsValue (c : Char) : Prop :=
  isJsonSpace c = false ∧ c ≠ ']' ∧ c ≠ '\x7d' ∧ c ≠ byteOrderMark

instance (c : Char) : Decidable (StartsValue c) :=
  inferInstanceAs (Decidable (isJsonSpace c = false ∧ c ≠ ']' ∧ c ≠ '\x7d' ∧ c ≠ byteOrderMark))

def Opens (t : Text) : Prop := ∃ c rest, t = c :: rest ∧ StartsValue c

/-- A scanner takes the text for the value, in front of what cannot continue a number. -/
structure Reads (scan : Scanner) (text : Text) (value : Json) : Prop where
  opens : Opens text
  read : ∀ t, Stops t → scan (text ++ t) = .ok (value, t)

theorem Opens.append {text : Text} (opens : Opens text) (t : Text) : Opens (text ++ t) := by
  obtain ⟨c, rest, rfl, starts⟩ := opens
  exact ⟨c, rest ++ t, rfl, starts⟩

theorem Opens.solid {text : Text} (opens : Opens text) : Solid text := by
  obtain ⟨c, rest, rfl, starts⟩ := opens
  intro d found
  obtain rfl := Option.some.inj found
  exact starts.1

theorem stops_break (level : Nat) (t : Text) : Stops (lineBreak level ++ t) := by
  intro c found
  obtain rfl := Option.some.inj found
  decide

theorem skipSpace_blanks (count : Nat) (t : Text) :
    skipSpace (List.replicate count ' ' ++ t) = skipSpace t := by
  induction count with
  | zero => rfl
  | succ count ih => rw [List.replicate_succ, List.cons_append, skipSpace_space, ih]

theorem skipSpace_break (level : Nat) {t : Text} (solid : Solid t) :
    skipSpace (lineBreak level ++ t) = t := by
  have opened : skipSpace (lineBreak level ++ t) =
      skipSpace (List.replicate (2 * level) ' ' ++ t) := rfl
  rw [opened, skipSpace_blanks, skipSpace_of_solid solid]

theorem skipSpace_closing (level : Nat) {c : Char} (solid : isJsonSpace c = false) (t : Text) :
    skipSpace (lineBreak level ++ c :: t) = c :: t := by
  refine skipSpace_break level fun d found => ?_
  obtain rfl := Option.some.inj found
  exact solid

theorem opens_intercalate {text : Text} (opens : Opens text) (separator : Text) (rest : List Text)
    (t : Text) : Opens (List.intercalate separator (text :: rest) ++ t) := by
  cases rest with
  | nil =>
      rw [List.intercalate_singleton]
      exact opens.append t
  | cons next rest =>
      rw [List.intercalate_cons_cons, List.append_assoc, List.append_assoc]
      exact opens.append _

section

variable {scan : Scanner} {texts : List Text}

/-- Items that are read one by one are read as an array. -/
theorem scanItems_lines {values : List Json} (level : Nat) (t : Text)
    (each : List.Forall₂ (Reads scan) texts values) (nonempty : texts ≠ [])
    (held : List Json) {more : Nat} (enough : texts.length ≤ more) :
    scanItems scan more held (List.intercalate (',' :: lineBreak (level + 1)) texts ++
      (lineBreak level ++ ']' :: t)) = .ok (.arr (held ++ values), t) := by
  induction each generalizing held more with
  | nil => exact absurd rfl nonempty
  | @cons text value texts values here later ih =>
      obtain ⟨more, rfl⟩ : ∃ less, more = less + 1 :=
        Nat.exists_eq_add_one.mpr (by simp only [List.length_cons] at enough; omega)
      cases later with
      | nil =>
          have closed := @skipSpace_closing level ']' (by decide) t
          rw [List.intercalate_singleton, scanItems, here.read _ (stops_break level _)]
          simp only [closed]
      | @cons next nextValue rest restValues nextReads others =>
          have fewer : (next :: rest).length ≤ more := by
            simp only [List.length_cons] at enough ⊢
            omega
          have begins := opens_intercalate nextReads.opens (',' :: lineBreak (level + 1)) rest
            (lineBreak level ++ ']' :: t)
          rw [List.intercalate_cons_cons, List.append_assoc, List.append_assoc, scanItems,
            List.cons_append, here.read _ (stops_comma _)]
          simp only [skipSpace_solid (show isJsonSpace ',' = false by decide),
            skipSpace_break (level + 1) begins.solid]
          rw [ih (List.cons_ne_nil _ _) (held ++ [value]) fewer, List.append_assoc]
          rfl

/-- An entry whose value the scanner reads. -/
def ReadsField (scan : Scanner) (text : Text) (entry : Points × Json) : Prop :=
  ∃ key inner, text = dumpsEntry key inner ∧ entry.1 = joinSurrogates key ∧
    Reads scan inner entry.2

theorem ReadsField.opens {text : Text} {entry : Points × Json} (reads : ReadsField scan text entry) :
    Opens text := by
  obtain ⟨key, inner, rfl, _, _⟩ := reads
  exact ⟨'"', _, rfl, by decide⟩

/-- Entries that are read one by one are read as an object. -/
theorem scanMembers_lines {members : List (Points × Json)} (level : Nat) (t : Text)
    (each : List.Forall₂ (ReadsField scan) texts members) (nonempty : texts ≠ [])
    (held : List (Points × Json)) {more : Nat} (enough : texts.length ≤ more) :
    scanMembers scan more held (List.intercalate (',' :: lineBreak (level + 1)) texts ++
      (lineBreak level ++ '\x7d' :: t)) = .ok (.obj (held ++ members), t) := by
  induction each generalizing held more with
  | nil => exact absurd rfl nonempty
  | @cons text entry texts members here later ih =>
      obtain ⟨more, rfl⟩ : ∃ less, more = less + 1 :=
        Nat.exists_eq_add_one.mpr (by simp only [List.length_cons] at enough; omega)
      obtain ⟨key, inner, rfl, named, reads⟩ := here
      cases later with
      | nil =>
          have closed := @skipSpace_closing level '\x7d' (by decide) t
          rw [List.intercalate_singleton, dumpsEntry_shape, scanMembers,
            scanName_entry key (reads.opens.append _).solid]
          simp only [reads.read _ (stops_break level _), closed]
          rw [← named]
      | @cons next nextEntry rest restMembers nextReads others =>
          have fewer : (next :: rest).length ≤ more := by
            simp only [List.length_cons] at enough ⊢
            omega
          have begins := opens_intercalate nextReads.opens (',' :: lineBreak (level + 1)) rest
            (lineBreak level ++ '\x7d' :: t)
          rw [List.intercalate_cons_cons, List.append_assoc, List.append_assoc, dumpsEntry_shape,
            scanMembers, scanName_entry key (reads.opens.append _).solid]
          simp only [List.cons_append, reads.read _ (stops_comma _),
            skipSpace_solid (show isJsonSpace ',' = false by decide),
            skipSpace_break (level + 1) begins.solid]
          rw [← named, ih (List.cons_ne_nil _ _) (held ++ [(entry.1, entry.2)]) fewer,
            List.append_assoc]
          rfl

theorem intercalate_length (separator : Text) (positive : separator ≠ []) (texts : List Text) :
    texts.length ≤ (List.intercalate separator texts).length + 1 := by
  induction texts with
  | nil => exact Nat.zero_le _
  | cons text rest ih =>
      cases rest with
      | nil => simp
      | cons next others =>
          have some_ := List.length_pos_iff.mpr positive
          rw [List.intercalate_cons_cons, List.length_append, List.length_append]
          simp only [List.length_cons] at ih ⊢
          omega

theorem scanArray_opens {inner body : Text} (skipped : skipSpace inner = body) (opens : Opens body) :
    scanArray scan inner = scanItems scan body.length [] body := by
  obtain ⟨c, rest, rfl, starts⟩ := opens
  unfold scanArray
  rw [skipped]
  split
  · next closed => exact absurd (List.cons.inj closed).1 starts.2.1
  · rfl

theorem scanObject_opens {inner body : Text} (skipped : skipSpace inner = body) (opens : Opens body) :
    scanObject scan inner = scanMembers scan body.length [] body := by
  obtain ⟨c, rest, rfl, starts⟩ := opens
  unfold scanObject
  rw [skipped]
  split
  · next closed => exact absurd (List.cons.inj closed).1 starts.2.2.1
  · rfl

theorem lines_enough (level : Nat) (c : Char) (texts : List Text) (t : Text) :
    texts.length ≤ (List.intercalate (',' :: lineBreak (level + 1)) texts ++
      (lineBreak level ++ c :: t)).length := by
  have enough := intercalate_length (',' :: lineBreak (level + 1)) (List.cons_ne_nil _ _) texts
  simp only [List.length_append, List.length_cons]
  omega

/-- The text between brackets, as the reader sees it behind the opening one. -/
theorem layOut_cons (opening closing : Char) (level : Nat) (first : Text) (rest : List Text)
    (t : Text) :
    layOut opening closing level (first :: rest) ++ t =
      opening :: (lineBreak (level + 1) ++
        (List.intercalate (',' :: lineBreak (level + 1)) (first :: rest) ++
          (lineBreak level ++ closing :: t))) := by
  simp [layOut]

theorem scanArray_layOut {values : List Json} (level : Nat) (t : Text)
    (each : List.Forall₂ (Reads scan) texts values) :
    ∃ inner, layOut '[' ']' level texts ++ t = '[' :: inner ∧
      scanArray scan inner = .ok (.arr values, t) := by
  cases each with
  | nil => exact ⟨']' :: t, rfl, rfl⟩
  | @cons text value rest values here later =>
      have begins := opens_intercalate here.opens (',' :: lineBreak (level + 1)) rest
        (lineBreak level ++ ']' :: t)
      refine ⟨_, layOut_cons '[' ']' level text rest t, ?_⟩
      rw [scanArray_opens (skipSpace_break (level + 1) begins.solid) begins]
      exact scanItems_lines level t (.cons here later) (List.cons_ne_nil _ _) []
        (lines_enough level ']' _ t)

theorem scanObject_layOut {members : List (Points × Json)} (level : Nat) (t : Text)
    (each : List.Forall₂ (ReadsField scan) texts members) :
    ∃ inner, layOut '\x7b' '\x7d' level texts ++ t = '\x7b' :: inner ∧
      scanObject scan inner = .ok (.obj members, t) := by
  cases each with
  | nil => exact ⟨'\x7d' :: t, rfl, rfl⟩
  | @cons text entry rest members here later =>
      have begins := opens_intercalate here.opens (',' :: lineBreak (level + 1)) rest
        (lineBreak level ++ '\x7d' :: t)
      refine ⟨_, layOut_cons '\x7b' '\x7d' level text rest t, ?_⟩
      rw [scanObject_opens (skipSpace_break (level + 1) begins.solid) begins]
      exact scanMembers_lines level t (.cons here later) (List.cons_ne_nil _ _) []
        (lines_enough level '\x7d' _ t)

end

/-! ## Values -/

theorem opens_layOut {opening : Char} (starts : StartsValue opening) (closing : Char) (level : Nat)
    (texts : List Text) : Opens (layOut opening closing level texts) := by
  cases texts with
  | nil => exact ⟨opening, _, rfl, starts⟩
  | cons text rest => exact ⟨opening, _, rfl, starts⟩

theorem startsValue_digit {c : Char} (digit : c.isDigit = true) : StartsValue c := by
  refine ⟨isJsonSpace_digit digit, ?_, ?_, ?_⟩ <;> rintro rfl <;> revert digit <;> decide

theorem opens_scalar {limits : Interpreter} {value : Scalar} {text : Text}
    (written : dumpsScalar limits value = some text) : Opens text := by
  cases value with
  | null =>
      cases written
      exact ⟨'n', _, rfl, by decide⟩
  | int n =>
      obtain ⟨_, same⟩ := Option.ite_none_right_eq_some.mp written
      obtain rfl := Option.some.inj same
      unfold dumpsInt
      by_cases negative : n < 0
      · rw [if_pos negative]
        exact ⟨'-', _, rfl, by decide⟩
      · rw [if_neg negative, List.nil_append]
        have numeral := toDigits_numeral n.natAbs
        cases digits : Nat.toDigits 10 n.natAbs with
        | nil => exact absurd digits numeral.nonempty
        | cons c rest =>
            have digit := numeral.digital c (by rw [digits]; exact List.mem_cons_self)
            exact ⟨c, rest, rfl, startsValue_digit digit⟩
  | str s =>
      cases written
      exact ⟨'"', _, rfl, by decide⟩

theorem reads_scalar {limits : Interpreter} {scan : Scanner} (reads : ReadsValues limits scan)
    {value : Scalar} {text : Text} (written : dumpsScalar limits value = some text) :
    Reads scan text value.json := by
  obtain ⟨inner, rfl⟩ := reads
  exact ⟨opens_scalar written, fun t stops => scanOnce_scalar inner written stops⟩

theorem scanWord_bool (value : Bool) (t : Text) :
    scanWord ((if value then "true".toList else "false".toList) ++ t) = some (.bool value, t) := by
  cases value with
  | true =>
      have null := @literal_other 'n' 't' (by decide) "ull".toList ("rue".toList ++ t)
      have whole : "true".toList ++ t = 't' :: ("rue".toList ++ t) := rfl
      have found : literal "true".toList ('t' :: ("rue".toList ++ t)) = some t := by
        rw [← whole, literal_append]
      simp only [if_true, whole, scanWord, words, List.findSome?_cons, found,
        show "null".toList = 'n' :: "ull".toList from rfl, null, Option.map_none, Option.map_some]
  | false =>
      have null := @literal_other 'n' 'f' (by decide) "ull".toList ("alse".toList ++ t)
      have true_ := @literal_other 't' 'f' (by decide) "rue".toList ("alse".toList ++ t)
      have whole : "false".toList ++ t = 'f' :: ("alse".toList ++ t) := rfl
      have found : literal "false".toList ('f' :: ("alse".toList ++ t)) = some t := by
        rw [← whole, literal_append]
      simp only [Bool.false_eq_true, if_false, whole, scanWord, words, List.findSome?_cons, found,
        show "null".toList = 'n' :: "ull".toList from rfl,
        show "true".toList = 't' :: "rue".toList from rfl, null, true_, Option.map_none,
        Option.map_some]

theorem reads_bool {limits : Interpreter} {scan : Scanner} (reads : ReadsValues limits scan)
    (value : Bool) :
    Reads scan (if value then "true".toList else "false".toList) (.bool value) := by
  obtain ⟨inner, rfl⟩ := reads
  refine ⟨?_, fun t _ => ?_⟩
  · cases value with
    | true => exact ⟨'t', _, rfl, by decide⟩
    | false => exact ⟨'f', _, rfl, by decide⟩
  · have word := scanWord_bool value t
    have scalar : scanScalar limits ((if value then "true".toList else "false".toList) ++ t) =
        .ok (.bool value, t) := by
      unfold scanScalar
      rw [word]
    rw [← scalar]
    cases value <;> rfl

section

variable {limits : Interpreter} {depth : Nat}

theorem reads_array {level : Nat} {texts : List Text} {values : List Json}
    (each : List.Forall₂ (Reads (scanValue limits depth)) texts values) :
    Reads (scanValue limits (depth + 1)) (layOut '[' ']' level texts) (.arr values) := by
  refine ⟨opens_layOut (by decide) _ _ _, fun t _ => ?_⟩
  obtain ⟨inner, shape, read⟩ := scanArray_layOut level t each
  rw [shape, ← read]
  rfl

theorem reads_object {level : Nat} {texts : List Text} {members : List (Points × Json)}
    (each : List.Forall₂ (ReadsField (scanValue limits depth)) texts members) :
    Reads (scanValue limits (depth + 1)) (layOut '\x7b' '\x7d' level texts) (.obj members) := by
  refine ⟨opens_layOut (by decide) _ _ _, fun t _ => ?_⟩
  obtain ⟨inner, shape, read⟩ := scanObject_layOut level t each
  rw [shape, ← read]
  rfl

mutual

/-- What is written is read back; by induction on the value. -/
theorem dumpsValue_reads {level depth : Nat} {text : Text} (value : Json)
    (written : dumpsValue limits level value = some text) (deep : value.depth ≤ depth) :
    Reads (scanValue limits depth) text value.joined := by
  have scalars := scanValue_reads limits depth
  cases value with
  | null => exact @reads_scalar limits _ scalars .null text written
  | bool value =>
      obtain rfl := Option.some.inj written
      exact reads_bool scalars value
  | int n => exact @reads_scalar limits _ scalars (.int n) text written
  | str s => exact @reads_scalar limits _ scalars (.str s) text written
  | arr items =>
      obtain ⟨texts, each, rfl⟩ := Option.map_eq_some_iff.mp written
      obtain ⟨less, rfl⟩ : ∃ less, depth = less + 1 :=
        Nat.exists_eq_add_one.mpr (by rw [Json.depth] at deep; omega)
      exact reads_array (dumpsItems_reads items each (Nat.le_of_succ_le_succ deep))
  | obj members =>
      obtain ⟨texts, each, rfl⟩ := Option.map_eq_some_iff.mp written
      obtain ⟨less, rfl⟩ : ∃ less, depth = less + 1 :=
        Nat.exists_eq_add_one.mpr (by rw [Json.depth] at deep; omega)
      exact reads_object (dumpsFields_reads members each (Nat.le_of_succ_le_succ deep))
  | decimal value => cases written
  | nan => cases written
  | infinity negative => cases written

theorem dumpsItems_reads {level depth : Nat} {texts : List Text} (items : List Json)
    (written : dumpsItems limits level items = some texts) (deep : depthItems items ≤ depth) :
    List.Forall₂ (Reads (scanValue limits depth)) texts (joinedItems items) := by
  cases items with
  | nil =>
      obtain rfl := Option.some.inj written
      exact .nil
  | cons item rest =>
      obtain ⟨text, first, later⟩ := Option.bind_eq_some_iff.mp written
      obtain ⟨others, more, rfl⟩ := Option.map_eq_some_iff.mp later
      have bounds := max_le_iff.mp deep
      exact .cons (dumpsValue_reads item first bounds.1) (dumpsItems_reads rest more bounds.2)

theorem dumpsFields_reads {level depth : Nat} {texts : List Text} (members : List (Points × Json))
    (written : dumpsFields limits level members = some texts) (deep : depthFields members ≤ depth) :
    List.Forall₂ (ReadsField (scanValue limits depth)) texts (joinedFields members) := by
  cases members with
  | nil =>
      obtain rfl := Option.some.inj written
      exact .nil
  | cons entry rest =>
      obtain ⟨key, value⟩ := entry
      obtain ⟨text, first, later⟩ := Option.bind_eq_some_iff.mp written
      obtain ⟨others, more, rfl⟩ := Option.map_eq_some_iff.mp later
      have bounds := max_le_iff.mp deep
      exact .cons ⟨key, text, rfl, rfl, dumpsValue_reads value first bounds.1⟩
        (dumpsFields_reads rest more bounds.2)

end

end

/-- `json.loads` of an indented value and a line feed. -/
theorem loads_dumpsValue {limits : Interpreter} {value : Json} {text : Text}
    (written : dumpsValue limits 0 value = some text) (deep : value.depth ≤ limits.maxDepth) :
    loads limits (text ++ ['\n']) = .ok value.joined := by
  have reads := dumpsValue_reads value written deep
  have read := reads.read ['\n'] (stops_break 0 [])
  have opens := reads.opens.append ['\n']
  have unmarked : (text ++ ['\n']).head? ≠ some byteOrderMark := by
    obtain ⟨c, rest, same, starts⟩ := opens
    rw [same, List.head?_cons]
    exact fun marked => starts.2.2.2 (Option.some.inj marked)
  unfold loads
  rw [if_neg unmarked, skipSpace_of_solid opens.solid, read]
  rfl

end JsonText
