import TaskControl.Common.Errors
import TaskControl.Foundation.LinePattern

/-!
# Stable identifiers

An identifier is a UUID together with its kind; the kind shows only as the
prefix of the text form.  `EntityId.fromPrimitive` reads the text forms that
`uuid.UUID` accepts.
-/

set_option autoImplicit false

namespace TaskControl

open PythonText LinePattern

inductive IdentifierKind where
  | task
  | taskRevision
  | execution
  | attempt
  | owner
  | profile
  | calendar
  | schedule
  | runCondition
  | target
  | collection
  deriving DecidableEq, Repr

def IdentifierKind.className : IdentifierKind → String
  | .task => "TaskId"
  | .taskRevision => "TaskRevisionId"
  | .execution => "ExecutionId"
  | .attempt => "AttemptId"
  | .owner => "OwnerId"
  | .profile => "ProfileId"
  | .calendar => "CalendarId"
  | .schedule => "ScheduleId"
  | .runCondition => "RunConditionId"
  | .target => "TargetId"
  | .collection => "CollectionId"

def IdentifierKind.mark : IdentifierKind → Text
  | .task => "task".toList
  | .taskRevision => "rev".toList
  | .execution => "exec".toList
  | .attempt => "att".toList
  | .owner => "own".toList
  | .profile => "prof".toList
  | .calendar => "cal".toList
  | .schedule => "sched".toList
  | .runCondition => "cond".toList
  | .target => "tgt".toList
  | .collection => "coll".toList

def uuidBound : Nat := 2 ^ 128

structure EntityId (kind : IdentifierKind) where
  value : Nat
  bounded : value < uuidBound
  deriving DecidableEq

abbrev TaskId := EntityId .task
abbrev TaskRevisionId := EntityId .taskRevision
abbrev ExecutionId := EntityId .execution
abbrev AttemptId := EntityId .attempt
abbrev OwnerId := EntityId .owner

/-! ## The text of an identifier -/

def hexDigit (n : Nat) : Char := if n < 10 then Char.ofNat (48 + n) else Char.ofNat (87 + n)

/-- The last `count` hexadecimal digits of a number. -/
def hexDigits : Nat → Nat → Text
  | 0, _ => []
  | count + 1, value => hexDigits count (value / 16) ++ [hexDigit (value % 16)]

/-- `str(uuid.UUID(int=value))`. -/
def uuidText (value : Nat) : Text :=
  let hex := hexDigits 32 value
  hex.take 8 ++ '-' :: (hex.drop 8).take 4 ++ '-' :: (hex.drop 12).take 4 ++
    '-' :: (hex.drop 16).take 4 ++ '-' :: hex.drop 20

/-- `str(identifier)`. -/
def EntityId.text {kind : IdentifierKind} (id : EntityId kind) : Text :=
  kind.mark ++ '_' :: uuidText id.value

/-! ## Reading an identifier -/

def hexValue (c : Char) : Option Nat :=
  let n := c.toNat
  if 48 ≤ n ∧ n ≤ 57 then some (n - 48)
  else if 97 ≤ n ∧ n ≤ 102 then some (n - 87)
  else if 65 ≤ n ∧ n ≤ 70 then some (n - 55)
  else none

/-- The digits of `int(text, 16)`: single underscores may stand between digits. -/
def readHex : Nat → Bool → Text → Option Nat
  | total, afterDigit, [] => if afterDigit then some total else none
  | total, afterDigit, c :: rest =>
      if c = '_' then if afterDigit then readHex total false rest else none
      else
        match hexValue c with
        | some digit => readHex (16 * total + digit) true rest
        | none => none

/-- A character as `int` sees it: white space and decimal digits of any script as those of ASCII. -/
def asciiOf (c : Char) : Char :=
  if c.toNat < 127 then c
  else if isSpace c then ' '
  else
    match decimalValue c with
    | some digit => Char.ofNat (48 + digit)
    | none => '?'

/-- White space around the digits that `int` reads. -/
def isIntSpace (c : Char) : Bool := (9 ≤ c.toNat && c.toNat ≤ 13) || c == ' '

/-- `int(text, 16)`, for a text without a minus sign. -/
def hexInt (t : Text) : Option Nat :=
  let body := match ((t.map asciiOf).dropWhile isIntSpace).rdropWhile isIntSpace with
    | '+' :: rest => rest
    | body => body
  match body with
  | '0' :: 'x' :: '_' :: rest => readHex 0 false rest
  | '0' :: 'X' :: '_' :: rest => readHex 0 false rest
  | '0' :: 'x' :: rest => readHex 0 false rest
  | '0' :: 'X' :: rest => readHex 0 false rest
  | body => readHex 0 false body

/-- `text.replace(found, "")`; the number bounds the characters still to look at. -/
def eraseAll (found : Text) : Nat → Text → Text
  | 0, t => t
  | _ + 1, [] => []
  | fuel + 1, c :: rest =>
      match literal found (c :: rest) with
      | some after => eraseAll found fuel after
      | none => c :: eraseAll found fuel rest

def isBrace (c : Char) : Bool := c == '\x7b' || c == '\x7d'

/-- `uuid.UUID(text)`. -/
def parseUuid (t : Text) : Option Nat :=
  let bare := eraseAll "urn:".toList t.length t
  let bare := eraseAll "uuid:".toList bare.length bare
  let hex := ((bare.dropWhile isBrace).rdropWhile isBrace).filter (· ≠ '-')
  if hex.length ≠ 32 then none
  else
    match hexInt hex with
    | some value => if value < uuidBound then some value else none
    | none => none

/-- `EntityId._coerce` on a string. -/
def EntityId.fromPrimitive (kind : IdentifierKind) (value : Text) :
    Except TaskControlError (EntityId kind) :=
  let text := strip value
  if text = [] then .error (validationError s!"{kind.className} must not be empty.")
  else
    let head := text.takeWhile (· ≠ '_')
    let remainder := (text.dropWhile (· ≠ '_')).drop 1
    let separated := text.contains '_'
    if separated ∧ head ≠ kind.mark then
      .error (validationError
        s!"{kind.className} expects the prefix '{String.ofList kind.mark}'.")
    else
      match parseUuid (if separated then remainder else text) with
      | some n =>
          if bounded : n < uuidBound then .ok ⟨n, bounded⟩
          else .error (validationError s!"{kind.className} is not a well-formed UUID.")
      | none => .error (validationError s!"{kind.className} is not a well-formed UUID.")

/-! ## The text form names one identifier -/

theorem hexValue_hexDigit : ∀ n < 16, hexValue (hexDigit n) = some n := by decide

theorem isSpace_hexDigit : ∀ n < 16, isSpace (hexDigit n) = false := by decide

theorem asciiOf_hexDigit : ∀ n < 16, asciiOf (hexDigit n) = hexDigit n := by decide

theorem isIntSpace_hexDigit : ∀ n < 16, ¬ isIntSpace (hexDigit n) = true := by decide

theorem hexDigit_ne_hyphen : ∀ n < 16, hexDigit n ≠ '-' := by decide

theorem hexDigits_length (count value : Nat) : (hexDigits count value).length = count := by
  induction count generalizing value with
  | zero => rfl
  | succ count ih => simp [hexDigits, ih]

theorem hexDigits_digit {count value : Nat} {c : Char} (member : c ∈ hexDigits count value) :
    ∃ n < 16, c = hexDigit n := by
  induction count generalizing value with
  | zero => simp [hexDigits] at member
  | succ count ih =>
      rw [hexDigits, List.mem_append] at member
      rcases member with earlier | last
      · exact ih earlier
      · refine ⟨value % 16, Nat.mod_lt _ (by omega), ?_⟩
        simpa using last

/-- The value of a text of hexadecimal digits. -/
def hexRead (t : Text) : Nat := t.foldl (fun total c => 16 * total + (hexValue c).getD 0) 0

theorem hexRead_hexDigits (count value : Nat) :
    hexRead (hexDigits count value) = value % 16 ^ count := by
  induction count generalizing value with
  | zero => simp [hexRead, hexDigits, Nat.mod_one]
  | succ count ih =>
      have digit : value % 16 < 16 := Nat.mod_lt _ (by omega)
      have front : (hexDigits count (value / 16)).foldl
          (fun total c => 16 * total + (hexValue c).getD 0) 0 = value / 16 % 16 ^ count :=
        ih (value / 16)
      rw [hexRead, hexDigits, List.foldl_append, front]
      simp only [List.foldl_cons, List.foldl_nil, hexValue_hexDigit _ digit, Option.getD_some]
      rw [Nat.pow_succ', Nat.mod_mul]
      omega

theorem uuidText_filter (value : Nat) :
    (uuidText value).filter (· ≠ '-') = hexDigits 32 value := by
  have plain : ∀ part : Text, (∀ c ∈ part, c ∈ hexDigits 32 value) →
      part.filter (· ≠ '-') = part := by
    intro part included
    rw [List.filter_eq_self]
    intro c member
    obtain ⟨n, small, rfl⟩ := hexDigits_digit (included c member)
    simpa using hexDigit_ne_hyphen n small
  have cut (from_ count : Nat) : ((hexDigits 32 value).drop from_ |>.take count).filter (· ≠ '-') =
      ((hexDigits 32 value).drop from_).take count :=
    plain _ fun c member => List.mem_of_mem_drop (List.mem_of_mem_take member)
  have front : ((hexDigits 32 value).take 8).filter (· ≠ '-') = (hexDigits 32 value).take 8 :=
    plain _ fun c member => List.mem_of_mem_take member
  have back : ((hexDigits 32 value).drop 20).filter (· ≠ '-') = (hexDigits 32 value).drop 20 :=
    plain _ fun c member => List.mem_of_mem_drop member
  have hyphen (rest : Text) : ('-' :: rest).filter (· ≠ '-') = rest.filter (· ≠ '-') := by simp
  simp only [uuidText, List.filter_append, hyphen, cut, front, back]
  have join (from_ count : Nat) (rest : Text) (same : rest = (hexDigits 32 value).drop (from_ + count)) :
      ((hexDigits 32 value).drop from_).take count ++ rest = (hexDigits 32 value).drop from_ := by
    rw [same, ← List.drop_drop]
    exact List.take_append_drop count _
  rw [List.append_assoc, List.append_assoc, List.append_assoc, join 16 4 _ rfl, join 12 4 _ rfl,
    join 8 4 _ rfl]
  exact List.take_append_drop 8 _

theorem uuidText_injective {first second : Nat} (firstBound : first < uuidBound)
    (secondBound : second < uuidBound) (same : uuidText first = uuidText second) :
    first = second := by
  have digits : hexDigits 32 first = hexDigits 32 second := by
    rw [← uuidText_filter, ← uuidText_filter, same]
  have values : first % 16 ^ 32 = second % 16 ^ 32 := by
    rw [← hexRead_hexDigits, ← hexRead_hexDigits, digits]
  have bound : uuidBound = 16 ^ 32 := by decide
  rw [bound] at firstBound secondBound
  rwa [Nat.mod_eq_of_lt firstBound, Nat.mod_eq_of_lt secondBound] at values

theorem EntityId.text_injective {kind : IdentifierKind} {first second : EntityId kind}
    (same : first.text = second.text) : first = second := by
  have uuids : uuidText first.value = uuidText second.value := by
    have tails := List.append_cancel_left same
    exact (List.cons.inj tails).2
  have values := uuidText_injective first.bounded second.bounded uuids
  cases first
  cases second
  simp_all

theorem uuidText_length (value : Nat) : (uuidText value).length = 36 := by
  simp [uuidText, hexDigits_length]

theorem EntityId.text_length {kind : IdentifierKind} (id : EntityId kind) :
    id.text.length = kind.mark.length + 37 := by
  simp [EntityId.text, uuidText_length]

theorem EntityId.text_token {kind : IdentifierKind} (id : EntityId kind) : Token id.text := by
  have mark : ∀ c ∈ kind.mark, isSpace c = false := by
    have solid : (kind.mark.all fun c => !isSpace c) = true := by cases kind <;> decide
    simpa using solid
  have digit : ∀ c ∈ hexDigits 32 id.value, isSpace c = false := by
    intro c member
    obtain ⟨n, small, rfl⟩ := hexDigits_digit member
    exact isSpace_hexDigit n small
  have hyphen : isSpace '-' = false := by decide
  have underscore : isSpace '_' = false := by decide
  refine ⟨by cases kind <;> simp [EntityId.text, IdentifierKind.mark], ?_⟩
  intro c member
  simp only [EntityId.text, uuidText, List.mem_append, List.mem_cons] at member
  have taken (n : Nat) (part : Text) (sub : ∀ c ∈ part, c ∈ hexDigits 32 id.value)
      (found : c ∈ part.take n) : isSpace c = false :=
    digit c (sub c (List.mem_of_mem_take found))
  rcases member with inMark | rfl | ((((inFirst | rfl | inSecond) | rfl | inThird) | rfl |
    inFourth) | rfl | inLast)
  · exact mark c inMark
  · exact underscore
  · exact taken 8 _ (fun _ found => found) inFirst
  · exact hyphen
  · exact taken 4 _ (fun _ found => List.mem_of_mem_drop found) inSecond
  · exact hyphen
  · exact taken 4 _ (fun _ found => List.mem_of_mem_drop found) inThird
  · exact hyphen
  · exact taken 4 _ (fun _ found => List.mem_of_mem_drop found) inFourth
  · exact hyphen
  · exact digit c (List.mem_of_mem_drop inLast)

/-! ## The text form is read back -/

theorem uuidText_chars {value : Nat} {c : Char} (member : c ∈ uuidText value) :
    c = '-' ∨ ∃ n < 16, c = hexDigit n := by
  have digit (from_ count : Nat) (found : c ∈ ((hexDigits 32 value).drop from_).take count) :
      c = '-' ∨ ∃ n < 16, c = hexDigit n :=
    Or.inr (hexDigits_digit (List.mem_of_mem_drop (List.mem_of_mem_take found)))
  simp only [uuidText, List.mem_append, List.mem_cons] at member
  rcases member with ((((inFirst | hyphen | inSecond) | hyphen | inThird) | hyphen | inFourth) |
    hyphen | inLast)
  · exact Or.inr (hexDigits_digit (List.mem_of_mem_take inFirst))
  · exact Or.inl hyphen
  · exact digit 8 4 inSecond
  · exact Or.inl hyphen
  · exact digit 12 4 inThird
  · exact Or.inl hyphen
  · exact digit 16 4 inFourth
  · exact Or.inl hyphen
  · exact Or.inr (hexDigits_digit (List.mem_of_mem_drop inLast))

/-- A character that is neither a hyphen nor a lower-case hexadecimal digit. -/
theorem not_mem_uuidText {value : Nat} {c : Char} (hyphen : c ≠ '-')
    (other : ∀ n < 16, c ≠ hexDigit n) : c ∉ uuidText value := by
  intro member
  rcases uuidText_chars member with same | ⟨n, small, same⟩
  · exact hyphen same
  · exact other n small same

theorem eraseAll_absent {t : Text} (c : Char) (rest : Text) (absent : c ∉ t) (fuel : Nat) :
    eraseAll (c :: rest) fuel t = t := by
  induction t generalizing fuel with
  | nil => cases fuel <;> rfl
  | cons d tail ih =>
      cases fuel with
      | zero => rfl
      | succ fuel =>
          have differs : literal (c :: rest) (d :: tail) = none := by
            cases found : literal (c :: rest) (d :: tail) with
            | none => rfl
            | some after =>
                have whole := literal_eq_some found
                exact absurd (by simp [(List.cons.inj whole).1]) absent
          rw [eraseAll, differs]
          simp only
          rw [ih fun inside => absent (List.mem_cons_of_mem d inside)]

theorem readHex_digits {t : Text} (digits : ∀ c ∈ t, ∃ n < 16, c = hexDigit n) (total : Nat)
    (afterDigit : Bool) (some_ : t ≠ [] ∨ afterDigit = true) :
    readHex total afterDigit t =
      some (t.foldl (fun total c => 16 * total + (hexValue c).getD 0) total) := by
  induction t generalizing total afterDigit with
  | nil => simp_all [readHex]
  | cons c rest ih =>
      obtain ⟨n, small, rfl⟩ := digits _ List.mem_cons_self
      have plain : ∀ n < 16, hexDigit n ≠ '_' := by decide
      rw [readHex, if_neg (plain n small), hexValue_hexDigit n small]
      simp only
      rw [ih (fun c inside => digits c (List.mem_cons_of_mem _ inside)) _ _ (Or.inr rfl)]
      simp [hexValue_hexDigit n small]

theorem hexInt_digits {t : Text} (nonempty : t ≠ [])
    (digits : ∀ c ∈ t, ∃ n < 16, c = hexDigit n) : hexInt t = some (hexRead t) := by
  have same : t.map asciiOf = t := by
    rw [List.map_congr_left (g := id), List.map_id]
    intro c member
    obtain ⟨n, small, rfl⟩ := digits c member
    exact asciiOf_hexDigit n small
  have solid : ∀ c ∈ t, ¬ isIntSpace c = true := by
    intro c member
    obtain ⟨n, small, rfl⟩ := digits c member
    exact isIntSpace_hexDigit n small
  have bare : ((t.map asciiOf).dropWhile isIntSpace).rdropWhile isIntSpace = t := by
    rw [same, List.dropWhile_eq_self_iff.mpr fun long => solid _ (List.getElem_mem long),
      List.rdropWhile_eq_self_iff]
    exact fun nonempty => solid _ (List.getLast_mem nonempty)
  have none_ (c : Char) (other : ∀ n < 16, c ≠ hexDigit n) : c ∉ t := by
    intro member
    obtain ⟨n, small, same⟩ := digits c member
    exact other n small same
  have noPlus : '+' ∉ t := none_ _ (by decide)
  have noLower : 'x' ∉ t := none_ _ (by decide)
  have noUpper : 'X' ∉ t := none_ _ (by decide)
  have body : (match ((t.map asciiOf).dropWhile isIntSpace).rdropWhile isIntSpace with
      | '+' :: rest => rest
      | body => body) = t := by
    rw [bare]
    split
    · simp at noPlus
    · rfl
  unfold hexInt
  rw [body]
  dsimp only
  have read := readHex_digits digits 0 false (Or.inl nonempty)
  split
  · simp at noLower
  · simp at noUpper
  · simp at noLower
  · simp at noUpper
  · exact read

theorem parseUuid_uuidText {value : Nat} (bounded : value < uuidBound) :
    parseUuid (uuidText value) = some value := by
  have noU : 'u' ∉ uuidText value := not_mem_uuidText (by decide) (by decide)
  have braceless : ∀ c ∈ uuidText value, isBrace c = false := by
    intro c member
    rcases uuidText_chars member with rfl | ⟨n, small, rfl⟩
    · rfl
    · have plain : ∀ n < 16, isBrace (hexDigit n) = false := by decide
      exact plain n small
  have left : (uuidText value).dropWhile isBrace = uuidText value := by
    cases shape : uuidText value with
    | nil => rfl
    | cons c rest =>
        rw [List.dropWhile_cons_of_neg]
        simp [braceless c (by simp [shape])]
  have right : (uuidText value).rdropWhile isBrace = uuidText value := by
    rw [List.rdropWhile_eq_self_iff]
    intro nonempty
    simp [braceless _ (List.getLast_mem nonempty)]
  have digits : ∀ c ∈ hexDigits 32 value, ∃ n < 16, c = hexDigit n := fun _ => hexDigits_digit
  have nonempty : hexDigits 32 value ≠ [] := by
    intro empty
    have length := hexDigits_length 32 value
    rw [empty] at length
    simp at length
  have small : value % 16 ^ 32 = value := Nat.mod_eq_of_lt (by
    have bound : uuidBound = 16 ^ 32 := by decide
    omega)
  simp only [parseUuid, show "urn:".toList = 'u' :: "rn:".toList from rfl,
    show "uuid:".toList = 'u' :: "uid:".toList from rfl, eraseAll_absent _ _ noU, left, right,
    uuidText_filter, hexDigits_length, ne_eq, not_true_eq_false, if_false,
    hexInt_digits nonempty digits, hexRead_hexDigits, small, if_pos bounded]

/-- The text of an identifier is read as that identifier. -/
theorem EntityId.fromPrimitive_text {kind : IdentifierKind} (id : EntityId kind) :
    EntityId.fromPrimitive kind id.text = .ok id := by
  have token := id.text_token
  have bare : strip id.text = id.text := by
    rw [strip, ← List.append_nil id.text, lstrip_token token, List.append_nil, rstrip_token token]
  have mark : ∀ c ∈ kind.mark, (c != '_') = true := by
    have plain : (kind.mark.all (· != '_')) = true := by cases kind <;> decide
    simpa using plain
  have head : id.text.takeWhile (· ≠ '_') = kind.mark := by
    rw [EntityId.text, List.takeWhile_append_of_pos (by simpa using mark)]
    simp
  have tail : (id.text.dropWhile (· ≠ '_')).drop 1 = uuidText id.value := by
    rw [EntityId.text, List.dropWhile_append_of_pos (by simpa using mark)]
    simp
  have separated : id.text.contains '_' = true := by simp [EntityId.text]
  unfold EntityId.fromPrimitive
  simp only [bare, head, tail, separated, token.1, if_false, ne_eq, not_true_eq_false, and_false,
    if_true, parseUuid_uuidText id.bounded, dif_pos id.bounded]

end TaskControl
