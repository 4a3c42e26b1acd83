import TaskControl.Foundation.CodePoints
import TaskControl.Foundation.LinePattern

/-!
# JSON texts

The reader and the writer of Python's `json` with their default settings.  A
string of Python is a list of code points, in which a surrogate may stand alone;
the texts that are read have none, since they come from a decoded file.  An error
of the reader is one of three: the text is no JSON, it is nested deeper than the
interpreter allows, or it has a longer integer than the interpreter converts.
-/

set_option autoImplicit false

namespace JsonText

open PythonText LinePattern

/-! ## Surrogates -/

/-- The number that two surrogates stand for. -/
def joined (high low : Nat) : Nat := 0x10000 + (high - 0xD800) * 0x400 + (low - 0xDC00)

theorem joined_bound {high low : CodePoint} (pair : isHigh high = true ∧ isLow low = true) :
    joined high.val low.val < 0x110000 := by
  simp only [isHigh, isLow, decide_eq_true_eq] at pair
  unfold joined
  omega

/-- The code point of a surrogate pair. -/
def joinPair (high low : CodePoint) : Option CodePoint :=
  if pair : isHigh high = true ∧ isLow low = true then
    some ⟨joined high.val low.val, joined_bound pair⟩
  else none

/-- Every high surrogate before a low one is joined with it. -/
def joinSurrogates : Points → Points
  | [] => []
  | [p] => [p]
  | p :: q :: rest =>
      match joinPair p q with
      | some whole => whole :: joinSurrogates rest
      | none => p :: joinSurrogates (q :: rest)

/-! ## Values -/

/-- A number that is not written as an integer: `±mantissa · 10 ^ exponent`, before it is rounded. -/
structure Decimal where
  negative : Bool
  mantissa : Nat
  exponent : Int
  deriving DecidableEq

inductive Json where
  | null
  | bool (value : Bool)
  | int (value : Int)
  | decimal (value : Decimal)
  | nan
  | infinity (negative : Bool)
  | str (value : Points)
  | arr (items : List Json)
  | obj (members : List (Points × Json))

/-- `dict.get(key)`: of the members with one name the last one counts. -/
def member (members : List (Points × Json)) (key : Points) : Option Json :=
  (members.reverse.find? fun entry => entry.1 = key).map (·.2)

inductive JsonError where
  | decode
  | recursion
  | digits
  deriving DecidableEq

/-- How deep the interpreter nests calls, and how many digits it converts to or from an integer,
where that is limited. -/
structure Interpreter where
  maxDepth : Nat
  maxDigits : Option Nat
  nests : 1 ≤ maxDepth
  converts : ∀ limit ∈ maxDigits, 640 ≤ limit

def Interpreter.allows (limits : Interpreter) (digits : Nat) : Bool :=
  match limits.maxDigits with
  | some limit => decide (digits ≤ limit)
  | none => true

/-! ## Reading strings -/

def hexValue (c : Char) : Option Nat :=
  let n := c.toNat
  if 48 ≤ n ∧ n ≤ 57 then some (n - 48)
  else if 97 ≤ n ∧ n ≤ 102 then some (n - 87)
  else if 65 ≤ n ∧ n ≤ 70 then some (n - 55)
  else none

/-- The four digits behind `\u`. -/
def hexUnit (first second third fourth : Char) : Option CodePoint := do
  let first ← hexValue first
  let second ← hexValue second
  let third ← hexValue third
  let fourth ← hexValue fourth
  codePoint (((first * 16 + second) * 16 + third) * 16 + fourth)

/-- The character behind a backslash. -/
def shortEscape (c : Char) : Option CodePoint :=
  if c = '"' ∨ c = '\\' ∨ c = '/' then some (pointOf c)
  else if c = 'b' then codePoint 8
  else if c = 'f' then codePoint 12
  else if c = 'n' then codePoint 10
  else if c = 'r' then codePoint 13
  else if c = 't' then codePoint 9
  else none

def prepend (p : CodePoint) (scanned : Points × Text) : Points × Text := (p :: scanned.1, scanned.2)

/-- A string behind its opening quote, with every escape as a code point of its own. -/
def scanUnits : Text → Option (Points × Text)
  | [] => none
  | c :: rest =>
      if c = '"' then some ([], rest)
      else if c = '\\' then
        match rest with
        | [] => none
        | e :: rest =>
            if e = 'u' then
              match rest with
              | first :: second :: third :: fourth :: rest =>
                  (hexUnit first second third fourth).bind fun unit =>
                    (scanUnits rest).map (prepend unit)
              | _ => none
            else (shortEscape e).bind fun p => (scanUnits rest).map (prepend p)
      else if c.toNat < 0x20 then none
      else (scanUnits rest).map (prepend (pointOf c))

/-- `scanstring`: a surrogate comes from an escape, so that joining the surrogates of the string
joins those of adjacent escapes. -/
def scanString (t : Text) : Option (Points × Text) :=
  (scanUnits t).map fun scanned => (joinSurrogates scanned.1, scanned.2)

/-! ## Reading numbers and words -/

def digits (t : Text) : Text := t.takeWhile Char.isDigit

def afterDigits (t : Text) : Text := t.dropWhile Char.isDigit

/-- The digits before the point. -/
def scanWhole : Text → Option (Text × Text)
  | [] => none
  | c :: rest =>
      if c = '0' then some (['0'], rest)
      else if c.isDigit then some (c :: digits rest, afterDigits rest)
      else none

/-- The digits behind the point; a point without digits is not part of the number. -/
def scanFraction (t : Text) : Text × Text :=
  match t with
  | '.' :: rest => if digits rest = [] then ([], t) else (digits rest, afterDigits rest)
  | _ => ([], t)

def numeralValue (t : Text) : Nat := Nat.ofDigitChars 10 t 0

/-- The exponent with its sign; without digits it is not part of the number. -/
def scanExponent (t : Text) : Option Int × Text :=
  match t with
  | [] => (none, t)
  | e :: rest =>
      if e = 'e' ∨ e = 'E' then
        let body := match rest with
          | '+' :: rest => rest
          | '-' :: rest => rest
          | rest => rest
        if digits body = [] then (none, t)
        else
          let size := (numeralValue (digits body) : Int)
          (some (if rest.head? = some '-' then -size else size), afterDigits body)
      else (none, t)

def signed (negative : Bool) (size : Nat) : Int := if negative then -(size : Int) else size

/-- `_match_number` behind the sign. -/
def scanNumber (limits : Interpreter) (negative : Bool) (t : Text) :
    Except JsonError (Json × Text) :=
  match scanWhole t with
  | none => .error .decode
  | some (whole, t) =>
      let fraction := scanFraction t
      let exponent := scanExponent fraction.2
      if fraction.1 = [] ∧ exponent.1 = none then
        if limits.allows whole.length then .ok (.int (signed negative (numeralValue whole)), t)
        else .error .digits
      else
        .ok (.decimal {
          negative
          mantissa := numeralValue (whole ++ fraction.1)
          exponent := exponent.1.getD 0 - fraction.1.length }, exponent.2)

def words : List (Text × Json) :=
  [("null".toList, .null), ("true".toList, .bool true), ("false".toList, .bool false),
    ("NaN".toList, .nan), ("Infinity".toList, .infinity false), ("-Infinity".toList, .infinity true)]

def scanWord (t : Text) : Option (Json × Text) :=
  words.findSome? fun entry => (literal entry.1 t).map fun rest => (entry.2, rest)

/-- A word or a number. -/
def scanScalar (limits : Interpreter) (t : Text) : Except JsonError (Json × Text) :=
  match scanWord t with
  | some scanned => .ok scanned
  | none =>
      match t with
      | '-' :: rest => scanNumber limits true rest
      | t => scanNumber limits false t

/-! ## Reading values -/

abbrev Scanner := Text → Except JsonError (Json × Text)

def isJsonSpace (c : Char) : Bool := c == ' ' || c == '\t' || c == '\n' || c == '\r'

def skipSpace (t : Text) : Text := t.dropWhile isJsonSpace

/-- The name of a member and its colon, up to the value. -/
def scanName : Text → Option (Points × Text)
  | '"' :: t =>
      (scanString t).bind fun scanned =>
        match skipSpace scanned.2 with
        | ':' :: t => some (scanned.1, skipSpace t)
        | _ => none
  | _ => none

/-- The members of an object from a name on.  The number bounds those still to come; each takes a
character at least, and no name can start where none is left. -/
def scanMembers (scan : Scanner) : Nat → List (Points × Json) → Scanner
  | 0, _, _ => .error .decode
  | more + 1, held, t =>
      match scanName t with
      | none => .error .decode
      | some (key, t) =>
          match scan t with
          | .error failed => .error failed
          | .ok (value, t) =>
              match skipSpace t with
              | '\x7d' :: t => .ok (.obj (held ++ [(key, value)]), t)
              | ',' :: t => scanMembers scan more (held ++ [(key, value)]) (skipSpace t)
              | _ => .error .decode

/-- The items of an array, in the same way. -/
def scanItems (scan : Scanner) : Nat → List Json → Scanner
  | 0, _, _ => .error .decode
  | more + 1, held, t =>
      match scan t with
      | .error failed => .error failed
      | .ok (value, t) =>
          match skipSpace t with
          | ']' :: t => .ok (.arr (held ++ [value]), t)
          | ',' :: t => scanItems scan more (held ++ [value]) (skipSpace t)
          | _ => .error .decode

def scanObject (scan : Scanner) (t : Text) : Except JsonError (Json × Text) :=
  match skipSpace t with
  | '\x7d' :: t => .ok (.obj [], t)
  | t => scanMembers scan t.length [] t

def scanArray (scan : Scanner) (t : Text) : Except JsonError (Json × Text) :=
  match skipSpace t with
  | ']' :: t => .ok (.arr [], t)
  | t => scanItems scan t.length [] t

/-- `scan_once`; `inner` reads what is nested, where the interpreter nests further. -/
def scanOnce (limits : Interpreter) (inner : Option Scanner) : Scanner
  | [] => .error .decode
  | c :: rest =>
      if c = '"' then
        match scanString rest with
        | some (value, t) => .ok (.str value, t)
        | none => .error .decode
      else if c = '\x7b' then
        match inner with
        | some scan => scanObject scan rest
        | none => .error .recursion
      else if c = '[' then
        match inner with
        | some scan => scanArray scan rest
        | none => .error .recursion
      else scanScalar limits (c :: rest)

def scanValue (limits : Interpreter) : Nat → Scanner
  | 0 => scanOnce limits none
  | depth + 1 => scanOnce limits (some (scanValue limits depth))

def byteOrderMark : Char := Char.ofNat 0xFEFF

/-- `json.loads`. -/
def loads (limits : Interpreter) (t : Text) : Except JsonError Json :=
  if t.head? = some byteOrderMark then .error .decode
  else
    match scanValue limits limits.maxDepth (skipSpace t) with
    | .error failed => .error failed
    | .ok (value, rest) => if skipSpace rest = [] then .ok value else .error .decode

/-! ## Writing -/

def hexDigits (n : Nat) : Text :=
  [Nat.digitChar (n / 4096 % 16), Nat.digitChar (n / 256 % 16), Nat.digitChar (n / 16 % 16),
    Nat.digitChar (n % 16)]

def escapeUnit (n : Nat) : Text := '\\' :: 'u' :: hexDigits n

theorem high_bound (p : CodePoint) : 0xD800 + (p.val - 0x10000) / 0x400 < 0x110000 := by
  have bound := p.property
  omega

theorem low_bound (p : CodePoint) : 0xDC00 + (p.val - 0x10000) % 0x400 < 0x110000 := by
  omega

def highUnit (p : CodePoint) : CodePoint := ⟨0xD800 + (p.val - 0x10000) / 0x400, high_bound p⟩

def lowUnit (p : CodePoint) : CodePoint := ⟨0xDC00 + (p.val - 0x10000) % 0x400, low_bound p⟩

/-- The UTF-16 units of a code point. -/
def units (p : CodePoint) : Points := if p.val < 0x10000 then [p] else [highUnit p, lowUnit p]

def escape (p : CodePoint) : Text :=
  if p.val = 0x22 then ['\\', '"']
  else if p.val = 0x5C then ['\\', '\\']
  else if p.val = 8 then ['\\', 'b']
  else if p.val = 12 then ['\\', 'f']
  else if p.val = 10 then ['\\', 'n']
  else if p.val = 13 then ['\\', 'r']
  else if p.val = 9 then ['\\', 't']
  else if 0x20 ≤ p.val ∧ p.val ≤ 0x7E then [Char.ofNat p.val]
  else (units p).flatMap fun unit => escapeUnit unit.val

def dumpsString (s : Points) : Text := '"' :: s.flatMap escape ++ ['"']

/-- The values of which the written objects are made. -/
inductive Scalar where
  | null
  | int (value : Int)
  | str (value : Points)
  deriving DecidableEq

/-- The value as the reader gives it back. -/
def Scalar.json : Scalar → Json
  | .null => .null
  | .int value => .int value
  | .str value => .str (joinSurrogates value)

def dumpsInt (n : Int) : Text :=
  (if n < 0 then ['-'] else []) ++ Nat.toDigits 10 n.natAbs

/-- None where an integer has more digits than the interpreter converts. -/
def dumpsScalar (limits : Interpreter) : Scalar → Option Text
  | .null => some "null".toList
  | .int n => if limits.allows (Nat.toDigits 10 n.natAbs).length then some (dumpsInt n) else none
  | .str s => some (dumpsString s)

/-- A member, of which the value is written already. -/
def dumpsEntry (key : Points) (text : Text) : Text := dumpsString key ++ ':' :: ' ' :: text

def dumpsMembers (limits : Interpreter) : List (Points × Scalar) → Option Text
  | [] => some []
  | (key, value) :: rest =>
      (dumpsScalar limits value).bind fun text =>
        if rest = [] then some (dumpsEntry key text)
        else (dumpsMembers limits rest).map fun others => dumpsEntry key text ++ ',' :: ' ' :: others

/-- `json.dumps` of a dictionary of scalars. -/
def dumps (limits : Interpreter) (members : List (Points × Scalar)) : Option Text :=
  (dumpsMembers limits members).map fun text => '\x7b' :: text ++ ['\x7d']

end JsonText
