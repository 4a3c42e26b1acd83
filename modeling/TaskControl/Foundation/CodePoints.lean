import TaskControl.Foundation.PythonText

/-!
# Strings as code points

A `str` of Python may hold a surrogate that stands alone, which no decoded file
has.  Where that matters a string is a list of code points, and a text is a
string without surrogates.
-/

set_option autoImplicit false

namespace PythonText

abbrev CodePoint := {n : Nat // n < 0x110000}

/-- A `str`. -/
abbrev Points := List CodePoint

theorem char_bound (c : Char) : c.toNat < 0x110000 := by
  have valid : c.toNat < 0xD800 ∨ (0xDFFF < c.toNat ∧ c.toNat < 0x110000) := c.valid
  omega

def pointOf (c : Char) : CodePoint := ⟨c.toNat, char_bound c⟩

def pointsOf (t : Text) : Points := t.map pointOf

def isHigh (p : CodePoint) : Bool := decide (0xD800 ≤ p.val ∧ p.val < 0xDC00)

def isLow (p : CodePoint) : Bool := decide (0xDC00 ≤ p.val ∧ p.val < 0xE000)

/-- The text of a string, unless it has a surrogate. -/
def textOf : Points → Option Text
  | [] => some []
  | p :: rest =>
      if isHigh p || isLow p then none
      else (textOf rest).map (Char.ofNat p.val :: ·)

def codePoint (n : Nat) : Option CodePoint :=
  if bound : n < 0x110000 then some ⟨n, bound⟩ else none

/-! ## Texts among the strings -/

theorem pointOf_plain (c : Char) : isHigh (pointOf c) = false ∧ isLow (pointOf c) = false := by
  have valid : c.toNat < 0xD800 ∨ (0xDFFF < c.toNat ∧ c.toNat < 0x110000) := c.valid
  have value : (pointOf c).val = c.toNat := rfl
  rw [isHigh, isLow, decide_eq_false_iff_not, decide_eq_false_iff_not, value]
  omega

/-- The points of a text are read as that text. -/
theorem textOf_pointsOf (t : Text) : textOf (pointsOf t) = some t := by
  induction t with
  | nil => rfl
  | cons c rest ih =>
      obtain ⟨high, low⟩ := pointOf_plain c
      have whole : textOf (pointsOf (c :: rest)) =
          (textOf (pointsOf rest)).map (Char.ofNat c.toNat :: ·) := by
        rw [pointsOf, List.map_cons, textOf, high, low]
        rfl
      rw [whole, ih, Char.ofNat_toNat]
      rfl

end PythonText
