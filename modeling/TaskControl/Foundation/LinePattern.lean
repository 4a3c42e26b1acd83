import TaskControl.Foundation.PythonText

/-!
# Deterministic line patterns

Anchored regular expressions built only from literals, `\s*`, `\s+` and `\S+`,
in which every repetition is followed by something it cannot match, never
backtrack.  Such a pattern is a chain of the partial functions below, each of
which consumes the front of the remaining text.
-/

set_option autoImplicit false

namespace LinePattern

open PythonText

/-- A literal. -/
def literal (expected t : Text) : Option Text := t.dropPrefix? expected

/-- `\s+`. -/
def blanks : Text → Option Text
  | [] => none
  | c :: rest => if isSpace c then some (lstrip rest) else none

/-- `(\S+)` followed by white space or the end. -/
def word (t : Text) : Option (Text × Text) :=
  let found := t.takeWhile fun c => !isSpace c
  if found.isEmpty then none else some (found, t.dropWhile fun c => !isSpace c)

/-- `(\S+)\s*closing\s*$`. -/
def lastWord (closing t : Text) : Option Text := do
  let body ← (rstrip t).dropSuffix? closing
  let found := rstrip body
  if found.isEmpty || found.any isSpace then none else some found

/-- A nonempty text without white space, which is what `\S+` matches whole. -/
def Token (t : Text) : Prop := t ≠ [] ∧ ∀ c ∈ t, isSpace c = false

instance (t : Text) : Decidable (Token t) :=
  decidable_of_iff (t ≠ [] ∧ (t.all fun c => !isSpace c) = true) (by simp [Token])

theorem Token.unbroken {t : Text} (token : Token t) : Unbroken t := by
  intro c member
  cases breaks : isLineBreak c with
  | false => rfl
  | true =>
      have blank := isSpace_of_isLineBreak breaks
      rw [token.2 c member] at blank
      cases blank

/-! ## Stripping -/

theorem lstrip_space (t : Text) : lstrip (' ' :: t) = lstrip t := by
  simp [lstrip, show isSpace ' ' = true by decide]

theorem lstrip_cons {c : Char} (solid : isSpace c = false) (t : Text) :
    lstrip (c :: t) = c :: t := by
  simp [lstrip, solid]

theorem lstrip_token {t : Text} (token : Token t) (rest : Text) :
    lstrip (t ++ rest) = t ++ rest := by
  obtain ⟨nonempty, solid⟩ := token
  cases t with
  | nil => exact absurd rfl nonempty
  | cons c tail => exact lstrip_cons (solid c (by simp)) (tail ++ rest)

theorem rstrip_concat {c : Char} (solid : isSpace c = false) (t : Text) :
    rstrip (t ++ [c]) = t ++ [c] := by
  unfold rstrip
  rw [List.rdropWhile_concat_neg]
  simp [solid]

theorem rstrip_space (t : Text) : rstrip (t ++ [' ']) = rstrip t := by
  unfold rstrip
  rw [List.rdropWhile_concat_pos]
  decide

theorem rstrip_append_token {t : Text} (token : Token t) (front : Text) :
    rstrip (front ++ t) = front ++ t := by
  obtain ⟨nonempty, solid⟩ := token
  obtain ⟨init, last, rfl⟩ : ∃ init last, t = init ++ [last] :=
    ⟨t.dropLast, t.getLast nonempty, (List.dropLast_append_getLast nonempty).symm⟩
  rw [← List.append_assoc]
  exact rstrip_concat (solid last (by simp)) (front ++ init)

theorem rstrip_token {t : Text} (token : Token t) : rstrip t = t := by
  simpa using rstrip_append_token token []

/-! ## Matching what was written -/

theorem literal_append (expected rest : Text) : literal expected (expected ++ rest) = some rest := by
  unfold literal
  rw [List.dropPrefix?_eq_some_iff]
  exact ⟨expected, by simp⟩

theorem literal_eq_some {expected t rest : Text} (found : literal expected t = some rest) :
    t = expected ++ rest := by
  unfold literal at found
  obtain ⟨front, shape, same⟩ := List.dropPrefix?_eq_some_iff.mp found
  have front_eq : front = expected := by simpa using same
  rw [shape, front_eq]

/-- Two literals of which neither begins with the other cannot both be next. -/
theorem literal_conflict {first second t left right : Text}
    (apart : ¬ first <+: second ∧ ¬ second <+: first)
    (here : literal first t = some left) (there : literal second t = some right) : False := by
  have firstPrefix : first <+: t := ⟨left, (literal_eq_some here).symm⟩
  have secondPrefix : second <+: t := ⟨right, (literal_eq_some there).symm⟩
  rcases List.prefix_or_prefix_of_prefix firstPrefix secondPrefix with shorter | longer
  · exact apart.1 shorter
  · exact apart.2 longer

theorem blanks_space (t : Text) : blanks (' ' :: t) = some (lstrip t) := by
  simp [blanks, show isSpace ' ' = true by decide]

theorem word_token {t : Text} (token : Token t) (rest : Text) :
    word (t ++ ' ' :: rest) = some (t, ' ' :: rest) := by
  obtain ⟨nonempty, solid⟩ := token
  have all : ∀ c ∈ t, (!isSpace c) = true := by
    intro c member
    simp [solid c member]
  have taken : (t ++ ' ' :: rest).takeWhile (fun c => !isSpace c) = t := by
    rw [List.takeWhile_append_of_pos all]
    simp [show isSpace ' ' = true by decide]
  have dropped : (t ++ ' ' :: rest).dropWhile (fun c => !isSpace c) = ' ' :: rest := by
    rw [List.dropWhile_append_of_pos all]
    simp [show isSpace ' ' = true by decide]
  unfold word
  rw [taken, dropped]
  simp [nonempty]

theorem dropSuffix_append (front closing : Text) :
    (front ++ closing).dropSuffix? closing = some front := by
  rw [List.dropSuffix?_eq_some_iff]
  exact ⟨closing, by simp⟩

theorem lastWord_of_body {t closing body : Text} (token : Token t)
    (cut : (rstrip body).dropSuffix? closing = some (t ++ [' '])) :
    lastWord closing body = some t := by
  have stripped : rstrip (t ++ [' ']) = t := by rw [rstrip_space, rstrip_token token]
  simpa [lastWord, cut, stripped, token.1] using token.2

theorem lastWord_closing {t closing : Text} (token : Token t) (closingToken : Token closing) :
    lastWord closing (t ++ ' ' :: closing) = some t := by
  apply lastWord_of_body token
  have shape : t ++ ' ' :: closing = (t ++ [' ']) ++ closing := by simp
  rw [shape, rstrip_append_token closingToken]
  exact dropSuffix_append (t ++ [' ']) closing

theorem lastWord_token {t : Text} (token : Token t) : lastWord [] t = some t := by
  have cut : t.dropSuffix? ([] : Text) = some t := by
    have whole := dropSuffix_append t []
    rwa [List.append_nil] at whole
  simpa [lastWord, rstrip_token token, cut, token.1] using token.2

end LinePattern
