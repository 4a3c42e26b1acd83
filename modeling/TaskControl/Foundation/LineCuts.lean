import TaskControl.Foundation.PythonText

/-!
# Cutting a text between two lines

Lines may have any of the line ends of `str.splitlines`.  A text cut between two
of its lines splits into the lines of the two parts, and two texts put together
have the lines of both, unless a `\r` at the end of the first meets a `\n` at the
start of the second.
-/

set_option autoImplicit false

namespace PythonText

/-- A line end stands between the two texts. -/
def EndsBefore (t rest : Text) : Prop :=
  t = [] ∨ ∃ init c, t = init ++ [c] ∧ isLineBreak c = true ∧ ¬ (c = '\r' ∧ rest.head? = some '\n')

theorem isLineBreak_feed : isLineBreak '\n' = true := by decide

/-- The first line of a text is a newline alone exactly if the text starts with one. -/
theorem splitKeep_feed (rest : Text) : splitKeep ('\n' :: rest) = ['\n'] :: splitKeep rest := by
  simp [splitKeep_cons, pushChar, isLineBreak_feed]

theorem head_of_feed {rest : Text} {lines : List Text} (starts : splitKeep rest = ['\n'] :: lines) :
    rest.head? = some '\n' := by
  have whole := splitKeep_flatten rest
  rw [starts, List.flatten_cons] at whole
  rw [← whole]
  rfl

theorem pushChar_carriage {lines : List Text} (apart : ∀ rest, lines ≠ ['\n'] :: rest) :
    pushChar '\r' lines = ['\r'] :: lines := by
  unfold pushChar
  rw [if_pos rfl]
  split
  · next rest => exact absurd rfl (apart rest)
  · rfl

/-- Two texts with a line end between them have the lines of both. -/
theorem splitKeep_join {t rest : Text} (ends : EndsBefore t rest) :
    splitKeep (t ++ rest) = splitKeep t ++ splitKeep rest := by
  rcases ends with rfl | ⟨init, c, rfl, breaks, apart⟩
  · rfl
  · induction init with
    | nil =>
        rw [List.nil_append, List.singleton_append, splitKeep_cons]
        by_cases carriage : c = '\r'
        · subst carriage
          rw [pushChar_carriage fun lines starts => apart ⟨rfl, head_of_feed starts⟩]
          rfl
        · simp [pushChar, splitKeep, carriage, breaks]
    | cons d init ih =>
        have nonempty : splitKeep (init ++ [c]) ≠ [] := splitKeep_ne_nil (by simp)
        rw [List.cons_append, List.cons_append, splitKeep_cons, ih, pushChar_append d _ _ nonempty]
        rfl

theorem EndsBefore.cons {line rest : Text} (c : Char) (nonempty : line ≠ [])
    (ends : EndsBefore line rest) : EndsBefore (c :: line) rest := by
  rcases ends with rfl | ⟨init, d, rfl, breaks, apart⟩
  · exact absurd rfl nonempty
  · exact Or.inr ⟨c :: init, d, rfl, breaks, apart⟩

/-- What the first line of a text is to the rest of it. -/
structure FirstLine (line : Text) (rest : List Text) : Prop where
  nonempty : line ≠ []
  alone : splitKeep line = [line]
  others : splitKeep rest.flatten = rest
  ends : rest ≠ [] → EndsBefore line rest.flatten

theorem firstLine {t line : Text} {rest : List Text} (lines : splitKeep t = line :: rest) :
    FirstLine line rest := by
  induction t generalizing line rest with
  | nil => cases lines
  | cons c t ih =>
      rw [splitKeep_cons] at lines
      by_cases carriage : c = '\r'
      · subst carriage
        by_cases feed : ∃ more, splitKeep t = ['\n'] :: more
        · obtain ⟨more, starts⟩ := feed
          rw [starts] at lines
          obtain ⟨rfl, rfl⟩ := List.cons.inj lines
          exact ⟨by simp, by decide, (ih starts).others, fun _ =>
            Or.inr ⟨['\r'], '\n', rfl, isLineBreak_feed, fun both => absurd both.1 (by decide)⟩⟩
        · have apart : ∀ more, splitKeep t ≠ ['\n'] :: more := fun more starts => feed ⟨more, starts⟩
          rw [pushChar_carriage apart] at lines
          obtain ⟨rfl, rfl⟩ := List.cons.inj lines
          refine ⟨by simp, by decide, by rw [splitKeep_flatten], fun _ =>
            Or.inr ⟨[], '\r', rfl, isLineBreak_carriage, fun both => ?_⟩⟩
          rw [splitKeep_flatten] at both
          obtain ⟨more, rfl⟩ := List.head?_eq_some_iff.mp both.2
          exact apart _ (splitKeep_feed more)
      · cases breaks : isLineBreak c with
        | true =>
            have pushed : pushChar c (splitKeep t) = [c] :: splitKeep t := by
              simp [pushChar, carriage, breaks]
            rw [pushed] at lines
            obtain ⟨rfl, rfl⟩ := List.cons.inj lines
            refine ⟨by simp, by simp [splitKeep, pushChar, carriage, breaks],
              by rw [splitKeep_flatten], fun _ =>
                Or.inr ⟨[], c, rfl, breaks, fun both => carriage both.1⟩⟩
        | false =>
            cases later : splitKeep t with
            | nil =>
                have pushed : pushChar c [] = [[c]] := by simp [pushChar, carriage, breaks]
                rw [later, pushed] at lines
                obtain ⟨rfl, rfl⟩ := List.cons.inj lines
                exact ⟨by simp, pushed, rfl, fun some_ => absurd rfl some_⟩
            | cons first more =>
                rw [later, pushChar_unbroken breaks] at lines
                obtain ⟨rfl, rfl⟩ := List.cons.inj lines
                have found := ih later
                refine ⟨by simp, ?_, found.others, fun some_ => (found.ends some_).cons c found.nonempty⟩
                rw [splitKeep_cons, found.alone, pushChar_unbroken breaks]

/-- A text cut between two of its lines. -/
structure LineCut (front back : List Text) : Prop where
  before : splitKeep front.flatten = front
  after : splitKeep back.flatten = back
  between : back ≠ [] → EndsBefore front.flatten back.flatten

theorem head_flatten {line : Text} (rest : List Text) (nonempty : line ≠ []) :
    (line :: rest).flatten.head? = line.head? := by
  obtain ⟨c, more, rfl⟩ := List.exists_cons_of_ne_nil nonempty
  rfl

/-- By induction on the lines in front of the cut. -/
theorem lineCut {front back : List Text} {t : Text} (lines : splitKeep t = front ++ back) :
    LineCut front back := by
  induction front generalizing t with
  | nil =>
      refine ⟨rfl, ?_, fun _ => Or.inl rfl⟩
      rw [List.nil_append] at lines
      rw [← lines, splitKeep_flatten]
  | cons line front ih =>
      have first := firstLine lines
      have rest := ih first.others
      cases front with
      | nil =>
          refine ⟨?_, rest.after, fun some_ => ?_⟩
          · rw [List.flatten_singleton, first.alone]
          · rw [List.flatten_singleton]
            exact first.ends some_
      | cons next more =>
          have later : (next :: more).flatten ≠ [] := by
            have nonempty := (firstLine first.others).nonempty
            rw [List.flatten_cons]
            exact List.append_ne_nil_of_left_ne_nil nonempty _
          have ends : EndsBefore line (next :: more).flatten := by
            rcases first.ends (List.cons_ne_nil _ _) with missing | ⟨init, c, same, breaks, apart⟩
            · exact absurd missing first.nonempty
            · refine Or.inr ⟨init, c, same, breaks, fun both => apart ⟨both.1, ?_⟩⟩
              have nonempty := (firstLine first.others).nonempty
              change (next :: (more ++ back)).flatten.head? = some '\n'
              rw [head_flatten _ nonempty, ← head_flatten more nonempty]
              exact both.2
          refine ⟨?_, rest.after, fun some_ => ?_⟩
          · rw [List.flatten_cons, splitKeep_join ends, first.alone, rest.before]
            rfl
          · rcases rest.between some_ with missing | ⟨init, c, same, breaks, apart⟩
            · exact absurd missing later
            · refine Or.inr ⟨line ++ init, c, ?_, breaks, apart⟩
              rw [List.flatten_cons, same, List.append_assoc]

/-- A `\r` at the end of a text and a `\n` at the start of the next are one line end: the empty
line that the `\n` was is gone. -/
theorem splitLines_carriage_feed (init rest : Text) :
    splitLines (init ++ '\r' :: '\n' :: rest) = splitLines (init ++ ['\r']) ++ splitLines rest := by
  have unended : endsWithNewline (init ++ ['\r']) = false := by
    unfold endsWithNewline
    rw [List.getLast?_concat]
    decide
  have whole : init ++ '\r' :: '\n' :: rest = (init ++ ['\r'] ++ ['\n']) ++ rest := by simp
  rw [whole, splitLines_append (closed_newline _)]
  congr 1
  rcases splitKeep_newline (by simp) unended with ⟨front, last, before, after, same⟩ | apart
  · unfold splitLines
    rw [before, after, List.map_append, List.map_append, List.map_singleton, List.map_singleton,
      same]
  · have ends := (lineCut apart).between (List.cons_ne_nil _ _)
    rw [splitKeep_flatten] at ends
    rcases ends with missing | ⟨front, c, shape, _, separate⟩
    · exact absurd missing (by simp)
    · have carriage := List.append_inj_right' shape rfl
      obtain rfl : '\r' = c := by simpa using carriage
      exact absurd ⟨rfl, rfl⟩ separate

theorem splitLines_feed (rest : Text) : splitLines ('\n' :: rest) = [] :: splitLines rest := by
  unfold splitLines
  rw [splitKeep_feed, List.map_cons]
  congr 1

/-- The lines of two texts put together where a line of the first ends. -/
theorem splitLines_join {t rest : Text} (ends : t = [] ∨ rest = [] ∨ ∃ init c, t = init ++ [c] ∧
      isLineBreak c = true) :
    splitLines (t ++ rest) = splitLines t ++ splitLines rest ∨
      ∃ more, splitLines rest = [] :: more ∧ splitLines (t ++ rest) = splitLines t ++ more := by
  have joined (ends : EndsBefore t rest) :
      splitLines (t ++ rest) = splitLines t ++ splitLines rest := by
    unfold splitLines
    rw [splitKeep_join ends, List.map_append]
  rcases ends with rfl | rfl | ⟨init, c, rfl, breaks⟩
  · exact Or.inl (joined (Or.inl rfl))
  · exact Or.inl (by simp [splitLines, splitKeep])
  · by_cases meets : c = '\r' ∧ rest.head? = some '\n'
    · obtain ⟨rfl, starts⟩ := meets
      obtain ⟨more, rfl⟩ := List.head?_eq_some_iff.mp starts
      refine Or.inr ⟨splitLines more, splitLines_feed more, ?_⟩
      rw [← splitLines_carriage_feed]
      simp
    · exact Or.inl (joined (Or.inr ⟨init, c, rfl, breaks, meets⟩))

end PythonText
