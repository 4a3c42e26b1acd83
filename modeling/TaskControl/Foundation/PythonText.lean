import Mathlib

/-!
# Python text as lists of characters

The operations of Python's `str` that line-oriented tools rely on, over code
points: `splitlines` with and without line ends, `strip`, `split`, and the
newline translation of text-mode reads.  `pushChar` is one step of
`splitlines(keepends=True)` taken from the right, so that splitting is a fold
and splitting a concatenation is an induction on its left part.
-/

set_option autoImplicit false

namespace PythonText

abbrev Text := List Char

instance (t : Text) (texts : List Text) : Decidable (t ∈ texts) := inferInstance

/-- The characters for which `str.isspace` holds, which are also those that
`\s` matches in a `str` pattern. -/
def isSpace (c : Char) : Bool :=
  let n := c.toNat
  (9 ≤ n && n ≤ 13) || (28 ≤ n && n ≤ 32) || n == 0x85 || n == 0xA0 || n == 0x1680 ||
    (0x2000 ≤ n && n ≤ 0x200A) || n == 0x2028 || n == 0x2029 || n == 0x202F ||
    n == 0x205F || n == 0x3000

/-- The line boundaries of `str.splitlines`. -/
def isLineBreak (c : Char) : Bool :=
  let n := c.toNat
  (10 ≤ n && n ≤ 13) || (28 ≤ n && n ≤ 30) || n == 0x85 || n == 0x2028 || n == 0x2029

/-- The zeros of Unicode 15.0; the digits of a script follow its zero. -/
def decimalZeros : List Nat :=
  [0x30, 0x660, 0x6F0, 0x7C0, 0x966, 0x9E6, 0xA66, 0xAE6, 0xB66, 0xBE6, 0xC66, 0xCE6, 0xD66,
    0xDE6, 0xE50, 0xED0, 0xF20, 0x1040, 0x1090, 0x17E0, 0x1810, 0x1946, 0x19D0, 0x1A80, 0x1A90,
    0x1B50, 0x1BB0, 0x1C40, 0x1C50, 0xA620, 0xA8D0, 0xA900, 0xA9D0, 0xA9F0, 0xAA50, 0xABF0,
    0xFF10, 0x104A0, 0x10D30, 0x11066, 0x110F0, 0x11136, 0x111D0, 0x112F0, 0x11450, 0x114D0,
    0x11650, 0x116C0, 0x11730, 0x118E0, 0x11950, 0x11C50, 0x11D50, 0x11DA0, 0x11F50, 0x16A60,
    0x16AC0, 0x16B50, 0x1D7CE, 0x1D7D8, 0x1D7E2, 0x1D7EC, 0x1D7F6, 0x1E140, 0x1E2F0, 0x1E4F0,
    0x1E950, 0x1FBF0]

def decimalValue (c : Char) : Option Nat :=
  (decimalZeros.find? fun first => first ≤ c.toNat && c.toNat < first + 10).map (c.toNat - ·)

/-- `str.lower` as far as it decides whether a lower-case ASCII word occurs: the two
characters outside ASCII whose lower case has an ASCII letter are the Kelvin sign and the
dotted capital I. -/
def lowerChar (c : Char) : Text :=
  let n := c.toNat
  if 65 ≤ n ∧ n ≤ 90 then [Char.ofNat (n + 32)]
  else if n = 0x212A then ['k']
  else if n = 0x130 then ['i', Char.ofNat 0x307]
  else [c]

/-- `str.lstrip`, also the effect of `\s*` before a literal that is not a space. -/
def lstrip (t : Text) : Text := t.dropWhile isSpace

def rstrip (t : Text) : Text := t.rdropWhile isSpace

def strip (t : Text) : Text := rstrip (lstrip t)

def endsWithNewline (t : Text) : Bool := t.getLast? == some '\n'

/-- Adds one character in front of the lines that follow it. -/
def pushChar (c : Char) (lines : List Text) : List Text :=
  if c = '\r' then
    match lines with
    | ['\n'] :: rest => ['\r', '\n'] :: rest
    | lines => ['\r'] :: lines
  else if isLineBreak c then [c] :: lines
  else
    match lines with
    | [] => [[c]]
    | line :: rest => (c :: line) :: rest

/-- `str.splitlines(keepends=True)`. -/
def splitKeep (t : Text) : List Text := t.foldr pushChar []

/-- A line without its line end. -/
def lineBody (line : Text) : Text := line.takeWhile fun c => !isLineBreak c

/-- `str.splitlines()`. -/
def splitLines (t : Text) : List Text := (splitKeep t).map lineBody

/-- `"\n".join(lines) + "\n"`, for a list that is not empty. -/
def joinLines (lines : List Text) : Text := lines.flatMap fun line => line ++ ['\n']

/-- `str.split()`: the maximal runs of characters that are not white space. -/
def splitWords : Text → List Text
  | [] => []
  | c :: rest =>
      if isSpace c then splitWords rest
      else
        match rest with
        | [] => [[c]]
        | d :: _ =>
            if isSpace d then [c] :: splitWords rest
            else
              match splitWords rest with
              | [] => [[c]]
              | word :: words => (c :: word) :: words

/-- `" ".join(words)`. -/
def joinWords (words : List Text) : Text := List.intercalate [' '] words

/-- What a text-mode read makes of a file: both `\r\n` and a lone `\r` arrive
as `\n`. -/
def translateNewlines : Text → Text
  | [] => []
  | '\r' :: '\n' :: rest => '\n' :: translateNewlines rest
  | c :: rest => (if c = '\r' then '\n' else c) :: translateNewlines rest

example : splitKeep "a\r\nb\x0bc\r".toList =
    ["a\r\n".toList, "b\x0b".toList, "c\r".toList] := by decide

/-! ## Splitting and joining lines -/

theorem splitKeep_cons (c : Char) (t : Text) : splitKeep (c :: t) = pushChar c (splitKeep t) :=
  rfl

theorem pushChar_ne_nil (c : Char) (lines : List Text) : pushChar c lines ≠ [] := by
  unfold pushChar
  split
  · split <;> simp
  · split
    · simp
    · split <;> simp

theorem splitKeep_ne_nil {t : Text} (nonempty : t ≠ []) : splitKeep t ≠ [] := by
  cases t with
  | nil => exact absurd rfl nonempty
  | cons c rest => exact pushChar_ne_nil c (splitKeep rest)

theorem pushChar_flatten (c : Char) (lines : List Text) :
    (pushChar c lines).flatten = c :: lines.flatten := by
  unfold pushChar
  split
  · rename_i carriage
    subst carriage
    split <;> simp
  · split
    · simp
    · split <;> simp

theorem splitKeep_flatten (t : Text) : (splitKeep t).flatten = t := by
  induction t with
  | nil => rfl
  | cons c rest ih => rw [splitKeep_cons, pushChar_flatten, ih]

theorem pushChar_append (c : Char) (first rest : List Text) (nonempty : first ≠ []) :
    pushChar c (first ++ rest) = pushChar c first ++ rest := by
  cases first with
  | nil => exact absurd rfl nonempty
  | cons line lines =>
      unfold pushChar
      by_cases carriage : c = '\r'
      · rw [if_pos carriage, if_pos carriage]
        by_cases feed : line = ['\n']
        · subst feed
          rfl
        · simp [feed]
      · rw [if_neg carriage, if_neg carriage]
        split <;> rfl

/-- A text after which a new line starts, whatever follows it.  A final `\r` is
left out, since a following `\n` would join it. -/
def Closed (t : Text) : Prop :=
  t = [] ∨ ∃ init c, t = init ++ [c] ∧ isLineBreak c = true ∧ c ≠ '\r'

theorem closed_nil : Closed [] := Or.inl rfl

theorem closed_newline (t : Text) : Closed (t ++ ['\n']) :=
  Or.inr ⟨t, '\n', rfl, by decide, by decide⟩

theorem closed_of_endsWithNewline {t : Text} (ends : endsWithNewline t = true) : Closed t := by
  have last : t.getLast? = some '\n' := by simpa [endsWithNewline] using ends
  obtain ⟨init, rfl⟩ := List.getLast?_eq_some_iff.mp last
  exact closed_newline init

theorem foldr_pushChar_closed (t : Text) (closed : Closed t) (lines : List Text) :
    t.foldr pushChar lines = splitKeep t ++ lines := by
  rcases closed with rfl | ⟨init, c, rfl, breaks, notCarriage⟩
  · rfl
  · induction init with
    | nil => simp [splitKeep, pushChar, breaks, notCarriage]
    | cons d rest ih =>
        have unsplit : splitKeep (rest ++ [c]) ≠ [] := splitKeep_ne_nil (by simp)
        calc
          (d :: rest ++ [c]).foldr pushChar lines
              = pushChar d ((rest ++ [c]).foldr pushChar lines) := rfl
          _ = pushChar d (splitKeep (rest ++ [c]) ++ lines) := by rw [ih]
          _ = pushChar d (splitKeep (rest ++ [c])) ++ lines := pushChar_append d _ _ unsplit
          _ = splitKeep (d :: rest ++ [c]) ++ lines := rfl

theorem splitKeep_append {t : Text} (closed : Closed t) (rest : Text) :
    splitKeep (t ++ rest) = splitKeep t ++ splitKeep rest := by
  unfold splitKeep
  rw [List.foldr_append]
  exact foldr_pushChar_closed t closed _

theorem splitLines_append {t : Text} (closed : Closed t) (rest : Text) :
    splitLines (t ++ rest) = splitLines t ++ splitLines rest := by
  simp [splitLines, splitKeep_append closed]

/-- No character of the line is a line boundary. -/
def Unbroken (line : Text) : Prop := ∀ c ∈ line, isLineBreak c = false

instance (line : Text) : Decidable (Unbroken line) :=
  decidable_of_iff ((line.all fun c => !isLineBreak c) = true) (by simp [Unbroken])

theorem unbroken_append {a b : Text} : Unbroken (a ++ b) ↔ Unbroken a ∧ Unbroken b := by
  simp only [Unbroken, List.mem_append]
  constructor
  · intro both
    exact ⟨fun c member => both c (Or.inl member), fun c member => both c (Or.inr member)⟩
  · rintro ⟨left, right⟩ c (member | member)
    · exact left c member
    · exact right c member

theorem isSpace_of_isLineBreak {c : Char} (breaks : isLineBreak c = true) : isSpace c = true := by
  simp only [isLineBreak, isSpace, Bool.or_eq_true, Bool.and_eq_true, decide_eq_true_eq,
    beq_iff_eq] at breaks ⊢
  omega

theorem isLineBreak_carriage : isLineBreak '\r' = true := by decide

theorem pushChar_unbroken {c : Char} (unbroken : isLineBreak c = false) (line : Text)
    (rest : List Text) : pushChar c (line :: rest) = (c :: line) :: rest := by
  have notCarriage : c ≠ '\r' := by
    rintro rfl
    simp [isLineBreak_carriage] at unbroken
  simp [pushChar, notCarriage, unbroken]

theorem splitKeep_line {line : Text} (unbroken : Unbroken line) (rest : Text) :
    splitKeep (line ++ '\n' :: rest) = (line ++ ['\n']) :: splitKeep rest := by
  induction line with
  | nil => simp [splitKeep, pushChar, show isLineBreak '\n' = true by decide]
  | cons c tail ih =>
      have head : isLineBreak c = false := unbroken c (by simp)
      have later : Unbroken tail := fun d member => unbroken d (by simp [member])
      rw [List.cons_append, splitKeep_cons, ih later, pushChar_unbroken head]
      rfl

theorem splitKeep_joinLines {lines : List Text} (unbroken : ∀ line ∈ lines, Unbroken line)
    (rest : Text) :
    splitKeep (joinLines lines ++ rest) =
      lines.map (fun line => line ++ ['\n']) ++ splitKeep rest := by
  induction lines with
  | nil => rfl
  | cons line tail ih =>
      have shape : joinLines (line :: tail) ++ rest =
          line ++ '\n' :: (joinLines tail ++ rest) := by simp [joinLines]
      rw [shape, splitKeep_line (unbroken line (by simp)),
        ih fun other member => unbroken other (by simp [member])]
      rfl

theorem lineBody_terminated {line : Text} (unbroken : Unbroken line) (rest : Text) :
    lineBody (line ++ '\n' :: rest) = line := by
  induction line with
  | nil => simp [lineBody, show isLineBreak '\n' = true by decide]
  | cons c tail ih =>
      have head : isLineBreak c = false := unbroken c (by simp)
      have later : Unbroken tail := fun d member => unbroken d (by simp [member])
      have body := ih later
      simp only [lineBody, List.cons_append, List.takeWhile_cons, head, Bool.not_false,
        if_true] at body ⊢
      rw [body]

theorem splitLines_joinLines {lines : List Text} (unbroken : ∀ line ∈ lines, Unbroken line)
    (rest : Text) : splitLines (joinLines lines ++ rest) = lines ++ splitLines rest := by
  have same : ∀ line ∈ lines, (lineBody ∘ fun line => line ++ ['\n']) line = id line :=
    fun line member => lineBody_terminated (unbroken line member) []
  unfold splitLines
  rw [splitKeep_joinLines unbroken, List.map_append, List.map_map, List.map_congr_left same,
    List.map_id]

theorem joinLines_append (first rest : List Text) :
    joinLines (first ++ rest) = joinLines first ++ joinLines rest := by
  simp [joinLines]

theorem joinLines_closed (lines : List Text) : Closed (joinLines lines) := by
  induction lines using List.reverseRecOn with
  | nil => exact closed_nil
  | append_singleton init line _ =>
      have shape : joinLines (init ++ [line]) = (joinLines init ++ line) ++ ['\n'] := by
        simp [joinLines]
      rw [shape]
      exact closed_newline _

theorem lineBody_breakless (line : Text) : Unbroken (lineBody line) := by
  intro c member
  have kept := List.mem_takeWhile_imp member
  simpa using kept

theorem unbroken_of_mem_splitLines {t line : Text} (member : line ∈ splitLines t) :
    Unbroken line := by
  obtain ⟨kept, _, rfl⟩ := List.mem_map.mp member
  exact lineBody_breakless kept

/-! ## The lines of a text without carriage returns -/

/-- A line with its line end, which is not a carriage return. -/
def Terminated (line : Text) : Prop :=
  ∃ body c, line = body ++ [c] ∧ Unbroken body ∧ isLineBreak c = true ∧ c ≠ '\r'

/-- A line whose line end is a newline. -/
def Ended (line : Text) : Prop := ∃ body, line = body ++ ['\n'] ∧ Unbroken body

theorem Ended.terminated {line : Text} (ended : Ended line) : Terminated line := by
  obtain ⟨body, rfl, unbroken⟩ := ended
  exact ⟨body, '\n', rfl, unbroken, by decide, by decide⟩

theorem Terminated.carriageFree {line : Text} (terminated : Terminated line) : '\r' ∉ line := by
  obtain ⟨body, c, rfl, unbroken, _, notCarriage⟩ := terminated
  intro member
  rcases List.mem_append.mp member with inside | last
  · have clear := unbroken '\r' inside
    simp [isLineBreak_carriage] at clear
  · exact notCarriage (List.mem_singleton.mp last).symm

theorem splitKeep_terminated_cons {line : Text} (terminated : Terminated line) (rest : Text) :
    splitKeep (line ++ rest) = line :: splitKeep rest := by
  obtain ⟨body, c, rfl, unbroken, breaks, notCarriage⟩ := terminated
  induction body with
  | nil => simp [splitKeep, pushChar, breaks, notCarriage]
  | cons d tail ih =>
      have head : isLineBreak d = false := unbroken d (by simp)
      have later : Unbroken tail := fun e member => unbroken e (by simp [member])
      rw [List.cons_append, List.cons_append, splitKeep_cons, ih later, pushChar_unbroken head]

theorem splitKeep_terminated {lines : List Text} (terminated : ∀ line ∈ lines, Terminated line)
    (rest : Text) : splitKeep (lines.flatten ++ rest) = lines ++ splitKeep rest := by
  induction lines with
  | nil => rfl
  | cons line tail ih =>
      rw [List.flatten_cons, List.append_assoc, splitKeep_terminated_cons (terminated line (by simp)),
        ih fun other member => terminated other (by simp [member])]
      rfl

theorem splitKeep_unbroken {line : Text} (nonempty : line ≠ []) (unbroken : Unbroken line) :
    splitKeep line = [line] := by
  induction line with
  | nil => exact absurd rfl nonempty
  | cons c tail ih =>
      have head : isLineBreak c = false := unbroken c (by simp)
      cases tail with
      | nil =>
          have notCarriage : c ≠ '\r' := by
            rintro rfl
            simp [isLineBreak_carriage] at head
          simp [splitKeep, pushChar, head, notCarriage]
      | cons d rest =>
          have later : Unbroken (d :: rest) := fun e member => unbroken e (by simp [member])
          rw [splitKeep_cons, ih (by simp) later, pushChar_unbroken head]

/-- Lines that all have their line end, but for the last, which may lack it. -/
def KeptLines : List Text → Prop
  | [] => True
  | [last] => Terminated last ∨ (last ≠ [] ∧ Unbroken last)
  | line :: next :: rest => Terminated line ∧ KeptLines (next :: rest)

theorem keptLines_append (first : List Text) {rest : List Text} (nonempty : rest ≠ []) :
    KeptLines (first ++ rest) ↔ (∀ line ∈ first, Terminated line) ∧ KeptLines rest := by
  induction first with
  | nil => simp
  | cons line tail ih =>
      obtain ⟨next, more, shape⟩ : ∃ next more, tail ++ rest = next :: more :=
        List.exists_cons_of_ne_nil (by simp [nonempty])
      rw [List.cons_append, shape, KeptLines, ← shape, ih, List.forall_mem_cons, and_assoc]

theorem keptLines_of_terminated {lines : List Text}
    (terminated : ∀ line ∈ lines, Terminated line) : KeptLines lines := by
  induction lines using List.reverseRecOn with
  | nil => trivial
  | append_singleton init last _ =>
      rw [keptLines_append init (by simp)]
      exact ⟨fun line member => terminated line (by simp [member]),
        Or.inl (terminated last (by simp))⟩

theorem KeptLines.splitKeep_flatten {lines : List Text} (kept : KeptLines lines) :
    splitKeep lines.flatten = lines := by
  induction lines using List.reverseRecOn with
  | nil => rfl
  | append_singleton init last _ =>
      obtain ⟨terminated, ended | ⟨nonempty, unbroken⟩⟩ := (keptLines_append init (by simp)).mp kept
      · have alone := splitKeep_terminated_cons ended []
        rw [List.append_nil] at alone
        rw [List.flatten_append, splitKeep_terminated terminated, List.flatten_singleton, alone]
        rfl
      · rw [List.flatten_append, splitKeep_terminated terminated, List.flatten_singleton,
          splitKeep_unbroken nonempty unbroken]

theorem KeptLines.carriageFree {lines : List Text} (kept : KeptLines lines) :
    '\r' ∉ lines.flatten := by
  induction lines using List.reverseRecOn with
  | nil => simp
  | append_singleton init last _ =>
      obtain ⟨terminated, ending⟩ := (keptLines_append init (by simp)).mp kept
      intro member
      obtain ⟨line, inLines, inLine⟩ := List.mem_flatten.mp member
      rcases List.mem_append.mp inLines with inInit | inLast
      · exact (terminated line inInit).carriageFree inLine
      · obtain rfl := List.mem_singleton.mp inLast
        rcases ending with ended | ⟨_, unbroken⟩
        · exact ended.carriageFree inLine
        · have clear := unbroken '\r' inLine
          simp [isLineBreak_carriage] at clear

theorem unbroken_cons {c : Char} {line : Text} (head : isLineBreak c = false)
    (unbroken : Unbroken line) : Unbroken (c :: line) := by
  rintro d (_ | ⟨_, member⟩)
  · exact head
  · exact unbroken d member

theorem Terminated.cons {c : Char} {line : Text} (head : isLineBreak c = false)
    (terminated : Terminated line) : Terminated (c :: line) := by
  obtain ⟨body, d, rfl, unbroken, ends, notCarriage⟩ := terminated
  exact ⟨c :: body, d, rfl, unbroken_cons head unbroken, ends, notCarriage⟩

theorem keptLines_splitKeep {t : Text} (carriageFree : '\r' ∉ t) : KeptLines (splitKeep t) := by
  induction t with
  | nil => trivial
  | cons c rest ih =>
      have notCarriage : c ≠ '\r' := by
        rintro rfl
        simp at carriageFree
      have kept := ih fun member => carriageFree (List.mem_cons_of_mem c member)
      rw [splitKeep_cons]
      generalize splitKeep rest = lines at kept
      cases breaks : isLineBreak c with
      | true =>
          have pushed : pushChar c lines = [[c]] ++ lines := by
            simp [pushChar, notCarriage, breaks]
          have ended : Terminated [c] := ⟨[], c, rfl, by simp [Unbroken], breaks, notCarriage⟩
          rw [pushed]
          cases lines with
          | nil => exact Or.inl ended
          | cons line more => exact ⟨ended, kept⟩
      | false =>
          cases lines with
          | nil =>
              have pushed : pushChar c [] = [[c]] := by simp [pushChar, notCarriage, breaks]
              rw [pushed]
              exact Or.inr ⟨by simp, unbroken_cons breaks (by simp [Unbroken])⟩
          | cons line more =>
              rw [pushChar_unbroken breaks]
              cases more with
              | nil =>
                  rcases kept with ended | ⟨_, unbroken⟩
                  · exact Or.inl (ended.cons breaks)
                  · exact Or.inr ⟨by simp, unbroken_cons breaks unbroken⟩
              | cons next others => exact ⟨kept.1.cons breaks, kept.2⟩

/-- Cutting lines out and putting whole lines in their place keeps the rest. -/
theorem KeptLines.splice {before middle after new : List Text}
    (kept : KeptLines (before ++ middle ++ after)) (nonempty : middle ≠ [])
    (terminated : ∀ line ∈ new, Terminated line) : KeptLines (before ++ new ++ after) := by
  cases after with
  | nil =>
      rw [List.append_nil] at kept ⊢
      have front := ((keptLines_append before nonempty).mp kept).1
      refine keptLines_of_terminated fun line member => ?_
      rcases List.mem_append.mp member with inFront | inNew
      · exact front line inFront
      · exact terminated line inNew
  | cons line rest =>
      obtain ⟨front, back⟩ := (keptLines_append (before ++ middle) (by simp)).mp kept
      refine (keptLines_append (before ++ new) (by simp)).mpr ⟨fun other member => ?_, back⟩
      rcases List.mem_append.mp member with inFront | inNew
      · exact front other (List.mem_append_left middle inFront)
      · exact terminated other inNew

/-! ## Ending the last line -/

theorem lineBody_cons {c : Char} (head : isLineBreak c = false) (line : Text) :
    lineBody (c :: line) = c :: lineBody line := by
  simp [lineBody, head]

theorem endsWithNewline_cons (c : Char) {t : Text} (nonempty : t ≠ []) :
    endsWithNewline (c :: t) = endsWithNewline t := by
  obtain ⟨d, rest, rfl⟩ := List.exists_cons_of_ne_nil nonempty
  simp [endsWithNewline]

/-- A newline after a text that does not end in one either ends its last line,
whose body stays, or is an empty line of its own after another line end. -/
theorem splitKeep_newline {t : Text} (nonempty : t ≠ []) (unended : endsWithNewline t = false) :
    (∃ init last, splitKeep t = init ++ [last] ∧
      splitKeep (t ++ ['\n']) = init ++ [last ++ ['\n']] ∧
        lineBody (last ++ ['\n']) = lineBody last) ∨
      splitKeep (t ++ ['\n']) = splitKeep t ++ [['\n']] := by
  induction t with
  | nil => exact absurd rfl nonempty
  | cons c rest ih =>
      by_cases alone : rest = []
      · subst alone
        by_cases carriage : c = '\r'
        · subst carriage
          exact Or.inl ⟨[], ['\r'], by decide, by decide, by decide⟩
        have notFeed : c ≠ '\n' := by
          rintro rfl
          simp [endsWithNewline] at unended
        cases breaks : isLineBreak c with
        | true =>
            refine Or.inr ?_
            simp [splitKeep, pushChar, carriage, breaks]
        | false =>
            refine Or.inl ⟨[], [c], ?_, ?_, ?_⟩
            · simp [splitKeep, pushChar, carriage, breaks]
            · simp [splitKeep, pushChar, carriage, breaks, show isLineBreak '\n' = true by decide]
            · simp [lineBody, breaks, show isLineBreak '\n' = true by decide]
      · rw [endsWithNewline_cons c alone] at unended
        rw [List.cons_append, splitKeep_cons, splitKeep_cons]
        rcases ih alone unended with ⟨init, last, whole, ended, same⟩ | apart
        · rw [whole, ended]
          cases init with
          | cons line more =>
              refine Or.inl ⟨pushChar c (line :: more), last, ?_, ?_, same⟩
              · exact pushChar_append c _ _ (by simp)
              · exact pushChar_append c _ _ (by simp)
          | nil =>
              have flat : last = rest := by
                have joined := splitKeep_flatten rest
                rwa [whole, List.nil_append, List.flatten_singleton] at joined
              by_cases carriage : c = '\r'
              · subst carriage
                have notFeed : last ≠ ['\n'] := by
                  rintro rfl
                  rw [← flat] at unended
                  simp [endsWithNewline] at unended
                have notFeed' : last ++ ['\n'] ≠ ['\n'] := by
                  rw [flat]
                  simpa using alone
                refine Or.inl ⟨[['\r']], last, ?_, ?_, same⟩
                · simp [pushChar, notFeed]
                · simp only [List.nil_append, pushChar, if_true]
                  split
                  · rename_i shape
                    exact absurd (List.cons.inj shape).1 notFeed'
                  · rfl
              · cases breaks : isLineBreak c with
                | true =>
                    refine Or.inl ⟨[[c]], last, ?_, ?_, same⟩ <;>
                      simp [pushChar, carriage, breaks]
                | false =>
                    refine Or.inl ⟨[], c :: last, pushChar_unbroken breaks _ _,
                      pushChar_unbroken breaks _ _, ?_⟩
                    rw [List.cons_append, lineBody_cons breaks, lineBody_cons breaks, same]
        · rw [apart]
          exact Or.inr (pushChar_append c _ _ (splitKeep_ne_nil alone))

end PythonText
