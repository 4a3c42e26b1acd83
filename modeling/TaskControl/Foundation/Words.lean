import TaskControl.Foundation.PythonText

/-!
# White space and words

What `strip` keeps, and the words of a text: `split` cuts a text into them and joining them
with blanks is undone by it.
-/

set_option autoImplicit false

namespace PythonText

theorem mem_dropWhile {α : Type} {p : α → Bool} {items : List α} {item : α}
    (member : item ∈ items) (stops : p item = false) : item ∈ items.dropWhile p := by
  induction items with
  | nil => cases member
  | cons first rest ih =>
      rw [List.dropWhile_cons]
      split
      · next drops =>
          rcases List.mem_cons.mp member with rfl | later
          · rw [stops] at drops
            cases drops
          · exact ih later
      · exact member

theorem mem_rdropWhile {α : Type} {p : α → Bool} {items : List α} {item : α}
    (member : item ∈ items) (stops : p item = false) : item ∈ items.rdropWhile p := by
  rw [List.rdropWhile, List.mem_reverse]
  exact mem_dropWhile (List.mem_reverse.mpr member) stops

theorem mem_strip {text : Text} {c : Char} (member : c ∈ text) (solid : isSpace c = false) :
    c ∈ strip text :=
  mem_rdropWhile (mem_dropWhile member solid) solid

/-- By induction on the text, along the branches of `splitWords`. -/
theorem mem_splitWords {text word : Text} (member : word ∈ splitWords text) :
    word ≠ [] ∧ ∀ c ∈ word, isSpace c = false := by
  induction text generalizing word with
  | nil => cases member
  | cons c rest ih =>
      rw [splitWords.eq_def] at member
      dsimp only at member
      split at member
      · exact ih member
      · next solid =>
          have alone : [c] ≠ [] ∧ ∀ d ∈ [c], isSpace d = false :=
            ⟨List.cons_ne_nil _ _, by simpa using solid⟩
          split at member
          · rwa [List.mem_singleton.mp member]
          · split at member
            · rcases List.mem_cons.mp member with rfl | later
              · exact alone
              · exact ih later
            · split at member
              · rwa [List.mem_singleton.mp member]
              · next first others words =>
                  rcases List.mem_cons.mp member with rfl | later
                  · have tail := @ih first (by rw [words]; exact List.mem_cons_self)
                    exact ⟨List.cons_ne_nil _ _, List.forall_mem_cons.mpr
                      ⟨alone.2 c List.mem_cons_self, tail.2⟩⟩
                  · exact ih (by rw [words]; exact List.mem_cons_of_mem _ later)

theorem splitWords_solid {text word : Text} (member : word ∈ splitWords text) :
    ∀ c ∈ word, isSpace c = false := (mem_splitWords member).2

theorem mem_joinWords {words : List Text} {c : Char} (member : c ∈ joinWords words) :
    c = ' ' ∨ ∃ word ∈ words, c ∈ word := by
  unfold joinWords at member
  induction words with
  | nil => simp at member
  | cons word rest ih =>
      cases rest with
      | nil => exact Or.inr ⟨word, List.mem_cons_self, by simpa using member⟩
      | cons next others =>
          rw [List.intercalate_cons_cons, List.append_assoc, List.mem_append] at member
          rcases member with here | later
          · exact Or.inr ⟨word, List.mem_cons_self, here⟩
          · rcases List.mem_cons.mp later with blank | further
            · exact Or.inl blank
            · rcases ih further with blank | ⟨other, inRest, within⟩
              · exact Or.inl blank
              · exact Or.inr ⟨other, List.mem_cons_of_mem _ inRest, within⟩

/-- Joined words are one line: their only white space is the blanks between them. -/
theorem newline_not_mem_joinWords (text : Text) : '\n' ∉ joinWords (splitWords text) := by
  intro member
  rcases mem_joinWords member with blank | ⟨word, inWords, within⟩
  · cases blank
  · exact absurd (splitWords_solid inWords '\n' within) (by decide)

theorem joinWords_cons (word next : Text) (rest : List Text) :
    joinWords (word :: next :: rest) = word ++ ' ' :: joinWords (next :: rest) := by
  unfold joinWords
  rw [List.intercalate_cons_cons, List.append_assoc]
  rfl

theorem joinWords_append (first : List Text) (next : Text) (rest : List Text)
    (nonempty : first ≠ []) :
    joinWords (first ++ next :: rest) = joinWords first ++ ' ' :: joinWords (next :: rest) := by
  induction first with
  | nil => exact absurd rfl nonempty
  | cons word others ih =>
      cases others with
      | nil =>
          rw [List.singleton_append, joinWords_cons]
          simp [joinWords]
      | cons other more =>
          rw [List.cons_append, List.cons_append, joinWords_cons, joinWords_cons,
            ← List.cons_append, ih (List.cons_ne_nil _ _), List.append_assoc]
          rfl

theorem splitWords_word {word : Text} (solid : ∀ c ∈ word, isSpace c = false)
    (nonempty : word ≠ []) : splitWords word = [word] := by
  induction word with
  | nil => exact absurd rfl nonempty
  | cons c rest ih =>
      have head := solid c List.mem_cons_self
      have later := fun d found => solid d (List.mem_cons_of_mem c found)
      cases rest with
      | nil => simp [splitWords, head]
      | cons d more =>
          have next := solid d (List.mem_cons_of_mem c List.mem_cons_self)
          have tail := ih later (List.cons_ne_nil _ _)
          rw [splitWords.eq_def]
          simp [head, next, tail]

/-- A word ends at the first white space. -/
theorem splitWords_cut {word : Text} (solid : ∀ c ∈ word, isSpace c = false) (nonempty : word ≠ [])
    {space : Char} (blank : isSpace space = true) (rest : Text) :
    splitWords (word ++ space :: rest) = word :: splitWords rest := by
  have skipped : splitWords (space :: rest) = splitWords rest := by
    rw [splitWords.eq_def]
    simp [blank]
  induction word with
  | nil => exact absurd rfl nonempty
  | cons c others ih =>
      have head := solid c List.mem_cons_self
      have later := fun d found => solid d (List.mem_cons_of_mem c found)
      cases others with
      | nil =>
          rw [List.singleton_append, splitWords.eq_def]
          simp [head, blank, skipped]
      | cons d more =>
          have next := solid d (List.mem_cons_of_mem c List.mem_cons_self)
          have tail := ih later (List.cons_ne_nil _ _)
          rw [List.cons_append] at tail
          rw [List.cons_append, List.cons_append, splitWords.eq_def]
          simp [head, next, tail]

theorem splitWords_joinWords {words : List Text}
    (solid : ∀ word ∈ words, word ≠ [] ∧ ∀ c ∈ word, isSpace c = false) :
    splitWords (joinWords words) = words := by
  induction words with
  | nil => rfl
  | cons word rest ih =>
      obtain ⟨nonempty, head⟩ := solid word List.mem_cons_self
      have later := ih fun other found => solid other (List.mem_cons_of_mem _ found)
      cases rest with
      | nil => simpa [joinWords] using splitWords_word head nonempty
      | cons next others =>
          rw [joinWords_cons, splitWords_cut head nonempty (by decide), later]

theorem splitWords_blank {text : Text} (blank : ∀ c ∈ text, isSpace c = true) :
    splitWords text = [] := by
  induction text with
  | nil => rfl
  | cons c rest ih =>
      rw [splitWords.eq_def]
      simp only [blank c List.mem_cons_self, if_true]
      exact ih fun d found => blank d (List.mem_cons_of_mem c found)

theorem splitWords_strip {text : Text} (empty : strip text = []) : splitWords text = [] := by
  refine splitWords_blank fun c found => ?_
  by_contra solid
  have kept := mem_strip found (Bool.eq_false_iff.mpr solid)
  rw [empty] at kept
  cases kept

end PythonText
