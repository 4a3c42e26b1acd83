import TaskControl.Domain.Values
import TaskControl.Foundation.LinePattern
import TaskControl.Foundation.Words

/-!
# Slugs

A slug is words of lower-case letters and digits, one hyphen apart.  The
constructor tests this with a pattern whose `$` also matches before a final
newline; the derivation from a display name never leaves one.
-/

set_option autoImplicit false

namespace TaskControl

open PythonText LinePattern

/-! ## Deriving a slug -/

/-- `re.sub(r"[^a-z0-9]+", "-", text)`. -/
def collapse : Text → Text
  | [] => []
  | c :: rest =>
      if isSlugChar c then c :: collapse rest
      else
        match collapse rest with
        | '-' :: later => '-' :: later
        | later => '-' :: later

def isHyphen (c : Char) : Bool := c == '-'

/-- `text.strip("-")`. -/
def stripHyphens (text : Text) : Text := (text.dropWhile isHyphen).rdropWhile isHyphen

/-- `name.strip().lower()`. -/
def lowered (name : Text) : Text := (strip name).flatMap lowerChar

/-- `from_display_name`. -/
def Slug.fromDisplayName (name : Text) : Except TaskControlError Slug :=
  let collapsed := stripHyphens (collapse (lowered name))
  if collapsed = [] then .error (validationError "Cannot derive a slug from the given name.")
  else Slug.make ((collapsed.take slugMaxLength).rdropWhile isHyphen)

/-! ## What a slug is -/

/-- Words of lower-case letters and digits, joined by single hyphens. -/
def Hyphenated (text : Text) : Prop :=
  ∀ word ∈ text.splitOn '-', word ≠ [] ∧ ∀ c ∈ word, isSlugChar c = true

/-- A name of 1 to 100 such characters. -/
def SlugName (text : Text) : Prop := Hyphenated text ∧ text.length ≤ slugMaxLength

/-- A slug with a line feed behind it, within the length of a slug. -/
def NewlineEnded (text : Text) : Prop :=
  ∃ body, text = body ++ ['\n'] ∧ Hyphenated body ∧ text.length ≤ slugMaxLength

/-- The constructor accepts the text exactly if it is a slug. -/
def AcceptsExactly (text : Text) : Prop :=
  (∃ slug, Slug.make text = .ok slug ∧ slug.value = text) ↔ SlugName text

/-- A letter or a digit of the name survives as one of `[a-z0-9]`. -/
def Survives (name : Text) : Prop := ∃ c ∈ name.flatMap lowerChar, isSlugChar c = true

/-- What is derived from a name is a slug. -/
def Derives (name : Text) : Prop :=
  Survives name → ∃ slug, Slug.fromDisplayName name = .ok slug ∧ SlugName slug.value

/-- A text that the constructor accepts is the slug that is derived from it. -/
def DerivesItself (text : Text) : Prop :=
  ∀ slug, Slug.make text = .ok slug → Slug.fromDisplayName text = .ok slug

/-! ## The pattern -/

/-- The rest of a slug, inside a word or before one. -/
def HyphenatedFrom (inWord : Bool) (text : Text) : Prop :=
  ∃ word words, text.splitOn '-' = word :: words ∧ (word ≠ [] ∨ inWord = true) ∧
    (∀ c ∈ word, isSlugChar c = true) ∧ ∀ other ∈ words, other ≠ [] ∧ ∀ c ∈ other, isSlugChar c = true

theorem hyphenated_iff {text : Text} : Hyphenated text ↔ HyphenatedFrom false text := by
  unfold Hyphenated HyphenatedFrom
  obtain ⟨word, words, split⟩ := List.exists_cons_of_ne_nil (List.splitOn_ne_nil '-' text)
  rw [split, List.forall_mem_cons]
  constructor
  · rintro ⟨⟨nonempty, letters⟩, others⟩
    exact ⟨word, words, rfl, Or.inl nonempty, letters, others⟩
  · rintro ⟨_, _, same, nonempty, letters, others⟩
    obtain ⟨rfl, rfl⟩ := List.cons.inj same
    exact ⟨⟨by simpa using nonempty, letters⟩, others⟩

theorem hyphenatedFrom_nil {inWord : Bool} : HyphenatedFrom inWord [] ↔ inWord = true := by
  simp [HyphenatedFrom, List.splitOn_nil]

theorem hyphenatedFrom_hyphen {inWord : Bool} {rest : Text} :
    HyphenatedFrom inWord ('-' :: rest) ↔ inWord = true ∧ HyphenatedFrom false rest := by
  rw [← hyphenated_iff]
  have split : ('-' :: rest).splitOn '-' = [] :: rest.splitOn '-' := by
    rw [List.splitOn_cons_eq_if_modifyHead, if_pos (by simp)]
  simp only [HyphenatedFrom, split, Hyphenated, List.cons.injEq]
  constructor
  · rintro ⟨_, _, ⟨rfl, rfl⟩, inside, _, others⟩
    exact ⟨by simpa using inside, others⟩
  · rintro ⟨inside, others⟩
    exact ⟨[], _, ⟨rfl, rfl⟩, Or.inr inside, by simp, others⟩

theorem hyphenatedFrom_char {inWord : Bool} {c : Char} {rest : Text} (other : c ≠ '-') :
    HyphenatedFrom inWord (c :: rest) ↔ isSlugChar c = true ∧ HyphenatedFrom true rest := by
  obtain ⟨word, words, split⟩ := List.exists_cons_of_ne_nil (List.splitOn_ne_nil '-' rest)
  have whole : (c :: rest).splitOn '-' = (c :: word) :: words := by
    rw [List.splitOn_cons_eq_if_modifyHead, if_neg (by simpa using other), split]
    rfl
  unfold HyphenatedFrom
  rw [whole, split]
  constructor
  · rintro ⟨_, _, same, _, letters, others⟩
    obtain ⟨rfl, rfl⟩ := List.cons.inj same
    rw [List.forall_mem_cons] at letters
    exact ⟨letters.1, word, words, rfl, Or.inr rfl, letters.2, others⟩
  · rintro ⟨letter, _, _, same, _, letters, others⟩
    obtain ⟨rfl, rfl⟩ := List.cons.inj same
    exact ⟨c :: word, words, rfl, Or.inl (List.cons_ne_nil c word),
      List.forall_mem_cons.mpr ⟨letter, letters⟩, others⟩

theorem isSlugChar_hyphen : isSlugChar '-' = false := by decide

theorem isSlugChar_newline : isSlugChar '\n' = false := by decide

/-- What the pattern matches. -/
theorem slugShaped_iff (text : Text) : ∀ inWord : Bool, slugShaped inWord text = true ↔
    HyphenatedFrom inWord text ∨ ∃ body, text = body ++ ['\n'] ∧ HyphenatedFrom inWord body := by
  induction text with
  | nil => simp [slugShaped, hyphenatedFrom_nil]
  | cons c rest ih =>
      intro inWord
      rw [slugShaped]
      by_cases hyphen : c = '-'
      · subst hyphen
        rw [isSlugChar_hyphen, if_neg (by simp), if_pos rfl, Bool.and_eq_true, ih,
          hyphenatedFrom_hyphen]
        constructor
        · rintro ⟨inside, whole | ⟨body, rfl, shaped⟩⟩
          · exact Or.inl ⟨inside, whole⟩
          · exact Or.inr ⟨'-' :: body, rfl, hyphenatedFrom_hyphen.mpr ⟨inside, shaped⟩⟩
        · rintro (⟨inside, whole⟩ | ⟨body, split, shaped⟩)
          · exact ⟨inside, Or.inl whole⟩
          · cases body with
            | nil => cases split
            | cons d body =>
                obtain ⟨rfl, rfl⟩ := List.cons.inj split
                obtain ⟨inside, shaped⟩ := hyphenatedFrom_hyphen.mp shaped
                exact ⟨inside, Or.inr ⟨body, rfl, shaped⟩⟩
      · rw [hyphenatedFrom_char hyphen]
        cases letter : isSlugChar c with
        | true =>
            rw [if_pos rfl, ih]
            constructor
            · rintro (whole | ⟨body, rfl, shaped⟩)
              · exact Or.inl ⟨rfl, whole⟩
              · exact Or.inr ⟨c :: body, rfl, (hyphenatedFrom_char hyphen).mpr ⟨letter, shaped⟩⟩
            · rintro (⟨_, whole⟩ | ⟨body, split, shaped⟩)
              · exact Or.inl whole
              · cases body with
                | nil =>
                    obtain ⟨rfl, _⟩ := List.cons.inj split
                    rw [isSlugChar_newline] at letter
                    cases letter
                | cons d body =>
                    obtain ⟨rfl, rfl⟩ := List.cons.inj split
                    exact Or.inr ⟨body, rfl, ((hyphenatedFrom_char hyphen).mp shaped).2⟩
        | false =>
            rw [if_neg (by simp), if_neg hyphen]
            constructor
            · intro ends
              simp only [Bool.and_eq_true, beq_iff_eq, List.isEmpty_iff] at ends
              obtain ⟨⟨rfl, rfl⟩, inside⟩ := ends
              exact Or.inr ⟨[], rfl, hyphenatedFrom_nil.mpr inside⟩
            · rintro (⟨impossible, _⟩ | ⟨body, split, shaped⟩)
              · cases impossible
              · cases body with
                | nil =>
                    obtain ⟨rfl, rfl⟩ := List.cons.inj split
                    simpa using hyphenatedFrom_nil.mp shaped
                | cons d body =>
                    obtain ⟨rfl, rfl⟩ := List.cons.inj split
                    have impossible := ((hyphenatedFrom_char hyphen).mp shaped).1
                    rw [letter] at impossible
                    cases impossible

/-- The texts that the constructor accepts. -/
theorem make_ok_iff {text : Text} : (∃ slug, Slug.make text = .ok slug ∧ slug.value = text) ↔
    SlugName text ∨ NewlineEnded text := by
  have accepted : (∃ slug, Slug.make text = .ok slug ∧ slug.value = text) ↔
      text.length ≤ slugMaxLength ∧ slugShaped false text = true := by
    unfold Slug.make
    constructor
    · rintro ⟨slug, made, rfl⟩
      exact ⟨slug.bounded, slug.shaped⟩
    · rintro ⟨bounded, shaped⟩
      have nonempty : text ≠ [] := by
        rintro rfl
        cases shaped
      rw [if_neg nonempty, dif_pos bounded, dif_pos shaped]
      exact ⟨⟨text, bounded, shaped⟩, rfl, rfl⟩
  rw [accepted, slugShaped_iff]
  unfold SlugName NewlineEnded
  simp only [hyphenated_iff]
  constructor
  · rintro ⟨bounded, whole | ⟨body, rfl, shaped⟩⟩
    · exact Or.inl ⟨whole, bounded⟩
    · exact Or.inr ⟨body, rfl, shaped, bounded⟩
  · rintro (⟨whole, bounded⟩ | ⟨body, same, shaped, bounded⟩)
    · exact ⟨bounded, Or.inl whole⟩
    · exact ⟨bounded, Or.inr ⟨body, same, shaped⟩⟩

/-! ## What is derived -/

/-- Slug characters and hyphens, no two hyphens in a row. -/
def Spaced (text : Text) : Prop :=
  text.IsChain (fun first second => first = '-' → second ≠ '-') ∧
    ∀ c ∈ text, isSlugChar c = true ∨ c = '-'

theorem spaced_cons {c : Char} {rest : Text} : Spaced (c :: rest) ↔
    (isSlugChar c = true ∨ c = '-') ∧ (c = '-' → rest.head? ≠ some '-') ∧ Spaced rest := by
  unfold Spaced
  rw [List.isChain_cons, List.forall_mem_cons]
  constructor
  · rintro ⟨⟨follows, chain⟩, here, others⟩
    exact ⟨here, fun hyphen next => follows '-' next hyphen rfl, chain, others⟩
  · rintro ⟨here, follows, chain, others⟩
    refine ⟨⟨fun d next hyphen same => follows hyphen ?_, chain⟩, here, others⟩
    rw [← same]
    exact next

/-- The words of a text, read off its single characters. -/
theorem hyphenatedFrom_iff (text : Text) : ∀ inWord : Bool, HyphenatedFrom inWord text ↔
    Spaced text ∧ text.getLast? ≠ some '-' ∧
      (inWord = false → text ≠ [] ∧ text.head? ≠ some '-') := by
  induction text with
  | nil => simp [hyphenatedFrom_nil, Spaced]
  | cons c rest ih =>
      intro inWord
      have last (nonempty : rest ≠ []) : (c :: rest).getLast? = rest.getLast? := by
        obtain ⟨d, later, rfl⟩ := List.exists_cons_of_ne_nil nonempty
        rfl
      rw [spaced_cons]
      by_cases hyphen : c = '-'
      · subst hyphen
        rw [hyphenatedFrom_hyphen, ih]
        constructor
        · rintro ⟨rfl, spaced, ends, starts⟩
          obtain ⟨nonempty, head⟩ := starts rfl
          rw [last nonempty]
          exact ⟨⟨Or.inr rfl, fun _ => head, spaced⟩, ends, by simp⟩
        · rintro ⟨⟨_, follows, spaced⟩, ends, starts⟩
          have nonempty : rest ≠ [] := by
            rintro rfl
            exact ends rfl
          rw [last nonempty] at ends
          refine ⟨?_, spaced, ends, fun _ => ⟨nonempty, follows rfl⟩⟩
          cases inWord with
          | true => rfl
          | false => exact absurd rfl (starts rfl).2
      · rw [hyphenatedFrom_char hyphen, ih]
        constructor
        · rintro ⟨letter, spaced, ends, _⟩
          refine ⟨⟨Or.inl letter, fun same => absurd same hyphen, spaced⟩, ?_, by simp [hyphen]⟩
          by_cases nonempty : rest = []
          · simpa [nonempty] using hyphen
          · rwa [last nonempty]
        · rintro ⟨⟨letter, _, spaced⟩, ends, _⟩
          refine ⟨letter.resolve_right hyphen, spaced, ?_, by simp⟩
          by_cases nonempty : rest = []
          · simp [nonempty]
          · rwa [last nonempty] at ends

theorem Spaced.front {front text : Text} (spaced : Spaced text) (cut : front <+: text) :
    Spaced front := by
  obtain ⟨rest, rfl⟩ := cut
  exact ⟨spaced.1.left_of_append, fun c member => spaced.2 c (List.mem_append_left rest member)⟩

theorem Spaced.suffix {back text : Text} (spaced : Spaced text) (cut : back <:+ text) :
    Spaced back :=
  ⟨spaced.1.suffix cut, fun c member => spaced.2 c (cut.subset member)⟩

theorem collapse_spaced (text : Text) : Spaced (collapse text) := by
  induction text with
  | nil => simp [collapse, Spaced]
  | cons c rest ih =>
      rw [collapse]
      split
      · next letter =>
          refine spaced_cons.mpr ⟨Or.inl letter, fun hyphen => ?_, ih⟩
          rw [hyphen, isSlugChar_hyphen] at letter
          cases letter
      · split
        · next later split =>
            rw [← split]
            exact ih
        · next other =>
            refine spaced_cons.mpr ⟨Or.inr rfl, fun _ head => ?_, ih⟩
            obtain ⟨later, shape⟩ := List.head?_eq_some_iff.mp head
            exact other later shape

/-- A text of single hyphens between words stays as it is. -/
theorem collapse_same {text : Text} (spaced : Spaced text) : collapse text = text := by
  induction text with
  | nil => rfl
  | cons c rest ih =>
      obtain ⟨letter, follows, spaced⟩ := spaced_cons.mp spaced
      rw [collapse, ih spaced]
      split
      · rfl
      · next other =>
          have hyphen := letter.resolve_left other
          split
          · next later => exact absurd rfl (follows hyphen)
          · rw [hyphen]

theorem mem_collapse {text : Text} {c : Char} (member : c ∈ text) (letter : isSlugChar c = true) :
    c ∈ collapse text := by
  induction text with
  | nil => cases member
  | cons d rest ih =>
      rw [collapse]
      rcases List.mem_cons.mp member with rfl | later
      · rw [if_pos letter]
        exact List.mem_cons_self
      · have found := ih later
        split
        · exact List.mem_cons_of_mem d found
        · split
          · next shape => rwa [shape] at found
          · exact List.mem_cons_of_mem '-' found

theorem isHyphen_iff {c : Char} : isHyphen c = true ↔ c = '-' := by simp [isHyphen]

theorem isHyphen_letter {c : Char} (letter : isSlugChar c = true) : isHyphen c = false := by
  rw [Bool.eq_false_iff, Ne, isHyphen_iff]
  rintro rfl
  rw [isSlugChar_hyphen] at letter
  cases letter

theorem isSpace_letter {c : Char} (letter : isSlugChar c = true) : isSpace c = false := by
  simp only [isSlugChar, isSpace, Bool.or_eq_true, Bool.and_eq_true, decide_eq_true_eq,
    Bool.eq_false_iff, Ne, beq_iff_eq] at letter ⊢
  omega

theorem lowerChar_letter {c : Char} (letter : isSlugChar c = true) : lowerChar c = [c] := by
  simp only [isSlugChar, Bool.or_eq_true, Bool.and_eq_true, decide_eq_true_eq] at letter
  unfold lowerChar
  rw [if_neg (by omega), if_neg (by omega), if_neg (by omega)]

/-- White space has no lower case. -/
theorem lowerChar_space {c : Char} (space : isSpace c = true) : lowerChar c = [c] := by
  simp only [isSpace, Bool.or_eq_true, Bool.and_eq_true, decide_eq_true_eq, beq_iff_eq] at space
  unfold lowerChar
  rw [if_neg (by omega), if_neg (by omega), if_neg (by omega)]

theorem mem_lowered {name : Text} {c : Char} (member : c ∈ name.flatMap lowerChar)
    (letter : isSlugChar c = true) : c ∈ lowered name := by
  obtain ⟨source, inName, inLower⟩ := List.mem_flatMap.mp member
  refine List.mem_flatMap.mpr ⟨source, mem_strip inName ?_, inLower⟩
  by_contra space
  rw [Bool.not_eq_false] at space
  rw [lowerChar_space space, List.mem_singleton] at inLower
  rw [← inLower, isSpace_letter letter] at space
  cases space

theorem head?_front {front text : Text} (cut : front <+: text) (nonempty : front ≠ []) :
    front.head? = text.head? := by
  obtain ⟨rest, rfl⟩ := cut
  rw [List.head?_append_of_ne_nil _ nonempty]

theorem head?_dropWhile_ne {text : Text} : (text.dropWhile isHyphen).head? ≠ some '-' := by
  intro head
  have stops := List.head?_dropWhile_not isHyphen text
  rw [head] at stops
  cases stops

theorem getLast?_rdropWhile_ne {text : Text} : (text.rdropWhile isHyphen).getLast? ≠ some '-' := by
  intro last
  rw [List.rdropWhile, List.getLast?_reverse] at last
  exact head?_dropWhile_ne last

/-- The derived text is a slug. -/
theorem derived_slug {name : Text} (survives : Survives name) :
    stripHyphens (collapse (lowered name)) ≠ [] ∧
      SlugName (((stripHyphens (collapse (lowered name))).take slugMaxLength).rdropWhile
        isHyphen) := by
  obtain ⟨c, member, letter⟩ := survives
  have found := mem_collapse (mem_lowered member letter) letter
  have kept := mem_rdropWhile (mem_dropWhile found (isHyphen_letter letter)) (isHyphen_letter letter)
  have nonempty : stripHyphens (collapse (lowered name)) ≠ [] := List.ne_nil_of_mem kept
  refine ⟨nonempty, ?_⟩
  have dropped : stripHyphens (collapse (lowered name)) <+:
      (collapse (lowered name)).dropWhile isHyphen := List.rdropWhile_prefix _ _
  have spaced : Spaced (stripHyphens (collapse (lowered name))) :=
    ((collapse_spaced _).suffix (List.dropWhile_suffix _)).front dropped
  have head := head?_front dropped nonempty
  generalize stripHyphens (collapse (lowered name)) = collapsed at nonempty spaced head
  obtain ⟨first, rest, rfl⟩ := List.exists_cons_of_ne_nil nonempty
  have first_ : first ≠ '-' := by
    rintro rfl
    exact head?_dropWhile_ne head.symm
  have inside : first ∈ ((first :: rest).take slugMaxLength).rdropWhile isHyphen := by
    refine mem_rdropWhile (by simp [slugMaxLength]) ?_
    rw [Bool.eq_false_iff, Ne, isHyphen_iff]
    exact first_
  have cut : ((first :: rest).take slugMaxLength).rdropWhile isHyphen <+:
      (first :: rest).take slugMaxLength := List.rdropWhile_prefix _ _
  have whole := cut.trans (List.take_prefix _ _)
  have some_ := List.ne_nil_of_mem inside
  refine ⟨hyphenated_iff.mpr ((hyphenatedFrom_iff _ _).mpr ⟨spaced.front whole,
    getLast?_rdropWhile_ne, fun _ => ⟨some_, ?_⟩⟩), ?_⟩
  · rw [head?_front whole some_]
    simpa using first_
  · have short := cut.length_le
    rw [List.length_take] at short
    omega

/-- What is derived from a slug is the slug. -/
theorem fromDisplayName_slug {text : Text} (slug : SlugName text) :
    Slug.fromDisplayName text = Slug.make text := by
  obtain ⟨spaced, ends, starts⟩ := (hyphenatedFrom_iff _ _).mp (hyphenated_iff.mp slug.1)
  obtain ⟨nonempty, head⟩ := starts rfl
  have solid : ∀ c ∈ text, isSpace c = false := by
    intro c member
    rcases spaced.2 c member with letter | rfl
    · exact isSpace_letter letter
    · decide
  have stripped : strip text = text := by
    have token : Token text := ⟨nonempty, solid⟩
    rw [strip, ← List.append_nil text, lstrip_token token, List.append_nil, rstrip_token token]
  have lower : text.flatMap lowerChar = text := by
    calc
      text.flatMap lowerChar = text.flatMap fun c => [c] := by
        refine List.flatMap_congr fun c member => ?_
        rcases spaced.2 c member with letter | rfl
        · exact lowerChar_letter letter
        · decide
      _ = text := List.flatMap_singleton' text
  have front : text.dropWhile isHyphen = text := by
    obtain ⟨c, rest, rfl⟩ := List.exists_cons_of_ne_nil nonempty
    rw [List.dropWhile_cons_of_neg]
    simpa [isHyphen] using head
  have back : text.rdropWhile isHyphen = text := by
    rw [List.rdropWhile_eq_self_iff]
    intro some_ hyphen
    rw [isHyphen_iff] at hyphen
    rw [List.getLast?_eq_some_getLast some_, hyphen] at ends
    exact ends rfl
  have collapsed : stripHyphens (collapse (lowered text)) = text := by
    rw [stripHyphens, lowered, stripped, lower, collapse_same spaced, front, back]
  rw [Slug.fromDisplayName, collapsed, if_neg nonempty, List.take_of_length_le slug.2, back]

theorem newlineEnded_not_slug {text : Text} (ended : NewlineEnded text) : ¬ SlugName text := by
  obtain ⟨body, rfl, _⟩ := ended
  intro slug
  have spaced := ((hyphenatedFrom_iff _ _).mp (hyphenated_iff.mp slug.1)).1
  rcases spaced.2 '\n' (by simp) with letter | hyphen
  · rw [isSlugChar_newline] at letter
    cases letter
  · cases hyphen

theorem make_value {text : Text} {slug : Slug} (made : Slug.make text = .ok slug) :
    slug.value = text := by
  unfold Slug.make at made
  split at made
  · cases made
  · split at made
    · split at made
      · cases made
        rfl
      · cases made
    · cases made

/-- The constructor and the derivation are exact but for a slug with a line feed behind it. -/
theorem slug_exact_iff (text name : Text) :
    (AcceptsExactly text ∧ Derives name ∧ DerivesItself text) ↔ ¬ NewlineEnded text := by
  constructor
  · rintro ⟨exact_, _, _⟩ ended
    exact newlineEnded_not_slug ended (exact_.mp (make_ok_iff.mpr (Or.inr ended)))
  · intro clean
    refine ⟨?_, ?_, ?_⟩
    · rw [AcceptsExactly, make_ok_iff]
      exact or_iff_left clean
    · intro survives
      obtain ⟨nonempty, named⟩ := derived_slug survives
      obtain ⟨slug, made, same⟩ := make_ok_iff.mpr (Or.inl named)
      refine ⟨slug, ?_, same ▸ named⟩
      rw [Slug.fromDisplayName, if_neg nonempty, made]
    · intro slug made
      have named := (make_ok_iff.mp ⟨slug, made, make_value made⟩).resolve_right clean
      rw [fromDisplayName_slug named, made]

/-- A word alone is a slug. -/
theorem hyphenated_word {text : Text} (nonempty : text ≠ [])
    (letters : text.all isSlugChar = true) : Hyphenated text := by
  rw [List.all_eq_true] at letters
  have solid : '-' ∉ text := by
    intro member
    have letter := letters '-' member
    rw [isSlugChar_hyphen] at letter
    cases letter
  rw [Hyphenated, List.splitOn_eq_singleton solid]
  simpa using ⟨nonempty, letters⟩

/-- A slug with a line feed behind it is accepted. -/
theorem newline_accepted : ¬ AcceptsExactly "backup\n".toList := by
  intro exact_
  have ended : NewlineEnded "backup\n".toList :=
    ⟨"backup".toList, by decide, hyphenated_word (by decide) (by decide), by decide⟩
  exact newlineEnded_not_slug ended (exact_.mp (make_ok_iff.mpr (Or.inr ended)))

end TaskControl
