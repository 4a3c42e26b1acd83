import Mathlib

/-!
# Substitution of words

The leftmost occurrences of a word in a list are replaced by another.  What replaces
them may complete a word with its surroundings; where it completes none, a text from
which a word was removed stays free of it, whatever is replaced later.
-/

set_option autoImplicit false

namespace Substitution

variable {α : Type}

def Free (needle text : List α) : Prop := ¬ needle <:+: text

/-- The wall completes no needle: one beside it is on one of its sides. -/
def Separates (wall needle : List α) : Prop :=
  ∀ before after, needle <:+: before ++ wall ++ after → needle <:+: before ∨ needle <:+: after

theorem Free.mono {needle text part : List α} (free : Free needle text) (within : part <:+: text) :
    Free needle part := fun occurs => free (occurs.trans within)

section Replacing

variable [DecidableEq α]

/-- The search goes on behind what was replaced; `skip` items of it are left. -/
def replaceFrom (needle wall : List α) : Nat → List α → List α
  | _, [] => []
  | skip + 1, _ :: rest => replaceFrom needle wall skip rest
  | 0, item :: rest =>
      if needle <+: item :: rest then wall ++ replaceFrom needle wall (needle.length - 1) rest
      else item :: replaceFrom needle wall 0 rest

def replaceAll (needle wall text : List α) : List α := replaceFrom needle wall 0 text

variable {needle wall : List α}

theorem replaceFrom_skip (skip : Nat) (text : List α) :
    replaceFrom needle wall skip text = replaceAll needle wall (text.drop skip) := by
  induction text generalizing skip with
  | nil => cases skip <;> rfl
  | cons item rest ih =>
      cases skip with
      | zero => rfl
      | succ skip => exact ih skip

theorem replaceAll_occurrence (nonempty : needle ≠ []) (rest : List α) :
    replaceAll needle wall (needle ++ rest) = wall ++ replaceAll needle wall rest := by
  cases needle with
  | nil => exact absurd rfl nonempty
  | cons first others =>
      have here : first :: others <+: first :: (others ++ rest) := List.prefix_append ..
      unfold replaceAll
      rw [List.cons_append, replaceFrom, if_pos here, replaceFrom_skip, List.length_cons,
        Nat.add_sub_cancel, List.drop_left]
      rfl

variable (wall) in
/-- A text is free of the needle, or its first occurrence is replaced and the rest of it searched. -/
theorem replaceAll_cases (nonempty : needle ≠ []) (text : List α) :
    (Free needle text ∧ replaceAll needle wall text = text) ∨
      ∃ before after, text = before ++ needle ++ after ∧ Free needle before ∧
        replaceAll needle wall text = before ++ wall ++ replaceAll needle wall after := by
  induction text with
  | nil =>
      exact .inl ⟨fun occurs => nonempty (List.infix_nil.mp occurs), rfl⟩
  | cons item rest ih =>
      by_cases here : needle <+: item :: rest
      · obtain ⟨after, whole⟩ := here
        refine .inr ⟨[], after, whole.symm, fun occurs => nonempty (List.infix_nil.mp occurs), ?_⟩
        rw [← whole]
        exact replaceAll_occurrence nonempty after
      · have later : replaceAll needle wall (item :: rest) =
            item :: replaceAll needle wall rest := by
          unfold replaceAll
          rw [replaceFrom, if_neg here]
        rcases ih with ⟨free, same⟩ | ⟨before, after, rfl, free, replaced⟩
        · refine .inl ⟨fun occurs => ?_, by rw [later, same]⟩
          exact (List.infix_cons_iff.mp occurs).elim here free
        · refine .inr ⟨item :: before, after, rfl, fun occurs => ?_, by rw [later, replaced]; rfl⟩
          rcases List.infix_cons_iff.mp occurs with first | inner
          · refine here (first.trans ?_)
            rw [List.append_assoc, ← List.cons_append]
            exact List.prefix_append ..
          · exact free inner

variable (wall) in
theorem replaceAll_of_free (nonempty : needle ≠ []) {text : List α} (free : Free needle text) :
    replaceAll needle wall text = text := by
  rcases replaceAll_cases wall nonempty text with ⟨_, same⟩ | ⟨before, after, rfl, _⟩
  · exact same
  · exact absurd (List.infix_append ..) free

/-- What is replaced is gone. -/
theorem replaceAll_free (nonempty : needle ≠ []) (separates : Separates wall needle)
    (text : List α) : Free needle (replaceAll needle wall text) := by
  induction shorter : text.length using Nat.strong_induction_on generalizing text with
  | _ length ih =>
      rcases replaceAll_cases wall nonempty text with
        ⟨free, same⟩ | ⟨before, after, rfl, free, replaced⟩
      · rw [same]
        exact free
      · have positive := List.length_pos_iff.mpr nonempty
        have rest := ih after.length (by
          rw [← shorter, List.length_append, List.length_append]
          omega) after rfl
        rw [replaced]
        intro occurs
        exact (separates _ _ occurs).elim free rest

/-- A replacement of another word brings back no word that the wall separates. -/
theorem replaceAll_keeps_free {other : List α} (nonempty : other ≠ [])
    (separates : Separates wall needle) {text : List α} (free : Free needle text) :
    Free needle (replaceAll other wall text) := by
  induction shorter : text.length using Nat.strong_induction_on generalizing text with
  | _ length ih =>
      rcases replaceAll_cases wall nonempty text with
        ⟨_, same⟩ | ⟨before, after, rfl, _, replaced⟩
      · rw [same]
        exact free
      · have positive := List.length_pos_iff.mpr nonempty
        have first : Free needle before := by
          rw [List.append_assoc] at free
          exact free.mono List.infix_append_left
        have rest := @ih after.length (by
          rw [← shorter, List.length_append, List.length_append]
          omega) after (free.mono List.infix_append_right) rfl
        rw [replaced]
        intro occurs
        exact (separates _ _ occurs).elim first rest

/-- Every word of the list is replaced, one after the other. -/
def replaceEach (needles : List (List α)) (wall text : List α) : List α :=
  needles.foldl (fun text needle => replaceAll needle wall text) text

theorem replaceEach_keeps_free {needles : List (List α)} (nonempty : ∀ other ∈ needles, other ≠ [])
    (separates : Separates wall needle) {text : List α} (free : Free needle text) :
    Free needle (replaceEach needles wall text) := by
  induction needles generalizing text with
  | nil => exact free
  | cons other rest ih =>
      exact ih (fun other member => nonempty other (List.mem_cons_of_mem _ member))
        (replaceAll_keeps_free (nonempty other List.mem_cons_self) separates free)

theorem replaceEach_free {needles : List (List α)} (nonempty : ∀ other ∈ needles, other ≠ [])
    (separates : Separates wall needle) (listed : needle ∈ needles) (text : List α) :
    Free needle (replaceEach needles wall text) := by
  induction needles generalizing text with
  | nil => cases listed
  | cons other rest ih =>
      have others := fun other member => nonempty other (List.mem_cons_of_mem _ member)
      rcases List.mem_cons.mp listed with rfl | later
      · exact replaceEach_keeps_free others separates
          (replaceAll_free (nonempty needle List.mem_cons_self) separates text)
      · exact ih others later _

theorem replaceEach_of_free {needles : List (List α)} (nonempty : ∀ other ∈ needles, other ≠ [])
    {text : List α} (free : ∀ other ∈ needles, Free other text) :
    replaceEach needles wall text = text := by
  induction needles with
  | nil => rfl
  | cons other rest ih =>
      have same := replaceAll_of_free wall (nonempty other List.mem_cons_self)
        (free other List.mem_cons_self)
      unfold replaceEach at ih ⊢
      rw [List.foldl_cons, same]
      exact ih (fun other member => nonempty other (List.mem_cons_of_mem _ member))
        (fun other member => free other (List.mem_cons_of_mem _ member))

end Replacing

/-! ## Walls that separate -/

/-- A needle without an item is on one side of it. -/
theorem infix_around {needle before after : List α} {item : α} (missing : item ∉ needle)
    (occurs : needle <:+: before ++ item :: after) : needle <:+: before ∨ needle <:+: after := by
  rcases List.infix_append_iff.mp occurs with first | rest | ⟨start, finish, rfl, ends, begins⟩
  · exact .inl first
  · rcases List.infix_cons_iff.mp rest with begins | inner
    · rcases List.prefix_cons_iff.mp begins with rfl | ⟨tail, rfl, _⟩
      · exact .inl (List.nil_infix ..)
      · exact absurd List.mem_cons_self missing
    · exact .inr inner
  · rcases List.prefix_cons_iff.mp begins with rfl | ⟨tail, rfl, _⟩
    · rw [List.append_nil]
      exact .inl ends.isInfix
    · exact absurd (List.mem_append_right _ List.mem_cons_self) missing

/-- A fence that the needle does not touch leaves it on one side. -/
theorem infix_fenced {needle before after : List α} {fence : List α} (nonempty : fence ≠ [])
    (missing : ∀ item ∈ fence, item ∉ needle) (occurs : needle <:+: before ++ fence ++ after) :
    needle <:+: before ∨ needle <:+: after := by
  induction fence generalizing before with
  | nil => exact absurd rfl nonempty
  | cons item rest ih =>
      rw [List.append_assoc, List.cons_append] at occurs
      rcases infix_around (missing item List.mem_cons_self) occurs with left_ | right_
      · exact .inl left_
      · cases rest with
        | nil => exact .inr right_
        | cons next others =>
            have inner := @ih [] (by simp)
              (fun other member => missing other (List.mem_cons_of_mem _ member)) right_
            rcases inner with empty | behind
            · rw [List.infix_nil.mp empty]
              exact .inl (List.nil_infix ..)
            · exact .inr behind

/-- A word between two fences, which the needle does not touch, has it inside or separates it. -/
theorem separates_of_fences {needle opening core closing : List α} (opened : opening ≠ [])
    (closed : closing ≠ []) (missing : ∀ item ∈ opening ++ closing, item ∉ needle)
    (free : Free needle core) : Separates (opening ++ core ++ closing) needle := by
  intro before after occurs
  have shape : before ++ (opening ++ core ++ closing) ++ after =
      before ++ opening ++ (core ++ closing ++ after) := by simp
  rw [shape] at occurs
  rcases infix_fenced opened (fun item member => missing item (List.mem_append_left _ member))
    occurs with first | rest
  · exact .inl first
  · rcases infix_fenced closed (fun item member => missing item (List.mem_append_right _ member))
      rest with inner | last
    · exact absurd inner free
    · exact .inr last

theorem Separates.free {wall needle : List α} (separates : Separates wall needle)
    (nonempty : needle ≠ []) : Free needle wall := by
  intro occurs
  have sides := separates [] [] (by simpa using occurs)
  exact nonempty (List.infix_nil.mp (sides.elim id id))

end Substitution
