import TaskControl.Foundation.LinePattern

/-!
# Marker lines

The anchored patterns by which the cron adapter knows its own lines, written as
chains of `LinePattern` steps.  A line is at most one kind of marker, and the
lines written by `regionOpening` and its siblings are of the kind they name.
-/

set_option autoImplicit false

namespace TaskControl.Cron

open PythonText LinePattern

/-- The named groups of a begin marker or of a member's identity comment. -/
structure Identity where
  slug : Text
  taskId : Text
  digest : Text
  deriving DecidableEq, Repr

/-- `^#\s*mark\s*taskcontrol\s+`. -/
def markerHead (mark line : Text) : Option Text := do
  let t ← literal ['#'] line
  let t ← literal mark (lstrip t)
  let t ← literal "taskcontrol".toList (lstrip t)
  blanks t

/-- `task=(\S+)\s+id=(\S+)\s+digest=(\S+)\s*closing\s*$`. -/
def identity (closing t : Text) : Option Identity := do
  let t ← literal "task=".toList t
  let (slug, t) ← word t
  let t ← literal "id=".toList (← blanks t)
  let (taskId, t) ← word t
  let t ← literal "digest=".toList (← blanks t)
  let digest ← lastWord closing t
  return ⟨slug, taskId, digest⟩

/-- `block\s*closing\s*$`. -/
def blockTail (closing t : Text) : Option Unit := do
  let t ← literal "block".toList t
  let t ← literal closing (lstrip t)
  guard (lstrip t = [])

/-- `_BEGIN.match`. -/
def matchBegin (line : Text) : Option Identity := markerHead ">>>".toList line >>= identity ">>>".toList

/-- `_END.match`, whose only group is the slug. -/
def matchEnd (line : Text) : Option Text := do
  let t ← markerHead "<<<".toList line
  let t ← literal "task=".toList t
  lastWord "<<<".toList t

/-- `_BLOCK_BEGIN.match`. -/
def matchBlockBegin (line : Text) : Option Unit :=
  markerHead ">>>".toList line >>= blockTail ">>>".toList

/-- `_BLOCK_END.match`. -/
def matchBlockEnd (line : Text) : Option Unit :=
  markerHead "<<<".toList line >>= blockTail "<<<".toList

/-- `_MEMBER.match`. -/
def matchMember (line : Text) : Option Identity := markerHead [] line >>= identity []

/-- Whether any of the five patterns matches. -/
def looksLikeMarker (line : Text) : Bool :=
  (matchBegin line).isSome || (matchEnd line).isSome || (matchBlockBegin line).isSome ||
    (matchBlockEnd line).isSome || (matchMember line).isSome

/-! ## A line is at most one kind of marker -/

theorem lstrip_lstrip (t : Text) : lstrip (lstrip t) = lstrip t :=
  List.dropWhile_idempotent isSpace t

theorem markerHead_apart {first second line found : Text}
    (apart : ¬ first <+: second ∧ ¬ second <+: first)
    (here : markerHead first line = some found) : markerHead second line = none := by
  cases there : markerHead second line with
  | none => rfl
  | some other =>
      simp only [markerHead, Option.bind_eq_bind, Option.bind_eq_some_iff] at here there
      obtain ⟨t, hash, afterFirst, foundFirst, _⟩ := here
      obtain ⟨t', hash', afterSecond, foundSecond, _⟩ := there
      obtain rfl : t = t' := Option.some.inj (hash.symm.trans hash')
      exact (literal_conflict apart foundFirst foundSecond).elim

/-- A member's identity comment has no mark after the hash, so its next literal
is the word that every other marker has only after its mark. -/
theorem markerHead_unmarked {mark line left right : Text}
    (apart : ¬ mark <+: "taskcontrol".toList ∧ ¬ "taskcontrol".toList <+: mark)
    (marked : markerHead mark line = some left) (unmarked : markerHead [] line = some right) :
    False := by
  simp only [markerHead, Option.bind_eq_bind, Option.bind_eq_some_iff] at marked unmarked
  obtain ⟨t, hash, _, foundMark, _⟩ := marked
  obtain ⟨t', hash', plain, nothing, _, foundWord, _⟩ := unmarked
  obtain rfl : t = t' := Option.some.inj (hash.symm.trans hash')
  have same : plain = lstrip t := by
    have whole := literal_eq_some nothing
    simpa using whole.symm
  rw [same, lstrip_lstrip] at foundWord
  exact literal_conflict apart foundMark foundWord

theorem identity_not_block {closing closing' t : Text} {found : Identity}
    (named : identity closing t = some found) : blockTail closing' t = none := by
  simp only [identity, Option.bind_eq_bind, Option.bind_eq_some_iff] at named
  obtain ⟨_, task, _⟩ := named
  cases block : literal "block".toList t with
  | none => simp only [blockTail, block, Option.bind_eq_bind, Option.bind_none]
  | some rest => exact (literal_conflict (by decide) task block).elim

/-- The mark after the hash, and whether the line names the block or a task. -/
theorem opening_none_of_closing {line found : Text}
    (head : markerHead "<<<".toList line = some found) :
    matchBegin line = none ∧ matchBlockBegin line = none ∧ matchMember line = none := by
  have opening : markerHead ">>>".toList line = none := markerHead_apart (by decide) head
  have bare : markerHead [] line = none := by
    cases member : markerHead [] line with
    | none => rfl
    | some other => exact (markerHead_unmarked (by decide) head member).elim
  simp only [matchBegin, matchBlockBegin, matchMember, opening, bare, Option.bind_eq_bind,
    Option.bind_none, and_self]

theorem closing_none_of_opening {line found : Text}
    (head : markerHead ">>>".toList line = some found) :
    matchEnd line = none ∧ matchBlockEnd line = none ∧ matchMember line = none := by
  have closing : markerHead "<<<".toList line = none := markerHead_apart (by decide) head
  have bare : markerHead [] line = none := by
    cases member : markerHead [] line with
    | none => rfl
    | some other => exact (markerHead_unmarked (by decide) head member).elim
  simp only [matchEnd, matchBlockEnd, matchMember, closing, bare, Option.bind_eq_bind,
    Option.bind_none, and_self]

theorem matchBegin_only {line : Text} {found : Identity} (begins : matchBegin line = some found) :
    matchEnd line = none ∧ matchBlockBegin line = none ∧ matchBlockEnd line = none := by
  obtain ⟨t, head, named⟩ := Option.bind_eq_some_iff.mp begins
  obtain ⟨noEnd, noBlockEnd, _⟩ := closing_none_of_opening head
  refine ⟨noEnd, ?_, noBlockEnd⟩
  rw [matchBlockBegin, head]
  exact identity_not_block named

theorem matchEnd_only {line slug : Text} (ends : matchEnd line = some slug) :
    matchBegin line = none ∧ matchBlockBegin line = none ∧ matchBlockEnd line = none := by
  obtain ⟨t, head, named⟩ := Option.bind_eq_some_iff.mp ends
  obtain ⟨noBegin, noBlockBegin, _⟩ := opening_none_of_closing head
  refine ⟨noBegin, noBlockBegin, ?_⟩
  obtain ⟨rest, task, _⟩ := Option.bind_eq_some_iff.mp named
  rw [matchBlockEnd, head]
  cases block : literal "block".toList t with
  | none => simp only [blockTail, block, Option.bind_eq_bind, Option.bind_some, Option.bind_none]
  | some other => exact (literal_conflict (by decide) task block).elim

theorem matchBlockBegin_only {line : Text} (begins : matchBlockBegin line = some ()) :
    matchBegin line = none ∧ matchEnd line = none ∧ matchBlockEnd line = none := by
  obtain ⟨t, head, _⟩ := Option.bind_eq_some_iff.mp begins
  obtain ⟨noEnd, noBlockEnd, _⟩ := closing_none_of_opening head
  refine ⟨?_, noEnd, noBlockEnd⟩
  cases named : matchBegin line with
  | none => rfl
  | some found => simp [(matchBegin_only named).2.1] at begins

theorem matchBlockEnd_only {line : Text} (ends : matchBlockEnd line = some ()) :
    matchBegin line = none ∧ matchEnd line = none ∧ matchBlockBegin line = none := by
  obtain ⟨t, head, _⟩ := Option.bind_eq_some_iff.mp ends
  obtain ⟨noBegin, noBlockBegin, _⟩ := opening_none_of_closing head
  refine ⟨noBegin, ?_, noBlockBegin⟩
  cases named : matchEnd line with
  | none => rfl
  | some found => simp [(matchEnd_only named).2.2] at ends

theorem matchMember_only {line : Text} {found : Identity} (member : matchMember line = some found) :
    matchBegin line = none ∧ matchEnd line = none ∧ matchBlockBegin line = none ∧
      matchBlockEnd line = none := by
  obtain ⟨t, bare, _⟩ := Option.bind_eq_some_iff.mp member
  have headless (mark : Text)
      (apart : ¬ mark <+: "taskcontrol".toList ∧ ¬ "taskcontrol".toList <+: mark) :
      markerHead mark line = none := by
    cases head : markerHead mark line with
    | none => rfl
    | some other => exact (markerHead_unmarked apart head bare).elim
  have opening := headless ">>>".toList (by decide)
  have closing := headless "<<<".toList (by decide)
  simp only [matchBegin, matchEnd, matchBlockBegin, matchBlockEnd, opening, closing,
    Option.bind_eq_bind, Option.bind_none, and_self]

end TaskControl.Cron
