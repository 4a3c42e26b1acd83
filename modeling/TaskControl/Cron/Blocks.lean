import TaskControl.Cron.RegionEdits

/-!
# The block in the lines of a text

A text that the block functions accept has no marker of the block, or one begin
marker that the last end marker closes.  The lines in between are unmanaged ones
and then entries, each from its identity comment to the next.
-/

set_option autoImplicit false

namespace TaskControl.Cron

open PythonText

/-- A line that is no marker of the block. -/
def Outside (line : Text) : Prop := matchBlockBegin line = none ∧ matchBlockEnd line = none

/-! ## Entries -/

/-- The lines from an identity comment to the next. -/
structure Entry where
  identity : Identity
  marker : Text
  body : List Text
  marks : matchMember marker = some identity
  within : ∀ line ∈ body, matchMember line = none

def Entry.lines (entry : Entry) : List Text := entry.marker :: entry.body

def Entry.toMember (entry : Entry) : BlockMember := Cron.toMember entry.identity entry.lines

def entryLines (entries : List Entry) : List Text := entries.flatMap Entry.lines

@[simp] theorem entryLines_nil : entryLines [] = [] := rfl

@[simp] theorem entryLines_cons (entry : Entry) (rest : List Entry) :
    entryLines (entry :: rest) = entry.lines ++ entryLines rest := rfl

@[simp] theorem entryLines_append (first rest : List Entry) :
    entryLines (first ++ rest) = entryLines first ++ entryLines rest := by
  simp [entryLines]

/-- By induction on the lines, from the last on. -/
theorem entries_of_lines (lines : List Text) :
    ∃ preamble entries, lines = preamble ++ entryLines entries ∧
      ∀ line ∈ preamble, matchMember line = none := by
  induction lines with
  | nil => exact ⟨[], [], rfl, List.forall_mem_nil _⟩
  | cons line rest ih =>
      obtain ⟨preamble, entries, rfl, quiet⟩ := ih
      cases marks : matchMember line with
      | some identity =>
          exact ⟨[], ⟨identity, line, preamble, marks, quiet⟩ :: entries, rfl, List.forall_mem_nil _⟩
      | none => exact ⟨line :: preamble, entries, rfl, List.forall_mem_cons.mpr ⟨marks, quiet⟩⟩

theorem scanMembers_after (identity : Identity) (body : List Text) (entries : List Entry) :
    scanMembers (some (identity, body)) (entryLines entries) =
      Cron.toMember identity body :: entries.map Entry.toMember := by
  induction entries generalizing identity body with
  | nil => rfl
  | cons entry rest ih =>
      rw [entryLines_cons, Entry.lines, List.cons_append]
      simp only [scanMembers, entry.marks]
      rw [scanMembers_collect _ _ _ _ entry.within, ih]
      rfl

theorem scanMembers_entries {preamble : List Text} (entries : List Entry)
    (quiet : ∀ line ∈ preamble, matchMember line = none) :
    scanMembers none (preamble ++ entryLines entries) = entries.map Entry.toMember := by
  rw [scanMembers_skip _ _ quiet]
  cases entries with
  | nil => rfl
  | cons entry rest =>
      rw [entryLines_cons, Entry.lines, List.cons_append]
      simp only [scanMembers, entry.marks]
      rw [scanMembers_collect _ _ _ _ entry.within, scanMembers_after]
      rfl

/-! ## The bounds -/

/-- The lines of a text around those of its block and within. -/
structure BlockLines where
  before : List Text
  opening : Text
  inside : List Text
  closing : Text
  after : List Text
  outside : ∀ line ∈ before ++ after, Outside line
  opens : matchBlockBegin opening = some ()
  single : ∀ line ∈ inside, matchBlockBegin line = none
  closes : matchBlockEnd closing = some ()

namespace BlockLines

variable (block : BlockLines)

def lines : List Text :=
  block.before ++ (block.opening :: block.inside ++ block.closing :: block.after)

def start : Nat := block.before.length

def stop : Nat := block.before.length + block.inside.length + 1

theorem scanned : scanBlock 0 none none block.lines = .ok (some block.start, some block.stop) := by
  have outsideBefore : ∀ line ∈ block.before, Outside line :=
    fun line member => block.outside line (List.mem_append_left _ member)
  have outsideAfter : ∀ line ∈ block.after, Outside line :=
    fun line member => block.outside line (List.mem_append_right _ member)
  unfold lines
  rw [scanBlock_quiet _ _ _ _ _ outsideBefore, List.cons_append]
  simp only [scanBlock, block.opens, Option.isSome_some, if_true]
  obtain ⟨provisional, scanned⟩ := scanBlock_inside (0 + block.before.length + 1)
    (0 + block.before.length) none block.inside (block.closing :: block.after) block.single
  rw [scanned]
  simp only [scanBlock, (matchBlockEnd_only block.closes).2.2, block.closes, Option.isSome_none,
    Option.isSome_some, Bool.false_eq_true, if_true, if_false]
  have quiet := scanBlock_quiet (0 + block.before.length + 1 + block.inside.length + 1)
    (some (0 + block.before.length)) (some (0 + block.before.length + 1 + block.inside.length))
    block.after [] outsideAfter
  rw [List.append_nil] at quiet
  rw [quiet]
  have last : 0 + block.before.length + 1 + block.inside.length = block.stop := by
    unfold stop
    omega
  rw [last, Nat.zero_add]
  rfl

theorem inside_eq :
    (block.lines.take block.stop).drop (block.start + 1) = block.inside := by
  have shape : block.lines =
      (block.before ++ [block.opening]) ++ (block.inside ++ block.closing :: block.after) := by
    simp [lines]
  have length : block.start + 1 = (block.before ++ [block.opening]).length := by simp [start]
  have count : block.stop - (block.start + 1) = block.inside.length := by
    unfold start stop
    omega
  rw [List.drop_take, shape, length, List.drop_left, ← length, count, List.take_left]

end BlockLines

theorem blockBounds_of_scan {content : Text} {start stop : Nat}
    (scanned : scanBlock 0 none none (splitLines content) = .ok (some start, some stop)) :
    blockBounds content = .ok (some (start, stop)) := by
  unfold blockBounds
  rw [scanned]
  rfl

theorem blockBounds_none_iff {content : Text} :
    blockBounds content = .ok none ↔ ∀ line ∈ splitLines content, Outside line := by
  constructor
  · intro bounds
    rcases blockBounds_cases bounds with ⟨_, quiet⟩ | ⟨_, _, _, _, _, _, some_, _⟩
    · intro line member
      obtain ⟨kept, inLines, rfl⟩ := List.mem_map.mp member
      exact quiet kept inLines
    · cases some_
  · intro quiet
    have scanned := scanBlock_quiet 0 none none (splitLines content) [] quiet
    rw [List.append_nil] at scanned
    unfold blockBounds
    rw [scanned]
    rfl

/-- A text with a block splits into lines around it and within. -/
theorem blockLines_of_bounds {content : Text} {start stop : Nat}
    (bounds : blockBounds content = .ok (some (start, stop))) :
    ∃ block : BlockLines, splitLines content = block.lines ∧ start = block.start ∧
      stop = block.stop := by
  rcases blockBounds_cases bounds with ⟨none_, _⟩ | ⟨before, opening, inside, closing, after, shape,
    same, quiet, quiet', opens, single, closes⟩
  · cases none_
  · obtain ⟨rfl, rfl⟩ := Prod.mk.inj (Option.some.inj same)
    have outside : ∀ line ∈ before.map lineBody ++ after.map lineBody, Outside line := by
      rw [← List.map_append]
      intro line member
      obtain ⟨kept, inLines, rfl⟩ := List.mem_map.mp member
      rcases List.mem_append.mp inLines with first | last
      · exact quiet kept first
      · exact quiet' kept last
    have inner : ∀ line ∈ inside.map lineBody, matchBlockBegin line = none := by
      intro line member
      obtain ⟨kept, inLines, rfl⟩ := List.mem_map.mp member
      exact single kept inLines
    refine ⟨⟨before.map lineBody, lineBody opening, inside.map lineBody, lineBody closing,
      after.map lineBody, outside, opens, inner, closes⟩, ?_, ?_, ?_⟩
    · unfold splitLines
      rw [shape]
      simp [BlockLines.lines]
    · simp [BlockLines.start]
    · simp [BlockLines.stop]

/-! ## The members -/

theorem assertMembersUnique_eq_ok {members : List BlockMember} :
    assertMembersUnique members = .ok () ↔ (members.map BlockMember.taskId).Nodup := by
  unfold assertMembersUnique
  rw [assertDistinct_eq_ok]
  simp

/-- What is found in a text with a block. -/
theorem findBlockMembers_lines {content : Text} {block : BlockLines} {preamble : List Text}
    {entries : List Entry} (cut : splitLines content = block.lines)
    (inside : block.inside = preamble ++ entryLines entries)
    (quiet : ∀ line ∈ preamble, matchMember line = none) {members : List BlockMember} :
    findBlockMembers content = .ok members ↔
      members = entries.map Entry.toMember ∧
        ((entries.map Entry.toMember).map BlockMember.taskId).Nodup := by
  have bounds : blockBounds content = .ok (some (block.start, block.stop)) :=
    blockBounds_of_scan (by rw [cut]; exact block.scanned)
  have scanned : scanMembers none (((splitLines content).take block.stop).drop (block.start + 1)) =
      entries.map Entry.toMember := by
    rw [cut, block.inside_eq, inside, scanMembers_entries entries quiet]
  unfold findBlockMembers
  rw [bounds]
  simp only [bind, Except.bind, scanned, ← assertMembersUnique_eq_ok]
  cases checked : assertMembersUnique (entries.map Entry.toMember) with
  | error problem =>
      constructor
      · intro found
        cases found
      · intro both
        cases both.2
  | ok _ =>
      constructor
      · intro found
        exact ⟨(Except.ok.inj found).symm, rfl⟩
      · intro both
        rw [both.1]
        rfl

theorem findBlockMembers_none {content : Text} (bounds : blockBounds content = .ok none) :
    findBlockMembers content = .ok [] := by
  unfold findBlockMembers
  rw [bounds]
  rfl

end TaskControl.Cron
