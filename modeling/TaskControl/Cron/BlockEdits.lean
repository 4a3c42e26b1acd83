import TaskControl.Cron.Blocks

/-!
# Edits of one entry

Writing or removing an entry rewrites the block and leaves what is before and
behind it as it is, and so the other entries as they are read.  A second end
marker is accepted, and then the block reaches to it, over lines that are nobody's.
-/

set_option autoImplicit false

namespace TaskControl.Cron

open PythonText

/-! ## What an edit promises -/

/-- The markers of the block, in the order of the text. -/
def blockMarks (content : Text) : List Mark := (splitLines content).filterMap blockMark

/-- What a text has before and behind its block; without a block, all of it is before. -/
def OutsideBlock (content before after : Text) : Prop :=
  (blockBounds content = .ok none ∧ before = content ∧ after = []) ∨
    ∃ start stop block, blockBounds content = .ok (some (start, stop)) ∧
      Around content start (stop + 1 - start) before block after

def othersOf (slug : Text) (members : List BlockMember) : List BlockMember :=
  members.filter fun member => member.slug ≠ slug

def heldOf (slug : Text) (members : List BlockMember) : List BlockMember :=
  members.filter fun member => member.slug = slug

/-- What is outside the block stays, but for a newline behind an unterminated last line; the
entries of other slugs stay, and of the slug there is the new one. -/
def UpsertFramed (content slug text : Text) (members : List BlockMember) (new : BlockMember) :
    Prop :=
  ∃ before after gap result found, OutsideBlock content before after ∧
    upsertBlockMember content slug text = .ok result ∧
      (gap = [] ∨ gap = ['\n'] ∧ blockBounds content = .ok none ∧
        endsWithNewline content = false) ∧
        OutsideBlock result (before ++ gap) after ∧ findBlockMembers result = .ok found ∧
          othersOf slug found = othersOf slug members ∧ heldOf slug found = [new]

/-- What is outside the block stays, and the entries of other slugs; the last one takes the block
with it. -/
def RemoveFramed (content slug : Text) (members : List BlockMember) : Prop :=
  ∃ before after result, OutsideBlock content before after ∧
    removeBlockMember content slug = .ok result ∧
      findBlockMembers result = .ok (othersOf slug members) ∧
        (othersOf slug members = [] → result = before ++ after ∧ blockBounds result = .ok none) ∧
          (othersOf slug members ≠ [] → OutsideBlock result before after)

/-- Of a text that is accepted: its block has one begin marker and one end marker, and edits are
framed. -/
structure BlockFramed (content slug text : Text) (members : List BlockMember)
    (new : BlockMember) : Prop where
  marks : blockMarks content = [] ∨ blockMarks content = [.opens [], .closes []]
  upsert : UpsertFramed content slug text members new
  remove : RemoveFramed content slug members

/-- The text is one entry, which ends with a newline and has no marker of the block. -/
structure OneEntry (text : Text) (entry : Entry) : Prop where
  lines : splitLines text = entry.lines
  ended : endsWithNewline text = true
  outside : ∀ line ∈ entry.lines, Outside line

/-! ## Marks -/

theorem blockMark_outside {line : Text} (outside : Outside line) : blockMark line = none := by
  unfold blockMark
  rw [outside.1, outside.2]

theorem marks_outside {lines : List Text} (outside : ∀ line ∈ lines, Outside line) :
    lines.filterMap blockMark = [] :=
  List.filterMap_eq_nil_iff.mpr fun line member => blockMark_outside (outside line member)

theorem marks_inside {lines : List Text} (single : ∀ line ∈ lines, matchBlockBegin line = none) :
    lines.filterMap blockMark =
      List.replicate (lines.countP fun line => (matchBlockEnd line).isSome) (.closes []) := by
  induction lines with
  | nil => rfl
  | cons line rest ih =>
      have later := ih fun other member => single other (List.mem_cons_of_mem _ member)
      rw [List.filterMap_cons, List.countP_cons, later]
      unfold blockMark
      rw [single line List.mem_cons_self]
      cases matchBlockEnd line with
      | none => rfl
      | some found => simp [List.replicate_succ]

namespace BlockLines

variable (block : BlockLines)

theorem marks : block.lines.filterMap blockMark =
    .opens [] :: List.replicate (block.inside.countP fun line => (matchBlockEnd line).isSome) (.closes []) ++
      [.closes []] := by
  have before : block.before.filterMap blockMark = [] :=
    marks_outside fun line member => block.outside line (List.mem_append_left _ member)
  have after : block.after.filterMap blockMark = [] :=
    marks_outside fun line member => block.outside line (List.mem_append_right _ member)
  have opening : blockMark block.opening = some (.opens []) := by
    unfold blockMark
    rw [block.opens]
  have closing : blockMark block.closing = some (.closes []) := by
    unfold blockMark
    rw [(matchBlockEnd_only block.closes).2.2, block.closes]
  unfold lines
  rw [List.filterMap_append, before, List.nil_append, List.cons_append,
    List.filterMap_cons_some opening, List.filterMap_append, List.filterMap_cons_some closing,
    after, marks_inside block.single]
  rfl

end BlockLines

/-! ## Texts of entries -/

/-- The text has the lines of the entry, and a new line starts behind it. -/
structure Carries (text : Text) (entry : Entry) : Prop where
  closed : Closed text
  lines : splitLines text = entry.lines

theorem closed_append {t rest : Text} (closed : Closed t) (closed' : Closed rest) :
    Closed (t ++ rest) := by
  rcases closed' with rfl | ⟨init, c, rfl, breaks, notCarriage⟩
  · rw [List.append_nil]
    exact closed
  · exact Or.inr ⟨t ++ init, c, by rw [List.append_assoc], breaks, notCarriage⟩

theorem carries_flatten {texts : List Text} {entries : List Entry}
    (carries : List.Forall₂ Carries texts entries) :
    Closed texts.flatten ∧ splitLines texts.flatten = entryLines entries := by
  induction carries with
  | nil => exact ⟨closed_nil, rfl⟩
  | cons first _ ih =>
      rw [List.flatten_cons, entryLines_cons, splitLines_append first.closed, first.lines, ih.2]
      exact ⟨closed_append first.closed ih.1, rfl⟩

theorem OneEntry.carries {text : Text} {entry : Entry} (one : OneEntry text entry) :
    Carries text entry := ⟨closed_of_endsWithNewline one.ended, one.lines⟩

theorem carries_member {entry : Entry} (unbroken : ∀ line ∈ entry.lines, Unbroken line) :
    Carries entry.toMember.text entry := by
  have lines := splitLines_joinLines unbroken []
  rw [List.append_nil] at lines
  have none_ : splitLines [] = [] := rfl
  rw [none_, List.append_nil] at lines
  exact ⟨joinLines_closed _, lines⟩

/-! ## A rewritten block -/

theorem generatedNotice_unmanaged : matchMember generatedNotice = none ∧
    matchBlockBegin generatedNotice = none := by
  have plain := generatedNotice_plain
  simp only [looksLikeMarker, Bool.or_eq_false_iff] at plain
  exact ⟨by simpa using plain.2, by simpa using plain.1.1.2⟩

/-- The block as it is written, with its entries between other lines. -/
def writtenBlock (before after : List Text) (outside : ∀ line ∈ before ++ after, Outside line)
    (entries : List Entry) (single : ∀ line ∈ entryLines entries, matchBlockBegin line = none) :
    BlockLines where
  before := before
  opening := blockBeginMarker
  inside := generatedNotice :: entryLines entries
  closing := blockEndMarker
  after := after
  outside := outside
  opens := matchBlockBegin_blockBeginMarker
  single := List.forall_mem_cons.mpr ⟨generatedNotice_unmanaged.2, single⟩
  closes := matchBlockEnd_blockEndMarker

theorem blockText_lines {members : Text} (closed : Closed members) :
    Closed (blockText members) ∧ splitLines (blockText members) =
      blockBeginMarker :: generatedNotice :: splitLines members ++ [blockEndMarker] := by
  have head : ∀ line ∈ [blockBeginMarker, generatedNotice], Unbroken line := by decide +kernel
  have last : ∀ line ∈ [blockEndMarker], Unbroken line := by decide +kernel
  have shape : blockText members = joinLines [blockBeginMarker, generatedNotice] ++
      (members ++ joinLines [blockEndMarker]) := by
    simp [blockText, joinLines]
  have ending := splitLines_joinLines last []
  rw [List.append_nil] at ending
  rw [shape, splitLines_joinLines head, splitLines_append closed, ending]
  exact ⟨closed_append (joinLines_closed _) (closed_append closed (joinLines_closed _)), rfl⟩

theorem blockText_head (members rest : Text) : (blockText members ++ rest).head? = some '#' := rfl

/-- A block written where a line ends, with its lines and what is around it. -/
theorem written_between {before members after : Text}
    (ends : before = [] ∨ ∃ init c, before = init ++ [c] ∧ isLineBreak c = true)
    (closed : Closed members) :
    splitLines (before ++ blockText members ++ after) =
        splitLines before ++ splitLines (blockText members) ++ splitLines after ∧
      Around (before ++ blockText members ++ after) (splitLines before).length
        (splitLines (blockText members)).length before (blockText members) after := by
  have between : EndsBefore before (blockText members ++ after) := by
    rcases ends with rfl | ⟨init, c, rfl, breaks⟩
    · exact Or.inl rfl
    · refine Or.inr ⟨init, c, rfl, breaks, fun both => ?_⟩
      rw [blockText_head] at both
      exact absurd both.2 (by decide)
  have kept : splitKeep (before ++ blockText members ++ after) =
      splitKeep before ++ (splitKeep (blockText members) ++ splitKeep after) := by
    rw [List.append_assoc, splitKeep_join between, splitKeep_append (blockText_lines closed).1]
  have first : (splitLines before).length = (splitKeep before).length := List.length_map _
  have middle : (splitLines (blockText members)).length = (splitKeep (blockText members)).length :=
    List.length_map _
  refine ⟨?_, rfl, ?_, ?_, ?_⟩
  · unfold splitLines
    rw [kept, List.map_append, List.map_append, List.append_assoc]
  · rw [kept, first, List.take_left]
  · rw [kept, first, middle, List.drop_left, List.take_left]
  · rw [kept, first, middle, ← List.drop_drop, List.drop_left, List.drop_left]

/-- A text whose block is written between two others, and what is read in it. -/
structure Rebuilt (result before after : Text) (entries : List Entry) : Prop where
  outside : OutsideBlock result before after
  found : ∀ members, findBlockMembers result = .ok members ↔
    members = entries.map Entry.toMember ∧
      ((entries.map Entry.toMember).map BlockMember.taskId).Nodup

theorem rebuilt {before after : Text} {texts : List Text} {entries : List Entry}
    (ends : before = [] ∨ ∃ init c, before = init ++ [c] ∧ isLineBreak c = true)
    (outside : ∀ line ∈ splitLines before ++ splitLines after, Outside line)
    (carries : List.Forall₂ Carries texts entries)
    (single : ∀ line ∈ entryLines entries, matchBlockBegin line = none) :
    Rebuilt (before ++ blockText texts.flatten ++ after) before after entries := by
  obtain ⟨closed, lines⟩ := carries_flatten carries
  obtain ⟨_, inBlock⟩ := blockText_lines closed
  obtain ⟨cut, around⟩ := @written_between before _ after ends closed
  rw [inBlock, lines] at cut around
  let block := writtenBlock (splitLines before) (splitLines after) outside entries single
  have cut' : splitLines (before ++ blockText texts.flatten ++ after) = block.lines := by
    rw [cut]
    simp [block, writtenBlock, BlockLines.lines]
  refine ⟨Or.inr ⟨block.start, block.stop, blockText texts.flatten, blockBounds_of_scan ?_, ?_⟩,
    fun members => ?_⟩
  · rw [cut']
    exact block.scanned
  · have count : block.stop + 1 - block.start =
        (blockBeginMarker :: generatedNotice :: entryLines entries ++ [blockEndMarker]).length := by
      simp [block, writtenBlock, BlockLines.start, BlockLines.stop]
      omega
    rw [count]
    exact around
  · exact @findBlockMembers_lines _ block [generatedNotice] entries cut' rfl
      (List.forall_mem_singleton.mpr generatedNotice_unmanaged.1) members

/-! ## The entries after an edit -/

/-- The entries after one was written: in place of those of its slug, or behind all. -/
def putEntry (slug : Text) (new : BlockMember) (members : List BlockMember) : List BlockMember :=
  if members.any (·.slug = slug) then
    members.map fun member => if member.slug = slug then new else member
  else members ++ [new]

theorem othersOf_put {slug : Text} {new : BlockMember} (named : new.slug = slug)
    (members : List BlockMember) :
    othersOf slug (putEntry slug new members) = othersOf slug members := by
  unfold putEntry othersOf
  split
  · rw [List.filter_map]
    have same : members.filter ((fun member => decide (member.slug ≠ slug)) ∘
        fun member => if member.slug = slug then new else member) =
          members.filter fun member => decide (member.slug ≠ slug) := by
      apply List.filter_congr
      intro member _
      by_cases here : member.slug = slug
      · simp [here, named]
      · simp [here]
    rw [same]
    have kept : ∀ member ∈ members.filter fun member => decide (member.slug ≠ slug),
        (if member.slug = slug then new else member) = id member := by
      intro member inOthers
      exact if_neg (by simpa using (List.mem_filter.mp inOthers).2)
    rw [List.map_congr_left kept, List.map_id]
  · simp [named]

theorem heldOf_put {slug : Text} {new : BlockMember} (named : new.slug = slug)
    {members : List BlockMember} (once : (heldOf slug members).length ≤ 1) :
    heldOf slug (putEntry slug new members) = [new] := by
  unfold putEntry
  split
  · next held =>
      obtain ⟨member, inMembers, here⟩ := List.any_eq_true.mp held
      have inHeld : member ∈ heldOf slug members := List.mem_filter.mpr ⟨inMembers, here⟩
      obtain ⟨only, alone⟩ := List.length_eq_one_iff.mp
        (le_antisymm once (List.length_pos_of_mem inHeld))
      have same : members.filter ((fun member => decide (member.slug = slug)) ∘
          fun member => if member.slug = slug then new else member) = heldOf slug members := by
        apply List.filter_congr
        intro other _
        by_cases its : other.slug = slug
        · simp [its, named]
        · simp [its]
      have its : only.slug = slug := by
        have inside : only ∈ heldOf slug members := by
          rw [alone]
          exact List.mem_cons_self
        simpa using (List.mem_filter.mp inside).2
      rw [heldOf, List.filter_map, same, alone, List.map_singleton, if_pos its]
  · next missing =>
      have none_ : members.filter (fun member => decide (member.slug = slug)) = [] := by
        rw [List.filter_eq_nil_iff]
        intro member inMembers here
        exact missing (List.any_eq_true.mpr ⟨member, inMembers, here⟩)
      rw [heldOf, List.filter_append, none_]
      simp [named]

theorem length_le_one_of_all_eq {α : Type} {items : List α} (distinct : items.Nodup)
    (same : ∀ a ∈ items, ∀ b ∈ items, a = b) : items.length ≤ 1 := by
  cases items with
  | nil => exact Nat.zero_le 1
  | cons a rest =>
      cases rest with
      | nil => exact Nat.le_refl 1
      | cons b more =>
          have apart := (List.nodup_cons.mp distinct).1
          rw [same a List.mem_cons_self b (List.mem_cons_of_mem a List.mem_cons_self)] at apart
          exact absurd List.mem_cons_self apart

/-- Whether the entries after a write have distinct ids. -/
theorem put_nodup_iff {slug : Text} {new : BlockMember} {members : List BlockMember}
    (distinct : (members.map BlockMember.taskId).Nodup) :
    ((putEntry slug new members).map BlockMember.taskId).Nodup ↔
      (heldOf slug members).length ≤ 1 ∧
        ∀ member ∈ members, member.taskId = new.taskId → member.slug = slug := by
  have apart := List.inj_on_of_nodup_map distinct
  have each : members.Nodup := List.Nodup.of_map _ distinct
  unfold putEntry
  split
  · next held =>
      obtain ⟨member, inMembers, here⟩ := List.any_eq_true.mp held
      have named : member.slug = slug := of_decide_eq_true here
      rw [List.map_map, List.nodup_map_iff_inj_on each]
      simp only [Function.comp_apply]
      constructor
      · intro injective
        constructor
        · apply length_le_one_of_all_eq (each.filter _)
          intro a inHeld b inHeld'
          obtain ⟨inA, slugA⟩ := List.mem_filter.mp inHeld
          obtain ⟨inB, slugB⟩ := List.mem_filter.mp inHeld'
          apply injective a inA b inB
          rw [if_pos (of_decide_eq_true slugA), if_pos (of_decide_eq_true slugB)]
        · intro other inOthers id
          by_contra foreign
          have both := injective member inMembers other inOthers
          rw [if_pos named, if_neg foreign] at both
          exact foreign (both id.symm ▸ named)
      · rintro ⟨once, fresh⟩ a inA b inB same
        by_cases slugA : a.slug = slug <;> by_cases slugB : b.slug = slug
        · have inHeld : a ∈ heldOf slug members := List.mem_filter.mpr ⟨inA, decide_eq_true slugA⟩
          have inHeld' : b ∈ heldOf slug members := List.mem_filter.mpr ⟨inB, decide_eq_true slugB⟩
          obtain ⟨only, alone⟩ := List.length_eq_one_iff.mp
            (le_antisymm once (List.length_pos_of_mem inHeld))
          rw [alone] at inHeld inHeld'
          rw [List.mem_singleton.mp inHeld, List.mem_singleton.mp inHeld']
        · rw [if_pos slugA, if_neg slugB] at same
          exact absurd (fresh b inB same.symm) slugB
        · rw [if_neg slugA, if_pos slugB] at same
          exact absurd (fresh a inA same) slugA
        · rw [if_neg slugA, if_neg slugB] at same
          exact apart inA inB same
  · next missing =>
      have none_ : ∀ member ∈ members, member.slug ≠ slug := fun member inMembers here =>
        missing (List.any_eq_true.mpr ⟨member, inMembers, decide_eq_true here⟩)
      have empty : heldOf slug members = [] :=
        List.filter_eq_nil_iff.mpr fun member inMembers => by simpa using none_ member inMembers
      rw [List.map_append, List.map_singleton, List.nodup_append, empty]
      constructor
      · rintro ⟨_, _, fresh⟩
        refine ⟨Nat.zero_le 1, fun member inMembers id => ?_⟩
        exact absurd id (fresh _ (List.mem_map_of_mem inMembers) _ List.mem_cons_self)
      · rintro ⟨_, fresh⟩
        refine ⟨distinct, List.nodup_singleton _, fun id inIds other inNew same => ?_⟩
        obtain ⟨member, inMembers, rfl⟩ := List.mem_map.mp inIds
        rw [List.mem_singleton.mp inNew] at same
        exact none_ member inMembers (fresh member inMembers same)

/-! ## Reading and cutting a text with a block -/

/-- The lines of an accepted text, and what its members are. -/
structure ReadBlock (content : Text) (members : List BlockMember) (block : BlockLines)
    (entries : List Entry) : Prop where
  cut : splitLines content = block.lines
  bounds : blockBounds content = .ok (some (block.start, block.stop))
  same : members = entries.map Entry.toMember
  distinct : (members.map BlockMember.taskId).Nodup
  unbroken : ∀ entry ∈ entries, ∀ line ∈ entry.lines, Unbroken line
  single : ∀ entry ∈ entries, ∀ line ∈ entry.lines, matchBlockBegin line = none

theorem readBlock {content : Text} {members : List BlockMember} {start stop : Nat}
    (found : findBlockMembers content = .ok members)
    (bounds : blockBounds content = .ok (some (start, stop))) :
    ∃ block entries, ReadBlock content members block entries := by
  obtain ⟨block, cut, rfl, rfl⟩ := blockLines_of_bounds bounds
  obtain ⟨preamble, entries, inside, quiet⟩ := entries_of_lines block.inside
  obtain ⟨same, distinct⟩ := (findBlockMembers_lines cut inside quiet).mp found
  have within (entry : Entry) (member : entry ∈ entries) (line : Text)
      (inEntry : line ∈ entry.lines) : line ∈ block.inside := by
    rw [inside]
    exact List.mem_append_right _ (List.mem_flatMap.mpr ⟨entry, member, inEntry⟩)
  refine ⟨block, entries, cut, bounds, same, ?_, fun entry member line inEntry => ?_,
    fun entry member line inEntry => ?_⟩
  · rw [same]
    exact distinct
  · have inText : line ∈ splitLines content := by
      rw [cut]
      simp [BlockLines.lines, within entry member line inEntry]
    exact unbroken_of_mem_splitLines inText
  · exact block.single line (within entry member line inEntry)

/-- The parts of a text around its block. -/
structure CutAt (content : Text) (block : BlockLines) (before after : Text) : Prop where
  outside : OutsideBlock content before after
  ends : before = [] ∨ ∃ init c, before = init ++ [c] ∧ isLineBreak c = true
  front : splitLines before = block.before
  back : splitLines after = block.after
  taken : before = ((splitKeep content).take block.start).flatten
  dropped : after = ((splitKeep content).drop (block.stop + 1)).flatten

theorem cutAt {content : Text} {block : BlockLines} (cut : splitLines content = block.lines)
    (bounds : blockBounds content = .ok (some (block.start, block.stop))) :
    ∃ before after, CutAt content block before after := by
  have count : block.start + (block.stop + 1 - block.start) = block.stop + 1 := by
    unfold BlockLines.start BlockLines.stop
    omega
  have parts := around content block.start (block.stop + 1 - block.start)
  obtain ⟨front, _, back⟩ := parts.bodies
  have more : block.start < (splitLines content).length := by
    rw [cut]
    simp [BlockLines.lines, BlockLines.start]
  refine ⟨_, _, Or.inr ⟨_, _, _, bounds, parts⟩, around_ends parts more, ?_, ?_, rfl, ?_⟩
  · rw [front, cut, BlockLines.lines, BlockLines.start, List.take_left]
  · have shape : block.lines =
        (block.before ++ block.opening :: block.inside ++ [block.closing]) ++ block.after := by
      simp [BlockLines.lines]
    have length : block.stop + 1 =
        (block.before ++ block.opening :: block.inside ++ [block.closing]).length := by
      simp [BlockLines.stop]
      omega
    rw [back, count, cut, shape, length, List.drop_left]
  · rw [count]

/-- A rewritten block stands between the parts that the text had around the old one. -/
theorem rewriteBlock_rebuilt {content before after : Text} {block : BlockLines} {texts : List Text}
    {entries : List Entry} (cut : CutAt content block before after)
    (carries : List.Forall₂ Carries texts entries)
    (single : ∀ line ∈ entryLines entries, matchBlockBegin line = none) :
    Rebuilt (rewriteBlock content (block.start, block.stop) texts) before after entries := by
  have outside : ∀ line ∈ splitLines before ++ splitLines after, Outside line := by
    rw [cut.front, cut.back]
    exact block.outside
  have whole : rewriteBlock content (block.start, block.stop) texts =
      before ++ blockText texts.flatten ++ after := by
    unfold rewriteBlock
    rw [cut.taken, cut.dropped]
    simp
  rw [whole]
  exact rebuilt cut.ends outside carries single

/-! ## Writing an entry -/

/-- The entries of a text after one was written. -/
def putLines (slug : Text) (new : Entry) (entries : List Entry) : List Entry :=
  if (entries.map Entry.toMember).any (·.slug = slug) then
    entries.map fun entry => if entry.identity.slug = slug then new else entry
  else entries ++ [new]

theorem putLines_members (slug : Text) (new : Entry) (entries : List Entry) :
    (putLines slug new entries).map Entry.toMember =
      putEntry slug new.toMember (entries.map Entry.toMember) := by
  unfold putLines putEntry
  split
  · rw [List.map_map, List.map_map]
    apply List.map_congr_left
    intro entry _
    exact apply_ite Entry.toMember (entry.identity.slug = slug) new entry
  · rw [List.map_append]
    rfl

theorem mem_putLines {slug : Text} {new entry : Entry} {entries : List Entry}
    (member : entry ∈ putLines slug new entries) : entry = new ∨ entry ∈ entries := by
  unfold putLines at member
  split at member
  · obtain ⟨old, inEntries, rfl⟩ := List.mem_map.mp member
    split
    · exact Or.inl rfl
    · exact Or.inr inEntries
  · rcases List.mem_append.mp member with old | last
    · exact Or.inr old
    · exact Or.inl (List.mem_singleton.mp last)

/-- What an upsert writes into the block are the entries after it. -/
theorem putLines_carried {slug text : Text} {new : Entry} {entries : List Entry}
    (one : OneEntry text new) (unbroken : ∀ entry ∈ entries, ∀ line ∈ entry.lines, Unbroken line) :
    let members := entries.map Entry.toMember
    let texts := members.map fun existing => if existing.slug = slug then text else existing.text
    List.Forall₂ Carries (if members.any (·.slug = slug) then texts else texts ++ [text])
      (putLines slug new entries) := by
  intro members texts
  unfold putLines
  split
  · apply List.forall₂_map_left_iff.mpr
    apply List.forall₂_map_left_iff.mpr
    apply List.forall₂_map_right_iff.mpr
    apply List.forall₂_same.mpr
    intro entry member
    by_cases its : entry.identity.slug = slug
    · have here : entry.toMember.slug = slug := its
      rw [if_pos here, if_pos its]
      exact one.carries
    · have here : ¬ entry.toMember.slug = slug := its
      rw [if_neg here, if_neg its]
      exact carries_member (unbroken entry member)
  · next missing =>
      have none_ : ∀ entry ∈ entries, ¬ entry.toMember.slug = slug := fun entry member here =>
        missing (List.any_eq_true.mpr
          ⟨entry.toMember, List.mem_map_of_mem member, decide_eq_true here⟩)
      apply List.rel_append _ (.cons one.carries .nil)
      apply List.forall₂_map_left_iff.mpr
      apply List.forall₂_map_left_iff.mpr
      apply List.forall₂_same.mpr
      intro entry member
      rw [if_neg (none_ entry member)]
      exact carries_member (unbroken entry member)

theorem outside_terminated {content : Text} (outside : ∀ line ∈ splitLines content, Outside line)
    (nonempty : content ≠ []) (unended : endsWithNewline content = false) :
    ∀ line ∈ splitLines (content ++ ['\n']), Outside line := by
  have blank : Outside [] := ⟨rfl, rfl⟩
  unfold splitLines
  rcases splitKeep_newline nonempty unended with ⟨init, last, kept, more, same⟩ | apart
  · have lines : (splitKeep (content ++ ['\n'])).map lineBody = splitLines content := by
      unfold splitLines
      rw [more, kept, List.map_append, List.map_append, List.map_singleton, List.map_singleton, same]
    rw [lines]
    exact outside
  · rw [apart, List.map_append]
    intro line member
    rcases List.mem_append.mp member with inText | last
    · exact outside line inText
    · rw [List.mem_singleton.mp last]
      exact blank

/-- What an upsert makes of a text that is accepted. -/
structure Upserted (content slug text : Text) (members : List BlockMember) (new : BlockMember)
    (before after gap result : Text) : Prop where
  outside : OutsideBlock content before after
  returned : upsertBlockMember content slug text = .ok result
  gapped : gap = [] ∨ gap = ['\n'] ∧ blockBounds content = .ok none ∧ endsWithNewline content = false
  outside' : OutsideBlock result (before ++ gap) after
  found : ∀ found, findBlockMembers result = .ok found ↔ found = putEntry slug new members ∧
    ((putEntry slug new members).map BlockMember.taskId).Nodup

theorem upserted_present {content slug text : Text} {members : List BlockMember} {new : Entry}
    {start stop : Nat} (found : findBlockMembers content = .ok members) (one : OneEntry text new)
    (bounds : blockBounds content = .ok (some (start, stop))) :
    ∃ before after result,
      Upserted content slug text members new.toMember before after [] result := by
  obtain ⟨block, entries, read⟩ := readBlock found bounds
  obtain ⟨before, after, cut⟩ := cutAt read.cut read.bounds
  have single : ∀ line ∈ entryLines (putLines slug new entries), matchBlockBegin line = none := by
    intro line member
    obtain ⟨entry, inPut, inEntry⟩ := List.mem_flatMap.mp member
    rcases mem_putLines inPut with rfl | old
    · exact (one.outside line inEntry).1
    · exact read.single entry old line inEntry
  have rewritten := rewriteBlock_rebuilt cut (putLines_carried one read.unbroken) single
  have returned : upsertBlockMember content slug text = .ok (rewriteBlock content
      (block.start, block.stop)
      (if (entries.map Entry.toMember).any (·.slug = slug) then
        (entries.map Entry.toMember).map fun existing =>
          if existing.slug = slug then text else existing.text
      else ((entries.map Entry.toMember).map fun existing =>
          if existing.slug = slug then text else existing.text) ++ [text])) := by
    unfold upsertBlockMember
    rw [read.bounds, found, read.same]
    rfl
  refine ⟨before, after, _, cut.outside, returned, Or.inl rfl, ?_, fun found => ?_⟩
  · rw [List.append_nil]
    exact rewritten.outside
  · rw [read.same, ← putLines_members]
    exact rewritten.found found

theorem upserted_absent {content slug text : Text} {new : Entry} (carries : Carries text new)
    (single : ∀ line ∈ new.lines, matchBlockBegin line = none)
    (bounds : blockBounds content = .ok none) :
    ∃ gap result, Upserted content slug text [] new.toMember content [] gap result := by
  have outside := blockBounds_none_iff.mp bounds
  have single' : ∀ line ∈ entryLines [new], matchBlockBegin line = none := by
    rw [entryLines_cons, entryLines_nil, List.append_nil]
    exact single
  have whole (front : Text) : front ++ blockText text = front ++ blockText [text].flatten ++ [] := by
    simp
  have returned : upsertBlockMember content slug text = .ok (appended content (blockText text)) := by
    unfold upsertBlockMember
    rw [bounds]
    rfl
  have built {front : Text}
      (ends : front = [] ∨ ∃ init c, front = init ++ [c] ∧ isLineBreak c = true)
      (outside : ∀ line ∈ splitLines front, Outside line) :
      Rebuilt (front ++ blockText text) front [] [new] := by
    rw [whole]
    apply rebuilt ends _ (.cons carries .nil) single'
    have none_ : splitLines [] = [] := rfl
    rw [none_, List.append_nil]
    exact outside
  have finish {gap result : Text} (same : appended content (blockText text) = result)
      (gapped : gap = [] ∨ gap = ['\n'] ∧ blockBounds content = .ok none ∧
        endsWithNewline content = false)
      (rebuilt : Rebuilt result (content ++ gap) [] [new]) :
      Upserted content slug text [] new.toMember content [] gap result :=
    ⟨Or.inl ⟨bounds, rfl, rfl⟩, same ▸ returned, gapped, rebuilt.outside, rebuilt.found⟩
  by_cases empty : content = []
  · refine ⟨[], blockText text, finish ?_ (Or.inl rfl) ?_⟩
    · rw [appended, if_pos empty]
    · rw [empty]
      exact built (Or.inl rfl) (List.forall_mem_nil _)
  · cases ended : endsWithNewline content with
    | true =>
        refine ⟨[], content ++ blockText text, finish ?_ (Or.inl rfl) ?_⟩
        · simp [appended, empty, separator, ended]
        · rw [List.append_nil]
          rcases closed_of_endsWithNewline ended with missing | ⟨init, c, shape, breaks, _⟩
          · exact absurd missing empty
          · exact built (Or.inr ⟨init, c, shape, breaks⟩) outside
    | false =>
        refine ⟨['\n'], content ++ ['\n'] ++ blockText text, finish ?_
          (Or.inr ⟨rfl, bounds, ended⟩) ?_⟩
        · simp [appended, empty, separator, ended]
        · exact built (Or.inr ⟨content, '\n', rfl, isLineBreak_feed⟩)
            (outside_terminated outside empty ended)

/-- What is found after an upsert decides whether it is framed. -/
theorem upsertFramed_iff {content slug text before after gap result : Text}
    {members : List BlockMember} {new : BlockMember} (named : new.slug = slug)
    (distinct : (members.map BlockMember.taskId).Nodup)
    (upserted : Upserted content slug text members new before after gap result) :
    UpsertFramed content slug text members new ↔ (heldOf slug members).length ≤ 1 ∧
      ∀ member ∈ members, member.taskId = new.taskId → member.slug = slug := by
  rw [← put_nodup_iff distinct]
  constructor
  · rintro ⟨_, _, _, result', found, _, returned, _, _, read, _⟩
    obtain rfl : result = result' := Except.ok.inj (upserted.returned.symm.trans returned)
    exact ((upserted.found found).mp read).2
  · intro apart
    have once := ((put_nodup_iff distinct).mp apart).1
    exact ⟨before, after, gap, result, putEntry slug new members, upserted.outside,
      upserted.returned, upserted.gapped, upserted.outside', (upserted.found _).mpr ⟨rfl, apart⟩,
      othersOf_put named members, heldOf_put named once⟩

/-! ## Removing an entry -/

theorem removeFramed_absent {content slug : Text} (bounds : blockBounds content = .ok none) :
    RemoveFramed content slug [] := by
  refine ⟨content, [], content, Or.inl ⟨bounds, rfl, rfl⟩, ?_, findBlockMembers_none bounds,
    fun _ => ⟨(List.append_nil content).symm, bounds⟩, fun some_ => absurd rfl some_⟩
  unfold removeBlockMember
  rw [bounds]
  rfl

/-- Two texts without a marker of the block have none when they are put together. -/
theorem outside_joined {before after : Text}
    (ends : before = [] ∨ ∃ init c, before = init ++ [c] ∧ isLineBreak c = true)
    (outside : ∀ line ∈ splitLines before ++ splitLines after, Outside line) :
    ∀ line ∈ splitLines (before ++ after), Outside line := by
  rcases @splitLines_join before after (ends.imp_right Or.inr) with joined | ⟨more, feed, joined⟩
  · rw [joined]
    exact outside
  · rw [joined]
    intro line member
    apply outside line
    rw [feed]
    rcases List.mem_append.mp member with front | back
    · exact List.mem_append_left _ front
    · exact List.mem_append_right _ (List.mem_cons_of_mem _ back)

theorem removeFramed_present {content : Text} (slug : Text) {members : List BlockMember}
    {start stop : Nat} (found : findBlockMembers content = .ok members)
    (bounds : blockBounds content = .ok (some (start, stop))) :
    RemoveFramed content slug members := by
  obtain ⟨block, entries, read⟩ := readBlock found bounds
  obtain ⟨before, after, cut⟩ := cutAt read.cut read.bounds
  have remaining : (members.filter (·.slug ≠ slug)).map BlockMember.text = [] ↔
      othersOf slug members = [] := List.map_eq_nil_iff
  have kept : othersOf slug members =
      (entries.filter fun entry => entry.identity.slug ≠ slug).map Entry.toMember := by
    rw [read.same, othersOf, List.filter_map]
    rfl
  by_cases last : othersOf slug members = []
  · have outside : ∀ line ∈ splitLines before ++ splitLines after, Outside line := by
      rw [cut.front, cut.back]
      exact block.outside
    have bare := blockBounds_none_iff.mpr (outside_joined cut.ends outside)
    refine ⟨before, after, before ++ after, cut.outside, ?_, ?_, fun _ => ⟨rfl, bare⟩,
      fun some_ => absurd last some_⟩
    · unfold removeBlockMember
      rw [read.bounds, found]
      simp only [bind, Except.bind, if_pos (remaining.mpr last), pure, Except.pure, cut.taken,
        cut.dropped, List.flatten_append]
    · rw [last]
      exact findBlockMembers_none bare
  · have carries : List.Forall₂ Carries ((members.filter (·.slug ≠ slug)).map BlockMember.text)
        (entries.filter fun entry => entry.identity.slug ≠ slug) := by
      have texts : members.filter (·.slug ≠ slug) =
          (entries.filter fun entry => entry.identity.slug ≠ slug).map Entry.toMember := kept
      rw [texts]
      apply List.forall₂_map_left_iff.mpr
      apply List.forall₂_map_left_iff.mpr
      apply List.forall₂_same.mpr
      intro entry member
      exact carries_member (read.unbroken entry (List.mem_filter.mp member).1)
    have single : ∀ line ∈ entryLines (entries.filter fun entry => entry.identity.slug ≠ slug),
        matchBlockBegin line = none := by
      intro line member
      obtain ⟨entry, inOthers, inEntry⟩ := List.mem_flatMap.mp member
      exact read.single entry (List.mem_filter.mp inOthers).1 line inEntry
    have rewritten := rewriteBlock_rebuilt cut carries single
    have apart : ((othersOf slug members).map BlockMember.taskId).Nodup :=
      read.distinct.sublist (List.filter_sublist.map _)
    refine ⟨before, after, _, cut.outside, ?_, (rewritten.found _).mpr ⟨kept, kept ▸ apart⟩,
      fun none_ => absurd none_ last, fun _ => rewritten.outside⟩
    unfold removeBlockMember
    rw [read.bounds, found]
    simp only [bind, Except.bind, if_neg (mt remaining.mp last), pure, Except.pure]

/-! ## Framed edits -/

/-- A text that is accepted has at most one end marker of the block exactly if its markers are one
pair at most. -/
theorem marks_single_iff {block : BlockLines} {content : Text}
    (cut : splitLines content = block.lines) :
    (blockMarks content = [] ∨ blockMarks content = [.opens [], .closes []]) ↔
      (blockMarks content).count (.closes []) ≤ 1 := by
  have marks : blockMarks content = block.lines.filterMap blockMark := congrArg _ cut
  rw [marks, block.marks]
  generalize block.inside.countP (fun line => (matchBlockEnd line).isSome) = more
  cases more with
  | zero => simp
  | succ more => simp [List.replicate_succ]

/-- For a text that the block functions accept and an entry of the slug: the text has a pair of
markers at most and the edits of the slug's entry are framed exactly if the text has at most one
end marker, the slug is held at most once, and no entry of another slug has the new entry's id. -/
theorem block_edits_framed_iff {content slug text : Text} {members : List BlockMember}
    {new : Entry} (found : findBlockMembers content = .ok members) (one : OneEntry text new)
    (named : new.identity.slug = slug) :
    BlockFramed content slug text members new.toMember ↔
      (blockMarks content).count (.closes []) ≤ 1 ∧ (heldOf slug members).length ≤ 1 ∧
        ∀ member ∈ members, member.taskId = new.identity.taskId → member.slug = slug := by
  cases scanned : blockBounds content with
  | error problem =>
      unfold findBlockMembers at found
      rw [scanned] at found
      cases found
  | ok bounds =>
      cases bounds with
      | none =>
          have none_ : blockMarks content = [] := marks_outside (blockBounds_none_iff.mp scanned)
          obtain rfl : [] = members := Except.ok.inj ((findBlockMembers_none scanned).symm.trans found)
          have single : ∀ line ∈ new.lines, matchBlockBegin line = none :=
            fun line member => (one.outside line member).1
          obtain ⟨gap, result, upserted⟩ :=
            @upserted_absent content slug text new one.carries single scanned
          have distinct : (([] : List BlockMember).map BlockMember.taskId).Nodup := List.nodup_nil
          have framed := upsertFramed_iff named distinct upserted
          constructor
          · intro blockFramed
            refine ⟨?_, framed.mp blockFramed.upsert⟩
            rw [none_]
            exact Nat.zero_le 1
          · rintro ⟨_, fresh⟩
            exact ⟨Or.inl none_, framed.mpr fresh, removeFramed_absent scanned⟩
      | some pair =>
          obtain ⟨start, stop⟩ := pair
          obtain ⟨block, entries, read⟩ := readBlock found scanned
          obtain ⟨before, after, result, upserted⟩ :=
            @upserted_present content slug text members new start stop found one scanned
          have framed := upsertFramed_iff named read.distinct upserted
          have single := marks_single_iff read.cut
          constructor
          · intro blockFramed
            exact ⟨single.mp blockFramed.marks, framed.mp blockFramed.upsert⟩
          · rintro ⟨once, fresh⟩
            exact ⟨single.mpr once, framed.mpr fresh, removeFramed_present slug found scanned⟩

theorem nightly_marks : matchMember (memberMarker (nightlyBackup .singleBlock)) =
    some (nightlyBackup .singleBlock).identity :=
  matchMember_memberMarker (nightlyBackup_safe .singleBlock rfl).tokens

theorem nightly_unmarked : ∀ line ∈ ["# Nightly backup".toList,
    "0 2 * * * taskctl activate nightly-backup".toList], matchMember line = none := by decide

def nightlyEntry : Entry where
  identity := (nightlyBackup .singleBlock).identity
  marker := memberMarker (nightlyBackup .singleBlock)
  body := ["# Nightly backup".toList, "0 2 * * * taskctl activate nightly-backup".toList]
  marks := nightly_marks
  within := nightly_unmarked

theorem nightly_oneEntry : OneEntry nightlyMember nightlyEntry := by
  refine ⟨by decide +kernel, by decide +kernel, ?_⟩
  unfold Outside
  decide +kernel

/-- The nightly backup's block between lines that end as on another system, or not at all. -/
def mailedBlock : Text :=
  "MAILTO=ops\r\n".toList ++ blockText nightlyMember ++ "0 1 * * * date".toList

theorem block_edits_framed_nightly :
    BlockFramed mailedBlock (nightlyBackup .singleBlock).slug nightlyMember
      [nightlyEntry.toMember] nightlyEntry.toMember := by
  have found : findBlockMembers mailedBlock = .ok [nightlyEntry.toMember] := by decide +kernel
  have marks : blockMarks mailedBlock = [.opens [], .closes []] := by decide +kernel
  refine (block_edits_framed_iff found nightly_oneEntry rfl).mpr ⟨?_, by decide +kernel, ?_⟩
  · rw [marks]
    decide
  · intro member inMembers _
    rw [List.mem_singleton.mp inMembers]
    rfl

/-- A line of nobody's between the end of the nightly backup's block and a stray end marker. -/
def strayEnd : Text :=
  blockText nightlyMember ++ "MAILTO=ops\n".toList ++ joinLines [blockEndMarker]

/-- The text is accepted, and removing the entry takes the other line with it. -/
theorem stray_end_accepted :
    ∃ members, findBlockMembers strayEnd = .ok members ∧
      blockMarks strayEnd = [.opens [], .closes [], .closes []] ∧
        removeBlockMember strayEnd (nightlyBackup .singleBlock).slug = .ok [] ∧
          ¬ BlockFramed strayEnd (nightlyBackup .singleBlock).slug nightlyMember members
            nightlyEntry.toMember := by
  have marks : blockMarks strayEnd = [.opens [], .closes [], .closes []] := by decide +kernel
  have removed : removeBlockMember strayEnd (nightlyBackup .singleBlock).slug = .ok [] := by
    decide +kernel
  cases found : findBlockMembers strayEnd with
  | error problem =>
      have accepted : (findBlockMembers strayEnd).isOk = true := by decide +kernel
      rw [found] at accepted
      cases accepted
  | ok members =>
      refine ⟨members, rfl, marks, removed, fun framed => ?_⟩
      have pair := framed.marks
      rw [marks] at pair
      revert pair
      decide

end TaskControl.Cron
