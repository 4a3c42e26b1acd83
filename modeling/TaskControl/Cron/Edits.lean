import TaskControl.Cron.Chunks

/-!
# Edits of a crontab

What each edit writes, as chunks, and what it does to the chunks of the text it
is applied to: a region or the block is replaced, appended or cut out, and every
other chunk stays.
-/

set_option autoImplicit false

namespace TaskControl.Cron

open PythonText LinePattern

/-! ## Written chunks -/

/-- The lines of `joinLines`. -/
def terminate (bodies : List Text) : List Text := bodies.map fun line => line ++ ['\n']

theorem terminate_flatten (bodies : List Text) : (terminate bodies).flatten = joinLines bodies := by
  rw [terminate, joinLines, List.flatMap_def]

theorem terminate_ended {bodies : List Text} (unbroken : ∀ line ∈ bodies, Unbroken line) :
    ∀ line ∈ terminate bodies, Ended line := by
  intro line member
  obtain ⟨body, inside, rfl⟩ := List.mem_map.mp member
  exact ⟨body, rfl, unbroken body inside⟩

theorem terminate_bodies {bodies : List Text} (unbroken : ∀ line ∈ bodies, Unbroken line) :
    (terminate bodies).map lineBody = bodies := by
  have same : ∀ line ∈ bodies, (lineBody ∘ fun line => line ++ ['\n']) line = id line :=
    fun line member => lineBody_terminated (unbroken line member) []
  rw [terminate, List.map_map, List.map_congr_left same, List.map_id]

/-- A line that is one line and no marker. -/
def Innocent (line : Text) : Prop := Unbroken line ∧ looksLikeMarker line = false

instance (line : Text) : Decidable (Innocent line) :=
  inferInstanceAs (Decidable (_ ∧ _))

theorem ordinary_of_silent {line : Text} (silent : looksLikeMarker line = false) :
    Ordinary line := by
  simp only [looksLikeMarker, Bool.or_eq_false_iff, Option.isSome_eq_false_iff,
    Option.isNone_iff_eq_none] at silent
  obtain ⟨⟨⟨⟨noBegin, noEnd⟩, noBlockBegin⟩, noBlockEnd⟩, _⟩ := silent
  exact ⟨noBegin, noEnd, noBlockBegin, noBlockEnd⟩

theorem Innocent.ordinary {line : Text} (innocent : Innocent line) : Ordinary line :=
  ordinary_of_silent innocent.2

theorem Innocent.enclosed {line : Text} (innocent : Innocent line) :
    Enclosed line ∧ matchMember line = none := by
  have silent := innocent.2
  simp only [looksLikeMarker, Bool.or_eq_false_iff, Option.isSome_eq_false_iff,
    Option.isNone_iff_eq_none] at silent
  obtain ⟨⟨⟨⟨noBegin, noEnd⟩, noBlockBegin⟩, _⟩, noMember⟩ := silent
  exact ⟨⟨noBegin, noEnd, noBlockBegin⟩, noMember⟩

/-- The region that a renderer writes around innocent lines. -/
def RegionChunk.written (identity : Identity) (opening closing : Text) (inner : List Text)
    (opens : Unbroken opening ∧ matchBegin opening = some identity)
    (closes : Unbroken closing ∧ matchEnd closing = some identity.slug)
    (innocent : ∀ line ∈ inner, Innocent line) : RegionChunk where
  identity := identity
  opening := opening ++ ['\n']
  inner := terminate inner
  closing := closing ++ ['\n']
  opens := by rw [lineBody_terminated opens.1 []]; exact opens.2
  closes := by rw [lineBody_terminated closes.1 []]; exact closes.2
  within := by
    intro line member
    obtain ⟨body, inside, rfl⟩ := List.mem_map.mp member
    rw [lineBody_terminated (innocent body inside).1 []]
    exact (innocent body inside).ordinary

theorem RegionChunk.written_lines {identity : Identity} {opening closing : Text}
    {inner : List Text} (opens : Unbroken opening ∧ matchBegin opening = some identity)
    (closes : Unbroken closing ∧ matchEnd closing = some identity.slug)
    (innocent : ∀ line ∈ inner, Innocent line) :
    (RegionChunk.written identity opening closing inner opens closes innocent).lines =
      terminate (opening :: inner ++ [closing]) := by
  simp [RegionChunk.written, RegionChunk.lines, terminate]

/-- The block member that a renderer writes around innocent lines. -/
def MemberChunk.written (identity : Identity) (marker : Text) (body : List Text)
    (marks : Unbroken marker ∧ matchMember marker = some identity)
    (innocent : ∀ line ∈ body, Innocent line) : MemberChunk where
  identity := identity
  marker := marker ++ ['\n']
  body := terminate body
  marks := by rw [lineBody_terminated marks.1 []]; exact marks.2
  within := by
    intro line member
    obtain ⟨text, inside, rfl⟩ := List.mem_map.mp member
    rw [lineBody_terminated (innocent text inside).1 []]
    exact (innocent text inside).enclosed

theorem MemberChunk.written_lines {identity : Identity} {marker : Text} {body : List Text}
    (marks : Unbroken marker ∧ matchMember marker = some identity)
    (innocent : ∀ line ∈ body, Innocent line) :
    (MemberChunk.written identity marker body marks innocent).lines =
      terminate (marker :: body) := by
  simp [MemberChunk.written, MemberChunk.lines, terminate]

theorem lineBody_ended (line : Text) : lineBody (lineBody line ++ ['\n']) = lineBody line :=
  lineBody_terminated (lineBody_breakless line) []

/-- A member as a rewrite of the block puts it back, every line end a newline. -/
def MemberChunk.rewritten (m : MemberChunk) : MemberChunk where
  identity := m.identity
  marker := lineBody m.marker ++ ['\n']
  body := terminate (m.body.map lineBody)
  marks := by rw [lineBody_ended]; exact m.marks
  within := by
    intro line member
    obtain ⟨text, inside, rfl⟩ := List.mem_map.mp member
    obtain ⟨source, within, rfl⟩ := List.mem_map.mp inside
    rw [lineBody_ended]
    exact m.within source within

theorem MemberChunk.rewritten_lines (m : MemberChunk) :
    m.rewritten.lines = terminate (m.lines.map lineBody) := by
  simp [MemberChunk.rewritten, MemberChunk.lines, terminate]

theorem MemberChunk.rewritten_toMember (m : MemberChunk) : m.rewritten.toMember = m.toMember := by
  have unbroken : ∀ line ∈ m.lines.map lineBody, Unbroken line := by
    intro line member
    obtain ⟨source, _, rfl⟩ := List.mem_map.mp member
    exact lineBody_breakless source
  rw [MemberChunk.toMember, MemberChunk.rewritten_lines, terminate_bodies unbroken]
  rfl

theorem MemberChunk.toMember_text (m : MemberChunk) :
    m.toMember.text = m.rewritten.lines.flatten := by
  rw [MemberChunk.rewritten_lines, terminate_flatten]
  rfl

/-- The block as `upsert_block_member` and `_rewrite_block` write it. -/
def BlockChunk.written (members : List MemberChunk) : BlockChunk where
  opening := blockBeginMarker ++ ['\n']
  preamble := [generatedNotice ++ ['\n']]
  members := members
  closing := blockEndMarker ++ ['\n']
  opens := by decide
  closes := by decide
  within := by decide

theorem BlockChunk.written_text (members : List MemberChunk) :
    (BlockChunk.written members).lines.flatten =
      blockText (members.flatMap MemberChunk.lines).flatten := by
  simp only [BlockChunk.lines, BlockChunk.inside, BlockChunk.written, blockText, List.cons_append,
    List.nil_append, List.flatten_cons, List.flatten_append, List.flatten_nil, List.append_nil,
    List.append_assoc]

/-! ## Rendered artefacts -/

/-- The rendered comment, entry and command are each one line and no marker. -/
structure DesiredArtefact.Safe (artefact : DesiredArtefact) : Prop where
  tokens : artefact.Tokens
  comment : ∀ line ∈ descriptionComment artefact, Innocent line
  entry : ∀ entry, crontabEntry artefact = .ok entry → Innocent entry
  command : artefact.deployment.strategy = .runPartsDirectory →
    Innocent ("exec ".toList ++ artefact.command)

theorem identityText_unbroken {artefact : DesiredArtefact} (tokens : artefact.Tokens) :
    Unbroken (identityText artefact) := by
  unfold identityText
  simp only [unbroken_append]
  exact ⟨⟨⟨⟨⟨by decide, tokens.slug.unbroken⟩, by decide⟩, artefact.taskId.text_token.unbroken⟩,
    by decide⟩, tokens.digest.unbroken⟩

theorem beginMarker_opens {artefact : DesiredArtefact} (tokens : artefact.Tokens) :
    Unbroken (beginMarker artefact) ∧ matchBegin (beginMarker artefact) = some artefact.identity := by
  refine ⟨?_, matchBegin_beginMarker tokens⟩
  unfold beginMarker
  simp only [unbroken_append]
  exact ⟨⟨by decide, identityText_unbroken tokens⟩, by decide⟩

theorem endMarker_closes {slug : Text} (token : Token slug) :
    Unbroken (endMarker slug) ∧ matchEnd (endMarker slug) = some slug := by
  refine ⟨?_, matchEnd_endMarker token⟩
  unfold endMarker
  simp only [unbroken_append]
  exact ⟨⟨by decide, token.unbroken⟩, by decide⟩

theorem memberMarker_marks {artefact : DesiredArtefact} (tokens : artefact.Tokens) :
    Unbroken (memberMarker artefact) ∧
      matchMember (memberMarker artefact) = some artefact.identity := by
  refine ⟨?_, matchMember_memberMarker tokens⟩
  unfold memberMarker
  simp only [unbroken_append]
  exact ⟨by decide, identityText_unbroken tokens⟩

/-- The region a renderer writes for an artefact. -/
def regionOf (artefact : DesiredArtefact) (tokens : artefact.Tokens) (inner : List Text)
    (innocent : ∀ line ∈ inner, Innocent line) : RegionChunk :=
  .written artefact.identity (beginMarker artefact) (endMarker artefact.slug) inner
    (beginMarker_opens tokens) (endMarker_closes tokens.slug) innocent

/-- The block member a renderer writes for an artefact. -/
def memberOf (artefact : DesiredArtefact) (tokens : artefact.Tokens) (body : List Text)
    (innocent : ∀ line ∈ body, Innocent line) : MemberChunk :=
  .written artefact.identity (memberMarker artefact) body (memberMarker_marks tokens) innocent

/-- Whole lines that a text is written as. -/
def WrittenAs (text : Text) (lines : List Text) : Prop :=
  text = lines.flatten ∧ ∀ line ∈ lines, Ended line

theorem WrittenAs.splitKeep {text : Text} {lines : List Text} (written : WrittenAs text lines) :
    PythonText.splitKeep text = lines := by
  rw [written.1]
  exact (keptLines_of_terminated fun line member =>
    (written.2 line member).terminated).splitKeep_flatten

theorem writtenAs_joinLines {bodies : List Text} (unbroken : ∀ line ∈ bodies, Unbroken line) :
    WrittenAs (joinLines bodies) (terminate bodies) :=
  ⟨(terminate_flatten bodies).symm, terminate_ended unbroken⟩

theorem regionOf_written (artefact : DesiredArtefact) (tokens : artefact.Tokens)
    (inner : List Text) (innocent : ∀ line ∈ inner, Innocent line) :
    WrittenAs (joinLines (beginMarker artefact :: inner ++ [endMarker artefact.slug]))
      (regionOf artefact tokens inner innocent).lines := by
  have lines : (regionOf artefact tokens inner innocent).lines =
      terminate (beginMarker artefact :: inner ++ [endMarker artefact.slug]) :=
    RegionChunk.written_lines _ _ innocent
  rw [lines]
  refine writtenAs_joinLines fun line member => ?_
  simp only [List.cons_append, List.mem_cons, List.mem_append, List.not_mem_nil, or_false]
    at member
  rcases member with rfl | inside | rfl
  · exact (beginMarker_opens tokens).1
  · exact (innocent line inside).1
  · exact (endMarker_closes tokens.slug).1

theorem memberOf_written (artefact : DesiredArtefact) (tokens : artefact.Tokens)
    (body : List Text) (innocent : ∀ line ∈ body, Innocent line) :
    WrittenAs (joinLines (memberMarker artefact :: body))
      (memberOf artefact tokens body innocent).lines := by
  have lines : (memberOf artefact tokens body innocent).lines =
      terminate (memberMarker artefact :: body) := MemberChunk.written_lines _ innocent
  rw [lines]
  refine writtenAs_joinLines fun line member => ?_
  rcases List.mem_cons.mp member with rfl | inside
  · exact (memberMarker_marks tokens).1
  · exact (innocent line inside).1

theorem renderCrontabRegion_written {artefact : DesiredArtefact} (safe : artefact.Safe)
    {text : Text} (rendered : renderCrontabRegion artefact = .ok text) :
    ∃ r : RegionChunk, r.identity = artefact.identity ∧ WrittenAs text r.lines := by
  simp only [renderCrontabRegion, crontabRegionLines, bind, Except.bind] at rendered
  cases entryRun : crontabEntry artefact with
  | error problem => simp [entryRun] at rendered
  | ok entry =>
      have innocent : ∀ line ∈ descriptionComment artefact ++ [entry], Innocent line := by
        intro line member
        rcases List.mem_append.mp member with inComment | isEntry
        · exact safe.comment line inComment
        · rw [List.mem_singleton.mp isEntry]
          exact safe.entry entry entryRun
      refine ⟨regionOf artefact safe.tokens _ innocent, rfl, ?_⟩
      have written := regionOf_written artefact safe.tokens _ innocent
      rw [entryRun] at rendered
      cases rendered
      simpa using written

theorem renderBlockMember_written {artefact : DesiredArtefact} (safe : artefact.Safe)
    {text : Text} (rendered : renderBlockMember artefact = .ok text) :
    ∃ m : MemberChunk, m.identity = artefact.identity ∧ WrittenAs text m.lines := by
  simp only [renderBlockMember, blockMemberLines, bind, Except.bind] at rendered
  cases entryRun : crontabEntry artefact with
  | error problem => simp [entryRun] at rendered
  | ok entry =>
      have innocent : ∀ line ∈ descriptionComment artefact ++ [entry], Innocent line := by
        intro line member
        rcases List.mem_append.mp member with inComment | isEntry
        · exact safe.comment line inComment
        · rw [List.mem_singleton.mp isEntry]
          exact safe.entry entry entryRun
      refine ⟨memberOf artefact safe.tokens _ innocent, rfl, ?_⟩
      have written := memberOf_written artefact safe.tokens _ innocent
      rw [entryRun] at rendered
      cases rendered
      exact written

/-! ## Writing and removing a block member -/

/-- The members after an upsert: the new one in every place that held its slug,
or at the end. -/
def putMember (new : MemberChunk) (members : List MemberChunk) : List MemberChunk :=
  if members.any (·.slug = new.slug) then
    members.map fun m => if m.slug = new.slug then new else m.rewritten
  else members.map MemberChunk.rewritten ++ [new]

/-- The members after a removal. -/
def dropMember (slug : Text) (members : List MemberChunk) : List MemberChunk :=
  (members.filter (·.slug ≠ slug)).map MemberChunk.rewritten

theorem members_flatten (members : List MemberChunk) :
    (members.map fun m => m.lines.flatten).flatten =
      (members.flatMap MemberChunk.lines).flatten := by
  induction members with
  | nil => rfl
  | cons m rest ih => simp [ih]

theorem putMember_text (new : MemberChunk) (members : List MemberChunk) :
    let texts := (members.map MemberChunk.toMember).map fun existing =>
      if existing.slug = new.slug then new.lines.flatten else existing.text
    (if (members.map MemberChunk.toMember).any (·.slug = new.slug) then texts
      else texts ++ [new.lines.flatten]).flatten =
        ((putMember new members).flatMap MemberChunk.lines).flatten := by
  have slugs : (members.map MemberChunk.toMember).any (·.slug = new.slug) =
      members.any (·.slug = new.slug) := by
    rw [List.any_map]
    rfl
  have texts : ((members.map MemberChunk.toMember).map fun existing =>
      if existing.slug = new.slug then new.lines.flatten else existing.text) =
        (members.map fun m => if m.slug = new.slug then new else m.rewritten).map
          fun m => m.lines.flatten := by
    rw [List.map_map, List.map_map]
    refine List.map_congr_left fun m _ => ?_
    by_cases named : m.slug = new.slug
    · simp only [Function.comp, named, if_true, show m.toMember.slug = new.slug from named]
    · simp only [Function.comp, named, if_false, show ¬ m.toMember.slug = new.slug from named,
        m.toMember_text]
  simp only [slugs, texts, putMember]
  by_cases present : members.any (·.slug = new.slug) = true
  · simp only [present, if_true, members_flatten]
  · have absent : ∀ m ∈ members, m.slug ≠ new.slug := by
      simpa using present
    have same : (members.map fun m => if m.slug = new.slug then new else m.rewritten) =
        members.map MemberChunk.rewritten :=
      List.map_congr_left fun m member => if_neg (absent m member)
    simp only [present, if_false, same, List.flatten_append, members_flatten, List.flatMap_append,
      List.flatten_singleton, List.flatMap_singleton, Bool.false_eq_true]

theorem rewriteBlock_at {content : Text} {before after : List Chunk} {b : BlockChunk}
    (laid : Laid content (before ++ .block b :: after)) (members : List MemberChunk)
    {texts : List Text} (written : texts.flatten = (members.flatMap MemberChunk.lines).flatten) :
    rewriteBlock content ((chunkLines before).length,
        (chunkLines before).length + b.inside.length + 1) texts =
      (chunkLines (before ++ .block (.written members) :: after)).flatten := by
  obtain ⟨front, back⟩ := split_at_chunk before (.block b) after
    ((chunkLines before).length + b.inside.length + 1)
    (by simp [Chunk.lines, BlockChunk.lines]; omega)
  simp only [rewriteBlock, show splitKeep content = _ from laid]
  rw [front, back, written]
  simp only [chunkLines_append, chunkLines_cons, Chunk.lines, List.flatten_append,
    BlockChunk.written_text, List.flatten_singleton, List.append_assoc]

theorem upsertBlockMember_present {content : Text} {before after : List Chunk} {b : BlockChunk}
    (laid : Laid content (before ++ .block b :: after)) (first : blockChunks before = [])
    (last : blockChunks after = []) (distinct : (b.members.map MemberChunk.taskId).Nodup)
    (new : MemberChunk) :
    upsertBlockMember content new.slug new.lines.flatten =
      .ok (chunkLines (before ++ .block (.written (putMember new b.members)) :: after)).flatten := by
  have single : (blockChunks (before ++ .block b :: after)).length ≤ 1 := by
    simp [first, last, Chunk.blocks]
  have found : findBlockMembers content = .ok (b.members.map MemberChunk.toMember) := by
    rw [findBlockMembers_eq_ok laid single, memberChunks_split first last]
    exact ⟨rfl, distinct⟩
  simp only [upsertBlockMember, blockBounds_some laid first last, found, bind, Except.bind]
  exact congrArg Except.ok (rewriteBlock_at laid _ (putMember_text new b.members))

theorem upsertBlockMember_absent {content : Text} {chunks : List Chunk}
    (laid : Laid content chunks) (none_ : blockChunks chunks = []) (new : MemberChunk) :
    upsertBlockMember content new.slug new.lines.flatten =
      .ok (appended content (BlockChunk.written [new]).lines.flatten) := by
  simp only [upsertBlockMember, blockBounds_none laid none_, bind, Except.bind,
    BlockChunk.written_text, List.flatMap_singleton]
  rfl

theorem removeBlockMember_present {content : Text} (slug : Text) {before after : List Chunk}
    {b : BlockChunk} (laid : Laid content (before ++ .block b :: after))
    (first : blockChunks before = []) (last : blockChunks after = [])
    (distinct : (b.members.map MemberChunk.taskId).Nodup) :
    removeBlockMember content slug =
      .ok (if dropMember slug b.members = [] then chunkLines (before ++ after)
        else chunkLines (before ++ .block (.written (dropMember slug b.members)) :: after)).flatten := by
  have single : (blockChunks (before ++ .block b :: after)).length ≤ 1 := by
    simp [first, last, Chunk.blocks]
  have found : findBlockMembers content = .ok (b.members.map MemberChunk.toMember) := by
    rw [findBlockMembers_eq_ok laid single, memberChunks_split first last]
    exact ⟨rfl, distinct⟩
  have remaining : ((b.members.map MemberChunk.toMember).filter (·.slug ≠ slug)).map
      BlockMember.text = (dropMember slug b.members).map fun m => m.lines.flatten := by
    rw [List.filter_map, dropMember, List.map_map, List.map_map]
    exact List.map_congr_left fun m _ => m.toMember_text
  simp only [removeBlockMember, blockBounds_some laid first last, found, bind, Except.bind,
    remaining, List.map_eq_nil_iff]
  split
  · obtain ⟨front, back⟩ := split_at_chunk before (.block b) after
      ((chunkLines before).length + b.inside.length + 1)
      (by simp [Chunk.lines, BlockChunk.lines]; omega)
    simp only [show splitKeep content = _ from laid]
    rw [front, back, ← chunkLines_append]
    rfl
  · exact congrArg Except.ok (rewriteBlock_at laid _ (members_flatten _))

theorem removeBlockMember_absent {content slug : Text} {chunks : List Chunk}
    (laid : Laid content chunks) (none_ : blockChunks chunks = []) :
    removeBlockMember content slug = .ok content := by
  simp only [removeBlockMember, blockBounds_none laid none_, bind, Except.bind]
  rfl

/-! ## The members after an edit -/

theorem MemberChunk.rewritten_ended (m : MemberChunk) : ∀ line ∈ m.rewritten.lines, Ended line := by
  rw [m.rewritten_lines]
  refine terminate_ended fun line member => ?_
  obtain ⟨source, _, rfl⟩ := List.mem_map.mp member
  exact lineBody_breakless source

theorem mem_putMember {new m : MemberChunk} {members : List MemberChunk}
    (member : m ∈ putMember new members) : m = new ∨ ∃ old ∈ members, m = old.rewritten := by
  unfold putMember at member
  split at member
  · obtain ⟨old, inside, rfl⟩ := List.mem_map.mp member
    by_cases named : old.slug = new.slug
    · exact Or.inl (if_pos named)
    · exact Or.inr ⟨old, inside, if_neg named⟩
  · rcases List.mem_append.mp member with kept | added
    · obtain ⟨old, inside, rfl⟩ := List.mem_map.mp kept
      exact Or.inr ⟨old, inside, rfl⟩
    · exact Or.inl (List.mem_singleton.mp added)

theorem putMember_ne_nil (new : MemberChunk) (members : List MemberChunk) :
    putMember new members ≠ [] := by
  unfold putMember
  split
  · rename_i present
    rintro empty
    rw [List.map_eq_nil_iff.mp empty] at present
    simp at present
  · simp

theorem putMember_slugs (new : MemberChunk) (members : List MemberChunk) :
    (putMember new members).map MemberChunk.slug =
      if members.any (·.slug = new.slug) then members.map MemberChunk.slug
      else members.map MemberChunk.slug ++ [new.slug] := by
  have kept (m : MemberChunk) : m.rewritten.slug = m.slug := rfl
  unfold putMember
  split
  · rw [List.map_map]
    refine List.map_congr_left fun m _ => ?_
    by_cases named : m.slug = new.slug
    · simp [named]
    · simp [named, kept]
  · simp [Function.comp_def, kept]

theorem putMember_nodup {new : MemberChunk} {members : List MemberChunk}
    (distinct : (members.map MemberChunk.slug).Nodup) :
    ((putMember new members).map MemberChunk.slug).Nodup := by
  rw [putMember_slugs]
  split
  · exact distinct
  · rename_i absent
    rw [List.nodup_append]
    refine ⟨distinct, by simp, ?_⟩
    intro slug inside other here
    obtain ⟨m, member, rfl⟩ := List.mem_map.mp inside
    rw [List.mem_singleton.mp here]
    have all : ∀ m ∈ members, m.slug ≠ new.slug := by simpa using absent
    exact all m member

theorem mem_dropMember {slug : Text} {m : MemberChunk} {members : List MemberChunk}
    (member : m ∈ dropMember slug members) :
    ∃ old ∈ members, old.slug ≠ slug ∧ m = old.rewritten := by
  obtain ⟨old, inside, rfl⟩ := List.mem_map.mp member
  obtain ⟨inMembers, differs⟩ := List.mem_filter.mp inside
  exact ⟨old, inMembers, by simpa using differs, rfl⟩

theorem dropMember_nodup {slug : Text} {members : List MemberChunk}
    (distinct : (members.map MemberChunk.slug).Nodup) :
    ((dropMember slug members).map MemberChunk.slug).Nodup := by
  have slugs : (dropMember slug members).map MemberChunk.slug =
      (members.filter (·.slug ≠ slug)).map MemberChunk.slug := by
    rw [dropMember, List.map_map]
    rfl
  rw [slugs]
  exact distinct.sublist (List.filter_sublist.map _)

theorem written_block_ended {members : List MemberChunk}
    (ended : ∀ m ∈ members, ∀ line ∈ m.lines, Ended line) :
    ∀ line ∈ (BlockChunk.written members).lines, Ended line := by
  intro line member
  simp only [BlockChunk.lines, BlockChunk.inside, BlockChunk.written, List.cons_append,
    List.nil_append, List.mem_cons, List.mem_append, List.mem_flatMap, List.not_mem_nil, or_false]
    at member
  rcases member with rfl | rfl | ⟨m, inside, inLines⟩ | rfl
  · exact ⟨blockBeginMarker, rfl, by decide⟩
  · exact ⟨generatedNotice, rfl, by decide⟩
  · exact ended m inside line inLines
  · exact ⟨blockEndMarker, rfl, by decide⟩

end TaskControl.Cron
