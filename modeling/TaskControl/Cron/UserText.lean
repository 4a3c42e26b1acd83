import TaskControl.Cron.Edits

/-!
# A user's own crontab text

Any sequence of insertions, updates and removals, in both forms and for any
number of capabilities, keeps the text it started from as a prefix, and leaves
nothing else once nothing is managed any more.  The invariant is that what
follows the user's own text is a sequence of regions and at most one block that
has members.
-/

set_option autoImplicit false

namespace TaskControl.Cron

open PythonText

/-- One call that changes a crontab's text. -/
inductive Edit where
  | replaceRegion (artefact : DesiredArtefact) (rendered : Text)
  | removeRegion (slug : Text)
  | upsertBlockMember (artefact : DesiredArtefact) (rendered : Text)
  | removeBlockMember (slug : Text)

def Edit.run (content : Text) : Edit → Except TaskControlError Text
  | .replaceRegion artefact rendered => Cron.replaceRegion content artefact.slug rendered
  | .removeRegion slug => Cron.removeRegion content slug
  | .upsertBlockMember artefact rendered => Cron.upsertBlockMember content artefact.slug rendered
  | .removeBlockMember slug => Cron.removeBlockMember content slug

def runEdits (content : Text) (edits : List Edit) : Except TaskControlError Text :=
  edits.foldlM Edit.run content

/-- The artefact whose text an edit writes. -/
def Edit.artefact : Edit → Option DesiredArtefact
  | .replaceRegion artefact _ => some artefact
  | .upsertBlockMember artefact _ => some artefact
  | .removeRegion _ | .removeBlockMember _ => none

/-- The text an edit writes was rendered, in the edit's form, for a safe artefact. -/
def Edit.Rendered : Edit → Prop
  | .replaceRegion artefact rendered => artefact.Safe ∧
      artefact.deployment.strategy = .crontabBlockPerTask ∧ renderArtefact artefact = .ok rendered
  | .upsertBlockMember artefact rendered => artefact.Safe ∧
      artefact.deployment.strategy = .crontabSingleBlock ∧ renderArtefact artefact = .ok rendered
  | .removeRegion _ | .removeBlockMember _ => True

/-- One task identifier per slug, and different ones for different slugs. -/
def Identified (edits : List Edit) : Prop :=
  ∀ first ∈ edits, ∀ second ∈ edits, ∀ a ∈ first.artefact, ∀ b ∈ second.artefact,
    a.slug = b.slug ↔ a.taskId = b.taskId

/-- The user's text as it is once something was inserted after it. -/
def settled (base : Text) : Text := if base = [] then [] else base ++ separator base

/-! ## The invariant -/

/-- The slug and identifier of an artefact that some edit writes. -/
def Named (edits : List Edit) (identity : Identity) : Prop :=
  ∃ edit ∈ edits, ∃ artefact ∈ edit.artefact,
    artefact.slug = identity.slug ∧ artefact.taskId.text = identity.taskId

/-- Chunks that only edits wrote: no line of a user's, and no empty block. -/
def Chunk.Managed : Chunk → Prop
  | .plain _ _ => False
  | .region _ => True
  | .block b => b.members ≠ []

structure Written (edits : List Edit) (chunks : List Chunk) : Prop where
  managed : ∀ chunk ∈ chunks, chunk.Managed
  ended : ∀ line ∈ chunkLines chunks, Ended line
  single : (blockChunks chunks).length ≤ 1
  regions : ((regionChunks chunks).map RegionChunk.slug).Nodup
  regionsNamed : ∀ r ∈ regionChunks chunks, Named edits r.identity
  members : ((memberChunks chunks).map MemberChunk.slug).Nodup
  membersNamed : ∀ m ∈ memberChunks chunks, Named edits m.identity

/-- The user's text untouched, or settled and followed by managed chunks. -/
def Surviving (base : Text) (edits : List Edit) (text : Text) : Prop :=
  text = base ∨ ∃ chunks, Written edits chunks ∧
    text = settled base ++ (chunkLines chunks).flatten

/-! ## The user's lines as chunks -/

theorem base_chunks {base : Text} (own : ∀ line ∈ splitLines base, looksLikeMarker line = false) :
    ∃ chunks, Laid base chunks ∧ regionChunks chunks = [] ∧ blockChunks chunks = [] := by
  obtain ⟨chunks, whole, noRegion, noBlock⟩ := plain_chunks (splitKeep base)
    fun line member => ordinary_of_silent (own (lineBody line) (List.mem_map_of_mem member))
  exact ⟨chunks, whole.symm, noRegion, noBlock⟩

theorem settled_own {base : Text}
    (own : ∀ line ∈ splitLines base, looksLikeMarker line = false) :
    ∀ line ∈ splitLines (settled base), looksLikeMarker line = false := by
  unfold settled
  by_cases empty : base = []
  · simp [empty, splitLines, splitKeep]
  rw [if_neg empty]
  unfold separator
  cases ends : endsWithNewline base with
  | true => simpa using own
  | false =>
      simp only [Bool.false_eq_true, if_false]
      rcases splitKeep_newline empty ends with ⟨init, last, whole, longer, same⟩ | apart
      · have bodies : splitLines (base ++ ['\n']) = splitLines base := by
          simp [splitLines, whole, longer, same]
        rwa [bodies]
      · have bodies : splitLines (base ++ ['\n']) = splitLines base ++ [[]] := by
          simp [splitLines, apart, show lineBody ['\n'] = [] by decide]
        rw [bodies]
        intro line member
        rcases List.mem_append.mp member with early | empty
        · exact own line early
        · rw [List.mem_singleton.mp empty]
          decide

theorem settled_closed (base : Text) : settled base = [] ∨ endsWithNewline (settled base) = true := by
  unfold settled
  by_cases empty : base = []
  · exact Or.inl (if_pos empty)
  rw [if_neg empty]
  unfold separator
  cases ends : endsWithNewline base with
  | true => exact Or.inr (by simpa using ends)
  | false => exact Or.inr (by simp [endsWithNewline])

theorem settled_append {base : Text} (rest : Text) :
    splitKeep (settled base ++ rest) = splitKeep (settled base) ++ splitKeep rest := by
  refine splitKeep_append ?_ rest
  rcases settled_closed base with empty | ends
  · rw [empty]
    exact closed_nil
  · exact closed_of_endsWithNewline ends

theorem base_isPrefix_settled (base : Text) : base <+: settled base := by
  unfold settled
  by_cases empty : base = []
  · simp [empty]
  · rw [if_neg empty]
    exact ⟨separator base, rfl⟩

/-! ## Steps on the managed chunks -/

theorem Written.ids {edits : List Edit} {chunks : List Chunk} (identified : Identified edits)
    (written : Written edits chunks) :
    ((regionChunks chunks).map RegionChunk.taskId).Nodup ∧
      ((memberChunks chunks).map MemberChunk.taskId).Nodup := by
  have apart {x y : Identity} (nx : Named edits x) (ny : Named edits y)
      (slugs : x.slug ≠ y.slug) : x.taskId ≠ y.taskId := by
    obtain ⟨first, inEdits, a, inFirst, slugA, idA⟩ := nx
    obtain ⟨second, inEdits', b, inSecond, slugB, idB⟩ := ny
    intro same
    have ids : a.taskId = b.taskId := EntityId.text_injective (by rw [idA, idB, same])
    have equal := (identified first inEdits second inEdits' a inFirst b inSecond).mpr ids
    exact slugs (by rw [← slugA, ← slugB, equal])
  constructor
  · have slugs := written.regions
    rw [List.Nodup, List.pairwise_map] at slugs ⊢
    exact slugs.imp_of_mem fun inX inY differ =>
      apart (written.regionsNamed _ inX) (written.regionsNamed _ inY) differ
  · have slugs := written.members
    rw [List.Nodup, List.pairwise_map] at slugs ⊢
    exact slugs.imp_of_mem fun inX inY differ =>
      apart (written.membersNamed _ inX) (written.membersNamed _ inY) differ

/-- Other chunks in the place of some keep the invariant when they are managed,
newline-terminated and named, and bring no second block, region or member. -/
theorem Written.splice {edits : List Edit} {before old after : List Chunk} (new : List Chunk)
    (written : Written edits (before ++ old ++ after)) (managed : ∀ chunk ∈ new, chunk.Managed)
    (ended : ∀ line ∈ chunkLines new, Ended line)
    (single : (blockChunks (before ++ new ++ after)).length ≤ 1)
    (regions : ((regionChunks (before ++ new ++ after)).map RegionChunk.slug).Nodup)
    (regionsNamed : ∀ r ∈ regionChunks new, Named edits r.identity)
    (members : ((memberChunks (before ++ new ++ after)).map MemberChunk.slug).Nodup)
    (membersNamed : ∀ m ∈ memberChunks new, Named edits m.identity) :
    Written edits (before ++ new ++ after) := by
  refine ⟨?_, ?_, single, regions, ?_, members, ?_⟩
  · intro chunk member
    rcases List.mem_append.mp member with front | back
    · rcases List.mem_append.mp front with inBefore | inNew
      · exact written.managed chunk (by simp [inBefore])
      · exact managed chunk inNew
    · exact written.managed chunk (by simp [back])
  · intro line member
    simp only [chunkLines_append, List.mem_append] at member
    rcases member with (inBefore | inNew) | inAfter
    · exact written.ended line (by simp [inBefore])
    · exact ended line inNew
    · exact written.ended line (by simp [inAfter])
  · intro r member
    simp only [regionChunks_append, List.mem_append] at member
    rcases member with (inBefore | inNew) | inAfter
    · exact written.regionsNamed r (by simp [inBefore])
    · exact regionsNamed r inNew
    · exact written.regionsNamed r (by simp [inAfter])
  · intro m member
    simp only [memberChunks_append, List.mem_append] at member
    rcases member with (inBefore | inNew) | inAfter
    · exact written.membersNamed m (by simp [inBefore])
    · exact membersNamed m inNew
    · exact written.membersNamed m (by simp [inAfter])

theorem Written.sublist {edits : List Edit} {chunks : List Chunk}
    (written : Written edits chunks) (fewer : List Chunk) (sub : fewer.Sublist chunks) : Written edits fewer := by
  have regions : (regionChunks fewer).Sublist (regionChunks chunks) := sub.flatMap _
  have blocks : (blockChunks fewer).Sublist (blockChunks chunks) := sub.flatMap _
  have members : (memberChunks fewer).Sublist (memberChunks chunks) := blocks.flatMap _
  exact {
    managed := fun chunk member => written.managed chunk (sub.subset member)
    ended := fun line member => written.ended line ((sub.flatMap Chunk.lines).subset member)
    single := le_trans blocks.length_le written.single
    regions := written.regions.sublist (regions.map _)
    regionsNamed := fun r member => written.regionsNamed r (regions.subset member)
    members := written.members.sublist (members.map _)
    membersNamed := fun m member => written.membersNamed m (members.subset member) }

theorem Written.replaceRegion {edits : List Edit} {before after : List Chunk}
    {r new : RegionChunk} (written : Written edits (before ++ .region r :: after))
    (slug : new.slug = r.slug) (named : Named edits new.identity)
    (ended : ∀ line ∈ new.lines, Ended line) :
    Written edits (before ++ .region new :: after) := by
  have whole : Written edits (before ++ [.region r] ++ after) := by simpa using written
  have result := whole.splice [.region new] (by simp [Chunk.Managed])
    (by simpa [Chunk.lines] using ended) (by simpa [Chunk.blocks] using written.single)
    (by simpa [Chunk.regions, slug] using written.regions)
    (by simpa [Chunk.regions] using named)
    (by simpa [Chunk.blocks] using written.members) (by simp [Chunk.blocks])
  simpa using result

theorem Written.appendRegion {edits : List Edit} {chunks : List Chunk} {new : RegionChunk}
    (written : Written edits chunks) (absent : ∀ r ∈ regionChunks chunks, r.slug ≠ new.slug)
    (named : Named edits new.identity) (ended : ∀ line ∈ new.lines, Ended line) :
    Written edits (chunks ++ [.region new]) := by
  have whole : Written edits (chunks ++ [] ++ []) := by simpa using written
  have slugs : ((regionChunks (chunks ++ [.region new])).map RegionChunk.slug).Nodup := by
    rw [regionChunks_append, List.map_append, List.nodup_append]
    refine ⟨written.regions, by simp [Chunk.regions], ?_⟩
    intro slug inside other here
    obtain ⟨r, member, rfl⟩ := List.mem_map.mp inside
    obtain rfl : other = new.slug := by simpa [Chunk.regions] using here
    exact absent r member
  have result := whole.splice [.region new] (by simp [Chunk.Managed])
    (by simpa [Chunk.lines] using ended) (by simpa [Chunk.blocks] using written.single)
    (by simpa using slugs) (by simpa [Chunk.regions] using named)
    (by simpa [Chunk.blocks] using written.members) (by simp [Chunk.blocks])
  simpa using result

/-- A written block in the place of chunks among which the only block is. -/
theorem Written.putBlock {edits : List Edit} {before old after : List Chunk}
    (written : Written edits (before ++ old ++ after)) (first : blockChunks before = [])
    (last : blockChunks after = []) (bare : regionChunks old = []) (members : List MemberChunk)
    (nonempty : members ≠ []) (slugs : (members.map MemberChunk.slug).Nodup)
    (named : ∀ m ∈ members, Named edits m.identity)
    (ended : ∀ m ∈ members, ∀ line ∈ m.lines, Ended line) :
    Written edits (before ++ [.block (.written members)] ++ after) := by
  have none_ : memberChunks before = [] ∧ memberChunks after = [] := by
    simp [memberChunks, first, last]
  have inside : (BlockChunk.written members).members = members := rfl
  exact written.splice _ (by simpa [Chunk.Managed, inside] using nonempty)
    (by simpa [Chunk.lines] using written_block_ended ended)
    (by simp [Chunk.blocks, first, last])
    (by simpa [Chunk.regions, bare] using written.regions) (by simp [Chunk.regions])
    (by simpa [Chunk.blocks, none_, inside] using slugs)
    (by simpa [Chunk.blocks, inside] using named)

/-! ## What an edit does -/

theorem appended_complete {content : Text}
    (complete : content = [] ∨ endsWithNewline content = true) (new : Text) :
    appended content new = content ++ new := by
  rcases complete with rfl | ends
  · rfl
  · have nothing : separator content = [] := if_pos ends
    unfold appended
    split
    · simp [*]
    · rw [nothing, List.append_nil]

theorem ended_complete {front : Text} {lines : List Text}
    (complete : front = [] ∨ endsWithNewline front = true) (ended : ∀ line ∈ lines, Ended line) :
    front ++ lines.flatten = [] ∨ endsWithNewline (front ++ lines.flatten) = true := by
  induction lines using List.reverseRecOn with
  | nil => simpa using complete
  | append_singleton init last _ =>
      obtain ⟨body, rfl, _⟩ := ended last (by simp)
      refine Or.inr ?_
      simp [endsWithNewline, List.getLast?_append]

/-- The text as chunks: the user's own lines first, then what edits wrote. -/
theorem Surviving.view {base text : Text} {edits : List Edit}
    (own : ∀ line ∈ splitLines base, looksLikeMarker line = false)
    (surviving : Surviving base edits text) :
    ∃ lines chunks, regionChunks lines = [] ∧ blockChunks lines = [] ∧
      Laid text (lines ++ chunks) ∧ Written edits chunks ∧
      (∀ new, appended text new = settled base ++ (chunkLines chunks).flatten ++ new) ∧
      (text = base ∧ chunks = [] ∨ text = settled base ++ (chunkLines chunks).flatten ∧
        (chunkLines lines).flatten = settled base) := by
  have empty : Written edits [] := ⟨by simp, by simp, by simp, by simp, by simp, by simp, by simp⟩
  rcases surviving with rfl | ⟨chunks, written, rfl⟩
  · obtain ⟨lines, laid, noRegion, noBlock⟩ := base_chunks own
    refine ⟨lines, [], noRegion, noBlock, by simpa using laid, empty, ?_, Or.inl ⟨rfl, rfl⟩⟩
    intro new
    unfold appended settled
    split <;> simp
  · obtain ⟨lines, laid, noRegion, noBlock⟩ := base_chunks (settled_own own)
    have flat : (chunkLines lines).flatten = settled base := by
      rw [← laid, splitKeep_flatten]
    have kept : splitKeep (chunkLines chunks).flatten = chunkLines chunks :=
      (keptLines_of_terminated fun line member =>
        (written.ended line member).terminated).splitKeep_flatten
    refine ⟨lines, chunks, noRegion, noBlock, ?_, written, ?_, Or.inr ⟨rfl, flat⟩⟩
    · rw [Laid, settled_append, laid, kept, chunkLines_append]
    · intro new
      exact appended_complete (ended_complete (settled_closed base) written.ended) new

/-- The result of an edit, when it is the settled text and other chunks. -/
theorem surviving_of_chunks {base : Text} {edits : List Edit} {lines chunks : List Chunk}
    (flat : (chunkLines lines).flatten = settled base) (written : Written edits chunks) :
    Surviving base edits (chunkLines (lines ++ chunks)).flatten :=
  Or.inr ⟨chunks, written, by rw [chunkLines_append, List.flatten_append, flat]⟩

theorem Surviving.removeRegion {base text : Text} {edits : List Edit}
    (own : ∀ line ∈ splitLines base, looksLikeMarker line = false)
    (identified : Identified edits) (surviving : Surviving base edits text) (slug : Text) :
    ∃ final, Cron.removeRegion text slug = .ok final ∧ Surviving base edits final := by
  obtain ⟨lines, chunks, noRegion, noBlock, laid, written, _, state⟩ := surviving.view own
  have distinct : ((regionChunks (lines ++ chunks)).map RegionChunk.taskId).Nodup := by
    simpa [noRegion] using (written.ids identified).1
  by_cases present : ∃ r ∈ regionChunks chunks, r.slug = slug
  · obtain ⟨before, r, after, rfl, rfl, absent⟩ := split_at_region present
    rcases state with ⟨_, empty⟩ | ⟨_, flat⟩
    · simp at empty
    rw [← List.append_assoc] at laid distinct
    have cut := removeRegion_present laid distinct (by simpa [noRegion] using absent)
    refine ⟨_, cut, ?_⟩
    have fewer := written.sublist (before ++ after) (by simp)
    have result := surviving_of_chunks flat fewer
    simpa only [chunkLines_append, List.append_assoc] using result
  · have absent : ∀ r ∈ regionChunks (lines ++ chunks), r.slug ≠ slug := by
      intro r member named
      exact present ⟨r, by simpa [noRegion] using member, named⟩
    exact ⟨text, removeRegion_absent laid distinct absent, surviving⟩

theorem Surviving.replaceRegion {base text : Text} {edits : List Edit}
    (own : ∀ line ∈ splitLines base, looksLikeMarker line = false)
    (identified : Identified edits) (surviving : Surviving base edits text) {new : RegionChunk}
    {rendered : Text} (named : Named edits new.identity) (whole : WrittenAs rendered new.lines) :
    ∃ final, Cron.replaceRegion text new.slug rendered = .ok final ∧
      Surviving base edits final := by
  obtain ⟨lines, chunks, noRegion, noBlock, laid, written, inserted, state⟩ := surviving.view own
  have distinct : ((regionChunks (lines ++ chunks)).map RegionChunk.taskId).Nodup := by
    simpa [noRegion] using (written.ids identified).1
  by_cases present : ∃ r ∈ regionChunks chunks, r.slug = new.slug
  · obtain ⟨before, r, after, rfl, slug, absent⟩ := split_at_region present
    rcases state with ⟨_, empty⟩ | ⟨_, flat⟩
    · simp at empty
    rw [← List.append_assoc] at laid distinct
    rw [← slug] at absent ⊢
    have replaced := replaceRegion_present rendered laid distinct
      (by simpa [noRegion] using absent)
    refine ⟨_, replaced, ?_⟩
    have result := surviving_of_chunks flat (written.replaceRegion slug.symm named whole.2)
    simpa [whole.splitKeep, Chunk.lines] using result
  · have absent : ∀ r ∈ regionChunks chunks, r.slug ≠ new.slug := by
      intro r member same
      exact present ⟨r, member, same⟩
    refine ⟨_, replaceRegion_absent laid distinct (by simpa [noRegion] using absent), ?_⟩
    rw [inserted]
    refine Or.inr ⟨chunks ++ [.region new], written.appendRegion absent named whole.2, ?_⟩
    simp [Chunk.lines, whole.1]

theorem Surviving.upsertBlockMember {base text : Text} {edits : List Edit}
    (own : ∀ line ∈ splitLines base, looksLikeMarker line = false)
    (identified : Identified edits) (surviving : Surviving base edits text) {new : MemberChunk}
    (named : Named edits new.identity) (ended : ∀ line ∈ new.lines, Ended line) :
    ∃ final, Cron.upsertBlockMember text new.slug new.lines.flatten = .ok final ∧
      Surviving base edits final := by
  obtain ⟨lines, chunks, noRegion, noBlock, laid, written, inserted, state⟩ := surviving.view own
  rcases split_at_block written.single with none_ | ⟨before, b, after, rfl, first, last⟩
  · refine ⟨_, upsertBlockMember_absent laid (by simp [noBlock, none_]) new, ?_⟩
    rw [inserted]
    have whole : Written edits (chunks ++ [] ++ []) := by simpa using written
    have put := whole.putBlock none_ rfl rfl [new] (by simp) (by simp)
      (by simpa using named) (by simpa using ended)
    refine Or.inr ⟨_, put, ?_⟩
    simp [Chunk.lines]
  · rcases state with ⟨_, empty⟩ | ⟨_, flat⟩
    · simp at empty
    have held : memberChunks (before ++ .block b :: after) = b.members :=
      memberChunks_split first last
    have distinct := (written.ids identified).2
    rw [held] at distinct
    rw [← List.append_assoc] at laid
    have replaced := upsertBlockMember_present laid (by simp [noBlock, first]) last distinct new
    refine ⟨_, replaced, ?_⟩
    have whole : Written edits (before ++ [.block b] ++ after) := by simpa using written
    have slugs := written.members
    rw [held] at slugs
    have put := whole.putBlock first last (by simp [Chunk.regions]) _ (putMember_ne_nil new b.members)
      (putMember_nodup slugs)
      (by
        intro m member
        rcases mem_putMember member with rfl | ⟨old, inside, rfl⟩
        · exact named
        · exact written.membersNamed old (by rwa [held]))
      (by
        intro m member
        rcases mem_putMember member with rfl | ⟨old, _, rfl⟩
        · exact ended
        · exact old.rewritten_ended)
    simpa using surviving_of_chunks flat put

theorem Surviving.removeBlockMember {base text : Text} {edits : List Edit}
    (own : ∀ line ∈ splitLines base, looksLikeMarker line = false)
    (identified : Identified edits) (surviving : Surviving base edits text) (slug : Text) :
    ∃ final, Cron.removeBlockMember text slug = .ok final ∧ Surviving base edits final := by
  obtain ⟨lines, chunks, noRegion, noBlock, laid, written, _, state⟩ := surviving.view own
  rcases split_at_block written.single with none_ | ⟨before, b, after, rfl, first, last⟩
  · exact ⟨text, removeBlockMember_absent laid (by simp [noBlock, none_]), surviving⟩
  · rcases state with ⟨_, empty⟩ | ⟨_, flat⟩
    · simp at empty
    have held : memberChunks (before ++ .block b :: after) = b.members :=
      memberChunks_split first last
    have distinct := (written.ids identified).2
    rw [held] at distinct
    rw [← List.append_assoc] at laid
    have removed := removeBlockMember_present slug laid (by simp [noBlock, first]) last
      distinct
    refine ⟨_, removed, ?_⟩
    by_cases empty : dropMember slug b.members = []
    · have fewer := written.sublist (before ++ after) (by simp)
      simpa [empty] using surviving_of_chunks flat fewer
    · have whole : Written edits (before ++ [.block b] ++ after) := by simpa using written
      have slugs := written.members
      rw [held] at slugs
      have put := whole.putBlock first last (by simp [Chunk.regions]) _ empty
        (dropMember_nodup slugs)
        (by
          intro m member
          obtain ⟨old, inside, _, rfl⟩ := mem_dropMember member
          exact written.membersNamed old (by rwa [held]))
        (by
          intro m member
          obtain ⟨old, _, _, rfl⟩ := mem_dropMember member
          exact old.rewritten_ended)
      simpa [empty] using surviving_of_chunks flat put

/-- Every edit succeeds and keeps the invariant. -/
theorem Surviving.step {base text : Text} {edits : List Edit}
    (own : ∀ line ∈ splitLines base, looksLikeMarker line = false)
    (identified : Identified edits) {edit : Edit} (listed : edit ∈ edits)
    (rendered : edit.Rendered) (surviving : Surviving base edits text) :
    ∃ final, edit.run text = .ok final ∧ Surviving base edits final := by
  cases edit with
  | removeRegion slug => exact surviving.removeRegion own identified slug
  | removeBlockMember slug => exact surviving.removeBlockMember own identified slug
  | replaceRegion artefact rendered_ =>
      obtain ⟨safe, strategy, render⟩ := rendered
      simp only [renderArtefact, strategy] at render
      obtain ⟨new, identity, whole⟩ := renderCrontabRegion_written safe render
      have slug : new.slug = artefact.slug := congrArg Identity.slug identity
      have named : Named edits new.identity := by
        rw [identity]
        exact ⟨_, listed, artefact, rfl, rfl, rfl⟩
      have result := surviving.replaceRegion own identified named whole
      rwa [slug] at result
  | upsertBlockMember artefact rendered_ =>
      obtain ⟨safe, strategy, render⟩ := rendered
      simp only [renderArtefact, strategy] at render
      obtain ⟨new, identity, whole⟩ := renderBlockMember_written safe render
      have slug : new.slug = artefact.slug := congrArg Identity.slug identity
      have named : Named edits new.identity := by
        rw [identity]
        exact ⟨_, listed, artefact, rfl, rfl, rfl⟩
      have result := surviving.upsertBlockMember own identified named whole.2
      rwa [slug, ← whole.1] at result

theorem Surviving.run {base text : Text} {edits done : List Edit}
    (own : ∀ line ∈ splitLines base, looksLikeMarker line = false)
    (identified : Identified edits) (listed : ∀ edit ∈ done, edit ∈ edits)
    (rendered : ∀ edit ∈ done, edit.Rendered) (surviving : Surviving base edits text) :
    ∃ final, runEdits text done = .ok final ∧ Surviving base edits final := by
  induction done generalizing text with
  | nil => exact ⟨text, rfl, surviving⟩
  | cons edit rest ih =>
      obtain ⟨next, stepRun, after⟩ := surviving.step own identified (listed edit (by simp))
        (rendered edit (by simp))
      obtain ⟨final, restRun, reached⟩ := ih (fun other member => listed other (by simp [member]))
        (fun other member => rendered other (by simp [member])) after
      refine ⟨final, ?_, reached⟩
      simp only [runEdits, List.foldlM_cons, stepRun, bind, Except.bind]
      exact restRun

theorem Surviving.isPrefix {base text : Text} {edits : List Edit}
    (surviving : Surviving base edits text) : base <+: text := by
  rcases surviving with rfl | ⟨chunks, _, rfl⟩
  · exact List.prefix_rfl
  · exact (base_isPrefix_settled base).trans (List.prefix_append _ _)

/-- With no region and no member left, nothing follows the user's own text. -/
theorem Surviving.emptied {base text : Text} {edits : List Edit}
    (own : ∀ line ∈ splitLines base, looksLikeMarker line = false)
    (surviving : Surviving base edits text) (noRegions : findManagedRegions text = .ok [])
    (noMembers : findBlockMembers text = .ok []) : text = base ∨ text = settled base := by
  obtain ⟨lines, chunks, noRegion, noBlock, laid, written, _, state⟩ := surviving.view own
  rcases state with ⟨untouched, _⟩ | ⟨rfl, _⟩
  · exact Or.inl untouched
  refine Or.inr ?_
  have single : (blockChunks (lines ++ chunks)).length ≤ 1 := by
    simpa [noBlock] using written.single
  have regions : regionChunks chunks = [] := by
    have found := ((findManagedRegions_eq_ok laid).mp noRegions).1
    have none_ := regionsFrom_map (fun _ => ()) (fun _ => ()) (fun _ _ => rfl) 0 (lines ++ chunks)
    rw [← found] at none_
    simpa [noRegion] using none_.symm
  have members : memberChunks chunks = [] := by
    have found := ((findBlockMembers_eq_ok laid single).mp noMembers).1
    have none_ : memberChunks (lines ++ chunks) = [] := List.map_eq_nil_iff.mp found.symm
    simpa [memberChunks, noBlock] using none_
  cases chunks with
  | nil => simp
  | cons chunk rest =>
      have managed := written.managed chunk (by simp)
      cases chunk with
      | plain line ordinary => exact managed.elim
      | region r => simp [Chunk.regions] at regions
      | block b =>
          have held : b.members = [] := by
            simp only [memberChunks_cons, Chunk.blocks, List.flatMap_singleton,
              List.append_eq_nil_iff] at members
            exact members.1
          exact absurd held managed

/-! ## The user's text survives -/

theorem user_text_survives (base : Text) (edits : List Edit)
    (own : ∀ line ∈ splitLines base, looksLikeMarker line = false)
    (rendered : ∀ edit ∈ edits, edit.Rendered) (identified : Identified edits) :
    (∀ done, done <+: edits → ∃ text, runEdits base done = .ok text ∧ base <+: text) ∧
      ∀ text, runEdits base edits = .ok text → findManagedRegions text = .ok [] →
        findBlockMembers text = .ok [] →
          text = base ∨
            base ≠ [] ∧ endsWithNewline base = false ∧ text = base ++ ['\n'] := by
  have start : Surviving base edits base := Or.inl rfl
  constructor
  · intro done initial
    obtain ⟨text, run, surviving⟩ := start.run own identified
      (fun edit member => initial.subset member)
      (fun edit member => rendered edit (initial.subset member))
    exact ⟨text, run, surviving.isPrefix⟩
  · intro text run noRegions noMembers
    obtain ⟨final, finalRun, surviving⟩ := start.run own identified (fun _ member => member) rendered
    obtain rfl : text = final := Except.ok.inj (run.symm.trans finalRun)
    rcases surviving.emptied own noRegions noMembers with untouched | ended
    · exact Or.inl untouched
    · unfold settled separator at ended
      by_cases empty : base = []
      · rw [if_pos empty] at ended
        exact Or.inl (ended.trans empty.symm)
      · cases ends : endsWithNewline base with
        | true => exact Or.inl (by simpa [empty, ends] using ended)
        | false => exact Or.inr ⟨empty, rfl, by simpa [empty, ends] using ended⟩

/-! ## One lifecycle -/

def nightlyBackup (deployment : DeploymentSpecification) : DesiredArtefact where
  taskId := ⟨1, by decide⟩
  slug := "nightly-backup".toList
  deployment := deployment
  command := "taskctl activate nightly-backup".toList
  contentDigest := "sha256:ab12".toList
  schedule := some "0 2 * * *".toList
  description := "Nightly backup".toList

theorem nightlyBackup_safe (deployment : DeploymentSpecification)
    (user : deployment.target = .userCrontab) : (nightlyBackup deployment).Safe := by
  have bare : deployment.target.expressesExecutionUser = false := by rw [user]; rfl
  have slug : LinePattern.Token "nightly-backup".toList := by decide
  have digest : LinePattern.Token "sha256:ab12".toList := by decide
  have comment : descriptionComment (nightlyBackup deployment) = ["# Nightly backup".toList] := rfl
  refine ⟨⟨slug, digest⟩, ?_, ?_, ?_⟩
  · rw [comment]
    intro line member
    rw [List.mem_singleton.mp member]
    decide
  · intro entry rendered
    simp only [crontabEntry, nightlyBackup, bare] at rendered
    cases rendered
    decide
  · intro strategy
    have permitted := deployment.permitted
    rw [nightlyBackup] at strategy
    rw [strategy, user] at permitted
    simp [DeploymentStrategy.permittedTargets] at permitted

def nightlyRegion : Text :=
  joinLines [beginMarker (nightlyBackup .default), "# Nightly backup".toList,
    "0 2 * * * taskctl activate nightly-backup".toList, endMarker "nightly-backup".toList]

def nightlyMember : Text :=
  joinLines [memberMarker (nightlyBackup .singleBlock), "# Nightly backup".toList,
    "0 2 * * * taskctl activate nightly-backup".toList]

def nightlyEdits : List Edit :=
  [.replaceRegion (nightlyBackup .default) nightlyRegion,
    .upsertBlockMember (nightlyBackup .singleBlock) nightlyMember,
    .removeRegion "nightly-backup".toList, .removeBlockMember "nightly-backup".toList]

theorem user_text_survives_nightly :
    (∀ done, done <+: nightlyEdits → ∃ text,
      runEdits "MAILTO=ops".toList done = .ok text ∧ "MAILTO=ops".toList <+: text) ∧
      ∀ text, runEdits "MAILTO=ops".toList nightlyEdits = .ok text →
        findManagedRegions text = .ok [] → findBlockMembers text = .ok [] →
          text = "MAILTO=ops".toList ∨ "MAILTO=ops".toList ≠ [] ∧
            endsWithNewline "MAILTO=ops".toList = false ∧
              text = "MAILTO=ops".toList ++ ['\n'] := by
  refine user_text_survives "MAILTO=ops".toList nightlyEdits ?_ ?_ ?_
  · have whole : splitLines "MAILTO=ops".toList = ["MAILTO=ops".toList] := by decide
    intro line member
    rw [whole] at member
    rw [List.mem_singleton.mp member]
    decide
  · intro edit member
    simp only [nightlyEdits, List.mem_cons, List.not_mem_nil, or_false] at member
    rcases member with rfl | rfl | rfl | rfl
    · exact ⟨nightlyBackup_safe _ rfl, rfl, rfl⟩
    · exact ⟨nightlyBackup_safe _ rfl, rfl, rfl⟩
    · trivial
    · trivial
  · intro first inFirst second inSecond a isA b isB
    have fixed : ∀ edit ∈ nightlyEdits, ∀ artefact ∈ edit.artefact,
        artefact.slug = "nightly-backup".toList ∧ artefact.taskId = ⟨1, by decide⟩ := by
      intro edit member artefact written
      simp only [nightlyEdits, List.mem_cons, List.not_mem_nil, or_false] at member
      rcases member with rfl | rfl | rfl | rfl <;> cases written <;> exact ⟨rfl, rfl⟩
    obtain ⟨slugA, idA⟩ := fixed first inFirst a isA
    obtain ⟨slugB, idB⟩ := fixed second inSecond b isB
    rw [slugA, slugB, idA, idB]
    simp

end TaskControl.Cron
