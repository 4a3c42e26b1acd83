import TaskControl.Cron.Edits
import TaskControl.Cron.Unmanaged
import TaskControl.Cron.Manager

/-!
# A crontab as two lists of entries

What a crontab holds for TaskControl is the list of its regions and the list of
its block members.  `Arranged` says that a text shows two such lists, and the
four edits act on the lists: a write replaces an entry or appends one, a removal
takes one out.
-/

set_option autoImplicit false

namespace TaskControl.Cron

open PythonText

def RegionChunk.entry (r : RegionChunk) : ManagedEntry :=
  ⟨r.slug, r.taskId, joinLines (r.lines.map lineBody)⟩

def MemberChunk.entry (m : MemberChunk) : ManagedEntry :=
  ⟨m.slug, m.taskId, joinLines (m.lines.map lineBody)⟩

/-- The chunks of a text that was read, with at most one block. -/
structure Chunked (text : Text) (chunks : List Chunk) : Prop where
  carriageFree : '\r' ∉ text
  laid : Laid text chunks
  single : (blockChunks chunks).length ≤ 1

/-- The text shows these regions and these block members, in this order. -/
def Arranged (text : Text) (regions members : List ManagedEntry) : Prop :=
  ∃ chunks, Chunked text chunks ∧ (regionChunks chunks).map RegionChunk.entry = regions ∧
    (memberChunks chunks).map MemberChunk.entry = members

/-- No two entries of one form claim the same task, so both scans accept. -/
structure Shelf (text : Text) (regions members : List ManagedEntry) : Prop where
  arranged : Arranged text regions members
  regionIds : (regions.map ManagedEntry.taskId).Nodup
  memberIds : (members.map ManagedEntry.taskId).Nodup

/-! ## Reading -/

theorem regionIds_map (chunks : List Chunk) :
    ((regionChunks chunks).map RegionChunk.entry).map ManagedEntry.taskId =
      (regionChunks chunks).map RegionChunk.taskId := by
  rw [List.map_map]
  rfl

theorem memberIds_map (chunks : List Chunk) :
    ((memberChunks chunks).map MemberChunk.entry).map ManagedEntry.taskId =
      (memberChunks chunks).map MemberChunk.taskId := by
  rw [List.map_map]
  rfl

theorem Arranged.regions_iff {text : Text} {regions members : List ManagedEntry}
    (arranged : Arranged text regions members) :
    (∀ found, findManagedRegions text = .ok found →
      found.map ManagedRegion.entry = regions ∧ (regions.map ManagedEntry.taskId).Nodup) ∧
    ((regions.map ManagedEntry.taskId).Nodup → ∃ found, findManagedRegions text = .ok found) := by
  obtain ⟨chunks, chunked, rfl, _⟩ := arranged
  have view : (regionsFrom 0 chunks).map ManagedRegion.entry =
      (regionChunks chunks).map RegionChunk.entry := regionsFrom_map _ _ (fun _ _ => rfl) 0 chunks
  rw [regionIds_map]
  constructor
  · intro found read
    obtain ⟨rfl, distinct⟩ := (findManagedRegions_eq_ok chunked.laid).mp read
    exact ⟨view, distinct⟩
  · intro distinct
    exact ⟨_, (findManagedRegions_eq_ok chunked.laid).mpr ⟨rfl, distinct⟩⟩

theorem Arranged.members_iff {text : Text} {regions members : List ManagedEntry}
    (arranged : Arranged text regions members) :
    (∀ found, findBlockMembers text = .ok found →
      found.map BlockMember.entry = members ∧ (members.map ManagedEntry.taskId).Nodup) ∧
    ((members.map ManagedEntry.taskId).Nodup → ∃ found, findBlockMembers text = .ok found) := by
  obtain ⟨chunks, chunked, _, rfl⟩ := arranged
  rw [memberIds_map]
  constructor
  · intro found read
    obtain ⟨rfl, distinct⟩ := (findBlockMembers_eq_ok chunked.laid chunked.single).mp read
    rw [List.map_map]
    exact ⟨rfl, distinct⟩
  · intro distinct
    exact ⟨_, (findBlockMembers_eq_ok chunked.laid chunked.single).mpr ⟨rfl, distinct⟩⟩

theorem Shelf.regions {text : Text} {regions members : List ManagedEntry}
    (shelf : Shelf text regions members) :
    ∃ found, findManagedRegions text = .ok found ∧ found.map ManagedRegion.entry = regions := by
  obtain ⟨found, read⟩ := shelf.arranged.regions_iff.2 shelf.regionIds
  exact ⟨found, read, (shelf.arranged.regions_iff.1 found read).1⟩

theorem Shelf.members {text : Text} {regions members : List ManagedEntry}
    (shelf : Shelf text regions members) :
    ∃ found, findBlockMembers text = .ok found ∧ found.map BlockMember.entry = members := by
  obtain ⟨found, read⟩ := shelf.arranged.members_iff.2 shelf.memberIds
  exact ⟨found, read, (shelf.arranged.members_iff.1 found read).1⟩

/-- A text on which both scans succeed and nothing overlaps is a shelf. -/
theorem shelf_of_separate {text : Text} {regions : List ManagedRegion}
    {members : List BlockMember} (carriageFree : '\r' ∉ text)
    (foundRegions : findManagedRegions text = .ok regions)
    (foundMembers : findBlockMembers text = .ok members) (separate : Separate text) :
    Shelf text (regions.map ManagedRegion.entry) (members.map BlockMember.entry) := by
  obtain ⟨chunks, laid, single⟩ := laid_of_separate foundRegions foundMembers separate
  have arranged : Arranged text _ _ := ⟨chunks, ⟨carriageFree, laid, single⟩, rfl, rfl⟩
  obtain ⟨regionsSame, regionIds⟩ := arranged.regions_iff.1 regions foundRegions
  obtain ⟨membersSame, memberIds⟩ := arranged.members_iff.1 members foundMembers
  rw [← regionsSame] at arranged regionIds
  rw [← membersSame] at arranged memberIds
  exact ⟨arranged, regionIds, memberIds⟩

/-! ## Cutting and appending chunks -/

theorem Chunked.splice {text : Text} (before old after new : List Chunk)
    (chunked : Chunked text (before ++ old ++ after)) (nonempty : chunkLines old ≠ [])
    (ended : ∀ line ∈ chunkLines new, Ended line)
    (single : (blockChunks (before ++ new ++ after)).length ≤ 1) :
    Chunked (chunkLines (before ++ new ++ after)).flatten (before ++ new ++ after) := by
  have kept : KeptLines (chunkLines before ++ chunkLines old ++ chunkLines after) := by
    have whole := keptLines_splitKeep chunked.carriageFree
    rwa [show splitKeep text = _ from chunked.laid, chunkLines_append, chunkLines_append] at whole
  have spliced := kept.splice nonempty fun line member => (ended line member).terminated
  rw [← chunkLines_append, ← chunkLines_append] at spliced
  exact ⟨spliced.carriageFree, spliced.splitKeep_flatten, single⟩

/-- The last line of a chunk can be ended. -/
theorem Chunk.relast (chunk : Chunk) {front : List Text} {last ended : Text}
    (shape : chunk.lines = front ++ [last]) (same : lineBody ended = lineBody last) :
    ∃ chunk' : Chunk, chunk'.lines = front ++ [ended] ∧
      chunk'.regions.map RegionChunk.entry = chunk.regions.map RegionChunk.entry ∧
        (chunk'.blocks.flatMap BlockChunk.members) = (chunk.blocks.flatMap BlockChunk.members) ∧
          chunk'.blocks.length = chunk.blocks.length := by
  cases chunk with
  | plain line ordinary =>
      obtain ⟨rfl, single⟩ := List.append_inj' (show [] ++ [line] = front ++ [last] from shape) rfl
      obtain rfl : line = last := by simpa using single
      exact ⟨.plain ended (same ▸ ordinary), rfl, rfl, rfl, rfl⟩
  | region r =>
      obtain ⟨rfl, single⟩ := List.append_inj' (show (r.opening :: r.inner) ++ [r.closing] =
        front ++ [last] from shape) rfl
      obtain rfl : r.closing = last := by simpa using single
      refine ⟨.region { r with closing := ended, closes := same ▸ r.closes }, rfl, ?_, rfl, rfl⟩
      simp [Chunk.regions, RegionChunk.entry, RegionChunk.lines, RegionChunk.slug,
        RegionChunk.taskId, same]
  | block b =>
      obtain ⟨rfl, single⟩ := List.append_inj' (show (b.opening :: b.inside) ++ [b.closing] =
        front ++ [last] from shape) rfl
      obtain rfl : b.closing = last := by simpa using single
      exact ⟨.block { b with closing := ended, closes := same ▸ b.closes }, rfl, rfl, rfl, rfl⟩

theorem Chunk.lines_ne_nil (chunk : Chunk) : chunk.lines ≠ [] := by
  cases chunk <;> simp [Chunk.lines, RegionChunk.lines, BlockChunk.lines]

theorem relast_chunks {chunks : List Chunk} {front : List Text} {last ended : Text}
    (shape : chunkLines chunks = front ++ [last]) (same : lineBody ended = lineBody last) :
    ∃ sealed_, chunkLines sealed_ = front ++ [ended] ∧
      (regionChunks sealed_).map RegionChunk.entry = (regionChunks chunks).map RegionChunk.entry ∧
      memberChunks sealed_ = memberChunks chunks ∧
      (blockChunks sealed_).length = (blockChunks chunks).length := by
  induction chunks using List.reverseRecOn with
  | nil => simp at shape
  | append_singleton init chunk _ =>
      have whole : chunkLines (init ++ [chunk]) =
          chunkLines init ++ (chunk.lines.dropLast ++ [chunk.lines.getLast chunk.lines_ne_nil]) := by
        rw [List.dropLast_append_getLast]
        simp
      rw [whole, ← List.append_assoc] at shape
      obtain ⟨rfl, single⟩ := List.append_inj' shape rfl
      obtain rfl : chunk.lines.getLast chunk.lines_ne_nil = last := by simpa using single
      obtain ⟨chunk', lines, regions, members, blocks⟩ :=
        chunk.relast (List.dropLast_append_getLast chunk.lines_ne_nil).symm same
      exact ⟨init ++ [chunk'], by simp [lines], by simp [regions], by simp [members],
        by simp [blocks]⟩

/-- Ending the last line of a text leaves its entries as they are. -/
theorem Chunked.seal {text : Text} {chunks : List Chunk} (chunked : Chunked text chunks)
    (nonempty : text ≠ []) (unended : endsWithNewline text = false) :
    ∃ sealed_, Chunked (text ++ ['\n']) sealed_ ∧
      (regionChunks sealed_).map RegionChunk.entry = (regionChunks chunks).map RegionChunk.entry ∧
      memberChunks sealed_ = memberChunks chunks ∧
      (blockChunks sealed_).length = (blockChunks chunks).length := by
  have carriageFree : '\r' ∉ text ++ ['\n'] := by simp [chunked.carriageFree]
  have laid : splitKeep text = chunkLines chunks := chunked.laid
  rcases splitKeep_newline nonempty unended with ⟨front, last, whole, ended, same⟩ | apart
  · rw [laid] at whole
    obtain ⟨sealed_, lines, regions, members, blocks⟩ := relast_chunks whole same
    have single := chunked.single
    rw [← blocks] at single
    exact ⟨sealed_, ⟨carriageFree, ended.trans lines.symm, single⟩, regions, members, blocks⟩
  · refine ⟨chunks ++ [.plain ['\n'] (by decide)], ⟨carriageFree, ?_, ?_⟩, ?_, ?_, ?_⟩
    · rw [Laid, apart, laid]
      simp [Chunk.lines]
    all_goals simp [Chunk.regions, Chunk.blocks, chunked.single]

/-- Whole lines put after a text are chunks after its chunks. -/
theorem Chunked.append {text : Text} {chunks : List Chunk} (new : List Chunk)
    (chunked : Chunked text chunks)
    (ended : ∀ line ∈ chunkLines new, Ended line)
    (single : (blockChunks chunks ++ blockChunks new).length ≤ 1) :
    ∃ whole, Chunked (appended text (chunkLines new).flatten) whole ∧
      (regionChunks whole).map RegionChunk.entry =
        (regionChunks chunks).map RegionChunk.entry ++ (regionChunks new).map RegionChunk.entry ∧
      memberChunks whole = memberChunks chunks ++ memberChunks new := by
  have kept : KeptLines (chunkLines new) :=
    keptLines_of_terminated fun line member => (ended line member).terminated
  by_cases empty : text = []
  · subst empty
    have bare : chunkLines chunks = [] := (show splitKeep [] = _ from chunked.laid).symm
    obtain rfl : chunks = [] := by
      cases chunks with
      | nil => rfl
      | cons chunk rest => simp [Chunk.lines_ne_nil] at bare
    refine ⟨new, ⟨?_, ?_, by simpa using single⟩, rfl, rfl⟩
    · simpa [appended] using kept.carriageFree
    · rw [Laid, appended, if_pos rfl]
      exact kept.splitKeep_flatten
  -- with its last line ended, the text is cut where the new lines begin
  have closed {front : Text} {parts : List Chunk} (chunked : Chunked front parts)
      (ends : endsWithNewline front = true)
      (single : (blockChunks parts ++ blockChunks new).length ≤ 1) :
      Chunked (front ++ (chunkLines new).flatten) (parts ++ new) := by
    refine ⟨?_, ?_, by simpa using single⟩
    · simp only [List.mem_append, not_or]
      exact ⟨chunked.carriageFree, kept.carriageFree⟩
    · rw [Laid, splitKeep_append (closed_of_endsWithNewline ends), kept.splitKeep_flatten,
        chunkLines_append, show splitKeep front = _ from chunked.laid]
  rw [appended, if_neg empty]
  cases ends : endsWithNewline text with
  | true =>
      refine ⟨chunks ++ new, ?_, by simp, by simp⟩
      rw [separator, ends, if_pos rfl, List.append_nil]
      exact closed chunked ends single
  | false =>
      obtain ⟨sealed_, chunked', regions, members, blocks⟩ := chunked.seal empty ends
      refine ⟨sealed_ ++ new, ?_, by simp [regions], by simp [members]⟩
      rw [separator, ends, if_neg (by simp)]
      refine closed chunked' (by simp [endsWithNewline]) ?_
      rw [List.length_append, blocks, ← List.length_append]
      exact single

/-! ## The four edits -/

/-- An entry in the place of the first one of its slug, or at the end. -/
def putFirst (new : ManagedEntry) : List ManagedEntry → List ManagedEntry
  | [] => [new]
  | entry :: rest => if entry.slug = new.slug then new :: rest else entry :: putFirst new rest

def dropFirst (slug : Text) (entries : List ManagedEntry) : List ManagedEntry :=
  entries.eraseP (·.slug = slug)

/-- An entry in every place of its slug, or at the end. -/
def putEvery (new : ManagedEntry) (entries : List ManagedEntry) : List ManagedEntry :=
  if entries.any (·.slug = new.slug) then
    entries.map fun entry => if entry.slug = new.slug then new else entry
  else entries ++ [new]

def dropEvery (slug : Text) (entries : List ManagedEntry) : List ManagedEntry :=
  entries.filter (·.slug ≠ slug)

theorem putFirst_absent {new : ManagedEntry} {entries : List ManagedEntry}
    (absent : ∀ entry ∈ entries, entry.slug ≠ new.slug) : putFirst new entries = entries ++ [new] := by
  induction entries with
  | nil => rfl
  | cons entry rest ih =>
      rw [putFirst, if_neg (absent entry List.mem_cons_self),
        ih fun other member => absent other (List.mem_cons_of_mem entry member)]
      rfl

theorem putFirst_present {new old : ManagedEntry} {before after : List ManagedEntry}
    (absent : ∀ entry ∈ before, entry.slug ≠ new.slug) (here : old.slug = new.slug) :
    putFirst new (before ++ old :: after) = before ++ new :: after := by
  induction before with
  | nil => simp [putFirst, here]
  | cons entry rest ih =>
      rw [List.cons_append, putFirst, if_neg (absent entry List.mem_cons_self),
        ih fun other member => absent other (List.mem_cons_of_mem entry member)]
      rfl

theorem dropFirst_absent {slug : Text} {entries : List ManagedEntry}
    (absent : ∀ entry ∈ entries, entry.slug ≠ slug) : dropFirst slug entries = entries :=
  List.eraseP_of_forall_not (by simpa using absent)

theorem dropFirst_present {slug : Text} {old : ManagedEntry} {before after : List ManagedEntry}
    (absent : ∀ entry ∈ before, entry.slug ≠ slug) (here : old.slug = slug) :
    dropFirst slug (before ++ old :: after) = before ++ after := by
  rw [dropFirst, List.eraseP_append_right _ (by simpa using absent)]
  simp [here]

/-! ## One slug at a time -/

def ofSlug (slug : Text) (entries : List ManagedEntry) : List ManagedEntry :=
  entries.filter (·.slug = slug)

theorem mem_ofSlug {slug : Text} {entry : ManagedEntry} {entries : List ManagedEntry} :
    entry ∈ ofSlug slug entries ↔ entry ∈ entries ∧ entry.slug = slug := by
  simp [ofSlug]

theorem ofSlug_eq_nil {slug : Text} {entries : List ManagedEntry} :
    ofSlug slug entries = [] ↔ ∀ entry ∈ entries, entry.slug ≠ slug := by
  simp [ofSlug]

theorem ofSlug_putFirst (slug : Text) (new : ManagedEntry) (entries : List ManagedEntry) :
    ofSlug slug (putFirst new entries) =
      if slug = new.slug then new :: (ofSlug slug entries).tail else ofSlug slug entries := by
  induction entries with
  | nil =>
      by_cases same : slug = new.slug
      · simp [putFirst, ofSlug, same]
      · simp [putFirst, ofSlug, same, Ne.symm same]
  | cons entry rest ih =>
      simp only [ofSlug] at ih ⊢
      rw [putFirst]
      split
      · rename_i here
        by_cases same : slug = new.slug
        · subst same
          simp [here]
        · have other : ¬ entry.slug = slug := fun named => same (named.symm.trans here)
          simp [same, other, Ne.symm same]
      · rename_i elsewhere
        rw [List.filter_cons, List.filter_cons, ih]
        by_cases same : slug = new.slug
        · subst same
          simp [elsewhere]
        · simp [same]

theorem ofSlug_dropFirst (slug dropped : Text) (entries : List ManagedEntry) :
    ofSlug slug (dropFirst dropped entries) =
      if slug = dropped then (ofSlug slug entries).tail else ofSlug slug entries := by
  induction entries with
  | nil => simp [dropFirst, ofSlug]
  | cons entry rest ih =>
      simp only [ofSlug, dropFirst] at ih ⊢
      rw [List.eraseP_cons]
      by_cases here : entry.slug = dropped
      · by_cases same : slug = dropped
        · simp [here, same]
        · simp [here, same, Ne.symm same]
      · simp only [here, decide_false, cond_false]
        rw [List.filter_cons, List.filter_cons, ih]
        by_cases same : slug = dropped
        · subst same
          simp [here]
        · simp [same]

theorem ofSlug_putEvery (slug : Text) (new : ManagedEntry) (entries : List ManagedEntry) :
    ofSlug slug (putEvery new entries) =
      if slug = new.slug then
        if ofSlug slug entries = [] then [new] else (ofSlug slug entries).map fun _ => new
      else ofSlug slug entries := by
  have kept (entry : ManagedEntry) :
      (if entry.slug = new.slug then new else entry).slug = entry.slug := by
    split
    · rename_i same
      exact same.symm
    · rfl
  have mapped : ofSlug slug (entries.map fun entry => if entry.slug = new.slug then new else entry) =
      (ofSlug slug entries).map fun entry => if entry.slug = new.slug then new else entry := by
    rw [ofSlug, List.filter_map, ofSlug]
    congr 1
    exact List.filter_congr fun entry _ => by simp [kept]
  have held : entries.any (·.slug = new.slug) = true ↔ ofSlug new.slug entries ≠ [] := by
    rw [Ne, ofSlug_eq_nil]
    simp
  by_cases same : slug = new.slug
  · subst same
    rw [if_pos rfl]
    by_cases present : ofSlug new.slug entries = []
    · rw [putEvery, if_neg fun any => held.mp any present, if_pos present, ofSlug,
        List.filter_append, show entries.filter _ = [] from present]
      simp
    · rw [putEvery, if_pos (held.mpr present), if_neg present, mapped]
      refine List.map_congr_left fun entry member => ?_
      rw [if_pos (mem_ofSlug.mp member).2]
  · rw [if_neg same, putEvery]
    split
    · rw [mapped]
      refine (List.map_congr_left fun entry member => ?_).trans (List.map_id _)
      rw [if_neg fun here => same ((mem_ofSlug.mp member).2.symm.trans here)]
      rfl
    · rw [ofSlug, List.filter_append]
      simp [Ne.symm same, ofSlug]

theorem ofSlug_dropEvery (slug dropped : Text) (entries : List ManagedEntry) :
    ofSlug slug (dropEvery dropped entries) = if slug = dropped then [] else ofSlug slug entries := by
  rw [ofSlug, dropEvery, List.filter_filter]
  by_cases same : slug = dropped
  · subst same
    simp
  · rw [if_neg same, ofSlug]
    refine List.filter_congr fun entry _ => ?_
    by_cases named : entry.slug = slug
    · simp [named, same]
    · simp [named]

/-! ## The edits of a shelf -/

theorem region_absent {slug : Text} {chunks : List Chunk}
    (absent : ¬ ∃ r ∈ regionChunks chunks, r.slug = slug) :
    ∀ r ∈ regionChunks chunks, r.slug ≠ slug :=
  fun r member same => absent ⟨r, member, same⟩

section Edits

variable {text : Text} {regions members : List ManagedEntry}

theorem Shelf.replaceRegion (shelf : Shelf text regions members) (new : RegionChunk)
    {rendered : Text} (written : WrittenAs rendered new.lines) :
    ∃ final, Cron.replaceRegion text new.slug rendered = .ok final ∧
      Arranged final (putFirst new.entry regions) members := by
  obtain ⟨⟨chunks, chunked, rfl, rfl⟩, regionIds, _⟩ := shelf
  rw [regionIds_map] at regionIds
  by_cases present : ∃ r ∈ regionChunks chunks, r.slug = new.slug
  · obtain ⟨before, r, after, rfl, same, absent⟩ := split_at_region present
    have replaced := replaceRegion_present rendered chunked.laid regionIds
      (by rw [same]; exact absent)
    rw [same, written.splitKeep] at replaced
    refine ⟨_, replaced, before ++ [.region new] ++ after, ?_, ?_, by simp [Chunk.blocks]⟩
    · have spliced := Chunked.splice before [.region r] after [.region new] (by simpa using chunked) (by simp [Chunk.lines, RegionChunk.lines])
        (by simpa [Chunk.lines] using written.2) (by simpa [Chunk.blocks] using chunked.single)
      simpa [Chunk.lines] using spliced
    · have absent' : ∀ entry ∈ (regionChunks before).map RegionChunk.entry,
          entry.slug ≠ new.entry.slug := by simpa [RegionChunk.entry] using absent
      simp only [regionChunks_append, regionChunks_cons, Chunk.regions, List.map_append,
        List.map_cons, regionChunks_nil, List.append_nil, List.cons_append, List.nil_append,
        List.map_nil]
      rw [putFirst_present absent' same, List.append_assoc]
      rfl
  · have absent := region_absent present
    obtain ⟨whole, chunked', regionsSame, membersSame⟩ := chunked.append [.region new]
      (by simpa [Chunk.lines] using written.2) (by simpa [Chunk.blocks] using chunked.single)
    refine ⟨_, replaceRegion_absent chunked.laid regionIds absent, whole, ?_, ?_, ?_⟩
    · rw [written.1]
      simpa [Chunk.lines] using chunked'
    · rw [regionsSame, putFirst_absent (by simpa [RegionChunk.entry] using absent)]
      simp [Chunk.regions]
    · simp [membersSame, Chunk.blocks]

/-- Removing a region takes one chunk out, or none. -/
theorem Chunked.removeRegion {chunks : List Chunk} (chunked : Chunked text chunks)
    (distinct : ((regionChunks chunks).map RegionChunk.taskId).Nodup) (slug : Text) :
    ∃ final whole, Cron.removeRegion text slug = .ok final ∧ Chunked final whole ∧
      (regionChunks whole).map RegionChunk.entry =
        dropFirst slug ((regionChunks chunks).map RegionChunk.entry) ∧
      memberChunks whole = memberChunks chunks ∧ plainLines whole = plainLines chunks := by
  by_cases present : ∃ r ∈ regionChunks chunks, r.slug = slug
  · obtain ⟨before, r, after, rfl, rfl, absent⟩ := split_at_region present
    refine ⟨_, before ++ after, removeRegion_present chunked.laid distinct absent, ?_, ?_,
      by simp [Chunk.blocks], by simp [Chunk.plainLines]⟩
    · have spliced := Chunked.splice before [.region r] after [] (by simpa using chunked) (by simp [Chunk.lines, RegionChunk.lines])
        (by simp) (by simpa [Chunk.blocks] using chunked.single)
      simpa using spliced
    · have absent' : ∀ entry ∈ (regionChunks before).map RegionChunk.entry,
          entry.slug ≠ r.slug := by simpa [RegionChunk.entry] using absent
      simp only [regionChunks_append, regionChunks_cons, Chunk.regions, List.map_append,
        List.map_cons, List.cons_append, List.nil_append]
      rw [dropFirst_present absent' rfl]
  · have absent := region_absent present
    refine ⟨_, chunks, removeRegion_absent chunked.laid distinct absent, chunked, ?_, rfl, rfl⟩
    rw [dropFirst_absent (by simpa [RegionChunk.entry] using absent)]

theorem Shelf.unmanaged (shelf : Shelf text regions members) :
    ∃ chunks, Chunked text chunks ∧ ((regionChunks chunks).map RegionChunk.taskId).Nodup ∧
      ((memberChunks chunks).map MemberChunk.taskId).Nodup ∧
      (regionChunks chunks).map RegionChunk.entry = regions ∧
      (memberChunks chunks).map MemberChunk.entry = members ∧
      plainLines chunks = unmanagedLines text := by
  obtain ⟨⟨chunks, chunked, rfl, rfl⟩, regionIds, memberIds⟩ := shelf
  rw [regionIds_map] at regionIds
  rw [memberIds_map] at memberIds
  exact ⟨chunks, chunked, regionIds, memberIds, rfl, rfl,
    (unmanagedLines_laid chunked.laid chunked.single regionIds).symm⟩

/-- The text after a removal shows the rest and the same unmanaged lines. -/
theorem Shelf.removeRegion (shelf : Shelf text regions members) (slug : Text) :
    ∃ final, Cron.removeRegion text slug = .ok final ∧
      Shelf final (dropFirst slug regions) members ∧
        unmanagedLines final = unmanagedLines text := by
  obtain ⟨chunks, chunked, regionIds, memberIds, rfl, rfl, plain⟩ := shelf.unmanaged
  obtain ⟨final, whole, removed, chunked', regionsLeft, membersSame, plainSame⟩ :=
    chunked.removeRegion regionIds slug
  have arranged : Arranged final (dropFirst slug ((regionChunks chunks).map RegionChunk.entry))
      ((memberChunks chunks).map MemberChunk.entry) :=
    ⟨whole, chunked', regionsLeft, by rw [membersSame]⟩
  have shelf' : Shelf final _ _ :=
    ⟨arranged, shelf.regionIds.sublist (List.eraseP_sublist.map _), shelf.memberIds⟩
  have distinct := shelf'.regionIds
  rw [← regionsLeft, regionIds_map] at distinct
  refine ⟨final, removed, shelf', ?_⟩
  rw [unmanagedLines_laid chunked'.laid chunked'.single distinct, plainSame, plain]

theorem MemberChunk.rewritten_entry (m : MemberChunk) : m.rewritten.entry = m.entry := by
  have same := congrArg BlockMember.entry m.rewritten_toMember
  exact same

theorem putMember_entries (new : MemberChunk) (chunks : List MemberChunk) :
    (putMember new chunks).map MemberChunk.entry =
      putEvery new.entry (chunks.map MemberChunk.entry) := by
  have any : (chunks.map MemberChunk.entry).any (·.slug = new.entry.slug) =
      chunks.any (·.slug = new.slug) := by
    rw [List.any_map]
    rfl
  rw [putMember, putEvery, any]
  split
  · rw [List.map_map, List.map_map]
    refine List.map_congr_left fun m _ => ?_
    by_cases same : m.slug = new.slug
    · have same' : m.entry.slug = new.entry.slug := same
      simp [same, same']
    · have same' : ¬ m.entry.slug = new.entry.slug := same
      simp [same, same', MemberChunk.rewritten_entry]
  · simp [MemberChunk.rewritten_entry]

theorem dropMember_entries (slug : Text) (chunks : List MemberChunk) :
    (dropMember slug chunks).map MemberChunk.entry =
      dropEvery slug (chunks.map MemberChunk.entry) := by
  rw [dropMember, dropEvery, List.map_map, List.filter_map]
  refine (List.map_congr_left fun m _ => ?_).trans rfl
  exact MemberChunk.rewritten_entry m

/-- A rewritten block in the place of the old one. -/
theorem Chunked.rewriteBlock {before after : List Chunk} {b : BlockChunk}
    (chunked : Chunked text (before ++ .block b :: after)) (members : List MemberChunk)
    (ended : ∀ m ∈ members, ∀ line ∈ m.lines, Ended line) :
    Chunked (chunkLines (before ++ .block (.written members) :: after)).flatten
      (before ++ .block (.written members) :: after) := by
  have spliced := Chunked.splice before [.block b] after [.block (.written members)]
    (by simpa using chunked) (by simp [Chunk.lines, BlockChunk.lines])
    (by simpa [Chunk.lines] using written_block_ended ended)
    (by simpa [Chunk.blocks] using chunked.single)
  simpa using spliced

theorem Shelf.upsertBlockMember (shelf : Shelf text regions members) (new : MemberChunk)
    (ended : ∀ line ∈ new.lines, Ended line) :
    ∃ final, Cron.upsertBlockMember text new.slug new.lines.flatten = .ok final ∧
      Arranged final regions (putEvery new.entry members) := by
  obtain ⟨⟨chunks, chunked, rfl, rfl⟩, _, memberIds⟩ := shelf
  rw [memberIds_map] at memberIds
  rcases split_at_block chunked.single with none_ | ⟨before, b, after, rfl, first, last⟩
  · have ended' : ∀ m ∈ [new], ∀ line ∈ m.lines, Ended line := by simpa using ended
    obtain ⟨whole, chunked', regionsSame, membersSame⟩ :=
      chunked.append [.block (.written [new])]
        (by simpa [Chunk.lines] using written_block_ended ended') (by simp [none_, Chunk.blocks])
    refine ⟨_, upsertBlockMember_absent chunked.laid none_ new, whole, ?_, ?_, ?_⟩
    · simpa [Chunk.lines] using chunked'
    · simpa [Chunk.regions] using regionsSame
    · rw [membersSame, memberChunks, none_]
      simp [Chunk.blocks, BlockChunk.written, putEvery]
  · rw [memberChunks_split first last] at memberIds ⊢
    refine ⟨_, upsertBlockMember_present chunked.laid first last memberIds new, _,
      chunked.rewriteBlock _ ?_, by simp [Chunk.regions], ?_⟩
    · intro m member
      rcases mem_putMember member with rfl | ⟨old, _, rfl⟩
      · exact ended
      · exact old.rewritten_ended
    · rw [memberChunks_split first last]
      exact putMember_entries new b.members

/-- Removing a member rewrites the block, or takes it out, or leaves the text. -/
theorem Chunked.removeBlockMember {chunks : List Chunk} (chunked : Chunked text chunks)
    (distinct : ((memberChunks chunks).map MemberChunk.taskId).Nodup) (slug : Text) :
    ∃ final whole, Cron.removeBlockMember text slug = .ok final ∧ Chunked final whole ∧
      regionChunks whole = regionChunks chunks ∧
      (memberChunks whole).map MemberChunk.entry =
        dropEvery slug ((memberChunks chunks).map MemberChunk.entry) ∧
      plainLines whole = plainLines chunks := by
  rcases split_at_block chunked.single with none_ | ⟨before, b, after, rfl, first, last⟩
  · refine ⟨_, chunks, removeBlockMember_absent chunked.laid none_, chunked, rfl, ?_, rfl⟩
    simp [memberChunks, none_, dropEvery]
  · rw [memberChunks_split first last] at distinct ⊢
    have removed := removeBlockMember_present slug chunked.laid first last distinct
    rw [← dropMember_entries]
    split at removed
    · rename_i emptied
      refine ⟨_, before ++ after, removed, ?_, by simp [Chunk.regions], ?_,
        by simp [Chunk.plainLines]⟩
      · have spliced := Chunked.splice before [.block b] after []
          (by simpa using chunked) (by simp [Chunk.lines, BlockChunk.lines]) (by simp)
          (by simp [first, last])
        simpa using spliced
      · rw [emptied, memberChunks, blockChunks_append, first, last]
        rfl
    · refine ⟨_, _, removed, chunked.rewriteBlock _ ?_, by simp [Chunk.regions], ?_,
        by simp [Chunk.plainLines]⟩
      · intro m member
        obtain ⟨old, _, _, rfl⟩ := mem_dropMember member
        exact old.rewritten_ended
      · rw [memberChunks_split first last]
        rfl

theorem Shelf.removeBlockMember (shelf : Shelf text regions members) (slug : Text) :
    ∃ final, Cron.removeBlockMember text slug = .ok final ∧
      Shelf final regions (dropEvery slug members) ∧
        unmanagedLines final = unmanagedLines text := by
  obtain ⟨chunks, chunked, regionIds, memberIds, rfl, rfl, plain⟩ := shelf.unmanaged
  obtain ⟨final, whole, removed, chunked', regionsSame, membersLeft, plainSame⟩ :=
    chunked.removeBlockMember memberIds slug
  have arranged : Arranged final ((regionChunks chunks).map RegionChunk.entry)
      (dropEvery slug ((memberChunks chunks).map MemberChunk.entry)) :=
    ⟨whole, chunked', by rw [regionsSame], membersLeft⟩
  have shelf' : Shelf final _ _ :=
    ⟨arranged, shelf.regionIds, shelf.memberIds.sublist (List.filter_sublist.map _)⟩
  refine ⟨final, removed, shelf', ?_⟩
  rw [unmanagedLines_laid chunked'.laid chunked'.single (regionsSame ▸ regionIds), plainSame, plain]

end Edits

end TaskControl.Cron
