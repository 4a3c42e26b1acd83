import TaskControl.Cron.Block

/-!
# The anatomy of a crontab

A crontab in which no region overlaps the block is a sequence of ordinary
lines, regions and at most one block.  Each kind of chunk carries what makes it
that kind, so the scans of `find_managed_regions`, `_block_bounds` and
`find_block_members` are computed by recursion on the chunks, and every edit of
the text is a replacement of one chunk.
-/

set_option autoImplicit false

namespace TaskControl.Cron

open PythonText

/-- A line that neither opens nor closes anything. -/
def Ordinary (body : Text) : Prop :=
  matchBegin body = none ∧ matchEnd body = none ∧ matchBlockBegin body = none ∧
    matchBlockEnd body = none

instance (body : Text) : Decidable (Ordinary body) :=
  inferInstanceAs (Decidable (_ ∧ _ ∧ _ ∧ _))

/-- A line that may stand inside the block.  A further end marker may: the last
one closes the block. -/
def Enclosed (body : Text) : Prop :=
  matchBegin body = none ∧ matchEnd body = none ∧ matchBlockBegin body = none

instance (body : Text) : Decidable (Enclosed body) :=
  inferInstanceAs (Decidable (_ ∧ _ ∧ _))

/-! ## Chunks -/

structure RegionChunk where
  identity : Identity
  opening : Text
  inner : List Text
  closing : Text
  opens : matchBegin (lineBody opening) = some identity
  closes : matchEnd (lineBody closing) = some identity.slug
  within : ∀ line ∈ inner, Ordinary (lineBody line)

structure MemberChunk where
  identity : Identity
  marker : Text
  body : List Text
  marks : matchMember (lineBody marker) = some identity
  within : ∀ line ∈ body, Enclosed (lineBody line) ∧ matchMember (lineBody line) = none

structure BlockChunk where
  opening : Text
  preamble : List Text
  members : List MemberChunk
  closing : Text
  opens : matchBlockBegin (lineBody opening) = some ()
  closes : matchBlockEnd (lineBody closing) = some ()
  within : ∀ line ∈ preamble, Enclosed (lineBody line) ∧ matchMember (lineBody line) = none

inductive Chunk where
  | plain (line : Text) (ordinary : Ordinary (lineBody line))
  | region (region : RegionChunk)
  | block (block : BlockChunk)

def RegionChunk.lines (r : RegionChunk) : List Text := r.opening :: r.inner ++ [r.closing]

def MemberChunk.lines (m : MemberChunk) : List Text := m.marker :: m.body

/-- What stands between the two markers of a block. -/
def BlockChunk.inside (b : BlockChunk) : List Text :=
  b.preamble ++ b.members.flatMap MemberChunk.lines

def BlockChunk.lines (b : BlockChunk) : List Text := b.opening :: b.inside ++ [b.closing]

def Chunk.lines : Chunk → List Text
  | .plain line _ => [line]
  | .region r => r.lines
  | .block b => b.lines

def chunkLines (chunks : List Chunk) : List Text := chunks.flatMap Chunk.lines

def Chunk.regions : Chunk → List RegionChunk
  | .region r => [r]
  | _ => []

def Chunk.blocks : Chunk → List BlockChunk
  | .block b => [b]
  | _ => []

def regionChunks (chunks : List Chunk) : List RegionChunk := chunks.flatMap Chunk.regions

def blockChunks (chunks : List Chunk) : List BlockChunk := chunks.flatMap Chunk.blocks

def memberChunks (chunks : List Chunk) : List MemberChunk :=
  (blockChunks chunks).flatMap BlockChunk.members

@[simp] theorem chunkLines_nil : chunkLines [] = [] := rfl

@[simp] theorem chunkLines_cons (chunk : Chunk) (rest : List Chunk) :
    chunkLines (chunk :: rest) = chunk.lines ++ chunkLines rest := rfl

@[simp] theorem chunkLines_append (first rest : List Chunk) :
    chunkLines (first ++ rest) = chunkLines first ++ chunkLines rest := by
  simp [chunkLines]

@[simp] theorem regionChunks_nil : regionChunks [] = [] := rfl

@[simp] theorem regionChunks_append (first rest : List Chunk) :
    regionChunks (first ++ rest) = regionChunks first ++ regionChunks rest := by
  simp [regionChunks]

@[simp] theorem regionChunks_cons (chunk : Chunk) (rest : List Chunk) :
    regionChunks (chunk :: rest) = chunk.regions ++ regionChunks rest := rfl

@[simp] theorem blockChunks_nil : blockChunks [] = [] := rfl

@[simp] theorem blockChunks_append (first rest : List Chunk) :
    blockChunks (first ++ rest) = blockChunks first ++ blockChunks rest := by
  simp [blockChunks]

@[simp] theorem blockChunks_cons (chunk : Chunk) (rest : List Chunk) :
    blockChunks (chunk :: rest) = chunk.blocks ++ blockChunks rest := rfl

@[simp] theorem memberChunks_nil : memberChunks [] = [] := rfl

@[simp] theorem memberChunks_append (first rest : List Chunk) :
    memberChunks (first ++ rest) = memberChunks first ++ memberChunks rest := by
  simp [memberChunks]

@[simp] theorem memberChunks_cons (chunk : Chunk) (rest : List Chunk) :
    memberChunks (chunk :: rest) =
      chunk.blocks.flatMap BlockChunk.members ++ memberChunks rest := by
  simp [memberChunks]

/-- Ordinary lines are chunks without a region or a block. -/
theorem plain_chunks (lines : List Text) (ordinary : ∀ line ∈ lines, Ordinary (lineBody line)) :
    ∃ chunks, chunkLines chunks = lines ∧ regionChunks chunks = [] ∧ blockChunks chunks = [] := by
  induction lines with
  | nil => exact ⟨[], rfl, rfl, rfl⟩
  | cons line rest ih =>
      obtain ⟨chunks, whole, noRegion, noBlock⟩ := ih fun other member =>
        ordinary other (by simp [member])
      refine ⟨.plain line (ordinary line (by simp)) :: chunks, ?_, ?_, ?_⟩
      · simp [Chunk.lines, whole]
      · simpa [Chunk.regions] using noRegion
      · simpa [Chunk.blocks] using noBlock

/-! ## Scanning for regions -/

/-- The region a chunk shows to the scan when its first line has index `start`. -/
def RegionChunk.toRegion (r : RegionChunk) (start : Nat) : ManagedRegion :=
  ⟨r.identity.slug, r.identity.taskId, r.identity.digest, start, start + r.inner.length + 1,
    r.lines.map lineBody⟩

def Chunk.regionsAt (start : Nat) : Chunk → List ManagedRegion
  | .region r => [r.toRegion start]
  | _ => []

def regionsFrom : Nat → List Chunk → List ManagedRegion
  | _, [] => []
  | start, chunk :: rest => chunk.regionsAt start ++ regionsFrom (start + chunk.lines.length) rest

theorem scanRegions_quiet (all : List Text) (index : Nat) (opened : Option (Nat × Identity))
    (quiet rest : List Text)
    (silent : ∀ line ∈ quiet, matchBegin line = none ∧ matchEnd line = none) :
    scanRegions all index opened (quiet ++ rest) =
      scanRegions all (index + quiet.length) opened rest := by
  induction quiet generalizing index with
  | nil => rfl
  | cons line tail ih =>
      obtain ⟨noBegin, noEnd⟩ := silent line (by simp)
      have later : ∀ line ∈ tail, matchBegin line = none ∧ matchEnd line = none :=
        fun other member => silent other (by simp [member])
      have step : scanRegions all index opened (line :: (tail ++ rest)) =
          scanRegions all (index + 1) opened (tail ++ rest) := by
        simp only [scanRegions, noBegin, noEnd]
      rw [List.cons_append, step, ih (index + 1) later, List.length_cons]
      congr 1
      omega

theorem scanRegions_region (done rest : List Text) (r : RegionChunk) :
    scanRegions (done ++ (r.lines.map lineBody ++ rest)) done.length none
        (r.lines.map lineBody ++ rest) =
      (do
        let regions ← scanRegions (done ++ (r.lines.map lineBody ++ rest))
          (done.length + r.lines.length) none rest
        return r.toRegion done.length :: regions) := by
  have silent : ∀ line ∈ r.inner.map lineBody, matchBegin line = none ∧ matchEnd line = none := by
    intro line member
    obtain ⟨source, inside, rfl⟩ := List.mem_map.mp member
    exact ⟨(r.within source inside).1, (r.within source inside).2.1⟩
  have shape : r.lines.map lineBody ++ rest =
      lineBody r.opening :: (r.inner.map lineBody ++ (lineBody r.closing :: rest)) := by
    simp [RegionChunk.lines]
  have length : r.lines.length = r.inner.length + 2 := by simp [RegionChunk.lines]
  have taken : ((done ++ (r.lines.map lineBody ++ rest)).drop done.length).take
      (done.length + 1 + r.inner.length + 1 - done.length) = r.lines.map lineBody := by
    rw [List.drop_left, show done.length + 1 + r.inner.length + 1 - done.length =
      (r.lines.map lineBody).length by rw [List.length_map, length]; omega, List.take_left]
  generalize done ++ (r.lines.map lineBody ++ rest) = all at taken
  rw [shape]
  simp only [scanRegions, r.opens]
  rw [scanRegions_quiet all _ _ _ _ silent, List.length_map]
  simp only [scanRegions, (matchEnd_only r.closes).1, r.closes, ne_eq, not_true_eq_false, if_false,
    taken]
  rw [length, show done.length + (r.inner.length + 2) = done.length + 1 + r.inner.length + 1 by
    omega]
  simp only [RegionChunk.toRegion, show done.length + r.inner.length + 1 =
    done.length + 1 + r.inner.length by omega]

theorem Ordinary.silent {body : Text} (ordinary : Ordinary body) :
    matchBegin body = none ∧ matchEnd body = none :=
  ⟨ordinary.1, ordinary.2.1⟩

theorem MemberChunk.silent {m : MemberChunk} {line : Text} (member : line ∈ m.lines) :
    Enclosed (lineBody line) := by
  rcases List.mem_cons.mp member with rfl | inside
  · obtain ⟨noBegin, noEnd, noBlock, _⟩ := matchMember_only m.marks
    exact ⟨noBegin, noEnd, noBlock⟩
  · exact (m.within line inside).1

theorem BlockChunk.inside_enclosed {b : BlockChunk} {line : Text} (member : line ∈ b.inside) :
    Enclosed (lineBody line) := by
  rcases List.mem_append.mp member with early | late
  · exact (b.within line early).1
  · obtain ⟨m, _, inside⟩ := List.mem_flatMap.mp late
    exact MemberChunk.silent inside

theorem BlockChunk.silent {b : BlockChunk} {line : Text} (member : line ∈ b.lines) :
    matchBegin (lineBody line) = none ∧ matchEnd (lineBody line) = none := by
  simp only [BlockChunk.lines, List.cons_append, List.mem_cons, List.mem_append,
    List.not_mem_nil, or_false] at member
  rcases member with rfl | inside | rfl
  · obtain ⟨noBegin, noEnd, _⟩ := matchBlockBegin_only b.opens
    exact ⟨noBegin, noEnd⟩
  · obtain ⟨noBegin, noEnd, _⟩ := BlockChunk.inside_enclosed inside
    exact ⟨noBegin, noEnd⟩
  · obtain ⟨noBegin, noEnd, _⟩ := matchBlockEnd_only b.closes
    exact ⟨noBegin, noEnd⟩

theorem scanRegions_chunks (chunks : List Chunk) (done : List Text) :
    scanRegions (done ++ (chunkLines chunks).map lineBody) done.length none
        ((chunkLines chunks).map lineBody) = .ok (regionsFrom done.length chunks) := by
  induction chunks generalizing done with
  | nil => rfl
  | cons chunk rest ih =>
      have later := ih (done ++ chunk.lines.map lineBody)
      simp only [List.length_append, List.length_map, List.append_assoc] at later
      have quiet (silent : ∀ line ∈ chunk.lines, matchBegin (lineBody line) = none ∧
            matchEnd (lineBody line) = none) (bare : chunk.regionsAt done.length = []) :
          scanRegions (done ++ (chunkLines (chunk :: rest)).map lineBody) done.length none
            ((chunkLines (chunk :: rest)).map lineBody) =
              .ok (regionsFrom done.length (chunk :: rest)) := by
        rw [chunkLines_cons, List.map_append, scanRegions_quiet _ _ _ (chunk.lines.map lineBody),
          List.length_map, later, regionsFrom, bare, List.nil_append]
        intro line member
        obtain ⟨source, inside, rfl⟩ := List.mem_map.mp member
        exact silent source inside
      cases chunk with
      | plain line ordinary =>
          refine quiet ?_ rfl
          intro other member
          obtain rfl : other = line := by simpa [Chunk.lines] using member
          exact ordinary.silent
      | block b => exact quiet (fun line member => BlockChunk.silent member) rfl
      | region r =>
          simp only [chunkLines_cons, Chunk.lines, List.map_append] at later ⊢
          rw [scanRegions_region, later]
          rfl

theorem regionsFrom_append (start : Nat) (first rest : List Chunk) :
    regionsFrom start (first ++ rest) =
      regionsFrom start first ++ regionsFrom (start + (chunkLines first).length) rest := by
  induction first generalizing start with
  | nil => rfl
  | cons chunk tail ih =>
      simp only [List.cons_append, regionsFrom, ih, chunkLines_cons, List.length_append,
        List.append_assoc, Nat.add_assoc]

theorem mem_regionsFrom {start : Nat} {chunks : List Chunk} {region : ManagedRegion}
    (member : region ∈ regionsFrom start chunks) :
    ∃ r ∈ regionChunks chunks, ∃ at_, region = r.toRegion at_ := by
  induction chunks generalizing start with
  | nil => simp [regionsFrom] at member
  | cons chunk rest ih =>
      rw [regionsFrom, List.mem_append] at member
      rcases member with here | later
      · cases chunk with
        | region r =>
            refine ⟨r, by simp [Chunk.regions], start, ?_⟩
            simpa [Chunk.regionsAt] using here
        | plain line ordinary => simp [Chunk.regionsAt] at here
        | block b => simp [Chunk.regionsAt] at here
      · obtain ⟨r, inside, found⟩ := ih later
        exact ⟨r, by simp [inside], found⟩

/-- What does not depend on a region's place in the text. -/
theorem regionsFrom_map {α : Type} (view : ManagedRegion → α) (view' : RegionChunk → α)
    (same : ∀ r start, view (RegionChunk.toRegion r start) = view' r) (start : Nat)
    (chunks : List Chunk) :
    (regionsFrom start chunks).map view = (regionChunks chunks).map view' := by
  induction chunks generalizing start with
  | nil => rfl
  | cons chunk rest ih =>
      rw [regionsFrom, List.map_append, ih, regionChunks_cons, List.map_append]
      congr 1
      cases chunk <;> simp [Chunk.regionsAt, Chunk.regions, same]

def RegionChunk.slug (r : RegionChunk) : Text := r.identity.slug

def RegionChunk.taskId (r : RegionChunk) : Text := r.identity.taskId

/-- The chunks of a text: cut at the line ends, the text is their lines. -/
def Laid (content : Text) (chunks : List Chunk) : Prop := splitKeep content = chunkLines chunks

theorem findManagedRegions_eq_ok {content : Text} {chunks : List Chunk}
    (laid : Laid content chunks) {regions : List ManagedRegion} :
    findManagedRegions content = .ok regions ↔
      regions = regionsFrom 0 chunks ∧ ((regionChunks chunks).map RegionChunk.taskId).Nodup := by
  have scanned : scanRegions (splitLines content) 0 none (splitLines content) =
      .ok (regionsFrom 0 chunks) := by
    have whole := scanRegions_chunks chunks []
    simpa only [List.nil_append, List.length_nil, splitLines, laid, Laid] using
      (show splitKeep content = chunkLines chunks from laid) ▸ whole
  have ids : (regionsFrom 0 chunks).map ManagedRegion.taskId =
      (regionChunks chunks).map RegionChunk.taskId :=
    regionsFrom_map _ _ (fun _ _ => rfl) 0 chunks
  simp only [findManagedRegions, scanned, bind, Except.bind]
  cases unique : assertUnique (regionsFrom 0 chunks) with
  | error problem =>
      have repeated : ¬ ((regionChunks chunks).map RegionChunk.taskId).Nodup := by
        intro distinct
        rw [← ids] at distinct
        have accepted : assertUnique (regionsFrom 0 chunks) = .ok () :=
          assertDistinct_eq_ok.mpr ⟨distinct, by simp⟩
        rw [unique] at accepted
        cases accepted
      simp [repeated]
  | ok _ =>
      have distinct := (assertDistinct_eq_ok.mp unique).1
      rw [ids] at distinct
      simp only [distinct, and_true]
      constructor
      · intro same
        exact (Except.ok.inj same).symm
      · rintro rfl
        rfl

/-! ## Replacing and removing a region -/

theorem regionsFrom_find_none {slug : Text} {chunks : List Chunk}
    (absent : ∀ r ∈ regionChunks chunks, r.slug ≠ slug) (start : Nat) :
    (regionsFrom start chunks).find? (fun region => region.slug = slug) = none := by
  rw [List.find?_eq_none]
  intro region member
  obtain ⟨r, inside, _, rfl⟩ := mem_regionsFrom member
  exact decide_eq_true_iff.not.mpr (absent r inside)

theorem regionsFrom_find {before after : List Chunk} {r : RegionChunk}
    (absent : ∀ other ∈ regionChunks before, other.slug ≠ r.slug) :
    (regionsFrom 0 (before ++ .region r :: after)).find? (fun region => region.slug = r.slug) =
      some (r.toRegion (chunkLines before).length) := by
  rw [regionsFrom_append, List.find?_append, regionsFrom_find_none absent]
  simp [regionsFrom, Chunk.regionsAt, RegionChunk.toRegion, RegionChunk.slug]

theorem split_at_chunk (before : List Chunk) (middle : Chunk) (after : List Chunk) (stop : Nat)
    (length : stop + 1 = (chunkLines before).length + middle.lines.length) :
    (chunkLines (before ++ middle :: after)).take (chunkLines before).length = chunkLines before ∧
      (chunkLines (before ++ middle :: after)).drop (stop + 1) = chunkLines after := by
  refine ⟨by simp, ?_⟩
  rw [length, chunkLines_append, chunkLines_cons, ← List.append_assoc, List.drop_left']
  simp

theorem replaceRegion_present {content : Text} (rendered : Text) {before after : List Chunk}
    {r : RegionChunk} (laid : Laid content (before ++ .region r :: after))
    (distinct : ((regionChunks (before ++ .region r :: after)).map RegionChunk.taskId).Nodup)
    (absent : ∀ other ∈ regionChunks before, other.slug ≠ r.slug) :
    replaceRegion content r.slug rendered =
      .ok (chunkLines before ++ splitKeep rendered ++ chunkLines after).flatten := by
  have found := (findManagedRegions_eq_ok laid).mpr ⟨rfl, distinct⟩
  obtain ⟨front, back⟩ := split_at_chunk before (.region r) after
    ((chunkLines before).length + r.inner.length + 1) (by simp [Chunk.lines, RegionChunk.lines]; omega)
  simp only [replaceRegion, found, bind, Except.bind, regionsFrom_find absent,
    RegionChunk.toRegion, show splitKeep content = _ from laid, front, back]
  rfl

theorem removeRegion_present {content : Text} {before after : List Chunk} {r : RegionChunk}
    (laid : Laid content (before ++ .region r :: after))
    (distinct : ((regionChunks (before ++ .region r :: after)).map RegionChunk.taskId).Nodup)
    (absent : ∀ other ∈ regionChunks before, other.slug ≠ r.slug) :
    removeRegion content r.slug = .ok (chunkLines before ++ chunkLines after).flatten := by
  have found := (findManagedRegions_eq_ok laid).mpr ⟨rfl, distinct⟩
  obtain ⟨front, back⟩ := split_at_chunk before (.region r) after
    ((chunkLines before).length + r.inner.length + 1) (by simp [Chunk.lines, RegionChunk.lines]; omega)
  simp only [removeRegion, found, bind, Except.bind, regionsFrom_find absent,
    RegionChunk.toRegion, show splitKeep content = _ from laid, front, back]
  rfl

theorem replaceRegion_absent {content slug rendered : Text} {chunks : List Chunk}
    (laid : Laid content chunks)
    (distinct : ((regionChunks chunks).map RegionChunk.taskId).Nodup)
    (absent : ∀ r ∈ regionChunks chunks, r.slug ≠ slug) :
    replaceRegion content slug rendered = .ok (appended content rendered) := by
  have found := (findManagedRegions_eq_ok laid).mpr ⟨rfl, distinct⟩
  simp only [replaceRegion, found, bind, Except.bind, regionsFrom_find_none absent]
  rfl

theorem removeRegion_absent {content slug : Text} {chunks : List Chunk}
    (laid : Laid content chunks)
    (distinct : ((regionChunks chunks).map RegionChunk.taskId).Nodup)
    (absent : ∀ r ∈ regionChunks chunks, r.slug ≠ slug) :
    removeRegion content slug = .ok content := by
  have found := (findManagedRegions_eq_ok laid).mpr ⟨rfl, distinct⟩
  simp only [removeRegion, found, bind, Except.bind, regionsFrom_find_none absent]
  rfl

/-- A text with a region of the slug splits at the first one. -/
theorem split_at_region {slug : Text} {chunks : List Chunk}
    (present : ∃ r ∈ regionChunks chunks, r.slug = slug) :
    ∃ before r after, chunks = before ++ .region r :: after ∧ r.slug = slug ∧
      ∀ other ∈ regionChunks before, other.slug ≠ slug := by
  induction chunks with
  | nil => simp [regionChunks] at present
  | cons chunk rest ih =>
      have later (skip : ∀ r ∈ chunk.regions, r.slug ≠ slug) :
          ∃ before r after, chunk :: rest = before ++ .region r :: after ∧ r.slug = slug ∧
            ∀ other ∈ regionChunks before, other.slug ≠ slug := by
        obtain ⟨r, member, named⟩ := present
        rw [regionChunks_cons, List.mem_append] at member
        rcases member with here | inRest
        · exact absurd named (skip r here)
        · obtain ⟨before, r, after, rfl, named, absent⟩ := ih ⟨r, inRest, named⟩
          refine ⟨chunk :: before, r, after, rfl, named, ?_⟩
          intro other member
          rcases List.mem_append.mp member with here | inBefore
          · exact skip other here
          · exact absent other inBefore
      cases chunk with
      | plain line ordinary => exact later (by simp [Chunk.regions])
      | block b => exact later (by simp [Chunk.regions])
      | region r =>
          by_cases named : r.slug = slug
          · exact ⟨[], r, rest, rfl, named, by simp [regionChunks]⟩
          · exact later (by simpa [Chunk.regions] using named)

/-! ## Scanning for the block -/

theorem scanBlock_quiet (index : Nat) (start stop : Option Nat) (quiet rest : List Text)
    (silent : ∀ line ∈ quiet, matchBlockBegin line = none ∧ matchBlockEnd line = none) :
    scanBlock index start stop (quiet ++ rest) =
      scanBlock (index + quiet.length) start stop rest := by
  induction quiet generalizing index with
  | nil => rfl
  | cons line tail ih =>
      obtain ⟨noBegin, noEnd⟩ := silent line (by simp)
      have later : ∀ line ∈ tail, matchBlockBegin line = none ∧ matchBlockEnd line = none :=
        fun other member => silent other (by simp [member])
      have step : scanBlock index start stop (line :: (tail ++ rest)) =
          scanBlock (index + 1) start stop (tail ++ rest) := by
        simp [scanBlock, noBegin, noEnd]
      rw [List.cons_append, step, ih (index + 1) later, List.length_cons]
      congr 1
      omega

/-- Inside the block an end marker only moves the provisional end. -/
theorem scanBlock_inside (index start : Nat) (stop : Option Nat) (inside rest : List Text)
    (enclosed : ∀ line ∈ inside, matchBlockBegin line = none) :
    ∃ stop', scanBlock index (some start) stop (inside ++ rest) =
      scanBlock (index + inside.length) (some start) stop' rest := by
  induction inside generalizing index stop with
  | nil => exact ⟨stop, rfl⟩
  | cons line tail ih =>
      have noBegin := enclosed line (by simp)
      have later : ∀ line ∈ tail, matchBlockBegin line = none :=
        fun other member => enclosed other (by simp [member])
      have step : ∃ stop'', scanBlock index (some start) stop (line :: (tail ++ rest)) =
          scanBlock (index + 1) (some start) stop'' (tail ++ rest) := by
        cases ends : matchBlockEnd line with
        | none => exact ⟨stop, by simp [scanBlock, noBegin, ends]⟩
        | some _ => exact ⟨some index, by simp [scanBlock, noBegin, ends]⟩
      obtain ⟨stop'', moved⟩ := step
      obtain ⟨stop', final⟩ := ih (index + 1) stop'' later
      refine ⟨stop', ?_⟩
      rw [List.cons_append, moved, final, List.length_cons]
      congr 1
      omega

theorem chunks_silent {chunks : List Chunk} (none_ : blockChunks chunks = []) :
    ∀ line ∈ (chunkLines chunks).map lineBody,
      matchBlockBegin line = none ∧ matchBlockEnd line = none := by
  intro line member
  obtain ⟨source, inLines, rfl⟩ := List.mem_map.mp member
  obtain ⟨chunk, inChunks, inChunk⟩ := List.mem_flatMap.mp inLines
  cases chunk with
  | plain line ordinary =>
      obtain rfl : source = line := by simpa [Chunk.lines] using inChunk
      exact ordinary.2.2
  | block b =>
      have held : b ∈ blockChunks chunks :=
        List.mem_flatMap.mpr ⟨.block b, inChunks, by simp [Chunk.blocks]⟩
      simp [none_] at held
  | region r =>
      simp only [Chunk.lines, RegionChunk.lines, List.cons_append, List.mem_cons, List.mem_append,
        List.not_mem_nil, or_false] at inChunk
      rcases inChunk with rfl | inside | rfl
      · exact (matchBegin_only r.opens).2
      · exact (r.within source inside).2.2
      · exact (matchEnd_only r.closes).2

theorem blockBounds_none {content : Text} {chunks : List Chunk} (laid : Laid content chunks)
    (none_ : blockChunks chunks = []) : blockBounds content = .ok none := by
  have scanned : scanBlock 0 none none (splitLines content) = .ok (none, none) := by
    have quiet := scanBlock_quiet 0 none none _ [] (chunks_silent none_)
    rw [List.append_nil] at quiet
    rw [splitLines, show splitKeep content = _ from laid, quiet]
    rfl
  simp only [blockBounds, scanned, bind, Except.bind]
  rfl

theorem blockBounds_some {content : Text} {before after : List Chunk} {b : BlockChunk}
    (laid : Laid content (before ++ .block b :: after)) (first : blockChunks before = [])
    (last : blockChunks after = []) :
    blockBounds content = .ok (some ((chunkLines before).length,
      (chunkLines before).length + b.inside.length + 1)) := by
  have shape : splitLines content = (chunkLines before).map lineBody ++ (lineBody b.opening ::
      (b.inside.map lineBody ++ (lineBody b.closing :: (chunkLines after).map lineBody))) := by
    rw [splitLines, show splitKeep content = _ from laid]
    simp [Chunk.lines, BlockChunk.lines]
  have enclosed : ∀ line ∈ b.inside.map lineBody, matchBlockBegin line = none := by
    intro line member
    obtain ⟨source, inside, rfl⟩ := List.mem_map.mp member
    exact (BlockChunk.inside_enclosed inside).2.2
  have scanned : scanBlock 0 none none (splitLines content) =
      .ok (some (chunkLines before).length,
        some ((chunkLines before).length + b.inside.length + 1)) := by
    rw [shape, scanBlock_quiet _ _ _ _ _ (chunks_silent first), List.length_map, Nat.zero_add]
    simp only [scanBlock, b.opens, Option.isSome_some, if_true]
    obtain ⟨stop', inside⟩ := scanBlock_inside ((chunkLines before).length + 1)
      (chunkLines before).length none (b.inside.map lineBody)
      (lineBody b.closing :: (chunkLines after).map lineBody) enclosed
    rw [inside, List.length_map]
    have quiet := scanBlock_quiet ((chunkLines before).length + 1 + b.inside.length + 1)
      (some (chunkLines before).length)
      (some ((chunkLines before).length + 1 + b.inside.length)) _ [] (chunks_silent last)
    rw [List.append_nil] at quiet
    simp only [scanBlock, (matchBlockEnd_only b.closes).2.2, b.closes, Option.isSome_some,
      Option.isSome_none, Bool.false_eq_true, if_false, if_true, quiet]
    rw [show (chunkLines before).length + b.inside.length + 1 =
      (chunkLines before).length + 1 + b.inside.length by omega]
  simp only [blockBounds, scanned, bind, Except.bind]
  rfl

/-! ## Reading the members -/

def MemberChunk.toMember (m : MemberChunk) : BlockMember :=
  Cron.toMember m.identity (m.lines.map lineBody)

def MemberChunk.slug (m : MemberChunk) : Text := m.identity.slug

def MemberChunk.taskId (m : MemberChunk) : Text := m.identity.taskId

theorem scanMembers_skip (quiet rest : List Text)
    (silent : ∀ line ∈ quiet, matchMember line = none) :
    scanMembers none (quiet ++ rest) = scanMembers none rest := by
  induction quiet with
  | nil => rfl
  | cons line tail ih =>
      have later : ∀ line ∈ tail, matchMember line = none :=
        fun other member => silent other (by simp [member])
      simp only [List.cons_append, scanMembers, silent line (by simp), ih later]

theorem scanMembers_collect (identity : Identity) (body quiet rest : List Text)
    (silent : ∀ line ∈ quiet, matchMember line = none) :
    scanMembers (some (identity, body)) (quiet ++ rest) =
      scanMembers (some (identity, body ++ quiet)) rest := by
  induction quiet generalizing body with
  | nil => simp
  | cons line tail ih =>
      have later : ∀ line ∈ tail, matchMember line = none :=
        fun other member => silent other (by simp [member])
      simp only [List.cons_append, scanMembers, silent line (by simp), ih (body ++ [line]) later]
      simp

theorem scanMembers_current (identity : Identity) (body : List Text)
    (members : List MemberChunk) :
    scanMembers (some (identity, body)) ((members.flatMap MemberChunk.lines).map lineBody) =
      Cron.toMember identity body :: members.map MemberChunk.toMember := by
  induction members generalizing identity body with
  | nil => rfl
  | cons m rest ih =>
      have silent : ∀ line ∈ m.body.map lineBody, matchMember line = none := by
        intro line member
        obtain ⟨source, inside, rfl⟩ := List.mem_map.mp member
        exact (m.within source inside).2
      simp only [List.flatMap_cons, MemberChunk.lines, List.cons_append, List.map_cons,
        List.map_append, scanMembers, m.marks]
      rw [scanMembers_collect _ _ _ _ silent, ih]
      simp [MemberChunk.toMember, MemberChunk.lines]

theorem scanMembers_block (b : BlockChunk) :
    scanMembers none (b.inside.map lineBody) = b.members.map MemberChunk.toMember := by
  have silent : ∀ line ∈ b.preamble.map lineBody, matchMember line = none := by
    intro line member
    obtain ⟨source, inside, rfl⟩ := List.mem_map.mp member
    exact (b.within source inside).2
  rw [BlockChunk.inside, List.map_append, scanMembers_skip _ _ silent]
  cases b.members with
  | nil => rfl
  | cons m rest =>
      have body : ∀ line ∈ m.body.map lineBody, matchMember line = none := by
        intro line member
        obtain ⟨source, inside, rfl⟩ := List.mem_map.mp member
        exact (m.within source inside).2
      simp only [List.flatMap_cons, MemberChunk.lines, List.cons_append, List.map_cons,
        List.map_append, scanMembers, m.marks]
      rw [scanMembers_collect _ _ _ _ body, scanMembers_current]
      simp [MemberChunk.toMember, MemberChunk.lines]

/-- A text has no block, or splits at the only one. -/
theorem split_at_block {chunks : List Chunk} (single : (blockChunks chunks).length ≤ 1) :
    blockChunks chunks = [] ∨ ∃ before b after, chunks = before ++ .block b :: after ∧
      blockChunks before = [] ∧ blockChunks after = [] := by
  induction chunks with
  | nil => exact Or.inl rfl
  | cons chunk rest ih =>
      have later (bare : chunk.blocks = []) : blockChunks (chunk :: rest) = [] ∨
          ∃ before b after, chunk :: rest = before ++ .block b :: after ∧
            blockChunks before = [] ∧ blockChunks after = [] := by
        rw [blockChunks_cons, bare, List.nil_append] at single ⊢
        rcases ih single with none_ | ⟨before, b, after, rfl, first, last⟩
        · exact Or.inl none_
        · exact Or.inr ⟨chunk :: before, b, after, rfl, by simp [bare, first], last⟩
      cases chunk with
      | plain line ordinary => exact later rfl
      | region r => exact later rfl
      | block b =>
          refine Or.inr ⟨[], b, rest, rfl, rfl, ?_⟩
          simpa [Chunk.blocks] using single

theorem memberChunks_split {before after : List Chunk} {b : BlockChunk}
    (first : blockChunks before = []) (last : blockChunks after = []) :
    memberChunks (before ++ .block b :: after) = b.members := by
  simp [memberChunks, first, last, Chunk.blocks]

theorem findBlockMembers_eq_ok {content : Text} {chunks : List Chunk} (laid : Laid content chunks)
    (single : (blockChunks chunks).length ≤ 1) {members : List BlockMember} :
    findBlockMembers content = .ok members ↔
      members = (memberChunks chunks).map MemberChunk.toMember ∧
        ((memberChunks chunks).map MemberChunk.taskId).Nodup := by
  rcases split_at_block single with none_ | ⟨before, b, after, rfl, first, last⟩
  · have empty : findBlockMembers content = .ok [] := by
      simp only [findBlockMembers, blockBounds_none laid none_, bind, Except.bind]
      rfl
    simp [empty, memberChunks, none_, eq_comm]
  have cut : ((splitLines content).take ((chunkLines before).length + b.inside.length + 1)).drop
      ((chunkLines before).length + 1) = b.inside.map lineBody := by
    have shape : splitLines content = ((chunkLines before).map lineBody ++ [lineBody b.opening]) ++
        (b.inside.map lineBody ++ (lineBody b.closing :: (chunkLines after).map lineBody)) := by
      rw [splitLines, show splitKeep content = _ from laid]
      simp [Chunk.lines, BlockChunk.lines]
    rw [shape, List.drop_take, List.drop_left' (by simp), List.take_left']
    simp
  have ids : (b.members.map MemberChunk.toMember).map BlockMember.taskId =
      b.members.map MemberChunk.taskId := by
    rw [List.map_map]
    rfl
  rw [memberChunks_split first last]
  simp only [findBlockMembers, blockBounds_some laid first last, bind, Except.bind, cut,
    scanMembers_block]
  cases unique : assertMembersUnique (b.members.map MemberChunk.toMember) with
  | error problem =>
      have repeated : ¬ (b.members.map MemberChunk.taskId).Nodup := by
        intro distinct
        rw [← ids] at distinct
        have accepted : assertMembersUnique (b.members.map MemberChunk.toMember) = .ok () :=
          assertDistinct_eq_ok.mpr ⟨distinct, by simp⟩
        rw [unique] at accepted
        cases accepted
      simp [repeated]
  | ok _ =>
      have distinct := (assertDistinct_eq_ok.mp unique).1
      rw [ids] at distinct
      simp only [distinct, and_true]
      constructor
      · intro same
        exact (Except.ok.inj same).symm
      · rintro rfl
        rfl

end TaskControl.Cron
