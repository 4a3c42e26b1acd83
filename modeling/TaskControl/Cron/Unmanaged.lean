import TaskControl.Cron.Laying

/-!
# The unmanaged lines of a crontab

A line is managed when it stands in a region or in the block.  The other lines,
in their order, are what an operator wrote.
-/

set_option autoImplicit false

namespace TaskControl.Cron

open PythonText

/-- The index of a line inside a region or the block. -/
def covers (regions : List ManagedRegion) (block : Option (Nat × Nat)) (index : Nat) : Bool :=
  regions.any (fun region => decide (region.start ≤ index ∧ index ≤ region.stop)) ||
    block.any fun bounds => decide (bounds.1 ≤ index ∧ index ≤ bounds.2)

/-- The lines whose indices are not covered, the first having index `start`. -/
def uncovered (covered : Nat → Bool) (start : Nat) (lines : List Text) : List Text :=
  ((lines.zipIdx start).filter fun line => !covered line.2).map Prod.fst

/-- The lines outside the regions and the block of a text. -/
def unmanagedLines (text : Text) : List Text :=
  uncovered (covers ((findManagedRegions text).toOption.getD [])
    (blockBounds text).toOption.join) 0 (splitLines text)

/-! ## Lines that are not covered -/

theorem uncovered_append (covered : Nat → Bool) (start : Nat) (first rest : List Text) :
    uncovered covered start (first ++ rest) =
      uncovered covered start first ++ uncovered covered (start + first.length) rest := by
  simp [uncovered, List.zipIdx_append]

theorem uncovered_all {covered : Nat → Bool} {start : Nat} {lines : List Text}
    (all : ∀ index, start ≤ index → index < start + lines.length → covered index = true) :
    uncovered covered start lines = [] := by
  unfold uncovered
  rw [List.map_eq_nil_iff, List.filter_eq_nil_iff]
  rintro ⟨line, index⟩ member
  have bounds := List.mem_zipIdx member
  simp [all index bounds.1 bounds.2.1]

theorem uncovered_none {covered : Nat → Bool} {start : Nat} {lines : List Text}
    (none_ : ∀ index, start ≤ index → index < start + lines.length → covered index = false) :
    uncovered covered start lines = lines := by
  unfold uncovered
  rw [List.filter_eq_self.mpr]
  · simp [List.zipIdx_map_fst]
  · rintro ⟨line, index⟩ member
    have bounds := List.mem_zipIdx member
    simp [none_ index bounds.1 bounds.2.1]

theorem uncovered_sublist (covered : Nat → Bool) (start : Nat) (lines : List Text) :
    (uncovered covered start lines).Sublist lines := by
  have whole : (lines.zipIdx start).map Prod.fst = lines := by simp
  conv => rhs; rw [← whole]
  exact List.filter_sublist.map _

/-! ## The plain lines of a chunked text -/

def Chunk.plainLines : Chunk → List Text
  | .plain line _ => [lineBody line]
  | _ => []

def plainLines (chunks : List Chunk) : List Text := chunks.flatMap Chunk.plainLines

@[simp] theorem plainLines_nil : plainLines [] = [] := rfl

@[simp] theorem plainLines_cons (chunk : Chunk) (rest : List Chunk) :
    plainLines (chunk :: rest) = chunk.plainLines ++ plainLines rest := rfl

@[simp] theorem plainLines_append (first rest : List Chunk) :
    plainLines (first ++ rest) = plainLines first ++ plainLines rest := by
  simp [plainLines]

/-- Whether each chunk from `start` on is covered, as its kind says. -/
def CoveredAs (covered : Nat → Bool) : Nat → List Chunk → Prop
  | _, [] => True
  | start, chunk :: rest =>
      (∀ index, start ≤ index → index < start + chunk.lines.length →
        covered index = chunk.plainLines.isEmpty) ∧
      CoveredAs covered (start + chunk.lines.length) rest

theorem uncovered_chunks {covered : Nat → Bool} {start : Nat} {chunks : List Chunk}
    (as : CoveredAs covered start chunks) :
    uncovered covered start ((chunkLines chunks).map lineBody) = plainLines chunks := by
  induction chunks generalizing start with
  | nil => rfl
  | cons chunk rest ih =>
      obtain ⟨here, later⟩ := as
      rw [chunkLines_cons, List.map_append, uncovered_append, List.length_map, ih later,
        plainLines_cons]
      congr 1
      cases chunk with
      | plain line ordinary => exact uncovered_none (by simpa [Chunk.plainLines, Chunk.lines] using here)
      | region r => exact uncovered_all (by simpa [Chunk.plainLines, Chunk.lines] using here)
      | block b => exact uncovered_all (by simpa [Chunk.plainLines, Chunk.lines] using here)

theorem CoveredAs.congr {covered covered' : Nat → Bool} {start : Nat} {chunks : List Chunk}
    (as : CoveredAs covered start chunks)
    (same : ∀ index, start ≤ index → index < start + (chunkLines chunks).length →
      covered' index = covered index) : CoveredAs covered' start chunks := by
  induction chunks generalizing start with
  | nil => trivial
  | cons chunk rest ih =>
      rw [chunkLines_cons, List.length_append] at same
      refine ⟨fun index low high => ?_, ih as.2 fun index low high => ?_⟩
      · rw [same index low (by omega)]
        exact as.1 index low high
      · exact same index (by omega) (by omega)

theorem coveredAs_append {covered : Nat → Bool} {start : Nat} {first rest : List Chunk} :
    CoveredAs covered start (first ++ rest) ↔ CoveredAs covered start first ∧
      CoveredAs covered (start + (chunkLines first).length) rest := by
  induction first generalizing start with
  | nil => simp [CoveredAs]
  | cons chunk tail ih =>
      simp only [List.cons_append, CoveredAs, ih, chunkLines_cons, List.length_append, and_assoc,
        Nat.add_assoc]

/-! ## The regions' lines -/

theorem regionsFrom_bounds {start : Nat} {chunks : List Chunk} {region : ManagedRegion}
    (member : region ∈ regionsFrom start chunks) :
    start ≤ region.start ∧ region.start ≤ region.stop ∧
      region.stop < start + (chunkLines chunks).length := by
  induction chunks generalizing start with
  | nil => cases member
  | cons chunk rest ih =>
      rw [regionsFrom, List.mem_append] at member
      rw [chunkLines_cons, List.length_append]
      rcases member with here | later
      · cases chunk with
        | plain line ordinary => cases here
        | block b => cases here
        | region r =>
            obtain rfl := List.mem_singleton.mp here
            simp only [RegionChunk.toRegion, Chunk.lines, RegionChunk.lines, List.length_append,
              List.length_cons, List.length_nil]
            omega
      · have bounds := ih later
        omega

/-- Without a block, the regions of a chunked text cover the chunks that are regions. -/
theorem coveredAs_regions {start : Nat} {chunks : List Chunk} (none_ : blockChunks chunks = []) :
    CoveredAs (covers (regionsFrom start chunks) none) start chunks := by
  induction chunks generalizing start with
  | nil => trivial
  | cons chunk rest ih =>
      rw [blockChunks_cons, List.append_eq_nil_iff] at none_
      have outside {index : Nat} (high : index < start + chunk.lines.length) :
          covers (regionsFrom (start + chunk.lines.length) rest) none index = false := by
        simp only [covers, Option.any_none, Bool.or_false, List.any_eq_false, decide_eq_true_eq]
        intro region member
        have bounds := regionsFrom_bounds member
        omega
      constructor
      · intro index low high
        have later := outside high
        simp only [covers, Option.any_none, Bool.or_false] at later
        simp only [covers, regionsFrom, List.any_append, later, Option.any_none, Bool.or_false]
        cases chunk with
        | plain line ordinary => rfl
        | block b => cases none_.1
        | region r =>
            simp only [Chunk.lines, RegionChunk.lines, List.length_append, List.length_cons,
              List.length_nil] at high
            simp only [Chunk.regionsAt, RegionChunk.toRegion, List.any_cons, List.any_nil,
              Bool.or_false, Chunk.plainLines, List.isEmpty_nil, decide_eq_true_eq]
            omega
      · apply (ih none_.2).congr
        intro index low _
        have earlier : (chunk.regionsAt start).any
            (fun region => decide (region.start ≤ index ∧ index ≤ region.stop)) = false := by
          simp only [List.any_eq_false, decide_eq_true_eq]
          intro region member
          have bounds := @regionsFrom_bounds start [chunk] region (by simpa [regionsFrom] using member)
          simp only [chunkLines_cons, chunkLines_nil, List.append_nil] at bounds
          omega
        simp only [covers, regionsFrom, List.any_append, earlier, Bool.false_or]

/-- The block's lines are covered besides the regions of both sides. -/
theorem coveredAs_block {before after : List Chunk} {b : BlockChunk}
    (first : blockChunks before = []) (last : blockChunks after = []) :
    CoveredAs (covers (regionsFrom 0 (before ++ .block b :: after))
      (some ((chunkLines before).length, (chunkLines before).length + b.inside.length + 1))) 0
        (before ++ .block b :: after) := by
  have length : (Chunk.block b).lines.length = b.inside.length + 2 := by
    simp [Chunk.lines, BlockChunk.lines]
  rw [coveredAs_append, CoveredAs, Nat.zero_add, regionsFrom_append, regionsFrom, Nat.zero_add]
  refine ⟨(coveredAs_regions first).congr fun index _ high => ?_, fun index low high => ?_,
    (coveredAs_regions last).congr fun index low _ => ?_⟩
  · have later : (regionsFrom ((chunkLines before).length + (Chunk.block b).lines.length) after).any
        (fun region => decide (region.start ≤ index ∧ index ≤ region.stop)) = false := by
      simp only [List.any_eq_false, decide_eq_true_eq]
      intro region member
      have bounds := regionsFrom_bounds member
      omega
    have block : ¬ ((chunkLines before).length ≤ index ∧
        index ≤ (chunkLines before).length + b.inside.length + 1) := by omega
    simp only [covers, List.any_append, Chunk.regionsAt, List.any_nil, later, Bool.or_false,
      Option.any_some, block, decide_false, Option.any_none]
  · have block : (chunkLines before).length ≤ index ∧
        index ≤ (chunkLines before).length + b.inside.length + 1 := by omega
    simp [covers, block, Chunk.plainLines]
  · have earlier : (regionsFrom 0 before).any
        (fun region => decide (region.start ≤ index ∧ index ≤ region.stop)) = false := by
      simp only [List.any_eq_false, decide_eq_true_eq]
      intro region member
      have bounds := regionsFrom_bounds member
      omega
    have block : ¬ ((chunkLines before).length ≤ index ∧
        index ≤ (chunkLines before).length + b.inside.length + 1) := by omega
    simp only [covers, List.any_append, Chunk.regionsAt, List.any_nil, earlier, Bool.false_or,
      Option.any_some, block, decide_false, Bool.or_false, Option.any_none]

/-- The unmanaged lines of a chunked text are its plain lines. -/
theorem unmanagedLines_laid {text : Text} {chunks : List Chunk} (laid : Laid text chunks)
    (single : (blockChunks chunks).length ≤ 1)
    (distinct : ((regionChunks chunks).map RegionChunk.taskId).Nodup) :
    unmanagedLines text = plainLines chunks := by
  have regions := (findManagedRegions_eq_ok laid).mpr ⟨rfl, distinct⟩
  have lines : splitLines text = (chunkLines chunks).map lineBody := by
    rw [splitLines, show splitKeep text = _ from laid]
  unfold unmanagedLines
  rw [regions, lines]
  apply uncovered_chunks
  rcases split_at_block single with none_ | ⟨before, b, after, rfl, first, last⟩
  · rw [blockBounds_none laid none_]
    exact coveredAs_regions none_
  · rw [blockBounds_some laid first last]
    exact coveredAs_block first last

end TaskControl.Cron
