import TaskControl.Cron.Chunks

/-!
# Laying out a crontab

The converse of the scans: a text on which both scans succeed, and in which no
region overlaps the block, is a sequence of chunks.  The two scans do not know
of each other, so the overlap has to be excluded.
-/

set_option autoImplicit false

namespace TaskControl.Cron

open PythonText

/-- No region shares a line with the block. -/
def Separate (content : Text) : Prop :=
  ∀ regions start stop, findManagedRegions content = .ok regions →
    blockBounds content = .ok (some (start, stop)) →
      ∀ region ∈ regions, region.stop < start ∨ stop < region.start

theorem separate_blockless {content : Text} (none_ : (blockBounds content).toOption = some none) :
    Separate content := by
  intro regions start stop _ bounds
  rw [bounds] at none_
  cases none_

/-! ## Cutting the region scan -/

theorem scanRegions_opened {all lines : List Text} {index openAt : Nat} {opening : Identity}
    {regions : List ManagedRegion}
    (scanned : scanRegions all index (some (openAt, opening)) lines = .ok regions) :
    ∃ region ∈ regions, region.start = openAt ∧ index ≤ region.stop := by
  induction lines generalizing index regions with
  | nil => cases scanned
  | cons line rest ih =>
      rw [scanRegions] at scanned
      cases begins : matchBegin line with
      | some identity => simp [begins] at scanned
      | none =>
          simp only [begins] at scanned
          cases ends : matchEnd line with
          | none =>
              simp only [ends] at scanned
              obtain ⟨region, member, start, stop⟩ := ih scanned
              exact ⟨region, member, start, by omega⟩
          | some slug =>
              simp only [ends] at scanned
              split at scanned
              · cases scanned
              · simp only [bind, Except.bind] at scanned
                split at scanned
                · cases scanned
                · cases scanned
                  exact ⟨_, List.mem_cons_self, rfl, le_refl index⟩

theorem scanRegions_closed_nil {all lines : List Text} {index : Nat}
    (scanned : scanRegions all index none lines = .ok []) :
    ∀ line ∈ lines, matchBegin line = none ∧ matchEnd line = none := by
  induction lines generalizing index with
  | nil => simp
  | cons line rest ih =>
      rw [scanRegions] at scanned
      cases begins : matchBegin line with
      | some identity =>
          simp only [begins] at scanned
          obtain ⟨region, member, _⟩ := scanRegions_opened scanned
          cases member
      | none =>
          simp only [begins] at scanned
          cases ends : matchEnd line with
          | some slug => simp [ends] at scanned
          | none =>
              simp only [ends] at scanned
              intro other member
              rcases List.mem_cons.mp member with rfl | later
              · exact ⟨begins, ends⟩
              · exact ih scanned other later

/-- Where the first region that a scan can still find would start. -/
def firstStart (index : Nat) : Option (Nat × Identity) → Nat
  | none => index
  | some (openAt, _) => openAt

theorem scanRegions_within {all lines : List Text} {index : Nat}
    {opened : Option (Nat × Identity)} {regions : List ManagedRegion}
    (earlier : firstStart index opened ≤ index)
    (scanned : scanRegions all index opened lines = .ok regions) :
    ∀ region ∈ regions,
      firstStart index opened ≤ region.start ∧ region.start ≤ region.stop ∧
        region.stop < index + lines.length := by
  induction lines generalizing index opened regions with
  | nil =>
      cases opened with
      | none =>
          cases scanned
          simp
      | some open_ => cases scanned
  | cons line rest ih =>
      rw [scanRegions] at scanned
      rw [List.length_cons]
      cases begins : matchBegin line with
      | some identity =>
          simp only [begins] at scanned
          cases opened with
          | some open_ => cases scanned
          | none =>
              intro region member
              obtain ⟨start, order, stop⟩ := ih (Nat.le_succ index) scanned region member
              simp only [firstStart] at start ⊢
              omega
      | none =>
          simp only [begins] at scanned
          cases ends : matchEnd line with
          | none =>
              simp only [ends] at scanned
              intro region member
              obtain ⟨start, order, stop⟩ := ih (by cases opened <;> simp_all [firstStart]; omega) scanned
                region member
              cases opened <;> simp only [firstStart] at start ⊢ <;> omega
          | some slug =>
              simp only [ends] at scanned
              cases opened with
              | none => cases scanned
              | some open_ =>
                  simp only at scanned
                  split at scanned
                  · cases scanned
                  · simp only [bind, Except.bind] at scanned
                    split at scanned
                    · cases scanned
                    · rename_i tail
                      cases scanned
                      simp only [firstStart] at earlier ⊢
                      intro region member
                      rcases List.mem_cons.mp member with rfl | later
                      · simp only
                        omega
                      · obtain ⟨start, order, stop⟩ := ih (le_refl _) tail region later
                        simp only [firstStart] at start
                        omega

/-- A scan can be cut where no region is open. -/
theorem scanRegions_cut {all front rest : List Text} {index : Nat}
    {opened : Option (Nat × Identity)} {regions : List ManagedRegion}
    (earlier : ∀ open_ ∈ opened, open_.1 < index)
    (scanned : scanRegions all index opened (front ++ rest) = .ok regions)
    (apart : ∀ region ∈ regions,
      region.stop < index + front.length ∨ index + front.length ≤ region.start) :
    ∃ first second, scanRegions all index opened front = .ok first ∧
      scanRegions all (index + front.length) none rest = .ok second ∧
        regions = first ++ second := by
  induction front generalizing index opened regions with
  | nil =>
      cases opened with
      | none => exact ⟨[], regions, rfl, scanned, rfl⟩
      | some open_ =>
          -- the open region would end on the far side of the cut
          obtain ⟨region, member, start, stop⟩ := scanRegions_opened scanned
          have before := earlier open_ rfl
          rcases apart region member with left | right
          · simp only [List.length_nil] at left
            omega
          · simp only [List.length_nil] at right
            omega
  | cons line front ih =>
      rw [List.cons_append, scanRegions] at scanned
      rw [scanRegions]
      have length : index + (line :: front).length = index + 1 + front.length := by
        rw [List.length_cons]
        omega
      rw [length] at apart ⊢
      cases begins : matchBegin line with
      | some identity =>
          simp only [begins] at scanned ⊢
          cases opened with
          | some open_ => cases scanned
          | none =>
              exact ih (by simp) scanned apart
      | none =>
          simp only [begins] at scanned ⊢
          cases ends : matchEnd line with
          | none =>
              simp only [ends] at scanned ⊢
              exact ih (fun open_ inOpened => Nat.lt_succ_of_lt (earlier open_ inOpened)) scanned apart
          | some slug =>
              simp only [ends] at scanned ⊢
              cases opened with
              | none => cases scanned
              | some open_ =>
                  simp only at scanned ⊢
                  split at scanned
                  · cases scanned
                  · rename_i same
                    rw [if_neg same]
                    simp only [bind, Except.bind] at scanned
                    split at scanned
                    · cases scanned
                    · rename_i tail
                      cases scanned
                      obtain ⟨first, second, done, left, rfl⟩ := ih (by simp) tail
                        fun region member => apart region (List.mem_cons_of_mem _ member)
                      refine ⟨_ :: first, second, ?_, left, rfl⟩
                      rw [done]
                      rfl

/-! ## Chunks around the block -/

/-- No line opens or closes the block. -/
def Blockless (lines : List Text) : Prop :=
  ∀ line ∈ lines, matchBlockBegin (lineBody line) = none ∧ matchBlockEnd (lineBody line) = none

/-- What a scan with an open region reads: the rest of the region, then a closed scan. -/
theorem scanRegions_closes {all : List Text} {lines : List Text} {index openAt : Nat}
    {opening : Identity} {regions : List ManagedRegion}
    (scanned : scanRegions all index (some (openAt, opening)) (lines.map lineBody) = .ok regions) :
    ∃ inner closing rest regions', lines = inner ++ closing :: rest ∧
      (∀ line ∈ inner, matchBegin (lineBody line) = none ∧ matchEnd (lineBody line) = none) ∧
        matchEnd (lineBody closing) = some opening.slug ∧
          scanRegions all (index + inner.length + 1) none (rest.map lineBody) = .ok regions' := by
  induction lines generalizing index regions with
  | nil => cases scanned
  | cons line rest ih =>
      rw [List.map_cons, scanRegions] at scanned
      cases begins : matchBegin (lineBody line) with
      | some identity => simp [begins] at scanned
      | none =>
          simp only [begins] at scanned
          cases ends : matchEnd (lineBody line) with
          | none =>
              simp only [ends] at scanned
              obtain ⟨inner, closing, after, regions', rfl, quiet, closes, tail⟩ := ih scanned
              refine ⟨line :: inner, closing, after, regions', rfl, ?_, closes, ?_⟩
              · intro other member
                rcases List.mem_cons.mp member with rfl | inside
                · exact ⟨begins, ends⟩
                · exact quiet other inside
              · rw [← tail]
                congr 1
                simp only [List.length_cons]
                omega
          | some slug =>
              simp only [ends] at scanned
              split at scanned
              · cases scanned
              · rename_i same
                simp only [bind, Except.bind] at scanned
                split at scanned
                · cases scanned
                · rename_i tail
                  refine ⟨[], line, rest, _, rfl, by simp, ?_, tail⟩
                  rw [ends, not_ne_iff.mp same]

theorem chunks_of_scan {all : List Text} (lines : List Text) {index : Nat}
    {regions : List ManagedRegion} (blockless : Blockless lines)
    (scanned : scanRegions all index none (lines.map lineBody) = .ok regions) :
    ∃ chunks, chunkLines chunks = lines ∧ blockChunks chunks = [] := by
  induction length : lines.length using Nat.strong_induction_on generalizing lines index regions with
  | _ size ih =>
      cases lines with
      | nil => exact ⟨[], rfl, rfl⟩
      | cons line rest =>
          rw [List.map_cons, scanRegions] at scanned
          have quiet := blockless line List.mem_cons_self
          have below : ∀ other ∈ rest, other ∈ line :: rest :=
            fun other => List.mem_cons_of_mem line
          cases begins : matchBegin (lineBody line) with
          | some identity =>
              simp only [begins] at scanned
              obtain ⟨inner, closing, after, regions', rfl, silent, closes, tail⟩ :=
                scanRegions_closes scanned
              obtain ⟨chunks, flat, none_⟩ := ih after.length
                (by simp only [List.length_cons, List.length_append] at length; omega) after
                (fun other member => blockless other (by simp [member])) tail rfl
              let region : RegionChunk := ⟨identity, line, inner, closing, begins, closes,
                fun other member => ⟨(silent other member).1, (silent other member).2,
                  blockless other (by simp [member])⟩⟩
              refine ⟨.region region :: chunks, ?_, none_⟩
              simp [Chunk.lines, RegionChunk.lines, region, flat]
          | none =>
              simp only [begins] at scanned
              cases ends : matchEnd (lineBody line) with
              | some slug => simp [ends] at scanned
              | none =>
                  simp only [ends] at scanned
                  obtain ⟨chunks, flat, none_⟩ := ih rest.length (by simp at length; omega) rest
                    (fun other member => blockless other (below other member)) scanned rfl
                  refine ⟨.plain line ⟨begins, ends, quiet⟩ :: chunks, ?_, none_⟩
                  simp [Chunk.lines, flat]

/-! ## The block -/

theorem Blockless.cons {line : Text} {rest : List Text}
    (quiet : matchBlockBegin (lineBody line) = none ∧ matchBlockEnd (lineBody line) = none)
    (blockless : Blockless rest) : Blockless (line :: rest) := by
  intro other member
  rcases List.mem_cons.mp member with rfl | later
  · exact quiet
  · exact blockless other later

theorem scanBlock_started {lines : List Text} {index start : Nat} {earlier : Option Nat}
    {bounds : Option Nat × Option Nat}
    (scanned : scanBlock index (some start) earlier lines = .ok bounds) :
    bounds.1 = some start := by
  induction lines generalizing index earlier with
  | nil =>
      cases scanned
      rfl
  | cons line rest ih =>
      rw [scanBlock] at scanned
      split at scanned
      · cases scanned
      · split at scanned
        · exact ih scanned
        · exact ih scanned

/-- Where a scan inside the block puts the end: at the last end marker. -/
theorem scanBlock_closes {lines : List Text} {index start : Nat} {earlier stop : Option Nat}
    (scanned : scanBlock index (some start) earlier (lines.map lineBody) = .ok (some start, stop)) :
    (stop = earlier ∧ Blockless lines) ∨ ∃ inside closing after,
      lines = inside ++ closing :: after ∧ stop = some (index + inside.length) ∧
        (∀ line ∈ inside, matchBlockBegin (lineBody line) = none) ∧
          matchBlockEnd (lineBody closing) = some () ∧ Blockless after := by
  induction lines generalizing index earlier with
  | nil =>
      cases scanned
      exact Or.inl ⟨rfl, by simp [Blockless]⟩
  | cons line rest ih =>
      rw [List.map_cons, scanBlock] at scanned
      cases begins : matchBlockBegin (lineBody line) with
      | some _ => simp [begins] at scanned
      | none =>
          have later {inside : List Text} {closing : Text} {after : List Text}
              (shape : rest = inside ++ closing :: after)
              (ending : stop = some (index + 1 + inside.length))
              (open_ : ∀ line ∈ inside, matchBlockBegin (lineBody line) = none)
              (closes : matchBlockEnd (lineBody closing) = some ()) (quiet : Blockless after) :
              ∃ inside closing after, line :: rest = inside ++ closing :: after ∧
                stop = some (index + inside.length) ∧
                  (∀ line ∈ inside, matchBlockBegin (lineBody line) = none) ∧
                    matchBlockEnd (lineBody closing) = some () ∧ Blockless after := by
            refine ⟨line :: inside, closing, after, by rw [shape]; rfl, ?_, ?_, closes, quiet⟩
            · rw [ending, List.length_cons]
              congr 1
              omega
            · intro other member
              rcases List.mem_cons.mp member with rfl | within
              · exact begins
              · exact open_ other within
          cases ends : matchBlockEnd (lineBody line) with
          | some _ =>
              simp only [begins, ends, Option.isSome_none, Option.isSome_some, if_true,
                Bool.false_eq_true, if_false] at scanned
              rcases ih scanned with ⟨same, quiet⟩ | ⟨inside, closing, after, shape, ending, open_,
                closes, quiet⟩
              · exact Or.inr ⟨[], line, rest, rfl, same, by simp, ends, quiet⟩
              · exact Or.inr (later shape ending open_ closes quiet)
          | none =>
              simp only [begins, ends, Option.isSome_none, Bool.false_eq_true, if_false] at scanned
              rcases ih scanned with ⟨same, quiet⟩ | ⟨inside, closing, after, shape, ending, open_,
                closes, quiet⟩
              · exact Or.inl ⟨same, quiet.cons ⟨begins, ends⟩⟩
              · exact Or.inr (later shape ending open_ closes quiet)

/-- A text either has no block marker, or one opening that the last end marker closes. -/
theorem scanBlock_block {lines : List Text} {index : Nat} {bounds : Option Nat × Option Nat}
    (scanned : scanBlock index none none (lines.map lineBody) = .ok bounds) :
    (bounds.1 = none ∧ Blockless lines) ∨ ∃ start stop, bounds = (some start, stop) ∧
      ∀ last ∈ stop, ∃ before opening inside closing after,
        lines = before ++ opening :: inside ++ closing :: after ∧ start = index + before.length ∧
          last = start + inside.length + 1 ∧ Blockless before ∧ Blockless after ∧
            matchBlockBegin (lineBody opening) = some () ∧
              (∀ line ∈ inside, matchBlockBegin (lineBody line) = none) ∧
                matchBlockEnd (lineBody closing) = some () := by
  induction lines generalizing index with
  | nil =>
      cases scanned
      exact Or.inl ⟨rfl, by simp [Blockless]⟩
  | cons line rest ih =>
      rw [List.map_cons, scanBlock] at scanned
      cases begins : matchBlockBegin (lineBody line) with
      | some _ =>
          simp only [begins, Option.isSome_some, if_true] at scanned
          have start := scanBlock_started scanned
          refine Or.inr ⟨index, bounds.2, Prod.ext start rfl, fun last ending => ?_⟩
          have shape : bounds = (some index, bounds.2) := Prod.ext start rfl
          rw [shape] at scanned
          rcases scanBlock_closes scanned with ⟨same, _⟩ | ⟨inside, closing, after, rfl, stop, open_,
            closes, quiet⟩
          · rw [same] at ending
            cases ending
          · rw [stop] at ending
            obtain rfl := Option.some.inj ending
            exact ⟨[], line, inside, closing, after, rfl, rfl, by omega, by simp [Blockless], quiet,
              begins, open_, closes⟩
      | none =>
          cases ends : matchBlockEnd (lineBody line) with
          | some _ => simp [begins, ends] at scanned
          | none =>
              simp only [begins, ends, Option.isSome_none, Bool.false_eq_true, if_false] at scanned
              rcases ih scanned with ⟨bare, quiet⟩ | ⟨start, stop, same, found⟩
              · exact Or.inl ⟨bare, quiet.cons ⟨begins, ends⟩⟩
              · refine Or.inr ⟨start, stop, same, fun last ending => ?_⟩
                obtain ⟨before, opening, inside, closing, after, rfl, starts, lasts, quiet, rest_⟩ :=
                  found last ending
                refine ⟨line :: before, opening, inside, closing, after, rfl, ?_, lasts,
                  quiet.cons ⟨begins, ends⟩, rest_⟩
                rw [starts, List.length_cons]
                omega

theorem members_of_lines (lines : List Text) (enclosed : ∀ line ∈ lines, Enclosed (lineBody line)) :
    ∃ (preamble : List Text) (members : List MemberChunk),
      lines = preamble ++ members.flatMap MemberChunk.lines ∧
        ∀ line ∈ preamble, Enclosed (lineBody line) ∧ matchMember (lineBody line) = none := by
  induction lines with
  | nil => exact ⟨[], [], rfl, by simp⟩
  | cons line rest ih =>
      obtain ⟨preamble, members, rfl, quiet⟩ := ih fun other member =>
        enclosed other (List.mem_cons_of_mem line member)
      cases marks : matchMember (lineBody line) with
      | some identity => exact ⟨[], ⟨identity, line, preamble, marks, quiet⟩ :: members, rfl, by simp⟩
      | none =>
          refine ⟨line :: preamble, members, rfl, ?_⟩
          intro other member
          rcases List.mem_cons.mp member with rfl | inside
          · exact ⟨enclosed other List.mem_cons_self, marks⟩
          · exact quiet other inside

theorem findManagedRegions_scan {content : Text} {regions : List ManagedRegion}
    (found : findManagedRegions content = .ok regions) :
    scanRegions (splitLines content) 0 none (splitLines content) = .ok regions := by
  simp only [findManagedRegions, bind, Except.bind] at found
  split at found
  · cases found
  · rename_i scanned
    split at found
    · cases found
    · cases found
      exact scanned

theorem blockBounds_cases {content : Text} {bounds : Option (Nat × Nat)}
    (found : blockBounds content = .ok bounds) :
    (bounds = none ∧ Blockless (splitKeep content)) ∨ ∃ before opening inside closing after,
      splitKeep content = before ++ opening :: inside ++ closing :: after ∧
        bounds = some (before.length, before.length + inside.length + 1) ∧
          Blockless before ∧ Blockless after ∧ matchBlockBegin (lineBody opening) = some () ∧
            (∀ line ∈ inside, matchBlockBegin (lineBody line) = none) ∧
              matchBlockEnd (lineBody closing) = some () := by
  simp only [blockBounds, bind, Except.bind] at found
  split at found
  · cases found
  · rename_i ends scanned
    rcases scanBlock_block scanned with ⟨bare, quiet⟩ | ⟨start, stop, rfl, block⟩
    · obtain ⟨first, last⟩ := ends
      obtain rfl : first = none := bare
      cases found
      exact Or.inl ⟨rfl, quiet⟩
    · cases stop with
      | none => cases found
      | some stop =>
          cases found
          obtain ⟨before, opening, inside, closing, after, shape, rfl, rfl, rest⟩ := block stop rfl
          refine Or.inr ⟨before, opening, inside, closing, after, shape, ?_, rest⟩
          simp

theorem laid_of_separate {content : Text} {regions : List ManagedRegion}
    {members : List BlockMember} (foundRegions : findManagedRegions content = .ok regions)
    (foundMembers : findBlockMembers content = .ok members) (separate : Separate content) :
    ∃ chunks, Laid content chunks ∧ (blockChunks chunks).length ≤ 1 := by
  have scanned := findManagedRegions_scan foundRegions
  obtain ⟨bounds, found⟩ : ∃ bounds, blockBounds content = .ok bounds := by
    simp only [findBlockMembers, bind, Except.bind] at foundMembers
    split at foundMembers
    · cases foundMembers
    · exact ⟨_, ‹_›⟩
  rcases blockBounds_cases found with ⟨_, quiet⟩ | ⟨before, opening, inside, closing, after, shape,
    rfl, quietBefore, quietAfter, opens, single, closes⟩
  · obtain ⟨chunks, flat, none_⟩ := chunks_of_scan _ quiet scanned
    exact ⟨chunks, flat.symm, by simp [none_]⟩
  · have apart := separate regions _ _ foundRegions found
    -- no region is open where the block begins, nor where it ends
    have whole : splitLines content = before.map lineBody ++
        ((opening :: inside ++ [closing]).map lineBody ++ after.map lineBody) := by
      rw [splitLines, shape]
      simp
    generalize splitLines content = all at scanned whole
    have scanned' : scanRegions all 0 none (before.map lineBody ++
        ((opening :: inside ++ [closing]).map lineBody ++ after.map lineBody)) = .ok regions :=
      whole ▸ scanned
    obtain ⟨first, rest, scanBefore, scanRest, rfl⟩ := scanRegions_cut (by simp) scanned'
      fun region member => by
        rcases apart region member with left | right
        · simp only [List.length_map]
          omega
        · simp only [List.length_map]
          omega
    obtain ⟨second, third, scanBlock_, scanAfter, rfl⟩ := scanRegions_cut (by simp) scanRest
      fun region member => by
        rcases apart region (by simp [member]) with left | right
        · simp only [List.length_map, List.length_append, List.length_cons, List.length_nil]
          omega
        · simp only [List.length_map, List.length_append, List.length_cons, List.length_nil]
          omega
    have empty : second = [] := by
      refine List.eq_nil_iff_forall_not_mem.mpr fun region member => ?_
      obtain ⟨start, order, stop⟩ := scanRegions_within (le_refl _) scanBlock_ region member
      simp only [firstStart, List.length_map, List.length_append, List.length_cons,
        List.length_nil] at start stop
      rcases apart region (by simp [member]) with left | right <;> omega
    rw [empty] at scanBlock_
    have silent := scanRegions_closed_nil scanBlock_
    obtain ⟨preamble, blockMembers, within, quiet⟩ := members_of_lines inside fun line member =>
      have unmarked := silent (lineBody line) (List.mem_map_of_mem (by simp [member]))
      ⟨unmarked.1, unmarked.2, single line member⟩
    obtain ⟨front, flatFront, noneFront⟩ := chunks_of_scan before quietBefore scanBefore
    obtain ⟨back, flatBack, noneBack⟩ := chunks_of_scan after quietAfter scanAfter
    let block : BlockChunk := ⟨opening, preamble, blockMembers, closing, opens, closes, quiet⟩
    refine ⟨front ++ .block block :: back, ?_, by simp [noneFront, noneBack, Chunk.blocks]⟩
    rw [Laid, shape, chunkLines_append, chunkLines_cons, flatFront, flatBack, within]
    simp [Chunk.lines, BlockChunk.lines, BlockChunk.inside, block]

end TaskControl.Cron
