import TaskControl.Cron.ExactlyOnce

/-!
# What an edit spares

An edit of a crontab spares a slug's surroundings when the lines of every other
entry stand together in the new text and the unmanaged lines stand in it in
their order.  Nothing is assumed of the text that is put in, other than that its
last line is ended.
-/

set_option autoImplicit false

namespace TaskControl.Cron

open PythonText

/-- The new text keeps the lines of the entries of other slugs, and the unmanaged lines. -/
structure Spares (slug text text' : Text) : Prop where
  regions : ∀ found, findManagedRegions text = .ok found → ∀ region ∈ found, region.slug ≠ slug →
    region.lines <:+: splitLines text'
  members : ∀ found, findBlockMembers text = .ok found → ∀ member ∈ found, member.slug ≠ slug →
    member.lines <:+: splitLines text'
  unmanaged : (unmanagedLines text).Sublist (splitLines text')

/-! ## Reading a written text -/

/-- A text that is empty or whose last line is ended. -/
def Finished (text : Text) : Prop := text = [] ∨ ∃ body, text = body ++ ['\n']

theorem finished_joinLines (lines : List Text) : Finished (joinLines lines) := by
  induction lines using List.reverseRecOn with
  | nil => exact Or.inl rfl
  | append_singleton init last _ =>
      refine Or.inr ⟨joinLines init ++ last, ?_⟩
      rw [joinLines_append]
      simp [joinLines]

theorem Finished.append {first rest : Text} (left : Finished first) (right : Finished rest) :
    Finished (first ++ rest) := by
  rcases right with rfl | ⟨body, rfl⟩
  · rwa [List.append_nil]
  · exact Or.inr ⟨first ++ body, by simp⟩

/-- After an ended line, reading starts anew. -/
theorem translateNewlines_line (first rest : Text) :
    translateNewlines (first ++ '\n' :: rest) =
      translateNewlines (first ++ ['\n']) ++ translateNewlines rest := by
  induction first using translateNewlines.induct with
  | case1 => rfl
  | case2 tail ih => simp only [List.cons_append, translateNewlines, ih]
  | case3 c tail other ih =>
      cases tail with
      | nil =>
          by_cases carriage : c = '\r'
          · subst carriage
            rfl
          · rw [show [c] ++ '\n' :: rest = [c, '\n'] ++ rest from rfl,
              translateNewlines_append (by simp [Ne.symm carriage])]
            rw [show [c] ++ ['\n'] = [c, '\n'] ++ [] from rfl,
              translateNewlines_append (by simp [Ne.symm carriage])]
            rfl
      | cons d more =>
          have apart (after : Text) : translateNewlines (c :: d :: more ++ after) =
              (if c = '\r' then '\n' else c) :: translateNewlines (d :: more ++ after) := by
            rw [List.cons_append, List.cons_append, translateNewlines]
            rintro later carriage ⟨rfl, rfl⟩
            exact other more carriage rfl
          rw [apart, apart, ih]
          rfl

theorem finished_translate {text : Text} (finished : Finished text) :
    Finished (translateNewlines text) := by
  rcases finished with rfl | ⟨body, rfl⟩
  · exact Or.inl rfl
  · right
    induction body using translateNewlines.induct with
    | case1 => exact ⟨[], rfl⟩
    | case2 tail ih =>
        obtain ⟨rest, same⟩ := ih
        exact ⟨'\n' :: rest, by simp only [List.cons_append, translateNewlines, same]⟩
    | case3 c tail other ih =>
        obtain ⟨rest, same⟩ := ih
        cases tail with
        | nil =>
            by_cases carriage : c = '\r'
            · subst carriage
              exact ⟨[], rfl⟩
            · refine ⟨[c], ?_⟩
              rw [show [c] ++ ['\n'] = [c, '\n'] ++ [] from rfl,
                translateNewlines_append (by simp [Ne.symm carriage])]
              rfl
        | cons d more =>
            refine ⟨(if c = '\r' then '\n' else c) :: rest, ?_⟩
            rw [List.cons_append, List.cons_append, translateNewlines, ← List.cons_append, same]
            · rfl
            · rintro later carriage ⟨rfl, rfl⟩
              exact other more carriage rfl

/-- The lines that a text-mode read finds. -/
def readLines (text : Text) : List Text := splitLines (translateNewlines text)

theorem readLines_carriageFree {text : Text} (carriageFree : '\r' ∉ text) :
    readLines text = splitLines text := by
  rw [readLines, translateNewlines_carriageFree carriageFree]

theorem readLines_finished {first : Text} (finished : Finished first) (rest : Text) :
    readLines (first ++ rest) = readLines first ++ readLines rest := by
  have closed := finished_translate finished
  rcases finished with rfl | ⟨body, rfl⟩
  · rfl
  · rw [readLines, List.append_assoc, List.singleton_append, translateNewlines_line]
    apply splitLines_append
    rcases closed with empty | ⟨body', same⟩
    · rw [empty]
      exact closed_nil
    · rw [same]
      exact closed_newline body'

theorem unbroken_carriageFree {line : Text} (unbroken : Unbroken line) : '\r' ∉ line := by
  intro member
  have clear := unbroken '\r' member
  simp [isLineBreak_carriage] at clear

theorem readLines_joinLines {lines : List Text} (unbroken : ∀ line ∈ lines, Unbroken line) :
    readLines (joinLines lines) = lines := by
  have free : '\r' ∉ joinLines lines := by
    intro member
    obtain ⟨line, held, inside⟩ := List.mem_flatMap.mp member
    rcases List.mem_append.mp inside with inLine | inEnd
    · exact unbroken_carriageFree (unbroken line held) inLine
    · simp at inEnd
  have joined := splitLines_joinLines unbroken []
  rw [List.append_nil] at joined
  rw [readLines_carriageFree free, joined]
  exact List.append_nil lines

/-- Lines written between ended texts are read back. -/
theorem joinLines_within {before : Text} (finished : Finished before) {lines : List Text}
    (unbroken : ∀ line ∈ lines, Unbroken line) (after : Text) :
    lines <:+: readLines (before ++ joinLines lines ++ after) := by
  rw [List.append_assoc, readLines_finished finished, readLines_finished (finished_joinLines lines),
    readLines_joinLines unbroken]
  exact ⟨readLines before, readLines after, by simp⟩

/-! ## Cutting lines out -/

/-- Where lines are cut out and a text put in, the lines on both sides stay. -/
theorem readLines_cut {text : Text} (carriageFree : '\r' ∉ text) {start stop : Nat}
    (within : stop < (splitKeep text).length) (order : start ≤ stop) {new : Text}
    (finished : Finished new) :
    readLines (((splitKeep text).take start ++ [new] ++ (splitKeep text).drop (stop + 1)).flatten) =
      (splitLines text).take start ++ readLines new ++ (splitLines text).drop (stop + 1) := by
  have kept := keptLines_splitKeep carriageFree
  have front : ∀ line ∈ (splitKeep text).take start, Terminated line := by
    rw [← List.take_append_drop start (splitKeep text)] at kept
    refine ((keptLines_append _ ?_).mp kept).1
    intro empty
    have length := congrArg List.length empty
    rw [List.length_drop, List.length_nil] at length
    omega
  have back : KeptLines ((splitKeep text).drop (stop + 1)) := by
    by_cases empty : (splitKeep text).drop (stop + 1) = []
    · rw [empty]
      trivial
    · rw [← List.take_append_drop (stop + 1) (splitKeep text)] at kept
      exact ((keptLines_append _ empty).mp kept).2
  have frontFree : '\r' ∉ ((splitKeep text).take start).flatten := by
    intro member
    obtain ⟨line, held, inside⟩ := List.mem_flatten.mp member
    exact (front line held).carriageFree inside
  rw [List.flatten_append, List.flatten_append, List.flatten_singleton, List.append_assoc,
    readLines, translateNewlines_append frontFree, splitLines, splitKeep_terminated front,
    List.map_append, ← splitLines, ← readLines, readLines_finished finished,
    readLines_carriageFree back.carriageFree, splitLines, splitLines, back.splitKeep_flatten,
    List.map_take, List.map_drop, List.append_assoc]

theorem readLines_appended {text new : Text} (carriageFree : '\r' ∉ text) :
    splitLines text <+: readLines (appended text new) := by
  unfold appended
  split
  · rename_i empty
    subst empty
    exact List.nil_prefix
  · rename_i nonempty
    have sealed_ : '\r' ∉ text ++ separator text := by
      unfold separator
      split <;> simp [carriageFree]
    have closed : Closed (text ++ separator text) := by
      unfold separator
      split
      · rename_i ends
        rw [List.append_nil]
        exact closed_of_endsWithNewline ends
      · exact closed_newline text
    have kept : splitLines text <+: splitLines (text ++ separator text) := by
      unfold separator
      split
      · rw [List.append_nil]
      · rename_i unended
        rcases splitKeep_newline nonempty (by simpa using unended) with
          ⟨init, last, whole, ended, same⟩ | apart
        · rw [splitLines, splitLines, whole, ended]
          simp [same]
        · rw [splitLines, splitLines, apart, List.map_append]
          exact List.prefix_append _ _
    rw [readLines, translateNewlines_append sealed_, splitLines_append closed]
    exact kept.trans (List.prefix_append _ _)

section Slices

variable {lines new : List Text} {start stop : Nat}

/-- A slice on one side of a cut stays together. -/
theorem slice_within {first last : Nat} (apart : last < start ∨ stop < first) :
    (lines.drop first).take (last + 1 - first) <:+:
      lines.take start ++ new ++ lines.drop (stop + 1) := by
  rcases apart with before | after
  · have inside : (lines.drop first).take (last + 1 - first) <:+: lines.take start := by
      rw [show (lines.drop first).take (last + 1 - first) =
        ((lines.take start).drop first).take (last + 1 - first) by
          rw [List.drop_take, List.take_take, Nat.min_eq_left (by omega)]]
      exact (List.take_prefix _ _).isInfix.trans (List.drop_suffix _ _).isInfix
    rw [List.append_assoc]
    exact inside.trans (List.prefix_append _ _).isInfix
  · have inside : (lines.drop first).take (last + 1 - first) <:+: lines.drop (stop + 1) := by
      rw [show lines.drop first = (lines.drop (stop + 1)).drop (first - (stop + 1)) by
        rw [List.drop_drop]
        congr 1
        omega]
      exact (List.take_prefix _ _).isInfix.trans (List.drop_suffix _ _).isInfix
    exact inside.trans (List.suffix_append _ _).isInfix

/-- Lines that are not covered survive a cut of covered ones. -/
theorem uncovered_cut {covered : Nat → Bool} (order : start ≤ stop)
    (within : stop < lines.length)
    (all : ∀ index, start ≤ index → index ≤ stop → covered index = true) :
    (uncovered covered 0 lines).Sublist (lines.take start ++ new ++ lines.drop (stop + 1)) := by
  have parts : lines = lines.take start ++ ((lines.drop start).take (stop + 1 - start) ++
      lines.drop (stop + 1)) := by
    rw [show lines.drop (stop + 1) = (lines.drop start).drop (stop + 1 - start) by
      rw [List.drop_drop]
      congr 1
      omega]
    rw [List.take_append_drop, List.take_append_drop]
  have cut : uncovered covered (0 + (lines.take start).length)
      ((lines.drop start).take (stop + 1 - start)) = [] := by
    apply uncovered_all
    intro index low high
    rw [List.length_take] at low high
    rw [List.length_take, List.length_drop] at high
    exact all index (by omega) (by omega)
  conv => lhs; rw [parts]
  rw [uncovered_append, uncovered_append, cut, List.nil_append, List.append_assoc]
  apply (uncovered_sublist _ _ _).append
  exact (uncovered_sublist _ _ _).trans (List.sublist_append_right _ _)

end Slices

/-! ## Where entries stand -/

theorem scanRegions_lines {all lines : List Text} {index : Nat}
    {opened : Option (Nat × Identity)} {regions : List ManagedRegion}
    (scanned : scanRegions all index opened lines = .ok regions) :
    ∀ region ∈ regions,
      region.lines = (all.drop region.start).take (region.stop + 1 - region.start) := by
  induction lines generalizing index opened regions with
  | nil =>
      cases opened with
      | none =>
          cases scanned
          simp
      | some open_ => cases scanned
  | cons line rest ih =>
      rw [scanRegions] at scanned
      split at scanned
      · split at scanned
        · cases scanned
        · exact ih scanned
      · split at scanned
        · exact ih scanned
        · split at scanned
          · cases scanned
          · split at scanned
            · cases scanned
            · obtain ⟨later, tail, returned⟩ := Effects.except_bind_eq_ok.mp scanned
              cases returned
              intro region member
              rcases List.mem_cons.mp member with rfl | inLater
              · rfl
              · exact ih tail region inLater

theorem scanRegions_apart {all lines : List Text} {index : Nat}
    {opened : Option (Nat × Identity)} {regions : List ManagedRegion}
    (scanned : scanRegions all index opened lines = .ok regions) :
    regions.Pairwise fun first second => first.stop < second.start := by
  induction lines generalizing index opened regions with
  | nil =>
      cases opened with
      | none =>
          cases scanned
          exact List.Pairwise.nil
      | some open_ => cases scanned
  | cons line rest ih =>
      rw [scanRegions] at scanned
      split at scanned
      · split at scanned
        · cases scanned
        · exact ih scanned
      · split at scanned
        · exact ih scanned
        · split at scanned
          · cases scanned
          · split at scanned
            · cases scanned
            · obtain ⟨later, tail, returned⟩ := Effects.except_bind_eq_ok.mp scanned
              cases returned
              refine List.Pairwise.cons (fun region inLater => ?_) (ih tail)
              have within := scanRegions_within (le_refl _) tail region inLater
              exact within.1

theorem scanMembers_within (current : Option (Identity × List Text)) (lines : List Text) :
    ∀ member ∈ scanMembers current lines,
      member.lines <:+: (current.map Prod.snd).getD [] ++ lines := by
  induction lines generalizing current with
  | nil =>
      cases current with
      | none => simp [scanMembers]
      | some open_ =>
          intro member held
          rw [List.mem_singleton.mp held]
          exact ⟨[], [], by simp [toMember]⟩
  | cons line rest ih =>
      intro member held
      cases marks : matchMember line with
      | some identity =>
          cases current with
          | none =>
              simp only [scanMembers, marks] at held
              exact ih (some (identity, [line])) member held
          | some open_ =>
              simp only [scanMembers, marks] at held
              rcases List.mem_cons.mp held with rfl | later
              · exact ⟨[], line :: rest, by simp [toMember]⟩
              · have inside := ih (some (identity, [line])) member later
                exact inside.trans (List.suffix_append open_.2 (line :: rest)).isInfix
      | none =>
          cases current with
          | none =>
              simp only [scanMembers, marks] at held
              exact (ih none member held).trans (List.suffix_cons line rest).isInfix
          | some open_ =>
              simp only [scanMembers, marks] at held
              have inside := ih (some (open_.1, open_.2 ++ [line])) member held
              simpa using inside

/-- A region found in a text is a slice of its lines, and so is each member of its block. -/
theorem region_slice {text : Text} {found : List ManagedRegion}
    (scanned : findManagedRegions text = .ok found) {region : ManagedRegion}
    (member : region ∈ found) :
    region.lines = ((splitLines text).drop region.start).take (region.stop + 1 - region.start) ∧
      region.start ≤ region.stop ∧ region.stop < (splitLines text).length := by
  have scan := findManagedRegions_scan scanned
  have within := scanRegions_within (le_refl _) scan region member
  refine ⟨scanRegions_lines scan region member, within.2.1, ?_⟩
  omega

theorem regions_apart {text : Text} {found : List ManagedRegion}
    (scanned : findManagedRegions text = .ok found) {first second : ManagedRegion}
    (held : first ∈ found) (held' : second ∈ found) (differs : first ≠ second) :
    first.stop < second.start ∨ second.stop < first.start := by
  have pairs := scanRegions_apart (findManagedRegions_scan scanned)
  clear scanned
  induction pairs with
  | nil => cases held
  | cons later _ ih =>
      rcases List.mem_cons.mp held with rfl | inRest
      · rcases List.mem_cons.mp held' with rfl | inRest'
        · exact absurd rfl differs
        · exact Or.inl (later second inRest')
      · rcases List.mem_cons.mp held' with rfl | inRest'
        · exact Or.inr (later first inRest)
        · exact ih inRest inRest'

/-- The lines between the markers of the block. -/
theorem member_within {text : Text} {found : List BlockMember}
    (scanned : findBlockMembers text = .ok found) {member : BlockMember} (held : member ∈ found) :
    ∃ start stop, blockBounds text = .ok (some (start, stop)) ∧ start < stop ∧
      stop < (splitLines text).length ∧
        member.lines <:+: ((splitLines text).drop (start + 1)).take (stop - (start + 1)) := by
  obtain ⟨bounds, foundBounds, reading⟩ := Effects.except_bind_eq_ok.mp scanned
  cases bounds with
  | none =>
      obtain rfl := Except.ok.inj reading
      cases held
  | some bounds =>
      obtain ⟨start, stop⟩ := bounds
      obtain ⟨_, _, returned⟩ := Effects.except_bind_eq_ok.mp reading
      obtain rfl := Except.ok.inj returned
      rcases blockBounds_cases foundBounds with ⟨none_, _⟩ | ⟨before, opening, inside, closing, after,
        shape, same, _⟩
      · cases none_
      · obtain ⟨rfl, rfl⟩ := Prod.mk.inj (Option.some.inj same)
        have length : (splitLines text).length = before.length + inside.length + 2 + after.length := by
          rw [splitLines, List.length_map, shape]
          simp only [List.length_append, List.length_cons]
          omega
        refine ⟨_, _, foundBounds, by omega, by omega, ?_⟩
        have infix_ := scanMembers_within none _ member held
        simp only [Option.map_none, Option.getD_none, List.nil_append] at infix_
        rwa [List.drop_take] at infix_

/-! ## The edits -/

section Edits

variable {slug text text' : Text}

theorem region_within {found : List ManagedRegion} (scanned : findManagedRegions text = .ok found)
    {region : ManagedRegion} (member : region ∈ found) : region.lines <:+: splitLines text := by
  rw [(region_slice scanned member).1]
  exact (List.take_prefix _ _).isInfix.trans (List.drop_suffix _ _).isInfix

theorem blockMember_within {found : List BlockMember} (scanned : findBlockMembers text = .ok found)
    {member : BlockMember} (held : member ∈ found) : member.lines <:+: splitLines text := by
  obtain ⟨_, _, _, _, _, inside⟩ := member_within scanned held
  exact inside.trans ((List.take_prefix _ _).isInfix.trans (List.drop_suffix _ _).isInfix)

/-- A text that keeps all lines together spares everything. -/
theorem spares_prefix (kept : splitLines text <+: splitLines text') : Spares slug text text' := by
  constructor
  · intro found scanned region member _
    exact (region_within scanned member).trans kept.isInfix
  · intro found scanned member held _
    exact (blockMember_within scanned held).trans kept.isInfix
  · exact (uncovered_sublist _ _ _).trans kept.sublist

/-- Cutting out lines that are managed and belong to no other entry. -/
theorem spares_cut {new : List Text} {start stop : Nat} (order : start ≤ stop)
    (within : stop < (splitLines text).length)
    (cut : splitLines text' = (splitLines text).take start ++ new ++ (splitLines text).drop (stop + 1))
    (regions : ∀ found, findManagedRegions text = .ok found → ∀ region ∈ found,
      region.slug ≠ slug → region.stop < start ∨ stop < region.start)
    (members : ∀ found, findBlockMembers text = .ok found → ∀ member ∈ found, member.slug ≠ slug →
      member.lines <:+: new ∨ ∀ first last, blockBounds text = .ok (some (first, last)) →
        last < start ∨ stop < first)
    (managed : ∀ index, start ≤ index → index ≤ stop →
      covers ((findManagedRegions text).toOption.getD []) (blockBounds text).toOption.join index =
        true) : Spares slug text text' := by
  constructor
  · intro found scanned region member other
    rw [(region_slice scanned member).1, cut]
    exact slice_within (regions found scanned region member other)
  · intro found scanned member held other
    obtain ⟨first, last, bounds, nonempty, _, inside⟩ := member_within scanned held
    rw [cut]
    rcases members found scanned member held other with here | apart
    · exact here.trans ⟨_, _, rfl⟩
    · apply inside.trans
      have sides := apart first last bounds
      have slice := @slice_within (splitLines text) new start stop (first + 1) (last - 1) (by omega)
      rwa [show last - 1 + 1 - (first + 1) = last - (first + 1) by omega] at slice
  · rw [cut]
    exact uncovered_cut order within managed

theorem covers_region {regions : List ManagedRegion} {block : Option (Nat × Nat)}
    {region : ManagedRegion} (member : region ∈ regions) {index : Nat}
    (low : region.start ≤ index) (high : index ≤ region.stop) :
    covers regions block index = true := by
  have held : regions.any (fun region => decide (region.start ≤ index ∧ index ≤ region.stop)) = true :=
    List.any_eq_true.mpr ⟨region, member, by simp [low, high]⟩
  rw [covers, held]
  rfl

/-- The slug has a region in the text. -/
def HeldInRegion (slug text : Text) : Prop :=
  ∃ found, findManagedRegions text = .ok found ∧ ∃ region ∈ found, region.slug = slug

theorem replaceRegion_spares {rendered final : Text} (carriageFree : '\r' ∉ text)
    (finished : Finished rendered) (separate : HeldInRegion slug text → Separate text)
    (replaced : replaceRegion text slug rendered = .ok final) :
    Spares slug text (translateNewlines final) := by
  obtain ⟨found, scanned, returned⟩ := Effects.except_bind_eq_ok.mp replaced
  cases first : found.find? (·.slug = slug) with
  | none =>
      simp only [first] at returned
      rw [← Except.ok.inj returned]
      exact spares_prefix (readLines_appended carriageFree)
  | some existing =>
      simp only [first] at returned
      have member := List.mem_of_find?_eq_some first
      have named : existing.slug = slug := by simpa using List.find?_some first
      obtain ⟨_, order, within⟩ := region_slice scanned member
      have apart := separate ⟨found, scanned, existing, member, named⟩
      have kept : existing.stop < (splitKeep text).length := by
        rwa [splitLines, List.length_map] at within
      have cut := readLines_cut carriageFree kept order finished
      have same : ((splitKeep text).take existing.start ++ [rendered] ++
          (splitKeep text).drop (existing.stop + 1)).flatten = final := by
        rw [← Except.ok.inj returned]
        simp [splitKeep_flatten]
      rw [same] at cut
      apply spares_cut order within cut
      · intro found' scanned' region member' other
        obtain rfl := Except.ok.inj (scanned.symm.trans scanned')
        apply regions_apart scanned member' member
        rintro rfl
        exact other named
      · intro _ _ _ _ _
        right
        intro first' last bounds
        have sides := apart found first' last scanned bounds existing member
        omega
      · intro index low high
        rw [scanned]
        exact covers_region member low high

theorem finished_flatten {texts : List Text} (finished : ∀ text ∈ texts, Finished text) :
    Finished texts.flatten := by
  induction texts with
  | nil => exact Or.inl rfl
  | cons text rest ih =>
      rw [List.flatten_cons]
      exact (finished text List.mem_cons_self).append
        (ih fun other member => finished other (List.mem_cons_of_mem text member))

theorem finished_block (members : List Text) : Finished (blockText members.flatten) :=
  Or.inr ⟨blockBeginMarker ++ '\n' :: generatedNotice ++ '\n' :: members.flatten ++ blockEndMarker,
    rfl⟩

/-- The lines of a member's text that is put into the block are read back. -/
theorem member_in_block {members : List Text} (finished : ∀ text ∈ members, Finished text)
    {lines : List Text} (unbroken : ∀ line ∈ lines, Unbroken line)
    (member : joinLines lines ∈ members) : lines <:+: readLines (blockText members.flatten) := by
  obtain ⟨before, after, rfl⟩ := List.append_of_mem member
  have header : Finished (blockBeginMarker ++ '\n' :: generatedNotice ++ ['\n']) := Or.inr ⟨_, rfl⟩
  have front : Finished before.flatten :=
    finished_flatten fun text held => finished text (List.mem_append_left _ held)
  have whole := joinLines_within (header.append front) unbroken
    (after.flatten ++ blockEndMarker ++ ['\n'])
  have same : blockBeginMarker ++ '\n' :: generatedNotice ++ ['\n'] ++ before.flatten ++
      joinLines lines ++ (after.flatten ++ blockEndMarker ++ ['\n']) =
        blockText (before ++ joinLines lines :: after).flatten := by
    simp [blockText]
  rwa [same] at whole

theorem upsertBlockMember_spares {member final : Text} (carriageFree : '\r' ∉ text)
    (finished : Finished member) (separate : Separate text)
    (upserted : upsertBlockMember text slug member = .ok final) :
    Spares slug text (translateNewlines final) := by
  obtain ⟨bounds, foundBounds, writing⟩ := Effects.except_bind_eq_ok.mp upserted
  cases bounds with
  | none =>
      rw [← Except.ok.inj writing]
      exact spares_prefix (readLines_appended carriageFree)
  | some bounds =>
      obtain ⟨start, stop⟩ := bounds
      obtain ⟨members, scanned, returned⟩ := Effects.except_bind_eq_ok.mp writing
      rcases blockBounds_cases foundBounds with ⟨none_, _⟩ | ⟨before, opening, inside, closing, after,
        shape, same, _⟩
      · cases none_
      obtain ⟨rfl, rfl⟩ := Prod.mk.inj (Option.some.inj same)
      have kept : before.length + inside.length + 1 < (splitKeep text).length := by
        rw [shape]
        simp only [List.length_append, List.length_cons]
        omega
      have texts (existing : BlockMember) (held : existing ∈ members) :
          ∀ line ∈ existing.lines, Unbroken line := by
        obtain ⟨_, _, _, _, _, infix_⟩ := member_within scanned held
        intro line inLines
        apply @unbroken_of_mem_splitLines text
        exact List.mem_of_mem_drop (List.mem_of_mem_take (infix_.subset inLines))
      let rebuilt := members.map fun existing => if existing.slug = slug then member else existing.text
      let written := if members.any (·.slug = slug) then rebuilt else rebuilt ++ [member]
      have ended : ∀ text ∈ rebuilt, Finished text := by
        intro text held
        obtain ⟨existing, _, rfl⟩ := List.mem_map.mp held
        split
        · exact finished
        · exact finished_joinLines existing.lines
      have finished' : ∀ text ∈ written, Finished text := by
        intro text held
        simp only [written] at held
        split at held
        · exact ended text held
        · rcases List.mem_append.mp held with inRebuilt | last
          · exact ended text inRebuilt
          · rw [List.mem_singleton.mp last]
            exact finished
      have cut := readLines_cut carriageFree kept (show before.length ≤ _ by omega)
        (finished_block written)
      have final_ : ((splitKeep text).take before.length ++ [blockText written.flatten] ++
          (splitKeep text).drop (before.length + inside.length + 1 + 1)).flatten = final :=
        Except.ok.inj returned
      rw [final_] at cut
      apply spares_cut (by omega) (by rwa [splitLines, List.length_map]) cut
      · intro found scannedRegions region held _
        exact separate found _ _ scannedRegions foundBounds region held
      · intro found scanned' existing held other
        obtain rfl := Except.ok.inj (scanned.symm.trans scanned')
        left
        apply member_in_block finished' (texts existing held)
        have inRebuilt : joinLines existing.lines ∈ rebuilt :=
          List.mem_map.mpr ⟨existing, held, if_neg other⟩
        simp only [written]
        split
        · exact inRebuilt
        · exact List.mem_append_left _ inRebuilt
      · intro index low high
        rw [foundBounds]
        have inBlock : before.length ≤ index ∧ index ≤ before.length + inside.length + 1 := ⟨low, high⟩
        simp [covers, Except.toOption, inBlock]

theorem joinLines_injective {first second : List Text} (left : ∀ line ∈ first, Unbroken line)
    (right : ∀ line ∈ second, Unbroken line) (same : joinLines first = joinLines second) :
    first = second := by
  rw [← readLines_joinLines left, same, readLines_joinLines right]

/-- Two regions, or two members, with the same text have the same lines. -/
theorem lines_of_entry {text text' : Text} {first second : List Text}
    (left : ∀ line ∈ first, line ∈ splitLines text) (right : ∀ line ∈ second, line ∈ splitLines text')
    (same : joinLines first = joinLines second) : first = second :=
  joinLines_injective (fun line member => unbroken_of_mem_splitLines (left line member))
    (fun line member => unbroken_of_mem_splitLines (right line member)) same

theorem withoutEntry_spares {inRegion inBlock : Bool} {final : Text} (carriageFree : '\r' ∉ text)
    (held : heldForms slug text = .ok (inRegion, inBlock)) (separate : Separate text)
    (removed : withoutEntry slug inRegion inBlock text = .ok final) :
    Spares slug text (translateNewlines final) := by
  obtain ⟨regions, foundRegions, scanning⟩ := Effects.except_bind_eq_ok.mp held
  obtain ⟨members, foundMembers, _⟩ := Effects.except_bind_eq_ok.mp scanning
  have shelf := shelf_of_separate carriageFree foundRegions foundMembers separate
  have forms := @heldForms_ok slug text _ _ shelf
  obtain ⟨rfl, rfl⟩ := Prod.mk.inj (Except.ok.inj (held.symm.trans forms))
  obtain ⟨final', removed', shelf', plain⟩ := withoutEntry_ok slug shelf
  obtain rfl := Except.ok.inj (removed.symm.trans removed')
  rw [translateNewlines_carriageFree shelf'.arranged.carriageFree]
  obtain ⟨left, scanned, leftEntries⟩ := shelf'.regions
  obtain ⟨left', scanned', leftEntries'⟩ := shelf'.members
  constructor
  · intro found scan region member other
    obtain rfl := Except.ok.inj (foundRegions.symm.trans scan)
    have kept : region.entry ∈ left.map ManagedRegion.entry := by
      rw [leftEntries]
      apply (List.mem_eraseP_of_neg _).mpr (List.mem_map_of_mem member)
      exact decide_eq_true_iff.not.mpr other
    obtain ⟨region', member', same⟩ := List.mem_map.mp kept
    have lines : region.lines = region'.lines :=
      lines_of_entry (fun line inLines => (region_within scan member).subset inLines)
        (fun line inLines => (region_within scanned member').subset inLines)
        (congrArg ManagedEntry.text same).symm
    rw [lines]
    exact region_within scanned member'
  · intro found scan member held' other
    obtain rfl := Except.ok.inj (foundMembers.symm.trans scan)
    have kept : member.entry ∈ left'.map BlockMember.entry := by
      rw [leftEntries']
      exact List.mem_filter.mpr
        ⟨List.mem_map_of_mem held', decide_eq_true other⟩
    obtain ⟨member', inLeft, same⟩ := List.mem_map.mp kept
    have lines : member.lines = member'.lines :=
      lines_of_entry (fun line inLines => (blockMember_within scan held').subset inLines)
        (fun line inLines => (blockMember_within scanned' inLeft).subset inLines)
        (congrArg ManagedEntry.text same).symm
    rw [lines]
    exact blockMember_within scanned' inLeft
  · rw [← plain]
    exact uncovered_sublist _ _ _

end Edits

end TaskControl.Cron
