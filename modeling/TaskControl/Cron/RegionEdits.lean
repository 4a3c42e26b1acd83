import TaskControl.Cron.Segments

/-!
# Edits of one region

Replacing or removing the region of a slug cuts the text before the region's
first line and behind its last one, line ends included, and leaves both parts as
they are.  The other regions are found again as they were, whatever line ends
the text has.
-/

set_option autoImplicit false

namespace TaskControl.Cron

open PythonText

/-- A region as it is found, wherever it stands. -/
structure RegionView where
  slug : Text
  taskId : Text
  digest : Text
  text : Text
  deriving DecidableEq

def ManagedRegion.view (region : ManagedRegion) : RegionView :=
  ⟨region.slug, region.taskId, region.digest, region.text⟩

def Section.view (part : Section) : RegionView :=
  ⟨part.identity.slug, part.identity.taskId, part.identity.digest, joinLines part.lines⟩

/-- The views of the regions that a text is found to have. -/
def Shows (content : Text) (views : List RegionView) : Prop :=
  ∃ regions, findManagedRegions content = .ok regions ∧ regions.map ManagedRegion.view = views

/-- The text is one region from its first line to its last, which ends with a newline. -/
structure OneRegion (text : Text) (region : ManagedRegion) : Prop where
  found : findManagedRegions text = .ok [region]
  starts : region.start = 0
  whole : region.stop + 1 = (splitLines text).length
  ended : endsWithNewline text = true

/-! ## The segments of a text -/

theorem shows_segments {content : Text} {segments : List Segment}
    (cut : splitLines content = segmentLines segments)
    (distinct : ((sections segments).map Section.taskId).Nodup) :
    Shows content ((sections segments).map Section.view) :=
  ⟨regionsOf 0 segments, (findManagedRegions_segments cut).mpr ⟨rfl, distinct⟩,
    regionsOf_map _ _ (fun _ _ => rfl) 0 segments⟩

theorem regionsOf_ids (start : Nat) (segments : List Segment) :
    (regionsOf start segments).map ManagedRegion.taskId = (sections segments).map Section.taskId :=
  regionsOf_map _ _ (fun _ _ => rfl) start segments

theorem regionsOf_views (start : Nat) (segments : List Segment) :
    (regionsOf start segments).map ManagedRegion.view = (sections segments).map Section.view :=
  regionsOf_map _ _ (fun _ _ => rfl) start segments

theorem nodup_insert {ids others : List Text} {id : Text} (distinct : (ids ++ others).Nodup)
    (fresh : id ∉ ids ++ others) : (ids ++ ([id] ++ others)).Nodup :=
  List.nodup_middle.mpr (List.nodup_cons.mpr ⟨fresh, distinct⟩)

theorem regionsOf_eq_append {segments : List Segment} {start : Nat} {front back : List ManagedRegion}
    {region : ManagedRegion} (found : regionsOf start segments = front ++ region :: back) :
    ∃ before part after, segments = before ++ .region part :: after ∧
      front = regionsOf start before ∧
      region = part.toRegion (start + (segmentLines before).length) ∧
      back = regionsOf (start + (segmentLines before).length + part.lines.length) after := by
  induction segments generalizing start front with
  | nil =>
      cases front <;> cases found
  | cons segment rest ih =>
      cases segment with
      | plain line silent =>
          obtain ⟨before, part, after, rfl, rfl, rfl, rfl⟩ := ih found
          refine ⟨.plain line silent :: before, part, after, rfl, rfl, ?_, ?_⟩ <;>
            simp only [segmentLines_cons, List.length_append, Nat.add_assoc]
      | region other =>
          cases front with
          | nil =>
              obtain ⟨rfl, rfl⟩ := List.cons.inj found
              exact ⟨[], other, rest, rfl, rfl, rfl, rfl⟩
          | cons first front =>
              obtain ⟨rfl, later⟩ := List.cons.inj found
              obtain ⟨before, part, after, rfl, rfl, rfl, rfl⟩ := ih later
              refine ⟨.region other :: before, part, after, rfl, rfl, ?_, ?_⟩ <;>
                simp only [segmentLines_cons, List.length_append, Nat.add_assoc]

/-- A text that is one region has no other segment. -/
theorem OneRegion.lines {text : Text} {region : ManagedRegion} (one : OneRegion text region) :
    ∃ part, splitLines text = Section.lines part ∧ region = part.toRegion 0 := by
  obtain ⟨segments, cut⟩ := segments_of_found one.found
  obtain ⟨same, _⟩ := (findManagedRegions_segments cut).mp one.found
  obtain ⟨before, part, after, rfl, _, rfl, _⟩ := @regionsOf_eq_append segments 0 [] [] region same.symm
  have first : segmentLines before = [] := List.eq_nil_of_length_eq_zero (by
    have starts := one.starts
    rw [Section.toRegion_start] at starts
    omega)
  have whole := one.whole
  rw [part.toRegion_stop, cut, segmentLines_append, segmentLines_cons, first] at whole
  have last : segmentLines after = [] := List.eq_nil_of_length_eq_zero (by
    simp only [Segment.lines, List.length_append, List.length_nil] at whole
    omega)
  refine ⟨part, ?_, ?_⟩
  · rw [cut, segmentLines_append, segmentLines_cons, first, last]
    simp [Segment.lines]
  · rw [first]
    rfl

theorem find_first {front back : List ManagedRegion} {existing : ManagedRegion} {slug : Text}
    (named : existing.slug = slug) (first : ∀ region ∈ front, region.slug ≠ slug) :
    (front ++ existing :: back).find? (fun region => region.slug = slug) = some existing := by
  rw [List.find?_append, List.find?_eq_none.mpr fun region member => by
    simpa using first region member]
  simp [named]

/-! ## The text around a section -/

/-- The three parts of a text around a section, with their line ends. -/
structure Around (content : Text) (start count : Nat) (before region after : Text) : Prop where
  whole : content = before ++ region ++ after
  front : splitKeep before = (splitKeep content).take start
  middle : splitKeep region = ((splitKeep content).drop start).take count
  back : splitKeep after = (splitKeep content).drop (start + count)

theorem around (content : Text) (start count : Nat) :
    Around content start count ((splitKeep content).take start).flatten
      (((splitKeep content).drop start).take count).flatten
      ((splitKeep content).drop (start + count)).flatten := by
  have outer : splitKeep content =
      (splitKeep content).take start ++ (splitKeep content).drop start :=
    (List.take_append_drop _ _).symm
  have inner : splitKeep ((splitKeep content).drop start).flatten =
      ((splitKeep content).drop start).take count ++ (splitKeep content).drop (start + count) := by
    rw [(lineCut outer).after, ← List.drop_drop, List.take_append_drop]
  refine ⟨?_, (lineCut outer).before, (lineCut inner).before, (lineCut inner).after⟩
  have parts := splitKeep_flatten content
  rw [outer, List.flatten_append] at parts
  rw [List.append_assoc, ← List.flatten_append, ← List.drop_drop, List.take_append_drop]
  exact parts.symm

theorem Around.bodies {content before region after : Text} {start count : Nat}
    (around : Around content start count before region after) :
    splitLines before = (splitLines content).take start ∧
      splitLines region = ((splitLines content).drop start).take count ∧
        splitLines after = (splitLines content).drop (start + count) := by
  unfold splitLines
  rw [around.front, around.middle, around.back, List.map_take, List.map_take, List.map_drop,
    List.map_drop]
  exact ⟨rfl, rfl, rfl⟩

theorem around_ends {content before region after : Text} {start count : Nat}
    (around : Around content start count before region after)
    (more : start < (splitLines content).length) :
    before = [] ∨ ∃ init c, before = init ++ [c] ∧ isLineBreak c = true := by
  have cut : splitKeep content =
      (splitKeep content).take start ++ (splitKeep content).drop start :=
    (List.take_append_drop _ _).symm
  have later : (splitKeep content).drop start ≠ [] := by
    rw [← List.length_pos_iff, List.length_drop]
    rw [splitLines, List.length_map] at more
    omega
  have ends := (lineCut cut).between later
  rw [← around.front, splitKeep_flatten] at ends
  rcases ends with rfl | ⟨init, c, rfl, breaks, _⟩
  · exact Or.inl rfl
  · exact Or.inr ⟨init, c, rfl, breaks⟩

theorem matchBegin_head {line : Text} {identity : Identity}
    (opens : matchBegin line = some identity) : line.head? = some '#' := by
  obtain ⟨_, head, _⟩ := Option.bind_eq_some_iff.mp opens
  obtain ⟨_, hash, _⟩ := Option.bind_eq_some_iff.mp head
  rw [LinePattern.literal_eq_some hash]
  rfl

/-- A text whose first line is a begin marker starts with the marker's first character. -/
theorem head_of_opening {text : Text} {part : Section} {rest : List Text}
    (lines : splitLines text = part.lines ++ rest) : text.head? = some '#' := by
  unfold splitLines at lines
  cases kept : splitKeep text with
  | nil =>
      rw [kept] at lines
      cases lines
  | cons line others =>
      rw [kept] at lines
      have body : lineBody line = part.opening := (List.cons.inj lines).1
      have starts := matchBegin_head part.opens
      rw [← body] at starts
      have whole := splitKeep_flatten text
      rw [kept, List.flatten_cons] at whole
      rw [← whole]
      cases line with
      | nil => cases starts
      | cons c more =>
          unfold lineBody at starts
          rw [List.takeWhile_cons] at starts
          split at starts
          · exact starts
          · cases starts

theorem replaced_lines {before rendered after : Text} {part : Section}
    (ends : before = [] ∨ ∃ init c, before = init ++ [c] ∧ isLineBreak c = true)
    (lines : splitLines rendered = part.lines) (ended : endsWithNewline rendered = true) :
    splitLines (before ++ rendered ++ after) = splitLines before ++ part.lines ++ splitLines after := by
  have starts : (rendered ++ after).head? = some '#' := by
    have head : rendered.head? = some '#' :=
      head_of_opening (by rw [lines, List.append_nil])
    rw [List.head?_append, head]
    rfl
  have between : EndsBefore before (rendered ++ after) := by
    rcases ends with rfl | ⟨init, c, rfl, breaks⟩
    · exact Or.inl rfl
    · refine Or.inr ⟨init, c, rfl, breaks, fun both => ?_⟩
      rw [starts] at both
      exact absurd both.2 (by decide)
  have joined : splitLines (before ++ (rendered ++ after)) =
      splitLines before ++ splitLines (rendered ++ after) := by
    unfold splitLines
    rw [splitKeep_join between, List.map_append]
  rw [List.append_assoc, joined, splitLines_append (closed_of_endsWithNewline ended), lines,
    List.append_assoc]

/-- The segments of two texts put together where a line of the first ends. -/
theorem joined_segments {before after : Text} {first rest : List Segment}
    (ends : before = [] ∨ ∃ init c, before = init ++ [c] ∧ isLineBreak c = true)
    (beforeLines : splitLines before = segmentLines first)
    (afterLines : splitLines after = segmentLines rest) :
    ∃ segments, splitLines (before ++ after) = segmentLines segments ∧
      sections segments = sections first ++ sections rest := by
  rcases @splitLines_join before after (ends.imp_right Or.inr) with joined | ⟨more, feed, joined⟩
  · refine ⟨first ++ rest, ?_, sections_append first rest⟩
    rw [joined, beforeLines, afterLines, segmentLines_append]
  · -- the empty line that is gone was no marker
    rw [afterLines] at feed
    cases rest with
    | nil => cases feed
    | cons segment others =>
        cases segment with
        | plain line silent =>
            have shorter : segmentLines others = more := (List.cons.inj feed).2
            refine ⟨first ++ others, ?_, sections_append first others⟩
            rw [joined, beforeLines, segmentLines_append, shorter]
        | region part =>
            have opening : part.opening = [] := (List.cons.inj feed).1
            have opens := part.opens
            rw [opening] at opens
            cases opens

/-! ## The edits -/

/-- The text is cut around the first region of the slug, from its begin marker's line to its end
marker's; a replacement stands where it stood, a removal leaves nothing there, and all other
regions are found as before. -/
theorem region_edits_framed {content slug rendered : Text} {front back : List ManagedRegion}
    {existing new : ManagedRegion}
    (found : findManagedRegions content = .ok (front ++ existing :: back))
    (named : existing.slug = slug) (first : ∀ region ∈ front, region.slug ≠ slug)
    (one : OneRegion rendered new)
    (fresh : ∀ region ∈ front ++ back, region.taskId ≠ new.taskId) :
    ∃ before region after,
      Around content existing.start (existing.stop + 1 - existing.start) before region after ∧
      splitLines region = existing.lines ∧
      replaceRegion content slug rendered = .ok (before ++ rendered ++ after) ∧
      removeRegion content slug = .ok (before ++ after) ∧
      Shows (before ++ rendered ++ after) ((front ++ new :: back).map ManagedRegion.view) ∧
      Shows (before ++ after) ((front ++ back).map ManagedRegion.view) := by
  obtain ⟨segments, cut⟩ := segments_of_found found
  obtain ⟨same, distinct⟩ := (findManagedRegions_segments cut).mp found
  obtain ⟨before, part, after, rfl, rfl, rfl, rfl⟩ := regionsOf_eq_append same.symm
  obtain ⟨new', newLines, rfl⟩ := one.lines
  generalize place : 0 + (segmentLines before).length = start at *
  have count : (part.toRegion start).stop + 1 - (part.toRegion start).start = part.lines.length := by
    rw [part.toRegion_stop, Section.toRegion_start]
    omega
  rw [count, Section.toRegion_start]
  have parts := around content start part.lines.length
  generalize ((splitKeep content).take start).flatten = front at parts
  generalize (((splitKeep content).drop start).take part.lines.length).flatten = middle at parts
  generalize back_ : ((splitKeep content).drop (start + part.lines.length)).flatten = back at parts
  obtain ⟨frontLines, middleLines, backLines⟩ := parts.bodies
  have size : start = (segmentLines before).length := by omega
  have whole : splitLines content = segmentLines before ++ (part.lines ++ segmentLines after) := by
    rw [cut]
    simp [Segment.lines]
  rw [whole, size, List.take_left] at frontLines
  rw [whole, size, List.drop_left, List.take_left] at middleLines
  rw [whole, size, ← List.drop_drop, List.drop_left, List.drop_left] at backLines
  have ends := around_ends parts (by
    rw [whole, size]
    simp only [List.length_append, part.lines_length]
    omega)
  have chosen := @find_first _ (regionsOf (start + part.lines.length) after) _ _ named first
  have took : ((splitKeep content).take start).flatten = front := by
    rw [← parts.front, splitKeep_flatten]
  have dropped : ((splitKeep content).drop (start + part.lines.length)).flatten = back := by
    rw [← parts.back, splitKeep_flatten]
  rw [sections_append, sections_cons, List.map_append, List.map_append] at distinct
  have others : ((sections before).map Section.taskId ++ (sections after).map Section.taskId).Nodup :=
    distinct.sublist ((List.Sublist.refl _).append (List.sublist_append_right _ _))
  refine ⟨front, middle, back, parts, middleLines, ?_, ?_, ?_, ?_⟩
  · simp only [replaceRegion, found, bind, Except.bind, chosen, pure, Except.pure,
      part.toRegion_stop, Section.toRegion_start, List.flatten_append, took, dropped,
      splitKeep_flatten]
  · simp only [removeRegion, found, bind, Except.bind, chosen, pure, Except.pure,
      part.toRegion_stop, Section.toRegion_start, List.flatten_append, took, dropped]
  · have lines := @replaced_lines _ _ back _ ends newLines one.ended
    rw [frontLines, backLines] at lines
    have segments : segmentLines before ++ new'.lines ++ segmentLines after =
        segmentLines (before ++ .region new' :: after) := by simp [Segment.lines]
    have shows_ := shows_segments (lines.trans segments) (by
      rw [sections_append, sections_cons, List.map_append, List.map_append]
      exact nodup_insert others fun held => by
        rw [← regionsOf_ids 0, ← regionsOf_ids (start + part.lines.length), ← List.map_append] at held
        obtain ⟨region, member, same⟩ := List.mem_map.mp held
        exact fresh region member same)
    rw [List.map_append, List.map_cons, regionsOf_views, regionsOf_views]
    simp only [sections_append, sections_cons, List.map_append] at shows_
    exact shows_
  · obtain ⟨segments, lines, same⟩ := joined_segments ends frontLines backLines
    have shows_ := shows_segments lines (by rw [same, List.map_append]; exact others)
    rw [same, List.map_append] at shows_
    rw [List.map_append, regionsOf_views, regionsOf_views]
    exact shows_

/-! ## One edit -/

/-- The nightly backup's region behind a line that ends as on another system. -/
def mailedNightly : Text := "MAILTO=ops\r\n".toList ++ nightlyRegion

def nightlyFound (start : Nat) : ManagedRegion where
  slug := (nightlyBackup .default).slug
  taskId := (nightlyBackup .default).taskId.text
  digest := (nightlyBackup .default).contentDigest
  start := start
  stop := start + 3
  lines := splitLines nightlyRegion

theorem region_edits_framed_nightly :
    ∃ before region after, Around mailedNightly 1 4 before region after ∧
      replaceRegion mailedNightly (nightlyBackup .default).slug nightlyRegion =
        .ok (before ++ nightlyRegion ++ after) ∧
      removeRegion mailedNightly (nightlyBackup .default).slug = .ok (before ++ after) := by
  have one : OneRegion nightlyRegion (nightlyFound 0) :=
    ⟨by decide +kernel, rfl, by decide +kernel, by decide +kernel⟩
  have found : findManagedRegions mailedNightly = .ok ([] ++ nightlyFound 1 :: []) := by
    decide +kernel
  obtain ⟨before, region, after, parts, _, replaced, removed, _, _⟩ :=
    region_edits_framed found rfl (List.forall_mem_nil _) one (List.forall_mem_nil _)
  exact ⟨before, region, after, parts, replaced, removed⟩

end TaskControl.Cron
