import TaskControl.Cron.Ambiguity
import TaskControl.Foundation.LineCuts

/-!
# Texts as sequences of regions

`find_managed_regions` accepts exactly the texts whose region markers are paired,
begin with end under one slug, and whose begin markers carry distinct task ids.
Such a text is a sequence of plain lines and regions, whatever line ends it has
and wherever the block's markers stand, and what the scan returns is read off
that sequence.
-/

set_option autoImplicit false

namespace TaskControl.Cron

open PythonText

/-! ## Segments -/

/-- A line that is no region's marker. -/
def Silent (line : Text) : Prop := matchBegin line = none ∧ matchEnd line = none

/-- The lines from a begin marker to its end marker. -/
structure Section where
  identity : Identity
  opening : Text
  inner : List Text
  closing : Text
  opens : matchBegin opening = some identity
  closes : matchEnd closing = some identity.slug
  within : ∀ line ∈ inner, Silent line

inductive Segment where
  | plain (line : Text) (silent : Silent line)
  | region (part : Section)

def Section.lines (part : Section) : List Text := part.opening :: part.inner ++ [part.closing]

def Segment.lines : Segment → List Text
  | .plain line _ => [line]
  | .region part => part.lines

def segmentLines (segments : List Segment) : List Text := segments.flatMap Segment.lines

def Segment.sections : Segment → List Section
  | .plain _ _ => []
  | .region part => [part]

def sections (segments : List Segment) : List Section := segments.flatMap Segment.sections

@[simp] theorem segmentLines_nil : segmentLines [] = [] := rfl

@[simp] theorem segmentLines_cons (segment : Segment) (rest : List Segment) :
    segmentLines (segment :: rest) = segment.lines ++ segmentLines rest := rfl

@[simp] theorem segmentLines_append (first rest : List Segment) :
    segmentLines (first ++ rest) = segmentLines first ++ segmentLines rest := by
  simp [segmentLines]

@[simp] theorem sections_nil : sections [] = [] := rfl

@[simp] theorem sections_cons (segment : Segment) (rest : List Segment) :
    sections (segment :: rest) = segment.sections ++ sections rest := rfl

@[simp] theorem sections_append (first rest : List Segment) :
    sections (first ++ rest) = sections first ++ sections rest := by
  simp [sections]

theorem Section.lines_length (part : Section) : part.lines.length = part.inner.length + 2 := by
  simp [Section.lines]

/-! ## The scan of a sequence of segments -/

/-- The region that a section shows to the scan when its first line has index `start`. -/
def Section.toRegion (part : Section) (start : Nat) : ManagedRegion :=
  ⟨part.identity.slug, part.identity.taskId, part.identity.digest, start,
    start + part.inner.length + 1, part.lines⟩

def Segment.regionsAt (start : Nat) : Segment → List ManagedRegion
  | .plain _ _ => []
  | .region part => [part.toRegion start]

def regionsOf : Nat → List Segment → List ManagedRegion
  | _, [] => []
  | start, segment :: rest =>
      segment.regionsAt start ++ regionsOf (start + segment.lines.length) rest

theorem scanRegions_section (done rest : List Text) (part : Section) :
    scanRegions (done ++ (part.lines ++ rest)) done.length none (part.lines ++ rest) =
      (do
        let regions ← scanRegions (done ++ (part.lines ++ rest)) (done.length + part.lines.length)
          none rest
        return part.toRegion done.length :: regions) := by
  have taken : ((done ++ (part.lines ++ rest)).drop done.length).take
      (done.length + part.lines.length - done.length) = part.lines := by
    rw [List.drop_left, Nat.add_sub_cancel_left, List.take_left]
  have shape : part.lines ++ rest = part.opening :: (part.inner ++ part.closing :: rest) := by
    simp [Section.lines]
  have stop : done.length + 1 + part.inner.length + 1 = done.length + part.lines.length := by
    rw [part.lines_length]
    omega
  generalize done ++ (part.lines ++ rest) = all at taken
  rw [shape]
  simp only [scanRegions, part.opens]
  rw [scanRegions_quiet all _ _ _ _ part.within]
  simp only [scanRegions, (matchEnd_only part.closes).1, part.closes, ne_eq, not_true_eq_false,
    if_false, stop, taken]
  have last : done.length + 1 + part.inner.length = done.length + part.inner.length + 1 := by omega
  rw [last]
  rfl

/-- By induction on the segments. -/
theorem scanRegions_segments (segments : List Segment) (done : List Text) :
    scanRegions (done ++ segmentLines segments) done.length none (segmentLines segments) =
      .ok (regionsOf done.length segments) := by
  induction segments generalizing done with
  | nil => rfl
  | cons segment rest ih =>
      have later := ih (done ++ segment.lines)
      rw [List.length_append, List.append_assoc] at later
      rw [segmentLines_cons]
      cases segment with
      | plain line silent =>
          have quiet := scanRegions_quiet (done ++ ([line] ++ segmentLines rest)) done.length none
            [line] (segmentLines rest) (List.forall_mem_singleton.mpr silent)
          exact quiet.trans later
      | region part =>
          simp only [Segment.lines] at later ⊢
          rw [scanRegions_section, later]
          rfl

theorem regionsOf_append (start : Nat) (first rest : List Segment) :
    regionsOf start (first ++ rest) =
      regionsOf start first ++ regionsOf (start + (segmentLines first).length) rest := by
  induction first generalizing start with
  | nil => rfl
  | cons segment tail ih =>
      simp only [List.cons_append, regionsOf, ih, segmentLines_cons, List.length_append,
        List.append_assoc, Nat.add_assoc]

/-- What does not depend on a region's place in the text. -/
theorem regionsOf_map {α : Type} (view : ManagedRegion → α) (view' : Section → α)
    (same : ∀ part start, view (Section.toRegion part start) = view' part) (start : Nat)
    (segments : List Segment) :
    (regionsOf start segments).map view = (sections segments).map view' := by
  induction segments generalizing start with
  | nil => rfl
  | cons segment rest ih =>
      rw [regionsOf, List.map_append, ih, sections_cons, List.map_append]
      congr 1
      cases segment <;> simp [Segment.regionsAt, Segment.sections, same]

def Section.taskId (part : Section) : Text := part.identity.taskId

theorem findManagedRegions_segments {content : Text} {segments : List Segment}
    (cut : splitLines content = segmentLines segments) {regions : List ManagedRegion} :
    findManagedRegions content = .ok regions ↔
      regions = regionsOf 0 segments ∧ ((sections segments).map Section.taskId).Nodup := by
  have scanned : scanRegions (splitLines content) 0 none (splitLines content) =
      .ok (regionsOf 0 segments) := by
    rw [cut]
    exact scanRegions_segments segments []
  have ids : (regionsOf 0 segments).map ManagedRegion.taskId =
      (sections segments).map Section.taskId := regionsOf_map _ _ (fun _ _ => rfl) 0 segments
  have unique : assertUnique (regionsOf 0 segments) = .ok () ↔
      ((sections segments).map Section.taskId).Nodup := by
    rw [← ids]
    unfold assertUnique
    rw [assertDistinct_eq_ok]
    simp
  unfold findManagedRegions
  dsimp only
  rw [scanned, ← unique]
  change (do assertUnique (regionsOf 0 segments); return regionsOf 0 segments) = _ ↔ _
  cases checked : assertUnique (regionsOf 0 segments) with
  | error problem => exact iff_of_false (fun found => nomatch found) fun both => nomatch both.2
  | ok _ => exact ⟨fun found => ⟨(Except.ok.inj found).symm, rfl⟩, fun both => by rw [both.1]; rfl⟩

/-! ## Paired markers are segments -/

theorem regionMark_silent {line : Text} (silent : Silent line) : regionMark line = none := by
  rw [regionMark, silent.1, silent.2]

theorem regionMark_opens {line : Text} {identity : Identity}
    (opens : matchBegin line = some identity) : regionMark line = some (.opens identity.slug) := by
  rw [regionMark, opens]

theorem regionMark_closes {line slug : Text} (closes : matchEnd line = some slug) :
    regionMark line = some (.closes slug) := by
  rw [regionMark, (matchEnd_only closes).1, closes]

/-- What a region's lines are behind its begin marker. -/
def Closes (slug : Text) (lines : List Text) : Prop :=
  ∃ inner closing segments, lines = inner ++ closing :: segmentLines segments ∧
    (∀ line ∈ inner, Silent line) ∧ matchEnd closing = some slug

/-- By induction on the lines, with and without an open region. -/
theorem segments_of_paired (lines : List Text) :
    (paired (lines.filterMap regionMark) = true → ∃ segments, lines = segmentLines segments) ∧
      ∀ slug, paired (.opens slug :: lines.filterMap regionMark) = true → Closes slug lines := by
  induction lines with
  | nil => exact ⟨fun _ => ⟨[], rfl⟩, fun slug matched => absurd matched Bool.false_ne_true⟩
  | cons line rest ih =>
      obtain ⟨closed, opened⟩ := ih
      cases begins : matchBegin line with
      | some identity =>
          rw [List.filterMap_cons_some (regionMark_opens begins)]
          refine ⟨fun matched => ?_, fun slug matched => absurd matched Bool.false_ne_true⟩
          obtain ⟨inner, closing, segments, rfl, within, closes⟩ := opened identity.slug matched
          refine ⟨.region ⟨identity, line, inner, closing, begins, closes, within⟩ :: segments, ?_⟩
          simp [Segment.lines, Section.lines]
      | none =>
          cases ends : matchEnd line with
          | some slug =>
              rw [List.filterMap_cons_some (regionMark_closes ends)]
              refine ⟨fun matched => absurd matched Bool.false_ne_true, fun opening matched => ?_⟩
              obtain ⟨same, rest_⟩ := Bool.and_eq_true_iff.mp matched
              obtain ⟨segments, rfl⟩ := closed rest_
              obtain rfl : opening = slug := of_decide_eq_true same
              exact ⟨[], line, segments, rfl, List.forall_mem_nil _, ends⟩
          | none =>
              have silent : Silent line := ⟨begins, ends⟩
              rw [List.filterMap_cons_none (regionMark_silent silent)]
              refine ⟨fun matched => ?_, fun slug matched => ?_⟩
              · obtain ⟨segments, rfl⟩ := closed matched
                exact ⟨.plain line silent :: segments, rfl⟩
              · obtain ⟨inner, closing, segments, rfl, within, closes⟩ := opened slug matched
                exact ⟨line :: inner, closing, segments, rfl,
                  List.forall_mem_cons.mpr ⟨silent, within⟩, closes⟩

theorem segments_of_found {content : Text} {regions : List ManagedRegion}
    (found : findManagedRegions content = .ok regions) :
    ∃ segments, splitLines content = segmentLines segments := by
  have matched := scanRegions_paired (findManagedRegions_scan found)
  exact (segments_of_paired (splitLines content)).1 matched

/-! ## The accepted texts -/

/-- The task ids of the begin markers among the lines. -/
def beginIds (lines : List Text) : List Text :=
  lines.filterMap fun line => (matchBegin line).map Identity.taskId

/-- The indices of the lines that satisfy a test, the first line having index `start`. -/
def placesOf (test : Text → Bool) (start : Nat) : List Text → List Nat
  | [] => []
  | line :: rest =>
      if test line then start :: placesOf test (start + 1) rest else placesOf test (start + 1) rest

/-- The regions stand in the order of the text and apart from each other, one for each begin marker
and its end marker, and each has the lines from the one to the other. -/
structure Spans (lines : List Text) (regions : List ManagedRegion) : Prop where
  apart : regions.Pairwise fun earlier later => earlier.stop < later.start
  begins : regions.map ManagedRegion.start = placesOf (fun line => (matchBegin line).isSome) 0 lines
  ends : regions.map ManagedRegion.stop = placesOf (fun line => (matchEnd line).isSome) 0 lines
  each : ∀ region ∈ regions, region.start < region.stop ∧
    (lines[region.start]?).bind matchBegin =
      some ⟨region.slug, region.taskId, region.digest⟩ ∧
    (lines[region.stop]?).bind matchEnd = some region.slug ∧
    region.lines = (lines.drop region.start).take (region.stop + 1 - region.start)

theorem placesOf_append (test : Text → Bool) (start : Nat) (first rest : List Text) :
    placesOf test start (first ++ rest) =
      placesOf test start first ++ placesOf test (start + first.length) rest := by
  induction first generalizing start with
  | nil => rfl
  | cons line tail ih =>
      have length : start + (line :: tail).length = start + 1 + tail.length := by
        rw [List.length_cons]
        omega
      rw [List.cons_append, placesOf, placesOf, ih, length]
      split <;> rfl

theorem placesOf_none (test : Text → Bool) (start : Nat) {lines : List Text}
    (none_ : ∀ line ∈ lines, test line = false) : placesOf test start lines = [] := by
  induction lines generalizing start with
  | nil => rfl
  | cons line rest ih =>
      rw [placesOf, none_ line List.mem_cons_self]
      exact ih (start + 1) fun other member => none_ other (List.mem_cons_of_mem line member)

theorem beginIds_segments (segments : List Segment) :
    beginIds (segmentLines segments) = (sections segments).map Section.taskId := by
  induction segments with
  | nil => rfl
  | cons segment rest ih =>
      rw [segmentLines_cons, sections_cons, List.map_append, ← ih]
      unfold beginIds
      rw [List.filterMap_append]
      congr 1
      cases segment with
      | plain line silent => simp [Segment.lines, Segment.sections, silent.1]
      | region part =>
          have quiet : part.inner.filterMap (fun line => (matchBegin line).map Identity.taskId) = [] := by
            rw [List.filterMap_eq_nil_iff]
            intro line member
            rw [(part.within line member).1]
            rfl
          simp [Segment.lines, Segment.sections, Section.lines, Section.taskId, part.opens, quiet,
            (matchEnd_only part.closes).1]

/-- A region of the scan is a section of the text, at the place of its first line. -/
theorem mem_regionsOf {start : Nat} {segments : List Segment} {region : ManagedRegion}
    (member : region ∈ regionsOf start segments) :
    ∃ before part after, segments = before ++ .region part :: after ∧
      region = part.toRegion (start + (segmentLines before).length) := by
  induction segments generalizing start with
  | nil => cases member
  | cons segment rest ih =>
      rw [regionsOf, List.mem_append] at member
      rcases member with here | later
      · cases segment with
        | plain line silent => cases here
        | region part => exact ⟨[], part, rest, rfl, List.mem_singleton.mp here⟩
      · obtain ⟨before, part, after, rfl, same⟩ := ih later
        refine ⟨segment :: before, part, after, rfl, ?_⟩
        rw [same, segmentLines_cons, List.length_append, Nat.add_assoc]

@[simp] theorem Section.toRegion_start (part : Section) (start : Nat) :
    (part.toRegion start).start = start := rfl

theorem Section.toRegion_stop (part : Section) (start : Nat) :
    (part.toRegion start).stop + 1 = start + part.lines.length := by
  rw [part.lines_length]
  rfl

theorem regionsOf_apart (start : Nat) (segments : List Segment) :
    (regionsOf start segments).Pairwise fun earlier later => earlier.stop < later.start := by
  induction segments generalizing start with
  | nil => exact List.Pairwise.nil
  | cons segment rest ih =>
      cases segment with
      | plain line silent => exact ih _
      | region part =>
          refine List.pairwise_cons.mpr ⟨fun later member => ?_, ih _⟩
          obtain ⟨before, other, _, _, rfl⟩ := mem_regionsOf member
          have stop := part.toRegion_stop start
          change (part.toRegion start).stop < start + part.lines.length + (segmentLines before).length
          omega

theorem regionsOf_begins (start : Nat) (segments : List Segment) :
    (regionsOf start segments).map ManagedRegion.start =
      placesOf (fun line => (matchBegin line).isSome) start (segmentLines segments) := by
  induction segments generalizing start with
  | nil => rfl
  | cons segment rest ih =>
      rw [regionsOf, List.map_append, ih, segmentLines_cons, placesOf_append]
      congr 1
      cases segment with
      | plain line silent => simp [Segment.regionsAt, Segment.lines, placesOf, silent.1]
      | region part =>
          have quiet : placesOf (fun line => (matchBegin line).isSome) (start + 1)
              (part.inner ++ [part.closing]) = [] := by
            apply placesOf_none
            intro line member
            rcases List.mem_append.mp member with inside | last
            · rw [(part.within line inside).1]
              rfl
            · rw [List.mem_singleton.mp last, (matchEnd_only part.closes).1]
              rfl
          simp [Segment.regionsAt, Segment.lines, Section.lines, placesOf, part.opens, quiet,
            Section.toRegion]

theorem regionsOf_ends (start : Nat) (segments : List Segment) :
    (regionsOf start segments).map ManagedRegion.stop =
      placesOf (fun line => (matchEnd line).isSome) start (segmentLines segments) := by
  induction segments generalizing start with
  | nil => rfl
  | cons segment rest ih =>
      rw [regionsOf, List.map_append, ih, segmentLines_cons, placesOf_append]
      congr 1
      cases segment with
      | plain line silent => simp [Segment.regionsAt, Segment.lines, placesOf, silent.2]
      | region part =>
          have quiet : placesOf (fun line => (matchEnd line).isSome) start
              (part.opening :: part.inner) = [] := by
            apply placesOf_none
            intro line member
            rcases List.mem_cons.mp member with rfl | inside
            · rw [(matchBegin_only part.opens).1]
              rfl
            · rw [(part.within line inside).2]
              rfl
          have last : start + (part.opening :: part.inner).length = start + part.inner.length + 1 := by
            rw [List.length_cons]
            omega
          change [(part.toRegion start).stop] =
            placesOf _ start (part.opening :: part.inner ++ [part.closing])
          rw [placesOf_append, quiet, last]
          simp [placesOf, part.closes, Section.toRegion]

/-- The lines of a section in the text it is a part of. -/
theorem section_lines (before after : List Segment) (part : Section) :
    let lines := segmentLines (before ++ .region part :: after)
    let region := part.toRegion (segmentLines before).length
    (lines[region.start]?).bind matchBegin = some ⟨region.slug, region.taskId, region.digest⟩ ∧
      (lines[region.stop]?).bind matchEnd = some region.slug ∧
        region.lines = (lines.drop region.start).take (region.stop + 1 - region.start) := by
  have shape : segmentLines (before ++ .region part :: after) =
      segmentLines before ++ (part.lines ++ segmentLines after) := by
    simp [Segment.lines]
  dsimp only
  rw [shape]
  refine ⟨?_, ?_, ?_⟩
  · rw [Section.toRegion_start, List.getElem?_append_right le_rfl, Nat.sub_self]
    exact part.opens
  · have place : (part.toRegion (segmentLines before).length).stop =
        (segmentLines before).length + (part.opening :: part.inner).length := by
      rw [List.length_cons]
      rfl
    have rest : part.lines ++ segmentLines after =
        (part.opening :: part.inner) ++ part.closing :: segmentLines after := by
      simp [Section.lines]
    rw [place, rest, List.getElem?_append_right (Nat.le_add_right _ _), Nat.add_sub_cancel_left,
      List.getElem?_append_right le_rfl, Nat.sub_self]
    exact part.closes
  · rw [part.toRegion_stop, Section.toRegion_start, List.drop_left, Nat.add_sub_cancel_left,
      List.take_left]
    rfl

theorem spans_segments (segments : List Segment) :
    Spans (segmentLines segments) (regionsOf 0 segments) where
  apart := regionsOf_apart 0 segments
  begins := regionsOf_begins 0 segments
  ends := regionsOf_ends 0 segments
  each region member := by
    obtain ⟨before, part, after, rfl, rfl⟩ := mem_regionsOf member
    rw [Nat.zero_add]
    have stop := part.toRegion_stop (segmentLines before).length
    have length := part.lines_length
    refine ⟨?_, section_lines before after part⟩
    rw [Section.toRegion_start]
    omega

/-- The scan accepts exactly the texts whose markers are paired and whose begin markers carry
distinct task ids, and returns the regions as they stand in the text. -/
theorem findManagedRegions_accepts_iff (content : Text) :
    ((∃ regions, findManagedRegions content = .ok regions) ↔
      paired ((splitLines content).filterMap regionMark) = true ∧
        (beginIds (splitLines content)).Nodup) ∧
    ∀ regions, findManagedRegions content = .ok regions → Spans (splitLines content) regions := by
  refine ⟨⟨?_, ?_⟩, ?_⟩
  · rintro ⟨regions, found⟩
    obtain ⟨segments, cut⟩ := segments_of_found found
    refine ⟨scanRegions_paired (findManagedRegions_scan found), ?_⟩
    rw [cut, beginIds_segments]
    exact ((findManagedRegions_segments cut).mp found).2
  · rintro ⟨matched, distinct⟩
    obtain ⟨segments, cut⟩ := (segments_of_paired (splitLines content)).1 matched
    rw [cut, beginIds_segments] at distinct
    exact ⟨regionsOf 0 segments, (findManagedRegions_segments cut).mpr ⟨rfl, distinct⟩⟩
  · intro regions found
    obtain ⟨segments, cut⟩ := segments_of_found found
    obtain ⟨rfl, _⟩ := (findManagedRegions_segments cut).mp found
    rw [cut]
    exact spans_segments segments

end TaskControl.Cron
