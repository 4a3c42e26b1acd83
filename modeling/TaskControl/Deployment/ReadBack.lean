import TaskControl.Cron.BlockEdits
import TaskControl.Deployment.Collection
import TaskControl.Domain.Schedules

/-!
# Reading back what was rendered

The renderers write markers, a comment and an entry; the readers find regions and
entries by patterns over lines.  What is written is read back as it was, unless a
word of a marker is no word, a line of the command ends otherwise than with a
newline, or a line of the description or the command looks like a marker.
-/

set_option autoImplicit false

namespace TaskControl.Deployment

open PythonText LinePattern Effects Cron

/-! ## What is read -/

/-- The text has one region, which is the artefact's and as it was rendered. -/
def ReadsRegion (content rendered : Text) (artefact : DesiredArtefact) : Prop :=
  ∃ region, findManagedRegions content = .ok [region] ∧ region.slug = artefact.slug ∧
    region.taskId = artefact.taskId.text ∧ region.digest = artefact.contentDigest ∧
      region.text = rendered

/-- The text that the artefact's entry is put into has one entry then, as it was rendered. -/
def ReadsMember (base rendered : Text) (artefact : DesiredArtefact) : Prop :=
  ∃ content member, upsertBlockMember base artefact.slug rendered = .ok content ∧
    findBlockMembers content = .ok [member] ∧ member.slug = artefact.slug ∧
      member.taskId = artefact.taskId.text ∧ member.digest = artefact.contentDigest ∧
        member.text = rendered

/-- The markers are of single words, and the lines between or behind them end with newlines and
are no markers themselves. -/
structure Legible (artefact : DesiredArtefact) (entry : Text) (plain : Text → Prop) : Prop where
  tokens : artefact.Tokens
  feeds : ∀ c ∈ entry, isLineBreak c = true → c = '\n'
  between : ∀ line ∈ descriptionComment artefact ++ splitLines (entry ++ ['\n']), plain line

/-- A line of an entry of the block that starts neither another entry nor another block. -/
def Unmarked (line : Text) : Prop := matchBlockBegin line = none ∧ matchMember line = none

/-! ## The words of a marker -/

theorem word_solid {t found rest : Text} (read : word t = some (found, rest)) : Token found := by
  unfold word at read
  dsimp only at read
  split at read
  · cases read
  · next some_ =>
      obtain ⟨rfl, rfl⟩ := Prod.mk.inj (Option.some.inj read)
      exact ⟨by simpa using some_, fun c member => by simpa using List.mem_takeWhile_imp member⟩

theorem lastWord_solid {closing t found : Text} (read : lastWord closing t = some found) :
    Token found := by
  obtain ⟨body, _, read⟩ := Option.bind_eq_some_iff.mp read
  dsimp only at read
  split at read
  · cases read
  · next clear =>
      obtain rfl := Option.some.inj read
      rw [Bool.or_eq_true, not_or] at clear
      exact ⟨by simpa using clear.1, by simpa using clear.2⟩

theorem identity_solid {closing t : Text} {found : Identity}
    (read : identity closing t = some found) : Token found.slug ∧ Token found.digest := by
  obtain ⟨_, _, read⟩ := Option.bind_eq_some_iff.mp read
  obtain ⟨⟨slug, _⟩, slugRead, read⟩ := Option.bind_eq_some_iff.mp read
  obtain ⟨_, _, read⟩ := Option.bind_eq_some_iff.mp read
  obtain ⟨_, _, read⟩ := Option.bind_eq_some_iff.mp read
  obtain ⟨⟨taskId, _⟩, _, read⟩ := Option.bind_eq_some_iff.mp read
  obtain ⟨_, _, read⟩ := Option.bind_eq_some_iff.mp read
  obtain ⟨_, _, read⟩ := Option.bind_eq_some_iff.mp read
  obtain ⟨digest, digestRead, read⟩ := Option.bind_eq_some_iff.mp read
  obtain rfl := Option.some.inj read
  exact ⟨word_solid slugRead, lastWord_solid digestRead⟩

/-- The slug and the digest that a marker is found to have are single words. -/
theorem tokens_of_marker {artefact : DesiredArtefact} {closing t : Text} {found : Identity}
    (read : identity closing t = some found) (slug : found.slug = artefact.slug)
    (digest : found.digest = artefact.contentDigest) : artefact.Tokens := by
  obtain ⟨slugToken, digestToken⟩ := identity_solid read
  exact ⟨slug ▸ slugToken, digest ▸ digestToken⟩

/-! ## Lines that end with newlines -/

theorem joinLines_cons (line : Text) (rest : List Text) :
    joinLines (line :: rest) = line ++ '\n' :: joinLines rest := by
  simp [joinLines]

theorem joinLines_splitLines {t : Text} (feeds : ∀ c ∈ t, isLineBreak c = true → c = '\n') :
    joinLines (splitLines (t ++ ['\n'])) = t ++ ['\n'] := by
  induction t with
  | nil => rfl
  | cons c rest ih =>
      have later := ih fun d member => feeds d (List.mem_cons_of_mem c member)
      rw [List.cons_append]
      cases breaks : isLineBreak c with
      | true =>
          rw [feeds c List.mem_cons_self breaks, splitLines_feed, joinLines_cons, later]
          rfl
      | false =>
          obtain ⟨line, more, kept⟩ := List.exists_cons_of_ne_nil
            (splitKeep_ne_nil (by simp : rest ++ ['\n'] ≠ []))
          have lines : splitLines (rest ++ ['\n']) = lineBody line :: more.map lineBody :=
            congrArg (List.map lineBody) kept
          have pushed : splitLines (c :: (rest ++ ['\n'])) =
              lineBody (c :: line) :: more.map lineBody := by
            unfold splitLines
            rw [splitKeep_cons, kept, pushChar_unbroken breaks]
            rfl
          rw [lines, joinLines_cons] at later
          rw [pushed, lineBody_cons breaks, joinLines_cons, List.cons_append, later]

theorem feeds_of_joinLines {lines : List Text} (unbroken : ∀ line ∈ lines, Unbroken line) :
    ∀ c ∈ joinLines lines, isLineBreak c = true → c = '\n' := by
  intro c member breaks
  obtain ⟨line, inLines, within⟩ := List.mem_flatMap.mp member
  rcases List.mem_append.mp within with inLine | last
  · rw [unbroken line inLines c inLine] at breaks
    cases breaks
  · exact List.mem_singleton.mp last

theorem joinLines_around (first : List Text) (entry : Text) (last : List Text) :
    joinLines (first ++ entry :: last) = joinLines first ++ ((entry ++ ['\n']) ++ joinLines last) := by
  rw [joinLines_append, joinLines_cons]
  simp

theorem endsWithNewline_joinLines (front last : Text) :
    endsWithNewline (front ++ joinLines [last]) = true := by
  have shape : front ++ joinLines [last] = (front ++ last) ++ ['\n'] := by simp [joinLines]
  rw [shape, endsWithNewline, List.getLast?_concat]
  rfl

/-- The lines of a rendered text: an entry between lines of the renderer's own. -/
theorem splitLines_around {first last : List Text} (unbroken : ∀ line ∈ first, Unbroken line)
    (unbroken' : ∀ line ∈ last, Unbroken line) (entry : Text) :
    splitLines (joinLines (first ++ entry :: last)) =
      first ++ (splitLines (entry ++ ['\n']) ++ last) := by
  have none_ : splitLines [] = [] := rfl
  have ending := splitLines_joinLines unbroken' []
  rw [List.append_nil, none_, List.append_nil] at ending
  rw [joinLines_around, splitLines_joinLines unbroken, splitLines_append (closed_newline entry),
    ending]

theorem descriptionComment_unbroken (artefact : DesiredArtefact) :
    ∀ line ∈ descriptionComment artefact, Unbroken line := by
  have hash : Unbroken "# ".toList := by decide
  unfold descriptionComment
  split
  · exact List.forall_mem_nil _
  · intro line single
    rw [List.mem_singleton.mp single]
    apply unbroken_append.mpr
    refine ⟨hash, fun c member => ?_⟩
    rcases mem_joinWords member with rfl | ⟨word, inWords, within⟩
    · rfl
    · by_contra breaks
      have space := isSpace_of_isLineBreak (by simpa using breaks)
      rw [splitWords_solid inWords c within] at space
      cases space

/-! ## Regions -/

theorem silent_segments {lines : List Text} (silent : ∀ line ∈ lines, Silent line) :
    ∃ segments, segmentLines segments = lines ∧ sections segments = [] := by
  induction lines with
  | nil => exact ⟨[], rfl, rfl⟩
  | cons line rest ih =>
      obtain ⟨segments, rfl, none_⟩ := ih fun other member =>
        silent other (List.mem_cons_of_mem line member)
      exact ⟨.plain line (silent line List.mem_cons_self) :: segments, rfl, none_⟩

theorem regionsOf_none {segments : List Segment} (none_ : sections segments = []) (start : Nat) :
    regionsOf start segments = [] := by
  have views := regionsOf_views start segments
  rw [none_, List.map_nil] at views
  exact List.map_eq_nil_iff.mp views

/-- The lines of a region that is the only one found. -/
theorem only_region {content : Text} {region : ManagedRegion}
    (found : findManagedRegions content = .ok [region]) :
    ∃ part start, region = Section.toRegion part start ∧ ∀ line ∈ part.lines, Unbroken line := by
  obtain ⟨segments, cut⟩ := segments_of_found found
  obtain ⟨same, _⟩ := (findManagedRegions_segments cut).mp found
  obtain ⟨front, part, back, rfl, _, rfl, _⟩ :=
    @regionsOf_eq_append segments 0 [] [] region same.symm
  refine ⟨part, _, rfl, fun line member => ?_⟩
  have inText : line ∈ splitLines content := by
    rw [cut, segmentLines_append, segmentLines_cons]
    exact List.mem_append_right _ (List.mem_append_left _ member)
  exact unbroken_of_mem_splitLines inText

variable {artefact : DesiredArtefact} {entry rendered : Text}

theorem rendered_region (entered : crontabEntry artefact = .ok entry)
    (returned : renderCrontabRegion artefact = .ok rendered) :
    rendered = joinLines ((beginMarker artefact :: descriptionComment artefact) ++
      entry :: [endMarker artefact.slug]) := by
  unfold renderCrontabRegion crontabRegionLines at returned
  rw [entered] at returned
  exact (Except.ok.inj returned).symm

theorem region_lines (tokens : artefact.Tokens) (entry : Text) :
    splitLines (joinLines ((beginMarker artefact :: descriptionComment artefact) ++
        entry :: [endMarker artefact.slug])) =
      beginMarker artefact :: (descriptionComment artefact ++ splitLines (entry ++ ['\n'])) ++
        [endMarker artefact.slug] := by
  have first : ∀ line ∈ beginMarker artefact :: descriptionComment artefact, Unbroken line :=
    List.forall_mem_cons.mpr ⟨(beginMarker_opens tokens).1, descriptionComment_unbroken artefact⟩
  have last : ∀ line ∈ [endMarker artefact.slug], Unbroken line :=
    List.forall_mem_singleton.mpr (endMarker_closes tokens.slug).1
  rw [splitLines_around first last]
  simp

/-- A rendered region between lines that are no markers is read back exactly if it is legible. -/
theorem readsRegion_iff {before after : Text} (entered : crontabEntry artefact = .ok entry)
    (returned : renderCrontabRegion artefact = .ok rendered)
    (ends : before = [] ∨ ∃ init c, before = init ++ [c] ∧ isLineBreak c = true)
    (silent : ∀ line ∈ splitLines before, Silent line)
    (silent' : ∀ line ∈ splitLines after, Silent line) :
    ReadsRegion (before ++ rendered ++ after) rendered artefact ↔
      Legible artefact entry Silent := by
  obtain rfl := rendered_region entered returned
  constructor
  · rintro ⟨region, found, slug, id, digest, text⟩
    obtain ⟨part, start, rfl, unbroken⟩ := only_region found
    have shown : joinLines part.lines = joinLines ((beginMarker artefact ::
        descriptionComment artefact) ++ entry :: [endMarker artefact.slug]) := text
    obtain ⟨_, _, read⟩ := Option.bind_eq_some_iff.mp part.opens
    have tokens := tokens_of_marker read slug digest
    refine ⟨tokens, fun c member breaks => ?_, ?_⟩
    · apply feeds_of_joinLines unbroken c _ breaks
      rw [shown, joinLines_around]
      simp [member]
    · have lines := splitLines_joinLines unbroken []
      have none_ : splitLines [] = [] := rfl
      rw [List.append_nil, none_, List.append_nil, shown, region_lines tokens entry] at lines
      have inner := (List.append_inj_left' (List.cons.inj lines).2 rfl)
      rw [inner]
      exact part.within
  · rintro ⟨tokens, feeds, between⟩
    let part : Section := ⟨artefact.identity, beginMarker artefact,
      descriptionComment artefact ++ splitLines (entry ++ ['\n']), endMarker artefact.slug,
      matchBegin_beginMarker tokens, matchEnd_endMarker tokens.slug, between⟩
    have lines : splitLines (joinLines ((beginMarker artefact :: descriptionComment artefact) ++
        entry :: [endMarker artefact.slug])) = part.lines := region_lines tokens entry
    have text : joinLines part.lines = joinLines ((beginMarker artefact ::
        descriptionComment artefact) ++ entry :: [endMarker artefact.slug]) := by
      rw [joinLines_around, ← joinLines_splitLines feeds]
      simp [part, Section.lines, joinLines]
    obtain ⟨first, firstLines, none_⟩ := silent_segments silent
    obtain ⟨last, lastLines, none_'⟩ := silent_segments silent'
    have cut := @replaced_lines before _ after part ends lines (by
      rw [joinLines_around, ← List.append_assoc]
      exact endsWithNewline_joinLines _ _)
    rw [← firstLines, ← lastLines] at cut
    have segments : segmentLines first ++ part.lines ++ segmentLines last =
        segmentLines (first ++ .region part :: last) := by simp [Segment.lines]
    rw [segments] at cut
    refine ⟨part.toRegion (segmentLines first).length,
      (findManagedRegions_segments cut).mpr ⟨?_, ?_⟩, rfl, rfl, rfl, text⟩
    · rw [regionsOf_append, regionsOf_none none_, regionsOf, regionsOf_none none_', Nat.zero_add]
      rfl
    · rw [sections_append, sections_cons, none_, none_']
      simp [Segment.sections]

/-! ## Entries of the block -/

theorem rendered_member (entered : crontabEntry artefact = .ok entry)
    (returned : renderBlockMember artefact = .ok rendered) :
    rendered = joinLines ((memberMarker artefact :: descriptionComment artefact) ++ [entry]) := by
  unfold renderBlockMember blockMemberLines at returned
  rw [entered] at returned
  exact (Except.ok.inj returned).symm

theorem member_lines (tokens : artefact.Tokens) (entry : Text) :
    splitLines (joinLines ((memberMarker artefact :: descriptionComment artefact) ++ [entry])) =
      memberMarker artefact :: (descriptionComment artefact ++ splitLines (entry ++ ['\n'])) := by
  have first : ∀ line ∈ memberMarker artefact :: descriptionComment artefact, Unbroken line :=
    List.forall_mem_cons.mpr ⟨(memberMarker_marks tokens).1, descriptionComment_unbroken artefact⟩
  rw [splitLines_around first (List.forall_mem_nil _), List.append_nil]
  rfl

theorem unmarked_marker {line : Text} {found : Identity} (marks : matchMember line = some found) :
    matchBlockBegin line = none := (matchMember_only marks).2.2.1

/-- The only entry that is found in a text, and that none of its lines is a begin marker. -/
theorem only_entry {content : Text} {member : BlockMember}
    (found : findBlockMembers content = .ok [member]) :
    ∃ written : Entry, member = written.toMember ∧ (∀ line ∈ written.lines, Unbroken line) ∧
      ∀ line ∈ written.lines, matchBlockBegin line = none := by
  cases scanned : blockBounds content with
  | error problem =>
      unfold findBlockMembers at found
      rw [scanned] at found
      cases found
  | ok bounds =>
      cases bounds with
      | none =>
          rw [findBlockMembers_none scanned] at found
          cases found
      | some pair =>
          obtain ⟨block, entries, read⟩ := readBlock found scanned
          have same := read.same
          cases entries with
          | nil => cases same
          | cons written rest =>
              exact ⟨written, (List.cons.inj same).1, read.unbroken written List.mem_cons_self,
                read.single written List.mem_cons_self⟩

/-- A rendered entry put into a text without a block is read back exactly if it is legible. -/
theorem readsMember_iff {base : Text} (entered : crontabEntry artefact = .ok entry)
    (returned : renderBlockMember artefact = .ok rendered)
    (outside : ∀ line ∈ splitLines base, Outside line) :
    ReadsMember base rendered artefact ↔ Legible artefact entry Unmarked := by
  obtain rfl := rendered_member entered returned
  constructor
  · rintro ⟨content, member, _, found, slug, id, digest, text⟩
    obtain ⟨written, rfl, unbroken, single⟩ := only_entry found
    have shown : joinLines written.lines = joinLines ((memberMarker artefact ::
        descriptionComment artefact) ++ [entry]) := text
    obtain ⟨_, _, read⟩ := Option.bind_eq_some_iff.mp written.marks
    have tokens := tokens_of_marker read slug digest
    refine ⟨tokens, fun c member breaks => ?_, ?_⟩
    · apply feeds_of_joinLines unbroken c _ breaks
      rw [shown, joinLines_around]
      simp [member]
    · have lines := splitLines_joinLines unbroken []
      have none_ : splitLines [] = [] := rfl
      rw [List.append_nil, none_, List.append_nil, shown, member_lines tokens entry] at lines
      have body := (List.cons.inj lines).2
      rw [body]
      intro line member
      exact ⟨single line (List.mem_cons_of_mem _ member), written.within line member⟩
  · rintro ⟨tokens, feeds, between⟩
    let written : Entry := ⟨artefact.identity, memberMarker artefact,
      descriptionComment artefact ++ splitLines (entry ++ ['\n']), matchMember_memberMarker tokens,
      fun line member => (between line member).2⟩
    have text : joinLines written.lines = joinLines ((memberMarker artefact ::
        descriptionComment artefact) ++ [entry]) := by
      rw [joinLines_around, ← joinLines_splitLines feeds]
      simp [written, Entry.lines, joinLines]
    have carries : Carries (joinLines ((memberMarker artefact :: descriptionComment artefact) ++
        [entry])) written := ⟨joinLines_closed _, member_lines tokens entry⟩
    have single : ∀ line ∈ written.lines, matchBlockBegin line = none :=
      List.forall_mem_cons.mpr ⟨unmarked_marker written.marks,
        fun line member => (between line member).1⟩
    obtain ⟨gap, content, upserted⟩ :=
      @upserted_absent base artefact.slug _ written carries single (blockBounds_none_iff.mpr outside)
    have found : findBlockMembers content = .ok [written.toMember] :=
      (upserted.found _).mpr ⟨rfl, List.nodup_singleton _⟩
    exact ⟨content, written.toMember, upserted.returned, found, rfl, rfl, rfl, text⟩

/-- What is rendered for an artefact, as a region anywhere between the lines of a crontab or as an
entry of the block, is read back with its slug, id, digest and text exactly if its slug and digest
are words, its entry's lines end with newlines, and no line of its description and entry is taken
for a marker. -/
theorem rendered_read_back_iff {before after base region member : Text}
    (entered : crontabEntry artefact = .ok entry)
    (returned : renderCrontabRegion artefact = .ok region)
    (returned' : renderBlockMember artefact = .ok member)
    (ends : before = [] ∨ ∃ init c, before = init ++ [c] ∧ isLineBreak c = true)
    (silent : ∀ line ∈ splitLines before, Silent line)
    (silent' : ∀ line ∈ splitLines after, Silent line)
    (outside : ∀ line ∈ splitLines base, Outside line) :
    (ReadsRegion (before ++ region ++ after) region artefact ↔ Legible artefact entry Silent) ∧
      (ReadsMember base member artefact ↔ Legible artefact entry Unmarked) :=
  ⟨readsRegion_iff entered returned ends silent silent',
    readsMember_iff entered returned' outside⟩

/-! ## A legible artefact, and one that is not -/

theorem nightly_lines : descriptionComment (nightlyBackup .default) ++
    splitLines ("0 2 * * * taskctl activate nightly-backup".toList ++ ['\n']) =
      ["# Nightly backup".toList, "0 2 * * * taskctl activate nightly-backup".toList] := by
  decide +kernel

theorem nightly_legible {plain : Text → Prop}
    (between : ∀ line ∈ ["# Nightly backup".toList,
      "0 2 * * * taskctl activate nightly-backup".toList], plain line) :
    Legible (nightlyBackup .default) "0 2 * * * taskctl activate nightly-backup".toList plain := by
  have unbroken : Unbroken "0 2 * * * taskctl activate nightly-backup".toList := by decide
  refine ⟨(nightlyBackup_safe .default rfl).tokens, fun c member breaks => ?_, ?_⟩
  · rw [unbroken c member] at breaks
    cases breaks
  · rw [nightly_lines]
    exact between

theorem rendered_read_back_nightly :
    ReadsRegion ("MAILTO=ops\r\n".toList ++ nightlyRegion ++ "0 1 * * * date".toList)
        nightlyRegion (nightlyBackup .default) ∧
      ReadsMember "MAILTO=ops".toList nightlyMember (nightlyBackup .default) := by
  have iffs := @rendered_read_back_iff (nightlyBackup .default) _ "MAILTO=ops\r\n".toList
    "0 1 * * * date".toList "MAILTO=ops".toList nightlyRegion nightlyMember rfl rfl rfl
    (Or.inr ⟨"MAILTO=ops\r".toList, '\n', rfl, rfl⟩) (by unfold Silent; decide +kernel)
    (by unfold Silent; decide +kernel) (by unfold Outside; decide +kernel)
  exact ⟨iffs.1.mpr (nightly_legible (by unfold Silent; decide +kernel)),
    iffs.2.mpr (nightly_legible (by unfold Unmarked; decide +kernel))⟩

namespace Estate

def beginLike : Text := ">>> taskcontrol task=x id=y digest=z >>>".toList

def memberLike : Text := "taskcontrol task=x id=y digest=z".toList

theorem beginLike_bounded : beginLike.length ≤ maxDescriptionLength := by decide

theorem memberLike_bounded : memberLike.length ≤ maxDescriptionLength := by decide

theorem first_within : 0 < 201 := by decide

/-- The first task, described in words that look like a begin marker as a comment. -/
def disguisedTask : Task :=
  { task ⟨0, first_within⟩ with description := beginLike, descriptionBounded := beginLike_bounded }

/-- The first task, described in words that look like an entry's marker as a comment. -/
def doubledTask : Task :=
  { task ⟨0, first_within⟩ with description := memberLike, descriptionBounded := memberLike_bounded }

def disguised : DesiredArtefact := { onlyArtefact with description := beginLike }

def doubled : DesiredArtefact := { onlyArtefact with description := memberLike }

def disguisedRegion : Text :=
  joinLines [beginMarker disguised, "# >>> taskcontrol task=x id=y digest=z >>>".toList,
    "0 * * * * run job-000".toList, endMarker disguised.slug]

def doubledMember : Text :=
  joinLines [memberMarker doubled, "# taskcontrol task=x id=y digest=z".toList,
    "0 * * * * run job-000".toList]

def doubledBlock : Text := blockText doubledMember

/-- A description that the domain accepts keeps a rendered region from being read at all, and
another makes two entries of a rendered one. -/
theorem disguised_not_read_back :
    commands.artefactFrom disguisedTask revision = .ok disguised ∧
      commands.artefactFrom doubledTask revision = .ok doubled ∧
      (∃ region, renderCrontabRegion disguised = .ok region ∧
        (findManagedRegions region).isOk = false ∧
          ¬ ReadsRegion ([] ++ region ++ []) region disguised) ∧
      ∃ member content members, renderBlockMember doubled = .ok member ∧
        upsertBlockMember [] doubled.slug member = .ok content ∧
          findBlockMembers content = .ok members ∧ members.length = 2 ∧
            ¬ ReadsMember [] member doubled := by
  refine ⟨rfl, rfl, ?_, ?_⟩
  · refine ⟨disguisedRegion, rfl, by decide +kernel, ?_⟩
    rintro ⟨region, found, _⟩
    have refused : (findManagedRegions disguisedRegion).isOk = false := by decide +kernel
    rw [List.nil_append, List.append_nil] at found
    rw [found] at refused
    cases refused
  · have upserted : upsertBlockMember [] doubled.slug doubledMember = .ok doubledBlock := by
      decide +kernel
    have twice : (findBlockMembers doubledBlock).map List.length = .ok 2 := by decide +kernel
    obtain ⟨members, found, two⟩ := except_map_eq_ok.mp twice
    refine ⟨doubledMember, doubledBlock, members, rfl, upserted, found, two, ?_⟩
    rintro ⟨content, member, returned, once, _⟩
    rw [upserted] at returned
    cases returned
    rw [found] at once
    cases once
    cases two

end Estate

end TaskControl.Deployment
