import TaskControl.Cron.UserText
import TaskControl.Domain.Schedules
import TaskControl.Domain.Values

/-!
# What cron runs

Cron and the shell split a file at newline characters and pass over blank lines
and comments.  Of what is rendered one line is left, whatever the description
says.
-/

set_option autoImplicit false

namespace TaskControl.Cron

open PythonText LinePattern

/-! ## Lines that are run -/

def isBlank (c : Char) : Bool := c = ' ' || c = '\t'

/-- Neither blank nor a comment. -/
def isDirective (line : Text) : Bool :=
  match line.dropWhile isBlank with
  | [] => false
  | c :: _ => c ≠ '#'

def directives (text : Text) : List Text := (text.splitOn '\n').filter isDirective

/-- The lines of a script that are run before the work; its first line is a comment to the
shell. -/
def preamble (artefact : DesiredArtefact) : List Text :=
  match artefact.deployment.strategy with
  | .runPartsDirectory => ["set -eu".toList]
  | _ => []

def scheduleFields (artefact : DesiredArtefact) : List Text :=
  match artefact.schedule with
  | some schedule => schedule.splitOn ' '
  | none => []

def userField (artefact : DesiredArtefact) : List Text :=
  if artefact.deployment.target.expressesExecutionUser then
    [artefact.deployment.executionUser.getD defaultSystemUser]
  else []

def commandWords (artefact : DesiredArtefact) : List Text :=
  match artefact.deployment.strategy with
  | .runPartsDirectory => ["exec".toList, artefact.command]
  | _ => [artefact.command]

/-! ## Artefacts -/

/-- Words of `[a-z0-9]` with single hyphens between them. -/
def HyphenatedWords (slug : Text) : Prop :=
  ∃ words : List Text, (∀ word ∈ words, word ≠ [] ∧ ∀ c ∈ word, isSlugChar c = true) ∧
    slug = List.intercalate ['-'] words

/-- Whether the schedule is an accepted cron expression, or absent where the directory has the
cadence. -/
def Scheduled (artefact : DesiredArtefact) : Prop :=
  if artefact.deployment.strategy.carriesItsOwnSchedule then
    ∃ written text, normaliseCronExpression written = .ok text ∧ artefact.schedule = some text
  else artefact.schedule = none

/-! ## Quiet lines -/

/-- A line of its own that is not run. -/
structure Quiet (line : Text) : Prop where
  oneLine : '\n' ∉ line
  passedOver : isDirective line = false

theorem quiet_comment {line : Text} (oneLine : '\n' ∉ line) : Quiet ('#' :: line) :=
  ⟨by simpa using oneLine, rfl⟩

theorem splitOn_joinLines {lines : List Text} (oneLine : ∀ line ∈ lines, '\n' ∉ line) :
    (joinLines lines).splitOn '\n' = lines ++ [[]] := by
  induction lines with
  | nil => rfl
  | cons line rest ih =>
      have shape : joinLines (line :: rest) = line ++ '\n' :: joinLines rest := by
        simp [joinLines]
      rw [shape, List.splitOn_append_cons_self_of_not_mem (oneLine line List.mem_cons_self),
        ih fun other member => oneLine other (List.mem_cons_of_mem _ member)]
      rfl

theorem directives_joinLines {lines : List Text} (oneLine : ∀ line ∈ lines, '\n' ∉ line) :
    directives (joinLines lines) = lines.filter isDirective := by
  unfold directives
  rw [splitOn_joinLines oneLine, List.filter_append]
  exact List.append_nil _

theorem filter_quiet {lines : List Text} (quiet : ∀ line ∈ lines, Quiet line) :
    lines.filter isDirective = [] :=
  List.filter_eq_nil_iff.mpr fun line member => by simp [(quiet line member).passedOver]

/-- Between quiet lines, only what is between them is run. -/
theorem directives_between {before between after : List Text} (quiet : ∀ line ∈ before, Quiet line)
    (quiet' : ∀ line ∈ after, Quiet line) (oneLine : ∀ line ∈ between, '\n' ∉ line)
    (run : ∀ line ∈ between, isDirective line = true) :
    directives (joinLines (before ++ between ++ after)) = between := by
  have each : ∀ line ∈ before ++ between ++ after, '\n' ∉ line := by
    intro line member
    rcases List.mem_append.mp member with first | last
    · rcases List.mem_append.mp first with here | there
      · exact (quiet line here).oneLine
      · exact oneLine line there
    · exact (quiet' line last).oneLine
  rw [directives_joinLines each, List.filter_append, List.filter_append, filter_quiet quiet,
    filter_quiet quiet', List.nil_append, List.append_nil]
  exact List.filter_eq_self.mpr run

/-! ## The lines of a renderer -/

section

variable {artefact : DesiredArtefact}

theorem HyphenatedWords.oneLine {slug : Text} (hyphenated : HyphenatedWords slug) :
    '\n' ∉ slug := by
  obtain ⟨words, solid, rfl⟩ := hyphenated
  intro member
  induction words with
  | nil => cases member
  | cons word rest ih =>
      have first : '\n' ∉ word := fun within =>
        absurd ((solid word List.mem_cons_self).2 '\n' within) (by decide)
      cases rest with
      | nil => exact first (by simpa using member)
      | cons next others =>
          rw [List.intercalate_cons_cons, List.append_assoc, List.mem_append] at member
          rcases member with here | later
          · exact first here
          · rcases List.mem_cons.mp later with hyphen | further
            · cases hyphen
            · exact ih (fun other inRest => solid other (List.mem_cons_of_mem _ inRest)) further

theorem newline_not_mem_token {text : Text} (token : Token text) : '\n' ∉ text := fun member =>
  absurd (token.2 '\n' member) (by decide)

theorem identityText_oneLine (slug : HyphenatedWords artefact.slug)
    (digest : '\n' ∉ artefact.contentDigest) : '\n' ∉ identityText artefact := by
  have id := newline_not_mem_token artefact.taskId.text_token
  have slugLine := slug.oneLine
  unfold identityText
  simp only [List.mem_append, not_or]
  exact ⟨⟨⟨⟨⟨by decide, slugLine⟩, by decide⟩, id⟩, by decide⟩, digest⟩

theorem beginMarker_quiet (slug : HyphenatedWords artefact.slug)
    (digest : '\n' ∉ artefact.contentDigest) : Quiet (beginMarker artefact) := by
  have identity := identityText_oneLine slug digest
  have shape : beginMarker artefact = '#' :: (" >>> ".toList ++ identityText artefact ++
      " >>>".toList) := rfl
  rw [shape]
  apply quiet_comment
  simp only [List.mem_append, not_or]
  exact ⟨⟨by decide, identity⟩, by decide⟩

theorem memberMarker_quiet (slug : HyphenatedWords artefact.slug)
    (digest : '\n' ∉ artefact.contentDigest) : Quiet (memberMarker artefact) := by
  have identity := identityText_oneLine slug digest
  have shape : memberMarker artefact = '#' :: ' ' :: identityText artefact := rfl
  rw [shape]
  apply quiet_comment
  rw [List.mem_cons, not_or]
  exact ⟨by decide, identity⟩

theorem endMarker_quiet {slug : Text} (hyphenated : HyphenatedWords slug) :
    Quiet (endMarker slug) := by
  have slugLine := hyphenated.oneLine
  have shape : endMarker slug = '#' :: (" <<< taskcontrol task=".toList ++ slug ++ " <<<".toList) :=
    rfl
  rw [shape]
  apply quiet_comment
  simp only [List.mem_append, not_or]
  exact ⟨⟨by decide, slugLine⟩, by decide⟩

theorem generatedNotice_quiet : Quiet generatedNotice := ⟨by decide, by decide⟩

/-- Whatever the description, its comment is one line that is not run. -/
theorem descriptionComment_quiet : ∀ line ∈ descriptionComment artefact, Quiet line := by
  unfold descriptionComment
  split
  · intro line member
    cases member
  · intro line member
    rw [List.mem_singleton.mp member]
    have shape : "# ".toList ++ joinWords (splitWords artefact.description) =
        '#' :: ' ' :: joinWords (splitWords artefact.description) := rfl
    rw [shape]
    apply quiet_comment
    rw [List.mem_cons, not_or]
    exact ⟨by decide, newline_not_mem_joinWords artefact.description⟩

/-! ## The line that is run -/

theorem scheduleText (schedule : Text) : joinWords (schedule.splitOn ' ') = schedule :=
  List.intercalate_splitOn ' '

theorem scheduled_words (schedule : Text) :
    joinWords (schedule.splitOn ' ' ++ (userField artefact ++ [artefact.command])) =
      schedule ++ ' ' :: joinWords (userField artefact ++ [artefact.command]) := by
  have some_ : userField artefact ++ [artefact.command] ≠ [] := by simp
  obtain ⟨next, rest, shape⟩ := List.exists_cons_of_ne_nil some_
  rw [shape, joinWords_append _ _ _ (List.splitOn_ne_nil _ _), scheduleText]

/-- The entry is made of the fields, the user where the target has one, and the command. -/
theorem crontabEntry_words {c : Char} {rest : Text} (scheduled : artefact.schedule = some (c :: rest)) :
    crontabEntry artefact = .ok (c :: rest ++ ' ' ::
      joinWords (userField artefact ++ [artefact.command])) := by
  unfold crontabEntry requireSchedule userField
  rw [scheduled]
  simp only [bind, Except.bind]
  split
  · have user : joinWords ([artefact.deployment.executionUser.getD defaultSystemUser] ++
        [artefact.command]) = artefact.deployment.executionUser.getD defaultSystemUser ++
          ' ' :: artefact.command := by
      simp [joinWords]
    rw [user]
    simp [pure, Except.pure]
  · have alone : joinWords ([] ++ [artefact.command]) = artefact.command := by simp [joinWords]
    rw [alone]
    rfl

theorem userField_oneLine : ∀ user ∈ userField artefact, '\n' ∉ user := by
  intro user member
  unfold userField at member
  split at member
  · rw [List.mem_singleton.mp member]
    cases named : artefact.deployment.executionUser with
    | none => exact by decide
    | some name => exact newline_not_mem_token (artefact.deployment.named name named).1
  · cases member

theorem newline_not_mem_fields {words : List Text} (oneLine : ∀ word ∈ words, '\n' ∉ word) :
    '\n' ∉ joinWords words := by
  intro member
  rcases mem_joinWords member with blank | ⟨word, inWords, within⟩
  · cases blank
  · exact oneLine word inWords within

theorem isDecimal_not_hash : isDecimal '#' = false ∧ isDecimal ' ' = false ∧
    isDecimal '\t' = false := by decide

/-- What starts with an asterisk or a digit is run. -/
theorem isDirective_of_starts {c : Char} {rest : Text} (starts : c = '*' ∨ isDecimal c = true) :
    isDirective (c :: rest) = true := by
  obtain ⟨hash, blank, tab⟩ := isDecimal_not_hash
  have notHash : c ≠ '#' := by
    rintro rfl
    simp [hash] at starts
  have notBlank : isBlank c = false := by
    by_contra isBlank_
    simp only [isBlank, Bool.not_eq_false, Bool.or_eq_true, decide_eq_true_eq] at isBlank_
    rcases isBlank_ with rfl | rfl
    · simp [blank] at starts
    · simp [tab] at starts
  unfold isDirective
  rw [List.dropWhile_cons_of_neg (by simp [notBlank])]
  simpa using notHash

/-- An entry with an accepted schedule is one line, and that is run. -/
theorem crontabEntry_directive {schedule : Text} (accepted : AcceptedCron schedule)
    (scheduled : artefact.schedule = some schedule) (command : '\n' ∉ artefact.command) :
    ∃ line, crontabEntry artefact = .ok line ∧ '\n' ∉ line ∧ isDirective line = true ∧
      line = joinWords (scheduleFields artefact ++ (userField artefact ++ [artefact.command])) := by
  obtain ⟨c, rest, rfl, starts⟩ := accepted.starts
  refine ⟨_, crontabEntry_words scheduled, ?_, isDirective_of_starts starts, ?_⟩
  · have words : '\n' ∉ joinWords (userField artefact ++ [artefact.command]) := by
      apply newline_not_mem_fields
      intro word member
      rcases List.mem_append.mp member with user | last
      · exact userField_oneLine word user
      · rw [List.mem_singleton.mp last]
        exact command
    intro member
    rcases List.mem_append.mp member with here | rest
    · exact accepted.oneLine here
    · rcases List.mem_cons.mp rest with blank | later
      · cases blank
      · exact words later
  · have fields : scheduleFields artefact = (c :: rest).splitOn ' ' := by
      unfold scheduleFields
      rw [scheduled]
    rw [fields, scheduled_words]

/-! ## Four renderers -/

/-- What is run of an artefact that is rendered: the lines before the work, and its line. -/
def Runs (artefact : DesiredArtefact) (text : Text) : Prop :=
  directives text = preamble artefact ++
    [joinWords (scheduleFields artefact ++ (userField artefact ++ commandWords artefact))]

/-- The three formats of crontab lines are an entry between comments. -/
theorem runs_entry {schedule : Text} {before after : List Text}
    (own : artefact.deployment.strategy ≠ .runPartsDirectory) (accepted : AcceptedCron schedule)
    (scheduled : artefact.schedule = some schedule) (command : '\n' ∉ artefact.command)
    (quiet : ∀ line ∈ before, Quiet line) (quiet' : ∀ line ∈ after, Quiet line) :
    ∃ line, crontabEntry artefact = .ok line ∧
      Runs artefact (joinLines (before ++ [line] ++ after)) := by
  obtain ⟨line, entry, oneLine, run, words⟩ := crontabEntry_directive accepted scheduled command
  refine ⟨line, entry, ?_⟩
  have none_ : preamble artefact = [] := by
    unfold preamble
    split
    · next runParts => exact absurd runParts own
    · rfl
  have alone : commandWords artefact = [artefact.command] := by
    unfold commandWords
    split
    · next runParts => exact absurd runParts own
    · rfl
  unfold Runs
  rw [none_, alone, ← words]
  apply directives_between quiet quiet'
  · intro other member
    rw [List.mem_singleton.mp member]
    exact oneLine
  · intro other member
    rw [List.mem_singleton.mp member]
    exact run

theorem scheduled_accepted (own : artefact.deployment.strategy.carriesItsOwnSchedule = true)
    (scheduled : Scheduled artefact) :
    ∃ schedule, AcceptedCron schedule ∧ artefact.schedule = some schedule := by
  unfold Scheduled at scheduled
  rw [if_pos own] at scheduled
  obtain ⟨written, text, accepted, shown⟩ := scheduled
  exact ⟨text, normaliseCronExpression_ok accepted, shown⟩

theorem scheduleFields_length (scheduled : Scheduled artefact) :
    (scheduleFields artefact).length =
      if artefact.deployment.strategy.carriesItsOwnSchedule then 5 else 0 := by
  unfold scheduleFields
  split_ifs with own
  · obtain ⟨schedule, accepted, shown⟩ := scheduled_accepted own scheduled
    rw [shown]
    exact accepted.fields
  · unfold Scheduled at scheduled
    rw [if_neg own] at scheduled
    rw [scheduled]
    rfl

theorem commented_quiet (artefact : DesiredArtefact) {lines : List Text} (quiet : ∀ line ∈ lines, Quiet line) :
    ∀ line ∈ lines ++ descriptionComment artefact, Quiet line := by
  intro line member
  rcases List.mem_append.mp member with here | comment
  · exact quiet line here
  · exact descriptionComment_quiet line comment

/-- A script runs its fixed line and the command; its target names no user. -/
theorem runs_script (strategy : artefact.deployment.strategy = .runPartsDirectory)
    (unscheduled : artefact.schedule = none) (slug : HyphenatedWords artefact.slug)
    (digest : '\n' ∉ artefact.contentDigest) (command : '\n' ∉ artefact.command) :
    ∃ text, renderRunPartsScript artefact = .ok text ∧ Runs artefact text := by
  have lines : runPartsScriptLines artefact = .ok (("#!/bin/sh".toList :: beginMarker artefact ::
      generatedNotice :: descriptionComment artefact) ++
        ["set -eu".toList, "exec ".toList ++ artefact.command] ++ [endMarker artefact.slug]) := by
    unfold runPartsScriptLines
    rw [unscheduled]
    simp
  have permitted := artefact.deployment.permitted
  rw [strategy] at permitted
  have target : artefact.deployment.target = .runParts := List.mem_singleton.mp permitted
  have words : joinWords (scheduleFields artefact ++ (userField artefact ++
      commandWords artefact)) = "exec ".toList ++ artefact.command := by
    simp only [scheduleFields, userField, commandWords, unscheduled, strategy, target,
      DeploymentTarget.expressesExecutionUser]
    simp [joinWords]
  refine ⟨_, by rw [renderRunPartsScript, lines]; rfl, ?_⟩
  unfold Runs
  rw [words]
  have fixed : preamble artefact = ["set -eu".toList] := by
    unfold preamble
    rw [strategy]
  rw [fixed]
  apply directives_between
  · intro line member
    rcases List.mem_cons.mp member with rfl | member
    · exact ⟨by decide, by decide⟩
    · rcases List.mem_cons.mp member with rfl | member
      · exact beginMarker_quiet slug digest
      · rcases List.mem_cons.mp member with rfl | member
        · exact generatedNotice_quiet
        · exact descriptionComment_quiet line member
  · intro line member
    rw [List.mem_singleton.mp member]
    exact endMarker_quiet slug
  · intro line member
    rcases List.mem_pair.mp member with rfl | rfl
    · decide
    · rw [List.mem_append, not_or]
      exact ⟨by decide, command⟩
  · intro line member
    rcases List.mem_pair.mp member with rfl | rfl
    · decide
    · rfl

/-- However an artefact with a slug of hyphenated words and a digest and a command of one line
each is deployed, and whatever describes it, exactly one line of what is rendered is run besides
the fixed ones: the five fields of its schedule, the user where the target has one, and the
command. -/
theorem description_never_directive (artefact : DesiredArtefact) (slug : HyphenatedWords artefact.slug)
    (digest : '\n' ∉ artefact.contentDigest) (command : '\n' ∉ artefact.command)
    (scheduled : Scheduled artefact) :
    (scheduleFields artefact).length =
        (if artefact.deployment.strategy.carriesItsOwnSchedule then 5 else 0) ∧
      ∃ text, renderArtefact artefact = .ok text ∧ Runs artefact text := by
  refine ⟨scheduleFields_length scheduled, ?_⟩
  have begins := beginMarker_quiet slug digest
  have ends : ∀ line ∈ [endMarker artefact.slug], Quiet line :=
    List.forall_mem_singleton.mpr (endMarker_quiet slug)
  have region : ∀ line ∈ [beginMarker artefact], Quiet line := List.forall_mem_singleton.mpr begins
  have file : ∀ line ∈ [beginMarker artefact, generatedNotice], Quiet line :=
    List.forall_mem_cons.mpr ⟨begins, List.forall_mem_singleton.mpr generatedNotice_quiet⟩
  have member : ∀ line ∈ [memberMarker artefact], Quiet line :=
    List.forall_mem_singleton.mpr (memberMarker_quiet slug digest)
  cases strategy : artefact.deployment.strategy with
  | runPartsDirectory =>
      unfold Scheduled at scheduled
      rw [strategy] at scheduled
      have script : renderArtefact artefact = renderRunPartsScript artefact := by
        unfold renderArtefact
        rw [strategy]
      rw [script]
      exact runs_script strategy scheduled slug digest command
  | crontabBlockPerTask =>
      obtain ⟨schedule, accepted, shown⟩ := scheduled_accepted (by rw [strategy]; rfl) scheduled
      obtain ⟨line, entry, runs⟩ := runs_entry (by rw [strategy]; decide) accepted shown command
        (commented_quiet artefact region) ends
      refine ⟨_, ?_, runs⟩
      simp [renderArtefact, strategy, renderCrontabRegion, crontabRegionLines, entry, bind,
        Except.bind, pure, Except.pure, Functor.map, Except.map]
  | crontabSingleBlock =>
      obtain ⟨schedule, accepted, shown⟩ := scheduled_accepted (by rw [strategy]; rfl) scheduled
      obtain ⟨line, entry, runs⟩ := runs_entry (by rw [strategy]; decide) accepted shown command
        (commented_quiet artefact member) (List.forall_mem_nil _)
      refine ⟨_, ?_, runs⟩
      simp [renderArtefact, strategy, renderBlockMember, blockMemberLines, entry, bind,
        Except.bind, pure, Except.pure, Functor.map, Except.map]
  | cronDFile =>
      obtain ⟨schedule, accepted, shown⟩ := scheduled_accepted (by rw [strategy]; rfl) scheduled
      obtain ⟨line, entry, runs⟩ := runs_entry (by rw [strategy]; decide) accepted shown command
        (commented_quiet artefact file) ends
      refine ⟨_, ?_, runs⟩
      simp [renderArtefact, strategy, renderCronDFile, cronDFileLines, entry, bind,
        Except.bind, pure, Except.pure, Functor.map, Except.map]

end

/-- The nightly backup with a description that goes on as a crontab line. -/
def brokenDescription : DesiredArtefact :=
  { nightlyBackup .default with description := "First line\n* * * * * /bin/rm -rf /".toList }

theorem description_never_directive_broken :
    (scheduleFields brokenDescription).length = 5 ∧
      ∃ text, renderArtefact brokenDescription = .ok text ∧ Runs brokenDescription text := by
  refine description_never_directive brokenDescription ?_ (by decide) (by decide) ?_
  · have solid : (["nightly".toList, "backup".toList].all fun word =>
        !word.isEmpty && word.all isSlugChar) = true := by decide +kernel
    refine ⟨["nightly".toList, "backup".toList], fun word member => ?_, rfl⟩
    have here := List.all_eq_true.mp solid word member
    simpa using here
  · exact ⟨"0 2 * * *".toList, "0 2 * * *".toList, by decide +kernel, rfl⟩

end TaskControl.Cron
