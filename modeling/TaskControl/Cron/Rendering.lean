import TaskControl.Cron.Markers
import TaskControl.Domain.Identifiers
import TaskControl.Domain.Strategies

/-!
# Rendering managed cron artefacts

Text in, text out, and no clock: the renderers, and the theorems that what they
write is recognised by the marker patterns as what it is.
-/

set_option autoImplicit false

namespace TaskControl.Cron

open PythonText LinePattern

/-- One capability's activation intent, ready to be rendered. -/
structure DesiredArtefact where
  taskId : TaskId
  slug : Text
  deployment : DeploymentSpecification
  command : Text
  contentDigest : Text
  schedule : Option Text
  description : Text

def defaultSystemUser : Text := "root".toList

/-! ## Renderers -/

def generatedNotice : Text :=
  "# Managed by TaskControl. Edits between the markers are overwritten on the next apply.".toList

def blockBeginMarker : Text := "# >>> taskcontrol block >>>".toList

def blockEndMarker : Text := "# <<< taskcontrol block <<<".toList

/-- The words that a begin marker and an identity comment share. -/
def identityText (artefact : DesiredArtefact) : Text :=
  "taskcontrol task=".toList ++ artefact.slug ++ " id=".toList ++ artefact.taskId.text ++
    " digest=".toList ++ artefact.contentDigest

def beginMarker (artefact : DesiredArtefact) : Text :=
  "# >>> ".toList ++ identityText artefact ++ " >>>".toList

def endMarker (slug : Text) : Text := "# <<< taskcontrol task=".toList ++ slug ++ " <<<".toList

/-- The identity comment that opens a block member. -/
def memberMarker (artefact : DesiredArtefact) : Text := "# ".toList ++ identityText artefact

def requireSchedule (artefact : DesiredArtefact) : Except TaskControlError Text :=
  match artefact.schedule with
  | some (c :: rest) => .ok (c :: rest)
  | _ => .error (validationError
      (s!"A '{artefact.deployment.strategy.wire}' artefact states when the work runs, so " ++
        "it needs a schedule. Give the revision a cron expression, or deploy it " ++
        "through a run-parts directory whose cadence comes from the directory."))

def descriptionComment (artefact : DesiredArtefact) : List Text :=
  if strip artefact.description = [] then []
  else ["# ".toList ++ joinWords (splitWords artefact.description)]

def crontabEntry (artefact : DesiredArtefact) : Except TaskControlError Text := do
  let schedule ← requireSchedule artefact
  if artefact.deployment.target.expressesExecutionUser then
    let user := artefact.deployment.executionUser.getD defaultSystemUser
    return schedule ++ ' ' :: user ++ ' ' :: artefact.command
  else return schedule ++ ' ' :: artefact.command

def crontabRegionLines (artefact : DesiredArtefact) : Except TaskControlError (List Text) := do
  let entry ← crontabEntry artefact
  return beginMarker artefact :: descriptionComment artefact ++ [entry, endMarker artefact.slug]

def renderCrontabRegion (artefact : DesiredArtefact) : Except TaskControlError Text :=
  joinLines <$> crontabRegionLines artefact

def cronDFileLines (artefact : DesiredArtefact) : Except TaskControlError (List Text) := do
  let entry ← crontabEntry artefact
  return beginMarker artefact :: generatedNotice :: descriptionComment artefact ++
    [entry, endMarker artefact.slug]

def renderCronDFile (artefact : DesiredArtefact) : Except TaskControlError Text :=
  joinLines <$> cronDFileLines artefact

def runPartsScriptLines (artefact : DesiredArtefact) : Except TaskControlError (List Text) :=
  match artefact.schedule with
  | some (_ :: _) => .error (validationError
      ("A run-parts artefact takes its cadence from the directory, so a schedule " ++
        "here would be silently ignored."))
  | _ => .ok ("#!/bin/sh".toList :: beginMarker artefact :: generatedNotice ::
      descriptionComment artefact ++
        ["set -eu".toList, "exec ".toList ++ artefact.command, endMarker artefact.slug])

def renderRunPartsScript (artefact : DesiredArtefact) : Except TaskControlError Text :=
  joinLines <$> runPartsScriptLines artefact

def blockMemberLines (artefact : DesiredArtefact) : Except TaskControlError (List Text) := do
  let entry ← crontabEntry artefact
  return memberMarker artefact :: descriptionComment artefact ++ [entry]

def renderBlockMember (artefact : DesiredArtefact) : Except TaskControlError Text :=
  joinLines <$> blockMemberLines artefact

def renderArtefact (artefact : DesiredArtefact) : Except TaskControlError Text :=
  match artefact.deployment.strategy with
  | .runPartsDirectory => renderRunPartsScript artefact
  | .cronDFile => renderCronDFile artefact
  | .crontabSingleBlock => renderBlockMember artefact
  | .crontabBlockPerTask => renderCrontabRegion artefact

/-! ## What is written is recognised -/

/-- The slug and the digest are single words, as a `Slug` and a revision digest
are; the identifier's text is one always. -/
structure DesiredArtefact.Tokens (artefact : DesiredArtefact) : Prop where
  slug : Token artefact.slug
  digest : Token artefact.contentDigest

def DesiredArtefact.identity (artefact : DesiredArtefact) : Identity :=
  ⟨artefact.slug, artefact.taskId.text, artefact.contentDigest⟩

theorem markerHead_written {mark : Text} (token : Token mark) (rest : Text) :
    markerHead mark ("# ".toList ++ mark ++ " taskcontrol ".toList ++ rest) =
      some (lstrip rest) := by
  have hash : literal ['#'] ("# ".toList ++ mark ++ " taskcontrol ".toList ++ rest) =
      some (' ' :: (mark ++ " taskcontrol ".toList ++ rest)) := literal_append ['#'] _
  have marked : literal mark (lstrip (' ' :: (mark ++ " taskcontrol ".toList ++ rest))) =
      some (" taskcontrol ".toList ++ rest) := by
    rw [lstrip_space, List.append_assoc, lstrip_token token]
    exact literal_append mark _
  have named : literal "taskcontrol".toList (lstrip (" taskcontrol ".toList ++ rest)) =
      some (' ' :: rest) := literal_append "taskcontrol".toList (' ' :: rest)
  simp only [markerHead, hash, marked, named, Option.bind_eq_bind, Option.bind_some, blanks_space]

theorem markerHead_written_bare (rest : Text) :
    markerHead [] ("# taskcontrol ".toList ++ rest) = some (lstrip rest) := by
  have hash : literal ['#'] ("# taskcontrol ".toList ++ rest) =
      some (" taskcontrol ".toList ++ rest) := literal_append ['#'] _
  have marked : literal [] (lstrip (" taskcontrol ".toList ++ rest)) =
      some ("taskcontrol ".toList ++ rest) := literal_append [] ("taskcontrol ".toList ++ rest)
  have named : literal "taskcontrol".toList (lstrip ("taskcontrol ".toList ++ rest)) =
      some (' ' :: rest) := literal_append "taskcontrol".toList (' ' :: rest)
  simp only [markerHead, hash, marked, named, Option.bind_eq_bind, Option.bind_some, blanks_space]

theorem identity_written {slug taskId digest closing tail : Text} (slugToken : Token slug)
    (idToken : Token taskId) (last : lastWord closing (digest ++ tail) = some digest) :
    identity closing ("task=".toList ++ slug ++ " id=".toList ++ taskId ++ " digest=".toList ++
      digest ++ tail) = some ⟨slug, taskId, digest⟩ := by
  have shape : "task=".toList ++ slug ++ " id=".toList ++ taskId ++ " digest=".toList ++ digest ++
      tail = "task=".toList ++ (slug ++ ' ' :: ("id=".toList ++ (taskId ++ ' ' ::
        ("digest=".toList ++ (digest ++ tail))))) := by simp
  have blank (rest : Text) : blanks (' ' :: ("id=".toList ++ rest)) = some ("id=".toList ++ rest) :=
    rfl
  have blank' (rest : Text) :
      blanks (' ' :: ("digest=".toList ++ rest)) = some ("digest=".toList ++ rest) := rfl
  rw [shape]
  simp only [identity, literal_append, word_token slugToken, word_token idToken, blank, blank',
    last, Option.bind_eq_bind, Option.bind_some, Option.pure_def]

theorem lstrip_task (rest : Text) : lstrip ("task=".toList ++ rest) = "task=".toList ++ rest := rfl

theorem opening_token : Token ">>>".toList := by decide

theorem closing_token : Token "<<<".toList := by decide

theorem matchBegin_beginMarker {artefact : DesiredArtefact} (tokens : artefact.Tokens) :
    matchBegin (beginMarker artefact) = some artefact.identity := by
  have idToken := artefact.taskId.text_token
  unfold beginMarker identityText DesiredArtefact.identity
  generalize artefact.taskId.text = taskId at idToken
  have shape : "# >>> ".toList ++ ("taskcontrol task=".toList ++ artefact.slug ++ " id=".toList ++
      taskId ++ " digest=".toList ++ artefact.contentDigest) ++ " >>>".toList =
        "# ".toList ++ ">>>".toList ++ " taskcontrol ".toList ++
          ("task=".toList ++ artefact.slug ++ " id=".toList ++ taskId ++
            " digest=".toList ++ artefact.contentDigest ++ " >>>".toList) := by
    simp
  rw [matchBegin, shape, markerHead_written opening_token]
  exact identity_written tokens.slug idToken (lastWord_closing tokens.digest opening_token)

theorem matchMember_memberMarker {artefact : DesiredArtefact} (tokens : artefact.Tokens) :
    matchMember (memberMarker artefact) = some artefact.identity := by
  have idToken := artefact.taskId.text_token
  unfold memberMarker identityText DesiredArtefact.identity
  generalize artefact.taskId.text = taskId at idToken
  have shape : "# ".toList ++ ("taskcontrol task=".toList ++ artefact.slug ++ " id=".toList ++
      taskId ++ " digest=".toList ++ artefact.contentDigest) =
        "# taskcontrol ".toList ++ ("task=".toList ++ artefact.slug ++ " id=".toList ++ taskId ++
          " digest=".toList ++ artefact.contentDigest ++ []) := by
    simp
  rw [matchMember, shape, markerHead_written_bare]
  refine identity_written tokens.slug idToken ?_
  rw [List.append_nil]
  exact lastWord_token tokens.digest

theorem matchEnd_endMarker {slug : Text} (token : Token slug) :
    matchEnd (endMarker slug) = some slug := by
  have shape : endMarker slug = "# ".toList ++ "<<<".toList ++ " taskcontrol ".toList ++
      ("task=".toList ++ (slug ++ ' ' :: "<<<".toList)) := by
    unfold endMarker
    simp
  have last := lastWord_closing token closing_token
  rw [matchEnd, shape, markerHead_written closing_token, lstrip_task]
  simp only [Option.bind_eq_bind, Option.bind_some, literal_append]
  exact last

theorem matchBlockBegin_blockBeginMarker : matchBlockBegin blockBeginMarker = some () := by
  decide

theorem matchBlockEnd_blockEndMarker : matchBlockEnd blockEndMarker = some () := by
  decide

theorem generatedNotice_plain : looksLikeMarker generatedNotice = false := by
  decide

end TaskControl.Cron
