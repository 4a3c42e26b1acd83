import TaskControl.Cron.Block
import TaskControl.Cron.Stores

/-!
# Planning and applying

The cron scheduler management adapter: which stores back which targets, what a
plan would change, and the apply loop with its rollback.  Planning only reads
and is a function of the host; applying runs store calls that can fail.
-/

set_option autoImplicit false

namespace TaskControl.Cron

open PythonText Effects

/-! ## The layout of a host -/

/-- Which stores back which targets, each with its description. -/
structure CronLayout where
  userCrontab : Option String
  systemCrontab : Option String
  cronD : Option String
  runParts : List (PeriodicClassification × String)
  distinct : (runParts.map Prod.fst).Nodup

def CronLayout.crontabDescription (layout : CronLayout) : CrontabName → Option String
  | .user => layout.userCrontab
  | .system => layout.systemCrontab

def CronLayout.directoryDescription (layout : CronLayout) : DirectoryName → Option String
  | .cronD => layout.cronD
  | .runParts classification =>
      (layout.runParts.find? fun entry => entry.1 = classification).map Prod.snd

def CronLayout.crontabFor (layout : CronLayout) (target : DeploymentTarget) :
    Option CrontabName :=
  match target with
  | .userCrontab => if layout.userCrontab.isSome then some .user else none
  | .systemCrontab => if layout.systemCrontab.isSome then some .system else none
  | .cronD | .runParts => none

def CronLayout.directoryFor (layout : CronLayout) (target : DeploymentTarget)
    (classification : Option PeriodicClassification) : Option DirectoryName :=
  match target, classification with
  | .cronD, _ => if layout.cronD.isSome then some .cronD else none
  | .runParts, some classification =>
      if (layout.directoryDescription (.runParts classification)).isSome
      then some (.runParts classification) else none
  | .runParts, none => none
  | .userCrontab, _ | .systemCrontab, _ => none

def CronLayout.configuredCrontabs (layout : CronLayout) : List CrontabName :=
  (if layout.userCrontab.isSome then [.user] else []) ++
    (if layout.systemCrontab.isSome then [.system] else [])

def CronLayout.configuredDirectories (layout : CronLayout) : List DirectoryName :=
  (if layout.cronD.isSome then [.cronD] else []) ++
    layout.runParts.map fun entry => .runParts entry.1

/-! ## Plans -/

inductive DeploymentChange where
  | create
  | update
  | remove
  | unchanged
  deriving DecidableEq, Repr

def DeploymentChange.modifiesTheHost (change : DeploymentChange) : Bool := change ≠ .unchanged

structure PlanEntry where
  taskId : TaskId
  slug : Text
  change : DeploymentChange
  targetDescription : String
  before : Text
  after : Text
  detail : String
  artefact : Option DesiredArtefact

abbrev DeploymentPlan := List PlanEntry

def entriesChanging (plan : DeploymentPlan) : List PlanEntry :=
  plan.filter fun entry => entry.change.modifiesTheHost

/-- A managed region or block member, as removals and findings see it. -/
structure ManagedEntry where
  slug : Text
  taskId : Text
  text : Text
  deriving DecidableEq, Repr

def ManagedRegion.entry (region : ManagedRegion) : ManagedEntry :=
  ⟨region.slug, region.taskId, region.text⟩

def BlockMember.entry (member : BlockMember) : ManagedEntry :=
  ⟨member.slug, member.taskId, member.text⟩

/-- `[*find_managed_regions(content), *find_block_members(content)]`. -/
def managedEntries (content : Text) : Except TaskControlError (List ManagedEntry) := do
  let regions ← findManagedRegions content
  let members ← findBlockMembers content
  return regions.map ManagedRegion.entry ++ members.map BlockMember.entry

def DesiredArtefact.classificationPhrase (artefact : DesiredArtefact) : String :=
  match artefact.deployment.classification with
  | some classification => s!" for {classification.wire} work"
  | none => ""

/-- `_crontab_for`. -/
def crontabOf (layout : CronLayout) (artefact : DesiredArtefact) :
    Except TaskControlError CrontabName :=
  match layout.crontabFor artefact.deployment.target with
  | some c => .ok c
  | none => .error (configurationError
      (s!"This capability deploys to '{artefact.deployment.target.wire}', which is not " ++
        "configured on this host."))

/-- `_directory_for`. -/
def directoryOf (layout : CronLayout) (artefact : DesiredArtefact) :
    Except TaskControlError DirectoryName :=
  match layout.directoryFor artefact.deployment.target artefact.deployment.classification with
  | some d => .ok d
  | none => .error (configurationError
      (s!"This capability deploys to '{artefact.deployment.target.wire}'" ++
        s!"{artefact.classificationPhrase}, which " ++ "is not configured on this host."))

def crontabText (layout : CronLayout) (c : CrontabName) : String :=
  (layout.crontabDescription c).getD ""

def directoryText (layout : CronLayout) (d : DirectoryName) : String :=
  (layout.directoryDescription d).getD ""

def describe (layout : CronLayout) (artefact : DesiredArtefact) :
    Except TaskControlError String := do
  if artefact.deployment.strategy.writesAFilePerTask then
    let d ← directoryOf layout artefact
    return s!"{directoryText layout d}/{String.ofList artefact.slug}"
  else
    let c ← crontabOf layout artefact
    return crontabText layout c

def assertSameCapability (artefact : DesiredArtefact) (deployedTaskId : Text) (place : String) :
    Except TaskControlError Unit :=
  if deployedTaskId = artefact.taskId.text then .ok ()
  else .error (ambiguousManagedContentError
    (s!"'{String.ofList artefact.slug}' is already deployed to {place} for a different " ++
      "capability. Overwriting it would silently replace that capability's schedule with this " ++
      "one. Two capabilities cannot share a slug."))

theorem CronLayout.crontabFor_configured {layout : CronLayout} {target : DeploymentTarget}
    {c : CrontabName} (found : layout.crontabFor target = some c) :
    c ∈ layout.configuredCrontabs := by
  unfold CronLayout.crontabFor at found
  unfold CronLayout.configuredCrontabs
  cases target with
  | userCrontab | systemCrontab =>
      simp only at found
      split at found <;> simp_all
  | cronD | runParts => cases found

theorem CronLayout.directoryFor_configured {layout : CronLayout} {target : DeploymentTarget}
    {classification : Option PeriodicClassification} {d : DirectoryName}
    (found : layout.directoryFor target classification = some d) :
    d ∈ layout.configuredDirectories := by
  unfold CronLayout.configuredDirectories
  cases target with
  | userCrontab | systemCrontab => cases classification <;> cases found
  | cronD =>
      simp only [CronLayout.directoryFor] at found
      split at found <;> simp_all
  | runParts =>
      cases classification with
      | none => cases found
      | some classification =>
          simp only [CronLayout.directoryFor] at found
          split at found
          · rename_i described
            obtain rfl : DirectoryName.runParts classification = d := Option.some.inj found
            obtain ⟨description, entryFound⟩ := Option.isSome_iff_exists.mp described
            obtain ⟨entry, inRunParts, _⟩ := Option.map_eq_some_iff.mp entryFound
            have named : entry.1 = classification := by
              simpa using List.find?_some inRunParts
            have member := List.mem_of_find?_eq_some inRunParts
            exact List.mem_append_right _ (List.mem_map.mpr ⟨entry, member, by rw [named]⟩)
          · cases found

theorem crontabOf_configured {layout : CronLayout} {artefact : DesiredArtefact} {c : CrontabName}
    (found : crontabOf layout artefact = .ok c) : c ∈ layout.configuredCrontabs := by
  unfold crontabOf at found
  split at found
  · rename_i other same
    cases found
    exact CronLayout.crontabFor_configured same
  · cases found

theorem directoryOf_configured {layout : CronLayout} {artefact : DesiredArtefact}
    {d : DirectoryName} (found : directoryOf layout artefact = .ok d) :
    d ∈ layout.configuredDirectories := by
  unfold directoryOf at found
  split at found
  · rename_i other same
    cases found
    exact CronLayout.directoryFor_configured same
  · cases found

/-! ## What is deployed for an artefact -/

/-- The part of `_current_content` after a file was read. -/
def deployedFile (layout : CronLayout) (artefact : DesiredArtefact) (d : DirectoryName)
    (content : Text) : Except TaskControlError Text := do
  if content = [] then return []
  else
    match ← findManagedRegions content with
    | [] => throw (ambiguousManagedContentError
        (s!"{directoryText layout d}/{String.ofList artefact.slug} exists but carries no " ++
          "TaskControl marker, so it was written by somebody else. TaskControl " ++
          "will not overwrite it. Rename the task, or remove the file by hand."))
    | region :: _ =>
        assertSameCapability artefact region.taskId (← describe layout artefact)
        return content

/-- The part of `_current_content` after a crontab was read. -/
def deployedEntry (layout : CronLayout) (artefact : DesiredArtefact) (c : CrontabName)
    (content : Text) : Except TaskControlError Text := do
  if artefact.deployment.strategy = .crontabSingleBlock then
    match (← findBlockMembers content).find? (·.slug = artefact.slug) with
    | none => return []
    | some member =>
        assertSameCapability artefact member.taskId (crontabText layout c)
        return member.text
  else
    match (← findManagedRegions content).find? (·.slug = artefact.slug) with
    | none => return []
    | some region =>
        assertSameCapability artefact region.taskId (crontabText layout c)
        return region.text

/-- Reading a file on a host whose stores answer. -/
def Host.readNamed (host : Host) (d : DirectoryName) (name : Text) :
    Except TaskControlError Text :=
  if plainName name then .ok (host.readFile d name)
  else .error (configurationError "A cron artefact name must be a plain file name.")

/-- `_current_content`. -/
def currentContent (layout : CronLayout) (host : Host) (artefact : DesiredArtefact) :
    Except TaskControlError Text := do
  if artefact.deployment.strategy.writesAFilePerTask then
    let d ← directoryOf layout artefact
    deployedFile layout artefact d (← host.readNamed d artefact.slug)
  else
    let c ← crontabOf layout artefact
    deployedEntry layout artefact c (host.readCrontab c)

/-! ## Planning -/

def planOne (layout : CronLayout) (host : Host) (artefact : DesiredArtefact) :
    Except TaskControlError PlanEntry := do
  let rendered ← renderArtefact artefact
  let current ← currentContent layout host artefact
  let targetDescription ← describe layout artefact
  if current = [] then
    return ⟨artefact.taskId, artefact.slug, .create, targetDescription, [], rendered,
      "No managed artefact exists for this capability yet.", some artefact⟩
  else if current = rendered then
    return ⟨artefact.taskId, artefact.slug, .unchanged, targetDescription, current, rendered, "",
      some artefact⟩
  else
    return ⟨artefact.taskId, artefact.slug, .update, targetDescription, current, rendered,
      "The deployed artefact differs from the published revision.", some artefact⟩

def removalDetail : String := "Managed here, but no longer part of the deployed estate."

/-- The removals planned in one crontab. -/
def crontabRemovals (layout : CronLayout) (host : Host) (desiredSlugs : List Text)
    (c : CrontabName) : Except TaskControlError (List PlanEntry) := do
  let managed ← managedEntries (host.readCrontab c)
  (managed.filter (·.slug ∉ desiredSlugs)).mapM fun held => do
    let taskId ← EntityId.fromPrimitive .task held.taskId
    return ⟨taskId, held.slug, .remove, crontabText layout c, held.text, [], removalDetail, none⟩

/-- The removal planned for one file, if it is managed. -/
def fileRemoval (layout : CronLayout) (host : Host) (d : DirectoryName) (name : Text) :
    Except TaskControlError (List PlanEntry) := do
  let content ← host.readNamed d name
  match ← findManagedRegions content with
  | [] => return []
  | region :: _ =>
      let taskId ← EntityId.fromPrimitive .task region.taskId
      return [⟨taskId, region.slug, .remove,
        s!"{directoryText layout d}/{String.ofList name}", content, [], removalDetail, none⟩]

def directoryRemovals (layout : CronLayout) (host : Host) (desiredSlugs : List Text)
    (d : DirectoryName) : Except TaskControlError (List PlanEntry) :=
  List.flatten <$> (((host.directory d).names.filter (· ∉ desiredSlugs)).mapM
    (fileRemoval layout host d))

def planRemovals (layout : CronLayout) (host : Host) (desiredSlugs : List Text) :
    Except TaskControlError (List PlanEntry) := do
  let crontabs ← layout.configuredCrontabs.mapM (crontabRemovals layout host desiredSlugs)
  let directories ← layout.configuredDirectories.mapM (directoryRemovals layout host desiredSlugs)
  return crontabs.flatten ++ directories.flatten

def plan (layout : CronLayout) (host : Host) (desired : List DesiredArtefact) :
    Except TaskControlError DeploymentPlan := do
  let entries ← desired.mapM (planOne layout host)
  let removals ← planRemovals layout host (desired.map DesiredArtefact.slug)
  return entries ++ removals

/-! ## Applying -/

/-- A step that raises a `TaskControlError`. -/
def raising {α : Type} (step : Except TaskControlError α) : StoreM α :=
  match step with
  | .ok a => pure a
  | .error problem => throw (.taskControl problem)

/-- Raised when reading an artefact back does not match what was just written. -/
def verificationFailed {α : Type} (message : String) : StoreM α := throw (.other message)

def captureCrontab (c : CrontabName) (content : Text) : StoreM Unit :=
  modify fun session =>
    if session.snapshot.crontabs.any (·.1 = c) then session
    else { session with snapshot :=
      { session.snapshot with crontabs := session.snapshot.crontabs ++ [(c, content)] } }

def captureFile (d : DirectoryName) (name content : Text) : StoreM Unit :=
  modify fun session =>
    if session.snapshot.files.any (fun held => held.1 = d ∧ held.2.1 = name) then session
    else { session with snapshot :=
      { session.snapshot with files := session.snapshot.files ++ [(d, name, content)] } }

/-- Writes one file and reads it back. -/
def writeArtefactFile (faults : Faults) (layout : CronLayout) (entry : PlanEntry)
    (artefact : DesiredArtefact) : StoreM Text := do
  let d ← raising (directoryOf layout artefact)
  captureFile d artefact.slug (← readFile faults d artefact.slug)
  writeFile faults d artefact.slug entry.after
    (artefact.deployment.strategy = .runPartsDirectory)
  readFile faults d artefact.slug

/-- Writes one crontab entry and reads it back. -/
def writeArtefactEntry (faults : Faults) (layout : CronLayout) (entry : PlanEntry)
    (artefact : DesiredArtefact) : StoreM Text := do
  let c ← raising (crontabOf layout artefact)
  let original ← readCrontab faults c
  captureCrontab c original
  if artefact.deployment.strategy = .crontabSingleBlock then
    writeCrontab faults c (← raising (upsertBlockMember original artefact.slug entry.after))
  else
    writeCrontab faults c (← raising (replaceRegion original artefact.slug entry.after))
  raising (deployedEntry layout artefact c (← readCrontab faults c))

/-- `_apply_write`. -/
def applyWrite (faults : Faults) (layout : CronLayout) (entry : PlanEntry) : StoreM Unit :=
  match entry.artefact with
  | none => throw (.taskControl (configurationError
      "A create or update entry must carry the artefact it deploys."))
  | some artefact => do
      let written ←
        if artefact.deployment.strategy.writesAFilePerTask then
          writeArtefactFile faults layout entry artefact
        else writeArtefactEntry faults layout entry artefact
      if strip written ≠ strip entry.after then
        verificationFailed
          (s!"After writing '{String.ofList artefact.slug}' to {entry.targetDescription}, " ++
            "reading it back produced something different. The write did not take effect " ++
            "where TaskControl expected it to.")

/-- Whether a crontab text holds an entry of the slug, in a region and in the block. -/
def heldForms (slug content : Text) : Except TaskControlError (Bool × Bool) := do
  let regions ← findManagedRegions content
  let members ← findBlockMembers content
  return (regions.any (·.slug = slug), members.any (·.slug = slug))

/-- The text without the slug's entry, in the forms it was found in. -/
def withoutEntry (slug : Text) (inRegion inBlock : Bool) (original : Text) :
    Except TaskControlError Text := do
  let updated ← if inRegion then removeRegion original slug else pure original
  if inBlock then removeBlockMember updated slug else pure updated

/-- The check after a removal, which looks for a member only without a region. -/
def stillHeld (slug content : Text) : Except TaskControlError Bool := do
  let regions ← findManagedRegions content
  if regions.any (·.slug = slug) then return true
  else
    let members ← findBlockMembers content
    return members.any (·.slug = slug)

/-- The round of `_apply_removal` for one crontab. -/
def removeFromCrontab (faults : Faults) (layout : CronLayout) (slug : Text) (c : CrontabName) :
    StoreM PUnit := do
  let original ← readCrontab faults c
  let (inRegion, inBlock) ← raising (heldForms slug original)
  if inRegion || inBlock then
    captureCrontab c original
    writeCrontab faults c (← raising (withoutEntry slug inRegion inBlock original))
    if ← raising (stillHeld slug (← readCrontab faults c)) then
      verificationFailed
        (s!"'{String.ofList slug}' is still present in {crontabText layout c} after removing it.")

/-- The round of `_apply_removal` for one directory. -/
def removeFromDirectory (faults : Faults) (layout : CronLayout) (slug : Text)
    (d : DirectoryName) : StoreM PUnit := do
  let content ← readFile faults d slug
  if content ≠ [] then
    let regions ← raising (findManagedRegions content)
    if regions ≠ [] then
      captureFile d slug content
      removeFile faults d slug
      if (← readFile faults d slug) ≠ [] then
        verificationFailed
          (s!"'{String.ofList slug}' is still present in {directoryText layout d} after " ++
            "removing it.")

/-- `_apply_removal`. -/
def applyRemoval (faults : Faults) (layout : CronLayout) (entry : PlanEntry) : StoreM Unit := do
  layout.configuredCrontabs.forM (removeFromCrontab faults layout entry.slug)
  layout.configuredDirectories.forM (removeFromDirectory faults layout entry.slug)

def applyEntry (faults : Faults) (layout : CronLayout) (entry : PlanEntry) : StoreM Unit :=
  if entry.change = .remove then applyRemoval faults layout entry
  else applyWrite faults layout entry

/-- Only a shebang tells a restored file's mode. -/
def looksExecutable (content : Text) : Bool := ['#', '!'].isPrefixOf content

/-- `_Snapshot.restore`. -/
def restore (faults : Faults) : StoreM Unit := do
  let snapshot := (← get).snapshot
  snapshot.crontabs.reverse.forM fun (c, content) => writeCrontab faults c content
  snapshot.files.reverse.forM fun (d, name, content) =>
    if content ≠ [] then writeFile faults d name content (looksExecutable content)
    else removeFile faults d name

structure ApplyResult where
  applied : List PlanEntry
  rolledBack : Bool
  failure : String

def ApplyResult.succeeded (result : ApplyResult) : Bool :=
  result.failure = "" && !result.rolledBack

/-- `_roll_back`. -/
def rollBack (faults : Faults) (entry : PlanEntry) (error : Raised) : StoreM ApplyResult :=
  handle
    (do
      restore faults
      return ⟨[], true,
        s!"Applying failed on '{String.ofList entry.slug}': {error.text}. Nothing was changed."⟩)
    fun rollbackError =>
      if rollbackError.isException then
        return ⟨[], false,
          s!"Applying failed on '{String.ofList entry.slug}' ({error.text}), and rolling back " ++
            s!"also failed ({rollbackError.text}). The host may be partially deployed. " ++
            "Run verify before doing anything else."⟩
      else throw rollbackError

/-- The loop of `apply` over the entries not yet applied. -/
def applyEntries (faults : Faults) (layout : CronLayout) (applied : List PlanEntry) :
    List PlanEntry → StoreM ApplyResult
  | [] => return ⟨applied, false, ""⟩
  | entry :: rest => do
      let failure ← handle (applyEntry faults layout entry *> pure none) fun error =>
        if error.isException then pure (some error) else throw error
      match failure with
      | some error => rollBack faults entry error
      | none => applyEntries faults layout (applied ++ [entry]) rest

def apply (faults : Faults) (layout : CronLayout) (plan : DeploymentPlan) :
    StoreM ApplyResult :=
  applyEntries faults layout [] (entriesChanging plan)

end TaskControl.Cron
