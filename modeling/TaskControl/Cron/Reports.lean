import TaskControl.Cron.Ambiguity

/-!
# What verification reports

The comparison of one artefact turns ambiguity into a finding.  The scan for
unexpected entries reads the same texts and more, and turns nothing into a finding.
-/

set_option autoImplicit false

namespace TaskControl.Cron

open PythonText Effects

/-! ## Errors that content raises -/

/-- The only errors are of ambiguous content. -/
def OnlyAmbiguous {α : Type} (result : Except TaskControlError α) : Prop :=
  ∀ problem, result = .error problem → problem.errorClass = .ambiguousManagedContent

theorem onlyAmbiguous_ok {α : Type} (a : α) :
    OnlyAmbiguous (.ok a : Except TaskControlError α) := by
  intro problem failed
  cases failed

theorem onlyAmbiguous_error {α : Type} (message : String) :
    OnlyAmbiguous (.error (ambiguousManagedContentError message) : Except TaskControlError α) := by
  intro problem failed
  cases failed
  rfl

theorem OnlyAmbiguous.bind {α β : Type} {first : Except TaskControlError α}
    {next : α → Except TaskControlError β} (only : OnlyAmbiguous first)
    (later : ∀ a, first = .ok a → OnlyAmbiguous (next a)) : OnlyAmbiguous (first >>= next) := by
  intro problem failed
  cases result : first with
  | error problem' =>
      rw [result] at failed
      cases failed
      exact only _ result
  | ok a =>
      rw [result] at failed
      exact later a result problem failed

theorem scanRegions_onlyAmbiguous (lines rest : List Text) (index : Nat)
    (opened : Option (Nat × Identity)) : OnlyAmbiguous (scanRegions lines index opened rest) := by
  induction rest generalizing index opened with
  | nil =>
      cases opened with
      | none => exact onlyAmbiguous_ok []
      | some opening => exact onlyAmbiguous_error _
  | cons line rest ih =>
      rw [scanRegions]
      split
      · split
        · exact onlyAmbiguous_error _
        · exact ih (index + 1) _
      · split
        · exact ih (index + 1) opened
        · split
          · exact onlyAmbiguous_error _
          · split
            · exact onlyAmbiguous_error _
            · apply (ih (index + 1) none).bind
              intro regions _
              exact onlyAmbiguous_ok _

theorem assertDistinct_onlyAmbiguous {α : Type} (taskId : α → Text) (message : α → String)
    (seen : List Text) (entries : List α) :
    OnlyAmbiguous (assertDistinct taskId (fun entry => ambiguousManagedContentError (message entry))
      seen entries) := by
  induction entries generalizing seen with
  | nil => exact onlyAmbiguous_ok ()
  | cons entry rest ih =>
      unfold assertDistinct
      split
      · exact onlyAmbiguous_error _
      · exact ih _

theorem findManagedRegions_onlyAmbiguous (content : Text) :
    OnlyAmbiguous (findManagedRegions content) := by
  apply (scanRegions_onlyAmbiguous (splitLines content) (splitLines content) 0 none).bind
  intro regions _
  apply (assertDistinct_onlyAmbiguous ManagedRegion.taskId _ [] regions).bind
  intro _ _
  exact onlyAmbiguous_ok regions

theorem scanBlock_onlyAmbiguous (lines : List Text) (index : Nat) (start stop : Option Nat) :
    OnlyAmbiguous (scanBlock index start stop lines) := by
  induction lines generalizing index start stop with
  | nil => exact onlyAmbiguous_ok _
  | cons line rest ih =>
      unfold scanBlock
      split
      · split
        · exact onlyAmbiguous_error _
        · exact ih _ _ _
      · split
        · split
          · exact onlyAmbiguous_error _
          · exact ih _ _ _
        · exact ih _ _ _

theorem findBlockMembers_onlyAmbiguous (content : Text) :
    OnlyAmbiguous (findBlockMembers content) := by
  have bounds : OnlyAmbiguous (blockBounds content) := by
    apply (scanBlock_onlyAmbiguous (splitLines content) 0 none none).bind
    rintro ⟨start, stop⟩ _
    cases start with
    | none => exact onlyAmbiguous_ok _
    | some start =>
        cases stop with
        | none => exact onlyAmbiguous_error _
        | some stop => exact onlyAmbiguous_ok _
  apply bounds.bind
  intro found _
  cases found with
  | none => exact onlyAmbiguous_ok []
  | some bounds =>
      apply (assertDistinct_onlyAmbiguous BlockMember.taskId _ [] _).bind
      intro _ _
      exact onlyAmbiguous_ok _

theorem assertSame_onlyAmbiguous (artefact : DesiredArtefact) (taskId : Text) (place : String) :
    OnlyAmbiguous (assertSameCapability artefact taskId place) := by
  unfold assertSameCapability
  split
  · exact onlyAmbiguous_ok ()
  · exact onlyAmbiguous_error _

section Reports

variable {layout : CronLayout} {host : Host} {desired : List DesiredArtefact}

/-- The content of the artefact's own store does not say that its place is free or its own. -/
def StoreAmbiguous (host : Host) (artefact : DesiredArtefact) : Placement → Prop
  | .entry c .region =>
      ∀ regions, findManagedRegions (host.readCrontab c) = .ok regions →
        ∃ region, regions.find? (·.slug = artefact.slug) = some region ∧
          region.taskId ≠ artefact.taskId.text
  | .entry c .member =>
      ∀ members, findBlockMembers (host.readCrontab c) = .ok members →
        ∃ member, members.find? (·.slug = artefact.slug) = some member ∧
          member.taskId ≠ artefact.taskId.text
  | .file d =>
      host.readFile d artefact.slug ≠ [] ∧
        ∀ region rest, findManagedRegions (host.readFile d artefact.slug) = .ok (region :: rest) →
          region.taskId ≠ artefact.taskId.text

/-- What is deployed for a placed artefact fails to be read only as ambiguous. -/
theorem currentContent_onlyAmbiguous {artefact : DesiredArtefact} {place : Placement}
    (placed : placement layout artefact = some place)
    (plain : artefact.deployment.strategy.writesAFilePerTask = true →
      plainName artefact.slug = true) :
    OnlyAmbiguous (currentContent layout host artefact) := by
  obtain ⟨target, described⟩ := describe_of_placement placed
  unfold currentContent
  cases place with
  | file d =>
      obtain ⟨file, found⟩ := directoryOf_of_placement placed
      rw [if_pos file, found]
      change OnlyAmbiguous (host.readNamed d artefact.slug >>= deployedFile layout artefact d)
      rw [Host.readNamed, if_pos (plain file)]
      change OnlyAmbiguous (deployedFile layout artefact d (host.readFile d artefact.slug))
      unfold deployedFile
      split
      · exact onlyAmbiguous_ok []
      · apply (findManagedRegions_onlyAmbiguous _).bind
        intro regions _
        cases regions with
        | nil => exact onlyAmbiguous_error _
        | cons region rest =>
            rw [described]
            apply (assertSame_onlyAmbiguous artefact region.taskId target).bind
            intro _ _
            exact onlyAmbiguous_ok _
  | entry c form =>
      obtain ⟨crontab, found, _⟩ := crontabOf_of_placement placed
      rw [if_neg crontab, found]
      change OnlyAmbiguous (deployedEntry layout artefact c (host.readCrontab c))
      unfold deployedEntry
      split
      · apply (findBlockMembers_onlyAmbiguous _).bind
        intro members _
        split
        · exact onlyAmbiguous_ok []
        · apply (assertSame_onlyAmbiguous artefact _ _).bind
          intro _ _
          exact onlyAmbiguous_ok _
      · apply (findManagedRegions_onlyAmbiguous _).bind
        intro regions _
        split
        · exact onlyAmbiguous_ok []
        · apply (assertSame_onlyAmbiguous artefact _ _).bind
          intro _ _
          exact onlyAmbiguous_ok _

theorem readNamed_plain {d : DirectoryName} {name : Text} (plain : plainName name = true) :
    host.readNamed d name = .ok (host.readFile d name) := if_pos plain

theorem sameCapability_isError_iff {artefact : DesiredArtefact} {taskId : Text} {place : String}
    {content : Text} :
    (∃ problem, (do
      assertSameCapability artefact taskId place
      return content : Except TaskControlError Text) = .error problem) ↔
        taskId ≠ artefact.taskId.text := by
  unfold assertSameCapability
  split
  · next same => simp [same, bind, Except.bind, pure, Except.pure]
  · next other => simp [other, bind, Except.bind]

/-- Reading what is deployed for an artefact fails exactly where its own store is ambiguous. -/
theorem currentContent_isError_iff {artefact : DesiredArtefact} {place : Placement}
    (placed : placement layout artefact = some place)
    (plain : artefact.deployment.strategy.writesAFilePerTask = true →
      plainName artefact.slug = true) :
    (∃ problem, currentContent layout host artefact = .error problem) ↔
      StoreAmbiguous host artefact place := by
  obtain ⟨target, described⟩ := describe_of_placement placed
  unfold currentContent
  cases place with
  | file d =>
      obtain ⟨file, found⟩ := directoryOf_of_placement placed
      rw [if_pos file, found]
      simp only [bind, Except.bind, readNamed_plain (plain file)]
      unfold deployedFile StoreAmbiguous
      by_cases empty : host.readFile d artefact.slug = []
      · simp [empty, pure, Except.pure]
      · rw [if_neg empty, described]
        simp only [ne_eq, empty, not_false_eq_true, true_and]
        cases scanned : findManagedRegions (host.readFile d artefact.slug) with
        | error problem => simp [bind, Except.bind]
        | ok regions =>
            cases regions with
            | nil => simp [bind, Except.bind, throw, throwThe, MonadExceptOf.throw]
            | cons region rest =>
                have first : (∀ region' rest', region :: rest = region' :: rest' →
                    ¬ region'.taskId = artefact.taskId.text) ↔
                    region.taskId ≠ artefact.taskId.text := by
                  constructor
                  · intro other
                    exact other region rest rfl
                  · rintro other _ _ ⟨⟩
                    exact other
                simp only [bind, Except.bind, Except.ok.injEq]
                rw [first]
                exact sameCapability_isError_iff
  | entry c form =>
      obtain ⟨crontab, found, same⟩ := crontabOf_of_placement placed
      rw [if_neg crontab, found]
      simp only [bind, Except.bind]
      unfold deployedEntry
      unfold DesiredArtefact.form at same
      split at same
      · next single =>
          subst same
          rw [if_pos single]
          simp only [StoreAmbiguous]
          cases scanned : findBlockMembers (host.readCrontab c) with
          | error problem => simp [bind, Except.bind]
          | ok members =>
              simp only [bind, Except.bind, Except.ok.injEq, forall_eq']
              cases members.find? (·.slug = artefact.slug) with
              | none => simp [pure, Except.pure]
              | some member =>
                  simp only [Option.some.injEq, exists_eq_left']
                  exact sameCapability_isError_iff
      · next region =>
          subst same
          rw [if_neg region]
          simp only [StoreAmbiguous]
          cases scanned : findManagedRegions (host.readCrontab c) with
          | error problem => simp [bind, Except.bind]
          | ok regions =>
              simp only [bind, Except.bind, Except.ok.injEq, forall_eq']
              cases regions.find? (·.slug = artefact.slug) with
              | none => simp [pure, Except.pure]
              | some held =>
                  simp only [Option.some.injEq, exists_eq_left']
                  exact sameCapability_isError_iff

/-! ## The comparison of one artefact -/

/-- A placed artefact that renders is compared, unless its file's name is refused. -/
theorem verifyOne_isOk_iff {artefact : DesiredArtefact} {place : Placement} {text : Text}
    (rendered : renderArtefact artefact = .ok text)
    (placed : placement layout artefact = some place) :
    (∃ findings, verifyOne layout host artefact = .ok findings) ↔
      (artefact.deployment.strategy.writesAFilePerTask = true → plainName artefact.slug = true) := by
  constructor
  · rintro ⟨findings, verified⟩
    exact (verifyOne_placed verified).2
  · intro plain
    obtain ⟨target, described⟩ := describe_of_placement placed
    have only := @currentContent_onlyAmbiguous layout host artefact place placed plain
    unfold verifyOne
    rw [rendered, described]
    simp only [bind, Except.bind]
    cases current : currentContent layout host artefact with
    | error problem =>
        simp only
        rw [if_pos (only problem current)]
        exact ⟨_, rfl⟩
    | ok content =>
        simp only
        split
        · exact ⟨_, rfl⟩
        · split
          · exact ⟨_, rfl⟩
          · exact ⟨_, rfl⟩

/-- Of a comparison that fails to read its place, the finding says so. -/
theorem verifyOne_ambiguous {artefact : DesiredArtefact} {findings : List VerificationFinding}
    {problem : TaskControlError} (verified : verifyOne layout host artefact = .ok findings)
    (failed : currentContent layout host artefact = .error problem) :
    ∃ finding ∈ findings, finding.kind = .ambiguous ∧ finding.taskId = some artefact.taskId := by
  obtain ⟨text, _, compared⟩ := except_bind_eq_ok.mp verified
  rw [failed] at compared
  simp only at compared
  split at compared
  · obtain ⟨target, _, returned⟩ := except_bind_eq_ok.mp compared
    rw [← Except.ok.inj returned]
    exact ⟨_, List.mem_singleton_self _, rfl, rfl⟩
  · cases compared

/-! ## The scan for unexpected entries -/

theorem fileUnexpected_isOk_iff {d : DirectoryName} {name : Text} :
    (∃ findings, fileUnexpected layout host d name = .ok findings) ↔
      ∃ removals, fileRemoval layout host d name = .ok removals := by
  unfold fileUnexpected fileRemoval
  cases host.readNamed d name with
  | error problem => simp [bind, Except.bind]
  | ok content =>
      simp only [bind, Except.bind]
      cases findManagedRegions content with
      | error problem => simp
      | ok regions =>
          cases regions with
          | nil => simp [pure, Except.pure]
          | cons region rest =>
              simp only
              cases EntityId.fromPrimitive .task region.taskId with
              | error problem => simp
              | ok taskId => simp [pure, Except.pure]

/-- What the scan for unexpected entries needs of a host: its crontabs can be read, and so can
each file under a name that is not desired, and what is not desired is marked with task ids. -/
structure Scannable (layout : CronLayout) (host : Host) (slugs : List Text) : Prop where
  crontabs : ∀ c ∈ layout.configuredCrontabs,
    ∃ held, managedEntries (host.readCrontab c) = .ok held
  entries : ∀ c ∈ layout.configuredCrontabs, ∀ held, managedEntries (host.readCrontab c) = .ok held →
    ∀ entry ∈ held, entry.slug ∉ slugs → IsTaskId entry.taskId
  files : ∀ d ∈ layout.configuredDirectories, ∀ name ∈ (host.directory d).names, name ∉ slugs →
    plainName name = true ∧ ∃ regions, findManagedRegions (host.readFile d name) = .ok regions ∧
      ∀ region ∈ regions.head?, IsTaskId region.taskId

theorem findUnexpected_isOk_iff (slugs : List Text) :
    (∃ findings, findUnexpected layout host slugs = .ok findings) ↔
      Scannable layout host slugs := by
  have whole : (∃ findings, findUnexpected layout host slugs = .ok findings) ↔
      (∀ c ∈ layout.configuredCrontabs,
        ∃ findings, crontabUnexpected layout host slugs c = .ok findings) ∧
        ∀ d ∈ layout.configuredDirectories,
          ∃ findings, directoryUnexpected layout host slugs d = .ok findings := by
    rw [← mapM_isOk_iff, ← mapM_isOk_iff]
    constructor
    · rintro ⟨findings, found⟩
      obtain ⟨crontabs, fromCrontabs, found⟩ := except_bind_eq_ok.mp found
      obtain ⟨directories, fromDirectories, _⟩ := except_bind_eq_ok.mp found
      exact ⟨⟨crontabs, fromCrontabs⟩, directories, fromDirectories⟩
    · rintro ⟨⟨crontabs, fromCrontabs⟩, directories, fromDirectories⟩
      unfold findUnexpected
      rw [fromCrontabs, fromDirectories]
      exact ⟨_, rfl⟩
  have ofCrontab (c : CrontabName) := heldLoop_isOk_iff
    (fun entry taskId => (⟨.unexpected, crontabText layout c,
      s!"A managed entry for '{String.ofList entry.slug}' is deployed here.", some taskId⟩ :
        VerificationFinding)) (host.readCrontab c) slugs
  have ofDirectory (d : DirectoryName) :=
    flattened_isOk_iff (fileUnexpected layout host d) (host.directory d).names slugs
  simp only [fileUnexpected_isOk_iff, fileRemoval_isOk_iff] at ofDirectory
  rw [whole]
  constructor
  · rintro ⟨crontabs, directories⟩
    exact ⟨fun c configured => ((ofCrontab c).mp (crontabs c configured)).1,
      fun c configured => ((ofCrontab c).mp (crontabs c configured)).2,
      fun d configured => (ofDirectory d).mp (directories d configured)⟩
  · intro scannable
    exact ⟨fun c configured => (ofCrontab c).mpr
        ⟨scannable.crontabs c configured, scannable.entries c configured⟩,
      fun d configured => (ofDirectory d).mpr (scannable.files d configured)⟩

/-! ## The report -/

/-- A report comes back, with a finding for each artefact whose own store is ambiguous. -/
def ReportsAmbiguity (layout : CronLayout) (host : Host) (desired : List DesiredArtefact) : Prop :=
  ∃ report, verify layout host desired = .ok report ∧
    ∀ artefact ∈ desired, ∀ place, placement layout artefact = some place →
      StoreAmbiguous host artefact place →
        ∃ finding ∈ report.findings, finding.kind = .ambiguous ∧
          finding.taskId = some artefact.taskId

theorem verify_isOk_iff (rendered : ∀ artefact ∈ desired, ∃ text, renderArtefact artefact = .ok text)
    (configured : ∀ artefact ∈ desired, ∃ place, placement layout artefact = some place) :
    (∃ report, verify layout host desired = .ok report) ↔
      (∀ artefact ∈ desired, artefact.deployment.strategy.writesAFilePerTask = true →
        plainName artefact.slug = true) ∧
      Scannable layout host (desired.map DesiredArtefact.slug) := by
  have whole : (∃ report, verify layout host desired = .ok report) ↔
      (∀ artefact ∈ desired, ∃ findings, verifyOne layout host artefact = .ok findings) ∧
        ∃ findings, findUnexpected layout host (desired.map DesiredArtefact.slug) =
          .ok findings := by
    rw [← mapM_isOk_iff]
    constructor
    · rintro ⟨report, returned⟩
      obtain ⟨compared, collected, returned⟩ := except_bind_eq_ok.mp returned
      obtain ⟨unexpected, found, _⟩ := except_bind_eq_ok.mp returned
      exact ⟨⟨compared, collected⟩, unexpected, found⟩
    · rintro ⟨⟨compared, collected⟩, unexpected, found⟩
      unfold verify
      rw [collected, found]
      exact ⟨_, rfl⟩
  rw [whole, findUnexpected_isOk_iff]
  apply and_congr_left'
  apply forall_congr'
  intro artefact
  apply forall_congr'
  intro member
  obtain ⟨text, rendered⟩ := rendered artefact member
  obtain ⟨place, placed⟩ := configured artefact member
  exact verifyOne_isOk_iff rendered placed

/-- Verification reports ambiguity exactly where it comes back at all: where the files it looks
for have plain names and the scan for unexpected entries can read the host. -/
theorem verify_reports_iff (layout : CronLayout) (host : Host) (desired : List DesiredArtefact)
    (rendered : ∀ artefact ∈ desired, ∃ text, renderArtefact artefact = .ok text)
    (configured : ∀ artefact ∈ desired, ∃ place, placement layout artefact = some place) :
    ReportsAmbiguity layout host desired ↔
      (∀ artefact ∈ desired, artefact.deployment.strategy.writesAFilePerTask = true →
        plainName artefact.slug = true) ∧
      Scannable layout host (desired.map DesiredArtefact.slug) := by
  rw [← verify_isOk_iff rendered configured]
  constructor
  · rintro ⟨report, returned, _⟩
    exact ⟨report, returned⟩
  · rintro ⟨report, returned⟩
    refine ⟨report, returned, ?_⟩
    intro artefact member place placed ambiguous
    obtain ⟨plain, _⟩ := (verify_isOk_iff rendered configured).mp ⟨report, returned⟩
    obtain ⟨problem, failed⟩ :=
      (currentContent_isError_iff placed (plain artefact member)).mpr ambiguous
    obtain ⟨compared, collected, returned⟩ := except_bind_eq_ok.mp returned
    obtain ⟨unexpected, _, returned⟩ := except_bind_eq_ok.mp returned
    obtain ⟨every, flat⟩ := mapM_flatten collected
    obtain ⟨findings, verified⟩ := every artefact member
    obtain ⟨finding, listed, kind, taskId⟩ := verifyOne_ambiguous verified failed
    rw [← Except.ok.inj returned]
    exact ⟨finding, List.mem_append_left _
      ((flat finding).mpr ⟨artefact, member, findings, verified, listed⟩), kind, taskId⟩

end Reports

theorem verify_reports_nightly : ReportsAmbiguity userLayout regionHost [nightlyBackup .default] ↔
    (∀ artefact ∈ [nightlyBackup .default], artefact.deployment.strategy.writesAFilePerTask = true →
      plainName artefact.slug = true) ∧
      Scannable userLayout regionHost ([nightlyBackup .default].map DesiredArtefact.slug) := by
  apply verify_reports_iff
  · intro artefact member
    rw [List.mem_singleton.mp member]
    exact ⟨nightlyRegion, rfl⟩
  · intro artefact member
    rw [List.mem_singleton.mp member]
    exact ⟨.entry .user .region, rfl⟩

/-! ## A marker without its end -/

/-- A crontab that was cut off after the marker of the nightly backup. -/
def cutOffHost : Host :=
  bareHost.writeCrontab .user (joinLines [beginMarker (nightlyBackup .default)])

/-- The comparison records the ambiguity, and the scan after it raises it. -/
theorem cut_off_region_raises :
    StoreAmbiguous cutOffHost (nightlyBackup .default) (.entry .user .region) ∧
      ¬ ReportsAmbiguity userLayout cutOffHost [nightlyBackup .default] := by
  have unread : (findManagedRegions (cutOffHost.readCrontab .user)).toOption.isSome = false := by
    decide +kernel
  have raises : (verify userLayout cutOffHost [nightlyBackup .default]).toOption.isSome = false := by
    decide +kernel
  constructor
  · intro regions found
    rw [found] at unread
    cases unread
  · rintro ⟨report, returned, _⟩
    rw [returned] at raises
    cases raises

end TaskControl.Cron
