import TaskControl.Cron.ExactlyOnce

/-!
# Reading the host back

`verify` compares, for each desired artefact, the first entry under its slug in
its own place, and looks separately for managed entries whose slug is not
desired.  A second copy under a desired slug is seen by neither.
-/

set_option autoImplicit false

namespace TaskControl.Cron

open PythonText Effects

inductive DriftKind where
  | missing
  | modified
  | unexpected
  | ambiguous
  deriving DecidableEq, Repr

structure VerificationFinding where
  kind : DriftKind
  targetDescription : String
  detail : String
  taskId : Option TaskId

structure VerificationReport where
  findings : List VerificationFinding
  artefactsChecked : Nat

/-- `VerificationReport.matches`. -/
def VerificationReport.matching (report : VerificationReport) : Bool := report.findings.isEmpty

/-- The comparison for one artefact; only ambiguity becomes a finding. -/
def verifyOne (layout : CronLayout) (host : Host) (artefact : DesiredArtefact) :
    Except TaskControlError (List VerificationFinding) := do
  let expected ← renderArtefact artefact
  match currentContent layout host artefact with
  | .error error =>
      if error.errorClass = .ambiguousManagedContent then
        return [⟨.ambiguous, ← describe layout artefact, error.message, some artefact.taskId⟩]
      else throw error
  | .ok current =>
      if current = [] then
        return [⟨.missing, ← describe layout artefact,
          "Nothing managed is deployed for this capability.", some artefact.taskId⟩]
      else if current ≠ expected then
        return [⟨.modified, ← describe layout artefact,
          "The deployed artefact differs from the published revision. Somebody edited it by " ++
            "hand, or it was deployed from a different revision.", some artefact.taskId⟩]
      else return []

/-- The unexpected entries of one crontab. -/
def crontabUnexpected (layout : CronLayout) (host : Host) (desiredSlugs : List Text)
    (c : CrontabName) : Except TaskControlError (List VerificationFinding) := do
  let held ← managedEntries (host.readCrontab c)
  (held.filter (·.slug ∉ desiredSlugs)).mapM fun entry => do
    let taskId ← EntityId.fromPrimitive .task entry.taskId
    return ⟨.unexpected, crontabText layout c,
      s!"A managed entry for '{String.ofList entry.slug}' is deployed here.", some taskId⟩

/-- What one file under a name that is not desired shows. -/
def fileUnexpected (layout : CronLayout) (host : Host) (d : DirectoryName) (name : Text) :
    Except TaskControlError (List VerificationFinding) := do
  match ← findManagedRegions (← host.readNamed d name) with
  | [] => return []
  | region :: _ =>
      let taskId ← EntityId.fromPrimitive .task region.taskId
      return [⟨.unexpected, s!"{directoryText layout d}/{String.ofList name}",
        s!"A managed artefact for '{String.ofList region.slug}' is deployed here.", some taskId⟩]

def directoryUnexpected (layout : CronLayout) (host : Host) (desiredSlugs : List Text)
    (d : DirectoryName) : Except TaskControlError (List VerificationFinding) :=
  List.flatten <$> (((host.directory d).names.filter (· ∉ desiredSlugs)).mapM
    (fileUnexpected layout host d))

/-- `_find_unexpected`. -/
def findUnexpected (layout : CronLayout) (host : Host) (desiredSlugs : List Text) :
    Except TaskControlError (List VerificationFinding) := do
  let crontabs ← layout.configuredCrontabs.mapM (crontabUnexpected layout host desiredSlugs)
  let directories ←
    layout.configuredDirectories.mapM (directoryUnexpected layout host desiredSlugs)
  return crontabs.flatten ++ directories.flatten

def verify (layout : CronLayout) (host : Host) (desired : List DesiredArtefact) :
    Except TaskControlError VerificationReport := do
  let compared ← desired.mapM (verifyOne layout host)
  let unexpected ← findUnexpected layout host (desired.map DesiredArtefact.slug)
  return ⟨compared.flatten ++ unexpected, desired.length⟩

/-! ## What the report should say -/

/-- The managed entries of the host are the desired artefacts, and the file deployed for an
artefact is marked as its own. -/
structure HoldsExactly (layout : CronLayout) (host : Host) (desired : List DesiredArtefact) :
    Prop where
  once : ExactlyOnce layout host desired
  owned : ∀ artefact ∈ desired, ∀ d, placement layout artefact = some (.file d) →
    ∃ region rest, findManagedRegions (host.readFile d artefact.slug) = .ok (region :: rest) ∧
      region.taskId = artefact.taskId.text

/-- A place holds the text as the artefact's own: first among the entries of its slot, or as
a file whose first marker has the artefact's id. -/
def HoldsAt (host : Host) (artefact : DesiredArtefact) (text : Text) : Placement → Prop
  | .entry c form =>
      ∃ rest, (Estate.of host).entries c form artefact.slug = artefact.entry text :: rest
  | .file d =>
      host.readFile d artefact.slug = text ∧
        ∃ region rest, findManagedRegions text = .ok (region :: rest) ∧
          region.taskId = artefact.taskId.text

/-- Every artefact is in its own place, whatever else the host holds. -/
def Deployed (layout : CronLayout) (host : Host) (desired : List DesiredArtefact) : Prop :=
  ∀ artefact ∈ desired, ∃ place text, placement layout artefact = some place ∧
    renderArtefact artefact = .ok text ∧ HoldsAt host artefact text place

/-- Crontabs hold nothing under a slug that is not desired, and files under other names are
not managed. -/
structure NothingForeign (layout : CronLayout) (host : Host) (desired : List DesiredArtefact) :
    Prop where
  entries : ∀ c ∈ layout.configuredCrontabs, ∀ held, managedEntries (host.readCrontab c) = .ok held →
    ∀ entry ∈ held, entry.slug ∈ desired.map DesiredArtefact.slug
  files : ∀ d ∈ layout.configuredDirectories, ∀ name ∉ desired.map DesiredArtefact.slug,
    findManagedRegions (host.readFile d name) = .ok []

/-- Under the slug of an artefact there is at most one entry, in the artefact's own place. -/
structure NoCopies (layout : CronLayout) (host : Host) (desired : List DesiredArtefact) :
    Prop where
  regions : ∀ c ∈ layout.configuredCrontabs, ∀ found,
    findManagedRegions (host.readCrontab c) = .ok found → ∀ artefact ∈ desired,
      (ofSlug artefact.slug (found.map ManagedRegion.entry)).length ≤
        if placement layout artefact = some (.entry c .region) then 1 else 0
  members : ∀ c ∈ layout.configuredCrontabs, ∀ found,
    findBlockMembers (host.readCrontab c) = .ok found → ∀ artefact ∈ desired,
      (ofSlug artefact.slug (found.map BlockMember.entry)).length ≤
        if placement layout artefact = some (.entry c .member) then 1 else 0
  namesakes : ∀ d ∈ layout.configuredDirectories, ∀ artefact ∈ desired,
    placement layout artefact ≠ some (.file d) →
      findManagedRegions (host.readFile d artefact.slug) = .ok []

/-! ## What a report says -/

section Reports

variable {layout : CronLayout} {host : Host} {desired : List DesiredArtefact}

theorem joinLines_ne_nil (line : Text) (lines : List Text) : joinLines (line :: lines) ≠ [] := by
  simp [joinLines]

theorem joined_ne_nil {lines : Except TaskControlError (List Text)} {text : Text}
    (nonempty : ∀ found, lines = .ok found → found ≠ [])
    (joined : joinLines <$> lines = .ok text) : text ≠ [] := by
  cases lines with
  | error problem => cases joined
  | ok found =>
      cases joined
      cases found with
      | nil => exact absurd rfl (nonempty [] rfl)
      | cons line rest => exact joinLines_ne_nil line rest

/-- Every renderer writes at least its marker. -/
theorem render_ne_nil {artefact : DesiredArtefact} {text : Text}
    (rendered : renderArtefact artefact = .ok text) : text ≠ [] := by
  unfold renderArtefact at rendered
  split at rendered
  · refine joined_ne_nil (fun found lines => ?_) rendered
    unfold runPartsScriptLines at lines
    split at lines
    · cases lines
    · rw [← Except.ok.inj lines]
      exact List.cons_ne_nil _ _
  · refine joined_ne_nil (fun found lines => ?_) rendered
    obtain ⟨entry, _, returned⟩ := except_bind_eq_ok.mp lines
    rw [← Except.ok.inj returned]
    exact List.cons_ne_nil _ _
  · refine joined_ne_nil (fun found lines => ?_) rendered
    obtain ⟨entry, _, returned⟩ := except_bind_eq_ok.mp lines
    rw [← Except.ok.inj returned]
    exact List.cons_ne_nil _ _
  · refine joined_ne_nil (fun found lines => ?_) rendered
    obtain ⟨entry, _, returned⟩ := except_bind_eq_ok.mp lines
    rw [← Except.ok.inj returned]
    exact List.cons_ne_nil _ _

/-- One artefact has no finding exactly where its rendered text is deployed. -/
theorem verifyOne_ok {artefact : DesiredArtefact} {findings : List VerificationFinding}
    (verified : verifyOne layout host artefact = .ok findings) :
    ∃ text, renderArtefact artefact = .ok text ∧
      (findings = [] ↔ currentContent layout host artefact = .ok text) := by
  obtain ⟨text, rendered, compared⟩ := except_bind_eq_ok.mp verified
  refine ⟨text, rendered, ?_⟩
  cases current : currentContent layout host artefact with
  | error problem =>
      rw [current] at compared
      simp only at compared
      split at compared
      · obtain ⟨target, _, returned⟩ := except_bind_eq_ok.mp compared
        rw [← Except.ok.inj returned]
        simp
      · cases compared
  | ok content =>
      rw [current] at compared
      simp only at compared
      split at compared
      · next absent =>
          obtain ⟨target, _, returned⟩ := except_bind_eq_ok.mp compared
          rw [← Except.ok.inj returned, absent]
          simp [Ne.symm (render_ne_nil rendered)]
      · split at compared
        · next differs =>
            obtain ⟨target, _, returned⟩ := except_bind_eq_ok.mp compared
            rw [← Except.ok.inj returned]
            simp [differs]
        · next same =>
            rw [← Except.ok.inj compared]
            simpa using same

/-- The unexpected entries of a crontab are none exactly where all its slugs are desired. -/
theorem crontabUnexpected_ok {slugs : List Text} {c : CrontabName}
    {findings : List VerificationFinding}
    (found : crontabUnexpected layout host slugs c = .ok findings) :
    ∃ held, managedEntries (host.readCrontab c) = .ok held ∧
      (findings = [] ↔ ∀ entry ∈ held, entry.slug ∈ slugs) := by
  obtain ⟨held, managed, collected⟩ := except_bind_eq_ok.mp found
  refine ⟨held, managed, ?_⟩
  have lengths := (mapM_eq_ok.mp collected).length_eq
  rw [← List.length_eq_zero_iff, ← lengths, List.length_eq_zero_iff, List.filter_eq_nil_iff]
  simp

theorem readNamed_ok {d : DirectoryName} {name content : Text}
    (read : host.readNamed d name = .ok content) : content = host.readFile d name := by
  unfold Host.readNamed at read
  split at read
  · exact (Except.ok.inj read).symm
  · cases read

theorem fileUnexpected_ok {d : DirectoryName} {name : Text} {findings : List VerificationFinding}
    (found : fileUnexpected layout host d name = .ok findings) :
    ∃ regions, findManagedRegions (host.readFile d name) = .ok regions ∧
      (findings = [] ↔ regions = []) := by
  obtain ⟨content, read, rest⟩ := except_bind_eq_ok.mp found
  obtain ⟨regions, scanned, rest⟩ := except_bind_eq_ok.mp rest
  rw [readNamed_ok read] at scanned
  refine ⟨regions, scanned, ?_⟩
  cases regions with
  | nil =>
      rw [← Except.ok.inj rest]
      simp
  | cons region others =>
      obtain ⟨taskId, _, returned⟩ := except_bind_eq_ok.mp rest
      rw [← Except.ok.inj returned]
      simp

theorem flatten_eq_nil_iff {α β : Type} {ε : Type} {f : α → Except ε (List β)} {items : List α}
    {lists : List (List β)} (collected : items.mapM f = .ok lists) :
    lists.flatten = [] ↔ ∀ item ∈ items, f item = .ok [] := by
  obtain ⟨every, flat⟩ := mapM_flatten collected
  rw [List.eq_nil_iff_forall_not_mem]
  constructor
  · intro empty item member
    obtain ⟨list, returned⟩ := every item member
    rw [returned]
    cases list with
    | nil => rfl
    | cons b rest =>
        exact absurd ((flat b).mpr ⟨item, member, _, returned, List.mem_cons_self⟩) (empty b)
  · rintro all b inLists
    obtain ⟨item, member, list, returned, inList⟩ := (flat b).mp inLists
    rw [all item member] at returned
    cases returned
    cases inList

theorem directoryUnexpected_ok {slugs : List Text} {d : DirectoryName}
    {findings : List VerificationFinding}
    (found : directoryUnexpected layout host slugs d = .ok findings) :
    findings = [] ↔ ∀ name ∉ slugs, findManagedRegions (host.readFile d name) = .ok [] := by
  obtain ⟨lists, collected, returned⟩ := except_map_eq_ok.mp found
  obtain ⟨every, _⟩ := mapM_flatten collected
  rw [← returned, flatten_eq_nil_iff collected]
  constructor
  · intro none_ name foreign
    by_cases present : name ∈ (host.directory d).names
    · obtain ⟨regions, scanned, empty⟩ := fileUnexpected_ok
        (none_ name (List.mem_filter.mpr ⟨present, by simpa using foreign⟩))
      rw [scanned, empty.mp rfl]
    · rw [readFile_absent present]
      rfl
  · intro bare name member
    obtain ⟨list, returned⟩ := every name member
    obtain ⟨regions, scanned, empty⟩ := fileUnexpected_ok returned
    have foreign : name ∉ slugs := by simpa using (List.mem_filter.mp member).2
    rw [bare name foreign] at scanned
    rw [returned, empty.mpr (Except.ok.inj scanned).symm]

/-- The first entry of a slot is the first that a search for the slug finds. -/
theorem found_first {α : Type} {found : List α} {slug : Text} (view : α → ManagedEntry)
    {entry : ManagedEntry} {rest : List ManagedEntry}
    (slot : ofSlug slug (found.map view) = entry :: rest) :
    ∃ a, found.find? (fun a => (view a).slug = slug) = some a ∧ view a = entry := by
  have first : (found.map view).find? (fun held => held.slug = slug) = some entry := by
    rw [← List.head?_filter, ← ofSlug, slot]
    rfl
  rw [List.find?_map] at first
  exact Option.map_eq_some_iff.mp first

theorem deployedEntry_of_slot {artefact : DesiredArtefact} {c : CrontabName} {text : Text}
    {rest : List ManagedEntry}
    (slot : (Estate.of host).entries c artefact.form artefact.slug = artefact.entry text :: rest) :
    deployedEntry layout artefact c (host.readCrontab c) = .ok text := by
  unfold deployedEntry
  unfold DesiredArtefact.form at slot
  split at slot
  · next single =>
      rw [if_pos single]
      cases read : findBlockMembers (host.readCrontab c) with
      | error problem =>
          simp only [Estate.of, read] at slot
          cases slot
      | ok members =>
          simp only [Estate.of, read] at slot
          obtain ⟨member, first, same⟩ := found_first BlockMember.entry slot
          obtain ⟨_, id, shown⟩ := ManagedEntry.mk.inj same
          simp only [bind, Except.bind]
          rw [show members.find? (·.slug = artefact.slug) = some member from first]
          simp only [assertSameCapability, id, shown, if_true, pure, Except.pure]
  · next region =>
      rw [if_neg region]
      cases read : findManagedRegions (host.readCrontab c) with
      | error problem =>
          simp only [Estate.of, read] at slot
          cases slot
      | ok regions =>
          simp only [Estate.of, read] at slot
          obtain ⟨held, first, same⟩ := found_first ManagedRegion.entry slot
          obtain ⟨_, id, shown⟩ := ManagedEntry.mk.inj same
          simp only [bind, Except.bind]
          rw [show regions.find? (·.slug = artefact.slug) = some held from first]
          simp only [assertSameCapability, id, shown, if_true, pure, Except.pure]

/-- What the comparison reads is what stands in the artefact's place. -/
theorem currentContent_iff {artefact : DesiredArtefact} {place : Placement} {text : Text}
    (placed : placement layout artefact = some place) (present : text ≠ [])
    (named : artefact.deployment.strategy.writesAFilePerTask = true →
      plainName artefact.slug = true) :
    currentContent layout host artefact = .ok text ↔ HoldsAt host artefact text place := by
  constructor
  · intro current
    have slot := currentContent_slot placed current present
    cases place with
    | entry c form => exact slot
    | file d =>
        obtain ⟨file, _⟩ := placement_file placed
        refine ⟨slot, ?_⟩
        unfold currentContent at current
        rw [if_pos file] at current
        obtain ⟨d', found, current⟩ := except_bind_eq_ok.mp current
        unfold placement at placed
        rw [if_pos file, directoryOf_eq_ok.mp found] at placed
        obtain rfl : d' = d := by simpa using placed
        obtain ⟨content, read, current⟩ := except_bind_eq_ok.mp current
        rw [readNamed_ok read, slot] at current
        unfold deployedFile at current
        rw [if_neg present] at current
        obtain ⟨regions, scanned, current⟩ := except_bind_eq_ok.mp current
        cases regions with
        | nil => cases current
        | cons region rest =>
            obtain ⟨target, _, current⟩ := except_bind_eq_ok.mp current
            obtain ⟨_, checked, _⟩ := except_bind_eq_ok.mp current
            exact ⟨region, rest, scanned, assertSame_ok checked⟩
  · intro holds
    cases place with
    | file d =>
        obtain ⟨read, region, rest, scanned, owned⟩ := holds
        obtain ⟨file, _⟩ := placement_file placed
        have found : directoryOf layout artefact = .ok d := by
          unfold placement at placed
          rw [if_pos file] at placed
          obtain ⟨d', found, same⟩ := Option.map_eq_some_iff.mp placed
          cases same
          exact directoryOf_eq_ok.mpr found
        have target : describe layout artefact =
            .ok s!"{directoryText layout d}/{String.ofList artefact.slug}" := by
          unfold describe
          rw [if_pos file, found]
          rfl
        unfold currentContent
        rw [if_pos file, found]
        simp only [Host.readNamed, named file, if_true, bind, Except.bind]
        rw [read]
        unfold deployedFile
        rw [if_neg present, scanned, target]
        simp only [assertSameCapability, owned, if_true, bind, Except.bind, pure, Except.pure]
    | entry c form =>
        obtain ⟨rest, slot⟩ := holds
        unfold placement at placed
        split at placed
        · obtain ⟨_, _, same⟩ := Option.map_eq_some_iff.mp placed
          cases same
        · next crontab =>
            obtain ⟨c', configured, same⟩ := Option.map_eq_some_iff.mp placed
            cases same
            unfold currentContent
            rw [if_neg crontab, crontabOf_eq_ok.mpr configured]
            simp only [bind, Except.bind]
            exact deployedEntry_of_slot slot

/-- An artefact that could be compared has a place of its own, and its file a plain name:
otherwise reading it raises an error that is not turned into a finding. -/
theorem verifyOne_placed {artefact : DesiredArtefact} {findings : List VerificationFinding}
    (verified : verifyOne layout host artefact = .ok findings) :
    (∃ place, placement layout artefact = some place) ∧
      (artefact.deployment.strategy.writesAFilePerTask = true → plainName artefact.slug = true) := by
  obtain ⟨text, _, compared⟩ := except_bind_eq_ok.mp verified
  have passed : ∀ problem, currentContent layout host artefact = .error problem →
      problem.errorClass = .ambiguousManagedContent := by
    intro problem current
    rw [current] at compared
    simp only at compared
    split at compared
    · assumption
    · cases compared
  unfold currentContent at passed
  unfold placement
  split at passed
  · next file =>
      rw [if_pos file]
      cases found : directoryOf layout artefact with
      | error problem =>
          have ambiguous := passed problem (by rw [found]; rfl)
          unfold directoryOf at found
          split at found
          · cases found
          · cases found
            cases ambiguous
      | ok d =>
          refine ⟨⟨.file d, by rw [directoryOf_eq_ok.mp found]; rfl⟩, fun _ => ?_⟩
          by_contra odd
          have unread : host.readNamed d artefact.slug =
              .error (configurationError "A cron artefact name must be a plain file name.") := by
            unfold Host.readNamed
            rw [if_neg odd]
          have ambiguous := passed
            (configurationError "A cron artefact name must be a plain file name.")
            (by rw [found]; simp only [unread, bind, Except.bind])
          cases ambiguous
  · next crontab =>
      rw [if_neg crontab]
      cases found : crontabOf layout artefact with
      | error problem =>
          have ambiguous := passed problem (by rw [found]; rfl)
          unfold crontabOf at found
          split at found
          · cases found
          · cases found
            cases ambiguous
      | ok c =>
          exact ⟨⟨.entry c artefact.form, by rw [crontabOf_eq_ok.mp found]; rfl⟩,
            fun file => absurd file crontab⟩

/-- What a report that was returned says of the host. -/
structure Reported (layout : CronLayout) (host : Host) (desired : List DesiredArtefact)
    (report : VerificationReport) : Prop where
  rendered : ∀ artefact ∈ desired, ∃ text, renderArtefact artefact = .ok text
  placed : ∀ artefact ∈ desired, ∃ place, placement layout artefact = some place
  scanned : ∀ c ∈ layout.configuredCrontabs, ∃ regions members,
    findManagedRegions (host.readCrontab c) = .ok regions ∧
      findBlockMembers (host.readCrontab c) = .ok members
  matching : report.matching = true ↔
    Deployed layout host desired ∧ NothingForeign layout host desired

theorem verify_ok {report : VerificationReport}
    (returned : verify layout host desired = .ok report) :
    Reported layout host desired report := by
  obtain ⟨compared, collected, rest⟩ := except_bind_eq_ok.mp returned
  obtain ⟨unexpected, found, rest⟩ := except_bind_eq_ok.mp rest
  obtain rfl := Except.ok.inj rest
  obtain ⟨fromCrontabs, crontabs, found⟩ := except_bind_eq_ok.mp found
  obtain ⟨fromDirectories, directories, found⟩ := except_bind_eq_ok.mp found
  obtain rfl := Except.ok.inj found
  obtain ⟨everyOne, _⟩ := mapM_flatten collected
  obtain ⟨everyCrontab, _⟩ := mapM_flatten crontabs
  obtain ⟨everyDirectory, _⟩ := mapM_flatten directories
  have shown (artefact : DesiredArtefact) (member : artefact ∈ desired) :
      ∃ place text, placement layout artefact = some place ∧ renderArtefact artefact = .ok text ∧
        (verifyOne layout host artefact = .ok [] ↔ HoldsAt host artefact text place) := by
    obtain ⟨findings, verified⟩ := everyOne artefact member
    obtain ⟨text, rendered, quiet⟩ := verifyOne_ok verified
    obtain ⟨⟨place, placed⟩, named⟩ := verifyOne_placed verified
    refine ⟨place, text, placed, rendered, ?_⟩
    rw [← currentContent_iff placed (render_ne_nil rendered) named, ← quiet, verified]
    exact ⟨Except.ok.inj, congrArg Except.ok⟩
  refine ⟨fun artefact member => ?_, fun artefact member => ?_, fun c configured => ?_, ?_⟩
  · obtain ⟨place, text, _, rendered, _⟩ := shown artefact member
    exact ⟨text, rendered⟩
  · obtain ⟨place, text, placed, _⟩ := shown artefact member
    exact ⟨place, placed⟩
  · obtain ⟨findings, verified⟩ := everyCrontab c configured
    obtain ⟨held, managed, _⟩ := crontabUnexpected_ok verified
    obtain ⟨regions, members, foundRegions, foundMembers, _⟩ := managedEntries_ok managed
    exact ⟨regions, members, foundRegions, foundMembers⟩
  · rw [VerificationReport.matching, List.isEmpty_iff, List.append_eq_nil_iff,
      List.append_eq_nil_iff, flatten_eq_nil_iff collected, flatten_eq_nil_iff crontabs,
      flatten_eq_nil_iff directories]
    constructor
    · rintro ⟨quiet, noEntries, noFiles⟩
      refine ⟨fun artefact member => ?_, fun c configured held managed => ?_,
        fun d configured => ?_⟩
      · obtain ⟨place, text, placed, rendered, same⟩ := shown artefact member
        exact ⟨place, text, placed, rendered, same.mp (quiet artefact member)⟩
      · obtain ⟨held', managed', known⟩ := crontabUnexpected_ok (noEntries c configured)
        rw [managed] at managed'
        cases managed'
        exact known.mp rfl
      · exact (directoryUnexpected_ok (noFiles d configured)).mp rfl
    · rintro ⟨deployed, foreign⟩
      refine ⟨fun artefact member => ?_, fun c configured => ?_, fun d configured => ?_⟩
      · obtain ⟨place, text, placed, rendered, same⟩ := shown artefact member
        obtain ⟨place', text', placed', rendered', holds⟩ := deployed artefact member
        rw [placed] at placed'
        rw [rendered] at rendered'
        cases placed'
        cases rendered'
        exact same.mpr holds
      · obtain ⟨findings, verified⟩ := everyCrontab c configured
        obtain ⟨held, managed, known⟩ := crontabUnexpected_ok verified
        rw [verified, known.mpr (foreign.entries c configured held managed)]
      · obtain ⟨findings, verified⟩ := everyDirectory d configured
        rw [verified, (directoryUnexpected_ok verified).mpr (foreign.files d configured)]

end Reports

/-! ## Exactness -/

section Exactly

variable {layout : CronLayout} {host : Host} {desired : List DesiredArtefact}

/-- A host that holds the desired artefacts exactly has each in its place. -/
theorem HoldsExactly.deployed (holds : HoldsExactly layout host desired)
    (distinct : (desired.map DesiredArtefact.slug).Nodup)
    (placed : ∀ artefact ∈ desired, ∃ place, placement layout artefact = some place)
    (rendered : ∀ artefact ∈ desired, ∃ text, renderArtefact artefact = .ok text) :
    Deployed layout host desired := by
  intro artefact member
  obtain ⟨place, placed_⟩ := placed artefact member
  obtain ⟨text, rendered_⟩ := rendered artefact member
  refine ⟨place, text, placed_, rendered_, ?_⟩
  cases place with
  | entry c form =>
      refine ⟨[], ?_⟩
      have configured := placement_crontab placed_
      rw [← wanted_here distinct member placed_ rendered_]
      cases form with
      | region =>
          obtain ⟨found, read, perm⟩ := holds.once.regions c configured
          simp only [Estate.of, read]
          exact (perm_iff_ofSlug (wanted_slugs distinct c .region)).mp perm artefact.slug
      | member =>
          obtain ⟨found, read, perm⟩ := holds.once.members c configured
          simp only [Estate.of, read]
          exact (perm_iff_ofSlug (wanted_slugs distinct c .member)).mp perm artefact.slug
  | file d =>
      have same : host.readFile d artefact.slug = text :=
        Except.ok.inj ((holds.once.texts artefact member d placed_).symm.trans rendered_)
      obtain ⟨region, rest, scanned, owned⟩ := holds.owned artefact member d placed_
      rw [same] at scanned
      exact ⟨same, region, rest, scanned, owned⟩

theorem HoldsExactly.nothingForeign (holds : HoldsExactly layout host desired) :
    NothingForeign layout host desired := by
  constructor
  · intro c configured held managed entry member
    obtain ⟨regions, members, foundRegions, foundMembers, rfl⟩ := managedEntries_ok managed
    have wanted : ∃ form, entry ∈ wantedEntries layout desired c form := by
      rcases List.mem_append.mp member with inRegions | inMembers
      · obtain ⟨found, read, perm⟩ := holds.once.regions c configured
        obtain rfl := Except.ok.inj (foundRegions.symm.trans read)
        exact ⟨.region, perm.mem_iff.mp inRegions⟩
      · obtain ⟨found, read, perm⟩ := holds.once.members c configured
        obtain rfl := Except.ok.inj (foundMembers.symm.trans read)
        exact ⟨.member, perm.mem_iff.mp inMembers⟩
    obtain ⟨form, inWanted⟩ := wanted
    obtain ⟨artefact, inDesired, text, _, _, rfl⟩ := mem_wantedEntries.mp inWanted
    exact List.mem_map_of_mem inDesired
  · intro d configured name foreign
    obtain ⟨found, read, only⟩ := holds.once.files d configured name
    cases found with
    | nil => exact read
    | cons region rest =>
        obtain ⟨artefact, member, _, named⟩ := only.mp (List.cons_ne_nil _ _)
        exact absurd (List.mem_map.mpr ⟨artefact, member, named⟩) foreign

/-- A slot of a crontab that should hold an artefact or nothing. -/
theorem wanted_length (distinct : (desired.map DesiredArtefact.slug).Nodup) {c : CrontabName}
    {form : Form} {artefact : DesiredArtefact} (member : artefact ∈ desired) :
    (ofSlug artefact.slug (wantedEntries layout desired c form)).length ≤
      if placement layout artefact = some (.entry c form) then 1 else 0 := by
  split
  · exact ofSlug_single (wanted_slugs distinct c form) artefact.slug
  · next elsewhere =>
      rw [wanted_none fun other inDesired named => by
        rw [same_slug distinct inDesired member named]
        exact elsewhere]
      simp

theorem HoldsExactly.noCopies (holds : HoldsExactly layout host desired)
    (distinct : (desired.map DesiredArtefact.slug).Nodup) : NoCopies layout host desired := by
  refine ⟨?_, ?_, ?_⟩
  · intro c configured found scanned artefact member
    obtain ⟨found', read, perm⟩ := holds.once.regions c configured
    obtain rfl := Except.ok.inj (scanned.symm.trans read)
    rw [(perm_iff_ofSlug (wanted_slugs distinct c .region)).mp perm]
    exact wanted_length distinct member
  · intro c configured found scanned artefact member
    obtain ⟨found', read, perm⟩ := holds.once.members c configured
    obtain rfl := Except.ok.inj (scanned.symm.trans read)
    rw [(perm_iff_ofSlug (wanted_slugs distinct c .member)).mp perm]
    exact wanted_length distinct member
  · intro d configured artefact member elsewhere
    obtain ⟨found, read, only⟩ := holds.once.files d configured artefact.slug
    cases found with
    | nil => exact read
    | cons region rest =>
        obtain ⟨other, inDesired, placed, named⟩ := only.mp (List.cons_ne_nil _ _)
        rw [same_slug distinct inDesired member named] at placed
        exact absurd placed elsewhere

/-- The entries of one form in one crontab, when each is in its place and nothing else is. -/
theorem entries_wanted (distinct : (desired.map DesiredArtefact.slug).Nodup) {c : CrontabName}
    {form : Form} {found : List ManagedEntry}
    (shown : ∀ slug, (Estate.of host).entries c form slug = ofSlug slug found)
    (deployed : Deployed layout host desired)
    (foreign : ∀ entry ∈ found, entry.slug ∈ desired.map DesiredArtefact.slug)
    (single : ∀ artefact ∈ desired, (ofSlug artefact.slug found).length ≤
      if placement layout artefact = some (.entry c form) then 1 else 0) :
    found.Perm (wantedEntries layout desired c form) := by
  refine (perm_iff_ofSlug (wanted_slugs distinct c form)).mpr fun slug => ?_
  by_cases wanted : slug ∈ desired.map DesiredArtefact.slug
  · obtain ⟨artefact, member, rfl⟩ := List.mem_map.mp wanted
    have length := single artefact member
    split at length
    · next placed =>
        obtain ⟨place, text, placed', rendered, holds⟩ := deployed artefact member
        obtain rfl := Option.some.inj (placed.symm.trans placed')
        obtain ⟨rest, slot⟩ := holds
        rw [shown] at slot
        rw [slot, List.length_cons] at length
        obtain rfl : rest = [] := List.length_eq_zero_iff.mp (by omega)
        rw [slot, wanted_here distinct member placed rendered]
    · next elsewhere =>
        rw [List.length_eq_zero_iff.mp (by omega : (ofSlug artefact.slug found).length = 0)]
        refine (wanted_none fun other inDesired named => ?_).symm
        rw [same_slug distinct inDesired member named]
        exact elsewhere
  · have none_ : ofSlug slug found = [] := by
      refine ofSlug_eq_nil.mpr fun entry member named => wanted ?_
      rw [← named]
      exact foreign entry member
    rw [none_]
    refine (wanted_none fun artefact member named => ?_).symm
    exact absurd (List.mem_map.mpr ⟨artefact, member, named⟩) wanted

theorem holdsExactly_of (distinct : (desired.map DesiredArtefact.slug).Nodup)
    (scanned : ∀ c ∈ layout.configuredCrontabs, ∃ regions members,
      findManagedRegions (host.readCrontab c) = .ok regions ∧
        findBlockMembers (host.readCrontab c) = .ok members)
    (deployed : Deployed layout host desired) (foreign : NothingForeign layout host desired)
    (noCopies : NoCopies layout host desired) : HoldsExactly layout host desired := by
  have known (c : CrontabName) (configured : c ∈ layout.configuredCrontabs)
      {regions : List ManagedRegion} {members : List BlockMember}
      (foundRegions : findManagedRegions (host.readCrontab c) = .ok regions)
      (foundMembers : findBlockMembers (host.readCrontab c) = .ok members) :
      ∀ entry ∈ regions.map ManagedRegion.entry ++ members.map BlockMember.entry,
        entry.slug ∈ desired.map DesiredArtefact.slug := by
    refine foreign.entries c configured _ ?_
    simp only [managedEntries, foundRegions, foundMembers, bind, Except.bind, pure, Except.pure]
  have inFile (artefact : DesiredArtefact) (member : artefact ∈ desired) (d : DirectoryName)
      (placed : placement layout artefact = some (.file d)) : ∃ region rest,
        renderArtefact artefact = .ok (host.readFile d artefact.slug) ∧
          findManagedRegions (host.readFile d artefact.slug) = .ok (region :: rest) ∧
            region.taskId = artefact.taskId.text := by
    obtain ⟨place, text, placed', rendered, holds⟩ := deployed artefact member
    obtain rfl := Option.some.inj (placed.symm.trans placed')
    obtain ⟨rfl, region, rest, read, owned⟩ := holds
    exact ⟨region, rest, rendered, read, owned⟩
  refine ⟨⟨fun c configured => ?_, fun c configured => ?_, fun d configured name => ?_, ?_⟩, ?_⟩
  · obtain ⟨regions, members, foundRegions, foundMembers⟩ := scanned c configured
    refine ⟨regions, foundRegions, entries_wanted distinct (fun slug => ?_) deployed ?_ ?_⟩
    · simp only [Estate.of, foundRegions]
    · intro entry member
      exact known c configured foundRegions foundMembers entry (List.mem_append_left _ member)
    · exact noCopies.regions c configured regions foundRegions
  · obtain ⟨regions, members, foundRegions, foundMembers⟩ := scanned c configured
    refine ⟨members, foundMembers, entries_wanted distinct (fun slug => ?_) deployed ?_ ?_⟩
    · simp only [Estate.of, foundMembers]
    · intro entry member
      exact known c configured foundRegions foundMembers entry (List.mem_append_right _ member)
    · exact noCopies.members c configured members foundMembers
  · by_cases wanted : name ∈ desired.map DesiredArtefact.slug
    · obtain ⟨artefact, member, rfl⟩ := List.mem_map.mp wanted
      by_cases placed : placement layout artefact = some (.file d)
      · obtain ⟨region, rest, _, read, _⟩ := inFile artefact member d placed
        exact ⟨region :: rest, read, fun _ => ⟨artefact, member, placed, rfl⟩, by simp⟩
      · refine ⟨[], noCopies.namesakes d configured artefact member placed, by simp, ?_⟩
        rintro ⟨other, inDesired, placed', named⟩
        rw [same_slug distinct inDesired member named] at placed'
        exact absurd placed' placed
    · refine ⟨[], foreign.files d configured name wanted, by simp, ?_⟩
      rintro ⟨artefact, member, _, named⟩
      exact absurd (List.mem_map.mpr ⟨artefact, member, named⟩) wanted
  · intro artefact member d placed
    obtain ⟨region, rest, rendered, _⟩ := inFile artefact member d placed
    exact rendered
  · intro artefact member d placed
    obtain ⟨region, rest, _, read, owned⟩ := inFile artefact member d placed
    exact ⟨region, rest, read, owned⟩

/-- A report tells whether the host holds the desired artefacts exactly, unless all that is
wrong with the host is a further copy under a desired slug. -/
theorem verify_exact_iff (layout : CronLayout) (host : Host) (desired : List DesiredArtefact)
    (report : VerificationReport) (distinct : (desired.map DesiredArtefact.slug).Nodup)
    (returned : verify layout host desired = .ok report) :
    (report.matching = true ↔ HoldsExactly layout host desired) ↔
      (Deployed layout host desired → NothingForeign layout host desired →
        NoCopies layout host desired) := by
  have reported := verify_ok returned
  have exactly : HoldsExactly layout host desired ↔ Deployed layout host desired ∧
      NothingForeign layout host desired ∧ NoCopies layout host desired := by
    constructor
    · intro holds
      exact ⟨holds.deployed distinct reported.placed reported.rendered, holds.nothingForeign,
        holds.noCopies distinct⟩
    · rintro ⟨deployed, foreign, noCopies⟩
      exact holdsExactly_of distinct reported.scanned deployed foreign noCopies
  rw [reported.matching, exactly]
  constructor
  · intro same deployed foreign
    exact (same.mp ⟨deployed, foreign⟩).2.2
  · intro noCopies
    refine ⟨fun both => ⟨both.1, both.2, noCopies both.1 both.2⟩, fun all => ⟨all.1, all.2.1⟩⟩

end Exactly

/-! ## A copy in another form -/

/-- Whether a report was returned, and whether it has no finding. -/
def reportMatches (host : Host) (desired : List DesiredArtefact) : Option Bool :=
  (verify userLayout host desired).toOption.map VerificationReport.matching

theorem verify_exact_iff_nightly :
    ∃ report, verify userLayout regionHost [nightlyBackup .default] = .ok report ∧
      ((report.matching = true ↔ HoldsExactly userLayout regionHost [nightlyBackup .default]) ↔
        (Deployed userLayout regionHost [nightlyBackup .default] →
          NothingForeign userLayout regionHost [nightlyBackup .default] →
            NoCopies userLayout regionHost [nightlyBackup .default])) := by
  have quiet : reportMatches regionHost [nightlyBackup .default] = some true := by decide +kernel
  unfold reportMatches at quiet
  cases returned : verify userLayout regionHost [nightlyBackup .default] with
  | error problem =>
      rw [returned] at quiet
      cases quiet
  | ok report =>
      exact ⟨report, rfl, verify_exact_iff userLayout regionHost _ report (by simp) returned⟩

/-- The nightly backup in a region and in the block of one crontab. -/
def doubledHost : Host :=
  bareHost.writeCrontab .user
    (nightlyRegion ++ joinLines [blockBeginMarker] ++ nightlyMember ++ joinLines [blockEndMarker])

/-- A region next to the deployed member of the same capability is not reported. -/
theorem second_copy_unseen :
    ∃ report, verify userLayout doubledHost [nightlyBackup .singleBlock] = .ok report ∧
      report.matching = true ∧
        ¬ HoldsExactly userLayout doubledHost [nightlyBackup .singleBlock] := by
  have quiet : reportMatches doubledHost [nightlyBackup .singleBlock] = some true := by
    decide +kernel
  have counts : (findManagedRegions (doubledHost.readCrontab .user)).toOption.map List.length =
      some 1 := by decide +kernel
  unfold reportMatches at quiet
  cases returned : verify userLayout doubledHost [nightlyBackup .singleBlock] with
  | error problem =>
      rw [returned] at quiet
      cases quiet
  | ok report =>
      rw [returned] at quiet
      refine ⟨report, rfl, by simpa [Except.toOption] using quiet, fun holds => ?_⟩
      obtain ⟨found, read, perm⟩ := holds.once.regions .user (by decide)
      have none_ : wantedEntries userLayout [nightlyBackup .singleBlock] .user .region = [] := rfl
      have length := perm.length_eq
      rw [none_, List.length_map, List.length_nil] at length
      rw [read] at counts
      simp [Except.toOption, length] at counts

end TaskControl.Cron
