import TaskControl.Cron.Verification

/-!
# Ambiguous ownership

A plan is refused when a text cannot be scanned, an identifier cannot be read or
the place of a desired artefact belongs to somebody else.  Each of these looks
at one text at a time, and no pattern sees a marker that is almost right.
-/

set_option autoImplicit false

namespace TaskControl.Cron

open PythonText Effects

/-! ## When a plan succeeds -/

/-- A marker's identifier is one of a task. -/
def IsTaskId (text : Text) : Prop := ∃ taskId, EntityId.fromPrimitive .task text = .ok taskId

/-- A place is free for an artefact or already its own. -/
def OpenTo (host : Host) (artefact : DesiredArtefact) : Placement → Prop
  | .entry c form =>
      ∀ entry ∈ ((Estate.of host).entries c form artefact.slug).head?,
        entry.taskId = artefact.taskId.text
  | .file d =>
      plainName artefact.slug = true ∧ (host.readFile d artefact.slug = [] ∨ ∃ region rest,
        findManagedRegions (host.readFile d artefact.slug) = .ok (region :: rest) ∧
          region.taskId = artefact.taskId.text)

/-- What planning needs of a host. -/
structure Clear (layout : CronLayout) (host : Host) (desired : List DesiredArtefact) : Prop where
  scanned : ∀ c ∈ layout.configuredCrontabs, ∃ regions members,
    findManagedRegions (host.readCrontab c) = .ok regions ∧
      findBlockMembers (host.readCrontab c) = .ok members
  entries : ∀ c ∈ layout.configuredCrontabs, ∀ held, managedEntries (host.readCrontab c) = .ok held →
    ∀ entry ∈ held, entry.slug ∉ desired.map DesiredArtefact.slug → IsTaskId entry.taskId
  files : ∀ d ∈ layout.configuredDirectories, ∀ name ∈ (host.directory d).names,
    name ∉ desired.map DesiredArtefact.slug → plainName name = true ∧ ∃ regions,
      findManagedRegions (host.readFile d name) = .ok regions ∧
        ∀ region ∈ regions.head?, IsTaskId region.taskId
  own : ∀ artefact ∈ desired, (∃ text, renderArtefact artefact = .ok text) ∧
    ∃ place, placement layout artefact = some place ∧ OpenTo host artefact place

section Planning

variable {layout : CronLayout} {host : Host} {desired : List DesiredArtefact}

theorem directoryOf_of_placement {artefact : DesiredArtefact} {d : DirectoryName}
    (placed : placement layout artefact = some (.file d)) :
    artefact.deployment.strategy.writesAFilePerTask = true ∧ directoryOf layout artefact = .ok d := by
  unfold placement at placed
  split at placed
  · next file =>
      obtain ⟨d', found, same⟩ := Option.map_eq_some_iff.mp placed
      cases same
      exact ⟨file, directoryOf_eq_ok.mpr found⟩
  · obtain ⟨_, _, same⟩ := Option.map_eq_some_iff.mp placed
    cases same

theorem crontabOf_of_placement {artefact : DesiredArtefact} {c : CrontabName} {form : Form}
    (placed : placement layout artefact = some (.entry c form)) :
    artefact.deployment.strategy.writesAFilePerTask ≠ true ∧ crontabOf layout artefact = .ok c ∧
      form = artefact.form := by
  unfold placement at placed
  split at placed
  · obtain ⟨_, _, same⟩ := Option.map_eq_some_iff.mp placed
    cases same
  · next crontab =>
      obtain ⟨c', found, same⟩ := Option.map_eq_some_iff.mp placed
      cases same
      exact ⟨crontab, crontabOf_eq_ok.mpr found, rfl⟩

/-- An artefact with a place has a description of it. -/
theorem describe_of_placement {artefact : DesiredArtefact} {place : Placement}
    (placed : placement layout artefact = some place) :
    ∃ target, describe layout artefact = .ok target := by
  unfold describe
  cases place with
  | file d =>
      obtain ⟨file, found⟩ := directoryOf_of_placement placed
      rw [if_pos file, found]
      exact ⟨_, rfl⟩
  | entry c form =>
      obtain ⟨crontab, found, _⟩ := crontabOf_of_placement placed
      rw [if_neg crontab, found]
      exact ⟨_, rfl⟩

theorem sameCapability_isOk_iff {artefact : DesiredArtefact} {taskId : Text} {place : String}
    {content : Text} :
    (∃ text, (do
      assertSameCapability artefact taskId place
      return content : Except TaskControlError Text) = .ok text) ↔
        taskId = artefact.taskId.text := by
  constructor
  · rintro ⟨text, checked⟩
    obtain ⟨_, same, _⟩ := except_bind_eq_ok.mp checked
    exact assertSame_ok same
  · intro same
    rw [assertSameCapability, if_pos same]
    exact ⟨content, rfl⟩

/-- The first entry of a slug's slot, as the search finds it. -/
theorem head_of_slot {α : Type} (found : List α) (slug : Text) (view : α → ManagedEntry) :
    (ofSlug slug (found.map view)).head? =
      (found.find? (fun a => (view a).slug = slug)).map view := by
  rw [ofSlug, List.head?_filter, List.find?_map]
  rfl

theorem deployedEntry_isOk_iff {artefact : DesiredArtefact} {c : CrontabName}
    (scanned : ∃ regions members, findManagedRegions (host.readCrontab c) = .ok regions ∧
      findBlockMembers (host.readCrontab c) = .ok members) :
    (∃ text, deployedEntry layout artefact c (host.readCrontab c) = .ok text) ↔
      OpenTo host artefact (.entry c artefact.form) := by
  obtain ⟨regions, members, foundRegions, foundMembers⟩ := scanned
  unfold deployedEntry OpenTo DesiredArtefact.form
  split
  · next single =>
      have head := head_of_slot members artefact.slug BlockMember.entry
      simp only [Estate.of, foundMembers, bind, Except.bind]
      rw [head]
      cases first : members.find? (·.slug = artefact.slug) with
      | none =>
          rw [show members.find? (fun a => a.entry.slug = artefact.slug) = none from first]
          simp [pure, Except.pure]
      | some member =>
          rw [show members.find? (fun a => a.entry.slug = artefact.slug) = some member from first]
          simp only [Option.map_some, Option.mem_some_iff, forall_eq']
          exact sameCapability_isOk_iff
  · next region =>
      have head := head_of_slot regions artefact.slug ManagedRegion.entry
      simp only [Estate.of, foundRegions, bind, Except.bind]
      rw [head]
      cases first : regions.find? (·.slug = artefact.slug) with
      | none =>
          rw [show regions.find? (fun a => a.entry.slug = artefact.slug) = none from first]
          simp [pure, Except.pure]
      | some held =>
          rw [show regions.find? (fun a => a.entry.slug = artefact.slug) = some held from first]
          simp only [Option.map_some, Option.mem_some_iff, forall_eq']
          exact sameCapability_isOk_iff

theorem deployedFile_isOk_iff {artefact : DesiredArtefact} {d : DirectoryName}
    (placed : placement layout artefact = some (.file d)) {content : Text} :
    (∃ text, deployedFile layout artefact d content = .ok text) ↔
      (content = [] ∨ ∃ region rest, findManagedRegions content = .ok (region :: rest) ∧
        region.taskId = artefact.taskId.text) := by
  obtain ⟨target, described⟩ := describe_of_placement placed
  unfold deployedFile
  by_cases empty : content = []
  · rw [if_pos empty]
    simp [empty, pure, Except.pure]
  · rw [if_neg empty, described]
    simp only [empty, false_or]
    cases scanned : findManagedRegions content with
    | error problem => simp [bind, Except.bind]
    | ok regions =>
        cases regions with
        | nil => simp [bind, Except.bind, throw, throwThe, MonadExceptOf.throw]
        | cons region rest =>
            simp only [bind, Except.bind, Except.ok.injEq, List.cons.injEq]
            rw [show (∃ region' rest', (region = region' ∧ rest = rest') ∧
              region'.taskId = artefact.taskId.text) ↔ region.taskId = artefact.taskId.text by simp]
            exact sameCapability_isOk_iff

/-- What is deployed for an artefact can be read where its place is open to it. -/
theorem currentContent_isOk_iff {artefact : DesiredArtefact}
    (scanned : ∀ c ∈ layout.configuredCrontabs, ∃ regions members,
      findManagedRegions (host.readCrontab c) = .ok regions ∧
        findBlockMembers (host.readCrontab c) = .ok members) :
    (∃ text, currentContent layout host artefact = .ok text) ↔
      ∃ place, placement layout artefact = some place ∧ OpenTo host artefact place := by
  have reads (place : Placement) (placed : placement layout artefact = some place) :
      (∃ text, currentContent layout host artefact = .ok text) ↔ OpenTo host artefact place := by
    unfold currentContent
    cases place with
    | file d =>
        obtain ⟨file, found⟩ := directoryOf_of_placement placed
        rw [if_pos file, found, OpenTo, ← deployedFile_isOk_iff placed]
        by_cases plain : plainName artefact.slug = true
        · simp [Host.readNamed, plain, bind, Except.bind]
        · simp [Host.readNamed, plain, bind, Except.bind]
    | entry c form =>
        obtain ⟨crontab, found, rfl⟩ := crontabOf_of_placement placed
        rw [if_neg crontab, found]
        exact deployedEntry_isOk_iff (scanned c (placement_crontab placed))
  constructor
  · rintro ⟨text, current⟩
    obtain ⟨place, placed⟩ := placement_of_content current
    exact ⟨place, placed, (reads place placed).mp ⟨text, current⟩⟩
  · rintro ⟨place, placed, open_⟩
    exact (reads place placed).mpr open_

theorem planOne_isOk_iff {artefact : DesiredArtefact} :
    (∃ entry, planOne layout host artefact = .ok entry) ↔
      (∃ text, renderArtefact artefact = .ok text) ∧
        ∃ text, currentContent layout host artefact = .ok text := by
  constructor
  · rintro ⟨entry, planned⟩
    obtain ⟨text, rendered, planned⟩ := except_bind_eq_ok.mp planned
    obtain ⟨current, read, _⟩ := except_bind_eq_ok.mp planned
    exact ⟨⟨text, rendered⟩, current, read⟩
  · rintro ⟨⟨text, rendered⟩, current, read⟩
    obtain ⟨place, placed⟩ := placement_of_content read
    obtain ⟨target, described⟩ := describe_of_placement placed
    unfold planOne
    rw [rendered, read, described]
    simp only [bind, Except.bind]
    split
    · exact ⟨_, rfl⟩
    · split
      · exact ⟨_, rfl⟩
      · exact ⟨_, rfl⟩

/-- A loop that reads the identifier of each item succeeds where all are those of tasks. -/
theorem identified_isOk_iff {α β : Type} (taskId : α → Text) (make : α → TaskId → β)
    (items : List α) :
    (∃ results, items.mapM (fun item => do
      let read ← EntityId.fromPrimitive .task (taskId item)
      return make item read) = .ok results) ↔ ∀ item ∈ items, IsTaskId (taskId item) := by
  rw [mapM_isOk_iff]
  apply forall_congr'
  intro item
  apply forall_congr'
  intro _
  unfold IsTaskId
  cases EntityId.fromPrimitive .task (taskId item) with
  | error problem => simp [bind, Except.bind]
  | ok taskId => simp [bind, Except.bind, pure, Except.pure]

/-- The same over the entries of a crontab whose slugs are not desired. -/
theorem heldLoop_isOk_iff {β : Type} (make : ManagedEntry → TaskId → β) (content : Text)
    (slugs : List Text) :
    (∃ results, (do
      let held ← managedEntries content
      (held.filter (·.slug ∉ slugs)).mapM fun entry => do
        let read ← EntityId.fromPrimitive .task entry.taskId
        return make entry read : Except TaskControlError (List β)) = .ok results) ↔
      (∃ held, managedEntries content = .ok held) ∧
        ∀ held, managedEntries content = .ok held →
          ∀ entry ∈ held, entry.slug ∉ slugs → IsTaskId entry.taskId := by
  cases managed : managedEntries content with
  | error problem => simp [bind, Except.bind]
  | ok held =>
      have each := identified_isOk_iff ManagedEntry.taskId make (held.filter (·.slug ∉ slugs))
      simp only [List.mem_filter, decide_eq_true_eq, and_imp] at each
      simpa [bind, Except.bind] using each

theorem crontabRemovals_isOk_iff {slugs : List Text} {c : CrontabName} :
    (∃ removals, crontabRemovals layout host slugs c = .ok removals) ↔
      (∃ held, managedEntries (host.readCrontab c) = .ok held) ∧
        ∀ held, managedEntries (host.readCrontab c) = .ok held →
          ∀ entry ∈ held, entry.slug ∉ slugs → IsTaskId entry.taskId :=
  heldLoop_isOk_iff _ (host.readCrontab c) slugs

theorem fileRemoval_isOk_iff {d : DirectoryName} {name : Text} :
    (∃ removals, fileRemoval layout host d name = .ok removals) ↔
      plainName name = true ∧ ∃ regions, findManagedRegions (host.readFile d name) = .ok regions ∧
        ∀ region ∈ regions.head?, IsTaskId region.taskId := by
  unfold fileRemoval Host.readNamed
  by_cases plain : plainName name = true
  · rw [if_pos plain]
    simp only [bind, Except.bind, plain, true_and]
    cases scanned : findManagedRegions (host.readFile d name) with
    | error problem => simp
    | ok regions =>
        cases regions with
        | nil => simp [pure, Except.pure]
        | cons region rest =>
            simp only [Except.ok.injEq, exists_eq_left', List.head?_cons, Option.mem_some_iff,
              forall_eq']
            unfold IsTaskId
            cases EntityId.fromPrimitive .task region.taskId with
            | error problem => simp
            | ok taskId => simp [pure, Except.pure]
  · simp [plain, bind, Except.bind]

/-- A loop over the names that are not desired, its lists joined. -/
theorem flattened_isOk_iff {β : Type} (f : Text → Except TaskControlError (List β))
    (names slugs : List Text) :
    (∃ results, List.flatten <$> (names.filter (· ∉ slugs)).mapM f = .ok results) ↔
      ∀ name ∈ names, name ∉ slugs → ∃ result, f name = .ok result := by
  have collected : (∃ results, List.flatten <$> (names.filter (· ∉ slugs)).mapM f = .ok results) ↔
      ∃ lists, (names.filter (· ∉ slugs)).mapM f = .ok lists := by
    cases (names.filter (· ∉ slugs)).mapM f with
    | error problem => simp [Functor.map, Except.map]
    | ok lists => simp [Functor.map, Except.map]
  rw [collected, mapM_isOk_iff]
  simp only [List.mem_filter, decide_eq_true_eq, and_imp]

theorem directoryRemovals_isOk_iff {slugs : List Text} {d : DirectoryName} :
    (∃ removals, directoryRemovals layout host slugs d = .ok removals) ↔
      ∀ name ∈ (host.directory d).names, name ∉ slugs → plainName name = true ∧ ∃ regions,
        findManagedRegions (host.readFile d name) = .ok regions ∧
          ∀ region ∈ regions.head?, IsTaskId region.taskId := by
  unfold directoryRemovals
  rw [flattened_isOk_iff]
  simp only [fileRemoval_isOk_iff]

/-- A plan is made exactly for the hosts that are clear for it. -/
theorem plan_isOk_iff : (∃ deployment, plan layout host desired = .ok deployment) ↔
    Clear layout host desired := by
  have whole : (∃ deployment, plan layout host desired = .ok deployment) ↔
      (∀ artefact ∈ desired, ∃ entry, planOne layout host artefact = .ok entry) ∧
        (∀ c ∈ layout.configuredCrontabs, ∃ removals,
          crontabRemovals layout host (desired.map DesiredArtefact.slug) c = .ok removals) ∧
        ∀ d ∈ layout.configuredDirectories, ∃ removals,
          directoryRemovals layout host (desired.map DesiredArtefact.slug) d = .ok removals := by
    rw [← mapM_isOk_iff, ← mapM_isOk_iff, ← mapM_isOk_iff]
    constructor
    · rintro ⟨deployment, planned⟩
      obtain ⟨entries, one, planned⟩ := except_bind_eq_ok.mp planned
      obtain ⟨removals, planned, _⟩ := except_bind_eq_ok.mp planned
      obtain ⟨crontabs, fromCrontabs, planned⟩ := except_bind_eq_ok.mp planned
      obtain ⟨directories, fromDirectories, _⟩ := except_bind_eq_ok.mp planned
      exact ⟨⟨entries, one⟩, ⟨crontabs, fromCrontabs⟩, directories, fromDirectories⟩
    · rintro ⟨⟨entries, one⟩, ⟨crontabs, fromCrontabs⟩, directories, fromDirectories⟩
      unfold plan planRemovals
      rw [one, fromCrontabs, fromDirectories]
      exact ⟨_, rfl⟩
  rw [whole]
  simp only [planOne_isOk_iff, crontabRemovals_isOk_iff, directoryRemovals_isOk_iff]
  constructor
  · rintro ⟨own, crontabs, files⟩
    have scanned : ∀ c ∈ layout.configuredCrontabs, ∃ regions members,
        findManagedRegions (host.readCrontab c) = .ok regions ∧
          findBlockMembers (host.readCrontab c) = .ok members := by
      intro c configured
      obtain ⟨⟨held, managed⟩, _⟩ := crontabs c configured
      obtain ⟨regions, members, foundRegions, foundMembers, _⟩ := managedEntries_ok managed
      exact ⟨regions, members, foundRegions, foundMembers⟩
    refine ⟨scanned, fun c configured => (crontabs c configured).2, files,
      fun artefact member => ⟨(own artefact member).1, ?_⟩⟩
    exact (currentContent_isOk_iff scanned).mp (own artefact member).2
  · rintro ⟨scanned, entries, files, own⟩
    refine ⟨fun artefact member => ⟨(own artefact member).1, ?_⟩, fun c configured => ⟨?_, ?_⟩,
      files⟩
    · exact (currentContent_isOk_iff scanned).mpr (own artefact member).2
    · obtain ⟨regions, members, foundRegions, foundMembers⟩ := scanned c configured
      unfold managedEntries
      rw [foundRegions, foundMembers]
      exact ⟨_, rfl⟩
    · exact entries c configured

end Planning

/-! ## Markers -/

/-- `^#\s*(>>>|<<<)\s*taskcontrol\s+`: the line begins as a begin or end marker. -/
def beginsAsMarker (line : Text) : Bool :=
  (markerHead ">>>".toList line).isSome || (markerHead "<<<".toList line).isSome

/-- A line that begins as a marker and is none. -/
structure Malformed (line : Text) : Prop where
  begins : beginsAsMarker line = true
  region : matchBegin line = none ∧ matchEnd line = none
  block : matchBlockBegin line = none ∧ matchBlockEnd line = none

inductive Mark where
  | opens (name : Text)
  | closes (name : Text)
  deriving DecidableEq, Repr

/-- What a line opens or closes as a region's marker. -/
def regionMark (line : Text) : Option Mark :=
  match matchBegin line, matchEnd line with
  | some begins, _ => some (.opens begins.slug)
  | none, some slug => some (.closes slug)
  | none, none => none

/-- What a line opens or closes as a marker of the block, which has no name. -/
def blockMark (line : Text) : Option Mark :=
  match matchBlockBegin line, matchBlockEnd line with
  | some (), _ => some (.opens [])
  | none, some () => some (.closes [])
  | none, none => none

/-- Every begin marker is followed by its own end marker. -/
def paired : List Mark → Bool
  | [] => true
  | .opens first :: .closes second :: rest => first = second && paired rest
  | _ => false

/-- Some marker of the text has no counterpart. -/
def Unmatched (text : Text) : Prop :=
  paired ((splitLines text).filterMap regionMark) = false ∨
    paired ((splitLines text).filterMap blockMark) = false

/-- The scan for regions raises at every marker without a counterpart. -/
theorem scanRegions_paired {all lines : List Text} {index : Nat}
    {opened : Option (Nat × Identity)} {regions : List ManagedRegion}
    (scanned : scanRegions all index opened lines = .ok regions) :
    paired ((opened.map fun begins => .opens begins.2.slug).toList ++
      lines.filterMap regionMark) = true := by
  induction lines generalizing index opened regions with
  | nil =>
      cases opened with
      | none => rfl
      | some begins => cases scanned
  | cons line rest ih =>
      cases begins : matchBegin line with
      | some identity =>
          simp only [scanRegions, begins] at scanned
          have mark : regionMark line = some (.opens identity.slug) := by rw [regionMark, begins]
          cases opened with
          | some _ => cases scanned
          | none =>
              rw [List.filterMap_cons_some mark]
              exact ih scanned
      | none =>
          cases ends : matchEnd line with
          | none =>
              simp only [scanRegions, begins, ends] at scanned
              have mark : regionMark line = none := by rw [regionMark, begins, ends]
              rw [List.filterMap_cons_none mark]
              exact ih scanned
          | some slug =>
              simp only [scanRegions, begins, ends] at scanned
              have mark : regionMark line = some (.closes slug) := by rw [regionMark, begins, ends]
              cases opened with
              | none => cases scanned
              | some opening =>
                  by_cases same : slug ≠ opening.2.slug
                  · simp only [if_pos same] at scanned
                    cases scanned
                  · simp only [if_neg same] at scanned
                    obtain ⟨later, scannedLater, _⟩ := except_bind_eq_ok.mp scanned
                    rw [List.filterMap_cons_some mark]
                    have rest_ := ih scannedLater
                    simp only [Option.map_none, Option.toList_none, List.nil_append] at rest_
                    simp only [Option.map_some, Option.toList_some, List.cons_append,
                      List.nil_append, paired, rest_, Bool.and_true, decide_eq_true_eq]
                    exact (not_not.mp same).symm

/-- A region marker without its counterpart in a crontab is refused whatever is desired. -/
theorem unpaired_region_refused {layout : CronLayout} {host : Host}
    {desired : List DesiredArtefact} {c : CrontabName} (configured : c ∈ layout.configuredCrontabs)
    (unpaired : paired ((splitLines (host.readCrontab c)).filterMap regionMark) = false) :
    ∃ problem, plan layout host desired = .error problem := by
  cases planned : plan layout host desired with
  | error problem => exact ⟨problem, rfl⟩
  | ok deployment =>
      have clear := plan_isOk_iff.mp ⟨deployment, planned⟩
      obtain ⟨regions, members, found, _⟩ := clear.scanned c configured
      have matched := scanRegions_paired (findManagedRegions_scan found)
      simp only [Option.map_none, Option.toList_none, List.nil_append] at matched
      rw [matched] at unpaired
      cases unpaired

/-! ## Ambiguous hosts -/

/-- The regions of a text before their identifiers are compared. -/
def regionsIn (text : Text) : List ManagedRegion :=
  match scanRegions (splitLines text) 0 none (splitLines text) with
  | .ok regions => regions
  | .error _ => []

/-- The members of a text's block before their identifiers are compared. -/
def membersIn (text : Text) : List BlockMember :=
  match blockBounds text with
  | .ok (some (start, stop)) => scanMembers none (((splitLines text).take stop).drop (start + 1))
  | _ => []

def crontabTexts (layout : CronLayout) (host : Host) : List Text :=
  layout.configuredCrontabs.map host.readCrontab

/-- Each file of a configured directory with its name. -/
def heldFiles (layout : CronLayout) (host : Host) : List (Text × Text) :=
  layout.configuredDirectories.flatMap fun d =>
    (host.directory d).names.map fun name => (name, host.readFile d name)

/-- Everything managed on a host. -/
def heldEntries (layout : CronLayout) (host : Host) : List ManagedEntry :=
  (crontabTexts layout host).flatMap (fun text =>
    (regionsIn text).map ManagedRegion.entry ++ (membersIn text).map BlockMember.entry) ++
  (heldFiles layout host).flatMap fun file => (regionsIn file.2).map ManagedRegion.entry

/-- It is not clear whose an entry of the host is. -/
def AmbiguousOwnership (layout : CronLayout) (host : Host) : Prop :=
  ¬ ((heldEntries layout host).map ManagedEntry.taskId).Nodup ∨
    ¬ ((heldEntries layout host).map ManagedEntry.slug).Nodup ∨
    (∃ file ∈ heldFiles layout host, ∃ region ∈ regionsIn file.2, region.slug ≠ file.1) ∨
    ∃ text ∈ crontabTexts layout host ++ (heldFiles layout host).map Prod.snd,
      (∃ line ∈ splitLines text, Malformed line) ∨ Unmatched text

theorem noRunParts_distinct : (([] : List (PeriodicClassification × String)).map Prod.fst).Nodup :=
  List.nodup_nil

def bothCrontabs : CronLayout :=
  ⟨some "the user crontab", some "the system crontab", none, [], noRunParts_distinct⟩

def twiceHost : Host := (bareHost.writeCrontab .user nightlyRegion).writeCrontab .system nightlyRegion

end TaskControl.Cron
