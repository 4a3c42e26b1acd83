import TaskControl.Cron.Estate
import TaskControl.Cron.Rollback

/-!
# Exactly-once deployment

After a plan was applied, the managed entries of the host should be the rendered
desired artefacts, each once and in its own place.  Planning compares only the
place that an artefact names, and looks for removals only under slugs that are
not desired, so this needs that the host held nothing else under a desired slug,
and that a managed file was named by its own marker.
-/

set_option autoImplicit false

namespace TaskControl.Cron

open PythonText Effects

/-- The entries of one form that a crontab should hold. -/
def wantedEntries (layout : CronLayout) (desired : List DesiredArtefact) (c : CrontabName)
    (form : Form) : List ManagedEntry :=
  desired.filterMap fun artefact =>
    if placement layout artefact = some (.entry c form) then
      (renderArtefact artefact).toOption.map artefact.entry
    else none

/-- The managed entries over all crontabs and directories are the desired ones. -/
structure ExactlyOnce (layout : CronLayout) (host : Host) (desired : List DesiredArtefact) :
    Prop where
  regions : ∀ c ∈ layout.configuredCrontabs, ∃ found,
    findManagedRegions (host.readCrontab c) = .ok found ∧
      (found.map ManagedRegion.entry).Perm (wantedEntries layout desired c .region)
  members : ∀ c ∈ layout.configuredCrontabs, ∃ found,
    findBlockMembers (host.readCrontab c) = .ok found ∧
      (found.map BlockMember.entry).Perm (wantedEntries layout desired c .member)
  files : ∀ d ∈ layout.configuredDirectories, ∀ name, ∃ found,
    findManagedRegions (host.readFile d name) = .ok found ∧
      (found ≠ [] ↔ ∃ artefact ∈ desired,
        placement layout artefact = some (.file d) ∧ artefact.slug = name)
  texts : ∀ artefact ∈ desired, ∀ d, placement layout artefact = some (.file d) →
    renderArtefact artefact = .ok (host.readFile d artefact.slug)

/-- The slugs for which removals are planned: those of managed entries, and of
files under other names, that are not desired; a file's slug is the one its
first marker names. -/
def Retired (layout : CronLayout) (host : Host) (slugs : List Text) (slug : Text) : Prop :=
  (∃ c ∈ layout.configuredCrontabs, ∃ entries,
    managedEntries (host.readCrontab c) = .ok entries ∧
      slug ∉ slugs ∧ ∃ entry ∈ entries, entry.slug = slug) ∨
  ∃ d ∈ layout.configuredDirectories, ∃ name ∉ slugs, ∃ region rest,
    findManagedRegions (host.readFile d name) = .ok (region :: rest) ∧ region.slug = slug

/-- Nothing on the host stands in the way of the desired artefacts. -/
structure Undisturbed (layout : CronLayout) (host : Host) (desired : List DesiredArtefact) :
    Prop where
  regions : ∀ c ∈ layout.configuredCrontabs, ∀ found,
    findManagedRegions (host.readCrontab c) = .ok found → ∀ artefact ∈ desired,
      (ofSlug artefact.slug (found.map ManagedRegion.entry)).length ≤
        if placement layout artefact = some (.entry c .region) then 1 else 0
  members : ∀ c ∈ layout.configuredCrontabs, ∀ found,
    findBlockMembers (host.readCrontab c) = .ok found → ∀ artefact ∈ desired,
      (ofSlug artefact.slug (found.map BlockMember.entry)).length ≤
        if placement layout artefact = some (.entry c .member) then 1 else 0
  strangers : ∀ d ∈ layout.configuredDirectories, ∀ name ∉ desired.map DesiredArtefact.slug,
    ∀ region rest, findManagedRegions (host.readFile d name) = .ok (region :: rest) →
      region.slug ∉ desired.map DesiredArtefact.slug ∧
        Retired layout host (desired.map DesiredArtefact.slug) name
  namesakes : ∀ d ∈ layout.configuredDirectories, ∀ artefact ∈ desired,
    placement layout artefact ≠ some (.file d) →
      findManagedRegions (host.readFile d artefact.slug) = .ok []

/-! ## Plans -/

section Plans

variable {layout : CronLayout} {host : Host}

theorem placement_of_content {artefact : DesiredArtefact} {current : Text}
    (read : currentContent layout host artefact = .ok current) :
    ∃ place, placement layout artefact = some place := by
  unfold currentContent at read
  unfold placement
  split at read
  · rename_i file
    rw [if_pos file]
    cases found : directoryOf layout artefact with
    | error problem =>
        rw [found] at read
        cases read
    | ok d => exact ⟨_, by rw [directoryOf_eq_ok.mp found]; rfl⟩
  · rename_i crontab
    rw [if_neg crontab]
    cases found : crontabOf layout artefact with
    | error problem =>
        rw [found] at read
        cases read
    | ok c => exact ⟨_, by rw [crontabOf_eq_ok.mp found]; rfl⟩

/-- What a plan says of one artefact. -/
structure PlannedFor (layout : CronLayout) (host : Host) (artefact : DesiredArtefact)
    (entry : PlanEntry) : Prop where
  carried : entry.artefact = some artefact
  writes : entry.change ≠ .remove
  rendered : renderArtefact artefact = .ok entry.after
  placed : ∃ place, placement layout artefact = some place
  unchanged : entry.change = .unchanged →
    currentContent layout host artefact = .ok entry.after ∧ entry.after ≠ []

theorem planOne_ok {artefact : DesiredArtefact} {entry : PlanEntry}
    (planned : planOne layout host artefact = .ok entry) : PlannedFor layout host artefact entry := by
  unfold planOne at planned
  cases rendered : renderArtefact artefact with
  | error problem =>
      rw [rendered] at planned
      cases planned
  | ok text =>
      cases current : currentContent layout host artefact with
      | error problem =>
          rw [rendered, current] at planned
          cases planned
      | ok content =>
          have placed := placement_of_content current
          rw [rendered, current] at planned
          cases description : describe layout artefact with
          | error problem =>
              rw [description] at planned
              cases planned
          | ok target =>
              rw [description] at planned
              simp only [bind, Except.bind] at planned
              split at planned
              · cases planned
                exact ⟨rfl, by simp, rendered, placed, by simp⟩
              · rename_i present
                split at planned
                · rename_i same
                  cases planned
                  exact ⟨rfl, by simp, rendered, placed,
                    fun _ => ⟨by rw [current, same], by rw [← same]; exact present⟩⟩
                · cases planned
                  exact ⟨rfl, by simp, rendered, placed, by simp⟩

theorem planned_of_mem {desired : List DesiredArtefact} {entries : List PlanEntry}
    (planned : List.Forall₂ (PlannedFor layout host) desired entries) {artefact : DesiredArtefact}
    (member : artefact ∈ desired) : ∃ entry, PlannedFor layout host artefact entry := by
  induction planned with
  | nil => cases member
  | cons first _ ih =>
      rcases List.mem_cons.mp member with rfl | later
      · exact ⟨_, first⟩
      · exact ih later

/-- The removals in one crontab are those of its entries that are not desired. -/
theorem crontabRemovals_ok {slugs : List Text} {c : CrontabName} {removals : List PlanEntry}
    (planned : crontabRemovals layout host slugs c = .ok removals) :
    ∃ entries, managedEntries (host.readCrontab c) = .ok entries ∧
      (∀ removal ∈ removals, removal.change = .remove) ∧
      removals.map PlanEntry.slug = (entries.filter (·.slug ∉ slugs)).map ManagedEntry.slug := by
  obtain ⟨entries, managed, collected⟩ := except_bind_eq_ok.mp planned
  refine ⟨entries, managed, ?_⟩
  have each := mapM_eq_ok.mp collected
  clear planned collected
  generalize entries.filter (·.slug ∉ slugs) = held at each ⊢
  induction each with
  | nil => simp
  | cons first later ih =>
      obtain ⟨taskId, parsed, returned⟩ := except_bind_eq_ok.mp first
      obtain rfl := Except.ok.inj returned
      obtain ⟨changes, named⟩ := ih
      refine ⟨fun removal member => ?_, by rw [List.map_cons, List.map_cons, named]⟩
      rcases List.mem_cons.mp member with rfl | inRest
      · rfl
      · exact changes removal inRest

theorem fileRemoval_ok {d : DirectoryName} {name : Text} {removals : List PlanEntry}
    (planned : fileRemoval layout host d name = .ok removals) :
    ∃ regions, findManagedRegions (host.readFile d name) = .ok regions ∧
      (∀ removal ∈ removals, removal.change = .remove) ∧
        removals.map PlanEntry.slug = (regions.head?.map ManagedRegion.slug).toList := by
  obtain ⟨content, read, rest⟩ := except_bind_eq_ok.mp planned
  obtain ⟨regions, found, rest⟩ := except_bind_eq_ok.mp rest
  have same : content = host.readFile d name := by
    unfold Host.readNamed at read
    split at read
    · exact (Except.ok.inj read).symm
    · cases read
  rw [same] at found
  refine ⟨regions, found, ?_⟩
  cases regions with
  | nil =>
      obtain rfl := Except.ok.inj rest
      simp
  | cons region others =>
      obtain ⟨taskId, parsed, returned⟩ := except_bind_eq_ok.mp rest
      obtain rfl := Except.ok.inj returned
      simp

theorem readFile_absent {d : DirectoryName} {name : Text}
    (absent : name ∉ (host.directory d).names) : host.readFile d name = [] := by
  unfold Host.readFile
  cases found : (host.directory d).find name with
  | none => rfl
  | some file =>
      exact absurd (SortedTable.mem_names.mpr (by simp [found])) absent

theorem directoryRemovals_ok {slugs : List Text} {d : DirectoryName} {removals : List PlanEntry}
    (planned : directoryRemovals layout host slugs d = .ok removals) :
    (∀ removal ∈ removals, removal.change = .remove) ∧
      (∀ name ∉ slugs, ∃ regions, findManagedRegions (host.readFile d name) = .ok regions) ∧
        ∀ slug, slug ∈ removals.map PlanEntry.slug ↔ ∃ name ∉ slugs, ∃ region rest,
          findManagedRegions (host.readFile d name) = .ok (region :: rest) ∧ region.slug = slug := by
  obtain ⟨lists, collected, returned⟩ : ∃ lists, ((host.directory d).names.filter
      (· ∉ slugs)).mapM (fileRemoval layout host d) = .ok lists ∧ lists.flatten = removals := by
    unfold directoryRemovals at planned
    cases collected : ((host.directory d).names.filter (· ∉ slugs)).mapM
        (fileRemoval layout host d) with
    | error problem =>
        rw [collected] at planned
        cases planned
    | ok lists =>
        rw [collected] at planned
        exact ⟨lists, rfl, Except.ok.inj planned⟩
  obtain ⟨every, flat⟩ := mapM_flatten collected
  have named {name : Text} : name ∈ (host.directory d).names.filter (· ∉ slugs) ↔
      name ∈ (host.directory d).names ∧ name ∉ slugs := by simp
  subst returned
  refine ⟨fun removal member => ?_, fun name foreign => ?_, fun slug => ⟨?_, ?_⟩⟩
  · obtain ⟨name, _, list, planned, inList⟩ := (flat removal).mp member
    obtain ⟨_, _, changes, _⟩ := fileRemoval_ok planned
    exact changes removal inList
  · by_cases present : name ∈ (host.directory d).names
    · obtain ⟨list, planned⟩ := every name (named.mpr ⟨present, foreign⟩)
      obtain ⟨regions, found, _⟩ := fileRemoval_ok planned
      exact ⟨regions, found⟩
    · exact ⟨[], by rw [readFile_absent present]; rfl⟩
  · intro member
    obtain ⟨removal, inLists, rfl⟩ := List.mem_map.mp member
    obtain ⟨name, listed, list, planned, inList⟩ := (flat removal).mp inLists
    obtain ⟨regions, found, _, slugs_⟩ := fileRemoval_ok planned
    have first : removal.slug ∈ list.map PlanEntry.slug := List.mem_map_of_mem inList
    rw [slugs_] at first
    cases regions with
    | nil => simp at first
    | cons region rest =>
        have same : removal.slug = region.slug := by simpa using first
        exact ⟨name, (named.mp listed).2, region, rest, found, same.symm⟩
  · rintro ⟨name, foreign, region, rest, found, rfl⟩
    have present : name ∈ (host.directory d).names := by
      by_contra absent
      rw [readFile_absent absent] at found
      cases found
    obtain ⟨list, planned⟩ := every name (named.mpr ⟨present, foreign⟩)
    obtain ⟨regions, found', _, slugs_⟩ := fileRemoval_ok planned
    obtain rfl := Except.ok.inj (found.symm.trans found')
    have first : region.slug ∈ list.map PlanEntry.slug := by simp [slugs_]
    obtain ⟨removal, inList, same⟩ := List.mem_map.mp first
    exact List.mem_map.mpr
      ⟨removal, (flat removal).mpr ⟨name, named.mpr ⟨present, foreign⟩, list, planned, inList⟩, same⟩

/-- What the planned removals say of the host. -/
structure RemovalsFor (layout : CronLayout) (host : Host) (slugs : List Text)
    (removals : List PlanEntry) : Prop where
  remove : ∀ removal ∈ removals, removal.change = .remove
  named : ∀ slug, slug ∈ removals.map PlanEntry.slug ↔ Retired layout host slugs slug
  crontabs : ∀ c ∈ layout.configuredCrontabs, ∃ entries,
    managedEntries (host.readCrontab c) = .ok entries
  files : ∀ d ∈ layout.configuredDirectories, ∀ name ∉ slugs, ∃ regions,
    findManagedRegions (host.readFile d name) = .ok regions

theorem planRemovals_ok {slugs : List Text} {removals : List PlanEntry}
    (planned : planRemovals layout host slugs = .ok removals) :
    RemovalsFor layout host slugs removals := by
  obtain ⟨fromCrontabs, crontabs, rest⟩ := except_bind_eq_ok.mp planned
  obtain ⟨fromDirectories, directories, returned⟩ := except_bind_eq_ok.mp rest
  obtain rfl : fromCrontabs.flatten ++ fromDirectories.flatten = removals := Except.ok.inj returned
  obtain ⟨everyCrontab, flatCrontabs⟩ := mapM_flatten crontabs
  obtain ⟨everyDirectory, flatDirectories⟩ := mapM_flatten directories
  refine ⟨fun removal member => ?_, fun slug => ⟨?_, ?_⟩, fun c configured => ?_,
    fun d configured => ?_⟩
  · rcases List.mem_append.mp member with inCrontabs | inDirectories
    · obtain ⟨c, _, list, planned, inList⟩ := (flatCrontabs removal).mp inCrontabs
      obtain ⟨_, _, changes, _⟩ := crontabRemovals_ok planned
      exact changes removal inList
    · obtain ⟨d, _, list, planned, inList⟩ := (flatDirectories removal).mp inDirectories
      exact (directoryRemovals_ok planned).1 removal inList
  · intro member
    obtain ⟨removal, inRemovals, rfl⟩ := List.mem_map.mp member
    rcases List.mem_append.mp inRemovals with inCrontabs | inDirectories
    · obtain ⟨c, configured, list, planned, inList⟩ := (flatCrontabs removal).mp inCrontabs
      obtain ⟨entries, managed, _, slugs_⟩ := crontabRemovals_ok planned
      have held : removal.slug ∈ list.map PlanEntry.slug := List.mem_map_of_mem inList
      rw [slugs_] at held
      obtain ⟨entry, filtered, same⟩ := List.mem_map.mp held
      obtain ⟨inEntries, foreign⟩ := List.mem_filter.mp filtered
      exact Or.inl ⟨c, configured, entries, managed, by simpa [same] using foreign, entry, inEntries,
        same⟩
    · obtain ⟨d, configured, list, planned, inList⟩ := (flatDirectories removal).mp inDirectories
      exact Or.inr ⟨d, configured,
        ((directoryRemovals_ok planned).2.2 removal.slug).mp (List.mem_map_of_mem inList)⟩
  · rintro (⟨c, configured, entries, managed, foreign, entry, inEntries, rfl⟩ |
      ⟨d, configured, held⟩)
    · obtain ⟨list, planned⟩ := everyCrontab c configured
      obtain ⟨entries', managed', _, slugs_⟩ := crontabRemovals_ok planned
      obtain rfl := Except.ok.inj (managed.symm.trans managed')
      have first : entry.slug ∈ list.map PlanEntry.slug := by
        rw [slugs_]
        exact List.mem_map_of_mem (List.mem_filter.mpr ⟨inEntries, by simpa using foreign⟩)
      obtain ⟨removal, inList, same⟩ := List.mem_map.mp first
      exact List.mem_map.mpr ⟨removal, List.mem_append_left _
        ((flatCrontabs removal).mpr ⟨c, configured, list, planned, inList⟩), same⟩
    · obtain ⟨list, planned⟩ := everyDirectory d configured
      obtain ⟨removal, inList, same⟩ :=
        List.mem_map.mp (((directoryRemovals_ok planned).2.2 slug).mpr held)
      exact List.mem_map.mpr ⟨removal, List.mem_append_right _
        ((flatDirectories removal).mpr ⟨d, configured, list, planned, inList⟩), same⟩
  · obtain ⟨list, planned⟩ := everyCrontab c configured
    obtain ⟨entries, managed, _⟩ := crontabRemovals_ok planned
    exact ⟨entries, managed⟩
  · obtain ⟨list, planned⟩ := everyDirectory d configured
    exact (directoryRemovals_ok planned).2.1

theorem plan_ok {desired : List DesiredArtefact} {deployment : DeploymentPlan}
    (planned : plan layout host desired = .ok deployment) :
    ∃ entries removals, deployment = entries ++ removals ∧
      List.Forall₂ (PlannedFor layout host) desired entries ∧
        RemovalsFor layout host (desired.map DesiredArtefact.slug) removals := by
  obtain ⟨entries, collected, rest⟩ := except_bind_eq_ok.mp planned
  obtain ⟨removals, removed, returned⟩ := except_bind_eq_ok.mp rest
  exact ⟨entries, removals, (Except.ok.inj returned).symm,
    (mapM_eq_ok.mp collected).imp fun _ _ => planOne_ok, planRemovals_ok removed⟩

end Plans

/-! ## Applying a plan -/

section Applying

variable {layout : CronLayout} {faults : Faults}

theorem rollBack_failed {entry : PlanEntry} {error : Raised} {session session' : Session}
    {result : ApplyResult} (ran : rollBack faults entry error session = .ok result session') :
    result.succeeded = false := by
  rcases handle_eq_ok.mp ran with restored | ⟨second, mid, _, reported⟩
  · obtain ⟨_, mid, _, returned⟩ := bind_eq_ok.mp restored
    cases returned
    simp [ApplyResult.succeeded]
  · split at reported
    · cases reported
      simp [ApplyResult.succeeded]
    · cases reported

/-- An apply that reports success went through every entry. -/
theorem applyEntries_succeeded {applied entries : List PlanEntry} {session session' : Session}
    {result : ApplyResult}
    (ran : applyEntries faults layout applied entries session = .ok result session')
    (succeeded : result.succeeded = true) :
    entries.forM (applyEntry faults layout) session = .ok ⟨⟩ session' := by
  induction entries generalizing applied session with
  | nil =>
      cases ran
      rfl
  | cons entry rest ih =>
      obtain ⟨failure, mid, attempted, later⟩ := bind_eq_ok.mp ran
      rcases handle_eq_ok.mp attempted with done | ⟨error, failed, _, reported⟩
      · rw [seqRight_eq_bind] at done
        obtain ⟨_, mid', ended, returned⟩ := bind_eq_ok.mp done
        cases returned
        exact bind_eq_ok.mpr ⟨_, _, ended, ih later⟩
      · split at reported
        · cases reported
          have failed_ := rollBack_failed later
          rw [succeeded] at failed_
          cases failed_
        · cases reported

/-- The estate that a host shows. -/
def Estate.of (host : Host) : Estate where
  entries c form slug :=
    match form with
    | .region =>
        match findManagedRegions (host.readCrontab c) with
        | .ok found => ofSlug slug (found.map ManagedRegion.entry)
        | .error _ => []
    | .member =>
        match findBlockMembers (host.readCrontab c) with
        | .ok found => ofSlug slug (found.map BlockMember.entry)
        | .error _ => []
  file d name := host.readFile d name

theorem managedEntries_ok {content : Text} {entries : List ManagedEntry}
    (managed : managedEntries content = .ok entries) :
    ∃ regions members, findManagedRegions content = .ok regions ∧
      findBlockMembers content = .ok members ∧
        entries = regions.map ManagedRegion.entry ++ members.map BlockMember.entry := by
  obtain ⟨regions, foundRegions, rest⟩ := except_bind_eq_ok.mp managed
  obtain ⟨members, foundMembers, returned⟩ := except_bind_eq_ok.mp rest
  exact ⟨regions, members, foundRegions, foundMembers, (Except.ok.inj returned).symm⟩

theorem readCrontab_carriageFree (host : Host) (c : CrontabName) :
    '\r' ∉ host.readCrontab c := by
  unfold Host.readCrontab
  split
  · simp
  · exact carriage_not_mem_translate _

theorem represents_of {host : Host} {slugs : List Text} {removals : List PlanEntry}
    (planned : RemovalsFor layout host slugs removals)
    (separate : ∀ c ∈ layout.configuredCrontabs, Separate (host.readCrontab c)) :
    Represents layout host (Estate.of host) := by
  refine ⟨fun c configured => ?_, fun _ _ => rfl⟩
  obtain ⟨entries, managed⟩ := planned.crontabs c configured
  obtain ⟨regions, members, foundRegions, foundMembers, _⟩ := managedEntries_ok managed
  refine ⟨_, _, shelf_of_separate (readCrontab_carriageFree host c) foundRegions foundMembers
    (separate c configured), fun slug => ?_⟩
  simp only [Estate.of, foundRegions, foundMembers]
  exact ⟨trivial, trivial⟩

theorem find_entry {α : Type} {found : List α} {slug : Text} (view : α → ManagedEntry) {a : α}
    (first : found.find? (fun a => (view a).slug = slug) = some a) :
    ∃ rest, ofSlug slug (found.map view) = view a :: rest := by
  obtain ⟨named, before, after, rfl, absent⟩ := List.find?_eq_some_iff_append.mp first
  refine ⟨ofSlug slug (after.map view), ?_⟩
  have none_ : ofSlug slug (before.map view) = [] := by
    refine ofSlug_eq_nil.mpr fun entry member => ?_
    obtain ⟨b, inBefore, rfl⟩ := List.mem_map.mp member
    simpa using absent b inBefore
  have here : (view a).slug = slug := by simpa using named
  simp only [ofSlug] at none_ ⊢
  rw [List.map_append, List.filter_append, none_, List.map_cons, List.filter_cons]
  simp [here]

theorem assertSame_ok {artefact : DesiredArtefact} {taskId : Text} {place : String}
    (same : assertSameCapability artefact taskId place = .ok ()) : taskId = artefact.taskId.text := by
  unfold assertSameCapability at same
  split at same
  · assumption
  · cases same

/-- What is deployed for an artefact is in the artefact's own slot. -/
theorem currentContent_slot {host : Host} {artefact : DesiredArtefact} {text : Text}
    {place : Placement} (placed : placement layout artefact = some place)
    (current : currentContent layout host artefact = .ok text) (present : text ≠ []) :
    match place with
    | .entry c form =>
        ∃ rest, (Estate.of host).entries c form artefact.slug = artefact.entry text :: rest
    | .file d => host.readFile d artefact.slug = text := by
  unfold currentContent at current
  unfold placement at placed
  split at current
  · rename_i file
    obtain ⟨d, found, current⟩ := except_bind_eq_ok.mp current
    rw [if_pos file, directoryOf_eq_ok.mp found] at placed
    obtain rfl := Option.some.inj placed
    obtain ⟨content, read, current⟩ := except_bind_eq_ok.mp current
    have same : content = host.readFile d artefact.slug := by
      unfold Host.readNamed at read
      split at read
      · exact (Except.ok.inj read).symm
      · cases read
    simp only
    rw [← same]
    unfold deployedFile at current
    split at current
    · exact absurd (Except.ok.inj current).symm present
    · obtain ⟨regions, _, current⟩ := except_bind_eq_ok.mp current
      cases regions with
      | nil => cases current
      | cons region rest =>
          obtain ⟨target, _, current⟩ := except_bind_eq_ok.mp current
          obtain ⟨_, _, current⟩ := except_bind_eq_ok.mp current
          exact Except.ok.inj current
  · rename_i crontab
    obtain ⟨c, found, current⟩ := except_bind_eq_ok.mp current
    rw [if_neg crontab, crontabOf_eq_ok.mp found] at placed
    obtain rfl := Option.some.inj placed
    simp only
    unfold deployedEntry at current
    unfold DesiredArtefact.form
    split at current
    · rename_i single
      obtain ⟨members, read, current⟩ := except_bind_eq_ok.mp current
      cases first : members.find? (·.slug = artefact.slug) with
      | none =>
          rw [first] at current
          exact absurd (Except.ok.inj current).symm present
      | some member =>
          rw [first] at current
          obtain ⟨_, checked, returned⟩ := except_bind_eq_ok.mp current
          have id := assertSame_ok checked
          have named : member.slug = artefact.slug := by simpa using List.find?_some first
          obtain ⟨rest, slot⟩ := find_entry BlockMember.entry first
          refine ⟨rest, ?_⟩
          rw [if_pos single]
          simp only [Estate.of, read, slot]
          rw [← Except.ok.inj returned, BlockMember.entry, DesiredArtefact.entry, named, id]
    · rename_i region
      obtain ⟨regions, read, current⟩ := except_bind_eq_ok.mp current
      cases first : regions.find? (·.slug = artefact.slug) with
      | none =>
          rw [first] at current
          exact absurd (Except.ok.inj current).symm present
      | some held =>
          rw [first] at current
          obtain ⟨_, checked, returned⟩ := except_bind_eq_ok.mp current
          have id := assertSame_ok checked
          have named : held.slug = artefact.slug := by simpa using List.find?_some first
          obtain ⟨rest, slot⟩ := find_entry ManagedRegion.entry first
          refine ⟨rest, ?_⟩
          rw [if_neg region]
          simp only [Estate.of, read, slot]
          rw [← Except.ok.inj returned, ManagedRegion.entry, DesiredArtefact.entry, named, id]

/-- Deploying what is already there changes nothing. -/
theorem deploy_unchanged {host : Host} {artefact : DesiredArtefact} {entry : PlanEntry}
    {estate : Estate} (planned : PlannedFor layout host artefact entry)
    (unchanged : entry.change = .unchanged)
    (agree : AgreeAt artefact.slug estate (Estate.of host)) :
    estate.deploy layout artefact = estate := by
  obtain ⟨place, placed⟩ := planned.placed
  obtain ⟨current, present⟩ := planned.unchanged unchanged
  have slot := currentContent_slot placed current present
  rw [Estate.deploy, placed, planned.rendered]
  cases place with
  | entry c form =>
      obtain ⟨rest, held⟩ := slot
      rw [← agree.entries] at held
      simp only [Estate.write]
      have same : (fun c' form' slug => if c' = c ∧ form' = form ∧ slug = artefact.slug then
          artefact.entry entry.after :: (estate.entries c form slug).tail
            else estate.entries c' form' slug) = estate.entries := by
        funext c' form' slug
        split
        · rename_i here
          obtain ⟨rfl, rfl, rfl⟩ := here
          rw [held, List.tail_cons]
        · rfl
      rw [same]
  | file d =>
      have held : estate.file d artefact.slug = entry.after := (agree.files d).trans slot
      simp only [Estate.write]
      have same : (fun d' name => if d' = d ∧ name = artefact.slug then entry.after
          else estate.file d' name) = estate.file := by
        funext d' name
        split
        · rename_i here
          obtain ⟨rfl, rfl⟩ := here
          exact held.symm
        · rfl
      rw [same]

theorem deploys_simulate {host : Host} {desired : List DesiredArtefact} {entries : List PlanEntry}
    (safe : ∀ artefact ∈ desired, artefact.Safe)
    (distinct : (desired.map DesiredArtefact.slug).Nodup)
    (planned : List.Forall₂ (PlannedFor layout host) desired entries) {estate : Estate}
    {session session' : Session} (represents : Represents layout session.host estate)
    (agree : ∀ artefact ∈ desired, AgreeAt artefact.slug estate (Estate.of host))
    (ran : (entriesChanging entries).forM (applyEntry faults layout) session = .ok ⟨⟩ session') :
    Represents layout session'.host (desired.foldl (Estate.deploy layout) estate) := by
  induction planned generalizing estate session with
  | nil =>
      cases ran
      exact represents
  | @cons artefact entry rest entries first later ih =>
      rw [List.map_cons, List.nodup_cons] at distinct
      obtain ⟨fresh, distinct⟩ := distinct
      have safe' : ∀ other ∈ rest, other.Safe :=
        fun other member => safe other (List.mem_cons_of_mem artefact member)
      have agree' : ∀ other ∈ rest,
          AgreeAt other.slug (estate.deploy layout artefact) (Estate.of host) := by
        intro other member
        have differs : other.slug ≠ artefact.slug := fun same =>
          fresh (List.mem_map.mpr ⟨other, member, same⟩)
        exact (deploy_elsewhere estate differs).trans
          (agree other (List.mem_cons_of_mem artefact member))
      rw [List.foldl_cons]
      by_cases unchanged : entry.change = .unchanged
      · have skipped : entriesChanging (entry :: entries) = entriesChanging entries := by
          simp [entriesChanging, DeploymentChange.modifiesTheHost, unchanged]
        rw [skipped] at ran
        have same := deploy_unchanged first unchanged (agree artefact List.mem_cons_self)
        rw [same] at agree' ⊢
        exact ih safe' distinct represents agree' ran
      · have kept : entriesChanging (entry :: entries) = entry :: entriesChanging entries := by
          simp [entriesChanging, DeploymentChange.modifiesTheHost, unchanged]
        rw [kept] at ran
        obtain ⟨_, mid, applied, ran⟩ := bind_eq_ok.mp ran
        rw [applyEntry, if_neg first.writes] at applied
        obtain ⟨place, placed⟩ := first.placed
        exact ih safe' distinct (applyWrite_simulates (safe artefact List.mem_cons_self) first.carried
          first.rendered placed represents applied) agree' ran

/-- An apply that succeeds leaves the host with every desired artefact deployed,
then every planned slug retired. -/
theorem apply_simulates {host : Host} {desired : List DesiredArtefact}
    {entries removals : List PlanEntry} {session : Session} {result : ApplyResult}
    (safe : ∀ artefact ∈ desired, artefact.Safe)
    (distinct : (desired.map DesiredArtefact.slug).Nodup)
    (represents : Represents layout host (Estate.of host))
    (planned : List.Forall₂ (PlannedFor layout host) desired entries)
    (removed : RemovalsFor layout host (desired.map DesiredArtefact.slug) removals)
    (ran : apply faults layout (entries ++ removals) (.start host) = .ok result session)
    (succeeded : result.succeeded = true) :
    Represents layout session.host ((removals.map PlanEntry.slug).foldl (Estate.retire layout)
      (desired.foldl (Estate.deploy layout) (Estate.of host))) := by
  have all := applyEntries_succeeded ran succeeded
  have changing : entriesChanging (entries ++ removals) = entriesChanging entries ++ removals := by
    rw [entriesChanging, List.filter_append]
    congr 1
    refine List.filter_eq_self.mpr fun removal member => ?_
    simp [removed.remove removal member, DeploymentChange.modifiesTheHost]
  rw [changing] at all
  obtain ⟨_, mid, written, retired⟩ := bind_eq_ok.mp (forM_append _ _ _ ▸ all)
  have deployed := deploys_simulate safe distinct planned represents
    (fun artefact _ => ⟨fun _ _ => rfl, fun _ => rfl⟩) written
  rw [List.foldl_map]
  refine forM_simulates (fun session => Represents layout session.host) removals ?_ deployed retired
  intro removal member before after estate represents step
  rw [applyEntry, if_pos (removed.remove removal member)] at step
  exact applyRemoval_simulates represents step

end Applying

/-! ## What an apply leaves -/

section Outcome

variable {layout : CronLayout} {host final : Host} {desired : List DesiredArtefact}

/-- The slots of the host after an apply that succeeded. -/
structure Outcome (layout : CronLayout) (host : Host) (desired : List DesiredArtefact)
    (estate : Estate) : Prop where
  desiredEntries : ∀ c ∈ layout.configuredCrontabs, ∀ form, ∀ artefact ∈ desired, ∀ text,
    renderArtefact artefact = .ok text →
      ¬ Retired layout host (desired.map DesiredArtefact.slug) artefact.slug →
        estate.entries c form artefact.slug =
          if placement layout artefact = some (.entry c form) then
            artefact.entry text :: ((Estate.of host).entries c form artefact.slug).tail
          else (Estate.of host).entries c form artefact.slug
  otherEntries : ∀ c ∈ layout.configuredCrontabs, ∀ form,
    ∀ slug ∉ desired.map DesiredArtefact.slug, estate.entries c form slug = []
  retiredEntries : ∀ c ∈ layout.configuredCrontabs, ∀ form slug,
    Retired layout host (desired.map DesiredArtefact.slug) slug → estate.entries c form slug = []
  desiredFiles : ∀ d ∈ layout.configuredDirectories, ∀ artefact ∈ desired, ∀ text,
    renderArtefact artefact = .ok text →
      ¬ Retired layout host (desired.map DesiredArtefact.slug) artefact.slug →
        estate.file d artefact.slug =
          if placement layout artefact = some (.file d) then text
          else host.readFile d artefact.slug
  otherFiles : ∀ d ∈ layout.configuredDirectories, ∀ name ∉ desired.map DesiredArtefact.slug,
    ¬ (Retired layout host (desired.map DesiredArtefact.slug) name ∧
        isManaged (host.readFile d name) = true) → estate.file d name = host.readFile d name
  retiredFiles : ∀ d ∈ layout.configuredDirectories, ∀ name,
    Retired layout host (desired.map DesiredArtefact.slug) name →
      isManaged (estate.file d name) = false ∧
        (name ∉ desired.map DesiredArtefact.slug → isManaged (host.readFile d name) = true →
          estate.file d name = [])

theorem deploy_slot {artefact : DesiredArtefact} {place : Placement} {text : Text}
    (placed : placement layout artefact = some place)
    (rendered : renderArtefact artefact = .ok text) (estate : Estate) :
    (∀ c form, (estate.deploy layout artefact).entries c form artefact.slug =
      if placement layout artefact = some (.entry c form) then
        artefact.entry text :: (estate.entries c form artefact.slug).tail
      else estate.entries c form artefact.slug) ∧
    ∀ d, (estate.deploy layout artefact).file d artefact.slug =
      if placement layout artefact = some (.file d) then text
      else estate.file d artefact.slug := by
  rw [Estate.deploy, placed, rendered]
  cases place with
  | entry c' form' =>
      refine ⟨fun c form => ?_, fun d => by simp [Estate.write]⟩
      by_cases here : c = c' ∧ form = form'
      · obtain ⟨rfl, rfl⟩ := here
        simp [Estate.write]
      · have differs : ¬ (c' = c ∧ form' = form) := fun both =>
          here ⟨both.1.symm, both.2.symm⟩
        simp only [Estate.write, Option.some.injEq, Placement.entry.injEq, and_true, here, differs,
          if_false]
  | file d' =>
      refine ⟨fun c form => by simp [Estate.write], fun d => ?_⟩
      by_cases here : d = d'
      · simp [Estate.write, here]
      · simp [Estate.write, here, Ne.symm here]

theorem outcome {removals : List PlanEntry}
    (distinct : (desired.map DesiredArtefact.slug).Nodup)
    (placed : ∀ artefact ∈ desired, ∃ place, placement layout artefact = some place)
    (removed : RemovalsFor layout host (desired.map DesiredArtefact.slug) removals) :
    Outcome layout host desired ((removals.map PlanEntry.slug).foldl (Estate.retire layout)
      (desired.foldl (Estate.deploy layout) (Estate.of host))) := by
  have foreign {slug : Text} (absent : slug ∉ desired.map DesiredArtefact.slug) :
      AgreeAt slug (desired.foldl (Estate.deploy layout) (Estate.of host)) (Estate.of host) :=
    deploys_elsewhere _ fun artefact member same =>
      absent (List.mem_map.mpr ⟨artefact, member, same.symm⟩)
  constructor
  · intro c configured form artefact member text rendered kept
    obtain ⟨place, place_⟩ := placed artefact member
    rw [retires_entries _ _ configured, if_neg fun listed => kept ((removed.named _).mp listed),
      (deploys_here _ distinct member).entries, (deploy_slot place_ rendered _).1]
  · intro c configured form slug absent
    rw [retires_entries _ _ configured]
    split
    · rfl
    · rename_i unlisted
      have kept : ¬ Retired layout host (desired.map DesiredArtefact.slug) slug :=
        fun retired => unlisted ((removed.named slug).mpr retired)
      rw [(foreign absent).entries]
      by_contra held
      obtain ⟨entry, rest, shape⟩ := List.exists_cons_of_ne_nil held
      obtain ⟨entries, managed⟩ := removed.crontabs c configured
      obtain ⟨regions, members, foundRegions, foundMembers, rfl⟩ := managedEntries_ok managed
      refine kept (Or.inl ⟨c, configured, _, managed, absent, entry, ?_⟩)
      cases form with
      | region =>
          simp only [Estate.of, foundRegions] at shape
          obtain ⟨inRegions, named⟩ := mem_ofSlug.mp (shape ▸ List.mem_cons_self)
          exact ⟨List.mem_append_left _ inRegions, named⟩
      | member =>
          simp only [Estate.of, foundMembers] at shape
          obtain ⟨inMembers, named⟩ := mem_ofSlug.mp (shape ▸ List.mem_cons_self)
          exact ⟨List.mem_append_right _ inMembers, named⟩
  · intro c configured form slug retired
    rw [retires_entries _ _ configured, if_pos ((removed.named slug).mpr retired)]
  · intro d configured artefact member text rendered kept
    obtain ⟨place, place_⟩ := placed artefact member
    rw [retires_file _ _ configured, if_neg fun both => kept ((removed.named _).mp both.1),
      (deploys_here _ distinct member).files, (deploy_slot place_ rendered _).2]
    rfl
  · intro d configured name absent kept
    rw [retires_file _ _ configured, (foreign absent).files]
    exact if_neg fun both => kept ⟨(removed.named _).mp both.1, both.2⟩
  · intro d configured name retired
    have listed := (removed.named name).mpr retired
    rw [retires_file _ _ configured]
    constructor
    · split
      · rfl
      · rename_i unmanaged
        simpa [listed] using unmanaged
    · intro absent managed
      rw [if_pos ⟨listed, by rw [(foreign absent).files]; exact managed⟩]

theorem mem_wantedEntries {c : CrontabName} {form : Form} {entry : ManagedEntry} :
    entry ∈ wantedEntries layout desired c form ↔ ∃ artefact ∈ desired, ∃ text,
      placement layout artefact = some (.entry c form) ∧ renderArtefact artefact = .ok text ∧
        entry = artefact.entry text := by
  rw [wantedEntries, List.mem_filterMap]
  refine exists_congr fun artefact => and_congr_right fun _ => ?_
  split
  · rename_i placed
    cases rendered : renderArtefact artefact with
    | ok text => simp [placed, Except.toOption, eq_comm]
    | error problem => simp [Except.toOption]
  · rename_i elsewhere
    simp [elsewhere]

theorem wanted_none {c : CrontabName} {form : Form} {slug : Text}
    (absent : ∀ artefact ∈ desired, artefact.slug = slug →
      placement layout artefact ≠ some (.entry c form)) :
    ofSlug slug (wantedEntries layout desired c form) = [] := by
  refine ofSlug_eq_nil.mpr fun entry member named => ?_
  obtain ⟨artefact, inDesired, text, placed, _, rfl⟩ := mem_wantedEntries.mp member
  exact absent artefact inDesired named placed

theorem wanted_slugs (distinct : (desired.map DesiredArtefact.slug).Nodup) (c : CrontabName)
    (form : Form) : ((wantedEntries layout desired c form).map ManagedEntry.slug).Nodup := by
  refine distinct.sublist ?_
  clear distinct
  induction desired with
  | nil => exact List.Sublist.refl _
  | cons artefact rest ih =>
      rw [wantedEntries, List.filterMap_cons]
      split
      · exact ih.cons _
      · rename_i entry made
        have named : entry.slug = artefact.slug := by
          split at made
          · obtain ⟨text, _, rfl⟩ := Option.map_eq_some_iff.mp made
            rfl
          · cases made
        rw [List.map_cons, List.map_cons, named]
        exact ih.cons_cons _

theorem ofSlug_single {entries : List ManagedEntry} (distinct : (entries.map ManagedEntry.slug).Nodup)
    (slug : Text) : (ofSlug slug entries).length ≤ 1 := by
  have inner : ((ofSlug slug entries).map ManagedEntry.slug).Nodup :=
    distinct.sublist (List.filter_sublist.map _)
  cases held : ofSlug slug entries with
  | nil => simp
  | cons first rest =>
      cases rest with
      | nil => simp
      | cons second others =>
          have named (entry : ManagedEntry) (member : entry ∈ ofSlug slug entries) :
              entry.slug = slug := (mem_ofSlug.mp member).2
          rw [held] at inner named
          simp [named first (by simp), named second (by simp)] at inner

theorem wanted_here (distinct : (desired.map DesiredArtefact.slug).Nodup) {c : CrontabName}
    {form : Form} {artefact : DesiredArtefact} (member : artefact ∈ desired)
    (placed : placement layout artefact = some (.entry c form)) {text : Text}
    (rendered : renderArtefact artefact = .ok text) :
    ofSlug artefact.slug (wantedEntries layout desired c form) = [artefact.entry text] := by
  have slugs : ((wantedEntries layout desired c form).map ManagedEntry.slug).Nodup :=
    wanted_slugs distinct c form
  have single := ofSlug_single slugs artefact.slug
  have held : artefact.entry text ∈ ofSlug artefact.slug (wantedEntries layout desired c form) :=
    mem_ofSlug.mpr ⟨mem_wantedEntries.mpr ⟨artefact, member, text, placed, rendered, rfl⟩, rfl⟩
  cases shape : ofSlug artefact.slug (wantedEntries layout desired c form) with
  | nil =>
      rw [shape] at held
      cases held
  | cons first rest =>
      rw [shape] at single held
      obtain rfl : rest = [] := List.length_eq_zero_iff.mp (by simpa using single)
      rw [List.mem_singleton.mp held]

/-- Two lists, the right one with at most one entry of a slug, are the same up
to order when they are the same slug by slug. -/
theorem perm_iff_ofSlug {found wanted : List ManagedEntry}
    (distinct : (wanted.map ManagedEntry.slug).Nodup) :
    found.Perm wanted ↔ ∀ slug, ofSlug slug found = ofSlug slug wanted := by
  constructor
  · intro perm slug
    have inner : (ofSlug slug found).Perm (ofSlug slug wanted) := perm.filter _
    have single := ofSlug_single distinct slug
    cases shape : ofSlug slug wanted with
    | nil =>
        rw [shape] at inner
        exact inner.eq_nil
    | cons first rest =>
        rw [shape] at inner single
        obtain rfl : rest = [] := List.length_eq_zero_iff.mp (by simpa using single)
        exact inner.eq_singleton
  · intro same
    refine List.perm_iff_count.mpr fun entry => ?_
    have counted (entries : List ManagedEntry) :
        entries.count entry = (ofSlug entry.slug entries).count entry := by
      rw [ofSlug, List.count_filter (by simp)]
    rw [counted found, same, ← counted wanted]

end Outcome

/-! ## Exactness -/

section Exactness

variable {layout : CronLayout} {host final : Host} {desired : List DesiredArtefact}
  {estate : Estate}

theorem entries_exact_iff (distinct : (desired.map DesiredArtefact.slug).Nodup)
    (represents : Represents layout final estate) :
    ((∀ c ∈ layout.configuredCrontabs, ∃ found,
      findManagedRegions (final.readCrontab c) = .ok found ∧
        (found.map ManagedRegion.entry).Perm (wantedEntries layout desired c .region)) ∧
    (∀ c ∈ layout.configuredCrontabs, ∃ found,
      findBlockMembers (final.readCrontab c) = .ok found ∧
        (found.map BlockMember.entry).Perm (wantedEntries layout desired c .member))) ↔
    ∀ c ∈ layout.configuredCrontabs, ∀ form slug,
      estate.entries c form slug = ofSlug slug (wantedEntries layout desired c form) := by
  constructor
  · rintro ⟨regions, members⟩ c configured form slug
    obtain ⟨regions_, members_, shelf, held⟩ := represents.crontabs c configured
    cases form with
    | region =>
        obtain ⟨found, read, perm⟩ := regions c configured
        rw [(held slug).1, ← (shelf.arranged.regions_iff.1 found read).1]
        exact (perm_iff_ofSlug (wanted_slugs distinct c .region)).mp perm slug
    | member =>
        obtain ⟨found, read, perm⟩ := members c configured
        rw [(held slug).2, ← (shelf.arranged.members_iff.1 found read).1]
        exact (perm_iff_ofSlug (wanted_slugs distinct c .member)).mp perm slug
  · intro same
    refine ⟨fun c configured => ?_, fun c configured => ?_⟩
    · obtain ⟨regions, members, shelf, held⟩ := represents.crontabs c configured
      obtain ⟨found, read, rfl⟩ := shelf.regions
      refine ⟨found, read, (perm_iff_ofSlug (wanted_slugs distinct c .region)).mpr fun slug => ?_⟩
      rw [← (held slug).1, same c configured]
    · obtain ⟨regions, members, shelf, held⟩ := represents.crontabs c configured
      obtain ⟨found, read, rfl⟩ := shelf.members
      refine ⟨found, read, (perm_iff_ofSlug (wanted_slugs distinct c .member)).mpr fun slug => ?_⟩
      rw [← (held slug).2, same c configured]

theorem placement_crontab {artefact : DesiredArtefact} {c : CrontabName} {form : Form}
    (placed : placement layout artefact = some (.entry c form)) : c ∈ layout.configuredCrontabs := by
  unfold placement at placed
  split at placed
  · obtain ⟨_, _, same⟩ := Option.map_eq_some_iff.mp placed
    cases same
  · obtain ⟨c', found, same⟩ := Option.map_eq_some_iff.mp placed
    cases same
    exact CronLayout.crontabFor_configured found

theorem placement_file {artefact : DesiredArtefact} {d : DirectoryName}
    (placed : placement layout artefact = some (.file d)) :
    artefact.deployment.strategy.writesAFilePerTask = true ∧ d ∈ layout.configuredDirectories := by
  unfold placement at placed
  split at placed
  · obtain ⟨d', found, same⟩ := Option.map_eq_some_iff.mp placed
    cases same
    exact ⟨‹_›, CronLayout.directoryFor_configured found⟩
  · obtain ⟨_, _, same⟩ := Option.map_eq_some_iff.mp placed
    cases same

theorem same_slug (distinct : (desired.map DesiredArtefact.slug).Nodup) {first second : DesiredArtefact}
    (inFirst : first ∈ desired) (inSecond : second ∈ desired) (same : first.slug = second.slug) :
    first = second :=
  List.inj_on_of_nodup_map distinct inFirst inSecond same

/-- No desired artefact is retired by an exact outcome. -/
theorem ExactlyOnce.kept (exact_ : ExactlyOnce layout final desired)
    (safe : ∀ artefact ∈ desired, artefact.Safe)
    (distinct : (desired.map DesiredArtefact.slug).Nodup)
    (placed : ∀ artefact ∈ desired, ∃ place, placement layout artefact = some place)
    (rendered : ∀ artefact ∈ desired, ∃ text, renderArtefact artefact = .ok text)
    (represents : Represents layout final estate) (left : Outcome layout host desired estate)
    {artefact : DesiredArtefact} (member : artefact ∈ desired) :
    ¬ Retired layout host (desired.map DesiredArtefact.slug) artefact.slug := by
  intro retired
  obtain ⟨place, placed_⟩ := placed artefact member
  obtain ⟨text, rendered_⟩ := rendered artefact member
  cases place with
  | entry c form =>
      have configured := placement_crontab placed_
      have held := (entries_exact_iff distinct represents).mp ⟨exact_.regions, exact_.members⟩ c
        configured form artefact.slug
      rw [left.retiredEntries c configured form _ retired,
        wanted_here distinct member placed_ rendered_] at held
      cases held
  | file d =>
      obtain ⟨file, configured⟩ := placement_file placed_
      have same := exact_.texts artefact member d placed_
      have managed := (renderFile_managed (safe artefact member) file same).2
      rw [← represents.files, (left.retiredFiles d configured _ retired).1] at managed
      cases managed

theorem ExactlyOnce.undisturbed (exact_ : ExactlyOnce layout final desired)
    (safe : ∀ artefact ∈ desired, artefact.Safe)
    (distinct : (desired.map DesiredArtefact.slug).Nodup)
    (placed : ∀ artefact ∈ desired, ∃ place, placement layout artefact = some place)
    (rendered : ∀ artefact ∈ desired, ∃ text, renderArtefact artefact = .ok text)
    (represents : Represents layout final estate) (left : Outcome layout host desired estate) :
    Undisturbed layout host desired := by
  have kept {artefact : DesiredArtefact} (member : artefact ∈ desired) :=
    exact_.kept safe distinct placed rendered represents left member
  have same := (entries_exact_iff distinct represents).mp ⟨exact_.regions, exact_.members⟩
  -- the slot of a desired slug held at most the copy that was written over
  have slot (c : CrontabName) (configured : c ∈ layout.configuredCrontabs) (form : Form)
      (artefact : DesiredArtefact) (member : artefact ∈ desired) :
      ((Estate.of host).entries c form artefact.slug).length ≤
        if placement layout artefact = some (.entry c form) then 1 else 0 := by
    obtain ⟨text, rendered_⟩ := rendered artefact member
    have here := left.desiredEntries c configured form artefact member text rendered_ (kept member)
    rw [same c configured form artefact.slug] at here
    split at here
    · rename_i placed_
      rw [wanted_here distinct member placed_ rendered_] at here
      have tail := (List.cons.inj here).2
      rw [if_pos placed_]
      have length := congrArg List.length tail
      simp only [List.length_nil, List.length_tail] at length
      omega
    · rename_i elsewhere
      rw [wanted_none fun other inDesired named => by
        rw [same_slug distinct inDesired member named]
        exact elsewhere] at here
      rw [if_neg elsewhere, ← here]
      rfl
  refine ⟨?_, ?_, ?_, ?_⟩
  · intro c configured found read artefact member
    have bound := slot c configured .region artefact member
    simpa only [Estate.of, read] using bound
  · intro c configured found read artefact member
    have bound := slot c configured .member artefact member
    simpa only [Estate.of, read] using bound
  · intro d configured name absent region rest read
    have foreign : region.slug ∉ desired.map DesiredArtefact.slug := by
      intro inSlugs
      obtain ⟨artefact, member, named⟩ := List.mem_map.mp inSlugs
      exact kept member (Or.inr ⟨d, configured, name, absent, region, rest, read, named.symm⟩)
    refine ⟨foreign, ?_⟩
    by_contra unretired
    obtain ⟨found, readFinal, only⟩ := exact_.files d configured name
    rw [← represents.files, left.otherFiles d configured name absent fun both => unretired both.1, read] at readFinal
    obtain rfl := Except.ok.inj readFinal
    obtain ⟨artefact, member, _, named⟩ := only.mp (by simp)
    exact absent (List.mem_map.mpr ⟨artefact, member, named⟩)
  · intro d configured artefact member elsewhere
    obtain ⟨text, rendered_⟩ := rendered artefact member
    obtain ⟨found, readFinal, only⟩ := exact_.files d configured artefact.slug
    rw [← represents.files, left.desiredFiles d configured artefact member text rendered_
      (kept member), if_neg elsewhere] at readFinal
    cases found with
    | nil => exact readFinal
    | cons region rest =>
        obtain ⟨other, inDesired, placed_, named⟩ := only.mp (by simp)
        rw [same_slug distinct inDesired member named] at placed_
        exact absurd placed_ elsewhere

theorem Undisturbed.exact {removals : List PlanEntry} (undisturbed : Undisturbed layout host desired)
    (safe : ∀ artefact ∈ desired, artefact.Safe)
    (distinct : (desired.map DesiredArtefact.slug).Nodup)
    (rendered : ∀ artefact ∈ desired, ∃ text, renderArtefact artefact = .ok text)
    (removed : RemovalsFor layout host (desired.map DesiredArtefact.slug) removals)
    (represents : Represents layout final estate) (left : Outcome layout host desired estate) :
    ExactlyOnce layout final desired := by
  have kept {artefact : DesiredArtefact} (member : artefact ∈ desired) :
      ¬ Retired layout host (desired.map DesiredArtefact.slug) artefact.slug := by
    rintro (⟨c, _, _, _, foreign, _⟩ | ⟨d, configured, name, absent, region, rest, read, named⟩)
    · exact foreign (List.mem_map_of_mem member)
    · exact (undisturbed.strangers d configured name absent region rest read).1
        (named ▸ List.mem_map_of_mem member)
  have entries : ∀ c ∈ layout.configuredCrontabs, ∀ form slug,
      estate.entries c form slug = ofSlug slug (wantedEntries layout desired c form) := by
    intro c configured form slug
    by_cases wanted : slug ∈ desired.map DesiredArtefact.slug
    · obtain ⟨artefact, member, rfl⟩ := List.mem_map.mp wanted
      obtain ⟨text, rendered_⟩ := rendered artefact member
      have bound : ((Estate.of host).entries c form artefact.slug).length ≤
          if placement layout artefact = some (.entry c form) then 1 else 0 := by
        obtain ⟨held, managed⟩ := removed.crontabs c configured
        obtain ⟨regions, members, foundRegions, foundMembers, _⟩ := managedEntries_ok managed
        cases form with
        | region =>
            simpa only [Estate.of, foundRegions] using
              undisturbed.regions c configured regions foundRegions artefact member
        | member =>
            simpa only [Estate.of, foundMembers] using
              undisturbed.members c configured members foundMembers artefact member
      rw [left.desiredEntries c configured form artefact member text rendered_ (kept member)]
      split at bound
      · rename_i placed_
        rw [if_pos placed_, wanted_here distinct member placed_ rendered_]
        congr 1
        refine List.length_eq_zero_iff.mp ?_
        rw [List.length_tail]
        omega
      · rename_i elsewhere
        rw [if_neg elsewhere, List.length_eq_zero_iff.mp (Nat.le_zero.mp bound), wanted_none]
        intro other inDesired named
        rw [same_slug distinct inDesired member named]
        exact elsewhere
    · rw [left.otherEntries c configured form slug wanted, wanted_none]
      intro artefact member named
      exact absurd (List.mem_map.mpr ⟨artefact, member, named⟩) wanted
  obtain ⟨regions, members⟩ := (entries_exact_iff distinct represents).mpr entries
  refine ⟨regions, members, fun d configured name => ?_, fun artefact member d placed_ => ?_⟩
  · rw [← represents.files]
    by_cases wanted : name ∈ desired.map DesiredArtefact.slug
    · obtain ⟨artefact, member, rfl⟩ := List.mem_map.mp wanted
      obtain ⟨text, rendered_⟩ := rendered artefact member
      rw [left.desiredFiles d configured artefact member text rendered_ (kept member)]
      by_cases placed_ : placement layout artefact = some (.file d)
      · rw [if_pos placed_]
        have managed := (renderFile_managed (safe artefact member) (placement_file placed_).1
          rendered_).2
        unfold isManaged at managed
        split at managed
        · rename_i region rest read
          exact ⟨region :: rest, read, fun _ => ⟨artefact, member, placed_, rfl⟩, by simp⟩
        · cases managed
      · rw [if_neg placed_]
        refine ⟨[], undisturbed.namesakes d configured artefact member placed_, by simp, ?_⟩
        rintro ⟨other, inDesired, placed_', named⟩
        rw [same_slug distinct inDesired member named] at placed_'
        exact absurd placed_' placed_
    · have nobody : ¬ ∃ artefact ∈ desired,
          placement layout artefact = some (.file d) ∧ artefact.slug = name :=
        fun ⟨artefact, member, _, named⟩ => wanted (List.mem_map.mpr ⟨artefact, member, named⟩)
      obtain ⟨found, read⟩ := removed.files d configured name wanted
      cases found with
      | nil =>
          have unmanaged : isManaged (host.readFile d name) = false := by rw [isManaged, read]
          rw [left.otherFiles d configured name wanted fun both => by simp [unmanaged] at both]
          exact ⟨[], read, by simp, fun held => absurd held nobody⟩
      | cons region rest =>
          have retired := (undisturbed.strangers d configured name wanted region rest read).2
          rw [(left.retiredFiles d configured name retired).2 wanted (by rw [isManaged, read])]
          exact ⟨[], rfl, by simp, fun held => absurd held nobody⟩
  · obtain ⟨text, rendered_⟩ := rendered artefact member
    rw [← represents.files, left.desiredFiles d (placement_file placed_).2 artefact member text
      rendered_ (kept member), if_pos placed_]
    exact rendered_

end Exactness

/-! ## One host -/

/-- Stores that never fail. -/
def quietStores : Faults := fun _ => none

theorem separate_empty : Separate [] := by
  intro regions start stop _ bounds
  cases bounds

/-- The host after the nightly backup was deployed in a region of its own. -/
def regionHost : Host := bareHost.writeCrontab .user nightlyRegion

/-- How many regions and how many members a host's user crontab shows after a
deployment that succeeded. -/
def deployedCounts (host : Host) (desired : List DesiredArtefact) : Option (Nat × Nat) :=
  match plan userLayout host desired with
  | .error _ => none
  | .ok deployment =>
      match apply quietStores userLayout deployment (.start host) with
      | .error _ _ => none
      | .ok result session =>
          match findManagedRegions (session.host.readCrontab .user),
            findBlockMembers (session.host.readCrontab .user) with
          | .ok regions, .ok members =>
              if result.succeeded then some (regions.length, members.length) else none
          | _, _ => none

end TaskControl.Cron
