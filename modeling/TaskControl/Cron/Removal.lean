import TaskControl.Cron.Ambiguity

/-!
# Removing by identity

`remove` selects what to remove by task id, and `apply` then removes by slug: every
entry of a selected slug in every crontab, and every managed file of that name.
-/

set_option autoImplicit false

namespace TaskControl.Cron

open PythonText Effects

def remove (faults : Faults) (layout : CronLayout) (taskIds : List TaskId) :
    StoreM ApplyResult := do
  let removals ← raising (planRemovals layout (← get).host [])
  apply faults layout (removals.filter fun entry =>
    entry.taskId.text ∈ taskIds.map EntityId.text)

/-! ## Identities and slugs -/

/-- A marker's identifier is one of those to be removed. -/
def carries (taskIds : List TaskId) (marked : Text) : Bool :=
  match EntityId.fromPrimitive .task marked with
  | .ok taskId => taskId ∈ taskIds
  | .error _ => false

theorem carries_iff {taskIds : List TaskId} {marked : Text} :
    carries taskIds marked = true ↔
      ∃ taskId ∈ taskIds, EntityId.fromPrimitive .task marked = .ok taskId := by
  unfold carries
  cases EntityId.fromPrimitive .task marked with
  | error problem => simp
  | ok taskId => simp

/-- The slugs that removals are planned for: those of the entries that carry one of the
identifiers, and of the files whose first region does. -/
def Selected (layout : CronLayout) (host : Host) (taskIds : List TaskId) (slug : Text) : Prop :=
  (∃ c ∈ layout.configuredCrontabs, ∃ entries, managedEntries (host.readCrontab c) = .ok entries ∧
    ∃ entry ∈ entries, entry.slug = slug ∧ carries taskIds entry.taskId = true) ∨
  ∃ d ∈ layout.configuredDirectories, ∃ name region rest,
    findManagedRegions (host.readFile d name) = .ok (region :: rest) ∧ region.slug = slug ∧
      carries taskIds region.taskId = true

/-- Exactly what carries one of the identifiers is gone from the configured stores. -/
structure RemovedById (layout : CronLayout) (host final : Host) (taskIds : List TaskId) :
    Prop where
  regions : ∀ c ∈ layout.configuredCrontabs, ∃ found left,
    findManagedRegions (host.readCrontab c) = .ok found ∧
      findManagedRegions (final.readCrontab c) = .ok left ∧
        (left.map ManagedRegion.entry).Perm
          ((found.map ManagedRegion.entry).filter fun entry => !carries taskIds entry.taskId)
  members : ∀ c ∈ layout.configuredCrontabs, ∃ found left,
    findBlockMembers (host.readCrontab c) = .ok found ∧
      findBlockMembers (final.readCrontab c) = .ok left ∧
        (left.map BlockMember.entry).Perm
          ((found.map BlockMember.entry).filter fun entry => !carries taskIds entry.taskId)
  unmanaged : ∀ c ∈ layout.configuredCrontabs,
    unmanagedLines (final.readCrontab c) = unmanagedLines (host.readCrontab c)
  gone : ∀ d ∈ layout.configuredDirectories, ∀ name regions,
    findManagedRegions (final.readFile d name) = .ok regions →
      ∀ region ∈ regions, carries taskIds region.taskId = false
  kept : ∀ d ∈ layout.configuredDirectories, ∀ name regions,
    findManagedRegions (host.readFile d name) = .ok regions →
      (regions = [] ∨ ∃ region ∈ regions, carries taskIds region.taskId = false) →
        (final.directory d).find name = (host.directory d).find name

/-- On the host a slug stands for an identity: entries of a selected slug carry one of the
identifiers, and so do the regions of exactly the files of a selected name. -/
structure SlugsAgree (layout : CronLayout) (host : Host) (taskIds : List TaskId) : Prop where
  crontabs : ∀ c ∈ layout.configuredCrontabs, ∀ entries,
    managedEntries (host.readCrontab c) = .ok entries → ∀ entry ∈ entries,
      Selected layout host taskIds entry.slug → carries taskIds entry.taskId = true
  files : ∀ d ∈ layout.configuredDirectories, ∀ name regions,
    findManagedRegions (host.readFile d name) = .ok regions → ∀ region ∈ regions,
      (carries taskIds region.taskId = true ↔ Selected layout host taskIds name)

section Removal

variable {layout : CronLayout} {host : Host} {taskIds : List TaskId}

/-! ## What is selected -/

theorem crontabRemovals_named {c : CrontabName} {removals : List PlanEntry}
    (planned : crontabRemovals layout host [] c = .ok removals) (slug : Text) (taskId : TaskId) :
    (∃ removal ∈ removals, removal.slug = slug ∧ removal.taskId = taskId) ↔
      ∃ entries, managedEntries (host.readCrontab c) = .ok entries ∧ ∃ entry ∈ entries,
        entry.slug = slug ∧ EntityId.fromPrimitive .task entry.taskId = .ok taskId := by
  obtain ⟨entries, managed, collected⟩ := except_bind_eq_ok.mp planned
  simp only [mem_of_mapM collected, managed, Except.ok.injEq, exists_eq_left']
  constructor
  · rintro ⟨removal, ⟨entry, listed, made⟩, rfl, rfl⟩
    obtain ⟨taskId, read, returned⟩ := except_bind_eq_ok.mp made
    obtain rfl := Except.ok.inj returned
    exact ⟨entry, (List.mem_filter.mp listed).1, rfl, read⟩
  · rintro ⟨entry, held, rfl, read⟩
    let removal : PlanEntry := ⟨taskId, entry.slug, .remove, crontabText layout c, entry.text, [],
      removalDetail, none⟩
    refine ⟨removal, ⟨entry, List.mem_filter.mpr ⟨held, by simp⟩, ?_⟩, rfl, rfl⟩
    rw [read]
    rfl

theorem fileRemoval_named {d : DirectoryName} {name : Text} {removals : List PlanEntry}
    (planned : fileRemoval layout host d name = .ok removals) (slug : Text) (taskId : TaskId) :
    (∃ removal ∈ removals, removal.slug = slug ∧ removal.taskId = taskId) ↔
      ∃ region rest, findManagedRegions (host.readFile d name) = .ok (region :: rest) ∧
        region.slug = slug ∧ EntityId.fromPrimitive .task region.taskId = .ok taskId := by
  obtain ⟨content, read, scanned⟩ := except_bind_eq_ok.mp planned
  obtain ⟨regions, found, made⟩ := except_bind_eq_ok.mp scanned
  obtain rfl : content = host.readFile d name := by
    unfold Host.readNamed at read
    split at read
    · exact (Except.ok.inj read).symm
    · cases read
  rw [found]
  cases regions with
  | nil =>
      obtain rfl := Except.ok.inj made
      simp
  | cons region rest =>
      obtain ⟨read, parsed, returned⟩ := except_bind_eq_ok.mp made
      obtain rfl := Except.ok.inj returned
      simp [parsed]

theorem directoryRemovals_named {d : DirectoryName} {removals : List PlanEntry}
    (planned : directoryRemovals layout host [] d = .ok removals) (slug : Text) (taskId : TaskId) :
    (∃ removal ∈ removals, removal.slug = slug ∧ removal.taskId = taskId) ↔
      ∃ name region rest, findManagedRegions (host.readFile d name) = .ok (region :: rest) ∧
        region.slug = slug ∧ EntityId.fromPrimitive .task region.taskId = .ok taskId := by
  obtain ⟨lists, collected, rfl⟩ : ∃ lists, ((host.directory d).names.filter
      (· ∉ ([] : List Text))).mapM (fileRemoval layout host d) = .ok lists ∧
        lists.flatten = removals := by
    unfold directoryRemovals at planned
    cases collected : ((host.directory d).names.filter (· ∉ ([] : List Text))).mapM
        (fileRemoval layout host d) with
    | error problem =>
        rw [collected] at planned
        cases planned
    | ok lists =>
        rw [collected] at planned
        exact ⟨lists, rfl, Except.ok.inj planned⟩
  obtain ⟨every, flat⟩ := mapM_flatten collected
  simp only [flat]
  constructor
  · rintro ⟨removal, ⟨name, _, list, made, listed⟩, named, id⟩
    obtain ⟨region, rest, found⟩ := (fileRemoval_named made slug taskId).mp ⟨removal, listed, named, id⟩
    exact ⟨name, region, rest, found⟩
  · rintro ⟨name, region, rest, found, named⟩
    have present : name ∈ (host.directory d).names := by
      by_contra absent
      rw [readFile_absent absent] at found
      cases found
    have listed : name ∈ (host.directory d).names.filter (· ∉ ([] : List Text)) := by simpa using present
    obtain ⟨list, made⟩ := every name listed
    obtain ⟨removal, inList, same⟩ :=
      (fileRemoval_named made slug taskId).mpr ⟨region, rest, found, named⟩
    exact ⟨removal, ⟨name, listed, list, made, inList⟩, same⟩

/-- The removals that `remove` applies are those of the selected slugs. -/
theorem selected_iff {removals : List PlanEntry}
    (planned : planRemovals layout host [] = .ok removals) (slug : Text) :
    slug ∈ (removals.filter fun entry => entry.taskId.text ∈ taskIds.map EntityId.text).map
        PlanEntry.slug ↔ Selected layout host taskIds slug := by
  obtain ⟨fromCrontabs, crontabs, rest⟩ := except_bind_eq_ok.mp planned
  obtain ⟨fromDirectories, directories, returned⟩ := except_bind_eq_ok.mp rest
  obtain rfl := Except.ok.inj returned
  obtain ⟨everyCrontab, flatCrontabs⟩ := mapM_flatten crontabs
  obtain ⟨everyDirectory, flatDirectories⟩ := mapM_flatten directories
  have wanted (removal : PlanEntry) : removal.taskId.text ∈ taskIds.map EntityId.text ↔
      removal.taskId ∈ taskIds := by
    rw [List.mem_map]
    constructor
    · rintro ⟨taskId, member, same⟩
      rwa [← EntityId.text_injective same]
    · intro member
      exact ⟨_, member, rfl⟩
  simp only [List.mem_map, List.mem_filter, decide_eq_true_eq, wanted, List.mem_append,
    flatCrontabs, flatDirectories, Selected, carries_iff]
  constructor
  · rintro ⟨removal, ⟨⟨c, configured, list, made, listed⟩ | ⟨d, configured, list, made, listed⟩,
      member⟩, rfl⟩
    · obtain ⟨entries, managed, entry, held, named, read⟩ :=
        (crontabRemovals_named made removal.slug removal.taskId).mp ⟨removal, listed, rfl, rfl⟩
      exact Or.inl ⟨c, configured, entries, managed, entry, held, named, _, member, read⟩
    · obtain ⟨name, region, rest, found, named, read⟩ :=
        (directoryRemovals_named made removal.slug removal.taskId).mp ⟨removal, listed, rfl, rfl⟩
      exact Or.inr ⟨d, configured, name, region, rest, found, named, _, member, read⟩
  · rintro (⟨c, configured, entries, managed, entry, held, named, taskId, member, read⟩ |
      ⟨d, configured, name, region, rest, found, named, taskId, member, read⟩)
    · obtain ⟨list, made⟩ := everyCrontab c configured
      obtain ⟨removal, listed, rfl, rfl⟩ :=
        (crontabRemovals_named made slug taskId).mpr ⟨entries, managed, entry, held, named, read⟩
      exact ⟨removal, ⟨Or.inl ⟨c, configured, list, made, listed⟩, member⟩, rfl⟩
    · obtain ⟨list, made⟩ := everyDirectory d configured
      obtain ⟨removal, listed, rfl, rfl⟩ :=
        (directoryRemovals_named made slug taskId).mpr ⟨name, region, rest, found, named, read⟩
      exact ⟨removal, ⟨Or.inr ⟨d, configured, list, made, listed⟩, member⟩, rfl⟩

/-! ## What the removals leave -/

/-- The stores between two removals: no unmanaged line has changed, and a file is as it was
or was managed and is gone. -/
structure Thinned (layout : CronLayout) (host final : Host) : Prop where
  crontabs : ∀ c ∈ layout.configuredCrontabs, ∃ regions members,
    Shelf (final.readCrontab c) regions members ∧
      unmanagedLines (final.readCrontab c) = unmanagedLines (host.readCrontab c)
  files : ∀ d name, (final.directory d).find name = (host.directory d).find name ∨
    ((final.directory d).find name = none ∧ isManaged (host.readFile d name) = true)

theorem Thinned.removeFromCrontab {faults : Faults} {session session' : Session} {slug : Text}
    {c : CrontabName} (configured : c ∈ layout.configuredCrontabs)
    (thinned : Thinned layout host session.host)
    (ran : Cron.removeFromCrontab faults layout slug c session = .ok ⟨⟩ session') :
    Thinned layout host session'.host := by
  obtain ⟨regions, members, shelf, plain⟩ := thinned.crontabs c configured
  rcases removeFromCrontab_ok shelf ran with ⟨same, _⟩ | ⟨final, rewritten, shelf', plain', _⟩
  · rwa [same]
  · rw [rewritten]
    refine ⟨fun other configured' => ?_, thinned.files⟩
    rw [readCrontab_writeCrontab _ _ _ shelf'.arranged.carriageFree]
    by_cases here : other = c
    · subst here
      rw [if_pos rfl]
      exact ⟨_, _, shelf', plain'.trans plain⟩
    · rw [if_neg here]
      exact thinned.crontabs other configured'

theorem Thinned.removeFromDirectory {faults : Faults} {session session' : Session} {slug : Text}
    {d : DirectoryName} (thinned : Thinned layout host session.host)
    (ran : Cron.removeFromDirectory faults layout slug d session = .ok ⟨⟩ session') :
    Thinned layout host session'.host := by
  rcases removeFromDirectory_ok ran with ⟨same, _⟩ | ⟨removed, managed⟩
  · rwa [same]
  · rw [removed]
    refine ⟨thinned.crontabs, fun other name => ?_⟩
    rw [Host.removeFile_find]
    by_cases here : other = d ∧ slug = name
    · obtain ⟨rfl, rfl⟩ := here
      rw [if_pos ⟨rfl, rfl⟩]
      rcases thinned.files other slug with same | ⟨_, was⟩
      · rw [Host.readFile, same] at managed
        exact Or.inr ⟨rfl, managed⟩
      · exact Or.inr ⟨rfl, was⟩
    · rw [if_neg here]
      exact thinned.files other name

theorem Thinned.applyRemoval {faults : Faults} {session session' : Session} {entry : PlanEntry}
    (thinned : Thinned layout host session.host)
    (ran : Cron.applyRemoval faults layout entry session = .ok () session') :
    Thinned layout host session'.host := by
  obtain ⟨_, mid, crontabs, directories⟩ := bind_eq_ok.mp ran
  have cleared : Thinned layout host mid.host :=
    @forM_preserves Raised Session CrontabName (fun session => Thinned layout host session.host) _
      layout.configuredCrontabs
      (fun c configured _ _ holds step => holds.removeFromCrontab configured step) _ _ thinned
      crontabs
  exact @forM_preserves Raised Session DirectoryName
    (fun session => Thinned layout host session.host) _ layout.configuredDirectories
    (fun d _ _ _ holds step => holds.removeFromDirectory step) _ _ cleared directories

/-- What is left of a list of entries when the selected slugs are dropped is what carries none
of the identifiers, exactly where the entries of selected slugs all carry one. -/
theorem dropped_perm_iff {selected : Text → Prop} {found left : List ManagedEntry}
    (dropped : ∀ slug, (selected slug → ofSlug slug left = []) ∧
      (¬ selected slug → ofSlug slug left = ofSlug slug found))
    (carried : ∀ entry ∈ found, carries taskIds entry.taskId = true → selected entry.slug) :
    left.Perm (found.filter fun entry => !carries taskIds entry.taskId) ↔
      ∀ entry ∈ found, selected entry.slug → carries taskIds entry.taskId = true := by
  constructor
  · intro perm entry held isSelected
    by_contra other
    have kept : entry ∈ left := perm.mem_iff.mpr (List.mem_filter.mpr ⟨held, by simpa using other⟩)
    have none_ := ofSlug_eq_nil.mp ((dropped entry.slug).1 isSelected) entry kept
    exact none_ rfl
  · intro agree
    refine List.perm_iff_count.mpr fun entry => ?_
    have counted (entries : List ManagedEntry) :
        entries.count entry = (ofSlug entry.slug entries).count entry := by
      rw [ofSlug, List.count_filter (by simp)]
    by_cases isSelected : selected entry.slug
    · rw [counted left, (dropped entry.slug).1 isSelected, List.count_nil, eq_comm,
        List.count_eq_zero]
      intro kept
      obtain ⟨held, other⟩ := List.mem_filter.mp kept
      rw [agree entry held isSelected] at other
      cases other
    · have uncarried : carries taskIds entry.taskId = false ∨ entry ∉ found := by
        by_contra both
        simp only [not_or, Bool.not_eq_false, not_not] at both
        exact isSelected (carried entry both.2 both.1)
      rw [counted left, (dropped entry.slug).2 isSelected, ← counted found]
      rcases uncarried with other | absent
      · rw [List.count_filter (by simp [other])]
      · rw [List.count_eq_zero.mpr absent, eq_comm, List.count_eq_zero]
        intro kept
        exact absent (List.mem_filter.mp kept).1

/-- What is left of one form's entries: those of no selected slug. -/
def Dropped (selected : Text → Prop) (found left : List ManagedEntry) : Prop :=
  ∀ slug, (selected slug → ofSlug slug left = []) ∧
    (¬ selected slug → ofSlug slug left = ofSlug slug found)

/-- What a host holds after a removal that succeeded. -/
structure Leftover (layout : CronLayout) (host final : Host) (selected : Text → Prop) : Prop where
  regions : ∀ c ∈ layout.configuredCrontabs, ∃ found left,
    findManagedRegions (host.readCrontab c) = .ok found ∧
      findManagedRegions (final.readCrontab c) = .ok left ∧
        Dropped selected (found.map ManagedRegion.entry) (left.map ManagedRegion.entry)
  members : ∀ c ∈ layout.configuredCrontabs, ∃ found left,
    findBlockMembers (host.readCrontab c) = .ok found ∧
      findBlockMembers (final.readCrontab c) = .ok left ∧
        Dropped selected (found.map BlockMember.entry) (left.map BlockMember.entry)
  unmanaged : ∀ c ∈ layout.configuredCrontabs,
    unmanagedLines (final.readCrontab c) = unmanagedLines (host.readCrontab c)
  taken : ∀ d ∈ layout.configuredDirectories, ∀ name, selected name →
    isManaged (host.readFile d name) = true → (final.directory d).find name = none
  untouched : ∀ d ∈ layout.configuredDirectories, ∀ name,
    ¬ (selected name ∧ isManaged (host.readFile d name) = true) →
      (final.directory d).find name = (host.directory d).find name

theorem leftover {faults : Faults} {removals : List PlanEntry} {session : Session}
    {result : ApplyResult} {selected : Text → Prop}
    (named : ∀ slug, slug ∈ removals.map PlanEntry.slug ↔ selected slug)
    (remove : ∀ removal ∈ removals, removal.change = .remove)
    (represents : Represents layout host (Estate.of host))
    (ran : apply faults layout removals (.start host) = .ok result session)
    (succeeded : result.succeeded = true) : Leftover layout host session.host selected := by
  have all := applyEntries_succeeded ran succeeded
  have changing : entriesChanging removals = removals :=
    List.filter_eq_self.mpr fun removal member => by
      simp [remove removal member, DeploymentChange.modifiesTheHost]
  rw [changing] at all
  have final : Represents layout session.host
      ((removals.map PlanEntry.slug).foldl (Estate.retire layout) (Estate.of host)) := by
    rw [List.foldl_map]
    refine forM_simulates (fun session => Represents layout session.host) removals ?_ represents all
    intro removal member before after estate represents step
    rw [applyEntry, if_pos (remove removal member)] at step
    exact applyRemoval_simulates represents step
  have start : Thinned layout host host := by
    refine ⟨fun c configured => ?_, fun d name => Or.inl rfl⟩
    obtain ⟨regions, members, shelf, _⟩ := represents.crontabs c configured
    exact ⟨regions, members, shelf, rfl⟩
  have thinned : Thinned layout host session.host := by
    refine @forM_preserves Raised Session PlanEntry (fun session => Thinned layout host session.host)
      _ removals ?_ _ _ start all
    intro removal member before after holds step
    rw [applyEntry, if_pos (remove removal member)] at step
    exact holds.applyRemoval step
  have dropped {found left : List ManagedEntry} {c : CrontabName} {form : Form}
      (configured : c ∈ layout.configuredCrontabs)
      (before : ∀ slug, (Estate.of host).entries c form slug = ofSlug slug found)
      (after : ∀ slug, ((removals.map PlanEntry.slug).foldl (Estate.retire layout)
        (Estate.of host)).entries c form slug = ofSlug slug left) : Dropped selected found left := by
    intro slug
    rw [← after, ← before, retires_entries _ _ configured, ← named]
    exact ⟨fun isSelected => if_pos isSelected, fun other => if_neg other⟩
  have read (d : DirectoryName) (configured : d ∈ layout.configuredDirectories) (name : Text) :
      session.host.readFile d name =
        if name ∈ removals.map PlanEntry.slug ∧ isManaged (host.readFile d name) then []
        else host.readFile d name := by
    rw [← final.files, retires_file _ _ configured]
    rfl
  constructor
  · intro c configured
    obtain ⟨regions, members, shelf, held⟩ := represents.crontabs c configured
    obtain ⟨regions', members', shelf', held'⟩ := final.crontabs c configured
    obtain ⟨found, scanned, rfl⟩ := shelf.regions
    obtain ⟨left, scanned', rfl⟩ := shelf'.regions
    exact ⟨found, left, scanned, scanned', dropped configured (fun slug => (held slug).1)
      fun slug => (held' slug).1⟩
  · intro c configured
    obtain ⟨regions, members, shelf, held⟩ := represents.crontabs c configured
    obtain ⟨regions', members', shelf', held'⟩ := final.crontabs c configured
    obtain ⟨found, scanned, rfl⟩ := shelf.members
    obtain ⟨left, scanned', rfl⟩ := shelf'.members
    exact ⟨found, left, scanned, scanned', dropped configured (fun slug => (held slug).2)
      fun slug => (held' slug).2⟩
  · intro c configured
    obtain ⟨_, _, _, plain⟩ := thinned.crontabs c configured
    exact plain
  · intro d configured name isSelected managed
    rcases thinned.files d name with same | ⟨gone, _⟩
    · have emptied := read d configured name
      rw [if_pos ⟨(named name).mpr isSelected, managed⟩, Host.readFile, same] at emptied
      rw [Host.readFile, emptied] at managed
      cases managed
    · exact gone
  · intro d configured name other
    rcases thinned.files d name with same | ⟨gone, managed⟩
    · exact same
    · have kept := read d configured name
      rw [if_neg fun both => other ⟨(named name).mp both.1, both.2⟩] at kept
      have empty : session.host.readFile d name = [] := by rw [Host.readFile, gone]
      rw [← kept, empty] at managed
      cases managed

/-! ## Removal by identity -/

theorem isManaged_iff {text : Text} {regions : List ManagedRegion}
    (found : findManagedRegions text = .ok regions) : isManaged text = true ↔ regions ≠ [] := by
  unfold isManaged
  rw [found]
  cases regions <;> simp

theorem readFile_congr {final : Host} {d : DirectoryName} {name : Text}
    (same : (final.directory d).find name = (host.directory d).find name) :
    final.readFile d name = host.readFile d name := by
  rw [Host.readFile, Host.readFile, same]

/-- Exactly what carries the identifiers is gone, exactly where slugs stand for them. -/
theorem Leftover.removedById_iff {final : Host}
    (left : Leftover layout host final (Selected layout host taskIds))
    (scanned : ∀ d ∈ layout.configuredDirectories, ∀ name, ∃ regions,
      findManagedRegions (host.readFile d name) = .ok regions) :
    RemovedById layout host final taskIds ↔ SlugsAgree layout host taskIds := by
  have carried {c : CrontabName} {entries : List ManagedEntry}
      (configured : c ∈ layout.configuredCrontabs)
      (managed : managedEntries (host.readCrontab c) = .ok entries) {entry : ManagedEntry}
      (held : entry ∈ entries) (carry : carries taskIds entry.taskId = true) :
      Selected layout host taskIds entry.slug :=
    Or.inl ⟨c, configured, entries, managed, entry, held, rfl, carry⟩
  constructor
  · intro removed
    constructor
    · intro c configured entries managed entry held isSelected
      obtain ⟨regions, members, foundRegions, foundMembers, rfl⟩ := managedEntries_ok managed
      rcases List.mem_append.mp held with inRegions | inMembers
      · obtain ⟨found, rest, read, readLeft, dropped⟩ := left.regions c configured
        obtain ⟨found', rest', read', readLeft', perm⟩ := removed.regions c configured
        obtain rfl := Except.ok.inj (foundRegions.symm.trans read)
        obtain rfl := Except.ok.inj (read.symm.trans read')
        obtain rfl := Except.ok.inj (readLeft.symm.trans readLeft')
        exact (dropped_perm_iff dropped fun entry member =>
          carried configured managed (List.mem_append_left _ member)).mp perm entry inRegions isSelected
      · obtain ⟨found, rest, read, readLeft, dropped⟩ := left.members c configured
        obtain ⟨found', rest', read', readLeft', perm⟩ := removed.members c configured
        obtain rfl := Except.ok.inj (foundMembers.symm.trans read)
        obtain rfl := Except.ok.inj (read.symm.trans read')
        obtain rfl := Except.ok.inj (readLeft.symm.trans readLeft')
        exact (dropped_perm_iff dropped fun entry member =>
          carried configured managed (List.mem_append_right _ member)).mp perm entry inMembers
            isSelected
    · intro d configured name regions found region held
      have managed := (isManaged_iff found).mpr (List.ne_nil_of_mem held)
      constructor
      · intro carry
        by_contra other
        have same := left.untouched d configured name fun both => other both.1
        have gone := removed.gone d configured name regions (by rw [readFile_congr same, found])
          region held
        rw [carry] at gone
        cases gone
      · intro isSelected
        by_contra other
        have taken := left.taken d configured name isSelected managed
        have same := removed.kept d configured name regions found
          (Or.inr ⟨region, held, by simpa using other⟩)
        rw [Host.readFile, ← same, taken] at managed
        cases managed
  · intro agree
    constructor
    · intro c configured
      obtain ⟨found, rest, read, readLeft, dropped⟩ := left.regions c configured
      obtain ⟨members, _, readMembers, _⟩ := left.members c configured
      have managed : managedEntries (host.readCrontab c) =
          .ok (found.map ManagedRegion.entry ++ members.map BlockMember.entry) := by
        rw [managedEntries, read, readMembers]
        rfl
      exact ⟨found, rest, read, readLeft, (dropped_perm_iff dropped fun entry member =>
        carried configured managed (List.mem_append_left _ member)).mpr fun entry member =>
          agree.crontabs c configured _ managed entry (List.mem_append_left _ member)⟩
    · intro c configured
      obtain ⟨found, rest, read, readLeft, dropped⟩ := left.members c configured
      obtain ⟨regions, _, readRegions, _⟩ := left.regions c configured
      have managed : managedEntries (host.readCrontab c) =
          .ok (regions.map ManagedRegion.entry ++ found.map BlockMember.entry) := by
        rw [managedEntries, read, readRegions]
        rfl
      exact ⟨found, rest, read, readLeft, (dropped_perm_iff dropped fun entry member =>
        carried configured managed (List.mem_append_right _ member)).mpr fun entry member =>
          agree.crontabs c configured _ managed entry (List.mem_append_right _ member)⟩
    · exact left.unmanaged
    · intro d configured name regions found region held
      obtain ⟨before, found'⟩ := scanned d configured name
      by_cases taken : Selected layout host taskIds name ∧ isManaged (host.readFile d name) = true
      · have gone := left.taken d configured name taken.1 taken.2
        rw [Host.readFile, gone] at found
        obtain rfl : regions = [] := (Except.ok.inj found).symm
        cases held
      · have same := readFile_congr (left.untouched d configured name taken)
        rw [same, found'] at found
        obtain rfl := Except.ok.inj found
        have managed := (isManaged_iff found').mpr (List.ne_nil_of_mem held)
        have other : ¬ Selected layout host taskIds name := fun both => taken ⟨both, managed⟩
        rw [← agree.files d configured name before found' region held] at other
        simpa using other
    · intro d configured name regions found keeps
      apply left.untouched d configured name
      rintro ⟨isSelected, managed⟩
      rcases keeps with none_ | ⟨region, held, other⟩
      · exact (isManaged_iff found).mp managed none_
      · rw [(agree.files d configured name regions found region held).mpr isSelected] at other
        cases other

end Removal

theorem namesake_bounded : 2 < uuidBound := by decide

/-- Another task under the slug of the nightly backup. -/
def namesake : DesiredArtefact := { nightlyBackup .default with taskId := ⟨2, namesake_bounded⟩ }

def namesakeRegion : Text :=
  joinLines [beginMarker namesake, "# Nightly backup".toList,
    "0 2 * * * taskctl activate nightly-backup".toList, endMarker "nightly-backup".toList]

/-- The nightly backup in the user crontab and its namesake in the system crontab. -/
def namesakeHost : Host :=
  (bareHost.writeCrontab .user nightlyRegion).writeCrontab .system namesakeRegion

/-- Whether removing the nightly backup succeeds, and how many regions are then in the system
crontab. -/
def leftOfNamesake : Option (Bool × Nat) :=
  match remove quietStores bothCrontabs [(nightlyBackup .default).taskId] (.start namesakeHost) with
  | .error _ _ => none
  | .ok result session =>
      match findManagedRegions (session.host.readCrontab .system) with
      | .ok left => some (result.succeeded, left.length)
      | .error _ => none

end TaskControl.Cron
