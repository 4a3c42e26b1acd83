import TaskControl.Cron.Ambiguity
import TaskControl.Domain.Values

/-!
# Applying one desired set after another

On a host that held nothing of TaskControl's, with stores that answer, every
plan can be made and applied, and the host then holds what was desired.  The
invariant is that every entry has the identifier its slug was given, and that
every file is the one the host had or one rendered for the capability it is
named after.
-/

set_option autoImplicit false

namespace TaskControl.Cron

open PythonText Effects

/-! ## Stores that answer -/

section Quiet

variable {session : Session}

theorem returns_storeCall (effect : Host → Host) :
    Returns (storeCall quietStores effect) session
      fun _ session' => session'.host = effect session.host :=
  ⟨(), _, rfl, rfl⟩

theorem returns_raising {α : Type} {step : Except TaskControlError α} {a : α}
    (made : step = .ok a) : Returns (raising step) session
      fun result session' => result = a ∧ session' = session := by
  subst made
  exact ⟨a, session, rfl, rfl, rfl⟩

theorem returns_readCrontab (c : CrontabName) :
    Returns (readCrontab quietStores c) session
      fun text session' => text = session.host.readCrontab c ∧ session'.host = session.host :=
  ⟨_, _, rfl, rfl, rfl⟩

theorem returns_writeCrontab (c : CrontabName) (content : Text) :
    Returns (writeCrontab quietStores c content) session
      fun _ session' => session'.host = session.host.writeCrontab c content :=
  returns_storeCall _

theorem returns_captureCrontab (c : CrontabName) (content : Text) :
    Returns (captureCrontab c content) session
      fun _ session' => session'.host = session.host :=
  ⟨(), _, rfl, captureCrontab_ok rfl⟩

theorem returns_captureFile (d : DirectoryName) (name content : Text) :
    Returns (captureFile d name content) session
      fun _ session' => session'.host = session.host :=
  ⟨(), _, rfl, captureFile_ok rfl⟩

theorem returns_resolve {name : Text} (plain : plainName name = true) :
    Returns (resolve name) session fun _ session' => session' = session := by
  unfold resolve
  rw [if_pos plain]
  exact returns_pure rfl

theorem returns_readFile {d : DirectoryName} {name : Text} (plain : plainName name = true) :
    Returns (readFile quietStores d name) session
      fun text session' => text = session.host.readFile d name ∧ session'.host = session.host := by
  refine (returns_resolve plain).bind fun _ mid same => ?_
  subst same
  exact ⟨_, _, rfl, rfl, rfl⟩

theorem returns_named {name : Text} (plain : plainName name = true) (effect : Host → Host) :
    Returns (do resolve name; storeCall quietStores effect : StoreM Unit) session
      fun _ session' => session'.host = effect session.host := by
  refine (returns_resolve plain).bind fun _ mid same => ?_
  subst same
  exact returns_storeCall effect

end Quiet

/-! ## The catalogue -/

/-- An artefact that can be deployed: its name is a slug, it can be rendered and its target
is configured. -/
structure Deployable (layout : CronLayout) (artefact : DesiredArtefact) : Prop where
  slug : ∃ slug : Slug, artefact.slug = slug.value
  safe : artefact.Safe
  rendered : ∃ text, renderArtefact artefact = .ok text
  placed : ∃ place, placement layout artefact = some place

/-- What may be deployed in the course of a host's life, and what the host held before. -/
structure Catalogue (layout : CronLayout) (initial : Host) (known : DesiredArtefact → Prop) :
    Prop where
  deployable : ∀ artefact, known artefact → Deployable layout artefact
  fixed : ∀ first second, known first → known second →
    (first.slug = second.slug ↔ first.taskId = second.taskId)
  unclaimed : ∀ artefact, known artefact → ∀ d, placement layout artefact = some (.file d) →
    initial.readFile d artefact.slug = []
  ownCrontabs : ∀ c ∈ layout.configuredCrontabs, ∀ line ∈ splitLines (initial.readCrontab c),
    looksLikeMarker line = false
  ownFiles : ∀ d ∈ layout.configuredDirectories, ∀ name, ∀ line ∈ splitLines (initial.readFile d name),
    looksLikeMarker line = false
  plainNames : ∀ d ∈ layout.configuredDirectories, ∀ name ∈ (initial.directory d).names,
    plainName name = true

/-- An entry of a known capability. -/
def Attributed (known : DesiredArtefact → Prop) (entry : ManagedEntry) : Prop :=
  ∃ artefact, known artefact ∧ entry.slug = artefact.slug ∧ entry.taskId = artefact.taskId.text

/-- Every entry is attributed, and every file is the host's own or rendered under its name. -/
structure Consistent (layout : CronLayout) (initial : Host) (known : DesiredArtefact → Prop)
    (host : Host) : Prop where
  crontabs : ∀ c ∈ layout.configuredCrontabs, ∃ regions members,
    Shelf (host.readCrontab c) regions members ∧ (∀ entry ∈ regions, Attributed known entry) ∧
      ∀ entry ∈ members, Attributed known entry
  files : ∀ d ∈ layout.configuredDirectories, ∀ name,
    host.readFile d name = initial.readFile d name ∨ ∃ artefact, known artefact ∧
      artefact.slug = name ∧ placement layout artefact = some (.file d) ∧
        renderArtefact artefact = .ok (host.readFile d name)
  plainNames : ∀ d ∈ layout.configuredDirectories, ∀ name ∈ (host.directory d).names,
    plainName name = true

section Steps

variable {layout : CronLayout} {initial host : Host} {known : DesiredArtefact → Prop}

theorem slugShaped_chars {inWord : Bool} {text : Text} (shaped : slugShaped inWord text = true) :
    '/' ∉ text ∧ '.' ∉ text := by
  induction text generalizing inWord with
  | nil => simp
  | cons c rest ih =>
      rw [slugShaped] at shaped
      split at shaped
      · next word =>
          obtain ⟨noSlash, noDot⟩ := ih shaped
          refine ⟨?_, ?_⟩
          · rintro (_ | ⟨_, later⟩)
            · revert word
              decide
            · exact noSlash later
          · rintro (_ | ⟨_, later⟩)
            · revert word
              decide
            · exact noDot later
      · split at shaped
        · next hyphen =>
            subst hyphen
            have later := ih (Bool.and_eq_true_iff.mp shaped).2
            simpa using later
        · simp only [Bool.and_eq_true, beq_iff_eq, List.isEmpty_iff] at shaped
          obtain ⟨⟨rfl, rfl⟩, _⟩ := shaped
          decide

/-- A slug is a plain file name. -/
theorem plainName_slug (slug : Slug) : plainName slug.value = true := by
  obtain ⟨noSlash, noDot⟩ := slugShaped_chars slug.shaped
  have nonempty : slug.value ≠ [] := by
    intro empty
    have shaped := slug.shaped
    rw [empty] at shaped
    cases shaped
  have dot : slug.value ≠ ['.'] := by
    intro same
    rw [same] at noDot
    simp at noDot
  have dots : slug.value ≠ ['.', '.'] := by
    intro same
    rw [same] at noDot
    simp at noDot
  simp [plainName, nonempty, noSlash, dot, dots]

theorem Catalogue.plain (catalogue : Catalogue layout initial known) {artefact : DesiredArtefact}
    (listed : known artefact) : plainName artefact.slug = true := by
  obtain ⟨slug, named⟩ := (catalogue.deployable artefact listed).slug
  rw [named]
  exact plainName_slug slug

/-- One identifier for each slug, on entries. -/
theorem Catalogue.same_iff (catalogue : Catalogue layout initial known) {first second : ManagedEntry}
    (here : Attributed known first) (there : Attributed known second) :
    first.slug = second.slug ↔ first.taskId = second.taskId := by
  obtain ⟨a, knownA, slugA, idA⟩ := here
  obtain ⟨b, knownB, slugB, idB⟩ := there
  rw [slugA, slugB, idA, idB, catalogue.fixed a b knownA knownB]
  exact ⟨congrArg EntityId.text, EntityId.text_injective⟩

theorem Catalogue.slugs (catalogue : Catalogue layout initial known) {entries : List ManagedEntry}
    (attributed : ∀ entry ∈ entries, Attributed known entry)
    (ids : (entries.map ManagedEntry.taskId).Nodup) : (entries.map ManagedEntry.slug).Nodup := by
  rw [List.Nodup, List.pairwise_map] at ids ⊢
  refine ids.imp_of_mem fun inFirst inSecond differ same => differ ?_
  exact (catalogue.same_iff (attributed _ inFirst) (attributed _ inSecond)).mp same

/-! ## The entries after a write -/

theorem mem_putFirst {new entry : ManagedEntry} {entries : List ManagedEntry}
    (member : entry ∈ putFirst new entries) : entry = new ∨ entry ∈ entries := by
  induction entries with
  | nil => exact Or.inl (List.mem_singleton.mp member)
  | cons first rest ih =>
      rw [putFirst] at member
      split at member
      · rcases List.mem_cons.mp member with same | later
        · exact Or.inl same
        · exact Or.inr (List.mem_cons_of_mem first later)
      · rcases List.mem_cons.mp member with same | later
        · exact Or.inr (same ▸ List.mem_cons_self)
        · exact (ih later).imp_right (List.mem_cons_of_mem first)

theorem mem_putEvery {new entry : ManagedEntry} {entries : List ManagedEntry}
    (member : entry ∈ putEvery new entries) : entry = new ∨ entry ∈ entries := by
  unfold putEvery at member
  split at member
  · obtain ⟨old, inside, same⟩ := List.mem_map.mp member
    split at same
    · exact Or.inl same.symm
    · exact Or.inr (same ▸ inside)
  · rcases List.mem_append.mp member with inside | last
    · exact Or.inr inside
    · exact Or.inl (List.mem_singleton.mp last)

theorem Catalogue.putFirst_ids (catalogue : Catalogue layout initial known) {new : ManagedEntry}
    {entries : List ManagedEntry} (attributed : Attributed known new)
    (others : ∀ entry ∈ entries, Attributed known entry)
    (ids : (entries.map ManagedEntry.taskId).Nodup) :
    ((putFirst new entries).map ManagedEntry.taskId).Nodup := by
  induction entries with
  | nil => simp [putFirst]
  | cons first rest ih =>
      have here := others first List.mem_cons_self
      have later : ∀ entry ∈ rest, Attributed known entry :=
        fun entry member => others entry (List.mem_cons_of_mem first member)
      rw [putFirst]
      split
      · next same =>
          have id := (catalogue.same_iff here attributed).mp same
          rwa [List.map_cons, ← id, ← List.map_cons]
      · next differs =>
          rw [List.map_cons, List.nodup_cons] at ids ⊢
          refine ⟨fun member => ?_, ih later ids.2⟩
          obtain ⟨entry, inside, same⟩ := List.mem_map.mp member
          rcases mem_putFirst inside with rfl | old
          · exact differs ((catalogue.same_iff here attributed).mpr same.symm)
          · exact ids.1 (List.mem_map.mpr ⟨entry, old, same⟩)

theorem Catalogue.putEvery_ids (catalogue : Catalogue layout initial known) {new : ManagedEntry}
    {entries : List ManagedEntry} (attributed : Attributed known new)
    (others : ∀ entry ∈ entries, Attributed known entry)
    (ids : (entries.map ManagedEntry.taskId).Nodup) :
    ((putEvery new entries).map ManagedEntry.taskId).Nodup := by
  unfold putEvery
  split
  · have kept : (entries.map fun entry => if entry.slug = new.slug then new else entry).map
        ManagedEntry.taskId = entries.map ManagedEntry.taskId := by
      rw [List.map_map]
      refine List.map_congr_left fun entry member => ?_
      simp only [Function.comp_apply]
      split
      · next same => exact ((catalogue.same_iff (others entry member) attributed).mp same).symm
      · rfl
    rwa [kept]
  · next absent =>
      rw [List.map_append, List.nodup_append]
      refine ⟨ids, by simp, fun id inside other last => ?_⟩
      obtain ⟨entry, member, rfl⟩ := List.mem_map.mp inside
      obtain rfl : other = new.taskId := by simpa using last
      intro same
      have named := (catalogue.same_iff (others entry member) attributed).mpr same
      exact absent (List.any_eq_true.mpr ⟨entry, member, by simpa using named⟩)

/-! ## Writing -/

/-- A crontab rewritten with attributed entries. -/
theorem Consistent.rewrite (consistent : Consistent layout initial known host) {c : CrontabName}
    {text : Text} {regions members : List ManagedEntry} (shelf : Shelf text regions members)
    (ownRegions : ∀ entry ∈ regions, Attributed known entry)
    (ownMembers : ∀ entry ∈ members, Attributed known entry) :
    Consistent layout initial known (host.writeCrontab c text) := by
  refine ⟨fun other configured => ?_, consistent.files, consistent.plainNames⟩
  rw [readCrontab_writeCrontab host c other shelf.arranged.carriageFree]
  split
  · exact ⟨regions, members, shelf, ownRegions, ownMembers⟩
  · exact consistent.crontabs other configured

theorem new_mem_putFirst (new : ManagedEntry) (entries : List ManagedEntry) :
    new ∈ putFirst new entries := by
  induction entries with
  | nil => exact List.mem_singleton.mpr rfl
  | cons first rest ih =>
      rw [putFirst]
      split
      · exact List.mem_cons_self
      · exact List.mem_cons_of_mem first ih

theorem new_mem_putEvery (new : ManagedEntry) (entries : List ManagedEntry) :
    new ∈ putEvery new entries := by
  unfold putEvery
  split
  · next present =>
      obtain ⟨old, inside, same⟩ := List.any_eq_true.mp present
      exact List.mem_map.mpr ⟨old, inside, if_pos (by simpa using same)⟩
  · exact List.mem_append_right _ List.mem_cons_self

/-- The only entry of its slug. -/
theorem ofSlug_of_mem {entries : List ManagedEntry}
    (slugs : (entries.map ManagedEntry.slug).Nodup) {entry : ManagedEntry} (member : entry ∈ entries) :
    ofSlug entry.slug entries = [entry] := by
  have single := ofSlug_single slugs entry.slug
  have inside : entry ∈ ofSlug entry.slug entries := mem_ofSlug.mpr ⟨member, rfl⟩
  cases shape : ofSlug entry.slug entries with
  | nil =>
      rw [shape] at inside
      cases inside
  | cons first rest =>
      rw [shape] at single inside
      obtain rfl : rest = [] := List.length_eq_zero_iff.mp (by simpa using single)
      rw [List.mem_singleton.mp inside]

/-- The entries that a form's scan shows of a shelf. -/
def Form.pick (regions members : List ManagedEntry) : Form → List ManagedEntry
  | .region => regions
  | .member => members

theorem Shelf.shown {c : CrontabName} {regions members : List ManagedEntry}
    (shelf : Shelf (host.readCrontab c) regions members) (form : Form) (slug : Text) :
    (Estate.of host).entries c form slug = ofSlug slug (form.pick regions members) := by
  cases form with
  | region =>
      obtain ⟨found, read, rfl⟩ := shelf.regions
      simp only [Estate.of, read, Form.pick]
  | member =>
      obtain ⟨found, read, rfl⟩ := shelf.members
      simp only [Estate.of, read, Form.pick]

/-- The crontab after the artefact's entry was put among the others. -/
theorem Consistent.put (catalogue : Catalogue layout initial known)
    (consistent : Consistent layout initial known host) {artefact : DesiredArtefact}
    {c : CrontabName} {text final : Text} {regions members : List ManagedEntry}
    (shelf : Shelf final regions members) (ownRegions : ∀ entry ∈ regions, Attributed known entry)
    (ownMembers : ∀ entry ∈ members, Attributed known entry)
    (inside : artefact.entry text ∈ artefact.form.pick regions members) :
    Consistent layout initial known (host.writeCrontab c final) ∧
      deployedEntry layout artefact c ((host.writeCrontab c final).readCrontab c) = .ok text := by
  refine ⟨consistent.rewrite shelf ownRegions ownMembers, ?_⟩
  have back : (host.writeCrontab c final).readCrontab c = final := by
    rw [readCrontab_writeCrontab host c c shelf.arranged.carriageFree, if_pos rfl]
  have slugs : ((artefact.form.pick regions members).map ManagedEntry.slug).Nodup := by
    cases artefact.form with
    | region => exact catalogue.slugs ownRegions shelf.regionIds
    | member => exact catalogue.slugs ownMembers shelf.memberIds
  have only := ofSlug_of_mem slugs inside
  have read : Shelf ((host.writeCrontab c final).readCrontab c) regions members := by rwa [back]
  have slot : (Estate.of (host.writeCrontab c final)).entries c artefact.form artefact.slug =
      [artefact.entry text] := by
    rw [read.shown]
    exact only
  exact deployedEntry_of_slot slot

/-- A crontab entry written over the first of its slug, in either form. -/
theorem Consistent.writeEntry (catalogue : Catalogue layout initial known)
    (consistent : Consistent layout initial known host) {artefact : DesiredArtefact}
    (listed : known artefact) {c : CrontabName} {text : Text}
    (placed : placement layout artefact = some (.entry c artefact.form))
    (rendered : renderArtefact artefact = .ok text) :
    ∃ final, (if artefact.deployment.strategy = .crontabSingleBlock then
        upsertBlockMember (host.readCrontab c) artefact.slug text
      else replaceRegion (host.readCrontab c) artefact.slug text) = .ok final ∧
      Consistent layout initial known (host.writeCrontab c final) ∧
        deployedEntry layout artefact c ((host.writeCrontab c final).readCrontab c) = .ok text := by
  obtain ⟨regions, members, shelf, ownRegions, ownMembers⟩ :=
    consistent.crontabs c (placement_crontab placed)
  have attributed : Attributed known (artefact.entry text) := ⟨artefact, listed, rfl, rfl⟩
  have safe := (catalogue.deployable artefact listed).safe
  obtain ⟨crontab, _, _⟩ := crontabOf_of_placement placed
  unfold renderArtefact at rendered
  by_cases single : artefact.deployment.strategy = .crontabSingleBlock
  · rw [if_pos single]
    simp only [single] at rendered
    obtain ⟨m, identity, written⟩ := renderBlockMember_written safe rendered
    have slug : m.slug = artefact.slug := by rw [MemberChunk.slug, identity]; rfl
    obtain ⟨final, upserted, arranged⟩ := shelf.upsertBlockMember m written.2
    rw [slug, ← written.1] at upserted
    rw [MemberChunk.entry_written identity written] at arranged
    have whole : Shelf final regions (putEvery (artefact.entry text) members) :=
      ⟨arranged, shelf.regionIds, catalogue.putEvery_ids attributed ownMembers shelf.memberIds⟩
    refine ⟨final, upserted, consistent.put catalogue whole ownRegions (fun entry member => ?_) ?_⟩
    · rcases mem_putEvery member with rfl | old
      · exact attributed
      · exact ownMembers entry old
    · rw [DesiredArtefact.form, if_pos single]
      exact new_mem_putEvery _ members
  · rw [if_neg single]
    have strategy := crontab_form (by simpa using crontab) single
    simp only [strategy] at rendered
    obtain ⟨r, identity, written⟩ := renderCrontabRegion_written safe rendered
    have slug : r.slug = artefact.slug := by rw [RegionChunk.slug, identity]; rfl
    obtain ⟨final, replaced, arranged⟩ := shelf.replaceRegion r written
    rw [slug] at replaced
    rw [RegionChunk.entry_written identity written] at arranged
    have whole : Shelf final (putFirst (artefact.entry text) regions) members :=
      ⟨arranged, catalogue.putFirst_ids attributed ownRegions shelf.regionIds, shelf.memberIds⟩
    refine ⟨final, replaced, consistent.put catalogue whole (fun entry member => ?_) ownMembers ?_⟩
    · rcases mem_putFirst member with rfl | old
      · exact attributed
      · exact ownRegions entry old
    · rw [DesiredArtefact.form, if_neg single]
      exact new_mem_putFirst _ regions

/-- A file written under the name of its capability. -/
theorem Consistent.writeFile (catalogue : Catalogue layout initial known)
    (consistent : Consistent layout initial known host) {artefact : DesiredArtefact}
    (listed : known artefact) {d : DirectoryName} {text : Text} (executable : Bool)
    (placed : placement layout artefact = some (.file d))
    (rendered : renderArtefact artefact = .ok text) :
    Consistent layout initial known (host.writeFile d artefact.slug ⟨text, executable⟩) ∧
      (host.writeFile d artefact.slug ⟨text, executable⟩).readFile d artefact.slug = text := by
  have safe := (catalogue.deployable artefact listed).safe
  have carriageFree := (renderFile_region safe (placement_file placed).1 rendered).1
  have read (other : DirectoryName) (name : Text) :
      (host.writeFile d artefact.slug ⟨text, executable⟩).readFile other name =
        if other = d ∧ artefact.slug = name then text else host.readFile other name := by
    simp only [Host.readFile, Host.writeFile_find]
    by_cases here : other = d ∧ artefact.slug = name
    · simp only [if_pos here, translateNewlines_carriageFree carriageFree]
    · simp only [if_neg here]
  refine ⟨⟨consistent.crontabs, fun other configured name => ?_,
    fun other configured name present => ?_⟩, ?_⟩
  · rw [read]
    split
    · next here =>
        obtain ⟨rfl, rfl⟩ := here
        exact Or.inr ⟨artefact, listed, rfl, placed, rendered⟩
    · exact consistent.files other configured name
  · rw [SortedTable.mem_names, Host.writeFile_find] at present
    split at present
    · next here => exact here.2 ▸ catalogue.plain listed
    · exact consistent.plainNames other configured name (SortedTable.mem_names.mpr present)
  · rw [read, if_pos ⟨rfl, rfl⟩]

/-- A crontab is rewritten, then read back. -/
theorem rewriteCrontab_returns {session : Session} {artefact : DesiredArtefact} {c : CrontabName}
    {text final : Text} {step : Except TaskControlError Text} (made : step = .ok final)
    (kept : Consistent layout initial known (session.host.writeCrontab c final))
    (deployed : deployedEntry layout artefact c
      ((session.host.writeCrontab c final).readCrontab c) = .ok text) :
    Returns (raising step >>= fun text => writeCrontab quietStores c text >>= fun _ =>
      readCrontab quietStores c >>= fun text => raising (deployedEntry layout artefact c text))
        session fun written session' =>
          written = text ∧ Consistent layout initial known session'.host := by
  refine (returns_raising made).bind fun _ _ here => ?_
  obtain ⟨rfl, rfl⟩ := here
  refine (returns_writeCrontab _ _).bind fun _ _ wrote => ?_
  refine (returns_readCrontab _).bind fun back _ read => ?_
  rw [read.1, wrote]
  refine (returns_raising deployed).mono fun written session' here => ?_
  rw [here.2, read.2, wrote]
  exact ⟨here.1, kept⟩

/-- A create or update entry of a known artefact is applied. -/
theorem applyWrite_returns (catalogue : Catalogue layout initial known) {session : Session}
    (consistent : Consistent layout initial known session.host) {entry : PlanEntry}
    {artefact : DesiredArtefact} (listed : known artefact) (carried : entry.artefact = some artefact)
    (rendered : renderArtefact artefact = .ok entry.after) :
    Returns (applyWrite quietStores layout entry) session
      fun _ session' => Consistent layout initial known session'.host := by
  obtain ⟨place, placed⟩ := (catalogue.deployable artefact listed).placed
  have plain := catalogue.plain listed
  have checked {written : Text} {session : Session} {message : String}
      (same : written = entry.after) (kept : Consistent layout initial known session.host) :
      Returns (if strip written ≠ strip entry.after then verificationFailed message
        else pure () : StoreM Unit) session
        fun _ session' => Consistent layout initial known session'.host := by
    rw [if_neg (by simp [same])]
    exact returns_pure kept
  unfold applyWrite
  simp only [carried]
  cases place with
  | file d =>
      obtain ⟨file, found⟩ := directoryOf_of_placement placed
      rw [if_pos file]
      suffices wrote : Returns (writeArtefactFile quietStores layout entry artefact) session
          fun written session' => written = entry.after ∧
            Consistent layout initial known session'.host from
        wrote.bind fun _ _ both => checked both.1 both.2
      unfold writeArtefactFile
      refine (returns_raising found).bind fun _ _ here => ?_
      obtain ⟨rfl, rfl⟩ := here
      refine (returns_readFile plain).bind fun _ _ here => ?_
      refine (returns_captureFile _ _ _).bind fun _ _ captured => ?_
      have host := captured.trans here.2
      refine (returns_named plain _).bind fun _ _ wrote => ?_
      rw [host] at wrote
      obtain ⟨kept, back⟩ := consistent.writeFile catalogue listed
        (artefact.deployment.strategy = .runPartsDirectory) placed rendered
      refine (returns_readFile plain).mono fun text session' read => ?_
      rw [read.2, read.1, wrote]
      exact ⟨back, kept⟩
  | entry c form =>
      obtain ⟨crontab, found, rfl⟩ := crontabOf_of_placement placed
      rw [if_neg crontab]
      suffices wrote : Returns (writeArtefactEntry quietStores layout entry artefact) session
          fun written session' => written = entry.after ∧
            Consistent layout initial known session'.host from
        wrote.bind fun _ _ both => checked both.1 both.2
      unfold writeArtefactEntry
      refine (returns_raising found).bind fun _ _ here => ?_
      obtain ⟨rfl, rfl⟩ := here
      refine (returns_readCrontab _).bind fun original _ here => ?_
      refine (returns_captureCrontab _ _).bind fun _ _ captured => ?_
      have host := captured.trans here.2
      obtain ⟨final, made, kept, deployed⟩ :=
        consistent.writeEntry catalogue listed placed rendered
      rw [here.1]
      rw [← host] at made kept deployed
      dsimp only
      by_cases single : artefact.deployment.strategy = .crontabSingleBlock
      · rw [if_pos single] at made ⊢
        exact rewriteCrontab_returns (host ▸ made) kept deployed
      · rw [if_neg single] at made ⊢
        exact rewriteCrontab_returns (host ▸ made) kept deployed

/-! ## Reading the files -/

theorem unmarked_shelf {text : Text} (carriageFree : '\r' ∉ text)
    (own : ∀ line ∈ splitLines text, looksLikeMarker line = false) : Shelf text [] [] := by
  obtain ⟨chunks, laid, noRegions, noBlocks⟩ := base_chunks own
  refine ⟨⟨chunks, ⟨carriageFree, laid, by simp [noBlocks]⟩, by simp [noRegions], ?_⟩, by simp, by simp⟩
  simp [memberChunks, noBlocks]

theorem readFile_carriageFree (host : Host) (d : DirectoryName) (name : Text) :
    '\r' ∉ host.readFile d name := by
  unfold Host.readFile
  split
  · simp
  · exact carriage_not_mem_translate _

/-- What the scan of a file finds: nothing in the host's own files, and the one region of a
file that was rendered. -/
theorem Consistent.scanFile (catalogue : Catalogue layout initial known)
    (consistent : Consistent layout initial known host) {d : DirectoryName}
    (configured : d ∈ layout.configuredDirectories) (name : Text) :
    (findManagedRegions (host.readFile d name) = .ok [] ∧
        host.readFile d name = initial.readFile d name) ∨
      ∃ artefact region, known artefact ∧ artefact.slug = name ∧
        placement layout artefact = some (.file d) ∧
          findManagedRegions (host.readFile d name) = .ok [region] ∧
            region.slug = artefact.slug ∧ region.taskId = artefact.taskId.text := by
  rcases consistent.files d configured name with same | ⟨artefact, listed, named, placed, rendered⟩
  · refine Or.inl ⟨?_, same⟩
    have shelf := unmarked_shelf (readFile_carriageFree initial d name)
      (catalogue.ownFiles d configured name)
    obtain ⟨found, read, none_⟩ := shelf.regions
    rw [same, read, List.map_eq_nil_iff.mp none_]
  · refine Or.inr ?_
    have safe := (catalogue.deployable artefact listed).safe
    obtain ⟨_, region, found, slug, id⟩ :=
      renderFile_region safe (placement_file placed).1 rendered
    exact ⟨artefact, region, listed, named, placed, found, slug, id⟩

/-! ## Removing -/

theorem dropFirst_gone {slug : Text} {entries : List ManagedEntry}
    (slugs : (entries.map ManagedEntry.slug).Nodup) :
    (dropFirst slug entries).any (·.slug = slug) = false := by
  have gone : ofSlug slug (dropFirst slug entries) = [] := by
    rw [ofSlug_dropFirst, if_pos rfl]
    have single := ofSlug_single slugs slug
    apply List.length_eq_zero_iff.mp
    rw [List.length_tail]
    omega
  simpa using ofSlug_eq_nil.mp gone

theorem removeFromCrontab_returns (catalogue : Catalogue layout initial known) {session : Session}
    (consistent : Consistent layout initial known session.host) (slug : Text) {c : CrontabName}
    (configured : c ∈ layout.configuredCrontabs) :
    Returns (removeFromCrontab quietStores layout slug c) session
      fun _ session' => Consistent layout initial known session'.host := by
  obtain ⟨regions, members, shelf, ownRegions, ownMembers⟩ := consistent.crontabs c configured
  unfold removeFromCrontab
  refine (returns_readCrontab c).bind fun original read₁ here => ?_
  obtain ⟨rfl, host⟩ := here
  refine (returns_raising (heldForms_ok shelf)).bind fun forms _ here => ?_
  obtain ⟨rfl, rfl⟩ := here
  simp only
  split
  · obtain ⟨final, removed, shelf', _⟩ := withoutEntry_ok slug shelf
    have kept : Consistent layout initial known (session.host.writeCrontab c final) :=
      consistent.rewrite shelf'
        (fun entry member => ownRegions entry (List.eraseP_sublist.subset member))
        (fun entry member => ownMembers entry (List.filter_sublist.subset member))
    refine (returns_captureCrontab _ _).bind fun _ _ captured => ?_
    refine (returns_raising removed).bind fun updated _ here => ?_
    obtain ⟨same, rfl⟩ := here
    rw [same]
    refine (returns_writeCrontab _ _).bind fun _ _ wrote => ?_
    rw [captured, host] at wrote
    refine (returns_readCrontab c).bind fun back _ here => ?_
    obtain ⟨rfl, backHost⟩ := here
    have gone : stillHeld slug ((session.host.writeCrontab c final).readCrontab c) = .ok false := by
      rw [readCrontab_writeCrontab _ _ _ shelf'.arranged.carriageFree, if_pos rfl,
        stillHeld_ok shelf', dropFirst_gone (catalogue.slugs ownRegions shelf.regionIds)]
      simp [dropEvery]
    rw [← wrote] at gone
    refine (returns_raising gone).bind fun still _ here => ?_
    obtain ⟨rfl, rfl⟩ := here
    rw [if_neg (by simp)]
    refine returns_pure ?_
    rw [backHost, wrote]
    exact kept
  · refine returns_pure ?_
    rw [host]
    exact consistent

theorem removeFromDirectory_returns (catalogue : Catalogue layout initial known) {session : Session}
    (consistent : Consistent layout initial known session.host) {slug : Text}
    (plain : plainName slug = true) {d : DirectoryName}
    (configured : d ∈ layout.configuredDirectories) :
    Returns (removeFromDirectory quietStores layout slug d) session
      fun _ session' => Consistent layout initial known session'.host := by
  have same {session' : Session} (host : session'.host = session.host) :
      Consistent layout initial known session'.host := by
    rw [host]
    exact consistent
  unfold removeFromDirectory
  refine (returns_readFile plain).bind fun content _ here => ?_
  obtain ⟨rfl, host⟩ := here
  split
  · rcases consistent.scanFile catalogue configured slug with ⟨none_, _⟩ |
      ⟨artefact, region, listed, named, placed, found, _⟩
    · refine (returns_raising none_).bind fun _ _ here => ?_
      obtain ⟨rfl, rfl⟩ := here
      rw [if_neg (by simp)]
      exact returns_pure (same host)
    · refine (returns_raising found).bind fun _ _ here => ?_
      obtain ⟨rfl, rfl⟩ := here
      rw [if_pos (by simp)]
      refine (returns_captureFile _ _ _).bind fun _ _ captured => ?_
      refine (returns_named plain _).bind fun _ _ removed => ?_
      rw [captured, host] at removed
      refine (returns_readFile plain).bind fun back _ here => ?_
      obtain ⟨rfl, backHost⟩ := here
      have read (other : DirectoryName) (name : Text) :
          (session.host.removeFile d slug).readFile other name =
            if other = d ∧ slug = name then [] else session.host.readFile other name := by
        simp only [Host.readFile, Host.removeFile_find]
        by_cases here : other = d ∧ slug = name
        · simp only [if_pos here]
        · simp only [if_neg here]
      have gone : (session.host.removeFile d slug).readFile d slug = [] := by
        rw [read, if_pos ⟨rfl, rfl⟩]
      rw [removed, gone, if_neg (by simp)]
      refine returns_pure ?_
      rw [backHost, removed]
      refine ⟨consistent.crontabs, fun other configured' name => ?_,
        fun other configured' name present => ?_⟩
      · rw [read]
        split
        · next here =>
            -- a rendered file stands where the host had none
            obtain ⟨rfl, rfl⟩ := here
            rw [← named, catalogue.unclaimed artefact listed _ placed]
            exact Or.inl rfl
        · exact consistent.files other configured' name
      · rw [SortedTable.mem_names, Host.removeFile_find] at present
        split at present
        · simp at present
        · exact consistent.plainNames other configured' name (SortedTable.mem_names.mpr present)
  · exact returns_pure (same host)

theorem applyRemoval_returns (catalogue : Catalogue layout initial known) {session : Session}
    (consistent : Consistent layout initial known session.host) {entry : PlanEntry}
    (plain : plainName entry.slug = true) :
    Returns (applyRemoval quietStores layout entry) session
      fun _ session' => Consistent layout initial known session'.host := by
  have crontabs := returns_forM
    (fun session : Session => Consistent layout initial known session.host)
    consistent fun c configured _ holds =>
      removeFromCrontab_returns catalogue holds entry.slug configured
  refine crontabs.bind fun _ _ holds => ?_
  exact returns_forM (fun session : Session => Consistent layout initial known session.host) holds
    fun d configured _ holds => removeFromDirectory_returns catalogue holds plain configured

/-! ## Planning and applying -/

variable {desired : List DesiredArtefact}

theorem Attributed.taskId {entry : ManagedEntry} (attributed : Attributed known entry) :
    IsTaskId entry.taskId := by
  obtain ⟨artefact, _, _, id⟩ := attributed
  exact ⟨artefact.taskId, by rw [id]; exact EntityId.fromPrimitive_text artefact.taskId⟩

/-- Every desired set of known artefacts can be planned. -/
theorem Consistent.clear (catalogue : Catalogue layout initial known)
    (consistent : Consistent layout initial known host)
    (listed : ∀ artefact ∈ desired, known artefact) : Clear layout host desired := by
  refine ⟨fun c configured => ?_, fun c configured held managed entry member _ => ?_,
    fun d configured name present _ => ⟨consistent.plainNames d configured name present, ?_⟩,
    fun artefact member => ⟨(catalogue.deployable artefact (listed artefact member)).rendered, ?_⟩⟩
  · obtain ⟨regions, members, shelf, _⟩ := consistent.crontabs c configured
    obtain ⟨foundRegions, readRegions, _⟩ := shelf.regions
    obtain ⟨foundMembers, readMembers, _⟩ := shelf.members
    exact ⟨foundRegions, foundMembers, readRegions, readMembers⟩
  · obtain ⟨regions, members, shelf, ownRegions, ownMembers⟩ := consistent.crontabs c configured
    obtain ⟨foundRegions, foundMembers, readRegions, readMembers, rfl⟩ := managedEntries_ok managed
    rw [(shelf.arranged.regions_iff.1 _ readRegions).1,
      (shelf.arranged.members_iff.1 _ readMembers).1] at member
    rcases List.mem_append.mp member with inRegions | inMembers
    · exact (ownRegions entry inRegions).taskId
    · exact (ownMembers entry inMembers).taskId
  · rcases consistent.scanFile catalogue configured name with ⟨none_, _⟩ |
      ⟨artefact, region, _, _, _, found, _, id⟩
    · exact ⟨[], none_, by simp⟩
    · refine ⟨[region], found, fun first here => ?_⟩
      obtain rfl : region = first := by simpa using here
      exact ⟨artefact.taskId, by rw [id]; exact EntityId.fromPrimitive_text artefact.taskId⟩
  · have known_ := listed artefact member
    obtain ⟨place, placed⟩ := (catalogue.deployable artefact known_).placed
    refine ⟨place, placed, ?_⟩
    cases place with
    | entry c form =>
        obtain ⟨regions, members, shelf, ownRegions, ownMembers⟩ :=
          consistent.crontabs c (placement_crontab placed)
        intro entry first
        rw [shelf.shown] at first
        obtain ⟨inside, named⟩ := mem_ofSlug.mp (List.mem_of_mem_head? first)
        have attributed : Attributed known entry := by
          cases form with
          | region => exact ownRegions entry inside
          | member => exact ownMembers entry inside
        have own : Attributed known (artefact.entry []) := ⟨artefact, known_, rfl, rfl⟩
        exact (catalogue.same_iff attributed own).mp named
    | file d =>
        refine ⟨catalogue.plain known_, ?_⟩
        rcases consistent.scanFile catalogue (placement_file placed).2 artefact.slug with
          ⟨_, same⟩ | ⟨other, region, listed', named, _, found, _, id⟩
        · exact Or.inl (same.trans (catalogue.unclaimed artefact known_ d placed))
        · refine Or.inr ⟨region, [], found, ?_⟩
          rw [id, (catalogue.fixed other artefact listed' known_).mp named]

/-- The slugs for which removals are planned are those of known artefacts. -/
theorem Consistent.retired_plain (catalogue : Catalogue layout initial known)
    (consistent : Consistent layout initial known host) {slugs : List Text} {slug : Text}
    (retired : Retired layout host slugs slug) : plainName slug = true ∧ slug ∉ slugs := by
  rcases retired with ⟨c, configured, held, managed, foreign, entry, member, rfl⟩ |
    ⟨d, configured, name, foreign, region, rest, found, rfl⟩
  · refine ⟨?_, foreign⟩
    obtain ⟨regions, members, shelf, ownRegions, ownMembers⟩ := consistent.crontabs c configured
    obtain ⟨foundRegions, foundMembers, readRegions, readMembers, rfl⟩ := managedEntries_ok managed
    rw [(shelf.arranged.regions_iff.1 _ readRegions).1,
      (shelf.arranged.members_iff.1 _ readMembers).1] at member
    have attributed : Attributed known entry := by
      rcases List.mem_append.mp member with inRegions | inMembers
      · exact ownRegions entry inRegions
      · exact ownMembers entry inMembers
    obtain ⟨artefact, listed, named, _⟩ := attributed
    rw [named]
    exact catalogue.plain listed
  · rcases consistent.scanFile catalogue configured name with ⟨none_, _⟩ |
      ⟨artefact, region', listed, named, _, found', slug, _⟩
    · rw [none_] at found
      cases found
    · rw [found'] at found
      cases found
      rw [slug, named]
      exact ⟨named ▸ catalogue.plain listed, foreign⟩

theorem applyEntries_returns {entries : List PlanEntry} (invariant : Host → Prop)
    {applied : List PlanEntry} {session : Session} (holds : invariant session.host)
    (each : ∀ entry ∈ entries, ∀ session : Session, invariant session.host →
      Returns (applyEntry quietStores layout entry) session
        fun _ session' => invariant session'.host) :
    Returns (applyEntries quietStores layout applied entries) session
      fun result session' => result.succeeded = true ∧ invariant session'.host := by
  induction entries generalizing applied session with
  | nil => exact returns_pure ⟨rfl, holds⟩
  | cons entry rest ih =>
      obtain ⟨_, mid, ran, kept⟩ := each entry List.mem_cons_self session holds
      obtain ⟨result, last, later, succeeded⟩ := @ih (applied ++ [entry]) mid kept
        fun other member => each other (List.mem_cons_of_mem entry member)
      refine ⟨result, last, ?_, succeeded⟩
      unfold applyEntries
      refine bind_eq_ok.mpr ⟨none, mid, handle_eq_ok.mpr (Or.inl ?_), later⟩
      rw [seqRight_eq_bind]
      exact bind_eq_ok.mpr ⟨(), mid, ran, rfl⟩

/-- Every plan for known artefacts is applied. -/
theorem apply_returns (catalogue : Catalogue layout initial known)
    (consistent : Consistent layout initial known host)
    (listed : ∀ artefact ∈ desired, known artefact) {entries removals : List PlanEntry}
    (planned : List.Forall₂ (PlannedFor layout host) desired entries)
    (removed : RemovalsFor layout host (desired.map DesiredArtefact.slug) removals) :
    Returns (apply quietStores layout (entries ++ removals)) (.start host)
      fun result session =>
        result.succeeded = true ∧ Consistent layout initial known session.host := by
  refine applyEntries_returns (Consistent layout initial known) consistent ?_
  intro entry member session holds
  unfold applyEntry
  rcases List.mem_append.mp (List.mem_of_mem_filter member) with inEntries | inRemovals
  · obtain ⟨artefact, inDesired, plannedFor⟩ := mem_of_related planned inEntries
    rw [if_neg plannedFor.writes]
    exact applyWrite_returns catalogue holds (listed artefact inDesired) plannedFor.carried
      plannedFor.rendered
  · rw [if_pos (removed.remove entry inRemovals)]
    have retired := (removed.named entry.slug).mp (List.mem_map_of_mem inRemovals)
    exact applyRemoval_returns catalogue holds (consistent.retired_plain catalogue retired).1

/-! ## What the host holds then -/

theorem Consistent.represents (consistent : Consistent layout initial known host) :
    Represents layout host (Estate.of host) := by
  refine ⟨fun c configured => ?_, fun _ _ => rfl⟩
  obtain ⟨regions, members, shelf, _⟩ := consistent.crontabs c configured
  exact ⟨regions, members, shelf, fun slug => ⟨shelf.shown .region slug, shelf.shown .member slug⟩⟩

theorem Represents.shown {estate : Estate} (represents : Represents layout host estate)
    {c : CrontabName} (configured : c ∈ layout.configuredCrontabs) (form : Form) (slug : Text) :
    (Estate.of host).entries c form slug = estate.entries c form slug := by
  obtain ⟨regions, members, shelf, held⟩ := represents.crontabs c configured
  rw [shelf.shown]
  cases form with
  | region => exact (held slug).1.symm
  | member => exact (held slug).2.symm

/-- After a plan was applied the desired artefacts are deployed and nothing else is left. -/
theorem deployed_after (catalogue : Catalogue layout initial known)
    (consistent : Consistent layout initial known host)
    (listed : ∀ artefact ∈ desired, known artefact)
    {final : Host} {estate : Estate} (represents : Represents layout final estate)
    (left : Outcome layout host desired estate) : Deployed layout final desired ∧ NothingForeign layout final desired := by
  have kept {artefact : DesiredArtefact} (member : artefact ∈ desired) :
      ¬ Retired layout host (desired.map DesiredArtefact.slug) artefact.slug := fun retired =>
    (consistent.retired_plain catalogue retired).2 (List.mem_map_of_mem member)
  refine ⟨fun artefact member => ?_, fun c configured held managed entry inHeld => ?_,
    fun d configured name foreign => ?_⟩
  · obtain ⟨text, rendered⟩ := (catalogue.deployable artefact (listed artefact member)).rendered
    obtain ⟨place, placed⟩ := (catalogue.deployable artefact (listed artefact member)).placed
    refine ⟨place, text, placed, rendered, ?_⟩
    cases place with
    | entry c form =>
        have configured := placement_crontab placed
        refine ⟨((Estate.of host).entries c form artefact.slug).tail, ?_⟩
        rw [represents.shown configured,
          left.desiredEntries c configured form artefact member text rendered (kept member),
          if_pos placed]
    | file d =>
        obtain ⟨file, configured⟩ := placement_file placed
        have safe := (catalogue.deployable artefact (listed artefact member)).safe
        obtain ⟨_, region, found, _, id⟩ := renderFile_region safe file rendered
        refine ⟨?_, region, [], found, id⟩
        rw [← represents.files, left.desiredFiles d configured artefact member text rendered
          (kept member), if_pos placed]
  · by_contra foreign
    obtain ⟨regions, members, shelf, _⟩ := represents.crontabs c configured
    obtain ⟨foundRegions, foundMembers, readRegions, readMembers, rfl⟩ := managedEntries_ok managed
    rw [(shelf.arranged.regions_iff.1 _ readRegions).1,
      (shelf.arranged.members_iff.1 _ readMembers).1] at inHeld
    have nothing (form : Form) : ofSlug entry.slug (form.pick regions members) = [] := by
      rw [← shelf.shown, represents.shown configured]
      exact left.otherEntries c configured form entry.slug foreign
    rcases List.mem_append.mp inHeld with inRegions | inMembers
    · exact ofSlug_eq_nil.mp (nothing .region) entry inRegions rfl
    · exact ofSlug_eq_nil.mp (nothing .member) entry inMembers rfl
  · rw [← represents.files]
    rcases consistent.scanFile catalogue configured name with ⟨none_, _⟩ |
      ⟨artefact, region, _, named, _, found, slug, _⟩
    · have unmanaged : isManaged (host.readFile d name) = false := by rw [isManaged, none_]
      rw [left.otherFiles d configured name foreign fun both => by simp [unmanaged] at both]
      exact none_
    · have retired : Retired layout host (desired.map DesiredArtefact.slug) name :=
        Or.inr ⟨d, configured, name, foreign, region, [], found, slug.trans named⟩
      rw [(left.retiredFiles d configured name retired).2 foreign (by rw [isManaged, found])]
      rfl

end Steps

/-! ## A host that has converged -/

section Converging

variable {layout : CronLayout} {host : Host} {desired : List DesiredArtefact}

/-- The host needs no change for the desired artefacts, and says so. -/
structure Converged (layout : CronLayout) (host : Host) (desired : List DesiredArtefact) :
    Prop where
  unchanged : ∃ deployment, plan layout host desired = .ok deployment ∧
    (∀ entry ∈ deployment, entry.change = .unchanged) ∧
      ∀ faults, ∃ session, apply faults layout deployment (.start host) = .ok ⟨[], false, ""⟩ session ∧
        session.host = host
  matching : ∃ report, verify layout host desired = .ok report ∧ report.matching = true

theorem planOne_unchanged {artefact : DesiredArtefact} {text : Text} {entry : PlanEntry}
    (rendered : renderArtefact artefact = .ok text)
    (current : currentContent layout host artefact = .ok text)
    (planned : planOne layout host artefact = .ok entry) : entry.change = .unchanged := by
  obtain ⟨after, made, planned⟩ := except_bind_eq_ok.mp planned
  obtain rfl := Except.ok.inj (rendered.symm.trans made)
  obtain ⟨before, read, planned⟩ := except_bind_eq_ok.mp planned
  obtain rfl := Except.ok.inj (current.symm.trans read)
  obtain ⟨target, _, planned⟩ := except_bind_eq_ok.mp planned
  rw [if_neg (render_ne_nil rendered), if_pos rfl] at planned
  rw [← Except.ok.inj planned]

theorem verifyOne_quiet {artefact : DesiredArtefact} {text : Text}
    (rendered : renderArtefact artefact = .ok text)
    (current : currentContent layout host artefact = .ok text) :
    verifyOne layout host artefact = .ok [] := by
  unfold verifyOne
  rw [rendered, current]
  simp only [bind, Except.bind, if_neg (render_ne_nil rendered), ne_eq, not_true_eq_false, if_false,
    pure, Except.pure]

theorem findUnexpected_quiet (clear : Clear layout host desired)
    (foreign : NothingForeign layout host desired) :
    findUnexpected layout host (desired.map DesiredArtefact.slug) = .ok [] := by
  have crontabs : ∀ c ∈ layout.configuredCrontabs,
      crontabUnexpected layout host (desired.map DesiredArtefact.slug) c = .ok [] := by
    intro c configured
    obtain ⟨regions, members, foundRegions, foundMembers⟩ := clear.scanned c configured
    have managed : managedEntries (host.readCrontab c) =
        .ok (regions.map ManagedRegion.entry ++ members.map BlockMember.entry) := by
      unfold managedEntries
      rw [foundRegions, foundMembers]
      rfl
    have none_ : (regions.map ManagedRegion.entry ++ members.map BlockMember.entry).filter
        (·.slug ∉ desired.map DesiredArtefact.slug) = [] := by
      rw [List.filter_eq_nil_iff]
      intro entry member
      simpa using foreign.entries c configured _ managed entry member
    unfold crontabUnexpected
    rw [managed]
    simp only [bind, Except.bind]
    rw [none_]
    rfl
  have directories : ∀ d ∈ layout.configuredDirectories,
      directoryUnexpected layout host (desired.map DesiredArtefact.slug) d = .ok [] := by
    intro d configured
    have quiet : ∀ name ∈ (host.directory d).names.filter (· ∉ desired.map DesiredArtefact.slug),
        fileUnexpected layout host d name = .ok [] := by
      intro name member
      obtain ⟨present, undesired⟩ := List.mem_filter.mp member
      have absent : name ∉ desired.map DesiredArtefact.slug := by simpa using undesired
      obtain ⟨plain, _⟩ := clear.files d configured name present absent
      unfold fileUnexpected Host.readNamed
      rw [if_pos plain]
      simp only [bind, Except.bind, foreign.files d configured name absent]
      rfl
    obtain ⟨lists, collected⟩ := mapM_isOk_iff.mpr fun name member => ⟨[], quiet name member⟩
    unfold directoryUnexpected
    rw [collected]
    exact congrArg Except.ok ((flatten_eq_nil_iff collected).mpr quiet)
  obtain ⟨fromCrontabs, first⟩ := mapM_isOk_iff.mpr fun c member => ⟨[], crontabs c member⟩
  obtain ⟨fromDirectories, second⟩ := mapM_isOk_iff.mpr fun d member => ⟨[], directories d member⟩
  unfold findUnexpected
  rw [first, second]
  simp only [bind, Except.bind, (flatten_eq_nil_iff first).mpr crontabs,
    (flatten_eq_nil_iff second).mpr directories]
  rfl

/-- What is deployed and all there is needs no change. -/
theorem converged_of_deployed (clear : Clear layout host desired)
    (named : ∀ artefact ∈ desired, plainName artefact.slug = true)
    (deployed : Deployed layout host desired) (foreign : NothingForeign layout host desired) :
    Converged layout host desired := by
  have current : ∀ artefact ∈ desired, ∃ text, renderArtefact artefact = .ok text ∧
      currentContent layout host artefact = .ok text := by
    intro artefact member
    obtain ⟨place, text, placed, rendered, holds⟩ := deployed artefact member
    exact ⟨text, rendered, (currentContent_iff placed (render_ne_nil rendered)
      fun _ => named artefact member).mpr holds⟩
  obtain ⟨deployment, planned⟩ := plan_isOk_iff.mpr clear
  obtain ⟨entries, one, rest⟩ := except_bind_eq_ok.mp planned
  obtain ⟨removals, retired, returned⟩ := except_bind_eq_ok.mp rest
  have removed := planRemovals_ok retired
  obtain rfl : removals = [] := by
    cases removals with
    | nil => rfl
    | cons removal others =>
        have listed : Retired layout host (desired.map DesiredArtefact.slug) removal.slug :=
          (removed.named removal.slug).mp (by simp)
        rcases listed with ⟨c, configured, held, managed, absent, entry, member, same⟩ |
          ⟨d, configured, name, absent, region, rest, found, _⟩
        · exact absurd (same ▸ foreign.entries c configured held managed entry member) absent
        · rw [foreign.files d configured name absent] at found
          cases found
  obtain rfl : entries = deployment := by simpa using Except.ok.inj returned
  have unchanged : ∀ entry ∈ entries, entry.change = .unchanged := by
    intro entry member
    obtain ⟨artefact, inDesired, plannedOne⟩ := mem_of_related (mapM_eq_ok.mp one) member
    obtain ⟨text, rendered, read⟩ := current artefact inDesired
    exact planOne_unchanged rendered read plannedOne
  refine ⟨⟨entries, planned, unchanged, fun faults => ?_⟩, ?_⟩
  · have none_ : entriesChanging entries = [] := by
      rw [entriesChanging, List.filter_eq_nil_iff]
      intro entry member
      simp [DeploymentChange.modifiesTheHost, unchanged entry member]
    unfold apply
    rw [none_]
    exact ⟨.start host, rfl, rfl⟩
  · have quiet : ∀ artefact ∈ desired, verifyOne layout host artefact = .ok [] := by
      intro artefact member
      obtain ⟨text, rendered, read⟩ := current artefact member
      exact verifyOne_quiet rendered read
    obtain ⟨compared, collected⟩ := mapM_isOk_iff.mpr fun a member => ⟨[], quiet a member⟩
    refine ⟨⟨[], desired.length⟩, ?_, rfl⟩
    unfold verify
    rw [collected, findUnexpected_quiet clear foreign]
    simp only [bind, Except.bind, (flatten_eq_nil_iff collected).mpr quiet]
    rfl

/-- Plans and applies one desired set after another, while every apply succeeds. -/
def deployAll (faults : Faults) (layout : CronLayout) : List (List DesiredArtefact) → Host → Option Host
  | [], host => some host
  | desired :: rest, host =>
      match plan layout host desired with
      | .error _ => none
      | .ok deployment =>
          match apply faults layout deployment (.start host) with
          | .error _ _ => none
          | .ok result session =>
              if result.succeeded then deployAll faults layout rest session.host else none

variable {initial : Host} {known : DesiredArtefact → Prop}

/-- One round: the plan is made and applied, and the host has converged. -/
theorem deploy_converges (catalogue : Catalogue layout initial known)
    (consistent : Consistent layout initial known host)
    (listed : ∀ artefact ∈ desired, known artefact)
    (distinct : (desired.map DesiredArtefact.slug).Nodup) :
    ∃ deployment result session, plan layout host desired = .ok deployment ∧
      apply quietStores layout deployment (.start host) = .ok result session ∧
        result.succeeded = true ∧ Consistent layout initial known session.host ∧
          Converged layout session.host desired := by
  obtain ⟨deployment, planned⟩ := plan_isOk_iff.mpr (consistent.clear catalogue listed)
  obtain ⟨entries, removals, rfl, plannedFor, removed⟩ := plan_ok planned
  obtain ⟨result, session, ran, succeeded, kept⟩ :=
    apply_returns catalogue consistent listed plannedFor removed
  have safe : ∀ artefact ∈ desired, artefact.Safe :=
    fun artefact member => (catalogue.deployable artefact (listed artefact member)).safe
  have represents := apply_simulates safe distinct consistent.represents plannedFor removed ran
    succeeded
  have left := outcome distinct
    (fun artefact member => (catalogue.deployable artefact (listed artefact member)).placed) removed
  obtain ⟨deployed, foreign⟩ :=
    deployed_after catalogue consistent listed represents left
  refine ⟨_, result, session, planned, ran, succeeded, kept, ?_⟩
  exact converged_of_deployed (kept.clear catalogue listed)
    (fun artefact member => catalogue.plain (listed artefact member)) deployed foreign

theorem deployAll_converges (catalogue : Catalogue layout initial known)
    (consistent : Consistent layout initial known host) {sets : List (List DesiredArtefact)}
    (listed : ∀ desired ∈ sets, ∀ artefact ∈ desired, known artefact)
    (distinct : ∀ desired ∈ sets, (desired.map DesiredArtefact.slug).Nodup) :
    ∃ final, deployAll quietStores layout sets host = some final ∧
      ∀ desired ∈ sets.getLast?, Converged layout final desired := by
  induction sets generalizing host with
  | nil => exact ⟨host, rfl, by simp⟩
  | cons desired rest ih =>
      obtain ⟨deployment, result, session, planned, ran, succeeded, kept, converged⟩ :=
        deploy_converges catalogue consistent (listed desired List.mem_cons_self)
          (distinct desired List.mem_cons_self)
      obtain ⟨final, later, last⟩ := ih kept
        (fun other member => listed other (List.mem_cons_of_mem desired member))
        (fun other member => distinct other (List.mem_cons_of_mem desired member))
      refine ⟨final, ?_, fun wanted isLast => ?_⟩
      · unfold deployAll
        rw [planned]
        simp only
        rw [ran]
        simp only
        rw [if_pos succeeded]
        exact later
      · cases rest with
        | nil =>
            obtain rfl : session.host = final := Option.some.inj later
            obtain rfl : desired = wanted := by simpa using isLast
            exact converged
        | cons next others =>
            rw [List.getLast?_cons_cons] at isLast
            exact last wanted isLast

theorem Catalogue.start (catalogue : Catalogue layout initial known) :
    Consistent layout initial known initial := by
  refine ⟨fun c configured => ⟨[], [], ?_, by simp, by simp⟩, fun _ _ _ => Or.inl rfl,
    catalogue.plainNames⟩
  exact unmarked_shelf (readCrontab_carriageFree initial c) (catalogue.ownCrontabs c configured)

/-- Applying one desired set after another succeeds, and after each of them the host has
converged. -/
theorem apply_converges (layout : CronLayout) (initial : Host) (sets : List (List DesiredArtefact))
    (ownCrontabs : ∀ c ∈ layout.configuredCrontabs, ∀ line ∈ splitLines (initial.readCrontab c),
      looksLikeMarker line = false)
    (ownFiles : ∀ d ∈ layout.configuredDirectories, ∀ name,
      ∀ line ∈ splitLines (initial.readFile d name), looksLikeMarker line = false)
    (plainNames : ∀ d ∈ layout.configuredDirectories, ∀ name ∈ (initial.directory d).names,
      plainName name = true)
    (deployable : ∀ desired ∈ sets, ∀ artefact ∈ desired, Deployable layout artefact)
    (distinct : ∀ desired ∈ sets, (desired.map DesiredArtefact.slug).Nodup)
    (fixed : ∀ first ∈ sets, ∀ second ∈ sets, ∀ a ∈ first, ∀ b ∈ second,
      a.slug = b.slug ↔ a.taskId = b.taskId)
    (unclaimed : ∀ desired ∈ sets, ∀ artefact ∈ desired, ∀ d,
      placement layout artefact = some (.file d) → initial.readFile d artefact.slug = []) :
    ∀ earlier desired, earlier ++ [desired] <+: sets → ∃ host,
      deployAll quietStores layout (earlier ++ [desired]) initial = some host ∧
        Converged layout host desired := by
  intro earlier desired applied
  have catalogue : Catalogue layout initial fun artefact => ∃ desired ∈ sets, artefact ∈ desired := by
    refine ⟨?_, ?_, ?_, ownCrontabs, ownFiles, plainNames⟩
    · rintro artefact ⟨other, inSets, member⟩
      exact deployable other inSets artefact member
    · rintro a b ⟨first, inSets, inFirst⟩ ⟨second, inSets', inSecond⟩
      exact fixed first inSets second inSets' a inFirst b inSecond
    · rintro artefact ⟨other, inSets, member⟩ d placed
      exact unclaimed other inSets artefact member d placed
  obtain ⟨host, ran, converged⟩ := deployAll_converges catalogue catalogue.start
    (fun other inPrefix artefact member => ⟨other, applied.subset inPrefix, member⟩)
    (fun other inPrefix => distinct other (applied.subset inPrefix))
  exact ⟨host, ran, converged desired (by simp)⟩

end Converging

/-! ## One task moved and retired -/

theorem nightlyBackup_deployable (deployment : DeploymentSpecification)
    (user : deployment.target = .userCrontab)
    (rendered : ∃ text, renderArtefact (nightlyBackup deployment) = .ok text)
    (placed : ∃ place, placement userLayout (nightlyBackup deployment) = some place) :
    Deployable userLayout (nightlyBackup deployment) :=
  ⟨⟨⟨"nightly-backup".toList, by decide, by decide⟩, rfl⟩, nightlyBackup_safe deployment user,
    rendered, placed⟩

/-- In a region, then in the block, then no more. -/
def nightlySets : List (List DesiredArtefact) :=
  [[nightlyBackup .default], [nightlyBackup .singleBlock], []]

theorem apply_converges_nightly :
    ∃ host, deployAll quietStores userLayout
        nightlySets bareHost = some host ∧
      Converged userLayout host [] := by
  have only : ∀ desired ∈ nightlySets,
      ∀ artefact ∈ desired, artefact = nightlyBackup .default ∨
        artefact = nightlyBackup .singleBlock := by
    intro desired inSets artefact member
    simp only [nightlySets, List.mem_cons, List.not_mem_nil, or_false] at inSets
    rcases inSets with rfl | rfl | rfl
    · exact Or.inl (List.mem_singleton.mp member)
    · exact Or.inr (List.mem_singleton.mp member)
    · cases member
  have same : ∀ desired ∈ nightlySets,
      ∀ artefact ∈ desired, artefact.slug = (nightlyBackup .default).slug ∧
        artefact.taskId = (nightlyBackup .default).taskId := by
    intro desired inSets artefact member
    rcases only desired inSets artefact member with rfl | rfl <;> exact ⟨rfl, rfl⟩
  refine apply_converges userLayout bareHost nightlySets ?_ ?_ ?_ ?_ ?_ ?_ ?_
    [[nightlyBackup .default], [nightlyBackup .singleBlock]] [] List.prefix_rfl
  · intro c _ line member
    cases member
  · intro d configured
    cases configured
  · intro d configured
    cases configured
  · intro desired inSets artefact member
    rcases only desired inSets artefact member with rfl | rfl
    · exact nightlyBackup_deployable _ rfl ⟨nightlyRegion, rfl⟩ ⟨.entry .user .region, rfl⟩
    · exact nightlyBackup_deployable _ rfl ⟨nightlyMember, rfl⟩ ⟨.entry .user .member, rfl⟩
  · intro desired inSets
    simp only [nightlySets, List.mem_cons, List.not_mem_nil, or_false] at inSets
    rcases inSets with rfl | rfl | rfl <;> simp
  · intro first inSets second inSets' a inFirst b inSecond
    obtain ⟨slugA, idA⟩ := same first inSets a inFirst
    obtain ⟨slugB, idB⟩ := same second inSets' b inSecond
    rw [slugA, slugB, idA, idB]
    exact ⟨fun _ => rfl, fun _ => rfl⟩
  · intro desired inSets artefact member d placed
    rfl

end TaskControl.Cron
