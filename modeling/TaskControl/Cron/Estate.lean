import TaskControl.Cron.Shelf

/-!
# The estate

What a host holds for TaskControl, seen as slots: for every crontab, form and
slug the list of entries, and for every directory and name the text of a file.
Deploying an artefact writes one slot and retiring a slug empties the slots of
that slug.  The store calls of an apply that succeeds simulate these two steps.
-/

set_option autoImplicit false

namespace TaskControl.Cron

open PythonText Effects

/-- The two forms an entry of a crontab can have. -/
inductive Form where
  | region
  | member
  deriving DecidableEq, Repr

inductive Placement where
  | entry (c : CrontabName) (form : Form)
  | file (d : DirectoryName)
  deriving DecidableEq, Repr

def DesiredArtefact.form (artefact : DesiredArtefact) : Form :=
  if artefact.deployment.strategy = .crontabSingleBlock then .member else .region

/-- The one place that a capability's deployment names. -/
def placement (layout : CronLayout) (artefact : DesiredArtefact) : Option Placement :=
  if artefact.deployment.strategy.writesAFilePerTask then
    (layout.directoryFor artefact.deployment.target artefact.deployment.classification).map .file
  else (layout.crontabFor artefact.deployment.target).map fun c => .entry c artefact.form

structure Estate where
  entries : CrontabName → Form → Text → List ManagedEntry
  file : DirectoryName → Text → Text

/-- The entry that an artefact should have, with its rendered text. -/
def DesiredArtefact.entry (artefact : DesiredArtefact) (text : Text) : ManagedEntry :=
  ⟨artefact.slug, artefact.taskId.text, text⟩

/-- The artefact's text in the first entry of its slot, or in its file. -/
def Estate.write (estate : Estate) (artefact : DesiredArtefact) (text : Text) :
    Placement → Estate
  | .entry c form =>
      { estate with
        entries := fun c' form' slug =>
          if c' = c ∧ form' = form ∧ slug = artefact.slug then
            artefact.entry text :: (estate.entries c form slug).tail
          else estate.entries c' form' slug }
  | .file d =>
      { estate with
        file := fun d' name =>
          if d' = d ∧ name = artefact.slug then text else estate.file d' name }

/-- Deploying an artefact that can be rendered and has a place. -/
def Estate.deploy (layout : CronLayout) (estate : Estate) (artefact : DesiredArtefact) : Estate :=
  match placement layout artefact, renderArtefact artefact with
  | some place, .ok text => estate.write artefact text place
  | _, _ => estate

/-- Whether the text of a file shows a marked region. -/
def isManaged (text : Text) : Bool :=
  match findManagedRegions text with
  | .ok (_ :: _) => true
  | _ => false

def Estate.retireCrontab (slug : Text) (estate : Estate) (c : CrontabName) : Estate :=
  { estate with
    entries := fun c' form slug' =>
      if c' = c ∧ slug' = slug then [] else estate.entries c' form slug' }

def Estate.retireFile (slug : Text) (estate : Estate) (d : DirectoryName) : Estate :=
  { estate with
    file := fun d' name =>
      if d' = d ∧ name = slug ∧ isManaged (estate.file d name) then [] else estate.file d' name }

/-- Removing a slug from every crontab and every directory. -/
def Estate.retire (layout : CronLayout) (estate : Estate) (slug : Text) : Estate :=
  layout.configuredDirectories.foldl (Estate.retireFile slug)
    (layout.configuredCrontabs.foldl (Estate.retireCrontab slug) estate)

/-- The host holds what the estate says. -/
structure Represents (layout : CronLayout) (host : Host) (estate : Estate) : Prop where
  crontabs : ∀ c ∈ layout.configuredCrontabs, ∃ regions members,
    Shelf (host.readCrontab c) regions members ∧ ∀ slug,
      estate.entries c .region slug = ofSlug slug regions ∧
        estate.entries c .member slug = ofSlug slug members
  files : ∀ d name, estate.file d name = host.readFile d name

/-! ## Frames -/

/-- Two estates hold the same under a slug. -/
structure AgreeAt (slug : Text) (first second : Estate) : Prop where
  entries : ∀ c form, first.entries c form slug = second.entries c form slug
  files : ∀ d, first.file d slug = second.file d slug

theorem AgreeAt.trans {slug : Text} {first second third : Estate} (left : AgreeAt slug first second)
    (right : AgreeAt slug second third) : AgreeAt slug first third :=
  ⟨fun c form => (left.entries c form).trans (right.entries c form),
    fun d => (left.files d).trans (right.files d)⟩

section Frames

variable {layout : CronLayout}

/-- Deploying touches no other slug. -/
theorem deploy_elsewhere (estate : Estate) {artefact : DesiredArtefact} {slug : Text}
    (other : slug ≠ artefact.slug) : AgreeAt slug (estate.deploy layout artefact) estate := by
  unfold Estate.deploy
  split
  · rename_i place text _ _
    cases place <;> constructor <;> intros <;> simp [Estate.write, other]
  · exact ⟨fun _ _ => rfl, fun _ => rfl⟩

theorem AgreeAt.deploy {slug : Text} {first second : Estate} (agree : AgreeAt slug first second)
    (artefact : DesiredArtefact) :
    AgreeAt slug (first.deploy layout artefact) (second.deploy layout artefact) := by
  unfold Estate.deploy
  split
  · rename_i place text _ _
    cases place with
    | entry c form =>
        refine ⟨fun c' form' => ?_, agree.files⟩
        simp only [Estate.write]
        split
        · rename_i here
          obtain ⟨rfl, rfl, rfl⟩ := here
          rw [agree.entries]
        · exact agree.entries c' form'
    | file d =>
        refine ⟨agree.entries, fun d' => ?_⟩
        simp only [Estate.write]
        split
        · rfl
        · exact agree.files d'
  · exact agree

theorem deploys_elsewhere {desired : List DesiredArtefact} (estate : Estate) {slug : Text}
    (other : ∀ artefact ∈ desired, slug ≠ artefact.slug) :
    AgreeAt slug (desired.foldl (Estate.deploy layout) estate) estate := by
  induction desired generalizing estate with
  | nil => exact ⟨fun _ _ => rfl, fun _ => rfl⟩
  | cons artefact rest ih =>
      have later := ih (estate.deploy layout artefact) fun a member =>
        other a (List.mem_cons_of_mem artefact member)
      exact later.trans (deploy_elsewhere estate (other artefact List.mem_cons_self))

/-- Under its own slug an artefact is deployed as if it were the only one. -/
theorem deploys_here {desired : List DesiredArtefact} (estate : Estate)
    (distinct : (desired.map DesiredArtefact.slug).Nodup) {artefact : DesiredArtefact}
    (member : artefact ∈ desired) :
    AgreeAt artefact.slug (desired.foldl (Estate.deploy layout) estate)
      (estate.deploy layout artefact) := by
  induction desired generalizing estate with
  | nil => cases member
  | cons first rest ih =>
      rw [List.map_cons, List.nodup_cons] at distinct
      obtain ⟨fresh, distinct⟩ := distinct
      rcases List.mem_cons.mp member with rfl | later
      · exact deploys_elsewhere _ fun other inRest same =>
          fresh (List.mem_map.mpr ⟨other, inRest, same.symm⟩)
      · have differs : artefact.slug ≠ first.slug := fun same =>
          fresh (List.mem_map.mpr ⟨artefact, later, same⟩)
        exact (ih (estate.deploy layout first) distinct later).trans
          ((deploy_elsewhere estate differs).deploy artefact)

theorem retireCrontabs_entries (crontabs : List CrontabName) (estate : Estate) (slug : Text)
    (c : CrontabName) (form : Form) (other : Text) :
    (crontabs.foldl (Estate.retireCrontab slug) estate).entries c form other =
      if c ∈ crontabs ∧ other = slug then [] else estate.entries c form other := by
  induction crontabs generalizing estate with
  | nil => simp
  | cons first rest ih =>
      rw [List.foldl_cons, ih]
      by_cases same : other = slug <;> by_cases here : c = first <;> by_cases later : c ∈ rest <;>
        simp [Estate.retireCrontab, same, here, later]

theorem retireCrontabs_file (crontabs : List CrontabName) (estate : Estate) (slug : Text) :
    (crontabs.foldl (Estate.retireCrontab slug) estate).file = estate.file := by
  induction crontabs generalizing estate with
  | nil => rfl
  | cons first rest ih =>
      rw [List.foldl_cons, ih]
      rfl

theorem retireFiles_entries (directories : List DirectoryName) (estate : Estate) (slug : Text) :
    (directories.foldl (Estate.retireFile slug) estate).entries = estate.entries := by
  induction directories generalizing estate with
  | nil => rfl
  | cons first rest ih =>
      rw [List.foldl_cons, ih]
      rfl

theorem retireFiles_file (directories : List DirectoryName) (estate : Estate) (slug : Text)
    (d : DirectoryName) (name : Text) :
    (directories.foldl (Estate.retireFile slug) estate).file d name =
      if d ∈ directories ∧ name = slug ∧ isManaged (estate.file d name) then []
      else estate.file d name := by
  have empty : isManaged [] = false := rfl
  induction directories generalizing estate with
  | nil => simp
  | cons first rest ih =>
      rw [List.foldl_cons, ih]
      by_cases same : name = slug <;> by_cases here : d = first <;> by_cases later : d ∈ rest <;>
        by_cases managed : isManaged (estate.file d name) = true <;>
          simp_all [Estate.retireFile]

/-- What retiring slugs leaves in the configured stores. -/
theorem retires_entries (slugs : List Text) (estate : Estate) {c : CrontabName}
    (configured : c ∈ layout.configuredCrontabs) (form : Form) (slug : Text) :
    (slugs.foldl (Estate.retire layout) estate).entries c form slug =
      if slug ∈ slugs then [] else estate.entries c form slug := by
  induction slugs generalizing estate with
  | nil => simp
  | cons first rest ih =>
      rw [List.foldl_cons, ih, Estate.retire, retireFiles_entries, retireCrontabs_entries]
      by_cases here : slug = first <;> by_cases later : slug ∈ rest <;>
        simp [configured, here, later]

theorem retires_file (slugs : List Text) (estate : Estate) {d : DirectoryName}
    (configured : d ∈ layout.configuredDirectories) (name : Text) :
    (slugs.foldl (Estate.retire layout) estate).file d name =
      if name ∈ slugs ∧ isManaged (estate.file d name) then [] else estate.file d name := by
  have empty : isManaged [] = false := rfl
  induction slugs generalizing estate with
  | nil => simp
  | cons first rest ih =>
      have once : (estate.retire layout first).file d name =
          if name = first ∧ isManaged (estate.file d name) then [] else estate.file d name := by
        rw [Estate.retire, retireFiles_file, retireCrontabs_file]
        simp [configured]
      rw [List.foldl_cons, ih, once]
      by_cases here : name = first <;> by_cases later : name ∈ rest <;>
        by_cases managed : isManaged (estate.file d name) = true <;> simp_all

end Frames

/-! ## Successful calls -/

section Calls

variable {faults : Faults} {session session' : Session}

theorem storeCall_ok {effect : Host → Host}
    (ran : storeCall faults effect session = .ok () session') :
    session'.host = effect session.host := by
  unfold storeCall at ran
  cases fault : faults session.calls with
  | none =>
      simp only [fault] at ran
      cases ran
      rfl
  | some problem => simp [fault] at ran

theorem raising_ok {α : Type} {step : Except TaskControlError α} {a : α}
    (ran : raising step session = .ok a session') : step = .ok a ∧ session' = session := by
  cases step with
  | ok b =>
      cases ran
      exact ⟨rfl, rfl⟩
  | error problem => cases ran

theorem readCrontab_ok {c : CrontabName} {text : Text}
    (ran : readCrontab faults c session = .ok text session') :
    text = session.host.readCrontab c ∧ session'.host = session.host := by
  obtain ⟨_, mid, called, returned⟩ := bind_eq_ok.mp ran
  have same : mid.host = session.host := storeCall_ok called
  cases returned
  exact ⟨by rw [same], same⟩

theorem resolve_ok {name : Text} (ran : resolve name session = .ok () session') :
    plainName name = true ∧ session' = session := by
  unfold resolve at ran
  split at ran
  · cases ran
    exact ⟨‹_›, rfl⟩
  · cases ran

theorem readFile_ok {d : DirectoryName} {name text : Text}
    (ran : readFile faults d name session = .ok text session') :
    text = session.host.readFile d name ∧ session'.host = session.host := by
  obtain ⟨_, mid, resolved, rest⟩ := bind_eq_ok.mp ran
  obtain ⟨_, rfl⟩ := resolve_ok resolved
  obtain ⟨_, after, called, returned⟩ := bind_eq_ok.mp rest
  have same : after.host = mid.host := storeCall_ok called
  cases returned
  exact ⟨by rw [same], same⟩

theorem namedCall_ok {name : Text} {effect : Host → Host}
    (ran : (do resolve name; storeCall faults effect : StoreM Unit) session = .ok () session') :
    session'.host = effect session.host := by
  obtain ⟨_, mid, resolved, called⟩ := bind_eq_ok.mp ran
  obtain ⟨_, rfl⟩ := resolve_ok resolved
  exact storeCall_ok called

theorem captureCrontab_ok {c : CrontabName} {text : Text}
    (ran : captureCrontab c text session = .ok () session') : session'.host = session.host := by
  cases ran
  dsimp only
  split <;> rfl

theorem captureFile_ok {d : DirectoryName} {name text : Text}
    (ran : captureFile d name text session = .ok () session') : session'.host = session.host := by
  cases ran
  dsimp only
  split <;> rfl

end Calls

/-! ## Rewriting a crontab -/

theorem readCrontab_writeCrontab (host : Host) (c other : CrontabName) {text : Text}
    (carriageFree : '\r' ∉ text) :
    (host.writeCrontab c text).readCrontab other =
      if other = c then text else host.readCrontab other := by
  unfold Host.readCrontab
  by_cases same : other = c
  · simp [same, Host.writeCrontab_crontab, translateNewlines_carriageFree carriageFree]
  · simp [same, Host.writeCrontab_crontab]

theorem Arranged.carriageFree {text : Text} {regions members : List ManagedEntry}
    (arranged : Arranged text regions members) : '\r' ∉ text := by
  obtain ⟨_, chunked, _⟩ := arranged
  exact chunked.carriageFree

section Steps

variable {layout : CronLayout} {host : Host} {estate estate' : Estate}

/-- One crontab's text was replaced by another shelf; every other store is as before. -/
theorem Represents.rewrite (represents : Represents layout host estate) {c : CrontabName}
    {text : Text} {regions members : List ManagedEntry} (shelf : Shelf text regions members)
    (here : ∀ slug, estate'.entries c .region slug = ofSlug slug regions ∧
      estate'.entries c .member slug = ofSlug slug members)
    (elsewhere : ∀ other, other ≠ c → ∀ form slug,
      estate'.entries other form slug = estate.entries other form slug)
    (files : estate'.file = estate.file) :
    Represents layout (host.writeCrontab c text) estate' := by
  refine ⟨fun other configured => ?_, fun d name => ?_⟩
  · rw [readCrontab_writeCrontab host c other shelf.arranged.carriageFree]
    by_cases same : other = c
    · subst same
      simp only [if_true]
      exact ⟨regions, members, shelf, here⟩
    · simp only [same, if_false]
      obtain ⟨regions', members', shelf', held⟩ := represents.crontabs other configured
      refine ⟨regions', members', shelf', fun slug => ?_⟩
      rw [elsewhere other same, elsewhere other same]
      exact held slug
  · rw [files]
    exact represents.files d name

/-- The entry of a chunk that was written for an artefact. -/
theorem ended_text {lines : List Text} (ended : ∀ line ∈ lines, Ended line) :
    joinLines (lines.map lineBody) = lines.flatten := by
  induction lines with
  | nil => rfl
  | cons line rest ih =>
      obtain ⟨body, rfl, unbroken⟩ := ended line List.mem_cons_self
      have later := ih fun other member => ended other (List.mem_cons_of_mem _ member)
      simp only [joinLines] at later
      rw [List.map_cons, lineBody_terminated unbroken [], List.flatten_cons, ← later]
      simp [joinLines]

theorem RegionChunk.entry_written {artefact : DesiredArtefact} {r : RegionChunk} {text : Text}
    (identity : r.identity = artefact.identity) (written : WrittenAs text r.lines) :
    r.entry = artefact.entry text := by
  rw [RegionChunk.entry, ended_text written.2, ← written.1]
  simp [RegionChunk.slug, RegionChunk.taskId, identity, DesiredArtefact.identity,
    DesiredArtefact.entry]

theorem MemberChunk.entry_written {artefact : DesiredArtefact} {m : MemberChunk} {text : Text}
    (identity : m.identity = artefact.identity) (written : WrittenAs text m.lines) :
    m.entry = artefact.entry text := by
  rw [MemberChunk.entry, ended_text written.2, ← written.1]
  simp [MemberChunk.slug, MemberChunk.taskId, identity, DesiredArtefact.identity,
    DesiredArtefact.entry]

theorem crontabOf_eq_ok {artefact : DesiredArtefact} {c : CrontabName} :
    crontabOf layout artefact = .ok c ↔ layout.crontabFor artefact.deployment.target = some c := by
  unfold crontabOf
  split
  · rename_i other found
    simp [found]
  · rename_i absent
    simp [absent]

theorem directoryOf_eq_ok {artefact : DesiredArtefact} {d : DirectoryName} :
    directoryOf layout artefact = .ok d ↔
      layout.directoryFor artefact.deployment.target artefact.deployment.classification =
        some d := by
  unfold directoryOf
  split
  · rename_i other found
    simp [found]
  · rename_i absent
    simp [absent]

theorem crontab_form {artefact : DesiredArtefact}
    (form : artefact.deployment.strategy.writesAFilePerTask = false)
    (bare : artefact.deployment.strategy ≠ .crontabSingleBlock) :
    artefact.deployment.strategy = .crontabBlockPerTask := by
  cases strategy : artefact.deployment.strategy <;>
    simp_all [DeploymentStrategy.writesAFilePerTask]

/-- Writing a region over the first of its slug. -/
theorem Represents.writeRegion (represents : Represents layout host estate)
    {artefact : DesiredArtefact} (safe : artefact.Safe) {text final : Text} {c : CrontabName}
    (configured : c ∈ layout.configuredCrontabs)
    (rendered : renderCrontabRegion artefact = .ok text)
    (replaced : replaceRegion (host.readCrontab c) artefact.slug text = .ok final)
    (accepted : ∃ found,
      findManagedRegions ((host.writeCrontab c final).readCrontab c) = .ok found) :
    Represents layout (host.writeCrontab c final)
      (estate.write artefact text (.entry c .region)) := by
  obtain ⟨regions, members, shelf, held⟩ := represents.crontabs c configured
  obtain ⟨r, identity, written⟩ := renderCrontabRegion_written safe rendered
  have slug : r.slug = artefact.slug := by rw [RegionChunk.slug, identity]; rfl
  obtain ⟨final', replaced', arranged⟩ := shelf.replaceRegion r written
  rw [slug, replaced] at replaced'
  obtain rfl := Except.ok.inj replaced'
  obtain ⟨found, read⟩ := accepted
  rw [readCrontab_writeCrontab host c c arranged.carriageFree, if_pos rfl] at read
  have ids := (arranged.regions_iff.1 found read).2
  rw [RegionChunk.entry_written identity written] at arranged ids
  refine represents.rewrite ⟨arranged, ids, shelf.memberIds⟩ (fun slug => ⟨?_, ?_⟩) ?_ rfl
  · rw [ofSlug_putFirst, ← (held slug).1]
    by_cases same : slug = artefact.slug
    · subst same
      simp [Estate.write, DesiredArtefact.entry]
    · simp [Estate.write, DesiredArtefact.entry, same]
  · simpa [Estate.write] using (held slug).2
  · intro other differs form slug
    simp [Estate.write, differs]

/-- Writing a block member over every one of its slug; the check that follows
finds that there was at most one. -/
theorem Represents.writeMember (represents : Represents layout host estate)
    {artefact : DesiredArtefact} (safe : artefact.Safe) {text final : Text} {c : CrontabName}
    (configured : c ∈ layout.configuredCrontabs)
    (rendered : renderBlockMember artefact = .ok text)
    (upserted : upsertBlockMember (host.readCrontab c) artefact.slug text = .ok final)
    (accepted : ∃ found,
      findBlockMembers ((host.writeCrontab c final).readCrontab c) = .ok found) :
    Represents layout (host.writeCrontab c final)
      (estate.write artefact text (.entry c .member)) := by
  obtain ⟨regions, members, shelf, held⟩ := represents.crontabs c configured
  obtain ⟨m, identity, written⟩ := renderBlockMember_written safe rendered
  have slug : m.slug = artefact.slug := by rw [MemberChunk.slug, identity]; rfl
  obtain ⟨final', upserted', arranged⟩ := shelf.upsertBlockMember m written.2
  rw [slug, ← written.1, upserted] at upserted'
  obtain rfl := Except.ok.inj upserted'
  obtain ⟨found, read⟩ := accepted
  rw [readCrontab_writeCrontab host c c arranged.carriageFree, if_pos rfl] at read
  have ids := (arranged.members_iff.1 found read).2
  rw [MemberChunk.entry_written identity written] at arranged ids
  have single : ofSlug artefact.slug (putEvery (artefact.entry text) members) =
      artefact.entry text :: (ofSlug artefact.slug members).tail := by
    have distinct : ((ofSlug artefact.slug (putEvery (artefact.entry text) members)).map
        ManagedEntry.taskId).Nodup := ids.sublist (List.filter_sublist.map _)
    have all := ofSlug_putEvery artefact.slug (artefact.entry text) members
    rw [if_pos (show artefact.slug = (artefact.entry text).slug from rfl)] at all
    rw [all] at distinct ⊢
    cases old : ofSlug artefact.slug members with
    | nil => simp
    | cons first others =>
        cases others with
        | nil => simp
        | cons second others => simp [old] at distinct
  refine represents.rewrite ⟨arranged, shelf.regionIds, ids⟩ (fun slug => ⟨?_, ?_⟩) ?_ rfl
  · simpa [Estate.write] using (held slug).1
  · by_cases same : slug = artefact.slug
    · subst same
      rw [single, ← (held artefact.slug).2]
      simp [Estate.write]
    · rw [ofSlug_putEvery, ← (held slug).2]
      simp [Estate.write, DesiredArtefact.entry, same]
  · intro other differs form slug
    simp [Estate.write, differs]

/-! ## Deploying an artefact -/

variable {faults : Faults} {session session' : Session}

theorem deployedEntry_ok {artefact : DesiredArtefact} {c : CrontabName} {content text : Text}
    (deployed : deployedEntry layout artefact c content = .ok text) :
    if artefact.deployment.strategy = .crontabSingleBlock then
      ∃ found, findBlockMembers content = .ok found
    else ∃ found, findManagedRegions content = .ok found := by
  unfold deployedEntry at deployed
  split
  · rename_i single
    rw [if_pos single] at deployed
    cases found : findBlockMembers content with
    | ok members => exact ⟨members, rfl⟩
    | error problem =>
        rw [found] at deployed
        cases deployed
  · rename_i region
    rw [if_neg region] at deployed
    cases found : findManagedRegions content with
    | ok regions => exact ⟨regions, rfl⟩
    | error problem =>
        rw [found] at deployed
        cases deployed

/-- A crontab is rewritten, then read back. -/
theorem rewriteCrontab_ok {artefact : DesiredArtefact} {c : CrontabName} {written : Text}
    {step : Except TaskControlError Text}
    (ran : (raising step >>= fun text => writeCrontab faults c text >>= fun _ =>
      readCrontab faults c >>= fun text => raising (deployedEntry layout artefact c text))
        session = .ok written session') :
    ∃ final, step = .ok final ∧ session'.host = session.host.writeCrontab c final ∧
      deployedEntry layout artefact c ((session.host.writeCrontab c final).readCrontab c) =
        .ok written := by
  obtain ⟨final, s₁, stepped, rest⟩ := bind_eq_ok.mp ran
  obtain ⟨step_, rfl⟩ := raising_ok stepped
  obtain ⟨_, s₂, wrote, rest⟩ := bind_eq_ok.mp rest
  obtain ⟨back, s₃, readBack, rest⟩ := bind_eq_ok.mp rest
  obtain ⟨rfl, backHost⟩ := readCrontab_ok readBack
  obtain ⟨deployed, rfl⟩ := raising_ok rest
  have host : s₂.host = s₁.host.writeCrontab c final := storeCall_ok wrote
  exact ⟨final, step_, backHost.trans host, host ▸ deployed⟩

theorem writeArtefactEntry_simulates {entry : PlanEntry} {artefact : DesiredArtefact}
    (safe : artefact.Safe) {text written : Text} (after : entry.after = text)
    (rendered : renderArtefact artefact = .ok text) {place : Placement}
    (crontabForm_ : artefact.deployment.strategy.writesAFilePerTask = false)
    (placed : placement layout artefact = some place)
    (represents : Represents layout session.host estate)
    (ran : writeArtefactEntry faults layout entry artefact session = .ok written session') :
    Represents layout session'.host (estate.write artefact text place) := by
  obtain ⟨c, mid, chosen, rest⟩ := bind_eq_ok.mp ran
  obtain ⟨found, rfl⟩ := raising_ok chosen
  obtain ⟨original, afterRead, read, rest⟩ := bind_eq_ok.mp rest
  obtain ⟨rfl, readHost⟩ := readCrontab_ok read
  obtain ⟨_, afterCapture, captured, rest⟩ := bind_eq_ok.mp rest
  have same : afterCapture.host = mid.host := (captureCrontab_ok captured).trans readHost
  have configured := crontabOf_configured found
  obtain rfl : place = .entry c artefact.form := by
    rw [placement, if_neg (by simp [crontabForm_]), crontabOf_eq_ok.mp found] at placed
    exact (Option.some.inj placed).symm
  dsimp only at rest
  by_cases single : artefact.deployment.strategy = .crontabSingleBlock
  · rw [if_pos single] at rest
    obtain ⟨final, upserted, host, deployed⟩ := rewriteCrontab_ok rest
    have accepted := deployedEntry_ok deployed
    rw [if_pos single] at accepted
    rw [after] at upserted
    rw [renderArtefact, single] at rendered
    rw [same] at host accepted
    rw [host, DesiredArtefact.form, if_pos single]
    exact represents.writeMember safe configured rendered upserted accepted
  · rw [if_neg single] at rest
    obtain ⟨final, replaced, host, deployed⟩ := rewriteCrontab_ok rest
    have accepted := deployedEntry_ok deployed
    rw [if_neg single] at accepted
    rw [after] at replaced
    rw [renderArtefact, crontab_form crontabForm_ single] at rendered
    rw [same] at host accepted
    rw [host, DesiredArtefact.form, if_neg single]
    exact represents.writeRegion safe configured rendered replaced accepted

/-! ## Deploying a file -/

/-- Whole lines that end in one region show that region. -/
theorem region_of_lines {text : Text} (head : List Text) (r : RegionChunk)
    (written : WrittenAs text (head ++ r.lines)) (ordinary : ∀ line ∈ head, Ordinary (lineBody line)) :
    '\r' ∉ text ∧ ∃ region, findManagedRegions text = .ok [region] ∧ region.slug = r.slug ∧
      region.taskId = r.taskId := by
  obtain ⟨front, flat, noRegions, noBlocks⟩ := plain_chunks head ordinary
  have kept : KeptLines (head ++ r.lines) :=
    keptLines_of_terminated fun line member => (written.2 line member).terminated
  have laid : Laid text (front ++ [.region r]) := by
    rw [Laid, written.1, kept.splitKeep_flatten]
    simp [flat, Chunk.lines]
  have found := (findManagedRegions_eq_ok laid).mpr ⟨rfl, by simp [noRegions, Chunk.regions]⟩
  refine ⟨written.1 ▸ kept.carriageFree, ?_⟩
  have view := regionsFrom_map (fun region => (region.slug, region.taskId))
    (fun r => (r.slug, r.taskId)) (fun _ _ => rfl) 0 (front ++ [.region r])
  simp only [regionChunks_append, noRegions, List.nil_append, regionChunks_cons, Chunk.regions,
    regionChunks_nil, List.append_nil, List.map_cons, List.map_nil] at view
  obtain ⟨region, shape, named⟩ := List.map_eq_singleton_iff.mp view
  exact ⟨region, by rw [found, shape], congrArg Prod.fst named, congrArg Prod.snd named⟩

theorem notice_innocent : Innocent generatedNotice := ⟨by decide, generatedNotice_plain⟩

/-- The lines that both kinds of file put between their markers. -/
theorem file_innocent {artefact : DesiredArtefact} (safe : artefact.Safe) (lines : List Text)
    (innocent : ∀ line ∈ lines, Innocent line) :
    ∀ line ∈ generatedNotice :: descriptionComment artefact ++ lines, Innocent line := by
  intro line member
  rcases List.mem_append.mp member with early | late
  · rcases List.mem_cons.mp early with isNotice | inComment
    · rw [isNotice]
      exact notice_innocent
    · exact safe.comment line inComment
  · exact innocent line late

/-- A text that survives reading and shows one region, the artefact's. -/
def ShowsOwn (artefact : DesiredArtefact) (text : Text) : Prop :=
  '\r' ∉ text ∧ ∃ region, findManagedRegions text = .ok [region] ∧ region.slug = artefact.slug ∧
    region.taskId = artefact.taskId.text

theorem renderCronDFile_region {artefact : DesiredArtefact} (safe : artefact.Safe) {text : Text}
    (rendered : renderCronDFile artefact = .ok text) : ShowsOwn artefact text := by
  rw [renderCronDFile, cronDFileLines] at rendered
  cases entryRun : crontabEntry artefact with
  | error problem =>
      rw [entryRun] at rendered
      cases rendered
  | ok entry =>
      rw [entryRun] at rendered
      have innocent := file_innocent safe [entry] (by simpa using safe.entry entry entryRun)
      have lines : joinLines (beginMarker artefact :: generatedNotice ::
          descriptionComment artefact ++ [entry, endMarker artefact.slug]) = text :=
        Except.ok.inj rendered
      have shape : beginMarker artefact :: generatedNotice :: descriptionComment artefact ++
          [entry, endMarker artefact.slug] = beginMarker artefact :: (generatedNotice ::
            descriptionComment artefact ++ [entry]) ++ [endMarker artefact.slug] := by
        simp only [List.cons_append, List.append_assoc, List.nil_append]
      have written := regionOf_written artefact safe.tokens _ innocent
      rw [← List.nil_append (regionOf _ _ _ _).lines] at written
      rw [← lines, shape]
      exact region_of_lines [] _ written (by simp)

theorem renderRunPartsScript_region {artefact : DesiredArtefact} (safe : artefact.Safe)
    (runParts : artefact.deployment.strategy = .runPartsDirectory) {text : Text}
    (rendered : renderRunPartsScript artefact = .ok text) : ShowsOwn artefact text := by
  rw [renderRunPartsScript, runPartsScriptLines] at rendered
  split at rendered
  · cases rendered
  · have lines : joinLines ("#!/bin/sh".toList :: beginMarker artefact :: generatedNotice ::
        descriptionComment artefact ++ ["set -eu".toList, "exec ".toList ++ artefact.command,
          endMarker artefact.slug]) = text := Except.ok.inj rendered
    have innocent := file_innocent safe ["set -eu".toList, "exec ".toList ++ artefact.command] (by
      intro line member
      rcases List.mem_cons.mp member with rfl | command
      · decide
      · rw [List.mem_singleton.mp command]
        exact safe.command runParts)
    have written := regionOf_written artefact safe.tokens _ innocent
    have shape : joinLines ("#!/bin/sh".toList :: beginMarker artefact :: generatedNotice ::
        descriptionComment artefact ++ ["set -eu".toList, "exec ".toList ++ artefact.command,
          endMarker artefact.slug]) =
        "#!/bin/sh\n".toList ++ joinLines (beginMarker artefact :: (generatedNotice ::
          descriptionComment artefact ++ ["set -eu".toList, "exec ".toList ++ artefact.command]) ++
            [endMarker artefact.slug]) := by
      simp only [List.cons_append, List.append_assoc, List.nil_append]
      rfl
    have whole : WrittenAs ("#!/bin/sh\n".toList ++ joinLines (beginMarker artefact ::
        (generatedNotice :: descriptionComment artefact ++
          ["set -eu".toList, "exec ".toList ++ artefact.command]) ++ [endMarker artefact.slug]))
        (["#!/bin/sh\n".toList] ++ (regionOf artefact safe.tokens _ innocent).lines) := by
      refine ⟨by rw [written.1, List.flatten_append, List.flatten_singleton], ?_⟩
      intro line member
      rcases List.mem_append.mp member with first | inRegion
      · rw [List.mem_singleton.mp first]
        exact ⟨"#!/bin/sh".toList, rfl, by decide⟩
      · exact written.2 line inRegion
    rw [← lines, shape]
    refine region_of_lines _ _ whole fun line member => ?_
    rw [List.mem_singleton.mp member]
    decide

/-- A rendered file shows its region. -/
theorem renderFile_region {artefact : DesiredArtefact} (safe : artefact.Safe)
    (file : artefact.deployment.strategy.writesAFilePerTask = true) {text : Text}
    (rendered : renderArtefact artefact = .ok text) : ShowsOwn artefact text := by
  unfold renderArtefact at rendered
  cases strategy : artefact.deployment.strategy with
  | crontabBlockPerTask | crontabSingleBlock =>
      simp [strategy, DeploymentStrategy.writesAFilePerTask] at file
  | cronDFile =>
      rw [strategy] at rendered
      exact renderCronDFile_region safe rendered
  | runPartsDirectory =>
      rw [strategy] at rendered
      exact renderRunPartsScript_region safe strategy rendered

theorem renderFile_managed {artefact : DesiredArtefact} (safe : artefact.Safe)
    (file : artefact.deployment.strategy.writesAFilePerTask = true) {text : Text}
    (rendered : renderArtefact artefact = .ok text) : '\r' ∉ text ∧ isManaged text = true := by
  obtain ⟨carriageFree, region, found, _⟩ := renderFile_region safe file rendered
  exact ⟨carriageFree, by rw [isManaged, found]⟩

theorem writeArtefactFile_simulates {entry : PlanEntry} {artefact : DesiredArtefact}
    (safe : artefact.Safe) {text written : Text} (after : entry.after = text)
    (rendered : renderArtefact artefact = .ok text) {place : Placement}
    (file : artefact.deployment.strategy.writesAFilePerTask = true)
    (placed : placement layout artefact = some place)
    (represents : Represents layout session.host estate)
    (ran : writeArtefactFile faults layout entry artefact session = .ok written session') :
    Represents layout session'.host (estate.write artefact text place) := by
  obtain ⟨d, mid, chosen, rest⟩ := bind_eq_ok.mp ran
  obtain ⟨found, rfl⟩ := raising_ok chosen
  obtain ⟨original, afterRead, read, rest⟩ := bind_eq_ok.mp rest
  obtain ⟨rfl, readHost⟩ := readFile_ok read
  obtain ⟨_, afterCapture, captured, rest⟩ := bind_eq_ok.mp rest
  have same : afterCapture.host = mid.host := (captureFile_ok captured).trans readHost
  obtain ⟨_, afterWrite, wrote, readBack⟩ := bind_eq_ok.mp rest
  have host := (readFile_ok readBack).2.trans (namedCall_ok wrote)
  obtain rfl : place = .file d := by
    rw [placement, if_pos file, directoryOf_eq_ok.mp found] at placed
    exact (Option.some.inj placed).symm
  have carriageFree := (renderFile_managed safe file rendered).1
  rw [host, same, after]
  refine ⟨represents.crontabs, fun other name => ?_⟩
  simp only [Estate.write, Host.readFile, Host.writeFile_find]
  by_cases here : other = d ∧ name = artefact.slug
  · obtain ⟨rfl, rfl⟩ := here
    simp [translateNewlines_carriageFree carriageFree]
  · have here' : ¬ (other = d ∧ artefact.slug = name) := fun ⟨first, second⟩ =>
      here ⟨first, second.symm⟩
    rw [if_neg here, if_neg here']
    exact represents.files other name

/-- A write that succeeds puts the rendered text into the artefact's slot. -/
theorem applyWrite_simulates {entry : PlanEntry} {artefact : DesiredArtefact}
    (safe : artefact.Safe) (carried : entry.artefact = some artefact)
    (rendered : renderArtefact artefact = .ok entry.after) {place : Placement}
    (placed : placement layout artefact = some place)
    (represents : Represents layout session.host estate)
    (ran : applyWrite faults layout entry session = .ok () session') :
    Represents layout session'.host (estate.deploy layout artefact) := by
  have deployed : estate.deploy layout artefact = estate.write artefact entry.after place := by
    rw [Estate.deploy, placed, rendered]
  rw [deployed]
  unfold applyWrite at ran
  simp only [carried] at ran
  have checked {message : String} {mid : Session} {written : Text}
      (check : (if strip written ≠ strip entry.after then verificationFailed message
        else pure () : StoreM Unit) mid = .ok () session') : session' = mid := by
    split at check
    · cases check
    · cases check
      rfl
  by_cases file : artefact.deployment.strategy.writesAFilePerTask = true
  · rw [if_pos file] at ran
    obtain ⟨written, mid, wrote, check⟩ := bind_eq_ok.mp ran
    rw [checked check]
    exact writeArtefactFile_simulates safe rfl rendered file placed represents wrote
  · rw [if_neg file] at ran
    obtain ⟨written, mid, wrote, check⟩ := bind_eq_ok.mp ran
    rw [checked check]
    exact writeArtefactEntry_simulates safe rfl rendered (by simpa using file) placed represents wrote

/-! ## Retiring a slug -/

theorem heldForms_ok {slug content : Text} {regions members : List ManagedEntry}
    (shelf : Shelf content regions members) :
    heldForms slug content = .ok (regions.any (·.slug = slug), members.any (·.slug = slug)) := by
  obtain ⟨foundRegions, readRegions, rfl⟩ := shelf.regions
  obtain ⟨foundMembers, readMembers, rfl⟩ := shelf.members
  simp only [heldForms, readRegions, readMembers, bind, Except.bind, List.any_map]
  rfl

/-- What `_apply_removal` writes: the text without the slug's first region and
without its members. -/
theorem withoutEntry_ok (slug : Text) {content : Text} {regions members : List ManagedEntry}
    (shelf : Shelf content regions members) :
    ∃ final, withoutEntry slug (regions.any (·.slug = slug)) (members.any (·.slug = slug)) content =
      .ok final ∧ Shelf final (dropFirst slug regions) (dropEvery slug members) ∧
        unmanagedLines final = unmanagedLines content := by
  obtain ⟨between, removed, between_, plain⟩ : ∃ between,
      (if regions.any (·.slug = slug) then removeRegion content slug else pure content :
        Except TaskControlError Text) = .ok between ∧
          Shelf between (dropFirst slug regions) members ∧
            unmanagedLines between = unmanagedLines content := by
    cases held : regions.any (·.slug = slug) with
    | true => exact shelf.removeRegion slug
    | false =>
        refine ⟨content, rfl, ?_, rfl⟩
        rw [dropFirst_absent (by simpa using held)]
        exact shelf
  have steps (inRegion inBlock : Bool) : withoutEntry slug inRegion inBlock content =
      ((if inRegion then removeRegion content slug else pure content) >>= fun updated =>
        if inBlock then removeBlockMember updated slug else pure updated) := by
    cases inRegion <;> rfl
  rw [steps, removed]
  cases held : members.any (·.slug = slug) with
  | true =>
      obtain ⟨final, done, shelf', plain'⟩ := between_.removeBlockMember slug
      exact ⟨final, done, shelf', plain'.trans plain⟩
  | false =>
      have same : dropEvery slug members = members :=
        List.filter_eq_self.mpr (by simpa using held)
      rw [same]
      exact ⟨between, rfl, between_, plain⟩

theorem stillHeld_ok {slug content : Text} {regions members : List ManagedEntry}
    (shelf : Shelf content regions members) :
    stillHeld slug content =
      .ok (regions.any (·.slug = slug) || members.any (·.slug = slug)) := by
  obtain ⟨foundRegions, readRegions, rfl⟩ := shelf.regions
  obtain ⟨foundMembers, readMembers, rfl⟩ := shelf.members
  simp only [stillHeld, readRegions, readMembers, bind, Except.bind, List.any_map]
  cases held : foundRegions.any (·.slug = slug) with
  | true =>
      have held' : (foundRegions.any ((·.slug = slug) ∘ ManagedRegion.entry)) = true := held
      simp [held']
      rfl
  | false =>
      have held' : (foundRegions.any ((·.slug = slug) ∘ ManagedRegion.entry)) = false := held
      simp [held']
      rfl

theorem ofSlug_of_any {slug : Text} {entries : List ManagedEntry}
    (none_ : entries.any (·.slug = slug) = false) : ofSlug slug entries = [] :=
  ofSlug_eq_nil.mpr (by simpa using none_)

theorem Represents.congr (represents : Represents layout host estate)
    (entries : ∀ c ∈ layout.configuredCrontabs, ∀ form slug,
      estate'.entries c form slug = estate.entries c form slug)
    (files : ∀ d name, estate'.file d name = estate.file d name) :
    Represents layout host estate' := by
  refine ⟨fun c configured => ?_, fun d name => (files d name).trans (represents.files d name)⟩
  obtain ⟨regions, members, shelf, held⟩ := represents.crontabs c configured
  refine ⟨regions, members, shelf, fun slug => ?_⟩
  rw [entries c configured, entries c configured]
  exact held slug

/-- A round that succeeds on a crontab found nothing of the slug, or left nothing of it. -/
theorem removeFromCrontab_ok {slug : Text} {c : CrontabName} {regions members : List ManagedEntry}
    (shelf : Shelf (session.host.readCrontab c) regions members)
    (ran : removeFromCrontab faults layout slug c session = .ok ⟨⟩ session') :
    (session'.host = session.host ∧ regions.any (·.slug = slug) = false ∧
      members.any (·.slug = slug) = false) ∨
    ∃ final, session'.host = session.host.writeCrontab c final ∧
      Shelf final (dropFirst slug regions) (dropEvery slug members) ∧
      unmanagedLines final = unmanagedLines (session.host.readCrontab c) ∧
      (dropFirst slug regions).any (·.slug = slug) = false := by
  obtain ⟨original, afterRead, read, rest⟩ := bind_eq_ok.mp ran
  obtain ⟨rfl, readHost⟩ := readCrontab_ok read
  obtain ⟨forms, afterForms, formsRun, rest⟩ := bind_eq_ok.mp rest
  obtain ⟨formsFound, rfl⟩ := raising_ok formsRun
  rw [heldForms_ok shelf] at formsFound
  obtain rfl := Except.ok.inj formsFound
  simp only at rest
  by_cases present : (regions.any (·.slug = slug) || members.any (·.slug = slug)) = true
  · rw [if_pos present] at rest
    obtain ⟨_, afterCapture, captured, stepping⟩ := bind_eq_ok.mp rest
    obtain ⟨final, afterStep, stepped, writing⟩ := bind_eq_ok.mp stepping
    obtain ⟨removed, rfl⟩ := raising_ok stepped
    obtain ⟨_, afterWrite, wrote, reading⟩ := bind_eq_ok.mp writing
    obtain ⟨after, afterBack, readBack, checking⟩ := bind_eq_ok.mp reading
    obtain ⟨rfl, backHost⟩ := readCrontab_ok readBack
    obtain ⟨still, afterCheck, checked, ending⟩ := bind_eq_ok.mp checking
    obtain ⟨stillRun, rfl⟩ := raising_ok checked
    obtain ⟨final', removed', shelf', plain⟩ := withoutEntry_ok slug shelf
    obtain rfl := Except.ok.inj (removed.symm.trans removed')
    have host : afterWrite.host = session.host.writeCrontab c final := by
      rw [storeCall_ok wrote, captureCrontab_ok captured, readHost]
    rw [host, readCrontab_writeCrontab _ _ _ shelf'.arranged.carriageFree, if_pos rfl,
      stillHeld_ok shelf'] at stillRun
    obtain rfl := Except.ok.inj stillRun
    split at ending
    · cases ending
    · rename_i gone
      cases ending
      simp only [Bool.or_eq_true, not_or, Bool.not_eq_true] at gone
      exact Or.inr ⟨final, backHost.trans host, shelf', plain, gone.1⟩
  · rw [if_neg present] at rest
    cases rest
    simp only [Bool.or_eq_true, not_or, Bool.not_eq_true] at present
    exact Or.inl ⟨readHost, present⟩

theorem dropEvery_any (slug : Text) (entries : List ManagedEntry) :
    (dropEvery slug entries).any (·.slug = slug) = false := by
  simp [dropEvery]

theorem removeFromCrontab_simulates {slug : Text} {c : CrontabName}
    (configured : c ∈ layout.configuredCrontabs)
    (represents : Represents layout session.host estate)
    (ran : removeFromCrontab faults layout slug c session = .ok ⟨⟩ session') :
    Represents layout session'.host (estate.retireCrontab slug c) := by
  obtain ⟨regions, members, shelf, held⟩ := represents.crontabs c configured
  rcases removeFromCrontab_ok shelf ran with ⟨same, noRegion, noMember⟩ |
    ⟨final, host, shelf', _, gone⟩
  · rw [same]
    refine represents.congr (fun other _ form slug' => ?_) fun _ _ => rfl
    by_cases same : other = c ∧ slug' = slug
    · obtain ⟨rfl, rfl⟩ := same
      obtain ⟨region, member⟩ := held slug'
      rw [ofSlug_of_any noRegion] at region
      rw [ofSlug_of_any noMember] at member
      cases form <;> simp [Estate.retireCrontab, region, member]
    · simp [Estate.retireCrontab, same]
  · rw [host]
    refine represents.rewrite shelf' (fun other => ?_) ?_ rfl
    · by_cases same : other = slug
      · subst same
        rw [ofSlug_of_any gone, ofSlug_of_any (dropEvery_any other members)]
        simp [Estate.retireCrontab]
      · rw [ofSlug_dropFirst, ofSlug_dropEvery, if_neg same, if_neg same]
        simpa [Estate.retireCrontab, same] using held other
    · intro other differs form slug'
      simp [Estate.retireCrontab, differs]

/-- A round that succeeds on a directory found no managed file of that name, or removed it. -/
theorem removeFromDirectory_ok {slug : Text} {d : DirectoryName}
    (ran : removeFromDirectory faults layout slug d session = .ok ⟨⟩ session') :
    (session'.host = session.host ∧ isManaged (session.host.readFile d slug) = false) ∨
      (session'.host = session.host.removeFile d slug ∧
        isManaged (session.host.readFile d slug) = true) := by
  obtain ⟨content, afterRead, read, rest⟩ := bind_eq_ok.mp ran
  obtain ⟨rfl, readHost⟩ := readFile_ok read
  by_cases empty : session.host.readFile d slug = []
  · rw [if_neg (by simpa using empty)] at rest
    cases rest
    exact Or.inl ⟨readHost, by rw [empty]; rfl⟩
  · rw [if_pos empty] at rest
    obtain ⟨regions, afterScan, scanned, removing⟩ := bind_eq_ok.mp rest
    obtain ⟨found, rfl⟩ := raising_ok scanned
    by_cases none_ : regions = []
    · rw [if_neg (by simpa using none_)] at removing
      cases removing
      exact Or.inl ⟨readHost, by rw [isManaged, found, none_]⟩
    · rw [if_pos none_] at removing
      obtain ⟨_, afterCapture, captured, rest⟩ := bind_eq_ok.mp removing
      obtain ⟨_, afterRemove, removed, rest⟩ := bind_eq_ok.mp rest
      obtain ⟨back, afterBack, readBack, rest⟩ := bind_eq_ok.mp rest
      have removedHost := namedCall_ok removed
      rw [captureFile_ok captured, readHost] at removedHost
      have backHost := (readFile_ok readBack).2
      obtain ⟨region, others, rfl⟩ := List.exists_cons_of_ne_nil none_
      have managed : isManaged (session.host.readFile d slug) = true := by rw [isManaged, found]
      split at rest
      · cases rest
      · cases rest
        exact Or.inr ⟨backHost.trans removedHost, managed⟩

theorem removeFromDirectory_simulates {slug : Text} {d : DirectoryName}
    (represents : Represents layout session.host estate)
    (ran : removeFromDirectory faults layout slug d session = .ok ⟨⟩ session') :
    Represents layout session'.host (estate.retireFile slug d) := by
  rcases removeFromDirectory_ok ran with ⟨same, quiet⟩ | ⟨host, managed⟩
  · rw [same]
    rw [← represents.files] at quiet
    refine represents.congr (fun _ _ _ _ => rfl) fun other name => ?_
    simp only [Estate.retireFile]
    split
    · rename_i here
      obtain ⟨rfl, rfl, managed⟩ := here
      rw [quiet] at managed
      cases managed
    · rfl
  · rw [host]
    rw [← represents.files] at managed
    refine ⟨represents.crontabs, fun other name => ?_⟩
    simp only [Estate.retireFile, Host.readFile, Host.removeFile_find]
    by_cases here : other = d ∧ slug = name
    · obtain ⟨rfl, rfl⟩ := here
      simp [managed]
    · have here' : ¬ (other = d ∧ name = slug ∧ isManaged (estate.file d name) = true) :=
        fun ⟨first, second, _⟩ => here ⟨first, second.symm⟩
      rw [if_neg here, if_neg here']
      exact represents.files other name

/-- A removal that succeeds empties the slug's slots everywhere. -/
theorem applyRemoval_simulates {entry : PlanEntry}
    (represents : Represents layout session.host estate)
    (ran : applyRemoval faults layout entry session = .ok () session') :
    Represents layout session'.host (estate.retire layout entry.slug) := by
  obtain ⟨_, mid, crontabs, directories⟩ := bind_eq_ok.mp ran
  have emptied := forM_simulates (fun session => Represents layout session.host)
    layout.configuredCrontabs
    (fun c configured _ _ _ holds step => removeFromCrontab_simulates configured holds step)
    represents crontabs
  exact forM_simulates (fun session => Represents layout session.host)
    layout.configuredDirectories
    (fun d _ _ _ _ holds step => removeFromDirectory_simulates holds step) emptied directories

end Steps

end TaskControl.Cron
