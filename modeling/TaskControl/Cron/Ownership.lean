import TaskControl.Cron.Sparing

/-!
# What applying a plan to another host can destroy

A plan decides ownership while it is made; a write looks at nothing but the name
when it is made on a host that has changed since.  `Touches` says what one entry
of a plan does to the stores, whether it ends well or not, and `Heeds` is the
condition on the host it finds under which nothing foreign is touched.
-/

set_option autoImplicit false

namespace TaskControl.Cron

open PythonText Effects

/-! ## Ownership -/

/-- The first marker of a text names the task. -/
def MarkedFor (taskId : TaskId) (content : Text) : Prop :=
  ∃ region rest, findManagedRegions content = .ok (region :: rest) ∧
    region.taskId = taskId.text

/-- A file that is there and carries no marker of the task. -/
def ForeignFile (host : Host) (taskId : TaskId) (d : DirectoryName) (name : Text) : Prop :=
  (∃ file, (host.directory d).find name = some file) ∧ ¬ MarkedFor taskId (host.readFile d name)

/-- An entry of a plan leaves alone what is not its task's. -/
structure LeavesForeign (entry : PlanEntry) (before after : Host) : Prop where
  files : ∀ d name, ForeignFile before entry.taskId d name →
    (after.directory d).find name = (before.directory d).find name
  crontabs : ∀ c, Spares entry.slug (before.readCrontab c) (after.readCrontab c)

/-! ## What an entry does -/

/-- The text that an entry writes into a crontab, over the text found there. -/
def Rewrites (layout : CronLayout) (entry : PlanEntry) (c : CrontabName) (text final : Text) :
    Prop :=
  if entry.change = .remove then
    ∃ inRegion inBlock, heldForms entry.slug text = .ok (inRegion, inBlock) ∧
      (inRegion || inBlock) = true ∧ withoutEntry entry.slug inRegion inBlock text = .ok final
  else ∃ artefact form, entry.artefact = some artefact ∧
    placement layout artefact = some (.entry c form) ∧
      match form with
      | .member => upsertBlockMember text artefact.slug entry.after = .ok final
      | .region => replaceRegion text artefact.slug entry.after = .ok final

/-- The file that an entry writes or removes. -/
def ActsOn (layout : CronLayout) (entry : PlanEntry) (host : Host) (d : DirectoryName)
    (name : Text) : Prop :=
  if entry.change = .remove then
    d ∈ layout.configuredDirectories ∧ name = entry.slug ∧ isManaged (host.readFile d name) = true
  else ∃ artefact, entry.artefact = some artefact ∧ placement layout artefact = some (.file d) ∧
    name = artefact.slug

/-- A crontab of which the entry rewrites lines in place. -/
def RewritesInPlace (layout : CronLayout) (entry : PlanEntry) (host : Host) (c : CrontabName) :
    Prop :=
  if entry.change = .remove then
    ∃ inRegion inBlock, heldForms entry.slug (host.readCrontab c) = .ok (inRegion, inBlock) ∧
      (inRegion || inBlock) = true
  else ∃ artefact form, entry.artefact = some artefact ∧
    placement layout artefact = some (.entry c form) ∧
      (form = .region → HeldInRegion artefact.slug (host.readCrontab c))

/-- The host is found as the entry takes it to be: the files that it acts on are absent or its
task's, and no region overlaps the block of a crontab of which it rewrites lines in place. -/
structure Heeds (layout : CronLayout) (entry : PlanEntry) (host : Host) : Prop where
  files : ∀ d name, ActsOn layout entry host d name → ¬ ForeignFile host entry.taskId d name
  crontabs : ∀ c, RewritesInPlace layout entry host c → Separate (host.readCrontab c)

/-- What an entry can have done to the stores and the snapshot, however it ended. -/
structure Touches (layout : CronLayout) (entry : PlanEntry) (before after : Session) : Prop where
  crontabs : ∀ c, after.host.crontab c = before.host.crontab c ∨
    ∃ final, after.host.crontab c = some final ∧
      Rewrites layout entry c (before.host.readCrontab c) final
  files : ∀ d name,
    (after.host.directory d).find name = (before.host.directory d).find name ∨
      ActsOn layout entry before.host d name
  heldCrontabs : ∀ c text, (c, text) ∈ after.snapshot.crontabs →
    (c, text) ∈ before.snapshot.crontabs ∨ text = before.host.readCrontab c
  heldFiles : ∀ d name text, (d, name, text) ∈ after.snapshot.files →
    (d, name, text) ∈ before.snapshot.files ∨ ActsOn layout entry before.host d name

/-! ## One entry -/

/-- An entry as a plan makes it. -/
structure WellMade (entry : PlanEntry) : Prop where
  names : entry.change ≠ .remove → ∀ artefact, entry.artefact = some artefact →
    entry.slug = artefact.slug ∧ entry.taskId = artefact.taskId
  finished : entry.change ≠ .remove → Finished entry.after

section Plans

variable {layout : CronLayout} {host : Host}

theorem joined_finished {lines : Except TaskControlError (List Text)} {text : Text}
    (joined : joinLines <$> lines = .ok text) : Finished text := by
  cases lines with
  | error problem => cases joined
  | ok found =>
      cases joined
      exact finished_joinLines found

theorem render_finished {artefact : DesiredArtefact} {text : Text}
    (rendered : renderArtefact artefact = .ok text) : Finished text := by
  unfold renderArtefact at rendered
  split at rendered
  · exact joined_finished rendered
  · exact joined_finished rendered
  · exact joined_finished rendered
  · exact joined_finished rendered

theorem planOne_names {artefact : DesiredArtefact} {entry : PlanEntry}
    (planned : planOne layout host artefact = .ok entry) :
    entry.slug = artefact.slug ∧ entry.taskId = artefact.taskId := by
  obtain ⟨rendered, _, rest⟩ := except_bind_eq_ok.mp planned
  obtain ⟨current, _, rest⟩ := except_bind_eq_ok.mp rest
  obtain ⟨target, _, rest⟩ := except_bind_eq_ok.mp rest
  split at rest
  · cases rest
    exact ⟨rfl, rfl⟩
  · split at rest
    · cases rest
      exact ⟨rfl, rfl⟩
    · cases rest
      exact ⟨rfl, rfl⟩

theorem planOne_wellMade {artefact : DesiredArtefact} {entry : PlanEntry}
    (planned : planOne layout host artefact = .ok entry) : WellMade entry := by
  have about := planOne_ok planned
  constructor
  · intro _ other carried
    obtain rfl := Option.some.inj (about.carried.symm.trans carried)
    exact planOne_names planned
  · intro _
    exact render_finished about.rendered

theorem plan_wellMade {desired : List DesiredArtefact} {deployment : DeploymentPlan}
    (planned : plan layout host desired = .ok deployment) :
    ∀ entry ∈ deployment, WellMade entry := by
  obtain ⟨entries, collected, rest⟩ := except_bind_eq_ok.mp planned
  obtain ⟨removals, removed, returned⟩ := except_bind_eq_ok.mp rest
  rw [← Except.ok.inj returned]
  intro entry member
  rcases List.mem_append.mp member with write | removal
  · obtain ⟨artefact, _, one⟩ := (mem_of_mapM collected entry).mp write
    exact planOne_wellMade one
  · have change := (planRemovals_ok removed).remove entry removal
    exact ⟨fun write => absurd change write, fun write => absurd change write⟩

end Plans

section Entry

variable {layout : CronLayout} {entry : PlanEntry} {before after : Session}

theorem Touches.spares (touches : Touches layout entry before after) (made : WellMade entry)
    (heeds : Heeds layout entry before.host) :
    LeavesForeign entry before.host after.host := by
  constructor
  · intro d name foreign
    rcases touches.files d name with same | acts
    · exact same
    · exact absurd foreign (heeds.files d name acts)
  · intro c
    have free := readCrontab_carriageFree before.host c
    rcases touches.crontabs c with same | ⟨final, written, rewrites⟩
    · have unchanged : after.host.readCrontab c = before.host.readCrontab c := by
        rw [Host.readCrontab, Host.readCrontab, same]
      rw [unchanged]
      exact spares_prefix List.prefix_rfl
    · have read : after.host.readCrontab c = translateNewlines final := by
        rw [Host.readCrontab, written]
      rw [read]
      unfold Rewrites at rewrites
      split at rewrites
      · rename_i removal
        obtain ⟨inRegion, inBlock, held, any, removed⟩ := rewrites
        apply withoutEntry_spares free held _ removed
        apply heeds.crontabs c
        rw [RewritesInPlace, if_pos removal]
        exact ⟨inRegion, inBlock, held, any⟩
      · rename_i write
        obtain ⟨artefact, form, carried, placed, edited⟩ := rewrites
        rw [(made.names write artefact carried).1]
        cases form with
        | member =>
            apply upsertBlockMember_spares free (made.finished write) _ edited
            apply heeds.crontabs c
            rw [RewritesInPlace, if_neg write]
            exact ⟨artefact, .member, carried, placed, fun region => by cases region⟩
        | region =>
            apply replaceRegion_spares free (made.finished write) _ edited
            intro held
            apply heeds.crontabs c
            rw [RewritesInPlace, if_neg write]
            exact ⟨artefact, .region, carried, placed, fun _ => held⟩

theorem Touches.refl (layout : CronLayout) (entry : PlanEntry) (session : Session) :
    Touches layout entry session session :=
  ⟨fun _ => Or.inl rfl, fun _ _ => Or.inl rfl, fun _ _ held => Or.inl held,
    fun _ _ _ held => Or.inl held⟩

theorem Touches.counted (touches : Touches layout entry before after) (calls : Nat) :
    Touches layout entry before { after with calls := calls } :=
  ⟨touches.crontabs, touches.files, touches.heldCrontabs, touches.heldFiles⟩

end Entry

/-! ## Writing -/

section Writing

variable {layout : CronLayout} {entry : PlanEntry} {before : Session} (faults : Faults)

/-- Nothing has been done yet. -/
def Untouched (before session : Session) : Prop :=
  session.host = before.host ∧ session.snapshot = before.snapshot

theorem Untouched.counted {session : Session} (untouched : Untouched before session) (calls : Nat) :
    Untouched before { session with calls := calls } := untouched

theorem Untouched.touches {session : Session} (untouched : Untouched before session) :
    Touches layout entry before session := by
  obtain ⟨host, snapshot⟩ := untouched
  constructor
  · intro c
    rw [host]
    exact Or.inl rfl
  · intro d name
    rw [host]
    exact Or.inl rfl
  · intro c text held
    rw [snapshot] at held
    exact Or.inl held
  · intro d name text held
    rw [snapshot] at held
    exact Or.inl held

/-- A store call that may or may not have taken effect. -/
theorem storeCall_either {pre post : Session → Prop} (effect : Host → Host)
    (done : ∀ session calls, pre session →
      post { session with host := effect session.host, calls := calls })
    (undone : ∀ session calls, pre session → post { session with calls := calls }) :
    Triple pre (storeCall faults effect) (fun _ => post) (fun _ => post) := by
  intro session holds
  unfold storeCall
  cases faults session.calls with
  | none => exact done session _ holds
  | some fault =>
      simp only
      split
      · exact done session _ holds
      · exact undone session _ holds

theorem mem_captureCrontab {session : Session} {c other : CrontabName} {text content : Text}
    (held : (other, text) ∈ (if session.snapshot.crontabs.any (·.1 = c) then session
      else { session with snapshot :=
        { session.snapshot with crontabs := session.snapshot.crontabs ++ [(c, content)] } }
          ).snapshot.crontabs) :
    (other, text) ∈ session.snapshot.crontabs ∨ (other = c ∧ text = content) := by
  split at held
  · exact Or.inl held
  · rcases List.mem_append.mp held with earlier | new
    · exact Or.inl earlier
    · exact Or.inr (Prod.mk.inj (List.mem_singleton.mp new))

/-- The host is as before, and the crontab may have been captured. -/
structure CrontabSeen (before : Session) (c : CrontabName) (session : Session) : Prop where
  host : session.host = before.host
  files : session.snapshot.files = before.snapshot.files
  held : ∀ other text, (other, text) ∈ session.snapshot.crontabs →
    (other, text) ∈ before.snapshot.crontabs ∨ text = before.host.readCrontab other

theorem captureCrontab_seen {c : CrontabName} (text : Text) :
    Triple (fun session => Untouched before session ∧ text = session.host.readCrontab c)
      (captureCrontab c text) (fun _ => CrontabSeen before c) (fun _ => CrontabSeen before c) := by
  rintro session ⟨⟨host, snapshot⟩, read⟩
  simp only [captureCrontab, modify, modifyGet, MonadStateOf.modifyGet, EStateM.modifyGet]
  constructor
  · split <;> exact host
  · rw [← snapshot]
    split <;> rfl
  · intro other held member
    rcases mem_captureCrontab member with earlier | ⟨rfl, rfl⟩
    · rw [snapshot] at earlier
      exact Or.inl earlier
    · rw [read, host]
      exact Or.inr rfl

theorem CrontabSeen.touches {session : Session} {c : CrontabName}
    (seen : CrontabSeen before c session) : Touches layout entry before session := by
  constructor
  · intro other
    rw [seen.host]
    exact Or.inl rfl
  · intro d name
    rw [seen.host]
    exact Or.inl rfl
  · exact seen.held
  · intro d name text held
    rw [seen.files] at held
    exact Or.inl held

/-- Rewriting a seen crontab. -/
theorem writeCrontab_touches {c : CrontabName} {final : Text}
    (rewrites : Rewrites layout entry c (before.host.readCrontab c) final) :
    Triple (CrontabSeen before c) (writeCrontab faults c final)
      (fun _ => Touches layout entry before) (fun _ => Touches layout entry before) := by
  apply storeCall_either
  · intro session calls seen
    have touches := @CrontabSeen.touches layout entry before session c seen
    refine ⟨fun other => ?_, ?_, touches.heldCrontabs, touches.heldFiles⟩
    · rw [Host.writeCrontab_crontab]
      by_cases here : other = c
      · subst here
        rw [if_pos rfl]
        exact Or.inr ⟨final, rfl, rewrites⟩
      · rw [if_neg here, seen.host]
        exact Or.inl rfl
    · intro d name
      rw [Host.writeCrontab_directory, seen.host]
      exact Or.inl rfl
  · intro session calls seen
    exact seen.touches.counted calls

theorem writeArtefactEntry_touches {artefact : DesiredArtefact} (write : entry.change ≠ .remove)
    (carried : entry.artefact = some artefact)
    (crontab : artefact.deployment.strategy.writesAFilePerTask ≠ true) :
    Triple (Untouched before) (writeArtefactEntry faults layout entry artefact)
      (fun _ => Touches layout entry before) (fun _ => Touches layout entry before) := by
  refine Triple.raising_bind (fun c found => ?_) fun _ _ holds => holds.touches
  have placed : placement layout artefact = some (.entry c artefact.form) := by
    rw [placement, if_neg crontab, crontabOf_eq_ok.mp found]
    rfl
  refine Triple.bind ((readCrontab_triple faults c fun session calls holds =>
    holds.counted calls).consequence (fun _ holds => holds) (fun _ _ holds => holds)
      fun _ _ holds => holds.touches) fun original => ?_
  rintro session ⟨untouched, read⟩
  have original_ : original = before.host.readCrontab c := by rw [read, untouched.1]
  have reading : Keeps (Touches layout entry before)
      (readCrontab faults c >>= fun text => raising (deployedEntry layout artefact c text)) :=
    (keeps_readCrontab faults c fun _ calls touches => touches.counted calls).bind
      fun text => keeps_raising _
  have written (step : Except TaskControlError Text)
      (rewrites : ∀ final, step = .ok final →
        Rewrites layout entry c (before.host.readCrontab c) final) :
      Triple (CrontabSeen before c)
        (raising step >>= fun text => writeCrontab faults c text >>= fun _ =>
          readCrontab faults c >>= fun text => raising (deployedEntry layout artefact c text))
        (fun _ => Touches layout entry before) (fun _ => Touches layout entry before) :=
    Triple.raising_bind (fun final edited =>
      Triple.bind (writeCrontab_touches faults (rewrites final edited)) fun _ => reading)
        fun _ _ seen => seen.touches
  refine (Triple.bind ((captureCrontab_seen original).consequence (fun _ holds => holds)
    (fun _ _ holds => holds) fun _ _ holds => holds.touches) fun _ => ?_) session ⟨untouched, read⟩
  dsimp only
  split
  · rename_i single
    apply written
    intro final edited
    rw [Rewrites, if_neg write]
    rw [DesiredArtefact.form, if_pos single] at placed
    exact ⟨artefact, .member, carried, placed, original_ ▸ edited⟩
  · rename_i region
    apply written
    intro final edited
    rw [Rewrites, if_neg write]
    rw [DesiredArtefact.form, if_neg region] at placed
    exact ⟨artefact, .region, carried, placed, original_ ▸ edited⟩

/-- The host is as before, and the file may have been captured. -/
structure FileSeen (before : Session) (d : DirectoryName) (name : Text) (session : Session) :
    Prop where
  host : session.host = before.host
  crontabs : session.snapshot.crontabs = before.snapshot.crontabs
  held : ∀ other key text, (other, key, text) ∈ session.snapshot.files →
    (other, key, text) ∈ before.snapshot.files ∨ (other = d ∧ key = name)

theorem captureFile_seen {d : DirectoryName} {name : Text} (text : Text) :
    Triple (Untouched before) (captureFile d name text) (fun _ => FileSeen before d name)
      (fun _ => FileSeen before d name) := by
  rintro session ⟨host, snapshot⟩
  simp only [captureFile, modify, modifyGet, MonadStateOf.modifyGet, EStateM.modifyGet]
  constructor
  · split <;> exact host
  · rw [← snapshot]
    split <;> rfl
  · intro other key held member
    rw [← snapshot]
    split at member
    · exact Or.inl member
    · rcases List.mem_append.mp member with earlier | new
      · exact Or.inl earlier
      · obtain ⟨rfl, rest⟩ := Prod.mk.inj (List.mem_singleton.mp new)
        exact Or.inr ⟨rfl, (Prod.mk.inj rest).1⟩

theorem FileSeen.touches {session : Session} {d : DirectoryName} {name : Text}
    (seen : FileSeen before d name session) (acts : ActsOn layout entry before.host d name) :
    Touches layout entry before session := by
  constructor
  · intro c
    rw [seen.host]
    exact Or.inl rfl
  · intro other key
    rw [seen.host]
    exact Or.inl rfl
  · intro c text held
    rw [seen.crontabs] at held
    exact Or.inl held
  · intro other key text held
    rcases seen.held other key text held with earlier | ⟨rfl, rfl⟩
    · exact Or.inl earlier
    · exact Or.inr acts

/-- A call on a file that the entry acts on. -/
theorem fileCall_touches {d : DirectoryName} {name : Text} {effect : Host → Host}
    (acts : ActsOn layout entry before.host d name)
    (crontabs : ∀ host c, (effect host).crontab c = host.crontab c)
    (others : ∀ host other key, ¬ (other = d ∧ name = key) →
      ((effect host).directory other).find key = (host.directory other).find key) :
    Keeps (Touches layout entry before) (do resolve name; storeCall faults effect) := by
  refine Keeps.bind ((keeps_resolve name).consequence (fun _ touches => touches)
    (fun _ _ touches => touches.1) fun _ _ touches => touches) fun _ => ?_
  refine keeps_storeCall faults _ (fun _ calls touches => touches.counted calls) ?_
  intro session touches
  refine ⟨fun c => ?_, fun other key => ?_, touches.heldCrontabs, touches.heldFiles⟩
  · rw [crontabs]
    exact touches.crontabs c
  · by_cases here : other = d ∧ name = key
    · obtain ⟨rfl, rfl⟩ := here
      exact Or.inr acts
    · rw [others _ _ _ here]
      exact touches.files other key

theorem writeArtefactFile_touches {artefact : DesiredArtefact} (write : entry.change ≠ .remove)
    (carried : entry.artefact = some artefact)
    (file : artefact.deployment.strategy.writesAFilePerTask = true) :
    Triple (Untouched before) (writeArtefactFile faults layout entry artefact)
      (fun _ => Touches layout entry before) (fun _ => Touches layout entry before) := by
  refine Triple.raising_bind (fun d found => ?_) fun _ _ holds => holds.touches
  have acts : ActsOn layout entry before.host d artefact.slug := by
    rw [ActsOn, if_neg write]
    refine ⟨artefact, carried, ?_, rfl⟩
    rw [placement, if_pos file, directoryOf_eq_ok.mp found]
    rfl
  refine Triple.bind ((readFile_triple faults d artefact.slug fun session calls holds =>
    holds.counted calls).consequence (fun _ holds => holds) (fun _ _ holds => holds.1.1)
      fun _ _ holds => holds.touches) fun text => ?_
  refine Triple.bind ((captureFile_seen text).consequence (fun _ holds => holds)
    (fun _ _ seen => seen.touches acts) fun _ _ seen => seen.touches acts) fun _ => ?_
  have wrote : Keeps (Touches layout entry before)
      (writeFile faults d artefact.slug entry.after
        (artefact.deployment.strategy = .runPartsDirectory)) :=
    fileCall_touches faults acts (fun _ _ => rfl) fun host other key differs => by
      rw [Host.writeFile_find, if_neg differs]
  exact wrote.bind fun _ => keeps_readFile faults d artefact.slug fun _ calls touches =>
    touches.counted calls

theorem applyWrite_touches (write : entry.change ≠ .remove) :
    Triple (Untouched before) (applyWrite faults layout entry)
      (fun _ => Touches layout entry before) (fun _ => Touches layout entry before) := by
  unfold applyWrite
  cases carried : entry.artefact with
  | none => exact fun _ holds => holds.touches
  | some artefact =>
      have verify (message : String) (written : Text) : Keeps (Touches layout entry before)
          (if strip written ≠ strip entry.after then verificationFailed message
            else pure () : StoreM Unit) :=
        keeps_ite (fun _ => keeps_verificationFailed message) fun _ => keeps_pure _ _
      dsimp only
      split
      · rename_i file
        exact Triple.bind (writeArtefactFile_touches faults write carried file) fun _ => verify _ _
      · rename_i crontab
        exact Triple.bind (writeArtefactEntry_touches faults write carried crontab) fun _ =>
          verify _ _

/-! ## Removing -/

theorem configuredCrontabs_nodup (layout : CronLayout) : layout.configuredCrontabs.Nodup := by
  unfold CronLayout.configuredCrontabs
  split <;> split <;> decide

/-- Between the rounds of a removal, the crontabs still to come are as before. -/
structure Rounds (layout : CronLayout) (entry : PlanEntry) (before : Session)
    (rest : List CrontabName) (session : Session) : Prop where
  touches : Touches layout entry before session
  rest : ∀ c ∈ rest, session.host.crontab c = before.host.crontab c
  directories : session.host.directory = before.host.directory

theorem Rounds.counted {rest : List CrontabName} {session : Session}
    (rounds : Rounds layout entry before rest session) (calls : Nat) :
    Rounds layout entry before rest { session with calls := calls } :=
  ⟨rounds.touches.counted calls, rounds.rest, rounds.directories⟩

theorem Rounds.later {c : CrontabName} {rest : List CrontabName} {session : Session}
    (rounds : Rounds layout entry before (c :: rest) session) :
    Rounds layout entry before rest session :=
  ⟨rounds.touches, fun other member => rounds.rest other (List.mem_cons_of_mem c member),
    rounds.directories⟩

theorem Rounds.capture {c : CrontabName} {rest : List CrontabName} (text : Text) :
    Triple (fun session => Rounds layout entry before (c :: rest) session ∧
        text = session.host.readCrontab c)
      (captureCrontab c text) (fun _ => Rounds layout entry before (c :: rest))
      (fun _ => Rounds layout entry before (c :: rest)) := by
  rintro session ⟨rounds, read⟩
  simp only [captureCrontab, modify, modifyGet, MonadStateOf.modifyGet, EStateM.modifyGet]
  have here : text = before.host.readCrontab c := by
    rw [read, Host.readCrontab, Host.readCrontab, rounds.rest c List.mem_cons_self]
  have host : (if session.snapshot.crontabs.any (·.1 = c) then session
      else { session with snapshot :=
        { session.snapshot with crontabs := session.snapshot.crontabs ++ [(c, text)] } }).host =
          session.host := by split <;> rfl
  have files : (if session.snapshot.crontabs.any (·.1 = c) then session
      else { session with snapshot :=
        { session.snapshot with crontabs := session.snapshot.crontabs ++ [(c, text)] } }
          ).snapshot.files = session.snapshot.files := by split <;> rfl
  refine ⟨⟨?_, ?_, ?_, ?_⟩, ?_, ?_⟩
  · rw [host]
    exact rounds.touches.crontabs
  · rw [host]
    exact rounds.touches.files
  · intro other held member
    rcases mem_captureCrontab member with earlier | ⟨rfl, rfl⟩
    · exact rounds.touches.heldCrontabs other held earlier
    · exact Or.inr here
  · rw [files]
    exact rounds.touches.heldFiles
  · rw [host]
    exact rounds.rest
  · rw [host]
    exact rounds.directories

theorem removeFromCrontab_rounds (removal : entry.change = .remove) {c : CrontabName}
    {rest : List CrontabName} (fresh : c ∉ rest) :
    Triple (Rounds layout entry before (c :: rest)) (removeFromCrontab faults layout entry.slug c)
      (fun _ => Rounds layout entry before rest) (fun _ => Touches layout entry before) := by
  refine Triple.bind ((readCrontab_triple faults c fun session calls rounds =>
    rounds.counted calls).consequence (fun _ rounds => rounds) (fun _ _ holds => holds)
      fun _ _ rounds => rounds.touches) fun original => ?_
  refine Triple.raising_bind (fun forms found => ?_) fun _ _ holds => holds.1.touches
  obtain ⟨inRegion, inBlock⟩ := forms
  dsimp only
  split
  · rename_i held
    rintro session ⟨rounds, read⟩
    have original_ : original = before.host.readCrontab c := by
      rw [read, Host.readCrontab, Host.readCrontab, rounds.rest c List.mem_cons_self]
    have after (message : String) : Triple (Rounds layout entry before rest)
        (readCrontab faults c >>= fun after => raising (stillHeld entry.slug after) >>= fun still =>
          if still = true then verificationFailed message else pure ())
        (fun _ => Rounds layout entry before rest) (fun _ => Touches layout entry before) :=
      ((keeps_readCrontab faults c fun _ calls rounds => rounds.counted calls).bind fun text =>
        (keeps_raising _).bind fun still =>
          keeps_ite (fun _ => keeps_verificationFailed message) fun _ => keeps_pure _ _).consequence
        (fun _ rounds => rounds) (fun _ _ rounds => rounds) fun _ _ rounds => rounds.touches
    have write (final : Text)
        (removed : withoutEntry entry.slug inRegion inBlock original = .ok final) :
        Triple (Rounds layout entry before (c :: rest)) (writeCrontab faults c final)
          (fun _ => Rounds layout entry before rest) (fun _ => Rounds layout entry before rest) := by
      apply storeCall_either
      · intro session calls rounds
        refine ⟨⟨fun other => ?_, rounds.touches.files, rounds.touches.heldCrontabs,
          rounds.touches.heldFiles⟩, fun other member => ?_, rounds.directories⟩
        · rw [Host.writeCrontab_crontab]
          split
          · rename_i here
            subst here
            refine Or.inr ⟨final, rfl, ?_⟩
            rw [Rewrites, if_pos removal]
            exact ⟨inRegion, inBlock, original_ ▸ found, held, original_ ▸ removed⟩
          · exact rounds.touches.crontabs other
        · have differs : other ≠ c := fun same => fresh (same ▸ member)
          rw [Host.writeCrontab_crontab, if_neg differs]
          exact rounds.rest other (List.mem_cons_of_mem c member)
      · intro session calls rounds
        exact rounds.later.counted calls
    refine (Triple.bind ((Rounds.capture original).consequence (fun _ holds => holds)
      (fun _ _ holds => holds) fun _ _ rounds => rounds.touches) fun _ => ?_) session ⟨rounds, read⟩
    refine Triple.raising_bind (fun final removed => ?_) fun _ _ rounds => rounds.touches
    exact Triple.bind ((write final removed).consequence (fun _ rounds => rounds)
      (fun _ _ rounds => rounds) fun _ _ rounds => rounds.touches) fun _ => after _
  · exact fun session holds => holds.1.later

theorem captureFile_touches {d : DirectoryName} {name : Text} (text : Text)
    (acts : ActsOn layout entry before.host d name) :
    Keeps (Touches layout entry before) (captureFile d name text) := by
  intro session touches
  simp only [captureFile, modify, modifyGet, MonadStateOf.modifyGet, EStateM.modifyGet]
  split
  · exact touches
  · refine ⟨touches.crontabs, touches.files, touches.heldCrontabs, fun other key held member => ?_⟩
    rcases List.mem_append.mp member with earlier | new
    · exact touches.heldFiles other key held earlier
    · obtain ⟨rfl, rest⟩ := Prod.mk.inj (List.mem_singleton.mp new)
      rw [(Prod.mk.inj rest).1]
      exact Or.inr acts

theorem removeFromDirectory_touches (removal : entry.change = .remove) {d : DirectoryName}
    (configured : d ∈ layout.configuredDirectories) :
    Keeps (Touches layout entry before) (removeFromDirectory faults layout entry.slug d) := by
  refine Triple.bind (readFile_triple faults d entry.slug fun _ calls touches =>
    touches.counted calls) fun content => ?_
  by_cases present : content ≠ []
  · simp only [present, if_true, ne_eq, not_false_eq_true]
    refine Triple.raising_bind (fun regions found => ?_) fun _ _ holds => holds.1.1
    by_cases marked : regions ≠ []
    · simp only [marked, if_true, not_false_eq_true]
      rintro session ⟨⟨touches, plain⟩, read⟩
      have acts : ActsOn layout entry before.host d entry.slug := by
        rcases touches.files d entry.slug with same | acts
        · rw [ActsOn, if_pos removal]
          refine ⟨configured, rfl, ?_⟩
          have content_ : before.host.readFile d entry.slug = content := by
            rw [read, Host.readFile, Host.readFile, same]
          obtain ⟨region, others, rfl⟩ := List.exists_cons_of_ne_nil marked
          rw [content_, isManaged, found]
        · exact acts
      have check (message : String) : Keeps (Touches layout entry before)
          (readFile faults d entry.slug >>= fun after =>
            if ¬ after = [] then verificationFailed message else pure ()) :=
        (keeps_readFile faults d entry.slug fun _ calls touches => touches.counted calls).bind
          fun after => keeps_ite (fun _ => keeps_verificationFailed message) fun _ => keeps_pure _ _
      have removed : Keeps (Touches layout entry before) (removeFile faults d entry.slug) :=
        fileCall_touches faults acts (fun _ _ => rfl) fun host other key differs => by
          rw [Host.removeFile_find, if_neg differs]
      exact ((captureFile_touches content acts).bind fun _ => removed.bind fun _ => check _)
        session touches
    · simp only [marked, if_false]
      exact fun session holds => holds.1.1
  · simp only [present, if_false]
    exact fun session holds => holds.1.1

theorem applyRemoval_touches (removal : entry.change = .remove) :
    Triple (Untouched before) (applyRemoval faults layout entry)
      (fun _ => Touches layout entry before) (fun _ => Touches layout entry before) := by
  have crontabs (rest : List CrontabName) (distinct : rest.Nodup) :
      Triple (Rounds layout entry before rest)
        (rest.forM (removeFromCrontab faults layout entry.slug))
        (fun _ => Touches layout entry before) (fun _ => Touches layout entry before) := by
    induction rest with
    | nil => exact fun _ rounds => rounds.touches
    | cons c rest ih =>
        obtain ⟨fresh, distinct⟩ := List.nodup_cons.mp distinct
        exact Triple.bind (removeFromCrontab_rounds faults removal fresh) fun _ => ih distinct
  refine Triple.bind ((crontabs _ (configuredCrontabs_nodup layout)).consequence ?_
    (fun _ _ touches => touches) fun _ _ touches => touches) fun _ => ?_
  · rintro session untouched
    refine ⟨untouched.touches, fun c _ => ?_, ?_⟩
    · rw [untouched.1]
    · rw [untouched.1]
  · exact keeps_forM _ _ fun d configured => removeFromDirectory_touches faults removal configured

/-- What an entry does, however it ends and whatever calls fail. -/
theorem applyEntry_touches (layout : CronLayout) (entry : PlanEntry) (before : Session) :
    Triple (Untouched before) (applyEntry faults layout entry)
      (fun _ => Touches layout entry before) (fun _ => Touches layout entry before) := by
  unfold applyEntry
  split
  · rename_i removal
    exact applyRemoval_touches faults removal
  · rename_i write
    exact applyWrite_touches faults write

end Writing

/-! ## The entries of an apply -/

/-- An entry that `apply` came to, with the sessions before and after it. -/
structure AppliedStep where
  entry : PlanEntry
  before : Session
  after : Session

/-- The entries up to the one that fails. -/
def applySteps (faults : Faults) (layout : CronLayout) : List PlanEntry → Session → List AppliedStep
  | [], _ => []
  | entry :: rest, session =>
      match applyEntry faults layout entry session with
      | .ok _ after => ⟨entry, session, after⟩ :: applySteps faults layout rest after
      | .error _ after => [⟨entry, session, after⟩]

/-- The session that the last step left. -/
def lastSession (start : Session) (steps : List AppliedStep) : Session :=
  (steps.getLast?.map AppliedStep.after).getD start

/-- What is found in the stores at the end, after a rollback or not: each crontab has the text
that the last entry left or one that an entry found, and each file that was at first foreign to
every entry that was come to is as it was. -/
structure Unwound (start : Session) (steps : List AppliedStep) (final : Session) : Prop where
  crontabs : ∀ c, final.host.crontab c = (lastSession start steps).host.crontab c ∨
    ∃ step ∈ steps, final.host.crontab c = some (step.before.host.readCrontab c)
  files : ∀ d name, (∀ step ∈ steps, ForeignFile start.host step.entry.taskId d name) →
    (final.host.directory d).find name = (start.host.directory d).find name

section Steps

variable {layout : CronLayout} (faults : Faults)

theorem applySteps_touches (entries : List PlanEntry) (session : Session) :
    ∀ step ∈ applySteps faults layout entries session,
      Touches layout step.entry step.before step.after ∧ step.entry ∈ entries := by
  induction entries generalizing session with
  | nil => simp [applySteps]
  | cons entry rest ih =>
      have touched := applyEntry_touches faults layout entry session session ⟨rfl, rfl⟩
      intro step member
      rw [applySteps] at member
      cases ran : applyEntry faults layout entry session with
      | ok _ after =>
          rw [ran] at member touched
          rcases List.mem_cons.mp member with rfl | later
          · exact ⟨touched, List.mem_cons_self⟩
          · obtain ⟨touches, inRest⟩ := ih after step later
            exact ⟨touches, List.mem_cons_of_mem entry inRest⟩
      | error _ after =>
          rw [ran] at member touched
          rw [List.mem_singleton.mp member]
          exact ⟨touched, List.mem_cons_self⟩

/-- What holds between two entries: the session is the one that the last entry left, and what
the snapshot holds is what an entry found and no foreign file. -/
structure Between (start : Session) (steps : List AppliedStep) (session : Session) : Prop where
  last : lastSession start steps = session
  heldCrontabs : ∀ c text, (c, text) ∈ session.snapshot.crontabs →
    ∃ step ∈ steps, text = step.before.host.readCrontab c
  files : ∀ d name, (∀ step ∈ steps, ForeignFile start.host step.entry.taskId d name) →
    (session.host.directory d).find name = (start.host.directory d).find name
  heldFiles : ∀ d name text, (∀ step ∈ steps, ForeignFile start.host step.entry.taskId d name) →
    (d, name, text) ∉ session.snapshot.files

theorem between_start (host : Host) : Between (.start host) [] (.start host) :=
  ⟨rfl, by simp [Session.start], fun _ _ _ => rfl, by simp [Session.start]⟩

theorem ForeignFile.of_same {host host' : Host} {taskId : TaskId} {d : DirectoryName} {name : Text}
    (foreign : ForeignFile host taskId d name)
    (same : (host'.directory d).find name = (host.directory d).find name) :
    ForeignFile host' taskId d name := by
  have read : host'.readFile d name = host.readFile d name := by
    rw [Host.readFile, Host.readFile, same]
  obtain ⟨there, unmarked⟩ := foreign
  rw [← same] at there
  rw [← read] at unmarked
  exact ⟨there, unmarked⟩

/-- One more entry that is heeded. -/
theorem Between.step {start before after : Session} {steps : List AppliedStep} {entry : PlanEntry}
    (between : Between start steps before) (touches : Touches layout entry before after)
    (heeds : Heeds layout entry before.host) :
    Between start (steps ++ [⟨entry, before, after⟩]) after := by
  have spared (d : DirectoryName) (name : Text)
      (foreign : ∀ step ∈ steps ++ [⟨entry, before, after⟩],
        ForeignFile start.host step.entry.taskId d name) :
      (before.host.directory d).find name = (start.host.directory d).find name ∧
        ¬ ActsOn layout entry before.host d name := by
    have same := between.files d name fun step member =>
      foreign step (List.mem_append_left _ member)
    have here := foreign ⟨entry, before, after⟩ (by simp)
    exact ⟨same, fun acts => heeds.files d name acts (here.of_same same)⟩
  constructor
  · simp [lastSession]
  · intro c text held
    rcases touches.heldCrontabs c text held with earlier | found
    · obtain ⟨step, member, read⟩ := between.heldCrontabs c text earlier
      exact ⟨step, List.mem_append_left _ member, read⟩
    · exact ⟨⟨entry, before, after⟩, by simp, found⟩
  · intro d name foreign
    obtain ⟨same, idle⟩ := spared d name foreign
    rcases touches.files d name with kept | acts
    · rw [kept, same]
    · exact absurd acts idle
  · intro d name text foreign held
    obtain ⟨_, idle⟩ := spared d name foreign
    rcases touches.heldFiles d name text held with earlier | acts
    · exact between.heldFiles d name text
        (fun step member => foreign step (List.mem_append_left _ member)) earlier
    · exact idle acts

theorem Between.unwound {start session : Session} {steps : List AppliedStep}
    (between : Between start steps session) : Unwound start steps session :=
  ⟨fun c => Or.inl (by rw [between.last]), between.files⟩

/-! ## Rolling back -/

theorem Unwound.counted {start final : Session} {steps : List AppliedStep}
    (unwound : Unwound start steps final) (calls : Nat) :
    Unwound start steps { final with calls := calls } :=
  ⟨unwound.crontabs, unwound.files⟩

/-- Putting back a crontab that an entry found. -/
theorem keeps_restoreCrontab {start : Session} {steps : List AppliedStep} {c : CrontabName}
    {text : Text} (found : ∃ step ∈ steps, text = step.before.host.readCrontab c) :
    Keeps (Unwound start steps) (writeCrontab faults c text) := by
  apply keeps_storeCall faults _ fun _ calls unwound => unwound.counted calls
  intro session unwound
  constructor
  · intro other
    rw [Host.writeCrontab_crontab]
    by_cases here : other = c
    · subst here
      obtain ⟨step, member, read⟩ := found
      rw [if_pos rfl]
      exact Or.inr ⟨step, member, by rw [read]⟩
    · rw [if_neg here]
      exact unwound.crontabs other
  · exact unwound.files

/-- Putting back a file that is foreign to no entry. -/
theorem keeps_restoreFile {start : Session} {steps : List AppliedStep} {d : DirectoryName}
    {name content : Text}
    (own : ¬ ∀ step ∈ steps, ForeignFile start.host step.entry.taskId d name) :
    Keeps (Unwound start steps)
      (if content ≠ [] then writeFile faults d name content (looksExecutable content)
        else removeFile faults d name) := by
  have call (effect : Host → Host) (crontabs : ∀ host, (effect host).crontab = host.crontab)
      (others : ∀ host other key, ¬ (other = d ∧ name = key) →
        ((effect host).directory other).find key = (host.directory other).find key) :
      Keeps (Unwound start steps) (do resolve name; storeCall faults effect) := by
    refine Keeps.bind ((keeps_resolve name).consequence (fun _ unwound => unwound)
      (fun _ _ unwound => unwound.1) fun _ _ unwound => unwound) fun _ => ?_
    apply keeps_storeCall faults _ fun _ calls unwound => unwound.counted calls
    intro session unwound
    constructor
    · rw [crontabs]
      exact unwound.crontabs
    · intro other key foreign
      have elsewhere : ¬ (other = d ∧ name = key) := by
        rintro ⟨rfl, rfl⟩
        exact own foreign
      rw [others _ _ _ elsewhere]
      exact unwound.files other key foreign
  have write : Keeps (Unwound start steps)
      (writeFile faults d name content (looksExecutable content)) :=
    call _ (fun _ => rfl) fun host other key elsewhere => by
      rw [Host.writeFile_find, if_neg elsewhere]
  have remove : Keeps (Unwound start steps) (removeFile faults d name) :=
    call _ (fun _ => rfl) fun host other key elsewhere => by
      rw [Host.removeFile_find, if_neg elsewhere]
  exact keeps_ite (fun _ => write) fun _ => remove

theorem restore_unwound {start session : Session} {steps : List AppliedStep}
    (between : Between start steps session) :
    Ends (restore faults) session (fun _ => Unwound start steps) (fun _ => Unwound start steps) := by
  have crontabs : Keeps (Unwound start steps)
      (session.snapshot.crontabs.reverse.forM fun item => writeCrontab faults item.1 item.2) :=
    keeps_forM _ _ fun item member => keeps_restoreCrontab faults
      (between.heldCrontabs item.1 item.2 (List.mem_reverse.mp member))
  have files : Keeps (Unwound start steps)
      (session.snapshot.files.reverse.forM fun item =>
        if item.2.2 ≠ [] then
          writeFile faults item.1 item.2.1 item.2.2 (looksExecutable item.2.2)
        else removeFile faults item.1 item.2.1) :=
    keeps_forM _ _ fun item member => keeps_restoreFile faults fun foreign =>
      between.heldFiles item.1 item.2.1 item.2.2 foreign (List.mem_reverse.mp member)
  exact (crontabs.bind fun _ => files) session between.unwound

theorem rollBack_unwound {start session : Session} {steps : List AppliedStep}
    (between : Between start steps session) (entry : PlanEntry) (error : Raised) :
    Ends (rollBack faults entry error) session (fun _ => Unwound start steps)
      (fun _ => Unwound start steps) := by
  apply Ends.handle
  apply Ends.bind
  apply (restore_unwound faults between).mono fun _ _ unwound => unwound
  intro rollbackError final unwound
  cases rollbackError.isException with
  | true => exact unwound
  | false => exact unwound

/-- The loop from any point of it on, where each entry that it comes to is heeded. -/
theorem applyEntries_unwound {start session : Session} {steps : List AppliedStep}
    (applied entries : List PlanEntry) (between : Between start steps session)
    (heeded : ∀ step ∈ applySteps faults layout entries session,
      Heeds layout step.entry step.before.host) :
    Ends (applyEntries faults layout applied entries) session
      (fun _ => Unwound start (steps ++ applySteps faults layout entries session))
      (fun _ => Unwound start (steps ++ applySteps faults layout entries session)) := by
  induction entries generalizing applied session steps with
  | nil =>
      rw [applySteps, List.append_nil]
      exact between.unwound
  | cons entry rest ih =>
      have touched := applyEntry_touches faults layout entry session session ⟨rfl, rfl⟩
      rw [applySteps] at heeded ⊢
      apply Ends.bind
      apply Ends.handle
      apply Ends.bind
      cases ran : applyEntry faults layout entry session with
      | ok _ after =>
          rw [ran] at heeded touched
          have next := between.step touched (heeded _ List.mem_cons_self)
          apply (ends_of_ok ran).mpr
          have later := ih (applied ++ [entry]) next fun step member =>
            heeded step (List.mem_cons_of_mem _ member)
          rw [List.append_assoc] at later
          exact later
      | error error after =>
          rw [ran] at heeded touched
          have next := between.step touched (heeded _ List.mem_cons_self)
          apply (ends_of_error ran).mpr
          cases error.isException with
          | true => exact rollBack_unwound faults next entry error
          | false => exact next.unwound

end Steps

/-- A crontab in which an administrator has written meanwhile. -/
def editedHost : Host := bareHost.writeCrontab .user "MAILTO=ops\n".toList

theorem cronDLayout_distinct :
    (([] : List (PeriodicClassification × String)).map Prod.fst).Nodup := List.nodup_nil

def cronDLayout : CronLayout := ⟨none, none, some "/etc/cron.d", [], cronDLayout_distinct⟩

theorem cronDFile_permitted :
    DeploymentTarget.cronD ∈ DeploymentStrategy.cronDFile.permittedTargets := by decide

theorem cronDFile_unclassified : DeploymentStrategy.cronDFile = .runPartsDirectory →
    (none : Option PeriodicClassification) ≠ none := by decide

theorem unnamed_user : ∀ user ∈ (none : Option Text),
    LinePattern.Token user ∧ user.length ≤ maxExecutionUserLength := by simp

theorem unnamed_expressed : (none : Option Text) ≠ none →
    DeploymentTarget.cronD.expressesExecutionUser = true := by simp

/-- A file of its own in the system directory. -/
def ownFile : DeploymentSpecification where
  strategy := .cronDFile
  target := .cronD
  classification := none
  executionUser := none
  permitted := cronDFile_permitted
  classified := cronDFile_unclassified
  named := unnamed_user
  expressed := unnamed_expressed

def administratorsFile : Text := "0 5 * * * root /usr/local/sbin/backup\n".toList

/-- The administrator has put a file of the same name in place. -/
def takenHost : Host :=
  bareHost.writeFile .cronD "nightly-backup".toList ⟨administratorsFile, false⟩

/-- Whether applying the plan made on the bare host succeeds, and what the file then reads. -/
def takenFile : Option (Bool × Text) :=
  match plan cronDLayout bareHost [nightlyBackup ownFile] with
  | .error _ => none
  | .ok deployment =>
      match apply quietStores cronDLayout deployment (.start takenHost) with
      | .error _ _ => none
      | .ok result session =>
          some (result.succeeded, session.host.readFile .cronD "nightly-backup".toList)

end TaskControl.Cron
