import TaskControl.Cron.Manager
import TaskControl.Cron.UserText

/-!
# Rollback

What `_Snapshot` remembers of a store is its text, and an empty text stands for
an absent file.  So a rollback puts a host back exactly when every crontab is
present, every file has content, no text has a carriage return and a shebang
tells each file's mode; `rollback_exact_iff` says that no other host is safe.
-/

set_option autoImplicit false

namespace TaskControl.Cron

open PythonText Effects

/-- A host whose configured stores the snapshot can describe. -/
structure Restorable (layout : CronLayout) (host : Host) : Prop where
  crontabs : ∀ c ∈ layout.configuredCrontabs, ∃ text, host.crontab c = some text ∧ '\r' ∉ text
  files : ∀ d ∈ layout.configuredDirectories, ∀ name file, plainName name = true →
    (host.directory d).find name = some file →
      file.content ≠ [] ∧ '\r' ∉ file.content ∧ file.executable = looksExecutable file.content

/-! ## The invariant of an apply -/

/-- Every store still as it was is untouched or captured with the text it had. -/
structure Captured (layout : CronLayout) (start : Host) (session : Session) : Prop where
  crontabs : ∀ c, (∀ text, (c, text) ∉ session.snapshot.crontabs) →
    session.host.crontab c = start.crontab c
  files : ∀ d name, (∀ text, (d, name, text) ∉ session.snapshot.files) →
    (session.host.directory d).find name = (start.directory d).find name
  heldCrontabs : ∀ c text, (c, text) ∈ session.snapshot.crontabs →
    c ∈ layout.configuredCrontabs ∧ text = start.readCrontab c
  heldFiles : ∀ d name text, (d, name, text) ∈ session.snapshot.files →
    d ∈ layout.configuredDirectories ∧ plainName name = true ∧ text = start.readFile d name

/-- The invariant, with the crontab captured. -/
def HasCrontab (layout : CronLayout) (start : Host) (c : CrontabName) (session : Session) :
    Prop :=
  Captured layout start session ∧ ∃ text, (c, text) ∈ session.snapshot.crontabs

/-- The invariant, with the file captured. -/
def HasFile (layout : CronLayout) (start : Host) (d : DirectoryName) (name : Text)
    (session : Session) : Prop :=
  Captured layout start session ∧ ∃ text, (d, name, text) ∈ session.snapshot.files

theorem captured_start (layout : CronLayout) (host : Host) :
    Captured layout host (.start host) :=
  ⟨fun _ _ => rfl, fun _ _ _ => rfl, by simp [Session.start], by simp [Session.start]⟩

/-- A property of host and snapshot survives a call whose effect keeps it. -/
theorem keeps_storeCall {invariant : Session → Prop} (faults : Faults) (effect : Host → Host)
    (counted : ∀ session calls, invariant session → invariant { session with calls := calls })
    (kept : ∀ session, invariant session →
      invariant { session with host := effect session.host }) :
    Keeps invariant (storeCall faults effect) := by
  intro session holds
  have done := counted _ (session.calls + 1) (kept session holds)
  have undone := counted _ (session.calls + 1) holds
  unfold storeCall
  cases faults session.calls with
  | none => exact done
  | some fault =>
      simp only
      split
      · exact done
      · exact undone

theorem Captured.counted {layout : CronLayout} {start : Host} {session : Session} (calls : Nat)
    (captured : Captured layout start session) :
    Captured layout start { session with calls := calls } :=
  ⟨captured.crontabs, captured.files, captured.heldCrontabs, captured.heldFiles⟩

theorem HasCrontab.counted {layout : CronLayout} {start : Host} {c : CrontabName}
    {session : Session} (calls : Nat) (has : HasCrontab layout start c session) :
    HasCrontab layout start c { session with calls := calls } :=
  ⟨has.1.counted calls, has.2⟩

theorem HasFile.counted {layout : CronLayout} {start : Host} {d : DirectoryName} {name : Text}
    {session : Session} (calls : Nat) (has : HasFile layout start d name session) :
    HasFile layout start d name { session with calls := calls } :=
  ⟨has.1.counted calls, has.2⟩

section Steps

variable {layout : CronLayout} {start : Host} (faults : Faults)

theorem keeps_raising {α : Type} {invariant : Session → Prop}
    (step : Except TaskControlError α) : Keeps invariant (raising step) := by
  cases step with
  | ok a => exact keeps_pure invariant a
  | error problem => exact keeps_throw invariant (Raised.taskControl problem)

theorem keeps_verificationFailed {α : Type} {invariant : Session → Prop} (message : String) :
    Keeps invariant (verificationFailed message : StoreM α) :=
  keeps_throw invariant (Raised.other message)

theorem readCrontab_triple {invariant : Session → Prop} (c : CrontabName)
    (counted : ∀ session calls, invariant session → invariant { session with calls := calls }) :
    Triple invariant (readCrontab faults c)
      (fun text session => invariant session ∧ text = session.host.readCrontab c)
      (fun _ session => invariant session) := by
  have called : Keeps invariant (storeCall faults id) :=
    keeps_storeCall faults id counted fun _ holds => holds
  exact Triple.bind called fun _ session holds => ⟨holds, rfl⟩

theorem keeps_resolve {invariant : Session → Prop} (name : Text) :
    Triple invariant (resolve name) (fun _ session => invariant session ∧ plainName name = true)
      (fun _ session => invariant session) := by
  intro session holds
  unfold resolve
  cases plain : plainName name with
  | true => exact ⟨holds, rfl⟩
  | false => exact holds

theorem readFile_triple {invariant : Session → Prop} (d : DirectoryName) (name : Text)
    (counted : ∀ session calls, invariant session → invariant { session with calls := calls }) :
    Triple invariant (readFile faults d name)
      (fun text session => (invariant session ∧ plainName name = true) ∧
        text = session.host.readFile d name)
      (fun _ session => invariant session) := by
  have called : Keeps (fun session => invariant session ∧ plainName name = true)
      (storeCall faults id) :=
    keeps_storeCall faults id (fun session calls holds => ⟨counted session calls holds.1, holds.2⟩)
      fun _ holds => holds
  refine Triple.bind (keeps_resolve name) fun _ => ?_
  refine Triple.bind (called.consequence (fun _ holds => holds) (fun _ _ holds => holds)
    fun _ _ holds => holds.1) fun _ => ?_
  exact fun session holds => ⟨holds, rfl⟩

theorem captureCrontab_triple {c : CrontabName} (text : Text)
    (configured : c ∈ layout.configuredCrontabs) :
    Triple (fun session => Captured layout start session ∧ text = session.host.readCrontab c)
      (captureCrontab c text) (fun _ => HasCrontab layout start c)
      (fun _ => Captured layout start) := by
  rintro session ⟨captured, read⟩
  simp only [captureCrontab, modify, modifyGet, MonadStateOf.modifyGet, EStateM.modifyGet]
  cases known : session.snapshot.crontabs.any (·.1 = c) with
  | true =>
      obtain ⟨held, member, same⟩ := List.any_eq_true.mp known
      obtain rfl : held.1 = c := by simpa using same
      exact ⟨captured, held.2, member⟩
  | false =>
      have unheld : ∀ other, (c, other) ∉ session.snapshot.crontabs := by
        intro other member
        have found : session.snapshot.crontabs.any (·.1 = c) = true :=
          List.any_eq_true.mpr ⟨(c, other), member, by simp⟩
        rw [known] at found
        cases found
      have original : text = start.readCrontab c := by
        rw [read, Host.readCrontab, Host.readCrontab, captured.crontabs c unheld]
      refine ⟨⟨?_, captured.files, ?_, captured.heldFiles⟩, text, by simp⟩
      · intro other absent
        exact captured.crontabs other fun held member => absent held (by simp [member])
      · intro other held member
        rcases List.mem_append.mp member with earlier | new
        · exact captured.heldCrontabs other held earlier
        · obtain ⟨rfl, rfl⟩ : other = c ∧ held = text := by simpa using new
          exact ⟨configured, original⟩

theorem captureFile_triple {d : DirectoryName} {name : Text} (text : Text)
    (configured : d ∈ layout.configuredDirectories) :
    Triple (fun session => (Captured layout start session ∧ plainName name = true) ∧
        text = session.host.readFile d name)
      (captureFile d name text) (fun _ => HasFile layout start d name)
      (fun _ => Captured layout start) := by
  rintro session ⟨⟨captured, plain⟩, read⟩
  simp only [captureFile, modify, modifyGet, MonadStateOf.modifyGet, EStateM.modifyGet]
  cases known : session.snapshot.files.any (fun held => held.1 = d ∧ held.2.1 = name) with
  | true =>
      obtain ⟨⟨d', name', held⟩, member, same⟩ := List.any_eq_true.mp known
      obtain ⟨rfl, rfl⟩ : d' = d ∧ name' = name := by simpa using same
      exact ⟨captured, held, member⟩
  | false =>
      have unheld : ∀ other, (d, name, other) ∉ session.snapshot.files := by
        intro other member
        have found : session.snapshot.files.any (fun held => held.1 = d ∧ held.2.1 = name) = true :=
          List.any_eq_true.mpr ⟨(d, name, other), member, by simp⟩
        rw [known] at found
        cases found
      have original : text = start.readFile d name := by
        rw [read, Host.readFile, Host.readFile, captured.files d name unheld]
      refine ⟨⟨captured.crontabs, ?_, captured.heldCrontabs, ?_⟩, text, by simp⟩
      · intro other key absent
        exact captured.files other key fun held member => absent held (by simp [member])
      · intro other key held member
        rcases List.mem_append.mp member with earlier | new
        · exact captured.heldFiles other key held earlier
        · obtain ⟨rfl, rfl, rfl⟩ : other = d ∧ key = name ∧ held = text := by simpa using new
          exact ⟨configured, plain, original⟩

theorem keeps_writeCrontab (c : CrontabName) (content : Text) :
    Keeps (HasCrontab layout start c) (writeCrontab faults c content) := by
  refine keeps_storeCall faults _ (fun _ calls has => has.counted calls) ?_
  rintro session ⟨captured, text, held⟩
  refine ⟨⟨?_, captured.files, captured.heldCrontabs, captured.heldFiles⟩, text, held⟩
  intro other absent
  have differs : other ≠ c := by
    rintro rfl
    exact absent text held
  rw [Host.writeCrontab_crontab, if_neg differs]
  exact captured.crontabs other absent

theorem keeps_fileCall (d : DirectoryName) (name : Text) (effect : Host → Host)
    (crontabs : ∀ host c, (effect host).crontab c = host.crontab c)
    (others : ∀ host other key, ¬ (other = d ∧ name = key) →
      ((effect host).directory other).find key = (host.directory other).find key) :
    Keeps (HasFile layout start d name) (do resolve name; storeCall faults effect) := by
  refine Keeps.bind ((keeps_resolve name).consequence (fun _ has => has)
    (fun _ _ has => has.1) fun _ _ has => has) fun _ => ?_
  refine keeps_storeCall faults _ (fun _ calls has => has.counted calls) ?_
  rintro session ⟨captured, text, held⟩
  refine ⟨⟨?_, ?_, captured.heldCrontabs, captured.heldFiles⟩, text, held⟩
  · intro c absent
    rw [crontabs]
    exact captured.crontabs c absent
  · intro other key absent
    have differs : ¬ (other = d ∧ name = key) := by
      rintro ⟨rfl, rfl⟩
      exact absent text held
    rw [others _ _ _ differs]
    exact captured.files other key absent

theorem keeps_writeFile (d : DirectoryName) (name content : Text) (executable : Bool) :
    Keeps (HasFile layout start d name) (writeFile faults d name content executable) :=
  keeps_fileCall faults d name _ (fun _ _ => rfl) fun host other key differs => by
    rw [Host.writeFile_find, if_neg differs]

theorem keeps_removeFile (d : DirectoryName) (name : Text) :
    Keeps (HasFile layout start d name) (removeFile faults d name) :=
  keeps_fileCall faults d name _ (fun _ _ => rfl) fun host other key differs => by
    rw [Host.removeFile_find, if_neg differs]

/-- From a captured store on, only the plain invariant is asked for. -/
theorem Keeps.release {α : Type} {held invariant : Session → Prop} {body : StoreM α}
    (keeps : Keeps held body) (weaker : ∀ session, held session → invariant session) :
    Triple held body (fun _ => invariant) (fun _ => invariant) :=
  keeps.consequence (fun _ holds => holds) (fun _ session holds => weaker session holds)
    fun _ session holds => weaker session holds

theorem Triple.raising_bind {α β : Type} {pre : Session → Prop} {post : β → Session → Prop}
    {raised : Raised → Session → Prop} {step : Except TaskControlError α} {next : α → StoreM β}
    (then_ : ∀ a, step = .ok a → Triple pre (next a) post raised)
    (fails : ∀ e session, pre session → raised e session) :
    Triple pre (raising step >>= next) post raised := by
  cases step with
  | ok a => exact then_ a rfl
  | error problem => exact fun session holds => fails _ session holds

theorem keeps_readCrontab {invariant : Session → Prop} (c : CrontabName)
    (counted : ∀ session calls, invariant session → invariant { session with calls := calls }) :
    Keeps invariant (readCrontab faults c) :=
  (readCrontab_triple faults c counted).consequence (fun _ holds => holds)
    (fun _ _ holds => holds.1) fun _ _ holds => holds

theorem keeps_readFile {invariant : Session → Prop} (d : DirectoryName) (name : Text)
    (counted : ∀ session calls, invariant session → invariant { session with calls := calls }) :
    Keeps invariant (readFile faults d name) :=
  (readFile_triple faults d name counted).consequence (fun _ holds => holds)
    (fun _ _ holds => holds.1.1) fun _ _ holds => holds

theorem keeps_writeArtefactFile (entry : PlanEntry) (artefact : DesiredArtefact) :
    Keeps (Captured layout start) (writeArtefactFile faults layout entry artefact) := by
  refine Triple.raising_bind (fun d found => ?_) fun _ _ holds => holds
  have counted (session : Session) (calls : Nat) (captured : Captured layout start session) :
      Captured layout start { session with calls := calls } := captured.counted calls
  refine Triple.bind (readFile_triple faults d artefact.slug counted) fun text => ?_
  refine Triple.bind (captureFile_triple text (directoryOf_configured found)) fun _ => ?_
  refine Keeps.release (Keeps.bind (keeps_writeFile faults d artefact.slug _ _) fun _ => ?_)
    fun _ has => has.1
  exact keeps_readFile faults d artefact.slug fun _ calls has => has.counted calls

theorem keeps_writeArtefactEntry (entry : PlanEntry) (artefact : DesiredArtefact) :
    Keeps (Captured layout start) (writeArtefactEntry faults layout entry artefact) := by
  refine Triple.raising_bind (fun c found => ?_) fun _ _ holds => holds
  refine Triple.bind (readCrontab_triple faults c fun _ calls captured => captured.counted calls)
    fun original => ?_
  refine Triple.bind (captureCrontab_triple original (crontabOf_configured found)) fun _ => ?_
  have final : Keeps (HasCrontab layout start c)
      (readCrontab faults c >>= fun text => raising (deployedEntry layout artefact c text)) :=
    (keeps_readCrontab faults c fun _ calls has => has.counted calls).bind
      fun text => keeps_raising _
  have written (step : Except TaskControlError Text) : Keeps (HasCrontab layout start c)
      (raising step >>= fun text => writeCrontab faults c text >>= fun _ =>
        readCrontab faults c >>= fun text => raising (deployedEntry layout artefact c text)) :=
    (keeps_raising step).bind fun text => (keeps_writeCrontab faults c text).bind fun _ => final
  exact Keeps.release (keeps_ite (fun _ => written _) fun _ => written _) fun _ has => has.1

theorem keeps_applyWrite (entry : PlanEntry) :
    Keeps (Captured layout start) (applyWrite faults layout entry) := by
  unfold applyWrite
  cases entry.artefact with
  | none => exact keeps_throw _ _
  | some artefact =>
      have verify (message : String) (written : Text) : Keeps (Captured layout start)
          (if strip written ≠ strip entry.after then verificationFailed message
            else pure () : StoreM Unit) :=
        keeps_ite (fun _ => keeps_verificationFailed message) fun _ => keeps_pure _ _
      refine keeps_ite (fun _ => ?_) fun _ => ?_
      · exact (keeps_writeArtefactFile faults entry artefact).bind (verify _)
      · exact (keeps_writeArtefactEntry faults entry artefact).bind (verify _)

theorem keeps_removeFromCrontab (slug : Text) {c : CrontabName}
    (configured : c ∈ layout.configuredCrontabs) :
    Keeps (Captured layout start) (removeFromCrontab faults layout slug c) := by
  refine Triple.bind (readCrontab_triple faults c fun _ calls captured => captured.counted calls)
    fun original => ?_
  refine Triple.raising_bind (fun forms _ => ?_) fun _ _ holds => holds.1
  obtain ⟨inRegion, inBlock⟩ := forms
  have check (message : String) : Keeps (HasCrontab layout start c)
      (readCrontab faults c >>= fun after => raising (stillHeld slug after) >>= fun still =>
        if still = true then verificationFailed message else pure ()) :=
    (keeps_readCrontab faults c fun _ calls has => has.counted calls).bind fun after =>
      (keeps_raising _).bind fun still =>
        keeps_ite (fun _ => keeps_verificationFailed message) fun _ => keeps_pure _ _
  by_cases held : (inRegion || inBlock) = true
  · simp only [held, if_true]
    refine Triple.bind (captureCrontab_triple original configured) fun _ => ?_
    refine Keeps.release ((keeps_raising _).bind fun text =>
      (keeps_writeCrontab faults c text).bind fun _ => check _) fun _ has => has.1
  · simp only [held]
    exact fun session holds => holds.1

theorem keeps_removeFromDirectory (slug : Text) {d : DirectoryName}
    (configured : d ∈ layout.configuredDirectories) :
    Keeps (Captured layout start) (removeFromDirectory faults layout slug d) := by
  refine Triple.bind (readFile_triple faults d slug fun _ calls captured => captured.counted calls)
    fun content => ?_
  by_cases present : content ≠ []
  · simp only [present, if_true, ne_eq, not_false_eq_true]
    refine Triple.raising_bind (fun regions _ => ?_) fun _ _ holds => holds.1.1
    by_cases managed : regions ≠ []
    · simp only [managed, if_true, not_false_eq_true]
      refine Triple.bind (captureFile_triple content configured) fun _ => ?_
      have check (message : String) : Keeps (HasFile layout start d slug)
          (readFile faults d slug >>= fun after =>
            if ¬ after = [] then verificationFailed message else pure ()) :=
        (keeps_readFile faults d slug fun _ calls has => has.counted calls).bind fun after =>
          keeps_ite (fun _ => keeps_verificationFailed message) fun _ => keeps_pure _ _
      exact Keeps.release ((keeps_removeFile faults d slug).bind fun _ => check _)
        fun _ has => has.1
    · simp only [managed, if_false]
      exact fun session holds => holds.1.1
  · simp only [present, if_false]
    exact fun session holds => holds.1.1

theorem keeps_applyEntry (entry : PlanEntry) :
    Keeps (Captured layout start) (applyEntry faults layout entry) := by
  refine keeps_ite (fun _ => ?_) fun _ => keeps_applyWrite faults entry
  exact (keeps_forM _ _ fun c configured =>
      keeps_removeFromCrontab faults entry.slug configured).bind fun _ =>
    keeps_forM _ _ fun d configured => keeps_removeFromDirectory faults entry.slug configured

/-! ## Restoring -/

theorem storeCall_triple {pre post : Session → Prop} (effect : Host → Host)
    (done : ∀ session, pre session →
      post { session with host := effect session.host, calls := session.calls + 1 }) :
    Triple pre (storeCall faults effect) (fun _ => post) (fun _ _ => True) := by
  intro session holds
  unfold storeCall
  cases faults session.calls with
  | none => exact done session holds
  | some fault => trivial

/-- The crontabs not yet put back are the ones still to come. -/
theorem restoreCrontabs_triple (pending : List (CrontabName × Text)) (frame : Host → Prop)
    (texts : ∀ c text, (c, text) ∈ pending → start.crontab c = some text)
    (framed : ∀ host c text, frame host → frame (host.writeCrontab c text)) :
    Triple
      (fun session => (∀ c, (∀ text, (c, text) ∉ pending) →
        session.host.crontab c = start.crontab c) ∧ frame session.host)
      (pending.forM fun (c, content) => writeCrontab faults c content)
      (fun _ session => (∀ c, session.host.crontab c = start.crontab c) ∧ frame session.host)
      (fun _ _ => True) := by
  induction pending with
  | nil => exact fun session ⟨rest, framed⟩ => ⟨fun c => rest c (by simp), framed⟩
  | cons item rest ih =>
      obtain ⟨c, content⟩ := item
      refine Triple.bind (storeCall_triple faults _ fun session ⟨others, holds⟩ => ?_) fun _ =>
        ih fun c text member => texts c text (by simp [member])
      refine ⟨fun other absent => ?_, framed _ _ _ holds⟩
      simp only [Host.writeCrontab_crontab]
      split
      · rename_i same
        rw [same, texts c content (by simp)]
      · rename_i differs
        refine others other fun text member => ?_
        rcases List.mem_cons.mp member with here | later
        · exact differs (Prod.mk.inj here).1
        · exact absent text later

theorem restoreFile_triple {pre post : Session → Prop} (d : DirectoryName)
    (name content : Text)
    (done : ∀ session, pre session → post { session with
      host := if content ≠ [] then session.host.writeFile d name ⟨content, looksExecutable content⟩
        else session.host.removeFile d name
      calls := session.calls + 1 }) :
    Triple pre
      (if content ≠ [] then writeFile faults d name content (looksExecutable content)
        else removeFile faults d name)
      (fun _ => post) (fun _ _ => True) := by
  have named (effect : Host → Host) (kept : ∀ session, pre session →
      post { session with host := effect session.host, calls := session.calls + 1 }) :
      Triple pre (do resolve name; storeCall faults effect) (fun _ => post) (fun _ _ => True) := by
    refine Triple.bind ((keeps_resolve name).consequence (fun _ holds => holds)
      (fun _ _ holds => holds.1) fun _ _ _ => trivial) fun _ => ?_
    exact storeCall_triple faults effect kept
  by_cases held : content ≠ []
  · simp only [held, if_true, ne_eq, not_false_eq_true] at done ⊢
    exact named _ done
  · simp only [held, if_false] at done ⊢
    exact named _ done

/-- What restoring a captured file text leaves in its place. -/
def restored (content : Text) : Option File :=
  if content ≠ [] then some ⟨content, looksExecutable content⟩ else none

theorem restoreFiles_triple (pending : List (DirectoryName × Text × Text)) (frame : Host → Prop)
    (texts : ∀ d name text, (d, name, text) ∈ pending →
      (start.directory d).find name = restored text)
    (framed : ∀ host d name file, frame host → frame (host.writeFile d name file))
    (framed' : ∀ host d name, frame host → frame (host.removeFile d name)) :
    Triple
      (fun session => (∀ d name, (∀ text, (d, name, text) ∉ pending) →
        (session.host.directory d).find name = (start.directory d).find name) ∧
          frame session.host)
      (pending.forM fun (d, name, content) =>
        if content ≠ [] then writeFile faults d name content (looksExecutable content)
        else removeFile faults d name)
      (fun _ session => (∀ d name,
        (session.host.directory d).find name = (start.directory d).find name) ∧
          frame session.host)
      (fun _ _ => True) := by
  induction pending with
  | nil => exact fun session ⟨rest, framed⟩ => ⟨fun d name => rest d name (by simp), framed⟩
  | cons item rest ih =>
      obtain ⟨d, name, content⟩ := item
      refine Triple.bind (restoreFile_triple faults d name content
        fun session ⟨others, holds⟩ => ⟨fun other key absent => ?_, ?_⟩) fun _ =>
          ih fun d name text member => texts d name text (by simp [member])
      · have here : (start.directory d).find name = restored content :=
          texts d name content (by simp)
        have elsewhere (differs : ¬ (other = d ∧ name = key)) :
            (session.host.directory other).find key = (start.directory other).find key := by
          refine others other key fun text member => ?_
          rcases List.mem_cons.mp member with first | later
          · obtain ⟨rfl, rfl, _⟩ : other = d ∧ key = name ∧ text = content := by simpa using first
            exact differs ⟨rfl, rfl⟩
          · exact absent text later
        by_cases same : other = d ∧ name = key
        · obtain ⟨rfl, rfl⟩ := same
          rw [here, restored]
          split <;> simp_all [Host.writeFile_find, Host.removeFile_find]
        · rw [← elsewhere same]
          split <;> simp [Host.writeFile_find, Host.removeFile_find, same]
      · simp only
        split
        · exact framed _ _ _ _ holds
        · exact framed' _ _ _ holds

theorem Restorable.crontab_text (restorable : Restorable layout start) {c : CrontabName}
    (configured : c ∈ layout.configuredCrontabs) :
    start.crontab c = some (start.readCrontab c) := by
  obtain ⟨text, present, carriageFree⟩ := restorable.crontabs c configured
  rw [Host.readCrontab, present]
  exact congrArg some (translateNewlines_carriageFree carriageFree).symm

theorem Restorable.file_text (restorable : Restorable layout start) {d : DirectoryName}
    (configured : d ∈ layout.configuredDirectories) {name : Text} (plain : plainName name = true) :
    (start.directory d).find name = restored (start.readFile d name) := by
  unfold Host.readFile
  cases found : (start.directory d).find name with
  | none => rfl
  | some file =>
      obtain ⟨nonempty, carriageFree, mode⟩ := restorable.files d configured name file plain found
      simp only [translateNewlines_carriageFree carriageFree, restored, ne_eq, nonempty,
        not_false_eq_true, if_true, ← mode]

theorem restore_triple (restorable : Restorable layout start) :
    Triple (Captured layout start) (restore faults) (fun _ session => session.host = start)
      (fun _ _ => True) := by
  intro session captured
  have texts : ∀ c text, (c, text) ∈ session.snapshot.crontabs.reverse →
      start.crontab c = some text := by
    intro c text member
    obtain ⟨configured, rfl⟩ := captured.heldCrontabs c text (by simpa using member)
    exact restorable.crontab_text configured
  have files : ∀ d name text, (d, name, text) ∈ session.snapshot.files.reverse →
      (start.directory d).find name = restored text := by
    intro d name text member
    obtain ⟨configured, plain, rfl⟩ := captured.heldFiles d name text (by simpa using member)
    exact restorable.file_text configured plain
  have first := restoreCrontabs_triple faults session.snapshot.crontabs.reverse
    (fun host => ∀ d name, (∀ text, (d, name, text) ∉ session.snapshot.files.reverse) →
      (host.directory d).find name = (start.directory d).find name) texts
    fun _ _ _ holds => holds
  have second := restoreFiles_triple faults session.snapshot.files.reverse
    (fun host => ∀ c, host.crontab c = start.crontab c) files
    (fun _ _ _ _ holds => holds) fun _ _ _ holds => holds
  have both := (first.consequence (fun _ holds => holds) (fun _ _ holds => holds.symm)
    fun _ _ _ => trivial).bind fun _ => second
  have run := both session ⟨?_, ?_⟩
  · have ends : restore faults session = (session.snapshot.crontabs.reverse.forM
        (fun (c, content) => writeCrontab faults c content) >>= fun _ =>
          session.snapshot.files.reverse.forM fun (d, name, content) =>
            if content ≠ [] then writeFile faults d name content (looksExecutable content)
            else removeFile faults d name) session := rfl
    rw [ends]
    split at run
    · rename_i shape
      rw [shape]
      exact Host.ext run.2 run.1
    · rename_i shape
      rw [shape]
      trivial
  · intro c absent
    exact captured.crontabs c fun text member => absent text (by simpa using member)
  · intro d name absent
    exact captured.files d name fun text member => absent text (by simpa using member)

/-! ## Apply -/

theorem rollBack_triple (restorable : Restorable layout start) (entry : PlanEntry)
    (error : Raised) :
    Triple (Captured layout start) (rollBack faults entry error)
      (fun result session => result.rolledBack = true → session.host = start)
      (fun _ _ => True) := by
  have back := restore_triple faults restorable
  refine Triple.handle (Triple.bind back fun _ session exact_ _ => exact_) fun rollbackError => ?_
  intro session _
  cases rollbackError.isException with
  | true => exact fun rolledBack => absurd rolledBack (by simp)
  | false => trivial

theorem applyEntries_triple (restorable : Restorable layout start)
    (applied entries : List PlanEntry) :
    Triple (Captured layout start) (applyEntries faults layout applied entries)
      (fun result session => result.rolledBack = true → session.host = start)
      (fun _ _ => True) := by
  induction entries generalizing applied with
  | nil => exact fun session _ rolledBack => absurd rolledBack (by simp)
  | cons entry rest ih =>
      have attempt : Triple (Captured layout start)
          (handle (applyEntry faults layout entry *> pure none) fun error =>
            if error.isException then pure (some error) else throw error)
          (fun _ => Captured layout start) (fun _ _ => True) := by
        refine Triple.handle ((keeps_applyEntry faults entry).bind fun _ => keeps_pure _ none)
          fun error => ?_
        intro session captured
        cases error.isException with
        | true => exact captured
        | false => trivial
      refine Triple.bind attempt fun failure => ?_
      cases failure with
      | some error => exact rollBack_triple faults restorable entry error
      | none => exact ih (applied ++ [entry])

end Steps

/-! ## Probing a store -/

section Probes

variable {layout : CronLayout}

/-- The second store call is refused, or none is. -/
def refuseWrite (refused : Bool) : Faults := fun call =>
  if refused = true ∧ call = 1 then some ⟨.other "the write was refused", false⟩ else none

/-- A capability named after the store that it is deployed to. -/
def probeArtefact (slug : Text) (deployment : DeploymentSpecification) : DesiredArtefact where
  taskId := ⟨0, by decide⟩
  slug := slug
  deployment := deployment
  command := []
  contentDigest := []
  schedule := none
  description := []

def probeEntry (artefact : DesiredArtefact) : PlanEntry :=
  ⟨artefact.taskId, artefact.slug, .create, "", [], [], "", some artefact⟩

theorem applyWrite_error {faults : Faults} {entry : PlanEntry} {artefact : DesiredArtefact}
    {error : Raised} {session failed : Session} (carried : entry.artefact = some artefact)
    (fails : (if artefact.deployment.strategy.writesAFilePerTask then
        writeArtefactFile faults layout entry artefact
      else writeArtefactEntry faults layout entry artefact) session = .error error failed) :
    applyWrite faults layout entry session = .error error failed := by
  unfold applyWrite
  rw [carried]
  simp only
  split at fails
  · rw [if_pos ‹_›, bind_run, fails]
  · rw [if_neg ‹_›, bind_run, fails]

theorem apply_single {host : Host} {faults : Faults} {entry : PlanEntry} {error : Raised}
    {failed restoredTo : Session} (creates : entry.change = .create)
    (exception : error.isException = true)
    (fails : applyWrite faults layout entry (.start host) = .error error failed)
    (restores : restore faults failed = .ok () restoredTo) :
    ∃ result, apply faults layout [entry] (.start host) = .ok result restoredTo ∧
      result.rolledBack = true := by
  have attempt : handle (applyEntry faults layout entry *> pure none)
      (fun error => if error.isException then pure (some error) else throw error)
      (.start host) = .ok (some error) failed := by
    have body : (applyEntry faults layout entry *> pure (none : Option Raised)) (.start host) =
        .error error failed := by
      rw [applyEntry, creates, if_neg (by simp), seqRight_eq_bind, bind_run, fails]
    rw [handle, body]
    simp only [exception, if_true]
    rfl
  have changing : entriesChanging [entry] = [entry] := by
    simp [entriesChanging, creates, DeploymentChange.modifiesTheHost]
  have back : ∃ result, rollBack faults entry error failed = .ok result restoredTo ∧
      result.rolledBack = true := by
    refine ⟨_, handle_eq_ok.mpr (Or.inl (bind_eq_ok.mpr ⟨(), restoredTo, restores, rfl⟩)), rfl⟩
  obtain ⟨result, returned, rolledBack⟩ := back
  refine ⟨result, ?_, rolledBack⟩
  rw [apply, changing, applyEntries, bind_run, attempt]
  exact returned

/-- A write to the crontab that fails leaves it with the text that reading it gave. -/
theorem crontab_probe (host : Host) {c : CrontabName} (configured : c ∈ layout.configuredCrontabs) :
    ∃ plan faults result session, apply faults layout plan (.start host) = .ok result session ∧
      result.rolledBack = true ∧ session.host = host.writeCrontab c (host.readCrontab c) := by
  obtain ⟨deployment, strategy, found⟩ : ∃ deployment : DeploymentSpecification,
      deployment.strategy = .crontabBlockPerTask ∧ layout.crontabFor deployment.target = some c := by
    unfold CronLayout.configuredCrontabs at configured
    cases c with
    | user =>
        have described : layout.userCrontab.isSome = true := by simpa using configured
        exact ⟨.default, rfl, if_pos described⟩
    | system =>
        have described : layout.systemCrontab.isSome = true := by simpa using configured
        exact ⟨⟨.crontabBlockPerTask, .systemCrontab, none, none, by decide, by decide, by simp,
          by simp⟩, rfl, if_pos described⟩
  have place : crontabOf layout (probeArtefact [] deployment) = .ok c := by
    simp only [crontabOf, probeArtefact, found]
  have crontabForm : deployment.strategy.writesAFilePerTask = false := by rw [strategy]; rfl
  let captured : Session := ⟨host, 1, ⟨[(c, host.readCrontab c)], []⟩⟩
  have reached (faults : Faults) (quiet : faults 0 = none) :
      writeArtefactEntry faults layout (probeEntry (probeArtefact [] deployment))
          (probeArtefact [] deployment) (.start host) =
        (raising (replaceRegion (host.readCrontab c) [] []) >>= fun text =>
          writeCrontab faults c text >>= fun _ => readCrontab faults c >>= fun text =>
            raising (deployedEntry layout (probeArtefact [] deployment) c text)) captured := by
    have read : readCrontab faults c (.start host) = .ok (host.readCrontab c) ⟨host, 1, ⟨[], []⟩⟩ := by
      simp only [readCrontab, bind_run, storeCall, Session.start, quiet]
      rfl
    have form : ¬ (probeArtefact [] deployment).deployment.strategy = .crontabSingleBlock := by
      simp [probeArtefact, strategy]
    rw [writeArtefactEntry, place, bind_run]
    simp only [raising, pure, EStateM.pure]
    rw [bind_run, read]
    simp only [if_neg form]
    rfl
  have wrote (faults : Faults) (error : Raised) (failed : Session)
      (entry : writeArtefactEntry faults layout (probeEntry (probeArtefact [] deployment))
        (probeArtefact [] deployment) (.start host) = .error error failed) :
      applyWrite faults layout (probeEntry (probeArtefact [] deployment)) (.start host) =
        .error error failed :=
    applyWrite_error rfl (by rwa [if_neg (by simp [probeArtefact, crontabForm])])
  cases placed : replaceRegion (host.readCrontab c) [] [] with
  | error problem =>
      have fails := wrote (refuseWrite false) (.taskControl problem) captured
        ((reached _ rfl).trans (by rw [placed]; rfl))
      have restores : restore (refuseWrite false) captured =
          .ok () ⟨host.writeCrontab c (host.readCrontab c), 2, captured.snapshot⟩ := rfl
      obtain ⟨result, ran, rolledBack⟩ := apply_single rfl rfl fails restores
      exact ⟨_, _, result, _, ran, rolledBack, rfl⟩
  | ok text =>
      have fails := wrote (refuseWrite true) (.other "the write was refused")
        { captured with calls := 2 } ((reached _ rfl).trans (by rw [placed]; rfl))
      have restores : restore (refuseWrite true) { captured with calls := 2 } =
          .ok () ⟨host.writeCrontab c (host.readCrontab c), 3, captured.snapshot⟩ := rfl
      obtain ⟨result, ran, rolledBack⟩ := apply_single rfl rfl fails restores
      exact ⟨_, _, result, _, ran, rolledBack, rfl⟩

/-- A write of a present file that fails leaves in its place what its text tells. -/
theorem file_probe (host : Host) {d : DirectoryName} (configured : d ∈ layout.configuredDirectories)
    {name : Text} (plain : plainName name = true) :
    ∃ plan faults result session, apply faults layout plan (.start host) = .ok result session ∧
      result.rolledBack = true ∧
        (session.host.directory d).find name = restored (host.readFile d name) := by
  obtain ⟨deployment, form, found⟩ : ∃ deployment : DeploymentSpecification,
      deployment.strategy.writesAFilePerTask = true ∧
        layout.directoryFor deployment.target deployment.classification = some d := by
    unfold CronLayout.configuredDirectories at configured
    cases d with
    | cronD =>
        have described : layout.cronD.isSome = true := by simpa using configured
        exact ⟨⟨.cronDFile, .cronD, none, none, by decide, by decide, by simp, by simp⟩, rfl,
          if_pos described⟩
    | runParts classification =>
        refine ⟨⟨.runPartsDirectory, .runParts, some classification, none, by decide, by simp,
          by simp, by simp⟩, rfl, if_pos ?_⟩
        obtain ⟨description, member⟩ :
            ∃ description, (classification, description) ∈ layout.runParts := by
          simpa using configured
        rw [CronLayout.directoryDescription, Option.isSome_map, List.find?_isSome]
        exact ⟨_, member, by simp⟩
  have place : directoryOf layout (probeArtefact name deployment) = .ok d := by
    simp only [directoryOf, probeArtefact, found]
  let captured : Session := ⟨host, 2, ⟨[], [(d, name, host.readFile d name)]⟩⟩
  have named : resolve name = pure () := by rw [resolve, if_pos plain]
  have fails : applyWrite (refuseWrite true) layout (probeEntry (probeArtefact name deployment))
      (.start host) = .error (.other "the write was refused") captured := by
    refine applyWrite_error rfl ?_
    rw [if_pos (by simp [probeArtefact, form]), writeArtefactFile, place]
    simp only [readFile, writeFile, probeArtefact, named]
    rfl
  have restores : restore (refuseWrite true) captured = .ok () ⟨if host.readFile d name ≠ [] then
      host.writeFile d name ⟨host.readFile d name, looksExecutable (host.readFile d name)⟩
        else host.removeFile d name, 3, captured.snapshot⟩ := by
    have steps : restore (refuseWrite true) captured =
        ((if host.readFile d name ≠ [] then writeFile (refuseWrite true) d name
            (host.readFile d name) (looksExecutable (host.readFile d name))
          else removeFile (refuseWrite true) d name) >>= fun _ => pure ()) captured := rfl
    rw [steps]
    by_cases held : host.readFile d name ≠ []
    · simp only [if_pos held, writeFile, named]
      rfl
    · simp only [if_neg held, removeFile, named]
      rfl
  obtain ⟨result, ran, rolledBack⟩ := apply_single rfl rfl fails restores
  refine ⟨_, _, result, _, ran, rolledBack, ?_⟩
  simp only [restored]
  split <;> simp [Host.writeFile_find, Host.removeFile_find]

end Probes

/-! ## Exactness -/

/-- A host with nothing on it and one configured crontab. -/
def bareHost : Host := ⟨fun _ => none, fun _ => SortedTable.empty⟩

def userLayout : CronLayout := ⟨some "the user crontab", none, none, [], by decide⟩

def nightlyCreation : PlanEntry :=
  ⟨(nightlyBackup .default).taskId, "nightly-backup".toList, .create, "the user crontab", [], nightlyRegion,
    "No managed artefact exists for this capability yet.", some (nightlyBackup .default)⟩

theorem plan_nightly : plan userLayout bareHost [nightlyBackup .default] = .ok [nightlyCreation] := by
  have rendered : renderArtefact (nightlyBackup .default) = .ok nightlyRegion := rfl
  have current : currentContent userLayout bareHost (nightlyBackup .default) = .ok [] := rfl
  have removals : planRemovals userLayout bareHost ["nightly-backup".toList] = .ok [] := rfl
  have one : planOne userLayout bareHost (nightlyBackup .default) = .ok nightlyCreation := by
    rw [planOne, rendered, current]
    rfl
  have slugs : [nightlyBackup .default].map DesiredArtefact.slug = ["nightly-backup".toList] := rfl
  simp only [plan, List.mapM_cons, List.mapM_nil, one, slugs, removals]
  rfl

end TaskControl.Cron
