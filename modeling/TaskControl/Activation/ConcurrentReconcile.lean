import TaskControl.Activation.Reconciliation
import TaskControl.Foundation.Calls

/-!
# Appends beside reconciliations

Any number of processes append to the journal and reconcile it, their system calls in
any order.  An append opens the file that the path names and writes its line to it; a
reconciliation reads that file, commits, and removes whatever file the path names then.
A line written in between is removed unread.
-/

set_option autoImplicit false

namespace TaskControl.Activation

open Effects Ingestion Persistence TaskControl.Runtime

/-! ## The processes -/

/-- Where a process stands in its call of `append` or `reconcile`. -/
inductive Phase where
  | idle
  | opened (entry : JournalEntry) (inode : Nat)
  | holding (entries : List JournalEntry)
  | recorded

/-- What the processes share.  A file whose name was removed keeps its lines. -/
structure Scene (ι : Type) where
  files : Nat → List JournalEntry
  path : Option Nat
  created : Nat
  database : Database
  phase : ι → Phase
  returned : List JournalEntry

inductive JournalAction (ι : Type) where
  | openAppend (process : ι) (entry : JournalEntry)
  | write (process : ι)
  | failAppend (process : ι)
  | read (process : ι)
  | commit (process : ι)
  | failReconcile (process : ι)
  | truncate (process : ι)

/-- A transaction that goes through keeps what is stored and stores what it was given. -/
theorem ingest_known {database : Database} (sound : Sound database) {entries : List JournalEntry}
    {session : Session}
    (ran : ingest (fun _ => .ok ()) 0 entries ⟨database, 0, 0⟩ = .ok session) :
    (∀ entry, Known database entry → Known session.database entry) ∧
      ∀ entry ∈ entries, Known session.database entry := by
  obtain ⟨rows, _⟩ := ingest_absorbs sound.readable ran
  unfold Known
  rw [rows]
  constructor
  · intro entry known
    exact ((prefix_absorb _ _).map _).subset known
  · intro entry listed
    exact @mem_keys_absorb _ _ _ ExecutionRecord.executionId _ _ (rowOf entry)
      (List.mem_map_of_mem listed)

theorem ingest_readable {n : Nat} {database : Database} {entries : List JournalEntry}
    {ingested alreadyKnown : Nat} {session : Session}
    (readable : ∀ record ∈ database.executions, Readable record)
    (ran : ingest (fun _ => .ok ()) n entries ⟨database, ingested, alreadyKnown⟩ = .ok session) :
    ∀ record ∈ session.database.executions, Readable record := by
  induction entries generalizing n database ingested alreadyKnown with
  | nil =>
      cases ran
      exact readable
  | cons entry rest ih =>
      unfold ingest at ran
      obtain ⟨next, first, later⟩ := except_bind_eq_ok.mp ran
      by_cases known : Known database entry
      · rw [ingestEntry_known readable known] at first
        cases first
        exact ih readable later
      · obtain ⟨⟨_, _, _, made⟩, rfl⟩ := (ingestEntry_new_iff known _ _).mp first
        refine ih ?_ later
        intro record member
        rcases List.mem_append.mp member with old | last
        · exact readable record old
        · rw [List.mem_singleton.mp last]
          exact rowOf_readable made

theorem ingest_sound {database : Database} (sound : Sound database) {entries : List JournalEntry}
    {session : Session}
    (ran : ingest (fun _ => .ok ()) 0 entries ⟨database, 0, 0⟩ = .ok session) :
    Sound session.database := by
  refine ⟨?_, ingest_readable sound.readable ran⟩
  rw [(ingest_absorbs sound.readable ran).1]
  exact nodup_absorb sound.keys _

namespace Scene

variable {ι : Type}

/-- The lines of the file that the path names. -/
def journal (scene : Scene ι) : List JournalEntry := (scene.path.map scene.files).getD []

/-! ## System calls -/

/-- The scene with a new file under the path. -/
def withFile (scene : Scene ι) : Scene ι :=
  { scene with
    files := Function.update scene.files scene.created []
    path := some scene.created
    created := scene.created + 1 }

def withLine (scene : Scene ι) (inode : Nat) (entry : JournalEntry) : Scene ι :=
  { scene with
    files := Function.update scene.files inode (scene.files inode ++ [entry])
    returned := scene.returned ++ [entry] }

def withDatabase (scene : Scene ι) (database : Database) : Scene ι := { scene with database }

def withoutFile (scene : Scene ι) : Scene ι := { scene with path := none }

section

variable [DecidableEq ι]

def enter (scene : Scene ι) (process : ι) (phase : Phase) : Scene ι :=
  { scene with phase := Function.update scene.phase process phase }

/-- One system call of a process; one that it is not about to make fails. -/
def step (scene : Scene ι) : JournalAction ι → Except Unit (Scene ι)
  | .openAppend process entry =>
      match scene.phase process, scene.path with
      | .idle, some inode => .ok (scene.enter process (.opened entry inode))
      | .idle, none =>
          .ok ({ scene with
            files := Function.update scene.files scene.created []
            path := some scene.created
            created := scene.created + 1 }.enter process (.opened entry scene.created))
      | _, _ => .error ()
  | .write process =>
      match scene.phase process with
      | .opened entry inode =>
          .ok ({ scene with
            files := Function.update scene.files inode (scene.files inode ++ [entry])
            returned := scene.returned ++ [entry] }.enter process .idle)
      | _ => .error ()
  | .failAppend process =>
      match scene.phase process with
      | .opened _ _ => .ok (scene.enter process .idle)
      | _ => .error ()
  | .read process =>
      match scene.phase process with
      | .idle =>
          if scene.journal.isEmpty then .ok scene
          else .ok (scene.enter process (.holding scene.journal))
      | _ => .error ()
  | .commit process =>
      match scene.phase process with
      | .holding entries =>
          match ingest (fun _ => .ok ()) 0 entries ⟨scene.database, 0, 0⟩ with
          | .ok session =>
              .ok ({ scene with database := session.database }.enter process .recorded)
          | .error _ => .error ()
      | _ => .error ()
  | .failReconcile process =>
      match scene.phase process with
      | .holding _ => .ok (scene.enter process .idle)
      | .recorded => .ok (scene.enter process .idle)
      | _ => .error ()
  | .truncate process =>
      match scene.phase process with
      | .recorded => .ok ({ scene with path := none }.enter process .idle)
      | _ => .error ()

end

/-! ## Entries that are not lost -/

/-- No process has begun anything, and there is no journal. -/
structure Fresh (scene : Scene ι) : Prop where
  path : scene.path = none
  idle : ∀ process, scene.phase process = .idle
  returned : scene.returned = []
  sound : Sound scene.database

/-- The entry can be read in the journal, or its run is recorded. -/
def Accounted (scene : Scene ι) (entry : JournalEntry) : Prop :=
  entry ∈ scene.journal ∨ Known scene.database entry

def AllAccounted (scene : Scene ι) : Prop := ∀ entry ∈ scene.returned, scene.Accounted entry

/-- The call takes no entry out of sight: a line is written to the file that the path names, and
only a file whose runs are all recorded is removed. -/
def Considerate (scene : Scene ι) : JournalAction ι → Prop
  | .write process => ∀ entry inode, scene.phase process = .opened entry inode →
      scene.path = some inode ∨ scene.Accounted entry
  | .truncate _ => ∀ entry ∈ scene.journal, Known scene.database entry
  | _ => True

/-- Appends and reconciliations are kept apart: none begins while one of the other kind is on. -/
def Exclusive (scene : Scene ι) : JournalAction ι → Prop
  | .openAppend _ _ => ∀ other,
      (∀ entries, scene.phase other ≠ .holding entries) ∧ scene.phase other ≠ .recorded
  | .read _ => ∀ other entry inode, scene.phase other ≠ .opened entry inode
  | _ => True

/-! ## What every call keeps -/

/-- The path names a file that was created, whose lines are those of appends that returned. -/
structure Sane (scene : Scene ι) : Prop where
  numbered : ∀ inode, scene.path = some inode → inode < scene.created
  opened : ∀ process entry inode, scene.phase process = .opened entry inode →
    inode < scene.created
  written : ∀ entry ∈ scene.journal, entry ∈ scene.returned
  sound : Sound scene.database

section

variable {scene : Scene ι} {entry : JournalEntry} {inode : Nat}

theorem mem_journal : entry ∈ scene.journal ↔
    ∃ inode, scene.path = some inode ∧ entry ∈ scene.files inode := by
  unfold journal
  cases scene.path with
  | none => simp
  | some inode => simp

@[simp] theorem withFile_journal (scene : Scene ι) : scene.withFile.journal = [] := by
  simp [journal, withFile]

@[simp] theorem withoutFile_journal (scene : Scene ι) : scene.withoutFile.journal = [] := rfl

theorem withLine_journal_named (named : scene.path = some inode) :
    (scene.withLine inode entry).journal = scene.journal ++ [entry] := by
  simp [journal, withLine, named]

theorem withLine_journal_unnamed (unnamed : scene.path ≠ some inode) :
    (scene.withLine inode entry).journal = scene.journal := by
  unfold journal withLine
  cases named : scene.path with
  | none => rfl
  | some other =>
      have differs : other ≠ inode := by
        rintro rfl
        exact unnamed named
      simp [Function.update_of_ne differs]

theorem Sane.start (fresh : scene.Fresh) : scene.Sane where
  numbered inode named := by
    rw [fresh.path] at named
    cases named
  opened process entry inode stands := by
    rw [fresh.idle] at stands
    cases stands
  written entry listed := by
    obtain ⟨inode, named, _⟩ := mem_journal.mp listed
    rw [fresh.path] at named
    cases named
  sound := fresh.sound

/-- What the exclusion keeps: an open file is the one that the path names, and a reconciliation
has read, or recorded, every line of it. -/
structure Apart (scene : Scene ι) : Prop where
  opened : ∀ process entry inode, scene.phase process = .opened entry inode →
    scene.path = some inode
  alone : ∀ process entry inode, scene.phase process = .opened entry inode → ∀ other,
    (∀ entries, scene.phase other ≠ .holding entries) ∧ scene.phase other ≠ .recorded
  holding : ∀ process entries, scene.phase process = .holding entries →
    ∀ entry ∈ scene.journal, entry ∈ entries
  recorded : ∀ process, scene.phase process = .recorded →
    ∀ entry ∈ scene.journal, Known scene.database entry

theorem Apart.start (fresh : scene.Fresh) : scene.Apart where
  opened process entry inode stands := by
    rw [fresh.idle] at stands
    cases stands
  alone process entry inode stands := by
    rw [fresh.idle] at stands
    cases stands
  holding process entries stands := by
    rw [fresh.idle] at stands
    cases stands
  recorded process stands := by
    rw [fresh.idle] at stands
    cases stands

end

variable [DecidableEq ι]

/-! ## One system call -/

section

variable {scene scene' : Scene ι} {process other : ι} {phase : Phase} {entry : JournalEntry}

@[simp] theorem enter_files : (scene.enter process phase).files = scene.files := rfl

@[simp] theorem enter_path : (scene.enter process phase).path = scene.path := rfl

@[simp] theorem enter_created : (scene.enter process phase).created = scene.created := rfl

@[simp] theorem enter_database : (scene.enter process phase).database = scene.database := rfl

@[simp] theorem enter_returned : (scene.enter process phase).returned = scene.returned := rfl

@[simp] theorem enter_journal : (scene.enter process phase).journal = scene.journal := rfl

theorem enter_self : (scene.enter process phase).phase process = phase :=
  Function.update_self ..

theorem enter_other (differs : other ≠ process) :
    (scene.enter process phase).phase other = scene.phase other := Function.update_of_ne differs ..

/-- A process is in the phase it entered, or where it was. -/
theorem enter_cases {now : Phase} (stands : (scene.enter process phase).phase other = now) :
    now = phase ∨ scene.phase other = now := by
  by_cases same : other = process
  · rw [same, enter_self] at stands
    exact .inl stands.symm
  · rw [enter_other same] at stands
    exact .inr stands

/-- What the system calls do. -/
inductive Moves (scene : Scene ι) : JournalAction ι → Scene ι → Prop where
  | opens {process : ι} {entry : JournalEntry} {inode : Nat} (idle : scene.phase process = .idle)
      (named : scene.path = some inode) :
      Moves scene (.openAppend process entry) (scene.enter process (.opened entry inode))
  | creates {process : ι} {entry : JournalEntry} (idle : scene.phase process = .idle)
      (missing : scene.path = none) :
      Moves scene (.openAppend process entry)
        (scene.withFile.enter process (.opened entry scene.created))
  | writes {process : ι} {entry : JournalEntry} {inode : Nat}
      (stands : scene.phase process = .opened entry inode) :
      Moves scene (.write process) ((scene.withLine inode entry).enter process .idle)
  | failsAppend {process : ι} {entry : JournalEntry} {inode : Nat}
      (stands : scene.phase process = .opened entry inode) :
      Moves scene (.failAppend process) (scene.enter process .idle)
  | finds {process : ι} (idle : scene.phase process = .idle) (empty : scene.journal = []) :
      Moves scene (.read process) scene
  | reads {process : ι} (idle : scene.phase process = .idle) :
      Moves scene (.read process) (scene.enter process (.holding scene.journal))
  | commits {process : ι} {entries : List JournalEntry} {session : Session}
      (stands : scene.phase process = .holding entries)
      (ingested : ingest (fun _ => .ok ()) 0 entries ⟨scene.database, 0, 0⟩ = .ok session) :
      Moves scene (.commit process) ((scene.withDatabase session.database).enter process .recorded)
  | failsReconcile {process : ι}
      (stands : scene.phase process = .recorded ∨
        ∃ entries, scene.phase process = .holding entries) :
      Moves scene (.failReconcile process) (scene.enter process .idle)
  | truncates {process : ι} (stands : scene.phase process = .recorded) :
      Moves scene (.truncate process) (scene.withoutFile.enter process .idle)

theorem step_moves {action : JournalAction ι} (steps : scene.step action = .ok scene') :
    Moves scene action scene' := by
  unfold step at steps
  split at steps
  · split at steps
    · next idle named =>
        cases steps
        exact .opens idle named
    · next idle missing =>
        cases steps
        exact .creates idle missing
    · cases steps
  · split at steps
    · next stands =>
        cases steps
        exact .writes stands
    · cases steps
  · split at steps
    · next stands =>
        cases steps
        exact .failsAppend stands
    · cases steps
  · split at steps
    · next idle =>
        split at steps
        · next empty =>
            cases steps
            exact .finds idle (List.isEmpty_iff.mp empty)
        · cases steps
          exact .reads idle
    · cases steps
  · split at steps
    · next stands =>
        split at steps
        · next ingested =>
            cases steps
            exact .commits stands ingested
        · cases steps
    · cases steps
  · split at steps
    · next stands =>
        cases steps
        exact .failsReconcile (.inr ⟨_, stands⟩)
    · next stands =>
        cases steps
        exact .failsReconcile (.inl stands)
    · cases steps
  · split at steps
    · next stands =>
        cases steps
        exact .truncates stands
    · cases steps

end

section

variable {scene scene' : Scene ι} {process : ι} {entry : JournalEntry} {inode : Nat}

/-- A process that has no file open leaves the others theirs. -/
theorem Sane.opened_enter (sane : scene.Sane) {phase : Phase}
    (closed : ∀ entry inode, phase ≠ .opened entry inode) :
    ∀ other entry inode, (scene.enter process phase).phase other = .opened entry inode →
      inode < scene.created := by
  intro other entry inode stands
  rcases enter_cases stands with same | before
  · exact absurd same.symm (closed entry inode)
  · exact sane.opened other entry inode before

theorem idle_closed (entry : JournalEntry) (inode : Nat) : Phase.idle ≠ .opened entry inode := nofun

theorem holding_closed (entries : List JournalEntry) (entry : JournalEntry) (inode : Nat) :
    Phase.holding entries ≠ .opened entry inode := nofun

theorem recorded_closed (entry : JournalEntry) (inode : Nat) :
    Phase.recorded ≠ .opened entry inode := nofun

theorem Sane.next (sane : scene.Sane) {action : JournalAction ι}
    (moves : Moves scene action scene') : scene'.Sane := by
  cases moves with
  | @opens process entry inode idle named =>
      refine ⟨sane.numbered, ?_, sane.written, sane.sound⟩
      intro other entry' inode' stands
      rcases enter_cases stands with same | before
      · cases same
        exact sane.numbered inode named
      · exact sane.opened other entry' inode' before
  | @creates process entry idle missing =>
      refine ⟨?_, ?_, ?_, sane.sound⟩
      · intro inode named
        cases named
        exact Nat.lt_succ_self _
      · intro other entry' inode' stands
        rcases enter_cases stands with same | before
        · cases same
          exact Nat.lt_succ_self _
        · exact Nat.lt_succ_of_lt (sane.opened other entry' inode' before)
      · intro entry' listed
        rw [enter_journal, withFile_journal] at listed
        cases listed
  | @writes process entry inode stands =>
      refine ⟨sane.numbered, sane.opened_enter idle_closed, ?_, sane.sound⟩
      intro entry' listed
      rw [enter_journal] at listed
      change entry' ∈ scene.returned ++ [entry]
      by_cases named : scene.path = some inode
      · rw [withLine_journal_named named] at listed
        rcases List.mem_append.mp listed with old | new
        · exact List.mem_append_left _ (sane.written entry' old)
        · exact List.mem_append_right _ new
      · rw [withLine_journal_unnamed named] at listed
        exact List.mem_append_left _ (sane.written entry' listed)
  | failsAppend stands =>
      exact ⟨sane.numbered, sane.opened_enter idle_closed, sane.written, sane.sound⟩
  | finds => exact sane
  | reads idle => exact ⟨sane.numbered, sane.opened_enter (holding_closed _), sane.written, sane.sound⟩
  | commits stands ingested =>
      have sound := ingest_sound sane.sound ingested
      exact ⟨sane.numbered, sane.opened_enter recorded_closed, sane.written, sound⟩
  | failsReconcile stands =>
      exact ⟨sane.numbered, sane.opened_enter idle_closed, sane.written, sane.sound⟩
  | truncates stands =>
      refine ⟨nofun, sane.opened_enter idle_closed, ?_, sane.sound⟩
      intro entry' listed
      rw [enter_journal, withoutFile_journal] at listed
      cases listed

/-! ## The accounts -/

/-- A call leaves all entries accounted for exactly if it is considerate. -/
theorem allAccounted_iff (sane : scene.Sane) (accounted : scene.AllAccounted)
    {action : JournalAction ι} (moves : Moves scene action scene') :
    scene'.AllAccounted ↔ scene.Considerate action := by
  cases moves with
  | opens idle named => exact iff_of_true accounted trivial
  | @creates process entry idle missing =>
      refine iff_of_true ?_ trivial
      intro entry' returned
      rcases accounted entry' returned with listed | known
      · obtain ⟨inode, named, _⟩ := mem_journal.mp listed
        rw [missing] at named
        cases named
      · exact .inr known
  | @writes process entry inode stands =>
      have old : ∀ entry' ∈ scene.returned, ((scene.withLine inode entry).enter process .idle).Accounted
          entry' := by
        intro entry' returned
        refine (accounted entry' returned).imp (fun listed => ?_) id
        rw [enter_journal]
        by_cases named : scene.path = some inode
        · rw [withLine_journal_named named]
          exact List.mem_append_left _ listed
        · rw [withLine_journal_unnamed named]
          exact listed
      constructor
      · intro after entry' inode' stands'
        rw [stands] at stands'
        cases stands'
        by_cases named : scene.path = some inode
        · exact .inl named
        · right
          have last := after entry (List.mem_append_right _ (List.mem_singleton_self _))
          unfold Accounted at last ⊢
          rwa [enter_journal, withLine_journal_unnamed named] at last
      · intro considerate entry' returned
        rcases List.mem_append.mp returned with earlier | last
        · exact old entry' earlier
        · obtain rfl := List.mem_singleton.mp last
          unfold Accounted
          rw [enter_journal]
          rcases considerate entry' inode stands with named | already
          · rw [withLine_journal_named named]
            exact .inl (List.mem_append_right _ (List.mem_singleton_self _))
          · by_cases named : scene.path = some inode
            · rw [withLine_journal_named named]
              exact .inl (List.mem_append_right _ (List.mem_singleton_self _))
            · rw [withLine_journal_unnamed named]
              exact already
  | failsAppend stands => exact iff_of_true accounted trivial
  | finds => exact iff_of_true accounted trivial
  | reads idle => exact iff_of_true accounted trivial
  | commits stands ingested =>
      refine iff_of_true ?_ trivial
      intro entry returned
      exact (accounted entry returned).imp id ((ingest_known sane.sound ingested).1 entry)
  | failsReconcile stands => exact iff_of_true accounted trivial
  | truncates stands =>
      constructor
      · intro after entry listed
        refine (after entry (sane.written entry listed)).resolve_left ?_
        rw [enter_journal, withoutFile_journal]
        exact List.not_mem_nil
      · intro considerate entry returned
        exact .inr ((accounted entry returned).elim (considerate entry) id)

omit [DecidableEq ι] in
theorem Fresh.allAccounted (fresh : scene.Fresh) : scene.AllAccounted := by
  intro entry returned
  rw [fresh.returned] at returned
  cases returned

/-- A process that gives up leaves the others apart. -/
theorem Apart.give_up (apart : scene.Apart) : (scene.enter process .idle).Apart where
  opened other entry inode stands :=
    apart.opened other entry inode ((enter_cases stands).resolve_left nofun)
  alone other entry inode stands third := by
    have before := apart.alone other entry inode ((enter_cases stands).resolve_left nofun) third
    exact ⟨fun entries now => before.1 entries ((enter_cases now).resolve_left nofun),
      fun now => before.2 ((enter_cases now).resolve_left nofun)⟩
  holding other entries stands :=
    apart.holding other entries ((enter_cases stands).resolve_left nofun)
  recorded other stands := apart.recorded other ((enter_cases stands).resolve_left nofun)

/-- Where no process reconciles, one may have the file open that the path names. -/
theorem Apart.opened_alone {now : Scene ι} (phase : now.phase = scene.phase)
    (named : now.path = some inode)
    (idle : ∀ other, (∀ entries, scene.phase other ≠ .holding entries) ∧
      scene.phase other ≠ .recorded)
    (others : ∀ other entry' inode', scene.phase other = .opened entry' inode' → inode' = inode) :
    (now.enter process (.opened entry inode)).Apart := by
  have before {other : ι} {stand : Phase}
      (stands : (now.enter process (.opened entry inode)).phase other = stand) :
      stand = .opened entry inode ∨ scene.phase other = stand := phase ▸ enter_cases stands
  constructor
  · intro other entry' inode' stands
    rcases before stands with same | was
    · cases same
      exact named
    · rw [others other entry' inode' was]
      exact named
  · intro other entry' inode' _ third
    exact ⟨fun entries stands => (before stands).elim nofun ((idle third).1 entries),
      fun stands => (before stands).elim nofun (idle third).2⟩
  · intro other entries stands
    exact ((before stands).elim nofun ((idle other).1 entries)).elim
  · intro other stands
    exact ((before stands).elim nofun (idle other).2).elim

theorem Apart.next (sane : scene.Sane) (apart : scene.Apart) {action : JournalAction ι}
    (exclusive : scene.Exclusive action) (moves : Moves scene action scene') : scene'.Apart := by
  cases moves with
  | @opens process entry inode idle named =>
      refine Apart.opened_alone rfl named exclusive fun other entry' inode' stands => ?_
      have same := (apart.opened other entry' inode' stands).symm.trans named
      exact Option.some.inj same
  | @creates process entry idle missing =>
      refine @Apart.opened_alone ι _ scene _ _ _ _ rfl rfl exclusive
        fun other entry' inode' stands => ?_
      have named := apart.opened other entry' inode' stands
      rw [missing] at named
      cases named
  | @writes process entry inode stands =>
      have alone := apart.alone process entry inode stands
      refine Apart.give_up ⟨apart.opened, apart.alone, ?_, ?_⟩
      · intro other entries holding
        exact absurd holding ((alone other).1 entries)
      · intro other recorded
        exact absurd recorded (alone other).2
  | failsAppend stands => exact apart.give_up
  | finds => exact apart
  | @reads process idle =>
      constructor
      · intro other entry inode stands
        exact absurd ((enter_cases stands).resolve_left nofun) (exclusive other entry inode)
      · intro other entry inode stands
        exact absurd ((enter_cases stands).resolve_left nofun) (exclusive other entry inode)
      · intro other entries stands entry listed
        rcases enter_cases stands with same | before
        · cases same
          exact listed
        · exact apart.holding other entries before entry listed
      · intro other stands
        exact apart.recorded other ((enter_cases stands).resolve_left nofun)
  | @commits process entries session stands ingested =>
      obtain ⟨keeps, stores⟩ := ingest_known sane.sound ingested
      have closed : ∀ other entry inode, scene.phase other ≠ .opened entry inode :=
        fun other entry inode open_ => (apart.alone other entry inode open_ process).1 entries stands
      constructor
      · intro other entry inode now
        exact absurd ((enter_cases now).resolve_left nofun) (closed other entry inode)
      · intro other entry inode now
        exact absurd ((enter_cases now).resolve_left nofun) (closed other entry inode)
      · intro other entries' now
        exact apart.holding other entries' ((enter_cases now).resolve_left nofun)
      · intro other now entry listed
        rcases enter_cases now with _ | before
        · exact stores entry (apart.holding process entries stands entry listed)
        · exact keeps entry (apart.recorded other before entry listed)
  | failsReconcile stands => exact apart.give_up
  | @truncates process stands =>
      refine Apart.give_up ⟨?_, apart.alone, ?_, ?_⟩
      · intro other entry inode open_
        exact absurd stands (apart.alone other entry inode open_ process).2
      · intro other entries _ entry listed
        rw [withoutFile_journal] at listed
        cases listed
      · intro other _ entry listed
        rw [withoutFile_journal] at listed
        cases listed

theorem Apart.considerate (apart : scene.Apart) {action : JournalAction ι}
    (moves : Moves scene action scene') : scene.Considerate action := by
  cases moves with
  | @writes process entry inode stands =>
      exact fun entry' inode' now => .inl (apart.opened process entry' inode' now)
  | @truncates process stands => exact apart.recorded process stands
  | opens => trivial
  | creates => trivial
  | failsAppend => trivial
  | finds => trivial
  | reads => trivial
  | commits => trivial
  | failsReconcile => trivial

def world (scene : Scene ι) (trace : List Event) : World := ⟨scene.database, scene.journal, trace⟩

/-- The system calls of a reconciliation that nothing comes between. -/
def reconcileCalls (scene : Scene ι) (process : ι) : List (JournalAction ι) :=
  if scene.journal.isEmpty then [.read process]
  else [.read process, .commit process, .truncate process]

/-- A call of `reconcile` that nothing disturbs is these system calls in a row. -/
theorem reconcile_alone (sane : scene.Sane) (idle : scene.phase process = .idle)
    {reactions : ReconcileReactions} (quiet : Undisturbed reactions) {trace : List Event}
    {report : ReconciliationReport} {final : World}
    (ran : reconcile reactions (scene.world trace) = .ok report final) :
    ∃ history last, Calls.perform step scene (scene.reconcileCalls process) =
      .ok (history ++ [last]) ∧ final = last.world trace := by
  obtain ⟨rfl, _⟩ := (ends_of_ok ran).mp (reconcile_ends reactions sane.sound.readable)
  by_cases empty : scene.journal.isEmpty = true
  · refine ⟨[], scene, ?_, cleared_of_empty (List.isEmpty_iff.mp empty)⟩
    unfold reconcileCalls
    rw [if_pos empty]
    simp only [Calls.perform, step, idle, empty, if_true]
    rfl
  · obtain ⟨session, ingested⟩ := (@ingest_isOk_iff scene.database _ (fun _ => rfl) 0 scene.journal
      0 0 sane.sound.readable).mpr ((reconcile_returns_iff quiet sane.sound.readable).mp
        ⟨report, _, ran⟩)
    have rows := (ingest_absorbs sane.sound.readable ingested).1
    let reading := scene.enter process (.holding scene.journal)
    let recorded := (reading.withDatabase session.database).enter process .recorded
    have reads : scene.step (.read process) = .ok reading := by
      simp only [step, idle, empty]
      rfl
    have commits : reading.step (.commit process) = .ok recorded := by
      have stands : reading.phase process = .holding scene.journal := enter_self
      have same : reading.database = scene.database := rfl
      simp only [step, stands, same, ingested]
      rfl
    have truncates : recorded.step (.truncate process) =
        .ok (recorded.withoutFile.enter process .idle) := by
      have stands : recorded.phase process = .recorded := enter_self
      simp only [step, stands]
      rfl
    refine ⟨[reading, recorded], recorded.withoutFile.enter process .idle, ?_, ?_⟩
    · unfold reconcileCalls
      rw [if_neg empty]
      exact Calls.perform_step reads (Calls.perform_step commits
        (Calls.perform_step truncates rfl))
    · unfold cleared stored world
      rw [enter_journal, withoutFile_journal, ← rows]
      rfl

end

end Scene

namespace Backup

open TaskControl.Runtime.Backup

def unwritten : Scene Bool where
  files _ := []
  path := none
  created := 0
  database := world.database
  phase _ := .idle
  returned := []

theorem unwritten_fresh : unwritten.Fresh := ⟨rfl, fun _ => rfl, rfl, world_sound⟩

/-- An append between the read of a reconciliation and its removal of the file. -/
def between : List (JournalAction Bool) :=
  [.openAppend true journalled, .write true, .read false, .openAppend true foreign, .write true,
    .commit false, .truncate false]

/-- Whether a run that goes through ends with an entry that is not accounted for. -/
def loses (actions : List (JournalAction Bool)) : Bool :=
  match Calls.perform Scene.step unwritten actions with
  | .error _ => false
  | .ok history => history.any fun scene => scene.returned.any fun entry =>
      scene.journal.isEmpty && scene.database.executions.all fun record =>
        decide (record.executionId ≠ entry.executionId)

theorem between_loses : loses between = true := by decide +kernel

def appending : Scene Bool := unwritten.withFile.enter true (.opened journalled 0)

def appended : Scene Bool := (appending.withLine 0 journalled).enter true .idle

def inspecting : Scene Bool := appended.enter false (.holding [journalled])

/-- One process appends, and then the other reads. -/
def inTurn : List (JournalAction Bool) := [.openAppend true journalled, .write true, .read false]

theorem inTurn_runs : Calls.perform Scene.step unwritten inTurn =
    .ok [appending, appended, inspecting] := rfl

theorem inTurn_exclusive :
    ∀ made ∈ [unwritten, appending, appended, inspecting].zip inTurn,
      made.1.Exclusive made.2 := by
  intro made member
  simp only [inTurn, List.zip_cons_cons, List.zip_nil_right, List.mem_cons, List.not_mem_nil,
    or_false] at member
  rcases member with rfl | rfl | rfl
  · exact fun other => ⟨fun entries => nofun, nofun⟩
  · trivial
  · intro other entry inode
    cases other with
    | false => exact nofun
    | true => exact nofun

theorem opens : unwritten.step (.openAppend true journalled) = .ok appending := rfl

theorem writes : appending.step (.write true) = .ok appended := rfl

theorem appended_sane : appended.Sane :=
  ((Scene.Sane.start unwritten_fresh).next (Scene.step_moves opens)).next (Scene.step_moves writes)

end Backup

theorem reconcile_alone_appended : ∃ report final history last,
    reconcile Backup.undisturbed (Backup.appended.world []) = .ok report final ∧
      Calls.perform Scene.step Backup.appended (Backup.appended.reconcileCalls false) =
        .ok (history ++ [last]) ∧ final = last.world [] := by
  have ran : ∃ report final, reconcile Backup.undisturbed (Backup.appended.world []) =
      .ok report final := by
    refine (@reconcile_returns_iff Backup.undisturbed Backup.undisturbed_quiet
      (Backup.appended.world []) Backup.appended_sane.sound.readable).mpr ?_
    rintro ⟨earlier, bad, later, split, unrecordable, _⟩
    have only : [Backup.journalled] = earlier ++ bad :: later := split
    have listed : bad ∈ [Backup.journalled] := by
      rw [only]
      exact List.mem_append_right _ List.mem_cons_self
    rw [List.mem_singleton.mp listed] at unrecordable
    exact unrecordable Backup.journalled_recordable
  obtain ⟨report, final, ran⟩ := ran
  obtain ⟨history, last, performed, same⟩ := @Scene.reconcile_alone Bool _ Backup.appended false
    Backup.appended_sane rfl Backup.undisturbed Backup.undisturbed_quiet [] report final ran
  exact ⟨report, final, history, last, ran, performed, same⟩

/-- An append beside a reconciliation can be lost. -/
theorem between_not_accounted : ¬ ∀ history,
    Calls.perform Scene.step Backup.unwritten Backup.between = .ok history →
      ∀ reached ∈ history, reached.AllAccounted := by
  intro accounted
  have loses := Backup.between_loses
  unfold Backup.loses at loses
  split at loses
  · cases loses
  · next history ran =>
      obtain ⟨reached, member, lost⟩ := List.any_eq_true.mp loses
      obtain ⟨entry, returned, unseen⟩ := List.any_eq_true.mp lost
      rw [Bool.and_eq_true, List.all_eq_true] at unseen
      rcases accounted history ran reached member entry returned with listed | known
      · rw [List.isEmpty_iff.mp unseen.1] at listed
        cases listed
      · obtain ⟨record, stored, same⟩ := List.mem_map.mp known
        exact of_decide_eq_true (unseen.2 record stored) same

end TaskControl.Activation
