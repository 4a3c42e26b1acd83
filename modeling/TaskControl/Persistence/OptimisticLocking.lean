import TaskControl.Persistence.TaskRecords
import TaskControl.Foundation.Transition
import Mathlib.Logic.Function.Basic

/-!
# Units of work that update one task

Each unit of work is a session: the instance it loads first stays in its identity
map, `update` compares the version of that instance, and the flush writes the row
whatever its version is by then.  Reads see committed rows, and a flushed row is
locked until its unit commits.  An update is lost exactly where another unit
commits between a unit's load and its flush.
-/

set_option autoImplicit false

namespace TaskControl.Persistence

open Transition

/-- How a unit of work ends, with the version it expected. -/
inductive Ending where
  | committed (expectedVersion : Nat)
  | refused (expectedVersion : Nat) (error : UpdateError)
  | raised (error : Raised)

/-- Where a unit of work stands.  `instance_` is the identity map's record of the task. -/
inductive UnitPhase where
  | reading (instance_ : Option TaskRecord) (expectedVersion : Option Nat)
  | updated (loaded : TaskRecord) (expectedVersion : Nat) (changed : TaskRecord)
  | flushed (loaded : TaskRecord) (expectedVersion : Nat) (written : TaskRecord)
  | ended (ending : Ending)

def UnitPhase.running : UnitPhase → Bool
  | .ended _ => false
  | _ => true

def UnitPhase.holdsLock : UnitPhase → Bool
  | .flushed _ _ _ => true
  | _ => false

/-- A commit that took effect: its unit, the version it expected, what it had loaded, and the
row before and after. -/
structure Commit (Id : Type) where
  unit : Id
  expectedVersion : Nat
  loaded : TaskRecord
  replaced : TaskRecord
  written : TaskRecord

structure TaskRow (Id : Type) where
  row : Option TaskRecord
  units : Id → UnitPhase
  commits : List (Commit Id)

section

variable {Id : Type} [DecidableEq Id]

def TaskRow.enter (table : TaskRow Id) (id : Id) (phase : UnitPhase) : TaskRow Id :=
  { table with units := Function.update table.units id phase }

def TaskRow.store (table : TaskRow Id) (stored : TaskRecord) (commit : Commit Id) : TaskRow Id :=
  { table with row := some stored, commits := table.commits ++ [commit] }

inductive UnitEvent where
  | load
  | readVersion
  | update (task : Task)
  | flush
  | commit
  | commitUnconfirmed (error : Raised)
  | fail (error : Raised)

/-- What `update` makes of the instance that `session.get` gives it. -/
def afterUpdate (record : Option TaskRecord) (task : Task) (expectedVersion : Nat) : UnitPhase :=
  match record with
  | none => .ended (.refused expectedVersion (.notFound (notFoundError "Task not found.")))
  | some loaded =>
      match updateRecord (some loaded) task expectedVersion with
      | .ok changed => .updated loaded expectedVersion changed
      | .error error => .ended (.refused expectedVersion error)

inductive UnitStep (table : TaskRow Id) (id : Id) : UnitEvent → TaskRow Id → Prop where
  /-- `get`: the row is read only where the session has no instance of it yet. -/
  | load (expected : Option Nat) (here : table.units id = .reading none expected) :
      UnitStep table id .load (table.enter id (.reading table.row expected))
  /-- `version_of` selects a column and leaves the identity map alone. -/
  | readVersion (instance_ : Option TaskRecord) (expected : Option Nat)
      (here : table.units id = .reading instance_ expected) :
      UnitStep table id .readVersion
        (table.enter id (.reading instance_ (table.row.map (·.storageVersion))))
  | update (task : Task) (instance_ : Option TaskRecord) (expectedVersion : Nat)
      (here : table.units id = .reading instance_ (some expectedVersion)) :
      UnitStep table id (.update task)
        (table.enter id (afterUpdate (instance_.or table.row) task expectedVersion))
  | flush (loaded changed stored : TaskRecord) (expectedVersion : Nat)
      (here : table.units id = .updated loaded expectedVersion changed)
      (present : table.row = some stored)
      (unlocked : ∀ other, other ≠ id → (table.units other).holdsLock = false) :
      UnitStep table id .flush
        (table.enter id (.flushed loaded expectedVersion (flushRecord loaded changed stored)))
  | commit (loaded written stored : TaskRecord) (expectedVersion : Nat)
      (here : table.units id = .flushed loaded expectedVersion written)
      (present : table.row = some stored) :
      UnitStep table id .commit
        ((table.store written ⟨id, expectedVersion, loaded, stored, written⟩).enter id
          (.ended (.committed expectedVersion)))
  /-- The commit takes effect and its confirmation is lost. -/
  | commitUnconfirmed (loaded written stored : TaskRecord) (expectedVersion : Nat) (error : Raised)
      (here : table.units id = .flushed loaded expectedVersion written)
      (present : table.row = some stored) :
      UnitStep table id (.commitUnconfirmed error)
        ((table.store written ⟨id, expectedVersion, loaded, stored, written⟩).enter id
          (.ended (.raised error)))
  | fail (error : Raised) (running : (table.units id).running = true) :
      UnitStep table id (.fail error) (table.enter id (.ended (.raised error)))

/-- Any row, and sessions that have read nothing. -/
def Opened (table : TaskRow Id) : Prop :=
  (∀ id, table.units id = .reading none none) ∧ table.commits = []

def UnitMoves (table table' : TaskRow Id) : Prop := ∃ id event, UnitStep table id event table'

/-- At a flush, the row is still the one that the unit's session had loaded. -/
def FlushesLoaded (table : TaskRow Id) (id : Id) : UnitEvent → Prop
  | .flush => ∀ loaded expectedVersion changed,
      table.units id = .updated loaded expectedVersion changed → table.row = some loaded
  | _ => True

def UnitMovesFresh (table table' : TaskRow Id) : Prop :=
  ∃ id event, FlushesLoaded table id event ∧ UnitStep table id event table'

/-! ## What optimistic locking promises -/

/-- A commit of the unit, with this expected version, took effect. -/
def HasCommitted (table : TaskRow Id) (id : Id) (expectedVersion : Nat) : Prop :=
  ∃ commit ∈ table.commits, commit.unit = id ∧ commit.expectedVersion = expectedVersion

/-- Of the units that expected one version, at most one commits. -/
def OneCommits (table : TaskRow Id) : Prop :=
  ∀ first second expectedVersion, HasCommitted table first expectedVersion →
    HasCommitted table second expectedVersion → first = second

/-- Once a unit has committed, another one that expected the same version and sees the row as
it is raises a conflict. -/
def OthersConflict (table : TaskRow Id) : Prop :=
  ∀ first second expectedVersion instance_ task, HasCommitted table first expectedVersion →
    table.units second = .reading instance_ (some expectedVersion) →
    instance_.or table.row = table.row →
    ∃ message, afterUpdate (instance_.or table.row) task expectedVersion =
      .ended (.refused expectedVersion (.concurrencyConflict message))

/-- Every commit replaced the row that its unit had loaded, at the version it expected. -/
def NothingOverwritten (table : TaskRow Id) : Prop :=
  ∀ commit ∈ table.commits,
    commit.replaced = commit.loaded ∧ commit.replaced.storageVersion = commit.expectedVersion

/-! ## Runs whose flushes find the row they loaded -/

/-- What a unit's phase says about the row: an instance that passed the comparison has the
expected version, and a flushed row is locked, so the one that was loaded still stands. -/
def UnitPhase.Fits (table : TaskRow Id) : UnitPhase → Prop
  | .updated loaded expectedVersion changed =>
      loaded.storageVersion = expectedVersion ∧ changed.storageVersion = expectedVersion + 1
  | .flushed loaded expectedVersion written =>
      table.row = some loaded ∧ loaded.storageVersion = expectedVersion ∧
        written.storageVersion = expectedVersion + 1
  | _ => True

structure Serial (table : TaskRow Id) : Prop where
  fits : ∀ id, (table.units id).Fits table
  exclusive : ∀ first second, (table.units first).holdsLock = true →
    (table.units second).holdsLock = true → first = second
  passed : ∀ commit ∈ table.commits, ∃ stored,
    table.row = some stored ∧ commit.expectedVersion < stored.storageVersion
  increasing : table.commits.Pairwise fun earlier later =>
    earlier.expectedVersion < later.expectedVersion
  kept : NothingOverwritten table

theorem enter_units (table : TaskRow Id) (id other : Id) (phase : UnitPhase) :
    (table.enter id phase).units other = if other = id then phase else table.units other := by
  simp only [TaskRow.enter, Function.update_apply]

omit [DecidableEq Id] in
@[simp] theorem store_units (table : TaskRow Id) (stored : TaskRecord) (commit : Commit Id) :
    (table.store stored commit).units = table.units := rfl

omit [DecidableEq Id] in
theorem afterUpdate_fits (table : TaskRow Id) (record : Option TaskRecord) (task : Task)
    (expectedVersion : Nat) :
    (afterUpdate record task expectedVersion).Fits table ∧
      (afterUpdate record task expectedVersion).holdsLock = false := by
  cases record with
  | none => exact ⟨trivial, rfl⟩
  | some loaded =>
      simp only [afterUpdate]
      cases updated : updateRecord (some loaded) task expectedVersion with
      | error error => exact ⟨trivial, rfl⟩
      | ok changed =>
          obtain ⟨_, same, version, next⟩ := updateRecord_ok updated
          cases same
          exact ⟨⟨version, next⟩, rfl⟩

/-- A unit moves and the row stays. -/
theorem Serial.enter {table : TaskRow Id} (serial : Serial table) {id : Id} {phase : UnitPhase}
    (fits : phase.Fits table)
    (alone : phase.holdsLock = true → ∀ other, other ≠ id → (table.units other).holdsLock = false) :
    Serial (table.enter id phase) := by
  refine ⟨?_, ?_, serial.passed, serial.increasing, serial.kept⟩
  · intro other
    rw [enter_units]
    split
    · exact fits
    · exact serial.fits other
  · intro first second firstHolds secondHolds
    rw [enter_units] at firstHolds secondHolds
    split at firstHolds
    · next isFirst =>
        split at secondHolds
        · next isSecond => rw [isFirst, isSecond]
        · next notSecond =>
            rw [alone firstHolds second notSecond] at secondHolds
            cases secondHolds
    · next notFirst =>
        split at secondHolds
        · rw [alone secondHolds first notFirst] at firstHolds
          cases firstHolds
        · exact serial.exclusive first second firstHolds secondHolds

/-- A commit replaces the row that its unit loaded by the next version. -/
theorem Serial.commit {table : TaskRow Id} (serial : Serial table) {id : Id}
    {loaded written stored : TaskRecord} {expectedVersion : Nat}
    (here : table.units id = .flushed loaded expectedVersion written)
    (present : table.row = some stored) (ending : Ending) :
    Serial ((table.store written ⟨id, expectedVersion, loaded, stored, written⟩).enter id
      (.ended ending)) := by
  have fits := serial.fits id
  rw [here] at fits
  obtain ⟨unmoved, version, next⟩ := fits
  rw [present] at unmoved
  cases unmoved
  have holds : (table.units id).holdsLock = true := by rw [here]; rfl
  have below : ∀ commit ∈ table.commits, commit.expectedVersion < expectedVersion := by
    intro commit member
    obtain ⟨row, found, passed⟩ := serial.passed commit member
    rw [present] at found
    cases found
    omega
  refine ⟨?_, ?_, ?_, ?_, ?_⟩
  · intro other
    rw [enter_units]
    split
    · trivial
    · next apart =>
        have before := serial.fits other
        cases at_ : table.units other with
        | flushed otherLoaded otherVersion otherWritten =>
            have both := serial.exclusive other id (by rw [at_]; rfl) holds
            exact absurd both apart
        | reading instance_ expected =>
            rw [store_units, at_]
            trivial
        | updated otherLoaded otherVersion changed =>
            rw [store_units, at_]
            rw [at_] at before
            exact before
        | ended otherEnding =>
            rw [store_units, at_]
            trivial
  · intro first second firstHolds secondHolds
    rw [enter_units] at firstHolds secondHolds
    split at firstHolds
    · cases firstHolds
    · split at secondHolds
      · cases secondHolds
      · exact serial.exclusive first second firstHolds secondHolds
  · have all : ∀ commit ∈ table.commits ++ [⟨id, expectedVersion, loaded, loaded, written⟩],
        commit.expectedVersion < written.storageVersion := by
      rw [List.forall_mem_append, List.forall_mem_singleton]
      refine ⟨fun commit member => ?_, Nat.lt_of_lt_of_le (Nat.lt_succ_self _) (Nat.le_of_eq next.symm)⟩
      have earlier := below commit member
      omega
    exact fun commit member => ⟨written, rfl, all commit member⟩
  · refine List.pairwise_append.mpr ⟨serial.increasing, List.pairwise_singleton _ _, ?_⟩
    intro commit member later isNew
    cases List.mem_singleton.mp isNew
    exact below commit member
  · have all : ∀ commit ∈ table.commits ++ [⟨id, expectedVersion, loaded, loaded, written⟩],
        commit.replaced = commit.loaded ∧
          commit.replaced.storageVersion = commit.expectedVersion := by
      rw [List.forall_mem_append, List.forall_mem_singleton]
      exact ⟨serial.kept, rfl, version⟩
    exact all

theorem Serial.step {table table' : TaskRow Id} {id : Id} {event : UnitEvent}
    (serial : Serial table) (fresh : FlushesLoaded table id event)
    (steps : UnitStep table id event table') : Serial table' := by
  cases steps with
  | load expected here => exact serial.enter trivial (fun holds => by cases holds)
  | readVersion instance_ expected here => exact serial.enter trivial (fun holds => by cases holds)
  | update task instance_ expectedVersion here =>
      obtain ⟨fits, unlocked⟩ :=
        afterUpdate_fits table (instance_.or table.row) task expectedVersion
      refine serial.enter fits fun holds => ?_
      rw [unlocked] at holds
      cases holds
  | flush loaded changed stored expectedVersion here present unlocked =>
      have standing := fresh loaded expectedVersion changed here
      rw [present] at standing
      cases standing
      have fits := serial.fits id
      rw [here] at fits
      rw [flushRecord_loaded]
      exact serial.enter ⟨present, fits⟩ fun _ => unlocked
  | commit loaded written stored expectedVersion here present =>
      exact serial.commit here present _
  | commitUnconfirmed loaded written stored expectedVersion error here present =>
      exact serial.commit here present _
  | fail error running => exact serial.enter trivial (fun holds => by cases holds)

omit [DecidableEq Id] in
theorem serial_opened {table : TaskRow Id} (opened : Opened table) : Serial table := by
  obtain ⟨reading, none_⟩ := opened
  refine ⟨?_, ?_, ?_, ?_, ?_⟩
  · intro id
    rw [reading]
    trivial
  · intro first second holds
    rw [reading] at holds
    cases holds
  · rw [none_]
    exact fun _ member => nomatch member
  · rw [none_]
    exact List.Pairwise.nil
  · intro commit member
    rw [none_] at member
    cases member

omit [DecidableEq Id] in
theorem Serial.oneCommits {table : TaskRow Id} (serial : Serial table) : OneCommits table := by
  rintro first second expectedVersion ⟨firstCommit, firstMember, rfl, rfl⟩
    ⟨secondCommit, secondMember, rfl, same⟩
  by_contra apart
  have symmetric : Std.Symm fun earlier later : Commit Id =>
      earlier.expectedVersion ≠ later.expectedVersion := ⟨fun _ _ distinct => distinct.symm⟩
  have distinct := serial.increasing.imp fun less => Nat.ne_of_lt less
  exact distinct.forall firstMember secondMember (fun equal => apart (congrArg Commit.unit equal))
    same.symm

omit [DecidableEq Id] in
theorem Serial.othersConflict {table : TaskRow Id} (serial : Serial table) :
    OthersConflict table := by
  rintro first second expectedVersion instance_ task ⟨commit, member, _, rfl⟩ _ current
  obtain ⟨stored, present, passed⟩ := serial.passed commit member
  obtain ⟨message, refused⟩ :=
    updateRecord_stale stored (Nat.ne_of_gt passed) task
  refine ⟨message, ?_⟩
  rw [current, present]
  simp only [afterUpdate, refused]

end

/-! ## Two editors -/

theorem nightlyId_bounded : 7 < uuidBound := by decide

theorem operatorId_bounded : 1 < uuidBound := by decide

def nightlyBackup (name : PythonText.Text) (named : PythonText.strip name ≠ [])
    (bounded : name.length ≤ maxNameLength) : Task where
  taskId := ⟨7, nightlyId_bounded⟩
  name := name
  slug := ⟨"nightly".toList, by decide, by decide⟩
  ownerId := ⟨1, operatorId_bounded⟩
  createdAt := ⟨0⟩
  createdBy := ⟨1, operatorId_bounded⟩
  description := []
  lifecycleState := .draft
  activeRevisionId := none
  labels := ∅
  updatedAt := none
  updatedBy := none
  named := named
  nameBounded := bounded
  descriptionBounded := by decide
  labelsBounded := by decide
  runnable := by decide

def firstEdit : Task := nightlyBackup "first".toList (by decide) (by decide)

def secondEdit : Task := nightlyBackup "second".toList (by decide) (by decide)

/-- The row as created, with storage version one. -/
def createdRow : TaskRecord where
  slug := "nightly".toList
  name := "backup".toList
  description := []
  ownerId := []
  lifecycleState := "draft"
  activeRevisionId := none
  labels := []
  createdAt := ⟨0⟩
  createdBy := []
  updatedAt := none
  updatedBy := none
  storageVersion := 1

/-- What each editor's session holds after its update. -/
def firstChanged : TaskRecord := { applyTaskToRecord createdRow firstEdit with storageVersion := 2 }

def secondChanged : TaskRecord :=
  { applyTaskToRecord createdRow secondEdit with storageVersion := 2 }

def firstWritten : TaskRecord := flushRecord createdRow firstChanged createdRow

def secondWritten : TaskRecord := flushRecord createdRow secondChanged firstWritten

def openedTable : TaskRow Nat := ⟨some createdRow, fun _ => .reading none none, []⟩

/-- Both commits expected version one, and the second replaced a row it had not loaded. -/
theorem both_committed {table : TaskRow Nat}
    (commits : table.commits = [⟨0, 1, createdRow, createdRow, firstWritten⟩,
      ⟨1, 1, createdRow, firstWritten, secondWritten⟩]) :
    ¬ OneCommits table ∧ ¬ NothingOverwritten table := by
  constructor
  · intro one
    have both : (0 : Nat) = 1 := one 0 1 1
      ⟨_, by rw [commits]; exact List.mem_cons_self, rfl, rfl⟩
      ⟨_, by rw [commits]; exact List.mem_cons_of_mem _ List.mem_cons_self, rfl, rfl⟩
    cases both
  · intro kept
    have same := (kept ⟨1, 1, createdRow, firstWritten, secondWritten⟩
      (by rw [commits]; exact List.mem_cons_of_mem _ List.mem_cons_self)).1
    have names : firstWritten.name = createdRow.name := congrArg TaskRecord.name same
    revert names
    decide

end TaskControl.Persistence
