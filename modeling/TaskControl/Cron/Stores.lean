import TaskControl.Common.Errors
import TaskControl.Cron.Rendering
import TaskControl.Foundation.Effects
import TaskControl.Foundation.SortedTable

/-!
# Where cron artefacts are stored

The host as the stores see it, and the store operations as calls that can fail.
A write is one step, since the adapters write a temporary file and rename it; a
failing call may still have taken effect.
-/

set_option autoImplicit false

namespace TaskControl.Cron

open PythonText Effects

inductive CrontabName where
  | user
  | system
  deriving DecidableEq, Repr

inductive DirectoryName where
  | cronD
  | runParts (classification : PeriodicClassification)
  deriving DecidableEq, Repr

structure File where
  content : Text
  executable : Bool
  deriving DecidableEq, Repr

abbrev Directory := SortedTable Text File

/-- A crontab is absent or holds a text. -/
structure Host where
  crontab : CrontabName → Option Text
  directory : DirectoryName → Directory

theorem Host.ext {first second : Host} (crontabs : ∀ c, first.crontab c = second.crontab c)
    (files : ∀ d name, (first.directory d).find name = (second.directory d).find name) :
    first = second := by
  have sameCrontabs : first.crontab = second.crontab := funext crontabs
  have sameDirectories : first.directory = second.directory :=
    funext fun d => SortedTable.ext_find (files d)
  cases first
  cases second
  simp_all

/-- `CrontabText.read`: empty when there is no crontab. -/
def Host.readCrontab (host : Host) (c : CrontabName) : Text :=
  match host.crontab c with
  | none => []
  | some text => translateNewlines text

def Host.writeCrontab (host : Host) (c : CrontabName) (content : Text) : Host :=
  { host with crontab := fun other => if other = c then some content else host.crontab other }

/-- `ManagedDirectory.read` of a plain file name: empty when there is no file. -/
def Host.readFile (host : Host) (d : DirectoryName) (name : Text) : Text :=
  match (host.directory d).find name with
  | none => []
  | some file => translateNewlines file.content

def Host.writeFile (host : Host) (d : DirectoryName) (name : Text) (file : File) : Host :=
  { host with directory := fun other =>
      if other = d then (host.directory d).insert name file else host.directory other }

def Host.removeFile (host : Host) (d : DirectoryName) (name : Text) : Host :=
  { host with directory := fun other =>
      if other = d then (host.directory d).erase name else host.directory other }

/-! ## Calls that can fail -/

/-- A failing store call: what it raises, and whether it took effect all the same. -/
structure StoreFault where
  error : Raised
  tookEffect : Bool

/-- The calls that fail, by their number. -/
abbrev Faults := Nat → Option StoreFault

/-- What every touched store held before an apply began; the first capture of a
store is kept. -/
structure Snapshot where
  crontabs : List (CrontabName × Text)
  files : List (DirectoryName × Text × Text)

structure Session where
  host : Host
  calls : Nat
  snapshot : Snapshot

def Session.start (host : Host) : Session := ⟨host, 0, ⟨[], []⟩⟩

abbrev StoreM := Program Raised Session

/-- One store call with an effect on the host. -/
def storeCall (faults : Faults) (effect : Host → Host) : StoreM Unit := fun session =>
  let counted := { session with calls := session.calls + 1 }
  match faults session.calls with
  | none => .ok () { counted with host := effect session.host }
  | some fault =>
      .error fault.error
        (if fault.tookEffect then { counted with host := effect session.host } else counted)

def readCrontab (faults : Faults) (c : CrontabName) : StoreM Text := do
  storeCall faults id
  return (← get).host.readCrontab c

def writeCrontab (faults : Faults) (c : CrontabName) (content : Text) : StoreM Unit :=
  storeCall faults fun host => host.writeCrontab c content

/-- `_resolve` accepts a plain file name. -/
def plainName (name : Text) : Bool :=
  name ≠ [] && !name.contains '/' && name ≠ ['.'] && name ≠ ['.', '.']

def resolve (name : Text) : StoreM Unit :=
  if plainName name then pure ()
  else throw (.taskControl (configurationError "A cron artefact name must be a plain file name."))

def readFile (faults : Faults) (d : DirectoryName) (name : Text) : StoreM Text := do
  resolve name
  storeCall faults id
  return (← get).host.readFile d name

def writeFile (faults : Faults) (d : DirectoryName) (name content : Text) (executable : Bool) :
    StoreM Unit := do
  resolve name
  storeCall faults fun host => host.writeFile d name ⟨content, executable⟩

def removeFile (faults : Faults) (d : DirectoryName) (name : Text) : StoreM Unit := do
  resolve name
  storeCall faults fun host => host.removeFile d name

/-! ## Frames -/

theorem Host.writeCrontab_crontab (host : Host) (c other : CrontabName) (content : Text) :
    (host.writeCrontab c content).crontab other =
      if other = c then some content else host.crontab other :=
  rfl

theorem Host.writeCrontab_directory (host : Host) (c : CrontabName) (content : Text)
    (d : DirectoryName) : (host.writeCrontab c content).directory d = host.directory d :=
  rfl

theorem Host.writeFile_find (host : Host) (d other : DirectoryName) (name key : Text)
    (file : File) : ((host.writeFile d name file).directory other).find key =
      if other = d ∧ name = key then some file else (host.directory other).find key := by
  by_cases same : other = d
  · subst same
    simp [Host.writeFile, SortedTable.find_insert]
  · simp [Host.writeFile, same]

theorem Host.removeFile_find (host : Host) (d other : DirectoryName) (name key : Text) :
    ((host.removeFile d name).directory other).find key =
      if other = d ∧ name = key then none else (host.directory other).find key := by
  by_cases same : other = d
  · subst same
    simp [Host.removeFile, SortedTable.find_erase]
  · simp [Host.removeFile, same]

/-! ## Reading back -/

theorem translateNewlines_cons {c : Char} (notCarriage : c ≠ '\r') (rest : Text) :
    translateNewlines (c :: rest) = c :: translateNewlines rest := by
  rw [translateNewlines, if_neg notCarriage]
  intro _ carriage
  exact absurd carriage notCarriage

/-- What stands before the first `\r` is read as it is. -/
theorem translateNewlines_append {first : Text} (carriageFree : '\r' ∉ first) (rest : Text) :
    translateNewlines (first ++ rest) = first ++ translateNewlines rest := by
  induction first with
  | nil => rfl
  | cons c tail ih =>
      rw [List.mem_cons, not_or] at carriageFree
      rw [List.cons_append, translateNewlines_cons (Ne.symm carriageFree.1), ih carriageFree.2]
      rfl

theorem translateNewlines_carriageFree {t : Text} (carriageFree : '\r' ∉ t) :
    translateNewlines t = t := by
  have read := translateNewlines_append carriageFree []
  rwa [List.append_nil, translateNewlines, List.append_nil] at read

theorem carriage_not_mem_translate (t : Text) : '\r' ∉ translateNewlines t := by
  induction t using translateNewlines.induct with
  | case1 => simp [translateNewlines]
  | case2 rest ih => simpa [translateNewlines] using ih
  | case3 c rest _ ih =>
      rw [translateNewlines]
      · intro member
        rcases List.mem_cons.mp member with here | later
        · split at here
          · cases here
          · rename_i differs
            exact differs here.symm
        · exact ih later
      · assumption

theorem translateNewlines_eq_self {t : Text} : translateNewlines t = t ↔ '\r' ∉ t := by
  constructor
  · intro same
    rw [← same]
    exact carriage_not_mem_translate t
  · exact translateNewlines_carriageFree

end TaskControl.Cron
