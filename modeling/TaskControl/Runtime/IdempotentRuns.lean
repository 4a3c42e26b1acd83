import TaskControl.Foundation.Transition
import TaskControl.Runtime.Runs

/-!
# Runs beside each other

Any number of calls of `run`, their transactions and launches in any order.  The search for
an identical request and the insert are two transactions; the unique key of the table
decides between calls that found nothing.  One call creates the execution and launches the
work, every call that returns has that execution, and a call that was beaten in between
raises instead of returning it.
-/

set_option autoImplicit false

namespace TaskControl.Runtime

open Effects Persistence

/-! ## Calls -/

/-- Where a call of `run` stands. -/
inductive RunPhase where
  | starting
  | loaded (task : Task) (revision : TaskRevision)
  | unmatched (task : Task) (revision : TaskRevision)
  | running (execution : Execution)
  | returned (result : RunResult)
  | raised (error : Raised)

/-- The database that the calls share, and which of them created and launched what. -/
structure Runs (ι : Type) where
  database : Database
  phase : ι → RunPhase
  created : List (ι × ExecutionId)
  launched : List (ι × ExecutionId)

/-- The search for the execution that an identical request created. -/
def existing (database : Database) (request : RunRequest) :
    Except TaskControlError (Option Execution) :=
  match request.idempotencyKey with
  | some key => database.findByIdempotencyKey request.taskId key
  | none => .ok none

/-- The execution that `run` creates. -/
def creation (request : RunRequest) (task : Task) (revision : TaskRevision)
    (requestedAt : UtcTimestamp) (executionId : ExecutionId) (correlationId : CorrelationId) :
    Except TaskControlError Execution :=
  Execution.requested executionId task.taskId revision.revisionId request.triggerSource requestedAt
    (some (request.correlationId.getD correlationId)) request.idempotencyKey request.requestedBy

namespace Runs

variable {ι : Type} [DecidableEq ι]

def enter (runs : Runs ι) (call : ι) (phase : RunPhase) : Runs ι :=
  { runs with phase := Function.update runs.phase call phase }

def withDatabase (runs : Runs ι) (database : Database) : Runs ι := { runs with database }

def withCreated (runs : Runs ι) (call : ι) (executionId : ExecutionId) : Runs ι :=
  { runs with created := runs.created ++ [(call, executionId)] }

def withLaunched (runs : Runs ι) (call : ι) (executionId : ExecutionId) : Runs ι :=
  { runs with launched := runs.launched ++ [(call, executionId)] }

end Runs

/-- One transaction or launch of one call. -/
inductive RunStep {ι : Type} [DecidableEq ι] (requests : ι → RunRequest) : Runs ι → Runs ι → Prop
  | loads {runs : Runs ι} {call : ι} {task : Task} {revision : TaskRevision}
      (stands : runs.phase call = .starting)
      (found : RuntimeService.runnable runs.database (requests call).taskId =
        .ok (task, revision)) :
      RunStep requests runs (runs.enter call (.loaded task revision))
  | repeats {runs : Runs ι} {call : ι} {task : Task} {revision : TaskRevision}
      {execution : Execution} (stands : runs.phase call = .loaded task revision)
      (found : existing runs.database (requests call) = .ok (some execution)) :
      RunStep requests runs (runs.enter call (.returned ⟨execution, true⟩))
  | misses {runs : Runs ι} {call : ι} {task : Task} {revision : TaskRevision}
      (stands : runs.phase call = .loaded task revision)
      (missing : existing runs.database (requests call) = .ok none) :
      RunStep requests runs (runs.enter call (.unmatched task revision))
  | creates {runs : Runs ι} {call : ι} {task : Task} {revision : TaskRevision}
      {requestedAt : UtcTimestamp} {executionId : ExecutionId} {correlationId : CorrelationId}
      {execution : Execution} {database : Database}
      (stands : runs.phase call = .unmatched task revision)
      (made : creation (requests call) task revision requestedAt executionId correlationId =
        .ok execution)
      (stored : runs.database.addExecution execution = .ok database) :
      RunStep requests runs
        (((runs.withDatabase database).withCreated call execution.executionId).enter call
          (.running execution))
  | saves {runs : Runs ι} {call : ι} {own next : Execution} {database : Database}
      (stands : runs.phase call = .running own) (same : next.executionId = own.executionId)
      (stored : runs.database.saveExecution next = .ok database) :
      RunStep requests runs ((runs.withDatabase database).enter call (.running next))
  | launches {runs : Runs ι} {call : ι} {own : Execution}
      (stands : runs.phase call = .running own) :
      RunStep requests runs (runs.withLaunched call own.executionId)
  | returns {runs : Runs ι} {call : ι} {own : Execution}
      (stands : runs.phase call = .running own) :
      RunStep requests runs (runs.enter call (.returned ⟨own, false⟩))
  | fails {runs : Runs ι} {call : ι} {error : Raised}
      (open_ : ∀ result, runs.phase call ≠ .returned result) :
      RunStep requests runs (runs.enter call (.raised error))

/-! ## Keys -/

/-- What the constraints of the table speak of, which no save changes. -/
structure RowKey where
  executionId : ExecutionId
  taskId : TaskId
  idempotencyKey : Option IdempotencyKey

def rowKey (record : ExecutionRecord) : RowKey :=
  ⟨record.executionId, record.taskId, record.idempotencyKey⟩

def rowKeys (database : Database) : List RowKey := database.executions.map rowKey

/-- The two keys are of one identical request. -/
def RowKey.Repeats (key other : RowKey) : Prop :=
  key.taskId = other.taskId ∧ key.idempotencyKey = other.idempotencyKey ∧
    key.idempotencyKey.isSome = true

theorem RowKey.Repeats.symm {key other : RowKey} (repeats : key.Repeats other) :
    other.Repeats key :=
  ⟨repeats.1.symm, repeats.2.1.symm, repeats.2.1 ▸ repeats.2.2⟩

theorem rowKey_savedRow (execution : Execution) (record : ExecutionRecord) :
    rowKey (Database.savedRow execution record) = rowKey record := by
  unfold Database.savedRow
  split <;> rfl

theorem rowKeys_save {database saved : Database} {execution : Execution}
    (done : database.saveExecution execution = .ok saved) :
    rowKeys saved = rowKeys database ∧ saved.tasks = database.tasks ∧
      saved.revisions = database.revisions := by
  unfold Database.saveExecution at done
  split at done
  · cases done
  · cases done
    refine ⟨?_, rfl, rfl⟩
    change (database.executions.map (Database.savedRow execution)).map rowKey = _
    rw [List.map_map]
    exact List.map_congr_left fun record _ => rowKey_savedRow execution record

/-- A row is added exactly where no constraint is violated. -/
theorem keyTaken_iff {database : Database} {execution : Execution} :
    database.keyTaken execution = true ↔ ∃ key ∈ rowKeys database,
      key.executionId = execution.executionId ∨
        key.Repeats (rowKey (executionToRecord execution)) := by
  unfold Database.keyTaken rowKeys
  rw [List.any_eq_true]
  simp only [Bool.or_eq_true, decide_eq_true_eq, Bool.and_eq_true, List.mem_map,
    exists_exists_and_eq_and]
  refine exists_congr fun record => and_congr_right fun _ => or_congr_right ?_
  constructor
  · rintro ⟨some_, task, key⟩
    rw [← key] at some_
    exact ⟨task, key, some_⟩
  · rintro ⟨task, key, some_⟩
    rw [key] at some_
    exact ⟨some_, task, key⟩

theorem rowKeys_add {database added : Database} {execution : Execution}
    (done : database.addExecution execution = .ok added) :
    rowKeys added = rowKeys database ++ [rowKey (executionToRecord execution)] ∧
      added.tasks = database.tasks ∧ added.revisions = database.revisions ∧
      ∀ key ∈ rowKeys database, key.executionId ≠ execution.executionId ∧
        ¬ key.Repeats (rowKey (executionToRecord execution)) := by
  obtain ⟨_, _, _, tasks, revisions, rows⟩ := Database.addExecution_ok done
  refine ⟨?_, tasks, revisions, fun key member => ?_⟩
  · rw [rowKeys, rows, List.map_append]
    rfl
  · have free : ¬ database.keyTaken execution = true := by
      intro taken
      rw [Database.addExecution, if_pos taken] at done
      cases done
    rw [keyTaken_iff] at free
    exact ⟨fun same => free ⟨key, member, .inl same⟩, fun same => free ⟨key, member, .inr same⟩⟩

theorem creation_key {request : RunRequest} {task : Task} {revision : TaskRevision}
    {requestedAt : UtcTimestamp} {executionId : ExecutionId} {correlationId : CorrelationId}
    {execution : Execution}
    (made : creation request task revision requestedAt executionId correlationId = .ok execution) :
    rowKey (executionToRecord execution) =
      ⟨execution.executionId, task.taskId, request.idempotencyKey⟩ := by
  unfold creation Execution.requested at made
  have fields := Execution.make_eq_ok.mp made
  unfold rowKey executionToRecord
  rw [fields]

theorem recordToExecution_id {record : ExecutionRecord} {attempts : List ExecutionAttempt}
    {execution : Execution} (read : recordToExecution record attempts = .ok execution) :
    execution.executionId = record.executionId := by
  have fields := Execution.make_eq_ok.mp read
  rw [fields]
  rfl

/-- The table has a row of this execution for the request. -/
def HoldsFor (database : Database) (executionId : ExecutionId) (request : RunRequest) : Prop :=
  ⟨executionId, request.taskId, request.idempotencyKey⟩ ∈ rowKeys database

/-- The requests are deliveries of one request. -/
structure Identical (request other : RunRequest) : Prop where
  taskId : request.taskId = other.taskId
  idempotencyKey : request.idempotencyKey = other.idempotencyKey
  keyed : request.idempotencyKey.isSome = true

theorem Identical.symm {request other : RunRequest} (identical : Identical request other) :
    Identical other request :=
  ⟨identical.taskId.symm, identical.idempotencyKey.symm, identical.idempotencyKey ▸ identical.keyed⟩

theorem HoldsFor.identical {database : Database} {executionId : ExecutionId}
    {request other : RunRequest} (holds : HoldsFor database executionId other)
    (identical : Identical request other) : HoldsFor database executionId request := by
  unfold HoldsFor
  rw [identical.taskId, identical.idempotencyKey]
  exact holds

/-- A request that finds an execution finds one of an identical request. -/
theorem existing_holds {database : Database} {request : RunRequest} {execution : Execution}
    (found : existing database request = .ok (some execution)) :
    HoldsFor database execution.executionId request := by
  unfold existing at found
  split at found
  · next key given =>
      unfold Database.findByIdempotencyKey at found
      split at found
      · cases found
      · next record there =>
          obtain ⟨other, read, same⟩ := except_bind_eq_ok.mp found
          cases same
          have matches_ := List.find?_some there
          obtain ⟨task, keyed⟩ := of_decide_eq_true matches_
          have member : rowKey record ∈ rowKeys database :=
            List.mem_map_of_mem (List.mem_of_find?_eq_some there)
          rw [rowKey, task, keyed, ← recordToExecution_id read] at member
          rw [HoldsFor, given]
          exact member
  · cases found

/-- A request with a key that finds none is the first of its kind. -/
theorem existing_none {database : Database} {request : RunRequest} {executionId : ExecutionId}
    (missing : existing database request = .ok none)
    (keyed : request.idempotencyKey.isSome = true) : ¬ HoldsFor database executionId request := by
  intro holds
  obtain ⟨key, given⟩ := Option.isSome_iff_exists.mp keyed
  obtain ⟨record, stored, same⟩ := List.mem_map.mp holds
  obtain ⟨_, task, wanted⟩ := RowKey.mk.inj same
  unfold existing Database.findByIdempotencyKey at missing
  rw [given] at missing wanted
  simp only at missing
  split at missing
  · next absent =>
      exact List.find?_eq_none.mp absent record stored (decide_eq_true ⟨task, wanted⟩)
  · obtain ⟨_, _, wrong⟩ := except_bind_eq_ok.mp missing
    cases wrong

/-! ## What holds in every state -/

/-- What the keys of the table promise. -/
structure KeysApart (database : Database) : Prop where
  ids : ((rowKeys database).map RowKey.executionId).Nodup
  requests : ∀ key ∈ rowKeys database, ∀ other ∈ rowKeys database,
    key.Repeats other → key = other

theorem KeysApart.unique {database : Database} (apart : KeysApart database)
    {executionId executionId' : ExecutionId} {request other : RunRequest}
    (identical : Identical request other) (holds : HoldsFor database executionId request)
    (holds' : HoldsFor database executionId' other) : executionId = executionId' :=
  (RowKey.mk.inj (apart.requests _ holds _ holds'
    ⟨identical.taskId, identical.idempotencyKey, identical.keyed⟩)).1

theorem KeysApart.added {database added : Database} {execution : Execution}
    (apart : KeysApart database) (done : database.addExecution execution = .ok added) :
    KeysApart added := by
  obtain ⟨keys, _, _, free⟩ := rowKeys_add done
  constructor
  · rw [keys, List.map_append, List.map_singleton]
    refine List.Nodup.append apart.ids (List.nodup_singleton _) ?_
    rintro executionId old last
    obtain ⟨key, member, rfl⟩ := List.mem_map.mp old
    exact (free key member).1 (List.mem_singleton.mp last)
  · rw [keys]
    intro key member other member' repeats
    rcases List.mem_append.mp member with old | last <;>
      rcases List.mem_append.mp member' with old' | last'
    · exact apart.requests key old other old' repeats
    · rw [List.mem_singleton.mp last'] at repeats
      exact absurd repeats (free key old).2
    · rw [List.mem_singleton.mp last] at repeats
      exact absurd repeats.symm (free other old').2
    · rw [List.mem_singleton.mp last, List.mem_singleton.mp last']

section

variable {ι : Type} [DecidableEq ι] {requests : ι → RunRequest} {runs : Runs ι} {call : ι}

/-- The tables of the definitions have their rows under their keys. -/
structure Keyed (database : Database) : Prop where
  tasks : ∀ taskId task, database.tasks taskId = some task → task.taskId = taskId
  revisions : ∀ revisionId revision, database.revisions revisionId = some revision →
    revision.revisionId = revisionId

/-- No call has begun. -/
structure Runs.Fresh (runs : Runs ι) : Prop where
  keyed : Keyed runs.database
  apart : KeysApart runs.database
  phase : ∀ call, runs.phase call = .starting
  created : runs.created = []
  launched : runs.launched = []

/-- What a call has loaded is of its request, and there. -/
structure LoadedFor (database : Database) (request : RunRequest) (task : Task)
    (revision : TaskRevision) : Prop where
  taskId : task.taskId = request.taskId
  task : (database.tasks task.taskId).isSome = true
  revision : (database.revisions revision.revisionId).isSome = true

/-- What the phase of a call says of the others. -/
def Runs.Fits (requests : ι → RunRequest) (runs : Runs ι) (call : ι) : RunPhase → Prop
  | .starting => True
  | .loaded task revision => LoadedFor runs.database (requests call) task revision
  | .unmatched task revision =>
      LoadedFor runs.database (requests call) task revision ∧
        ∀ executionId, (requests call).idempotencyKey.isSome = true →
          HoldsFor runs.database executionId (requests call) →
          ∃ other, (other, executionId) ∈ runs.created ∧
            Identical (requests call) (requests other)
  | .running own => (call, own.executionId) ∈ runs.created
  | .returned result => HoldsFor runs.database result.execution.executionId (requests call)
  | .raised _ => True

/-- Whether the phase comes after the insert. -/
def RunPhase.past : RunPhase → Bool
  | .starting | .loaded _ _ | .unmatched _ _ => false
  | .running _ | .returned _ | .raised _ => true

structure Runs.Sane (requests : ι → RunRequest) (runs : Runs ι) : Prop where
  keyed : Keyed runs.database
  apart : KeysApart runs.database
  phases : ∀ call, runs.Fits requests call (runs.phase call)
  created : ∀ call executionId, (call, executionId) ∈ runs.created →
    HoldsFor runs.database executionId (requests call) ∧ (runs.phase call).past = true
  once : (runs.created.map Prod.snd).Nodup
  launched : ∀ entry ∈ runs.launched, entry ∈ runs.created

omit [DecidableEq ι] in
theorem Runs.Fresh.sane (fresh : runs.Fresh) : runs.Sane requests where
  keyed := fresh.keyed
  apart := fresh.apart
  phases call := by
    rw [fresh.phase]
    trivial
  created call executionId member := by
    rw [fresh.created] at member
    cases member
  once := by
    rw [fresh.created]
    exact List.nodup_nil
  launched entry member := by
    rw [fresh.launched] at member
    cases member

/-- A call that enters another phase, where nothing else happens. -/
theorem Runs.Sane.enter (sane : runs.Sane requests) {phase : RunPhase}
    (fits : runs.Fits requests call phase)
    (past : (runs.phase call).past = true → phase.past = true) :
    (runs.enter call phase).Sane requests where
  keyed := sane.keyed
  apart := sane.apart
  phases other := by
    by_cases same : other = call
    · subst same
      change Runs.Fits _ _ _ (Function.update runs.phase other phase other)
      rw [Function.update_self]
      exact fits
    · change Runs.Fits _ _ _ (Function.update runs.phase call phase other)
      rw [Function.update_of_ne same]
      exact sane.phases other
  created other executionId member := by
    obtain ⟨holds, before⟩ := sane.created other executionId member
    refine ⟨holds, ?_⟩
    by_cases same : other = call
    · subst same
      change (Function.update runs.phase other phase other).past = true
      rw [Function.update_self]
      exact past before
    · change (Function.update runs.phase call phase other).past = true
      rw [Function.update_of_ne same]
      exact before
  once := sane.once
  launched := sane.launched

/-- What `_load` returns is under its keys. -/
theorem loadedFor_runnable {database : Database} (keyed : Keyed database) {request : RunRequest}
    {task : Task} {revision : TaskRevision}
    (found : RuntimeService.runnable database request.taskId = .ok (task, revision)) :
    LoadedFor database request task revision := by
  unfold RuntimeService.runnable at found
  split at found
  · cases found
  · next task' hasTask =>
      split at found
      · cases found
      · next revisionId _ =>
          split at found
          · cases found
          · next revision' hasRevision =>
              split at found
              · cases found
              · cases found
                have taskId := keyed.tasks _ _ hasTask
                have revisionId := keyed.revisions _ _ hasRevision
                refine ⟨taskId, ?_, ?_⟩
                · rw [taskId, hasTask]
                  rfl
                · rw [revisionId, hasRevision]
                  rfl

omit [DecidableEq ι] in
/-- What a phase says stays true where keys and creations are only added, and each new key is that
of a creation. -/
theorem Runs.Fits.mono {runs' : Runs ι} {phase : RunPhase} (fits : runs.Fits requests call phase)
    (tasks : runs'.database.tasks = runs.database.tasks)
    (revisions : runs'.database.revisions = runs.database.revisions)
    (keys : ∀ key ∈ rowKeys runs.database, key ∈ rowKeys runs'.database)
    (made : ∀ entry ∈ runs.created, entry ∈ runs'.created)
    (new : ∀ executionId, (requests call).idempotencyKey.isSome = true →
      HoldsFor runs'.database executionId (requests call) →
      HoldsFor runs.database executionId (requests call) ∨
        ∃ other, (other, executionId) ∈ runs'.created ∧
          Identical (requests call) (requests other)) :
    runs'.Fits requests call phase := by
  have loadedFor : ∀ task revision, LoadedFor runs.database (requests call) task revision →
      LoadedFor runs'.database (requests call) task revision := by
    intro task revision loaded
    refine ⟨loaded.taskId, ?_, ?_⟩
    · rw [tasks]
      exact loaded.task
    · rw [revisions]
      exact loaded.revision
  cases phase with
  | starting => trivial
  | loaded task revision => exact loadedFor task revision fits
  | unmatched task revision =>
      refine ⟨loadedFor task revision fits.1, fun executionId given holds => ?_⟩
      rcases new executionId given holds with before | beaten
      · obtain ⟨other, member, identical⟩ := fits.2 executionId given before
        exact ⟨other, made _ member, identical⟩
      · exact beaten
  | running own => exact made _ fits
  | returned result => exact keys _ fits
  | raised error => trivial

/-- A save changes no key. -/
theorem Runs.Sane.save (sane : runs.Sane requests) {own next : Execution} {database : Database}
    (stands : runs.phase call = .running own) (same : next.executionId = own.executionId)
    (stored : runs.database.saveExecution next = .ok database) :
    ((runs.withDatabase database).enter call (.running next)).Sane requests := by
  obtain ⟨keys, tasks, revisions⟩ := rowKeys_save stored
  have fits := sane.phases call
  rw [stands] at fits
  have saved : (runs.withDatabase database).Sane requests := {
    keyed := ⟨tasks ▸ sane.keyed.tasks, revisions ▸ sane.keyed.revisions⟩
    apart := ⟨keys ▸ sane.apart.ids, keys ▸ sane.apart.requests⟩
    phases := fun other => (sane.phases other).mono tasks revisions
      (fun key member => keys ▸ member) (fun _ member => member) fun executionId _ holds => .inl (by
        rw [HoldsFor, ← keys]
        exact holds)
    created := fun other executionId member => by
      obtain ⟨holds, past⟩ := sane.created other executionId member
      refine ⟨?_, past⟩
      change _ ∈ rowKeys database
      rw [keys]
      exact holds
    once := sane.once
    launched := sane.launched }
  refine saved.enter ?_ fun _ => rfl
  change (call, next.executionId) ∈ runs.created
  rw [same]
  exact fits

/-- The call whose insert goes through has created the execution, and no other call has. -/
theorem Runs.Sane.create (sane : runs.Sane requests) {task : Task} {revision : TaskRevision}
    {requestedAt : UtcTimestamp} {executionId : ExecutionId} {correlationId : CorrelationId}
    {execution : Execution} {database : Database}
    (stands : runs.phase call = .unmatched task revision)
    (made : creation (requests call) task revision requestedAt executionId correlationId =
      .ok execution)
    (stored : runs.database.addExecution execution = .ok database) :
    (((runs.withDatabase database).withCreated call execution.executionId).enter call
      (.running execution)).Sane requests := by
  obtain ⟨keys, tasks, revisions, free⟩ := rowKeys_add stored
  have fits := sane.phases call
  rw [stands] at fits
  have key : rowKey (executionToRecord execution) =
      ⟨execution.executionId, (requests call).taskId, (requests call).idempotencyKey⟩ := by
    rw [creation_key made, fits.1.taskId]
  have kept : ∀ key ∈ rowKeys runs.database, key ∈ rowKeys database := by
    intro key member
    rw [keys]
    exact List.mem_append_left _ member
  have new : ∀ other id, HoldsFor database id (requests other) →
      HoldsFor runs.database id (requests other) ∨ id = execution.executionId ∧
        (requests other).taskId = (requests call).taskId ∧
        (requests other).idempotencyKey = (requests call).idempotencyKey := by
    intro other id holds
    rw [HoldsFor, keys, key] at holds
    rcases List.mem_append.mp holds with old | last
    · exact .inl old
    · obtain ⟨sameId, sameTask, sameKey⟩ := RowKey.mk.inj (List.mem_singleton.mp last)
      exact .inr ⟨sameId, sameTask, sameKey⟩
  have mine : HoldsFor database execution.executionId (requests call) := by
    rw [HoldsFor, keys, key]
    exact List.mem_append_right _ (List.mem_singleton_self _)
  constructor
  · exact ⟨tasks ▸ sane.keyed.tasks, revisions ▸ sane.keyed.revisions⟩
  · exact sane.apart.added stored
  · intro other
    by_cases same : other = call
    · subst same
      change Runs.Fits _ _ _ (Function.update runs.phase other _ other)
      rw [Function.update_self]
      exact List.mem_append_right _ (List.mem_singleton_self _)
    · change Runs.Fits _ _ _ (Function.update runs.phase call _ other)
      rw [Function.update_of_ne same]
      refine (sane.phases other).mono tasks revisions kept
        (fun _ member => List.mem_append_left _ member) fun id given holds => ?_
      rcases new other id holds with old | ⟨rfl, sameTask, sameKey⟩
      · exact .inl old
      · exact .inr ⟨call, List.mem_append_right _ (List.mem_singleton_self _), sameTask, sameKey,
          given⟩
  · intro other id member
    rcases List.mem_append.mp member with old | last
    · obtain ⟨holds, past⟩ := sane.created other id old
      have different : other ≠ call := by
        rintro rfl
        rw [stands] at past
        cases past
      refine ⟨kept _ holds, ?_⟩
      change (Function.update runs.phase call _ other).past = true
      rw [Function.update_of_ne different]
      exact past
    · obtain ⟨rfl, rfl⟩ := Prod.mk.inj (List.mem_singleton.mp last)
      refine ⟨mine, ?_⟩
      change (Function.update runs.phase other _ other).past = true
      rw [Function.update_self]
      rfl
  · change ((runs.created ++ [(call, execution.executionId)]).map Prod.snd).Nodup
    rw [List.map_append, List.map_singleton]
    refine List.Nodup.append sane.once (List.nodup_singleton _) ?_
    rintro id old last
    obtain ⟨entry, member, rfl⟩ := List.mem_map.mp old
    exact (free _ (sane.created entry.1 entry.2 member).1).1 (List.mem_singleton.mp last)
  · exact fun entry member => List.mem_append_left _ (sane.launched entry member)

theorem Runs.Sane.next {runs' : Runs ι} (sane : runs.Sane requests)
    (step : RunStep requests runs runs') : runs'.Sane requests := by
  cases step with
  | loads stands found =>
      refine sane.enter (loadedFor_runnable sane.keyed found) fun past => ?_
      rw [stands] at past
      cases past
  | repeats stands found => exact sane.enter (existing_holds found) fun _ => rfl
  | @misses call task revision stands missing =>
      have fits := sane.phases call
      rw [stands] at fits
      refine sane.enter ⟨fits, fun _ given holds => absurd holds (existing_none missing given)⟩ ?_
      intro past
      rw [stands] at past
      cases past
  | creates stands made stored => exact sane.create stands made stored
  | saves stands same stored => exact sane.save stands same stored
  | @launches call own stands =>
      have fits := sane.phases call
      rw [stands] at fits
      exact { sane with
        phases := fun other => (sane.phases other).mono rfl rfl (fun _ member => member)
          (fun _ member => member) fun _ _ holds => .inl holds
        launched := fun entry member => by
          rcases List.mem_append.mp member with old | last
          · exact sane.launched entry old
          · rw [List.mem_singleton.mp last]
            exact fits }
  | @returns call own stands =>
      have fits := sane.phases call
      rw [stands] at fits
      exact sane.enter (sane.created call own.executionId fits).1 fun _ => rfl
  | fails open_ => exact sane.enter trivial fun _ => rfl

theorem Runs.Sane.run {runs' : Runs ι} (sane : runs.Sane requests)
    (run : Relation.ReflTransGen (RunStep requests) runs runs') : runs'.Sane requests := by
  induction run with
  | refl => exact sane
  | tail _ last ih => exact ih.next last

omit [DecidableEq ι] in
/-- Of the calls of identical requests one alone has created an execution. -/
theorem Runs.Sane.one_creator (sane : runs.Sane requests) {other : ι}
    {executionId executionId' : ExecutionId}
    (identical : Identical (requests call) (requests other))
    (created : (call, executionId) ∈ runs.created)
    (created' : (other, executionId') ∈ runs.created) :
    call = other ∧ executionId = executionId' := by
  have holds := (sane.created call executionId created).1
  have holds' := (sane.created other executionId' created').1
  have same := sane.apart.unique identical holds holds'
  subst same
  exact ⟨congrArg Prod.fst (List.inj_on_of_nodup_map sane.once created created' rfl), rfl⟩

omit [DecidableEq ι] in
theorem Runs.Sane.returned (sane : runs.Sane requests) {result : RunResult}
    (stands : runs.phase call = .returned result) :
    HoldsFor runs.database result.execution.executionId (requests call) := by
  have fits := sane.phases call
  rw [stands] at fits
  exact fits

end

/-! ## One execution -/

/-- Of identical requests, whatever the order of their calls, one call alone creates an execution
and launches its work, all that return have it, and the table has no other for them. -/
theorem one_execution {ι : Type} [DecidableEq ι] {requests : ι → RunRequest} {start runs : Runs ι}
    (fresh : start.Fresh) (run : Relation.ReflTransGen (RunStep requests) start runs)
    {call other : ι} (identical : Identical (requests call) (requests other)) :
    (∀ executionId executionId', (call, executionId) ∈ runs.created →
      (other, executionId') ∈ runs.created → call = other ∧ executionId = executionId') ∧
    (∀ executionId executionId', (call, executionId) ∈ runs.launched →
      (other, executionId') ∈ runs.launched → call = other ∧ executionId = executionId') ∧
    (∀ result, runs.phase call = .returned result →
      (∀ result', runs.phase other = .returned result' →
        result'.execution.executionId = result.execution.executionId) ∧
      (∀ executionId, (other, executionId) ∈ runs.launched →
        executionId = result.execution.executionId)) ∧
    ∀ record ∈ runs.database.executions, ∀ record' ∈ runs.database.executions,
      record.taskId = (requests call).taskId →
      record.idempotencyKey = (requests call).idempotencyKey →
      record'.taskId = (requests call).taskId →
      record'.idempotencyKey = (requests call).idempotencyKey →
      record.executionId = record'.executionId := by
  have sane : runs.Sane requests := fresh.sane.run run
  refine ⟨fun _ _ created created' => sane.one_creator identical created created',
    fun _ _ launched launched' => sane.one_creator identical (sane.launched _ launched)
      (sane.launched _ launched'), fun result stands => ⟨fun result' stands' => ?_,
      fun executionId launched => ?_⟩, ?_⟩
  · exact sane.apart.unique identical.symm (sane.returned stands') (sane.returned stands)
  · exact sane.apart.unique identical.symm (sane.created other executionId
      (sane.launched _ launched)).1 (sane.returned stands)
  · intro record member record' member' task key task' key'
    have repeats : (rowKey record).Repeats (rowKey record') :=
      ⟨task.trans task'.symm, key.trans key'.symm,
        (congrArg Option.isSome key).trans identical.keyed⟩
    exact (RowKey.mk.inj (sane.apart.requests _ (List.mem_map_of_mem member) _
      (List.mem_map_of_mem member') repeats)).1

/-- The identical requests of other calls that have created an execution. -/
def Beaten {ι : Type} (requests : ι → RunRequest) (runs : Runs ι) (call : ι) : Prop :=
  ∃ other executionId, other ≠ call ∧ Identical (requests call) (requests other) ∧
    (other, executionId) ∈ runs.created

section

variable {ι : Type} {requests : ι → RunRequest} {runs : Runs ι} {call : ι} {task : Task}
  {revision : TaskRevision} {requestedAt : UtcTimestamp} {executionId : ExecutionId}
  {correlationId : CorrelationId} {execution : Execution}

/-- The key of a call that found nothing is taken exactly if the call is beaten. -/
theorem Runs.Sane.taken_iff (sane : runs.Sane requests)
    (stands : runs.phase call = .unmatched task revision)
    (keyed : (requests call).idempotencyKey.isSome = true)
    (made : creation (requests call) task revision requestedAt executionId correlationId =
      .ok execution)
    (new : ∀ record ∈ runs.database.executions, record.executionId ≠ execution.executionId) :
    runs.database.keyTaken execution = true ↔ Beaten requests runs call := by
  have fits := sane.phases call
  rw [stands] at fits
  have own : rowKey (executionToRecord execution) =
      ⟨execution.executionId, (requests call).taskId, (requests call).idempotencyKey⟩ := by
    rw [creation_key made, fits.1.taskId]
  rw [keyTaken_iff, own]
  constructor
  · rintro ⟨key, member, same | ⟨taskId, idempotencyKey, _⟩⟩
    · obtain ⟨record, stored, rfl⟩ := List.mem_map.mp member
      exact absurd same (new record stored)
    · have holds : HoldsFor runs.database key.executionId (requests call) := by
        change key.taskId = (requests call).taskId at taskId
        change key.idempotencyKey = (requests call).idempotencyKey at idempotencyKey
        rw [HoldsFor, ← taskId, ← idempotencyKey]
        exact member
      obtain ⟨other, created, identical⟩ := fits.2 _ keyed holds
      refine ⟨other, key.executionId, ?_, identical, created⟩
      rintro rfl
      have past := (sane.created other key.executionId created).2
      rw [stands] at past
      cases past
  · rintro ⟨other, created, _, identical, member⟩
    exact ⟨_, ((sane.created other created member).1).identical identical, .inr ⟨rfl, rfl, keyed⟩⟩

theorem creation_refers
    (made : creation (requests call) task revision requestedAt executionId correlationId =
      .ok execution) :
    execution.taskId = task.taskId ∧ execution.revisionId = revision.revisionId := by
  unfold creation Execution.requested at made
  have fields := Execution.make_eq_ok.mp made
  rw [fields]
  exact ⟨rfl, rfl⟩

end

/-- A call that found nothing is refused exactly if a call of an identical request has created the
execution since, and it raises instead of returning that one; otherwise its execution is stored. -/
theorem insert_refused_iff {ι : Type} [DecidableEq ι] {requests : ι → RunRequest}
    {start runs : Runs ι} (fresh : start.Fresh)
    (run : Relation.ReflTransGen (RunStep requests) start runs) {call : ι} {task : Task}
    {revision : TaskRevision} (stands : runs.phase call = .unmatched task revision)
    (keyed : (requests call).idempotencyKey.isSome = true) {requestedAt : UtcTimestamp}
    {executionId : ExecutionId} {correlationId : CorrelationId} {execution : Execution}
    (made : creation (requests call) task revision requestedAt executionId correlationId =
      .ok execution)
    (new : ∀ record ∈ runs.database.executions, record.executionId ≠ execution.executionId) :
    (runs.database.addExecution execution = .error (conflictError
        "An execution with this identifier or idempotency key already exists.") ↔
      Beaten requests runs call) ∧
    ((∃ added, runs.database.addExecution execution = .ok added) ↔
      ¬ Beaten requests runs call) := by
  have sane : runs.Sane requests := fresh.sane.run run
  have fits := sane.phases call
  rw [stands] at fits
  obtain ⟨taskId, revisionId⟩ := creation_refers made
  have there : ¬ ((runs.database.tasks execution.taskId).isNone ||
      (runs.database.revisions execution.revisionId).isNone) = true := by
    rw [taskId, revisionId]
    simp [Option.isSome_iff_ne_none.mp fits.1.task, Option.isSome_iff_ne_none.mp fits.1.revision]
  rw [← sane.taken_iff stands keyed made new]
  by_cases taken : runs.database.keyTaken execution = true
  · simp only [Database.addExecution, taken, if_true]
    simp
  · simp only [Database.addExecution, taken, there]
    simp

/-! ## Two deliveries of one request -/

namespace Backup

def key : IdempotencyKey := ⟨"backup".toList, correlationBounded, correlationShaped⟩

def delivery : RunRequest := { request with idempotencyKey := some key }

def requestedFields (executionId : ExecutionId) : ExecutionFields where
  executionId := executionId
  taskId := taskId
  revisionId := revisionId
  triggerSource := .schedule
  requestedAt := ⟨1⟩
  state := .pending
  outcome := none
  reasonCode := none
  explanation := []
  attempts := []
  startedAt := none
  finishedAt := none
  correlationId := some quiet.correlationId
  idempotencyKey := some key
  requestedBy := none
  configurationDigest := none

theorem requested_quiet (executionId : ExecutionId) :
    (requestedFields executionId).complaint = none := by
  rw [complaint_open rfl rfl (Nat.zero_le _)]

def requested (executionId : ExecutionId) : Execution :=
  ⟨requestedFields executionId, requested_quiet executionId⟩

theorem requested_made (executionId : ExecutionId) :
    creation delivery task revision ⟨1⟩ executionId quiet.correlationId =
      .ok (requested executionId) := by
  change Execution.make (requestedFields executionId) = _
  exact Execution.make_eq_ok.mpr rfl

def undelivered : Runs Bool := ⟨world.database, fun _ => .starting, [], []⟩

theorem undelivered_fresh : undelivered.Fresh where
  keyed := by
    constructor
    · intro asked found there
      simp only [undelivered, world] at there
      split at there
      · next same =>
          cases there
          exact same.symm
      · cases there
    · intro asked found there
      simp only [undelivered, world] at there
      split at there
      · next same =>
          cases there
          exact same.symm
      · cases there
  apart := ⟨List.nodup_nil, fun _ member => absurd member List.not_mem_nil⟩
  phase _ := rfl
  created := rfl
  launched := rfl

/-- Both calls have searched, and neither has inserted. -/
def missed : Runs Bool :=
  (((undelivered.enter false (.loaded task revision)).enter true (.loaded task revision)).enter
    false (.unmatched task revision)).enter true (.unmatched task revision)

def requestedDatabase : Database :=
  { world.database with executions := [executionToRecord (requested executionId)] }

/-- The first call has inserted. -/
def won : Runs Bool :=
  ((missed.withDatabase requestedDatabase).withCreated false executionId).enter false
    (.running (requested executionId))

theorem missed_reached :
    Relation.ReflTransGen (RunStep fun _ => delivery) undelivered missed := by
  have runnable : RuntimeService.runnable world.database taskId = .ok (task, revision) := rfl
  have first := Relation.ReflTransGen.single
    (@RunStep.loads Bool _ (fun _ => delivery) undelivered false task revision rfl runnable)
  exact ((first.tail (@RunStep.loads Bool _ _ _ true task revision rfl runnable)).tail
    (@RunStep.misses Bool _ _ _ false task revision rfl rfl)).tail
      (@RunStep.misses Bool _ _ _ true task revision rfl rfl)

theorem won_reached : Relation.ReflTransGen (RunStep fun _ => delivery) undelivered won := by
  have stored : world.database.addExecution (requested executionId) = .ok requestedDatabase := rfl
  exact missed_reached.tail (@RunStep.creates Bool _ _ missed false task revision ⟨1⟩ executionId
    quiet.correlationId _ _ rfl (requested_made executionId) stored)

theorem deliveries_identical : Identical delivery delivery := ⟨rfl, rfl, rfl⟩

def otherId : ExecutionId := ⟨8, later_bounded⟩

end Backup

/-- The work is launched and the first call returns; the second was given up. -/
theorem one_execution_backup : ∃ runs : Runs Bool,
    Relation.ReflTransGen (RunStep fun _ => Backup.delivery) Backup.undelivered runs ∧
      (false, Backup.executionId) ∈ runs.launched ∧
      ∀ executionId, (true, executionId) ∉ runs.launched := by
  have run := (Backup.won_reached.tail (@RunStep.launches Bool _ _ _ false _ rfl)).tail
    (@RunStep.returns Bool _ _ _ false _ rfl)
  refine ⟨_, run, List.mem_singleton_self _, fun executionId launched => ?_⟩
  have facts := @one_execution Bool _ (fun _ => Backup.delivery) _ _ Backup.undelivered_fresh run
    true false Backup.deliveries_identical
  exact absurd (facts.2.1 executionId Backup.executionId launched (List.mem_singleton_self _)).1
    (by decide)

/-- The second call is beaten by the first. -/
theorem insert_refused_iff_backup :
    Backup.won.database.addExecution (Backup.requested Backup.otherId) = .error (conflictError
      "An execution with this identifier or idempotency key already exists.") := by
  have new : ∀ record ∈ Backup.won.database.executions,
      record.executionId ≠ (Backup.requested Backup.otherId).executionId := by
    intro record member
    rw [List.mem_singleton.mp member]
    decide
  refine (insert_refused_iff Backup.undelivered_fresh Backup.won_reached
    (@rfl _ (Backup.won.phase true)) rfl (Backup.requested_made Backup.otherId) new).1.mpr ?_
  exact ⟨false, Backup.executionId, by decide, Backup.deliveries_identical,
    List.mem_singleton_self _⟩

end TaskControl.Runtime
