import TaskControl.Activation.Launches
import TaskControl.Domain.Endings
import TaskControl.Foundation.Ingestion

/-!
# Reconciling the journal

The entries of the journal are ingested in one transaction, each under the identity
that its run was given before it started, and the journal is cleared after the commit.
A crash on the way leaves entries that are ingested again; an entry that cannot be
recorded leaves all of them.
-/

set_option autoImplicit false

namespace TaskControl.Activation

open PythonText Effects Ingestion Persistence TaskControl.Runtime

/-! ## The service -/

/-- The answers of one reconciliation: the reads of the journal, the session, the calls made for
each entry, the commit and the removal of the journal. -/
structure ReconcileReactions where
  read : Except Raised Unit
  unreadable : Nat
  session : Except Raised Unit
  visit : Nat → Except Raised Unit
  commit : Fault
  truncate : Fault

structure ReconciliationReport where
  ingested : Nat
  alreadyKnown : Nat
  unreadable : Nat
  cleared : Bool

/-- The unit of work, with the counts of the loop over the entries. -/
structure Session where
  database : Database
  ingested : Nat
  alreadyKnown : Nat

/-- An operation of the repository or the domain. -/
def operation {α : Type} (result : Except TaskControlError α) : Except Raised α :=
  result.mapError Raised.taskControl

/-- One round of the loop. -/
def ingestEntry (visit : Except Raised Unit) (entry : JournalEntry) (session : Session) :
    Except Raised Session := do
  visit
  match ← operation (session.database.getExecution entry.executionId) with
  | some _ => return { session with alreadyKnown := session.alreadyKnown + 1 }
  | none =>
      let execution ← operation (executionFrom entry)
      let database ← operation (session.database.addExecution execution)
      return { session with database, ingested := session.ingested + 1 }

def ingest (visit : Nat → Except Raised Unit) : Nat → List JournalEntry → Session →
    Except Raised Session
  | _, [], session => .ok session
  | n, entry :: rest, session => do
      ingest visit (n + 1) rest (← ingestEntry (visit n) entry session)

/-- A change of the world that may fail on either side. -/
def effect (fault : Fault) (change : World → World) : Program Raised World Unit := do
  if fault.commits then modify change
  answer fault.raised

/-- `reconcile`. -/
def reconcile (reactions : ReconcileReactions) : Program Raised World ReconciliationReport := do
  answer reactions.read
  let world ← get
  if world.journal.isEmpty then return ⟨0, 0, reactions.unreadable, false⟩
  else do
    answer reactions.session
    let session ← answer (ingest reactions.visit 0 world.journal ⟨world.database, 0, 0⟩)
    effect reactions.commit fun world => { world with database := session.database }
    effect reactions.truncate fun world => { world with journal := [] }
    return ⟨session.ingested, session.alreadyKnown, reactions.unreadable, true⟩

/-! ## Rows of entries -/

/-- The row that an entry is recorded in. -/
def rowOf (entry : JournalEntry) : ExecutionRecord where
  executionId := entry.executionId
  taskId := entry.taskId
  revisionId := entry.revisionId
  triggerSource := entry.triggerSource
  state := .finished
  outcome := some entry.outcome
  reasonCode := entry.reasonCode
  explanation := explanationFor entry
  requestedAt := entry.startedAt
  startedAt := some entry.startedAt
  finishedAt := some entry.finishedAt
  correlationId := none
  idempotencyKey := none
  requestedBy := none
  configurationDigest := none

theorem executionFrom_row {entry : JournalEntry} {execution : Execution}
    (made : executionFrom entry = .ok execution) :
    executionToRecord execution = rowOf entry ∧ execution.attempts = [] := by
  have fields := Execution.make_eq_ok.mp made
  unfold executionToRecord rowOf
  rw [fields]
  exact ⟨rfl, rfl⟩

/-- The database has the task and the revision of the entry, and an execution takes it. -/
structure Recordable (database : Database) (entry : JournalEntry) : Prop where
  task : (database.tasks entry.taskId).isSome = true
  revision : (database.revisions entry.revisionId).isSome = true
  accepted : ∃ execution, executionFrom entry = .ok execution

/-- The rows have distinct identifiers and can be read back. -/
structure Sound (database : Database) : Prop where
  keys : (database.executions.map ExecutionRecord.executionId).Nodup
  readable : ∀ record ∈ database.executions, Readable record

/-- The database with other rows in its table of executions. -/
def withRows (database : Database) (rows : List ExecutionRecord) : Database :=
  { database with executions := rows }

/-! ## One entry -/

variable {database : Database} {entry : JournalEntry}

theorem record?_eq_none_iff {executionId : ExecutionId} :
    database.record? executionId = none ↔
      executionId ∉ database.executions.map ExecutionRecord.executionId := by
  unfold Database.record?
  simp [List.find?_eq_none]

theorem getExecution_known (readable : ∀ record ∈ database.executions, Readable record)
    (known : entry.executionId ∈ database.executions.map ExecutionRecord.executionId) :
    ∃ execution, database.getExecution entry.executionId = .ok (some execution) := by
  cases found : database.record? entry.executionId with
  | none => exact absurd known (record?_eq_none_iff.mp found)
  | some record =>
      obtain ⟨execution, got, _⟩ := Database.getExecution_ok found
        (readable record (List.mem_of_find?_eq_some found))
      exact ⟨execution, got⟩

theorem getExecution_unknown
    (unknown : entry.executionId ∉ database.executions.map ExecutionRecord.executionId) :
    database.getExecution entry.executionId = .ok none := by
  unfold Database.getExecution
  rw [record?_eq_none_iff.mpr unknown]

/-- A new execution without a key of its own is let in where its task and revision stand. -/
theorem addExecution_entry
    (unknown : entry.executionId ∉ database.executions.map ExecutionRecord.executionId)
    {execution : Execution} (made : executionFrom entry = .ok execution) :
    (∃ added, database.addExecution execution = .ok added) ↔
      (database.tasks entry.taskId).isSome = true ∧
        (database.revisions entry.revisionId).isSome = true := by
  have fields := Execution.make_eq_ok.mp made
  have free : database.keyTaken execution = false := by
    rw [Database.keyTaken, List.any_eq_false, fields]
    intro record member taken
    apply unknown
    rw [List.mem_map]
    exact ⟨record, member, by simpa using taken⟩
  unfold Database.addExecution
  rw [if_neg (by simp [free]), fields]
  constructor
  · rintro ⟨added, done⟩
    split at done
    · cases done
    · next there => simpa [Option.isSome_iff_ne_none] using there
  · rintro ⟨task, revision⟩
    rw [if_neg (by simp_all [Option.isSome_iff_ne_none])]
    exact ⟨_, rfl⟩

theorem addExecution_rows {execution : Execution} {added : Database}
    (made : executionFrom entry = .ok execution)
    (done : database.addExecution execution = .ok added) :
    added = withRows database (database.executions ++ [rowOf entry]) := by
  obtain ⟨row, bare⟩ := executionFrom_row made
  unfold Database.addExecution at done
  split at done
  · cases done
  · split at done
    · cases done
    · cases done
      rw [row, bare, List.append_nil]
      rfl

theorem rowOf_readable {execution : Execution} (made : executionFrom entry = .ok execution) :
    Readable (rowOf entry) := by
  rw [← (executionFrom_row made).1]
  exact created_consistent execution

theorem recordable_withRows {rows : List ExecutionRecord} :
    Recordable (withRows database rows) entry ↔ Recordable database entry :=
  ⟨fun ⟨task, revision, accepted⟩ => ⟨task, revision, accepted⟩,
    fun ⟨task, revision, accepted⟩ => ⟨task, revision, accepted⟩⟩

/-- Whether the database has an execution of the identity. -/
def Known (database : Database) (entry : JournalEntry) : Prop :=
  entry.executionId ∈ database.executions.map ExecutionRecord.executionId

theorem operation_ok {α : Type} {result : Except TaskControlError α} {value : α} :
    operation result = .ok value ↔ result = .ok value := by
  cases result <;> simp [operation, Except.mapError]

theorem ingestEntry_known (readable : ∀ record ∈ database.executions, Readable record)
    (known : Known database entry) (ingested alreadyKnown : Nat) :
    ingestEntry (.ok ()) entry ⟨database, ingested, alreadyKnown⟩ =
      .ok ⟨database, ingested, alreadyKnown + 1⟩ := by
  obtain ⟨execution, got⟩ := getExecution_known readable known
  unfold ingestEntry
  rw [got]
  rfl

theorem ingestEntry_new_iff (unknown : ¬ Known database entry) (ingested alreadyKnown : Nat)
    {session : Session} :
    ingestEntry (.ok ()) entry ⟨database, ingested, alreadyKnown⟩ = .ok session ↔
      Recordable database entry ∧ session =
        ⟨withRows database (database.executions ++ [rowOf entry]), ingested + 1, alreadyKnown⟩ := by
  have absent := getExecution_unknown unknown
  have steps : ingestEntry (.ok ()) entry ⟨database, ingested, alreadyKnown⟩ = (do
      let execution ← operation (executionFrom entry)
      let added ← operation (database.addExecution execution)
      return ⟨added, ingested + 1, alreadyKnown⟩) := by
    unfold ingestEntry
    rw [absent]
    rfl
  rw [steps, except_bind_eq_ok]
  constructor
  · rintro ⟨execution, made, rest⟩
    obtain ⟨added, stored, returned⟩ := except_bind_eq_ok.mp rest
    rw [operation_ok] at made stored
    obtain ⟨task, revision⟩ := (addExecution_entry unknown made).mp ⟨added, stored⟩
    refine ⟨⟨task, revision, execution, made⟩, ?_⟩
    rw [← addExecution_rows made stored]
    exact (Except.ok.inj returned).symm
  · rintro ⟨⟨task, revision, execution, made⟩, rfl⟩
    obtain ⟨added, stored⟩ := (addExecution_entry unknown made).mpr ⟨task, revision⟩
    refine ⟨execution, operation_ok.mpr made, ?_⟩
    rw [stored, addExecution_rows made stored]
    rfl

/-- An entry for which a call raises is not ingested. -/
theorem ingestEntry_visited {visit : Except Raised Unit} {session session' : Session}
    (ran : ingestEntry visit entry session = .ok session') : visit = .ok () := by
  unfold ingestEntry at ran
  obtain ⟨_, visited, _⟩ := except_bind_eq_ok.mp ran
  exact visited

/-! ## The loop -/

/-- What the transaction does where it goes through: the rows are absorbed, and each entry is
counted once. -/
theorem ingest_absorbs {visit : Nat → Except Raised Unit} {n : Nat} {entries : List JournalEntry}
    {ingested alreadyKnown : Nat} {session : Session}
    (readable : ∀ record ∈ database.executions, Readable record)
    (ran : ingest visit n entries ⟨database, ingested, alreadyKnown⟩ = .ok session) :
    session.database = withRows database
        (absorb ExecutionRecord.executionId database.executions (entries.map rowOf)) ∧
      session.ingested + database.executions.length =
        ingested + session.database.executions.length ∧
      session.ingested + session.alreadyKnown = ingested + alreadyKnown + entries.length := by
  induction entries generalizing n database ingested alreadyKnown with
  | nil =>
      cases ran
      exact ⟨rfl, rfl, rfl⟩
  | cons entry rest ih =>
      unfold ingest at ran
      obtain ⟨next, first, later⟩ := except_bind_eq_ok.mp ran
      rw [ingestEntry_visited first] at first
      rw [List.map_cons, List.length_cons]
      by_cases known : Known database entry
      · rw [ingestEntry_known readable known] at first
        cases first
        obtain ⟨rows, counted, total⟩ := ih readable later
        rw [absorb_known known]
        exact ⟨rows, counted, by omega⟩
      · obtain ⟨⟨_, _, _, made⟩, rfl⟩ := (ingestEntry_new_iff known _ _).mp first
        have readable' : ∀ record ∈ (withRows database
            (database.executions ++ [rowOf entry])).executions, Readable record := by
          intro record member
          rcases List.mem_append.mp member with old | last
          · exact readable record old
          · rw [List.mem_singleton.mp last]
            exact rowOf_readable made
        obtain ⟨rows, counted, total⟩ := ih readable' later
        rw [absorb_new known]
        refine ⟨rows, ?_, by omega⟩
        simp only [withRows, List.length_append, List.length_singleton] at counted
        omega

/-- An entry stands in the way: the first of its identity, unknown to the database, and not one
that can be recorded. -/
def Poisoned (database : Database) (journal : List JournalEntry) : Prop :=
  ∃ earlier entry later, journal = earlier ++ entry :: later ∧ ¬ Recordable database entry ∧
    ¬ Known database entry ∧ ∀ other ∈ earlier, other.executionId ≠ entry.executionId

theorem poisoned_known_iff {rest : List JournalEntry} (known : Known database entry) :
    Poisoned database (entry :: rest) ↔ Poisoned database rest := by
  constructor
  · rintro ⟨earlier, bad, later, split, unrecordable, unknown, first⟩
    cases earlier with
    | nil =>
        cases split
        exact absurd known unknown
    | cons other earlier =>
        obtain ⟨_, rfl⟩ := List.cons.inj split
        exact ⟨earlier, bad, later, rfl, unrecordable, unknown,
          fun entry member => first entry (List.mem_cons_of_mem other member)⟩
  · rintro ⟨earlier, bad, later, rfl, unrecordable, unknown, first⟩
    refine ⟨entry :: earlier, bad, later, rfl, unrecordable, unknown, ?_⟩
    intro other member same
    rcases List.mem_cons.mp member with rfl | inside
    · rw [Known, same] at known
      exact unknown known
    · exact first other inside same

theorem poisoned_new_iff {rest : List JournalEntry} (recordable : Recordable database entry) :
    Poisoned database (entry :: rest) ↔
      Poisoned (withRows database (database.executions ++ [rowOf entry])) rest := by
  have knows {bad : JournalEntry} :
      Known (withRows database (database.executions ++ [rowOf entry])) bad ↔
        Known database bad ∨ bad.executionId = entry.executionId := by
    simp [Known, withRows, rowOf]
  constructor
  · rintro ⟨earlier, bad, later, split, unrecordable, unknown, first⟩
    cases earlier with
    | nil =>
        cases split
        exact absurd recordable unrecordable
    | cons other earlier =>
        obtain ⟨rfl, rfl⟩ := List.cons.inj split
        refine ⟨earlier, bad, later, rfl, fun ok => unrecordable (recordable_withRows.mp ok), ?_,
          fun entry member => first entry (List.mem_cons_of_mem _ member)⟩
        rintro known
        rcases knows.mp known with old | same
        · exact unknown old
        · exact first _ List.mem_cons_self same.symm
  · rintro ⟨earlier, bad, later, rfl, unrecordable, unknown, first⟩
    refine ⟨entry :: earlier, bad, later, rfl, fun ok => unrecordable (recordable_withRows.mpr ok),
      fun known => unknown (knows.mpr (.inl known)), ?_⟩
    intro other member same
    rcases List.mem_cons.mp member with rfl | inside
    · exact unknown (knows.mpr (.inr same.symm))
    · exact first other inside same

/-- Where no call raises, the transaction goes through unless an entry stands in its way. -/
theorem ingest_isOk_iff {visit : Nat → Except Raised Unit} (quiet : ∀ n, visit n = .ok ())
    {n : Nat} {entries : List JournalEntry} {ingested alreadyKnown : Nat}
    (readable : ∀ record ∈ database.executions, Readable record) :
    (∃ session, ingest visit n entries ⟨database, ingested, alreadyKnown⟩ = .ok session) ↔
      ¬ Poisoned database entries := by
  induction entries generalizing n database ingested alreadyKnown with
  | nil =>
      refine iff_of_true ⟨_, rfl⟩ ?_
      rintro ⟨earlier, bad, later, split, _⟩
      simp at split
  | cons entry rest ih =>
      unfold ingest
      rw [quiet]
      by_cases known : Known database entry
      · rw [ingestEntry_known readable known, poisoned_known_iff known]
        exact ih readable
      · by_cases recordable : Recordable database entry
        · have first := (ingestEntry_new_iff known ingested alreadyKnown).mpr ⟨recordable, rfl⟩
          rw [first, poisoned_new_iff recordable]
          apply ih
          intro record member
          rcases List.mem_append.mp member with old | last
          · exact readable record old
          · obtain ⟨_, _, _, made⟩ := recordable
            rw [List.mem_singleton.mp last]
            exact rowOf_readable made
        · refine iff_of_false ?_ ?_
          · rintro ⟨session, ran⟩
            obtain ⟨next, first, _⟩ := except_bind_eq_ok.mp ran
            exact recordable ((ingestEntry_new_iff known _ _).mp first).1
          · exact not_not.mpr ⟨[], entry, rest, rfl, recordable, known, by simp⟩

/-! ## A reconciliation -/

/-- The world with the journal recorded in the database. -/
def stored (world : World) : World :=
  { world with
    database := withRows world.database (absorb ExecutionRecord.executionId
      world.database.executions (world.journal.map rowOf)) }

/-- The world with the journal recorded and removed. -/
def cleared (world : World) : World := { stored world with journal := [] }

theorem cleared_of_empty {world : World} (empty : world.journal = []) : cleared world = world := by
  cases world
  cases empty
  rfl

theorem effect_ends (fault : Fault) (change : World → World) (world : World) :
    Ends (effect fault change) world
      (fun _ world' => fault = .none ∧ world' = change world)
      (fun raised world' => fault.raised = .error raised ∧
        world' = if fault.commits then change world else world) := by
  cases fault <;> exact ⟨rfl, rfl⟩

/-- However a reconciliation ends, its transaction took effect as a whole or not at all, and the
journal is removed after it or stays. -/
theorem reconcile_ends (reactions : ReconcileReactions) {world : World}
    (readable : ∀ record ∈ world.database.executions, Readable record) :
    Ends (reconcile reactions) world
      (fun report world' => world' = cleared world ∧
        report.ingested + world.database.executions.length = world'.database.executions.length)
      (fun _ world' => world' = world ∨ world' = stored world ∨ world' = cleared world) := by
  unfold reconcile
  refine Ends.bind ((answer_ends reactions.read world).mono ?_ (by rintro _ _ ⟨_, rfl⟩; exact .inl rfl))
  rintro _ world ⟨_, rfl⟩
  refine Ends.bind (ends_get ?_)
  split
  · next empty =>
      rw [cleared_of_empty (by simpa using empty)]
      exact ends_pure ⟨rfl, Nat.zero_add _⟩
  · refine Ends.bind ((answer_ends reactions.session world).mono ?_
      (by rintro _ _ ⟨_, rfl⟩; exact .inl rfl))
    rintro _ world ⟨_, rfl⟩
    refine Ends.bind ((answer_ends _ world).mono ?_ (by rintro _ _ ⟨_, rfl⟩; exact .inl rfl))
    rintro session world ⟨ran, rfl⟩
    obtain ⟨rows, counted, _⟩ := ingest_absorbs readable ran
    have changed : { world with database := session.database } = stored world := by
      rw [rows]
      rfl
    refine Ends.bind ((effect_ends reactions.commit _ world).mono ?_ ?_)
    · rintro _ mid ⟨_, rfl⟩
      rw [changed]
      refine Ends.bind ((effect_ends reactions.truncate _ (stored world)).mono ?_ ?_)
      · rintro _ final ⟨_, rfl⟩
        refine ends_pure ⟨rfl, ?_⟩
        change session.ingested + _ = (stored world).database.executions.length
        rw [← changed]
        change session.ingested + world.database.executions.length =
          session.database.executions.length
        omega
      · rintro raised final ⟨_, rfl⟩
        split
        · exact .inr (.inr rfl)
        · exact .inr (.inl rfl)
    · rintro raised mid ⟨_, rfl⟩
      split
      · exact .inr (.inl changed)
      · exact .inl rfl

/-- The rows of the database and those that the journal stands for. -/
def ledger (world : World) : Ledger ExecutionRecord :=
  ⟨world.database.executions, world.journal.map rowOf⟩

/-- Everything but the rows and the journal stays. -/
structure SameSetting (world world' : World) : Prop where
  tasks : world'.database.tasks = world.database.tasks
  revisions : world'.database.revisions = world.database.revisions
  attempts : world'.database.attempts = world.database.attempts

/-- A reconciliation is an attempt on the ledger. -/
theorem reconcile_attempts (reactions : ReconcileReactions) {world : World}
    (readable : ∀ record ∈ world.database.executions, Readable record) :
    Attempt ExecutionRecord.executionId (ledger world)
        (ledger (finalWorld (reconcile reactions world))) ∧
      SameSetting world (finalWorld (reconcile reactions world)) ∧
      (finalWorld (reconcile reactions world)).journal <+: world.journal := by
  have reaches (world' : World) (left : world' = world ∨ world' = stored world ∨
      world' = cleared world) : Attempt ExecutionRecord.executionId (ledger world) (ledger world') ∧
      SameSetting world world' ∧ world'.journal <+: world.journal := by
    rcases left with rfl | rfl | rfl
    · exact ⟨.lost _, ⟨rfl, rfl, rfl⟩, List.prefix_refl _⟩
    · exact ⟨.stored _, ⟨rfl, rfl, rfl⟩, List.prefix_refl _⟩
    · exact ⟨.cleared _, ⟨rfl, rfl, rfl⟩, List.nil_prefix⟩
  exact Runtime.Ends.final (reconcile_ends reactions readable)
    (fun _ world' ends => reaches world' (.inr (.inr ends.1))) fun _ world' ends => reaches world' ends

/-- The world after reconciliations that may crash anywhere. -/
def afterCrashes (crashes : List ReconcileReactions) (world : World) : World :=
  crashes.foldl (fun world reactions => finalWorld (reconcile reactions world)) world

/-- The journal stands for tasks and revisions that exist and for executions that are accepted. -/
structure Reconcilable (world : World) : Prop where
  sound : Sound world.database
  recordable : ∀ entry ∈ world.journal, Recordable world.database entry

theorem rows_readable {world : World} (reconcilable : Reconcilable world) :
    ∀ record ∈ absorb ExecutionRecord.executionId world.database.executions
      (world.journal.map rowOf), Readable record := by
  intro record member
  rcases mem_absorb member with old | new
  · exact reconcilable.sound.readable record old
  · obtain ⟨entry, inJournal, rfl⟩ := List.mem_map.mp new
    obtain ⟨_, made⟩ := (reconcilable.recordable entry inJournal).accepted
    exact rowOf_readable made

theorem outcome_readable {world : World} (reconcilable : Reconcilable world)
    {reached : Ledger ExecutionRecord}
    (outcome : Outcome ExecutionRecord.executionId (ledger world) reached) :
    ∀ record ∈ reached.store, Readable record := by
  cases outcome with
  | untouched => exact reconcilable.sound.readable
  | stored => exact rows_readable reconcilable
  | cleared => exact rows_readable reconcilable

/-- What any number of reconciliations leaves, crashed or not. -/
theorem afterCrashes_outcome {world : World} (reconcilable : Reconcilable world)
    (crashes : List ReconcileReactions) :
    Outcome ExecutionRecord.executionId (ledger world) (ledger (afterCrashes crashes world)) ∧
      SameSetting world (afterCrashes crashes world) ∧
      ∀ entry ∈ (afterCrashes crashes world).journal, entry ∈ world.journal := by
  induction crashes using List.reverseRecOn with
  | nil => exact ⟨.untouched, ⟨rfl, rfl, rfl⟩, fun _ member => member⟩
  | append_singleton earlier reactions ih =>
      obtain ⟨outcome, same, inside⟩ := ih
      have readable := outcome_readable reconcilable outcome
      obtain ⟨attempt, same', shorter⟩ := reconcile_attempts reactions readable
      have last : afterCrashes (earlier ++ [reactions]) world =
          finalWorld (reconcile reactions (afterCrashes earlier world)) := by
        unfold afterCrashes
        rw [List.foldl_append]
        rfl
      rw [last]
      exact ⟨outcome.step attempt, ⟨same'.tasks.trans same.tasks, same'.revisions.trans
        same.revisions, same'.attempts.trans same.attempts⟩,
        fun entry member => inside entry (shorter.subset member)⟩

/-- Every run of the journal is recorded once, and nothing else has changed. -/
structure Reconciled (world final : World) : Prop where
  once : ∀ entry ∈ world.journal, final.database.executions.countP
    (fun record => record.executionId = entry.executionId) = 1
  kept : world.database.executions <+: final.database.executions
  attempts : final.database.attempts = world.database.attempts
  recorded : ∀ record ∈ final.database.executions, record ∈ world.database.executions ∨
    ∃ entry ∈ world.journal, record = rowOf entry
  journal : final.journal = []

/-- No call of the reconciliation raises. -/
structure Undisturbed (reactions : ReconcileReactions) : Prop where
  read : reactions.read = .ok ()
  session : reactions.session = .ok ()
  visit : ∀ n, reactions.visit n = .ok ()
  commit : reactions.commit = .none
  truncate : reactions.truncate = .none

/-- A reconciliation that nothing disturbs returns unless an entry stands in its way. -/
theorem reconcile_returns_iff {reactions : ReconcileReactions} (quiet : Undisturbed reactions)
    {world : World} (readable : ∀ record ∈ world.database.executions, Readable record) :
    (∃ report final, reconcile reactions world = .ok report final) ↔
      ¬ Poisoned world.database world.journal := by
  have opened : reconcile reactions world = (if world.journal.isEmpty then
        return ⟨0, 0, reactions.unreadable, false⟩
      else do
        answer reactions.session
        let session ← answer (ingest reactions.visit 0 world.journal ⟨world.database, 0, 0⟩)
        effect reactions.commit fun world => { world with database := session.database }
        effect reactions.truncate fun world => { world with journal := [] }
        return ⟨session.ingested, session.alreadyKnown, reactions.unreadable, true⟩ :
        Program Raised World ReconciliationReport) world := by
    unfold reconcile
    rw [quiet.read]
    rfl
  rw [opened]
  split
  · next empty =>
      refine iff_of_true ⟨_, _, rfl⟩ ?_
      rintro ⟨earlier, bad, later, split, _⟩
      simp [split] at empty
  · rw [← ingest_isOk_iff quiet.visit readable, quiet.session, quiet.commit, quiet.truncate]
    constructor
    · rintro ⟨report, final, ran⟩
      obtain ⟨_, _, later⟩ := bind_answer.mp ran
      obtain ⟨session, ingested, _⟩ := bind_answer.mp later
      exact ⟨session, ingested⟩
    · rintro ⟨session, ingested⟩
      rw [ingested]
      exact ⟨_, _, rfl⟩

/-- However often a reconciliation crashes, and wherever, the next one to return has recorded each
journalled run once and nothing else, one after it finds nothing more to ingest, and one that
nothing disturbs does return. -/
theorem reconcile_crash_safe {world : World} (reconcilable : Reconcilable world)
    (crashes : List ReconcileReactions) :
    (∀ reactions report final,
      reconcile reactions (afterCrashes crashes world) = .ok report final →
        Reconciled world final ∧ ∀ again report' final',
          reconcile again final = .ok report' final' →
            report'.ingested = 0 ∧ final'.database = final.database) ∧
      ∀ reactions, Undisturbed reactions →
        ∃ report final, reconcile reactions (afterCrashes crashes world) = .ok report final := by
  obtain ⟨outcome, same, inside⟩ := afterCrashes_outcome reconcilable crashes
  have readable := outcome_readable reconcilable outcome
  constructor
  · intro reactions report final ran
    obtain ⟨rfl, _⟩ := (ends_of_ok ran).mp (reconcile_ends reactions readable)
    have rows : (cleared (afterCrashes crashes world)).database.executions =
        absorb ExecutionRecord.executionId world.database.executions
          (world.journal.map rowOf) := outcome.absorbed
    constructor
    · refine ⟨?_, ?_, same.attempts, ?_, rfl⟩
      · intro entry member
        rw [rows]
        have recorded : (rowOf entry).executionId ∈ (absorb ExecutionRecord.executionId
            world.database.executions (world.journal.map rowOf)).map ExecutionRecord.executionId :=
          mem_keys_absorb _ _ (List.mem_map_of_mem member)
        exact countP_key (nodup_absorb reconcilable.sound.keys _) recorded
      · rw [rows]
        exact prefix_absorb _ _
      · intro record member
        rw [rows] at member
        rcases mem_absorb member with old | new
        · exact .inl old
        · obtain ⟨entry, inJournal, rfl⟩ := List.mem_map.mp new
          exact .inr ⟨entry, inJournal, rfl⟩
    · intro again report' final' ran'
      have readable' : ∀ record ∈ (cleared (afterCrashes crashes world)).database.executions,
          Readable record := by
        rw [rows]
        exact rows_readable reconcilable
      obtain ⟨rfl, counted⟩ := (ends_of_ok ran').mp (reconcile_ends again readable')
      rw [@cleared_of_empty (cleared (afterCrashes crashes world)) rfl] at counted ⊢
      exact ⟨by omega, rfl⟩
  · intro reactions quiet
    rw [reconcile_returns_iff quiet readable]
    rintro ⟨earlier, bad, later, split, unrecordable, _⟩
    apply unrecordable
    obtain ⟨task, revision, accepted⟩ := reconcilable.recordable bad (inside bad (by simp [split]))
    refine ⟨?_, ?_, accepted⟩
    · rw [same.tasks]
      exact task
    · rw [same.revisions]
      exact revision

namespace Backup

open TaskControl.Runtime.Backup

/-- What the wrapper has journalled of a degraded run. -/
def journalled : JournalEntry := entryFor installed .schedule ⟨8, later_bounded⟩ ⟨7⟩ ⟨8⟩ report.result

/-- The database is back, and the journal holds the run twice. -/
def returned : World := { world with journal := [journalled, journalled] }

def undisturbed : ReconcileReactions := ⟨.ok (), 0, .ok (), fun _ => .ok (), .none, .none⟩

/-- The host loses power between the commit and the removal of the journal. -/
def cutOff : ReconcileReactions := { undisturbed with commit := .after .interrupt }

theorem undisturbed_quiet : Undisturbed undisturbed := ⟨rfl, rfl, fun _ => rfl, rfl, rfl⟩

theorem journalled_accepted : ∃ execution, executionFrom journalled = .ok execution :=
  ⟨_, Execution.make_of_consistent (complaint_finished rfl rfl rfl (by decide +kernel))⟩

theorem journalled_recordable : Recordable world.database journalled :=
  ⟨rfl, rfl, journalled_accepted⟩

theorem world_sound : Sound world.database :=
  ⟨List.nodup_nil, fun _ member => absurd member List.not_mem_nil⟩

theorem returned_reconcilable : Reconcilable returned := by
  refine ⟨world_sound, ?_⟩
  intro entry member
  have same : entry = journalled := by simpa [returned] using member
  rw [same]
  exact journalled_recordable

end Backup

theorem reconcile_crash_safe_cutOff :
    (∀ reactions report final,
      reconcile reactions (afterCrashes [Backup.cutOff] Backup.returned) = .ok report final →
        Reconciled Backup.returned final ∧ ∀ again report' final',
          reconcile again final = .ok report' final' →
            report'.ingested = 0 ∧ final'.database = final.database) ∧
      ∀ reactions, Undisturbed reactions → ∃ report final,
        reconcile reactions (afterCrashes [Backup.cutOff] Backup.returned) = .ok report final :=
  reconcile_crash_safe Backup.returned_reconcilable [Backup.cutOff]

/-! ## Entries that stand in the way -/

/-- The reconciliation records every entry that can be recorded. -/
def RecordsTheRest (reactions : ReconcileReactions) (world : World) : Prop :=
  ∀ entry ∈ world.journal, Recordable world.database entry →
    Known (finalWorld (reconcile reactions world)).database entry

theorem recordsTheRest_iff {reactions : ReconcileReactions} (quiet : Undisturbed reactions)
    {world : World} (readable : ∀ record ∈ world.database.executions, Readable record) :
    RecordsTheRest reactions world ↔ ¬ Poisoned world.database world.journal ∨
      ∀ entry ∈ world.journal, Recordable world.database entry → Known world.database entry := by
  by_cases poisoned : Poisoned world.database world.journal
  · have stays : finalWorld (reconcile reactions world) = world := by
      cases ran : ingest reactions.visit 0 world.journal ⟨world.database, 0, 0⟩ with
      | ok session => exact absurd poisoned ((ingest_isOk_iff quiet.visit readable).mp ⟨session, ran⟩)
      | error raised =>
          have struck : reconcile reactions world = .error raised world := by
            unfold reconcile
            rw [quiet.read, quiet.session]
            change (if world.journal.isEmpty then _ else _ : Program Raised World _) world = _
            rw [if_neg]
            · change (answer (ingest reactions.visit 0 world.journal ⟨world.database, 0, 0⟩) >>= _)
                world = _
              rw [ran]
              rfl
            · obtain ⟨earlier, bad, later, split, _⟩ := poisoned
              simp [split]
          rw [struck]
          rfl
    unfold RecordsTheRest
    rw [stays]
    exact ⟨.inr, fun either => either.resolve_left (not_not.mpr poisoned)⟩
  · obtain ⟨report, final, ran⟩ := (reconcile_returns_iff quiet readable).mpr poisoned
    obtain ⟨rfl, _⟩ := (ends_of_ok ran).mp (reconcile_ends reactions readable)
    refine iff_of_true ?_ (.inl poisoned)
    intro entry member _
    rw [ran]
    exact mem_keys_absorb _ _ (List.mem_map_of_mem member)

/-- The characters that the wrapper and the reconciliation put behind the sentence on a run. -/
def addedLength : Nat :=
  Ending.phrase " Run without the control plane, so no overlap protection was in force." +
    Ending.phrase (" Reconciled from a local journal: this ran while TaskControl's control state was " ++
      "unreachable, so no attempt detail was captured.")

/-- An entry of the wrapper is accepted exactly when the words on the run leave space for the two
remarks behind them. -/
theorem executionFrom_entryFor_iff (installed : InstalledRevision) (triggerSource : TriggerSource)
    (executionId : ExecutionId) (startedAt finishedAt : UtcTimestamp) (result : ProcessResult) :
    (∃ execution, executionFrom (entryFor installed triggerSource executionId startedAt finishedAt
        result) = .ok execution) ↔
      (ending result .none [0]).sentenceLength + addedLength ≤ maxExplanationLength := by
  have words := classify_words result .none [0]
  obtain ⟨stated, belongs⟩ := classifyProcessResult_explained result .none [0]
  have reasoned := reasonComplaint_explained stated belongs
  have space : (explanationFor (entryFor installed triggerSource executionId startedAt finishedAt
      result)).length = (ending result .none [0]).sentenceLength + addedLength := by
    have said : (entryFor installed triggerSource executionId startedAt finishedAt
        result).explanation ≠ [] := by
      unfold entryFor
      simp
    unfold explanationFor
    rw [if_neg said]
    simp only [entryFor, classifyReport, List.length_append, words.length]
    rw [Nat.add_assoc, addedLength, Ending.phrase, Ending.phrase]
  rw [← space]
  constructor
  · rintro ⟨execution, made⟩
    by_contra long
    have refused : executionFrom (entryFor installed triggerSource executionId startedAt finishedAt
        result) = .error (validationError "Execution explanation is too long.") :=
      Execution.make_of_complaint (complaint_long rfl rfl reasoned (Nat.lt_of_not_le long))
    rw [refused] at made
    cases made
  · intro fits
    exact ⟨_, Execution.make_of_consistent (complaint_finished rfl rfl reasoned fits)⟩

/-- Entries are recorded around those that cannot be exactly where none of these stands in the
way, or nothing else is left to record; and the wrapper's entry of a run is accepted exactly where
its words leave space for the two remarks. -/
theorem reconciles_around_iff (reactions : ReconcileReactions) (world : World)
    (quiet : Undisturbed reactions) (sound : Sound world.database) (installed : InstalledRevision)
    (triggerSource : TriggerSource) (executionId : ExecutionId)
    (startedAt finishedAt : UtcTimestamp) (result : ProcessResult) :
    (RecordsTheRest reactions world ↔ ¬ Poisoned world.database world.journal ∨
      ∀ entry ∈ world.journal, Recordable world.database entry → Known world.database entry) ∧
      ((∃ execution, executionFrom (entryFor installed triggerSource executionId startedAt
          finishedAt result) = .ok execution) ↔
        (ending result .none [0]).sentenceLength + addedLength ≤ maxExplanationLength) := by
  constructor
  · exact recordsTheRest_iff quiet sound.readable
  · exact executionFrom_entryFor_iff installed triggerSource executionId startedAt finishedAt result

namespace Backup

open TaskControl.Runtime.Backup

/-- A run of a revision that the database does not have. -/
def foreign : JournalEntry :=
  { journalled with executionId := ⟨7, id_bounded⟩, revisionId := ⟨8, later_bounded⟩ }

def mixed : World := { world with journal := [foreign, journalled] }

end Backup

theorem reconciles_around_returned :
    (RecordsTheRest Backup.undisturbed Backup.returned ↔
      ¬ Poisoned Backup.returned.database Backup.returned.journal ∨
        ∀ entry ∈ Backup.returned.journal, Recordable Backup.returned.database entry →
          Known Backup.returned.database entry) ∧
      ∃ execution, executionFrom Backup.journalled = .ok execution :=
  (reconciles_around_iff Backup.undisturbed Backup.returned Backup.undisturbed_quiet
    Backup.world_sound Backup.installed .schedule ⟨8, Runtime.Backup.later_bounded⟩ ⟨7⟩ ⟨8⟩
    Runtime.Backup.report.result).imp_right fun accepted => accepted.mpr (by decide +kernel)

/-- A run of a missing revision keeps the one behind it out of the database. -/
theorem foreign_entry_blocks : ¬ RecordsTheRest Backup.undisturbed Backup.mixed := by
  intro records
  have known := records Backup.journalled (by simp [Backup.mixed]) Backup.journalled_recordable
  revert known
  unfold Known
  decide +kernel

end TaskControl.Activation
