import TaskControl.Runtime.Pattern

/-!
# What the parts of a run do

One lemma for each operation of the runtime: what it returns or raises, in terms
of the answers it is given, and what it leaves in the world.  A run only ever
touches the row of its own execution.
-/

set_option autoImplicit false

namespace TaskControl.Runtime

open PythonText Effects Persistence

/-! ## Changes of the world -/

/-- Of two rows, the second keeps what is fixed when the execution is created. -/
structure SameIdentity (old new : ExecutionRecord) : Prop where
  taskId : new.taskId = old.taskId
  revisionId : new.revisionId = old.revisionId
  triggerSource : new.triggerSource = old.triggerSource

/-- Nothing but the mutable columns of one row changes. -/
structure Touches (executionId : ExecutionId) (world world' : World) : Prop where
  others : ∀ other, other ≠ executionId →
    world'.database.record? other = world.database.record? other
  tasks : world'.database.tasks = world.database.tasks
  revisions : world'.database.revisions = world.database.revisions
  ids : world'.database.executions.map ExecutionRecord.executionId =
    world.database.executions.map ExecutionRecord.executionId
  journal : world'.journal = world.journal
  identity : ∀ old, world.database.record? executionId = some old →
    ∃ new, world'.database.record? executionId = some new ∧ SameIdentity old new

namespace Touches

variable {executionId : ExecutionId} {world world' world'' : World}

theorem refl (executionId : ExecutionId) (world : World) : Touches executionId world world :=
  ⟨fun _ _ => rfl, rfl, rfl, rfl, rfl, fun old found => ⟨old, found, rfl, rfl, rfl⟩⟩

theorem trans (first : Touches executionId world world')
    (second : Touches executionId world' world'') : Touches executionId world world'' where
  others := fun other different => (second.others other different).trans (first.others other different)
  tasks := second.tasks.trans first.tasks
  revisions := second.revisions.trans first.revisions
  ids := second.ids.trans first.ids
  journal := second.journal.trans first.journal
  identity := by
    intro old found
    obtain ⟨mid, found', same⟩ := first.identity old found
    obtain ⟨new, found'', same'⟩ := second.identity mid found'
    exact ⟨new, found'', same'.taskId.trans same.taskId, same'.revisionId.trans same.revisionId,
      same'.triggerSource.trans same.triggerSource⟩

end Touches

/-- A row that can be read back. -/
def Readable (record : ExecutionRecord) : Prop := (record.fields []).complaint = none

/-- One committed save: the row of the execution, and its place on the trace. -/
structure Stores (record : ExecutionRecord) (world world' : World) : Prop where
  touches : Touches record.executionId world world'
  row : world'.database.record? record.executionId = some record
  readable : Readable record
  trace : world'.trace = world.trace ++ [.stored record]

/-- What the trace shows of a run that has not concluded yet and holds at most the lock
`held`. -/
def InProgress (executionId : ExecutionId) (revision : TaskRevision) (held : Option LockHandle) :
    Event → Prop
  | .stored record => record.executionId = executionId ∧ record.state.isTerminal = false
  | .launched path request controls =>
      path = .recorded ∧ request.action = revision.action ∧ controls = revision.controls
  | .acquired handle => held = some handle
  | .released _ => False

def Event.isLaunch : Event → Bool
  | .launched _ _ _ => true
  | _ => false

/-- A row that is open and can be read back. -/
def OpenRow (executionId : ExecutionId) (world : World) : Prop :=
  ∃ record, world.database.record? executionId = some record ∧ record.state.isTerminal = false ∧
    Readable record

/-- A part of a run that leaves its execution open. -/
structure Progress (executionId : ExecutionId) (revision : TaskRevision)
    (held : Option LockHandle) (launched : Bool) (world world' : World) : Prop where
  touches : Touches executionId world world'
  open_ : OpenRow executionId world'
  trace : ∃ events, world'.trace = world.trace ++ events ∧
    (∀ event ∈ events, InProgress executionId revision held event) ∧
    events.any Event.isLaunch = launched

namespace Progress

variable {executionId : ExecutionId} {revision : TaskRevision} {held : Option LockHandle}
  {launched launched' : Bool} {world world' world'' : World}

theorem refl (revision : TaskRevision) (held : Option LockHandle)
    (open_ : OpenRow executionId world) :
    Progress executionId revision held false world world :=
  ⟨Touches.refl executionId world, open_, [], by simp, by simp, rfl⟩

theorem trans (first : Progress executionId revision held launched world world')
    (second : Progress executionId revision held launched' world' world'') :
    Progress executionId revision held (launched || launched') world world'' := by
  obtain ⟨events, traced, quiet, counted⟩ := first.trace
  obtain ⟨events', traced', quiet', counted'⟩ := second.trace
  refine ⟨first.touches.trans second.touches, second.open_, events ++ events', ?_, ?_, ?_⟩
  · rw [traced', traced, List.append_assoc]
  · intro event member
    rcases List.mem_append.mp member with early | late
    · exact quiet event early
    · exact quiet' event late
  · rw [List.any_append, counted, counted']

/-- A save of an open execution. -/
theorem of_stores {record : ExecutionRecord} (stores : Stores record world world')
    (open_ : record.state.isTerminal = false) (revision : TaskRevision)
    (held : Option LockHandle) :
    Progress record.executionId revision held false world world' := by
  refine ⟨stores.touches, ⟨record, stores.row, open_, stores.readable⟩, [.stored record],
    stores.trace, ?_, rfl⟩
  intro event member
  rw [List.mem_singleton.mp member]
  exact ⟨rfl, open_⟩

end Progress

/-! ## Single calls -/

section Calls

variable {σ α : Type}

theorem answer_eq_ok {reaction : Except Raised α} {s s' : σ} {value : α} :
    (answer reaction : Program Raised σ α) s = .ok value s' ↔ reaction = .ok value ∧ s' = s := by
  cases reaction with
  | ok other =>
      constructor
      · rintro ⟨⟩
        exact ⟨rfl, rfl⟩
      · rintro ⟨⟨⟩, rfl⟩
        rfl
  | error raised =>
      constructor
      · rintro ⟨⟩
      · rintro ⟨⟨⟩, _⟩

theorem answer_eq_error {reaction : Except Raised α} {s s' : σ} {raised : Raised} :
    (answer reaction : Program Raised σ α) s = .error raised s' ↔
      reaction = .error raised ∧ s' = s := by
  cases reaction with
  | ok other =>
      constructor
      · rintro ⟨⟩
      · rintro ⟨⟨⟩, _⟩
  | error raised' =>
      constructor
      · rintro ⟨⟩
        exact ⟨rfl, rfl⟩
      · rintro ⟨⟨⟩, rfl⟩
        rfl

theorem answer_ends (reaction : Except Raised α) (s : σ) :
    Ends (answer reaction : Program Raised σ α) s (fun value s' => reaction = .ok value ∧ s' = s)
      (fun raised s' => reaction = .error raised ∧ s' = s) := by
  cases reaction with
  | ok value => exact ⟨rfl, rfl⟩
  | error raised => exact ⟨rfl, rfl⟩

theorem domain_ends (result : Except TaskControlError α) (s : σ) :
    Ends (domain result : Program Raised σ α) s (fun value s' => result = .ok value ∧ s' = s)
      (fun raised s' => ∃ error, result = .error error ∧ raised = .taskControl error ∧ s' = s) := by
  cases result with
  | ok value => exact ⟨rfl, rfl⟩
  | error error => exact ⟨error, rfl, rfl, rfl⟩

theorem ends_domain_ok {result : Except TaskControlError α} {value : α} (s : σ)
    (known : result = .ok value) {post : α → σ → Prop} {raised : Raised → σ → Prop}
    (holds : post value s) : Ends (domain result : Program Raised σ α) s post raised := by
  subst known
  exact holds

theorem bind_answer {β : Type} {reaction : Except Raised α} {next : α → Program Raised σ β}
    {b : β} {s s' : σ} :
    ((answer reaction : Program Raised σ α) >>= next) s = .ok b s' ↔
      ∃ value, reaction = .ok value ∧ next value s = .ok b s' := by
  cases reaction with
  | ok value =>
      change next value s = _ ↔ _
      simp
  | error raised => simp [answer, bind_run, throw, throwThe, MonadExceptOf.throw, EStateM.throw]

theorem bind_domain {β : Type} {result : Except TaskControlError α}
    {next : α → Program Raised σ β} {b : β} {s s' : σ} :
    ((domain result : Program Raised σ α) >>= next) s = .ok b s' ↔
      ∃ value, result = .ok value ∧ next value s = .ok b s' := by
  cases result with
  | ok value =>
      change next value s = _ ↔ _
      simp
  | error error => simp [domain, bind_run, throw, throwThe, MonadExceptOf.throw, EStateM.throw]

end Calls

theorem Fault.raised_ok {fault : Fault} : fault.raised = .ok () ↔ fault = .none := by
  cases fault <;> simp [Fault.raised]

/-- The world after a commit that leaves `database`. -/
def committed (executionId : ExecutionId) (world : World) (database : Database) : World :=
  match database.record? executionId with
  | some record => { world with database, trace := world.trace ++ [.stored record] }
  | none => { world with database }

/-- A transaction either commits or leaves the world as it was. -/
theorem transaction_ends (fault : Fault) (executionId : ExecutionId)
    (change : Database → Except TaskControlError Database) (world : World) :
    Ends (transaction fault executionId change) world
      (fun _ world' => fault = .none ∧ ∃ database, change world.database = .ok database ∧
        world' = committed executionId world database)
      (fun raised world' =>
        (world' = world ∧ (fault = .before raised ∨
          ∃ error, change world.database = .error error ∧ raised = .taskControl error)) ∨
        (fault = .after raised ∧ ∃ database, change world.database = .ok database ∧
          world' = committed executionId world database)) := by
  have noted : ∀ database, Ends (do
      match database.record? executionId with
      | some record => note (.stored record)
      | none => pure ()
      answer fault.raised : Program Raised World Unit) { world with database }
      (fun _ world' => fault.raised = .ok () ∧ world' = committed executionId world database)
      (fun raised world' => fault.raised = .error raised ∧
        world' = committed executionId world database) := by
    intro database
    unfold committed
    cases database.record? executionId with
    | some record => exact Ends.bind (ends_modify (answer_ends fault.raised _))
    | none => exact Ends.bind (ends_pure (answer_ends fault.raised _))
  unfold transaction
  cases fault with
  | before error => exact ends_throw (.inl ⟨rfl, .inl rfl⟩)
  | none =>
      refine Ends.bind (ends_get (Ends.bind ((domain_ends _ world).mono ?_ ?_)))
      · rintro database world ⟨done, rfl⟩
        refine Ends.bind (ends_modify ((noted database).mono ?_ ?_))
        · rintro _ world' ⟨_, rfl⟩
          exact ⟨rfl, database, done, rfl⟩
        · rintro raised world' ⟨struck, _⟩
          cases struck
      · rintro raised world ⟨error, failed, rfl, rfl⟩
        exact .inl ⟨rfl, .inr ⟨error, failed, rfl⟩⟩
  | after error =>
      refine Ends.bind (ends_get (Ends.bind ((domain_ends _ world).mono ?_ ?_)))
      · rintro database world ⟨done, rfl⟩
        refine Ends.bind (ends_modify ((noted database).mono ?_ ?_))
        · rintro _ world' ⟨quiet, _⟩
          cases quiet
        · rintro raised world' ⟨struck, rfl⟩
          cases struck
          exact .inr ⟨rfl, database, done, rfl⟩
      · rintro raised world ⟨error, failed, rfl, rfl⟩
        exact .inl ⟨rfl, .inr ⟨error, failed, rfl⟩⟩

/-- `_save` on a row that is there. -/
theorem save_ends (fault : Fault) (execution : Execution) (world : World)
    {old : ExecutionRecord}
    (found : world.database.record? execution.executionId = some old) :
    Ends (RuntimeService.save fault execution) world
      (fun saved world' => fault.raised = .ok () ∧ saved = execution ∧
        Stores (applyExecutionToRecord old execution) world world')
      (fun raised world' => fault.raised = .error raised ∧
        (if fault.commits then Stores (applyExecutionToRecord old execution) world world'
        else world' = world)) := by
  obtain ⟨saved, done, row, others, tasks, revisions, records⟩ := Database.saveExecution_ok found
  have named : (applyExecutionToRecord old execution).executionId = execution.executionId := by
    have own := Database.record?_executionId found
    exact own
  have stores : Stores (applyExecutionToRecord old execution) world
      (committed execution.executionId world saved) := by
    unfold committed
    rw [row]
    refine ⟨?_, by rw [named]; exact row, applied_consistent old execution, rfl⟩
    rw [named]
    refine ⟨others, tasks, revisions, ?_, rfl, ?_⟩
    · change saved.executions.map ExecutionRecord.executionId = _
      rw [records, List.map_map]
      apply List.map_congr_left
      intro record _
      exact Database.savedRow_executionId execution record
    · intro older found'
      rw [found] at found'
      cases found'
      exact ⟨_, row, rfl, rfl, rfl⟩
  unfold RuntimeService.save
  refine Ends.bind ((transaction_ends fault _ _ world).mono ?_ ?_)
  · rintro _ world' ⟨rfl, database, done', rfl⟩
    rw [done] at done'
    cases done'
    exact ends_pure ⟨rfl, rfl, stores⟩
  · rintro raised world' (⟨rfl, rfl | ⟨error, failed, _⟩⟩ | ⟨rfl, database, done', rfl⟩)
    · exact ⟨rfl, by simp [Fault.commits]⟩
    · rw [done] at failed
      cases failed
    · rw [done] at done'
      cases done'
      refine ⟨rfl, ?_⟩
      rw [if_pos (show (Fault.after raised).commits = true from rfl)]
      exact stores

/-- The row of a new execution. -/
structure Adds (record : ExecutionRecord) (world world' : World) : Prop where
  fresh : world.database.record? record.executionId = none
  row : world'.database.record? record.executionId = some record
  others : ∀ other, other ≠ record.executionId →
    world'.database.record? other = world.database.record? other
  tasks : world'.database.tasks = world.database.tasks
  revisions : world'.database.revisions = world.database.revisions
  records : world'.database.executions = world.database.executions ++ [record]
  journal : world'.journal = world.journal
  readable : Readable record
  trace : world'.trace = world.trace ++ [.stored record]

/-- The transaction that creates the execution takes effect. -/
def Admitted (reactions : Reactions) (database : Database) (execution : Execution) : Prop :=
  reactions.create.commits = true ∧ ∃ added, database.addExecution execution = .ok added

/-- `_persist_new`. -/
theorem persistNew_ends (reactions : Reactions) (execution : Execution) (world : World) :
    Ends (RuntimeService.persistNew reactions execution) world
      (fun _ world' => reactions.create = .none ∧ Admitted reactions world.database execution ∧
        Adds (executionToRecord execution) world world')
      (fun raised world' => (¬ Admitted reactions world.database execution ∧ world' = world) ∨
        (reactions.create = .after raised ∧ Admitted reactions world.database execution ∧
          Adds (executionToRecord execution) world world')) := by
  have adds : ∀ database, world.database.addExecution execution = .ok database →
      Adds (executionToRecord execution) world
        (committed execution.executionId world database) := by
    intro database done
    obtain ⟨fresh, row, others, tasks, revisions, records⟩ := Database.addExecution_ok done
    unfold committed
    rw [row]
    exact ⟨fresh, row, others, tasks, revisions, records, rfl, created_consistent execution, rfl⟩
  refine (transaction_ends reactions.create _ _ world).mono ?_ ?_
  · rintro _ world' ⟨quiet, database, done, rfl⟩
    exact ⟨quiet, ⟨by rw [quiet]; rfl, database, done⟩, adds database done⟩
  · rintro raised world' (⟨same, struck | ⟨error, failed, _⟩⟩ | ⟨late, database, done, rfl⟩)
    · refine .inl ⟨?_, same⟩
      rintro ⟨commits, _⟩
      rw [struck] at commits
      cases commits
    · refine .inl ⟨?_, same⟩
      rintro ⟨_, added, done⟩
      rw [failed] at done
      cases done
    · exact .inr ⟨late, ⟨by rw [late]; rfl, database, done⟩, adds database done⟩

/-! ## Terminal saves -/

/-- The row says what the verdict says. -/
structure Verdict.WrittenIn (verdict : Verdict) (record : ExecutionRecord) : Prop where
  state : record.state = .finished
  outcome : record.outcome = some verdict.outcome
  reasonCode : record.reasonCode = verdict.reasonCode
  explanation : record.explanation = verdict.explanation

/-- The execution is one that the verdict finishes. -/
structure Verdict.Finishes (verdict : Verdict) (executionId : ExecutionId)
    (execution : Execution) : Prop where
  named : execution.executionId = executionId
  finished : execution.isFinished = true
  outcome : execution.outcome = some verdict.outcome

/-- The reason code, if one is needed, is there and belongs to the outcome. -/
def Verdict.Reasoned (verdict : Verdict) : Prop :=
  reasonComplaint verdict.outcome verdict.reasonCode = none

/-- A verdict is stored, or nothing happens. -/
def Writes (executionId : ExecutionId) (stored : Option Verdict) (world world' : World) : Prop :=
  match stored with
  | none => world' = world
  | some verdict =>
      ∃ record, record.executionId = executionId ∧ verdict.WrittenIn record ∧
        Stores record world world'

theorem Writes.touches {executionId : ExecutionId} {stored : Option Verdict}
    {world world' : World} (writes : Writes executionId stored world world') :
    Touches executionId world world' := by
  cases stored with
  | none => exact writes ▸ Touches.refl executionId world
  | some verdict =>
      obtain ⟨record, named, _, stores⟩ := writes
      exact named ▸ stores.touches

/-- What `_finish` stores, by what its answers say. -/
def settled (clock : Except Raised UtcTimestamp) (fault : Fault) (verdict : Verdict) :
    Option Verdict :=
  if Settles clock fault verdict then some verdict else none

theorem finishing_raised {clock : Except Raised UtcTimestamp} {fault : Fault} {verdict : Verdict}
    {moment : UtcTimestamp} (read : clock = .ok moment)
    (fits : verdict.explanation.length ≤ maxExplanationLength) :
    finishing clock fault verdict = fault.raised := by
  unfold finishing
  rw [read]
  exact if_neg (by omega)

theorem settles_iff {clock : Except Raised UtcTimestamp} {fault : Fault} {verdict : Verdict}
    {moment : UtcTimestamp} (read : clock = .ok moment)
    (fits : verdict.explanation.length ≤ maxExplanationLength) :
    Settles clock fault verdict ↔ fault.commits = true :=
  ⟨fun settles => settles.2.2, fun commits => ⟨⟨moment, read⟩, fits, commits⟩⟩

/-- `_finish` on an open execution with its row in place. -/
theorem finish_ends (clock : Except Raised UtcTimestamp) (fault : Fault) {execution : Execution}
    (open_ : execution.isFinished = false) {verdict : Verdict} (reasoned : verdict.Reasoned)
    (world : World) {old : ExecutionRecord}
    (found : world.database.record? execution.executionId = some old) :
    Ends (RuntimeService.finish clock fault execution verdict.outcome verdict.reasonCode
        verdict.explanation) world
      (fun finished world' => finishing clock fault verdict = .ok () ∧
        verdict.Finishes execution.executionId finished ∧
        Writes execution.executionId (some verdict) world world')
      (fun raised world' => finishing clock fault verdict = .error raised ∧
        Writes execution.executionId (settled clock fault verdict) world world') := by
  unfold RuntimeService.finish
  refine Ends.bind ((answer_ends clock world).mono ?_ ?_)
  · rintro moment world ⟨read, rfl⟩
    by_cases fits : verdict.explanation.length ≤ maxExplanationLength
    · obtain ⟨finished, done, fields⟩ := Execution.finish_ok open_ reasoned fits moment
      have named : finished.executionId = execution.executionId := by rw [fields]
      refine Ends.bind (ends_domain_ok _ done ?_)
      have found' : world.database.record? finished.executionId = some old := named ▸ found
      have written : verdict.WrittenIn (applyExecutionToRecord old finished) := by
        refine ⟨?_, ?_, ?_, ?_⟩ <;> simp only [applyExecutionToRecord, fields]
      have same : (applyExecutionToRecord old finished).executionId = execution.executionId := by
        have own := Database.record?_executionId found
        exact own
      refine (save_ends fault finished world found').mono ?_ ?_
      · rintro _ world' ⟨quiet, rfl, stores⟩
        refine ⟨(finishing_raised read fits).trans quiet, ⟨named, ?_, ?_⟩, _, same, written, stores⟩
        · rw [Execution.isFinished, fields]
          rfl
        · rw [fields]
      · rintro raised world' ⟨struck, stored⟩
        refine ⟨(finishing_raised read fits).trans struck, ?_⟩
        unfold settled
        by_cases commits : fault.commits = true
        · rw [if_pos ((settles_iff read fits).mpr commits)]
          rw [if_pos commits] at stored
          exact ⟨_, same, written, stored⟩
        · rw [if_neg fun settles => commits ((settles_iff read fits).mp settles)]
          rw [if_neg commits] at stored
          exact stored
    · have long : maxExplanationLength < verdict.explanation.length := by omega
      have refused := Execution.finish_long open_ reasoned long moment
      refine Ends.bind ((domain_ends _ world).mono ?_ ?_)
      · rintro finished world' ⟨done, _⟩
        rw [refused] at done
        cases done
      · rintro raised world ⟨error, done, rfl, rfl⟩
        rw [refused] at done
        cases done
        refine ⟨?_, ?_⟩
        · unfold finishing
          rw [read]
          exact if_pos long
        · unfold settled
          rw [if_neg fun settles => fits settles.2.1]
          rfl
  · rintro raised world ⟨struck, rfl⟩
    refine ⟨?_, ?_⟩
    · unfold finishing
      rw [struck]
      rfl
    · unfold settled
      rw [if_neg]
      · rfl
      · rintro ⟨⟨moment, read⟩, _⟩
        rw [struck] at read
        cases read

/-! ## Attempts -/

/-- `_save` of an execution that stays open. -/
theorem save_progress (fault : Fault) {execution : Execution}
    (open_ : execution.isFinished = false) (revision : TaskRevision) (held : Option LockHandle)
    {world : World} (row : OpenRow execution.executionId world) :
    Ends (RuntimeService.save fault execution) world
      (fun saved world' => fault.raised = .ok () ∧ saved = execution ∧
        Progress execution.executionId revision held false world world')
      (fun raised world' => fault.raised = .error raised ∧
        Progress execution.executionId revision held false world world') := by
  obtain ⟨old, found, openRow, readable⟩ := row
  have same : (applyExecutionToRecord old execution).executionId = execution.executionId := by
    have own := Database.record?_executionId found
    exact own
  have progress : ∀ world', Stores (applyExecutionToRecord old execution) world world' →
      Progress execution.executionId revision held false world world' := by
    intro world' stores
    exact same ▸ Progress.of_stores stores open_ revision held
  refine (save_ends fault execution world found).mono ?_ ?_
  · rintro saved world' ⟨quiet, kept, stores⟩
    exact ⟨quiet, kept, progress world' stores⟩
  · rintro raised world' ⟨struck, stored⟩
    refine ⟨struck, ?_⟩
    by_cases commits : fault.commits = true
    · rw [if_pos commits] at stored
      exact progress world' stored
    · rw [if_neg commits] at stored
      rw [stored]
      exact Progress.refl revision held ⟨old, found, openRow, readable⟩

/-- The executor is called and answers. -/
theorem launch_progress (reaction : Except Raised ExecutionReport) (revision : TaskRevision)
    (held : Option LockHandle) (environment : List (Text × Text)) {executionId : ExecutionId} {world : World}
    (row : OpenRow executionId world) :
    Ends (RuntimeService.launch .recorded reaction
        (RuntimeService.requestFor revision.action environment revision.controls) revision.controls)
      world
      (fun report world' => reaction = .ok report ∧
        Progress executionId revision held true world world')
      (fun raised world' => reaction = .error raised ∧
        Progress executionId revision held true world world') := by
  have progress : Progress executionId revision held true world { world with
      trace := world.trace ++ [.launched .recorded
        (RuntimeService.requestFor revision.action environment revision.controls)
        revision.controls] } := by
    refine ⟨⟨fun _ _ => rfl, rfl, rfl, rfl, rfl, fun old found => ⟨old, found, rfl, rfl, rfl⟩⟩, row,
      _, rfl, ?_, rfl⟩
    intro event member
    rw [List.mem_singleton.mp member]
    exact ⟨rfl, rfl, rfl⟩
  cases reaction with
  | ok report => exact ⟨rfl, progress⟩
  | error raised => exact ⟨rfl, progress⟩

/-- One attempt ends as its answers say and leaves the execution open. -/
theorem runAttempt_ends (reactions : AttemptReactions) (revision : TaskRevision)
    (held : Option LockHandle) (environment : List (Text × Text)) {execution : Execution}
    (open_ : execution.isFinished = false) {world : World}
    (row : OpenRow execution.executionId world) :
    Ends (RuntimeService.runAttempt reactions revision environment execution) world
      (fun result world' => reactions.reply = .ok result.2 ∧ result.1.isFinished = false ∧
        result.1.executionId = execution.executionId ∧
        result.1.attemptCount = execution.attemptCount + 1 ∧
        Progress execution.executionId revision held true world world')
      (fun raised world' => reactions.reply = .error raised ∧
        Progress execution.executionId revision held reactions.launches world world') := by
  unfold RuntimeService.runAttempt
  refine Ends.bind ((answer_ends reactions.startClock world).mono ?_ ?_)
  · rintro startedAt world ⟨started, rfl⟩
    obtain ⟨attempt, made, attemptId, numbered, unfinished⟩ := ExecutionAttempt.started_ok
      reactions.attemptId execution.executionId (Nat.succ_pos execution.attemptCount) startedAt
      revision.action.executorType.wire
    obtain ⟨running, begun, fields⟩ := Execution.beginAttempt_ok open_ numbered startedAt
    have named : running.executionId = execution.executionId := by rw [fields]
    have runningOpen : running.isFinished = false := by
      rw [Execution.isFinished, fields]
      rfl
    refine Ends.bind (ends_domain_ok _ made (Ends.bind (ends_domain_ok _ begun (Ends.bind
      ((save_progress reactions.begin_ runningOpen revision held (named ▸ row)).mono ?_ ?_)))))
    · rintro running world' ⟨quiet, rfl, begunProgress⟩
      rw [named] at begunProgress
      refine Ends.bind ((launch_progress reactions.executor revision held environment
        begunProgress.open_).mono ?_ ?_)
      · rintro report world'' ⟨reported, launched⟩
        have progress := begunProgress.trans launched
        have launches : reactions.launches = true := by
          unfold AttemptReactions.launches
          rw [started, quiet]
        refine Ends.bind ((answer_ends reactions.endClock world'').mono ?_ ?_)
        · rintro finishedAt world'' ⟨ended, rfl⟩
          obtain ⟨finished, done, finishedId⟩ := ExecutionAttempt.finish_ok unfinished report.result
            finishedAt report.stdout report.stderr
          have latest : running.attempts = execution.attempts ++ [attempt] := by rw [fields]
          obtain ⟨recorded, kept, recordedFields⟩ :=
            Execution.recordAttemptResult_ok runningOpen latest finishedId
          have recordedId : recorded.executionId = execution.executionId := by
            rw [recordedFields, named]
          have recordedOpen : recorded.isFinished = false := by
            rw [Execution.isFinished, recordedFields]
            exact runningOpen
          refine Ends.bind (ends_domain_ok _ done (Ends.bind (ends_domain_ok _ kept (Ends.bind
            ((save_progress reactions.record recordedOpen revision held
              (recordedId ▸ progress.open_)).mono ?_ ?_)))))
          · rintro recorded world''' ⟨quiet', rfl, recordProgress⟩
            rw [recordedId] at recordProgress
            refine ⟨?_, recordedOpen, recordedId, ?_, progress.trans recordProgress⟩
            · simp [AttemptReactions.reply, started, quiet, reported, ended, quiet', bind,
                Except.bind, pure, Except.pure]
            · rw [Execution.attemptCount, recordedFields, Execution.attemptCount]
              simp
          · rintro raised world''' ⟨struck, recordProgress⟩
            rw [recordedId] at recordProgress
            refine ⟨?_, ?_⟩
            · simp [AttemptReactions.reply, started, quiet, reported, ended, struck, bind,
                Except.bind]
            · rw [launches]
              exact progress.trans recordProgress
        · rintro raised world'' ⟨struck, rfl⟩
          refine ⟨?_, ?_⟩
          · simp [AttemptReactions.reply, started, quiet, reported, struck, bind, Except.bind]
          · rw [launches]
            exact progress
      · rintro raised world'' ⟨struck, launched⟩
        refine ⟨?_, ?_⟩
        · simp [AttemptReactions.reply, started, quiet, struck, bind, Except.bind]
        · have launches : reactions.launches = true := by
            unfold AttemptReactions.launches
            rw [started, quiet]
          rw [launches]
          exact begunProgress.trans launched
    · rintro raised world' ⟨struck, begunProgress⟩
      rw [named] at begunProgress
      refine ⟨?_, ?_⟩
      · simp [AttemptReactions.reply, started, struck, bind, Except.bind]
      · unfold AttemptReactions.launches
        rw [started, struck]
        exact begunProgress
  · rintro raised world ⟨struck, rfl⟩
    refine ⟨?_, ?_⟩
    · simp [AttemptReactions.reply, struck, bind, Except.bind]
    · unfold AttemptReactions.launches
      rw [struck]
      exact Progress.refl revision held row

end TaskControl.Runtime
