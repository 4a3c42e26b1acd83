import TaskControl.Cron.ExactlyOnce
import TaskControl.Domain.Revision
import TaskControl.Domain.Task
import TaskControl.Runtime.Runs

/-!
# Collecting the desired estate

`DeploymentService` reads the active tasks page by page, each page in a query of
its own that skips as many tasks as were read before.  Other processes commit in
between, so a task can move across the boundary of two pages; one that never does
is collected exactly once.
-/

set_option autoImplicit false

namespace TaskControl.Deployment

open PythonText Effects Cron

/-! ## What the queries see -/

/-- The committed rows that a statement sees. -/
structure CommittedState where
  tasks : List Task
  revisions : TaskRevisionId → Option TaskRevision
  keyed : (tasks.map Task.taskId).Nodup

/-- What is committed when each statement of the session runs.  No revision is ever deleted. -/
structure History where
  at_ : Nat → CommittedState
  kept : ∀ earlier later revisionId, earlier ≤ later →
    (at_ earlier).revisions revisionId ≠ none → (at_ later).revisions revisionId ≠ none

/-- `ORDER BY task_id`. -/
def orderedById (tasks : List Task) : List Task :=
  tasks.insertionSort fun first second => first.taskId.text ≤ second.taskId.text

/-- The tasks that `list_tasks` pages through. -/
def selected (state : CommittedState) (lifecycleStates : List TaskLifecycleState) : List Task :=
  orderedById (if lifecycleStates = [] then state.tasks
    else state.tasks.filter fun task => task.lifecycleState ∈ lifecycleStates)

/-- `list_tasks`. -/
def listTasks (state : CommittedState) (lifecycleStates : List TaskLifecycleState)
    (limit offset : Nat) : List Task :=
  ((selected state lifecycleStates).drop offset).take limit

/-! ## The service -/

def pageSize : Nat := 200

/-- `str.isalnum`, on the characters that a slug can have. -/
def isAlnum (text : Text) : Bool := !text.isEmpty && text.all Char.isAlphanum

/-- `assert_deployable_for`. -/
def assertDeployableFor (deployment : DeploymentSpecification) (slug : Slug) :
    Except TaskControlError Unit :=
  if !deployment.strategy.writesAFilePerTask then .ok ()
  else if !isAlnum ((slug.value.filter (· ≠ '-')).filter (· ≠ '_')) then
    .error (validationError
      (s!"The slug '{String.ofList slug.value}' cannot be used as a filename in " ++
        s!"{deployment.target.wire}: cron would ignore the file, so the task would appear " ++
        "deployed and never run. Only letters, digits, hyphens, and underscores are safe here."))
  else .ok ()

structure DeploymentService where
  commandBuilder : Task → Text

namespace DeploymentService

/-- `artefact_from`. -/
def artefactFrom (service : DeploymentService) (task : Task) (revision : TaskRevision) :
    Except TaskControlError DesiredArtefact := do
  assertDeployableFor revision.deployment task.slug
  return {
    taskId := task.taskId
    slug := task.slug.value
    deployment := revision.deployment
    command := service.commandBuilder task
    contentDigest := (revision.contentDigest.map ContentDigest.value).getD "unpublished".toList
    schedule := revision.activationSchedule.map CronExpression.expression
    description := if task.description = [] then task.name else task.description }

/-- `_artefact_for`, with the number of statements that the session has run before and after. -/
def artefactFor (service : DeploymentService) (history : History) (task : Task)
    (statement : Nat) : Except TaskControlError (Option DesiredArtefact × Nat) :=
  match task.activeRevisionId with
  | none => .ok (none, statement)
  | some revisionId =>
      match (history.at_ statement).revisions revisionId with
      | none => .ok (none, statement + 1)
      | some revision => do return (some (← service.artefactFrom task revision), statement + 1)

/-- The loop over one page. -/
def artefactsOf (service : DeploymentService) (history : History) :
    List Task → Nat → Except TaskControlError (List DesiredArtefact × Nat)
  | [], statement => .ok ([], statement)
  | task :: rest, statement => do
      let (artefact, statement) ← service.artefactFor history task statement
      let (artefacts, statement) ← service.artefactsOf history rest statement
      return (artefact.toList ++ artefacts, statement)

/-- The loop over the pages, and the statement that was its last.  The fuel is a bound on the
pages. -/
def collect (service : DeploymentService) (history : History) :
    Nat → Nat → Nat → Except TaskControlError (Option (List DesiredArtefact × Nat))
  | 0, _, _ => .ok none
  | fuel + 1, offset, statement =>
      match listTasks (history.at_ statement) [.active] pageSize offset with
      | [] => .ok (some ([], statement))
      | task :: rest => do
          let (artefacts, next) ← service.artefactsOf history (task :: rest) (statement + 1)
          match ← service.collect history fuel (offset + (task :: rest).length) next with
          | none => return none
          | some (later, last) => return some (artefacts ++ later, last)

/-- `desired_artefacts`. -/
def desiredArtefacts (service : DeploymentService) (history : History) (fuel : Nat) :
    Except TaskControlError (Option (List DesiredArtefact × Nat)) :=
  service.collect history fuel 0 0

end DeploymentService

/-! ## Tasks that stay deployable -/

/-- The task is active with a published revision that can be deployed and has a schedule. -/
def Deployable (state : CommittedState) (taskId : TaskId) : Prop :=
  ∃ task ∈ state.tasks, task.taskId = taskId ∧ task.lifecycleState = .active ∧
    ∃ revisionId revision, task.activeRevisionId = some revisionId ∧
      state.revisions revisionId = some revision ∧
      revision.publicationState.isDeployable = true ∧
      assertDeployableFor revision.deployment task.slug = .ok () ∧
      (revision.activationSchedule ≠ none ∨ revision.deployment.classification ≠ none)

/-- The place of a task among the active ones. -/
def place (state : CommittedState) (taskId : TaskId) : Nat :=
  ((selected state [.active]).map Task.taskId).idxOf taskId

/-- What the queries of two pages in a row see, and how many tasks are read by the second. -/
structure PageBoundary where
  before : CommittedState
  after : CommittedState
  offset : Nat

/-- Where a collection goes from one page to the next: reading a page of active tasks takes a
statement, and each of its rows one more. -/
def boundaries (history : History) : Nat → Nat → Nat → List PageBoundary
  | 0, _, _ => []
  | fuel + 1, offset, statement =>
      match (listTasks (history.at_ statement) [.active] pageSize offset).length with
      | 0 => []
      | rows + 1 =>
          ⟨history.at_ statement, history.at_ (statement + 1 + (rows + 1)), offset + (rows + 1)⟩ ::
            boundaries history fuel (offset + (rows + 1)) (statement + 1 + (rows + 1))

/-- The task was still to be read, and counts as read from here on. -/
def PageBoundary.Skips (boundary : PageBoundary) (taskId : TaskId) : Prop :=
  boundary.offset ≤ place boundary.before taskId ∧ place boundary.after taskId < boundary.offset

/-- The task was read already, and is to be read again. -/
def PageBoundary.Repeats (boundary : PageBoundary) (taskId : TaskId) : Prop :=
  place boundary.before taskId < boundary.offset ∧ boundary.offset ≤ place boundary.after taskId

instance (boundary : PageBoundary) (taskId : TaskId) : Decidable (boundary.Skips taskId) :=
  inferInstanceAs (Decidable (_ ∧ _))

instance (boundary : PageBoundary) (taskId : TaskId) : Decidable (boundary.Repeats taskId) :=
  inferInstanceAs (Decidable (_ ∧ _))

/-! ## Pages of a list -/

theorem mem_page {α : Type} [DecidableEq α] {items : List α} (distinct : items.Nodup) {a : α}
    (member : a ∈ items) (limit offset : Nat) :
    a ∈ (items.drop offset).take limit ↔
      offset ≤ items.idxOf a ∧ items.idxOf a < offset + limit := by
  rw [List.mem_iff_getElem]
  constructor
  · rintro ⟨i, bound, rfl⟩
    rw [List.length_take, List.length_drop] at bound
    rw [List.getElem_take, List.getElem_drop, distinct.idxOf_getElem]
    omega
  · rintro ⟨low, high⟩
    have within := List.idxOf_lt_length_of_mem member
    refine ⟨items.idxOf a - offset, ?_, ?_⟩
    · rw [List.length_take, List.length_drop]
      omega
    · rw [List.getElem_take, List.getElem_drop]
      have same : offset + (items.idxOf a - offset) = items.idxOf a := by omega
      simp only [same, List.getElem_idxOf]

theorem selected_distinct (state : CommittedState) (lifecycleStates : List TaskLifecycleState) :
    ((selected state lifecycleStates).map Task.taskId).Nodup := by
  have sorted : (selected state lifecycleStates).Perm (if lifecycleStates = [] then state.tasks
      else state.tasks.filter fun task => task.lifecycleState ∈ lifecycleStates) :=
    List.perm_insertionSort _ _
  rw [(sorted.map Task.taskId).nodup_iff]
  split
  · exact state.keyed
  · exact state.keyed.sublist (List.filter_sublist.map Task.taskId)

theorem mem_selected_active {state : CommittedState} {task : Task} :
    task ∈ selected state [.active] ↔ task ∈ state.tasks ∧ task.lifecycleState = .active := by
  unfold selected orderedById
  rw [List.mem_insertionSort, if_neg (List.cons_ne_nil _ _), List.mem_filter]
  simp

theorem Deployable.mem {state : CommittedState} {taskId : TaskId}
    (deployable : Deployable state taskId) :
    taskId ∈ (selected state [.active]).map Task.taskId := by
  obtain ⟨task, member, named, active, _⟩ := deployable
  exact List.mem_map.mpr ⟨task, mem_selected_active.mpr ⟨member, active⟩, named⟩

/-- The revision that the task's row names is found by every later statement. -/
theorem Deployable.revision {history : History} {statement : Nat} {taskId : TaskId}
    (deployable : Deployable (history.at_ statement) taskId) {task : Task}
    (member : task ∈ (history.at_ statement).tasks) (named : task.taskId = taskId)
    (revisionId : TaskRevisionId) (active : task.activeRevisionId = some revisionId) (later : Nat)
    (after : statement ≤ later) : (history.at_ later).revisions revisionId ≠ none := by
  obtain ⟨other, inTable, same, _, revisionId', revision, active', stored, _⟩ := deployable
  obtain rfl : other = task :=
    List.inj_on_of_nodup_map (history.at_ statement).keyed inTable member (same.trans named.symm)
  obtain rfl : revisionId' = revisionId := Option.some.inj (active'.symm.trans active)
  apply history.kept statement later revisionId' after
  rw [stored]
  exact Option.some_ne_none revision

/-! ## One page -/

section Collecting

variable {service : DeploymentService} {history : History} {taskId : TaskId}

theorem artefactFor_ok {task : Task} {revisionId : TaskRevisionId} {statement next : Nat}
    {artefact : Option DesiredArtefact} (active : task.activeRevisionId = some revisionId)
    (built : service.artefactFor history task statement = .ok (artefact, next)) :
    next = statement + 1 ∧ (∀ made ∈ artefact, made.taskId = task.taskId) ∧
      ((history.at_ statement).revisions revisionId ≠ none → artefact.isSome = true) := by
  unfold DeploymentService.artefactFor at built
  rw [active] at built
  dsimp only at built
  split at built
  · next missing =>
      cases built
      exact ⟨rfl, by simp, fun held => absurd missing held⟩
  · obtain ⟨made, rendered, returned⟩ := except_bind_eq_ok.mp built
    cases returned
    obtain ⟨_, _, fields⟩ := except_bind_eq_ok.mp rendered
    cases fields
    exact ⟨rfl, by simp, fun _ => rfl⟩

/-- A page of active tasks takes a statement for each row. -/
theorem artefactsOf_statements (page : List Task) :
    ∀ (statement next : Nat) (artefacts : List DesiredArtefact),
      service.artefactsOf history page statement = .ok (artefacts, next) →
      (∀ task ∈ page, task.activeRevisionId ≠ none) → next = statement + page.length := by
  induction page with
  | nil =>
      intro statement next artefacts collected _
      cases collected
      rfl
  | cons task rest ih =>
      intro statement next artefacts collected active
      obtain ⟨⟨artefact, mid⟩, built, collected⟩ := except_bind_eq_ok.mp collected
      obtain ⟨⟨others, final⟩, later, collected⟩ := except_bind_eq_ok.mp collected
      cases collected
      obtain ⟨revisionId, held⟩ := Option.ne_none_iff_exists'.mp (active task List.mem_cons_self)
      have first := (artefactFor_ok held built).1
      have further := ih mid next others later fun other member =>
        active other (List.mem_cons_of_mem task member)
      rw [List.length_cons]
      omega

/-- A page contributes one artefact for each of its rows that has a revision to deploy. -/
theorem artefactsOf_count (page : List Task) :
    ∀ (statement next : Nat) (artefacts : List DesiredArtefact),
      service.artefactsOf history page statement = .ok (artefacts, next) →
      (∀ task ∈ page, task.activeRevisionId ≠ none) →
      (∀ task ∈ page, task.taskId = taskId → ∀ revisionId, task.activeRevisionId = some revisionId →
        ∀ later, statement ≤ later → (history.at_ later).revisions revisionId ≠ none) →
      artefacts.countP (fun artefact => artefact.taskId = taskId) =
        (page.map Task.taskId).count taskId := by
  induction page with
  | nil =>
      intro statement next artefacts collected _ _
      cases collected
      rfl
  | cons task rest ih =>
      intro statement next artefacts collected active found
      obtain ⟨⟨artefact, mid⟩, built, collected⟩ := except_bind_eq_ok.mp collected
      obtain ⟨⟨others, final⟩, later, collected⟩ := except_bind_eq_ok.mp collected
      cases collected
      obtain ⟨revisionId, held⟩ := Option.ne_none_iff_exists'.mp (active task List.mem_cons_self)
      obtain ⟨rfl, named, present⟩ := artefactFor_ok held built
      have counted := ih (statement + 1) next others later
        (fun other member => active other (List.mem_cons_of_mem task member))
        fun other member same revisionId active later after =>
          found other (List.mem_cons_of_mem task member) same revisionId active later (by omega)
      rw [List.countP_append, counted, List.map_cons, List.count_cons, Nat.add_comm]
      congr 1
      by_cases own : task.taskId = taskId
      · have stored := found task List.mem_cons_self own revisionId held statement le_rfl
        obtain ⟨made, rfl⟩ := Option.isSome_iff_exists.mp (present stored)
        have its : made.taskId = taskId := (named made rfl).trans own
        simp [own, its]
      · have other : artefact.toList.countP (fun made => made.taskId = taskId) = 0 := by
          rw [List.countP_eq_zero]
          intro made member
          rw [decide_eq_true_eq, named made (Option.mem_toList.mp member)]
          exact own
        simp [own, other]

/-! ## All pages -/

theorem page_length (state : CommittedState) (offset : Nat) :
    (listTasks state [.active] pageSize offset).length =
      min pageSize ((selected state [.active]).length - offset) := by
  unfold listTasks
  rw [List.length_take, List.length_drop]

theorem Deployable.place_within {state : CommittedState} (deployable : Deployable state taskId) :
    place state taskId < (selected state [.active]).length := by
  have inside := List.idxOf_lt_length_of_mem deployable.mem
  rwa [List.length_map] at inside

/-- The page that one query reads holds the task when its place is within it. -/
theorem page_count {state : CommittedState} (deployable : Deployable state taskId) (offset : Nat) :
    ((listTasks state [.active] pageSize offset).map Task.taskId).count taskId =
      if offset ≤ place state taskId ∧
          place state taskId < offset + (listTasks state [.active] pageSize offset).length
        then 1 else 0 := by
  have distinct := selected_distinct state [.active]
  have inside := deployable.place_within
  have page : (listTasks state [.active] pageSize offset).map Task.taskId =
      (((selected state [.active]).map Task.taskId).drop offset).take pageSize := by
    unfold listTasks
    rw [List.map_take, List.map_drop]
  rw [page, ((distinct.sublist (List.drop_sublist _ _)).sublist (List.take_sublist _ _)).count]
  apply if_congr _ rfl rfl
  rw [mem_page distinct deployable.mem, page_length]
  change offset ≤ place state taskId ∧ place state taskId < offset + pageSize ↔ _
  omega

/-- Between two pages the boundary moves over the task or does not. -/
theorem boundary_balance (boundary : PageBoundary) (taskId : TaskId) :
    (if place boundary.before taskId < boundary.offset then 1 else 0) +
        (if boundary.Skips taskId then 1 else 0) =
      (if place boundary.after taskId < boundary.offset then 1 else 0) +
        if boundary.Repeats taskId then 1 else 0 := by
  have skips : boundary.Skips taskId ↔ ¬ place boundary.before taskId < boundary.offset ∧
      place boundary.after taskId < boundary.offset := and_congr_left fun _ => Nat.not_lt.symm
  have repeats : boundary.Repeats taskId ↔ place boundary.before taskId < boundary.offset ∧
      ¬ place boundary.after taskId < boundary.offset := and_congr_right fun _ => Nat.not_lt.symm
  simp only [skips, repeats]
  by_cases before : place boundary.before taskId < boundary.offset <;>
    by_cases after : place boundary.after taskId < boundary.offset <;>
    simp [before, after]

theorem mem_page_active {state : CommittedState} {limit offset : Nat} {task : Task}
    (member : task ∈ listTasks state [.active] limit offset) :
    task ∈ state.tasks ∧ task.lifecycleState = .active :=
  mem_selected_active.mp (List.mem_of_mem_drop (List.mem_of_mem_take member))

/-- What one round of the collection does. -/
theorem collect_succ {fuel offset statement last : Nat} {artefacts : List DesiredArtefact}
    (collected : service.collect history (fuel + 1) offset statement =
      .ok (some (artefacts, last))) :
    (listTasks (history.at_ statement) [.active] pageSize offset = [] ∧ artefacts = [] ∧
      last = statement ∧ boundaries history (fuel + 1) offset statement = []) ∨
    ∃ rows own later,
      (listTasks (history.at_ statement) [.active] pageSize offset).length = rows ∧
      artefacts = own ++ later ∧
      service.artefactsOf history (listTasks (history.at_ statement) [.active] pageSize offset)
        (statement + 1) = .ok (own, statement + 1 + rows) ∧
      service.collect history fuel (offset + rows) (statement + 1 + rows) =
        .ok (some (later, last)) ∧
      boundaries history (fuel + 1) offset statement =
        ⟨history.at_ statement, history.at_ (statement + 1 + rows), offset + rows⟩ ::
          boundaries history fuel (offset + rows) (statement + 1 + rows) := by
  unfold DeploymentService.collect at collected
  cases page : listTasks (history.at_ statement) [.active] pageSize offset with
  | nil =>
      rw [page] at collected
      cases collected
      exact Or.inl ⟨rfl, rfl, rfl, by simp only [boundaries, page, List.length_nil]⟩
  | cons task rest =>
      rw [page] at collected
      obtain ⟨⟨own, next⟩, built, collected⟩ := except_bind_eq_ok.mp collected
      obtain ⟨found, further, collected⟩ := except_bind_eq_ok.mp collected
      have onward := artefactsOf_statements _ _ _ _ built fun other member =>
        other.runnable (mem_page_active (page ▸ member)).2
      subst onward
      cases found with
      | none => cases collected
      | some reached =>
          cases collected
          exact Or.inr ⟨(task :: rest).length, own, reached.1, rfl, rfl, built, further, by
            simp only [boundaries, page, List.length_cons]⟩

theorem collect_empty {fuel offset statement : Nat}
    (page : listTasks (history.at_ statement) [.active] pageSize offset = []) :
    service.collect history (fuel + 1) offset statement = .ok (some ([], statement)) := by
  rw [DeploymentService.collect, page]

theorem collect_page {fuel offset statement next last : Nat} {rows : List Task}
    {own later : List DesiredArtefact}
    (page : listTasks (history.at_ statement) [.active] pageSize offset = rows) (some_ : rows ≠ [])
    (built : service.artefactsOf history rows (statement + 1) = .ok (own, next))
    (further : service.collect history fuel (offset + rows.length) next = .ok (some (later, last))) :
    service.collect history (fuel + 1) offset statement = .ok (some (own ++ later, last)) := by
  cases rows with
  | nil => exact absurd rfl some_
  | cons task rest =>
      rw [DeploymentService.collect, page]
      dsimp only
      rw [built]
      change (service.collect history fuel (offset + (task :: rest).length) next >>= _) = _
      rw [further]
      rfl

theorem collect_onward (fuel : Nat) :
    ∀ (offset statement last : Nat) (artefacts : List DesiredArtefact),
      service.collect history fuel offset statement = .ok (some (artefacts, last)) →
        statement ≤ last := by
  induction fuel with
  | zero =>
      intro offset statement last artefacts collected
      cases collected
  | succ fuel ih =>
      intro offset statement last artefacts collected
      obtain ⟨_, _, same, _⟩ | ⟨rows, own, later, _, _, _, further, _⟩ := collect_succ collected
      · omega
      · have rest := ih _ _ _ _ further
        omega

/-- By induction on the pages: a task that stays deployable is contributed by the page it is on,
and between pages only the boundary moves over it. -/
theorem collect_count (fuel : Nat) :
    ∀ (offset statement last : Nat) (artefacts : List DesiredArtefact),
      service.collect history fuel offset statement = .ok (some (artefacts, last)) →
      (∀ n, statement ≤ n → n ≤ last → Deployable (history.at_ n) taskId) →
      artefacts.countP (fun artefact => artefact.taskId = taskId) +
          (boundaries history fuel offset statement).countP (·.Skips taskId) +
            (if place (history.at_ statement) taskId < offset then 1 else 0) =
        1 + (boundaries history fuel offset statement).countP (·.Repeats taskId) := by
  induction fuel with
  | zero =>
      intro offset statement last artefacts collected
      cases collected
  | succ fuel ih =>
      intro offset statement last artefacts collected steady
      have here := steady statement le_rfl (collect_onward _ _ _ _ _ collected)
      have counted := page_count here offset
      obtain ⟨empty, rfl, rfl, none_⟩ | ⟨rows, own, later, size, rfl, built, further, joined⟩ :=
        collect_succ collected
      · -- no row is left: every active task has its place among those read so far
        have length := page_length (history.at_ last) offset
        have inside := here.place_within
        rw [empty, List.length_nil] at length
        unfold pageSize at length
        have passed : place (history.at_ last) taskId < offset := by omega
        simp [none_, passed]
      · have mine : own.countP (fun artefact => artefact.taskId = taskId) = _ :=
          artefactsOf_count _ _ _ _ built
            (fun task member => task.runnable (mem_page_active member).2)
            fun task member named revisionId active later after =>
              here.revision (mem_page_active member).1 named revisionId active later (by omega)
        rw [counted, size] at mine
        have theirs := ih _ _ _ _ further fun n low => steady n (by omega)
        have balance := boundary_balance
          ⟨history.at_ statement, history.at_ (statement + 1 + rows), offset + rows⟩ taskId
        rw [joined, List.countP_append, List.countP_cons, List.countP_cons, mine]
        simp only [decide_eq_true_eq]
        dsimp only at balance
        have split : (if offset ≤ place (history.at_ statement) taskId ∧
              place (history.at_ statement) taskId < offset + rows then 1 else 0) +
              (if place (history.at_ statement) taskId < offset then 1 else 0) =
            if place (history.at_ statement) taskId < offset + rows then 1 else 0 := by
          split_ifs <;> omega
        omega

/-- Where the number of active tasks stays bounded, the pages come to an end. -/
theorem collect_ends {bound : Nat}
    (bounded : ∀ n, (selected (history.at_ n) [.active]).length ≤ bound) (fuel : Nat) :
    ∀ offset statement, bound - offset < fuel →
      service.collect history fuel offset statement ≠ .ok none := by
  induction fuel with
  | zero =>
      intro offset statement enough
      omega
  | succ fuel ih =>
      intro offset statement enough ended
      unfold DeploymentService.collect at ended
      cases page : listTasks (history.at_ statement) [.active] pageSize offset with
      | nil =>
          rw [page] at ended
          cases ended
      | cons task rest =>
          rw [page] at ended
          obtain ⟨⟨own, next⟩, _, ended⟩ := except_bind_eq_ok.mp ended
          obtain ⟨found, further, ended⟩ := except_bind_eq_ok.mp ended
          cases found with
          | some reached => cases ended
          | none =>
              have length := page_length (history.at_ statement) offset
              have most := bounded statement
              rw [page, List.length_cons] at length
              refine ih _ _ ?_ further
              rw [List.length_cons]
              omega

theorem desiredArtefacts_ends {bound : Nat}
    (bounded : ∀ n, (selected (history.at_ n) [.active]).length ≤ bound) :
    service.desiredArtefacts history (bound + 1) ≠ .ok none :=
  collect_ends bounded (bound + 1) 0 0 (by omega)

end Collecting

/-! ## The plan that is built from it -/

/-- Every drop-in file with a region carries the name that the first one has as its slug. -/
def FilesNamed (layout : CronLayout) (host : Host) : Prop :=
  ∀ d ∈ layout.configuredDirectories, ∀ name region rest,
    findManagedRegions (host.readFile d name) = .ok (region :: rest) → region.slug = name

/-- A plan removes nothing under the slug of a desired artefact. -/
theorem plan_spares {layout : CronLayout} {host : Host} {desired : List DesiredArtefact}
    {deployment : DeploymentPlan} (named : FilesNamed layout host)
    (planned : plan layout host desired = .ok deployment) {artefact : DesiredArtefact}
    (member : artefact ∈ desired) :
    ∀ entry ∈ deployment, entry.change = .remove → entry.slug ≠ artefact.slug := by
  intro entry inPlan removes same
  obtain ⟨entries, collected, rest⟩ := except_bind_eq_ok.mp planned
  obtain ⟨removals, retired, returned⟩ := except_bind_eq_ok.mp rest
  rw [← Except.ok.inj returned] at inPlan
  rcases List.mem_append.mp inPlan with inEntries | inRemovals
  · obtain ⟨other, _, one⟩ := (mem_of_mapM collected entry).mp inEntries
    exact (planOne_ok one).writes removes
  · have listed := ((planRemovals_ok retired).named entry.slug).mp (List.mem_map_of_mem inRemovals)
    have wanted : artefact.slug ∈ desired.map DesiredArtefact.slug := List.mem_map_of_mem member
    rw [same] at listed
    rcases listed with ⟨_, _, _, _, absent, _⟩ | ⟨d, configured, name, absent, region, rest, found, slug⟩
    · exact absent wanted
    · rw [named d configured name region rest found] at slug
      exact absent (slug ▸ wanted)

/-- The task is collected once, and no plan for a host removes what is deployed under its slug. -/
def StaysDeployed (artefacts : List DesiredArtefact) (taskId : TaskId) : Prop :=
  artefacts.countP (fun artefact => artefact.taskId = taskId) = 1 ∧
    ∀ artefact ∈ artefacts, artefact.taskId = taskId →
      ∀ layout host deployment, FilesNamed layout host → plan layout host artefacts = .ok deployment →
        ∀ entry ∈ deployment, entry.change = .remove → entry.slug ≠ artefact.slug

namespace Estate

theorem number_bounded (n : Fin 201) : (n : Nat) < uuidBound := by
  have most : 201 ≤ uuidBound := by decide
  omega

theorem hourly : (splitWords "0 * * * *".toList).length = 5 ∧
    "0 * * * *".toList = List.intercalate [' '] (splitWords "0 * * * *".toList) := by decide +kernel

theorem scheduled : some (⟨"0 * * * *".toList, hourly⟩ : CronExpression) ≠ none →
    DeploymentSpecification.default.strategy.carriesItsOwnSchedule = true := fun _ => rfl

def revision : TaskRevision :=
  { TaskControl.Runtime.Backup.revision with
    deployment := .default
    activationSchedule := some ⟨"0 * * * *".toList, hourly⟩
    scheduleRead := scheduled }

def job (n : Nat) : Text :=
  "job-".toList ++ [hexDigit (n / 100 % 10), hexDigit (n / 10 % 10), hexDigit (n % 10)]

theorem job_bounded (n : Nat) : (job n).length ≤ slugMaxLength := by
  have length : (job n).length = 7 := rfl
  rw [length]
  decide

theorem isSlugChar_hexDigit : ∀ n < 10, isSlugChar (hexDigit n) = true := by decide

theorem job_shaped (n : Nat) : slugShaped false (job n) = true := by
  have digit (k : Nat) : isSlugChar (hexDigit (k % 10)) = true :=
    isSlugChar_hexDigit (k % 10) (Nat.mod_lt k (by omega))
  change slugShaped false [hexDigit (n / 100 % 10), hexDigit (n / 10 % 10), hexDigit (n % 10)] = true
  simp only [slugShaped, digit, if_true]

/-- The tasks of an estate: active, and all of one revision. -/
def task (n : Fin 201) : Task :=
  { TaskControl.Runtime.Backup.task with
    taskId := ⟨n, number_bounded n⟩
    slug := ⟨job n, job_bounded n, job_shaped n⟩ }

theorem unready : TaskLifecycleState.retired = .active → (task 0).activeRevisionId ≠ none :=
  fun _ => Option.some_ne_none _

/-- The first task, once an operator has retired it. -/
def retiredTask : Task := { task 0 with lifecycleState := .retired, runnable := unready }

def later : List (Fin 201) := (List.finRange 200).map Fin.succ

theorem everyNumber : List.finRange 201 = 0 :: later := List.finRange_succ

theorem task_keyed (n m : Fin 201) (same : (task n).taskId = (task m).taskId) : n = m :=
  Fin.ext (congrArg EntityId.value same)

theorem keyed (standing : Task) (first : standing.taskId = (task 0).taskId) :
    ((standing :: later.map task).map Task.taskId).Nodup := by
  have whole : (standing :: later.map task).map Task.taskId =
      (List.finRange 201).map fun n => (task n).taskId := by
    rw [everyNumber, List.map_cons, List.map_cons, List.map_map, first]
    rfl
  rw [whole]
  exact (List.nodup_finRange 201).map fun n m same => task_keyed n m same

theorem task_keys : ((task 0 :: later.map task).map Task.taskId).Nodup := keyed (task 0) rfl

theorem retired_keys : ((retiredTask :: later.map task).map Task.taskId).Nodup :=
  keyed retiredTask rfl

def before : CommittedState := ⟨task 0 :: later.map task, fun _ => some revision, task_keys⟩

def after : CommittedState := ⟨retiredTask :: later.map task, fun _ => some revision, retired_keys⟩

/-- What is committed, when the first task is retired between the first page and the second. -/
def committed (n : Nat) : CommittedState := if n < 201 then before else after

theorem committed_revisions (n : Nat) : (committed n).revisions = fun _ => some revision := by
  unfold committed
  split <;> rfl

theorem kept (earlier later : Nat) (revisionId : TaskRevisionId) (_ : earlier ≤ later)
    (_ : (committed earlier).revisions revisionId ≠ none) :
    (committed later).revisions revisionId ≠ none := by
  rw [committed_revisions]
  exact Option.some_ne_none _

def retiring : History := ⟨committed, kept⟩

def commands : DeploymentService := ⟨fun task => "run ".toList ++ task.slug.value⟩

/-! ## The order of its tasks -/

def stem : Text := "task_00000000-0000-0000-0000-0000000000".toList

theorem task_text (n : Fin 201) :
    (task n).taskId.text = stem ++ [hexDigit (n / 16), hexDigit (n % 16)] := by
  have small : (n : Nat) / 16 / 16 = 0 := by omega
  have digits : hexDigits 32 n = hexDigits 30 0 ++ [hexDigit (n / 16 % 16)] ++ [hexDigit (n % 16)] := by
    rw [← small]
    rfl
  have high : (n : Nat) / 16 % 16 = n / 16 := Nat.mod_eq_of_lt (by omega)
  change "task".toList ++ '_' :: uuidText n = _
  unfold uuidText
  rw [digits, high]
  rfl

theorem hexDigit_lt : ∀ m < 16, ∀ n < m, hexDigit n < hexDigit m := by decide

theorem task_ordered {n m : Fin 201} (lower : n < m) :
    (task n).taskId.text ≤ (task m).taskId.text := by
  have below : (n : Nat) < m := lower
  have ends : [hexDigit (n / 16), hexDigit (n % 16)] < [hexDigit (m / 16), hexDigit (m % 16)] := by
    rw [List.cons_lt_cons_iff]
    rcases Nat.lt_or_ge ((n : Nat) / 16) (m / 16) with high | same
    · exact Or.inl (hexDigit_lt (m / 16) (by omega) (n / 16) high)
    · have high : (n : Nat) / 16 = m / 16 := by omega
      rw [high, List.cons_lt_cons_iff]
      exact Or.inr ⟨rfl, Or.inl (hexDigit_lt (m % 16) (by omega) (n % 16) (by omega))⟩
  rw [task_text, task_text]
  exact le_of_lt (List.append_left_lt ends)

theorem ordered (numbers : List (Fin 201)) (increasing : numbers.Pairwise (· < ·)) :
    orderedById (numbers.map task) = numbers.map task := by
  apply List.Pairwise.insertionSort_eq
  rw [List.pairwise_map]
  exact increasing.imp task_ordered

theorem later_increasing : (0 :: later).Pairwise (· < ·) := by
  rw [← everyNumber]
  exact List.pairwise_lt_finRange 201

theorem active_tasks (numbers : List (Fin 201)) :
    (numbers.map task).filter (fun task => task.lifecycleState ∈ [TaskLifecycleState.active]) =
      numbers.map task := by
  rw [List.filter_eq_self]
  intro task member
  obtain ⟨n, _, rfl⟩ := List.mem_map.mp member
  rfl

theorem selected_before : selected before [.active] = (0 :: later).map task := by
  unfold selected
  rw [if_neg (List.cons_ne_nil _ _)]
  change orderedById ((((0 :: later).map task)).filter _) = _
  rw [active_tasks, ordered (0 :: later) later_increasing]

theorem selected_after : selected after [.active] = later.map task := by
  unfold selected
  rw [if_neg (List.cons_ne_nil _ _)]
  change orderedById ((retiredTask :: later.map task).filter _) = _
  rw [List.filter_cons_of_neg (by decide), active_tasks,
    ordered later (List.Pairwise.of_cons later_increasing)]

/-! ## Its collection -/

/-- The tasks of the first page. -/
def firstPage : List (Fin 201) := (0 :: later).take 200

theorem page_first : listTasks before [.active] pageSize 0 = firstPage.map task := by
  unfold listTasks firstPage
  rw [selected_before, List.drop_zero, List.map_take]
  rfl

theorem page_second : listTasks after [.active] pageSize 200 = [] := by
  unfold listTasks
  rw [selected_after, List.drop_eq_nil_of_le, List.take_nil]
  rw [List.length_map, later, List.length_map, List.length_finRange]

theorem retiring_revisions (n : Nat) (revisionId : TaskRevisionId) :
    (retiring.at_ n).revisions revisionId = some revision :=
  congrFun (committed_revisions n) revisionId

theorem artefactFor_task (n : Fin 201) (statement : Nat) :
    ∃ artefact, commands.artefactFor retiring (task n) statement =
      .ok (some artefact, statement + 1) := by
  have active : (task n).activeRevisionId = some TaskControl.Runtime.Backup.revisionId := rfl
  unfold DeploymentService.artefactFor
  rw [active]
  dsimp only
  rw [retiring_revisions]
  exact ⟨_, rfl⟩

theorem artefactsOf_page (numbers : List (Fin 201)) :
    ∀ statement, ∃ artefacts, commands.artefactsOf retiring (numbers.map task) statement =
      .ok (artefacts, statement + numbers.length) := by
  induction numbers with
  | nil => exact fun statement => ⟨[], rfl⟩
  | cons n rest ih =>
      intro statement
      obtain ⟨artefact, first⟩ := artefactFor_task n statement
      obtain ⟨artefacts, others⟩ := ih (statement + 1)
      have total : statement + 1 + rest.length = statement + (n :: rest).length := by
        rw [List.length_cons]
        omega
      rw [total] at others
      refine ⟨artefact :: artefacts, ?_⟩
      rw [List.map_cons, DeploymentService.artefactsOf, first]
      change (commands.artefactsOf retiring (rest.map task) (statement + 1) >>= _) = _
      rw [others]
      rfl

theorem firstPage_length : firstPage.length = 200 := by
  rw [firstPage, ← everyNumber, List.length_take, List.length_finRange]
  rfl

theorem last_not_first : (200 : Fin 201) ∉ firstPage := by
  intro member
  rw [firstPage, ← everyNumber, List.mem_take_iff_getElem] at member
  obtain ⟨i, bound, same⟩ := member
  rw [List.getElem_finRange] at same
  have value := congrArg Fin.val same
  have low : i < 200 := by omega
  change i = 200 at value
  omega

theorem last_stored (n : Nat) : Deployable (committed n) (task 200).taskId := by
  have listed : task 200 ∈ later.map task :=
    List.mem_map_of_mem (List.mem_map.mpr ⟨199, List.mem_finRange 199, rfl⟩)
  have stored : task 200 ∈ (committed n).tasks := by
    unfold committed
    split <;> exact List.mem_cons_of_mem _ listed
  refine ⟨task 200, stored, rfl, rfl, TaskControl.Runtime.Backup.revisionId, revision, rfl, ?_, rfl,
    rfl, Or.inl (Option.some_ne_none _)⟩
  rw [committed_revisions]

theorem alone : ([task 0].map Task.taskId).Nodup := List.nodup_singleton _

def steady : CommittedState := ⟨[task 0], fun _ => some revision, alone⟩

theorem steady_kept (earlier later : Nat) (revisionId : TaskRevisionId) (_ : earlier ≤ later)
    (held : steady.revisions revisionId ≠ none) : steady.revisions revisionId ≠ none := held

/-- One task, and no commits. -/
def calm : History := ⟨fun _ => steady, steady_kept⟩

def onlyArtefact : DesiredArtefact where
  taskId := (task 0).taskId
  slug := job 0
  deployment := .default
  command := "run job-000".toList
  contentDigest := TaskControl.Runtime.Backup.digest.value
  schedule := some "0 * * * *".toList
  description := "Backup".toList

theorem collected_calm : commands.desiredArtefacts calm 2 = .ok (some ([onlyArtefact], 2)) := rfl

theorem calm_deployable (n : Nat) (_ : n ≤ 2) : Deployable (calm.at_ n) (task 0).taskId :=
  ⟨task 0, List.mem_singleton_self _, rfl, rfl, TaskControl.Runtime.Backup.revisionId, revision, rfl,
    rfl, rfl, rfl, Or.inl (Option.some_ne_none _)⟩

end Estate

end TaskControl.Deployment
