import TaskControl.Claims.Protocol

/-!
# Overlapping runs

Runs of any number of processes that take the overlap lock through
`DurableOverlapLock` before their attempts and release it afterwards.  The
processes share one claim store and one clock.  The lease is taken once for the
whole run and is not renewed, so what it protects is exactly the attempts that
are over before it ends.
-/

set_option autoImplicit false

namespace TaskControl.Claims

open PythonText Transition

theorem lease_bounded : 3600 ≤ maxDurationSeconds := by decide

/-- `DEFAULT_LEASE`, which `build_runtime` leaves in place. -/
def defaultLease : Duration := ⟨3600, lease_bounded⟩

/-- The default `owner_identity` of `RuntimeService`. -/
def runtimeIdentity : Text := "taskcontrol-runtime".toList

/-- The owner that `RuntimeService._acquire_lock` presents. -/
def lockOwner (execution : ExecutionId) : Text := runtimeIdentity ++ ':' :: execution.text

inductive LockCall where
  | acquire
  | release
  deriving DecidableEq

inductive RunPhase where
  | idle
  | acquiring
  | holding (claim : Claim)
  | attempting (claim : Claim)
  | over

/-- The claim under which a run makes its attempts. -/
def RunPhase.claim : RunPhase → Option Claim
  | .holding claim => some claim
  | .attempting claim => some claim
  | _ => none

structure Runs where
  store : ClaimStore (ExecutionId × LockCall)
  clock : UtcTimestamp
  phase : ExecutionId → RunPhase

def Runs.enter (runs : Runs) (run : ExecutionId) (phase : RunPhase) : Runs :=
  { runs with phase := Function.update runs.phase run phase }

inductive RunEvent where
  | tick (now : UtcTimestamp)
  | start (run : ExecutionId)
  | database (call : ExecutionId × LockCall)
  | granted (run : ExecutionId)
  | turnedAway (run : ExecutionId)
  | beginAttempt (run : ExecutionId)
  | endAttempt (run : ExecutionId)
  | leave (run : ExecutionId)
  | crash (run : ExecutionId)

section

variable (task : ExecutionId → TaskId)

/-- The steps of `_execute` and `_run_attempts` that the lock is about. -/
inductive RunStep (runs : Runs) : RunEvent → Runs → Prop where
  | tick (now : UtcTimestamp) (later : runs.clock ≤ now) :
      RunStep runs (.tick now) { runs with clock := now }
  | start (run : ExecutionId) (idle : runs.phase run = .idle)
      (fresh : runs.store.calls (run, .acquire) = none) :
      RunStep runs (.start run)
        { runs.enter run .acquiring with
          store := runs.store.setCall (run, .acquire)
            ⟨.tryAcquire (.forTask (task run)) (lockOwner run) defaultLease, .asked⟩ }
  /-- A step of a call that is under way; a clock reading is the time. -/
  | database (call : ExecutionId × LockCall) (store : ClaimStore (ExecutionId × LockCall))
      (called : runs.store.calls call ≠ none) (steps : Step runs.store call store)
      (timed : ∀ request now, store.calls call = some ⟨request, .timed now⟩ → now = runs.clock) :
      RunStep runs (.database call) { runs with store }
  | granted (run : ExecutionId) (request : Request) (claim : Claim) (seen : Option ClaimRecord)
      (acquiring : runs.phase run = .acquiring)
      (answered : runs.store.calls (run, .acquire) =
        some ⟨request, .ended (.granted claim seen)⟩) :
      RunStep runs (.granted run) (runs.enter run (.holding claim))
  /-- The lock was refused or the acquisition raised: the run makes no attempt. -/
  | turnedAway (run : ExecutionId) (acquiring : runs.phase run = .acquiring) :
      RunStep runs (.turnedAway run) (runs.enter run .over)
  | beginAttempt (run : ExecutionId) (claim : Claim) (holding : runs.phase run = .holding claim) :
      RunStep runs (.beginAttempt run) (runs.enter run (.attempting claim))
  | endAttempt (run : ExecutionId) (claim : Claim)
      (attempting : runs.phase run = .attempting claim) :
      RunStep runs (.endAttempt run) (runs.enter run (.holding claim))
  /-- No further attempt: `finally` releases the handle. -/
  | leave (run : ExecutionId) (claim : Claim) (holding : runs.phase run = .holding claim)
      (fresh : runs.store.calls (run, .release) = none) :
      RunStep runs (.leave run)
        { runs.enter run .over with
          store := runs.store.setCall (run, .release) ⟨.release claim, .asked⟩ }
  /-- The process dies and releases nothing. -/
  | crash (run : ExecutionId) : RunStep runs (.crash run) (runs.enter run .over)

/-- Nothing is running; the claims table may hold rows. -/
def Quiet (runs : Runs) : Prop := Fresh runs.store ∧ ∀ run, runs.phase run = .idle

/-- Attempts begin and end before the lease of their run does. -/
def InLease (runs : Runs) : RunEvent → Prop
  | .tick now => ∀ run claim, runs.phase run = .attempting claim → now < claim.expiresAt
  | .beginAttempt run => ∀ claim, runs.phase run = .holding claim → runs.clock < claim.expiresAt
  | _ => True

def RunMoves (runs runs' : Runs) : Prop := ∃ event, RunStep task runs event runs'

def RunMovesInLease (runs runs' : Runs) : Prop :=
  ∃ event, InLease runs event ∧ RunStep task runs event runs'

variable {task} in
theorem moves_of_inLease {runs runs' : Runs}
    (moved : Relation.ReflTransGen (RunMovesInLease task) runs runs') :
    Relation.ReflTransGen (RunMoves task) runs runs' := by
  induction moved with
  | refl => exact .refl
  | tail _ last ih =>
      obtain ⟨event, _, steps⟩ := last
      exact ih.tail ⟨event, steps⟩

/-- No two executions of one task have an attempt in flight. -/
def NoOverlap (runs : Runs) : Prop :=
  ∀ first second firstClaim secondClaim,
    runs.phase first = .attempting firstClaim → runs.phase second = .attempting secondClaim →
    task first = task second → first = second

end

/-! ## What the runs keep of the store -/

section

variable {task : ExecutionId → TaskId}

/-- The acquisition of the run was granted this claim. -/
def Granted (store : ClaimStore (ExecutionId × LockCall)) (run : ExecutionId) (claim : Claim) :
    Prop :=
  ∃ request seen, store.calls (run, .acquire) = some ⟨request, .ended (.granted claim seen)⟩

/-- The row carries the claim, or the claim has expired and a later grant replaced it. -/
def Standing (store : ClaimStore (ExecutionId × LockCall)) (clock : UtcTimestamp) (claim : Claim) :
    Prop :=
  store.rows claim.subject = some claim.record ∨
    claim.fencingToken.value < version (store.rows claim.subject) ∧ claim.expiresAt ≤ clock

/-- The clock readings of a call, and of the grant it is about to commit, are in the past. -/
def Phase.Timely (clock : UtcTimestamp) : Phase → Prop
  | .timed now => now ≤ clock
  | .looked now _ => now ≤ clock
  | .committing _ (.granted claim _) => claim.acquiredAt ≤ clock
  | _ => True

structure Orderly (task : ExecutionId → TaskId) (runs : Runs) : Prop where
  sound : Sound runs.store
  acquires : ∀ run call, runs.store.calls (run, .acquire) = some call →
    call.request = .tryAcquire (.forTask (task run)) (lockOwner run) defaultLease
  releases : ∀ run call, runs.store.calls (run, .release) = some call →
    ∃ claim, call.request = .release claim ∧ Granted runs.store run claim
  held : ∀ run claim, (runs.phase run).claim = some claim → Granted runs.store run claim
  unreleased : ∀ run, runs.phase run ≠ .over → runs.store.calls (run, .release) = none
  timely : ∀ id call, runs.store.calls id = some call → call.phase.Timely runs.clock
  standing : ∀ run claim, Granted runs.store run claim →
    runs.store.calls (run, .release) = none → Standing runs.store runs.clock claim

theorem Phase.Timely.later {phase : Phase} {clock now : UtcTimestamp} (timely : phase.Timely clock)
    (later : clock ≤ now) : phase.Timely now := by
  cases phase with
  | asked => trivial
  | timed moment => exact Int.le_trans timely later
  | looked moment seen => exact Int.le_trans timely later
  | committing write answer =>
      cases answer with
      | granted claim seen => exact Int.le_trans timely later
      | refused => trivial
      | renewed claim => trivial
      | released => trivial
      | raised error => trivial
  | ended answer => trivial

theorem granted_subject {runs : Runs} (orderly : Orderly task runs) {run : ExecutionId}
    {claim : Claim} (granted : Granted runs.store run claim) :
    claim.subject = .forTask (task run) := by
  obtain ⟨request, seen, answered⟩ := granted
  have asked : request = _ := orderly.acquires _ _ answered
  rw [(orderly.sound.answered _ _ _ _ answered).2.1, asked]
  rfl

/-- Two runs of one task whose claims carry one token are one run. -/
theorem granted_injective {runs : Runs} (orderly : Orderly task runs) {first second : ExecutionId}
    {firstClaim secondClaim : Claim} (firstGranted : Granted runs.store first firstClaim)
    (secondGranted : Granted runs.store second secondClaim)
    (subjects : firstClaim.subject = secondClaim.subject)
    (tokens : firstClaim.fencingToken = secondClaim.fencingToken) : first = second := by
  obtain ⟨firstRequest, firstSeen, firstAnswered⟩ := firstGranted
  obtain ⟨secondRequest, secondSeen, secondAnswered⟩ := secondGranted
  obtain ⟨_, firstSubject, firstToken⟩ := orderly.sound.answered _ _ _ _ firstAnswered
  obtain ⟨_, secondSubject, secondToken⟩ := orderly.sound.answered _ _ _ _ secondAnswered
  have racing : version firstSeen = version secondSeen := by
    rw [tokens] at firstToken
    omega
  have same := orderly.sound.oneWinner _ _ _ _ _ _ _ _ firstAnswered secondAnswered
    (by rw [← firstSubject, ← secondSubject, subjects]) racing
  exact congrArg Prod.fst same

/-- A grant stays one when a call that has not ended moves. -/
theorem Granted.setCall {store : ClaimStore (ExecutionId × LockCall)} {run : ExecutionId}
    {claim : Claim} (granted : Granted store run claim) {id : ExecutionId × LockCall} {call : Call}
    (running : ∀ old, store.calls id = some old → old.phase.running = true) :
    Granted (store.setCall id call) run claim := by
  obtain ⟨request, seen, answered⟩ := granted
  refine ⟨request, seen, ?_⟩
  rw [setCall_calls]
  split
  · next same =>
      have ended := running _ (same ▸ answered)
      cases ended
  · exact answered

theorem granted_of_setCall {store : ClaimStore (ExecutionId × LockCall)} {run : ExecutionId}
    {claim : Claim} {id : ExecutionId × LockCall} {call : Call}
    (granted : Granted (store.setCall id call) run claim) :
    Granted store run claim ∨
      id = (run, .acquire) ∧ ∃ seen, call.phase = .ended (.granted claim seen) := by
  obtain ⟨request, seen, answered⟩ := granted
  rw [setCall_calls] at answered
  split at answered
  · next same =>
      have here := Option.some.inj answered
      exact .inr ⟨same.symm, seen, congrArg Call.phase here⟩
  · exact .inl ⟨request, seen, answered⟩

theorem release_of_setCall {store : ClaimStore (ExecutionId × LockCall)}
    {id other : ExecutionId × LockCall} {call : Call}
    (uncalled : (store.setCall id call).calls other = none) :
    store.calls other = none ∧ other ≠ id := by
  rw [setCall_calls] at uncalled
  split at uncalled
  · cases uncalled
  · next apart => exact ⟨uncalled, apart⟩

/-- A call moves without a commit. -/
theorem Orderly.setCall {runs : Runs} (orderly : Orderly task runs)
    (id : ExecutionId × LockCall) (call : Call) (phase : ExecutionId → RunPhase)
    (sound : Sound (runs.store.setCall id call))
    (running : ∀ old, runs.store.calls id = some old → old.phase.running = true)
    (ungranted : ∀ claim seen, call.phase ≠ .ended (.granted claim seen))
    (acquires : ∀ run, id = (run, .acquire) →
      call.request = .tryAcquire (.forTask (task run)) (lockOwner run) defaultLease)
    (releases : ∀ run, id = (run, .release) →
      ∃ claim, call.request = .release claim ∧ Granted runs.store run claim)
    (timely : call.phase.Timely runs.clock)
    (held : ∀ run claim, (phase run).claim = some claim → (runs.phase run).claim = some claim)
    (unreleased : ∀ run, phase run ≠ .over → runs.phase run ≠ .over ∧ (run, .release) ≠ id) :
    Orderly task { store := runs.store.setCall id call, clock := runs.clock, phase } := by
  refine ⟨sound, ?_, ?_, ?_, ?_, ?_, ?_⟩
  · intro run other here
    rw [setCall_calls] at here
    split at here
    · next same =>
        cases Option.some.inj here
        exact acquires run same.symm
    · exact orderly.acquires run other here
  · intro run other here
    rw [setCall_calls] at here
    split at here
    · next same =>
        cases Option.some.inj here
        obtain ⟨claim, asked, granted⟩ := releases run same.symm
        exact ⟨claim, asked, granted.setCall running⟩
    · obtain ⟨claim, asked, granted⟩ := orderly.releases run other here
      exact ⟨claim, asked, granted.setCall running⟩
  · intro run claim holds
    exact (orderly.held run claim (held run claim holds)).setCall running
  · intro run staying
    obtain ⟨before, apart⟩ := unreleased run staying
    rw [setCall_calls, if_neg apart]
    exact orderly.unreleased run before
  · intro other otherCall here
    rw [setCall_calls] at here
    split at here
    · cases Option.some.inj here
      exact timely
    · exact orderly.timely other otherCall here
  · intro run claim granted uncalled
    rcases granted_of_setCall granted with before | ⟨_, seen, ended⟩
    · exact orderly.standing run claim before (release_of_setCall uncalled).1
    · exact absurd ended (ungranted claim seen)

/-- A commit replaces the row of an expired claim, or moves the expiry under a claim whose
run has left. -/
theorem Orderly.commit {runs : Runs} (orderly : Orderly task runs) {id : ExecutionId × LockCall}
    {request : Request} {write : Option ClaimRecord} {answer final : Answer}
    (here : runs.store.calls id = some ⟨request, .committing write answer⟩)
    (ending : final = answer ∨ final.claim = none) :
    Orderly task { runs with
      store := (runs.store.commit id request.subject write answer).setCall id
        ⟨request, .ended final⟩ } := by
  have justified := orderly.sound.pending id request write answer here
  have running : ∀ old, (runs.store.commit id request.subject write answer).calls id = some old →
      old.phase.running = true := by
    intro old found
    rw [commit_calls, here] at found
    cases found
    rfl
  have granted_before : ∀ run claim, Granted runs.store run claim →
      Granted (runs.store.commit id request.subject write answer) run claim := fun _ _ granted => granted
  refine ⟨orderly.sound.commit here ending, ?_, ?_, ?_, ?_, ?_, ?_⟩
  · intro run call found
    rw [setCall_calls] at found
    split at found
    · next same =>
        cases Option.some.inj found
        exact orderly.acquires run ⟨request, .committing write answer⟩ (same ▸ here)
    · exact orderly.acquires run call found
  · intro run call found
    rw [setCall_calls] at found
    split at found
    · next same =>
        cases Option.some.inj found
        obtain ⟨claim, asked, granted⟩ :=
          orderly.releases run ⟨request, .committing write answer⟩ (same ▸ here)
        exact ⟨claim, asked, (granted_before run claim granted).setCall running⟩
    · obtain ⟨claim, asked, granted⟩ := orderly.releases run call found
      exact ⟨claim, asked, (granted_before run claim granted).setCall running⟩
  · intro run claim holds
    exact (granted_before run claim (orderly.held run claim holds)).setCall running
  · intro run staying
    have uncalled := orderly.unreleased run staying
    rw [setCall_calls, commit_calls]
    split
    · next same =>
        rw [same, here] at uncalled
        cases uncalled
    · exact uncalled
  · intro other call found
    rw [setCall_calls] at found
    split at found
    · cases Option.some.inj found
      trivial
    · exact orderly.timely other call found
  · intro run claim granted uncalled
    rw [Standing, setCall_rows, commit_rows]
    obtain ⟨unreleased, apart⟩ := release_of_setCall uncalled
    rcases granted_of_setCall granted with before | ⟨isHere, seen, ended⟩
    · have stands := orderly.standing run claim before unreleased
      split
      · next same =>
          rw [Standing, same] at stands
          cases justified with
          | nothing _ plain => exact stands
          | grant written other seen succeeds =>
              right
              have past := orderly.timely id _ here
              have record := succeeds.record
              rcases stands with carries | ⟨older, expired⟩
              · refine ⟨?_, Int.le_trans (succeeds.expired _ carries) (record ▸ past)⟩
                rw [Option.some_or, version_some, succeeds.next, carries]
                exact Nat.lt_succ_self _
              · refine ⟨?_, expired⟩
                rw [Option.some_or, version_some, succeeds.next]
                omega
          | extend written other _ plain extends_ =>
              obtain ⟨old, found, owner, token, moved⟩ := extends_.standing
              rw [found] at stands
              rcases stands with carries | ⟨older, expired⟩
              · -- The release would be the run's own, which has not been called.
                cases Option.some.inj carries
                obtain ⟨holder, kind⟩ := id
                cases kind with
                | acquire =>
                    have asked : request = _ := orderly.acquires holder _ here
                    have none_ := extends_.held
                    rw [asked] at none_
                    cases none_
                | release =>
                    obtain ⟨released, asked, holderGranted⟩ := orderly.releases holder _ here
                    have asked : request = .release released := asked
                    have is := extends_.held
                    rw [asked] at is
                    cases is
                    have subjects : claim.subject = other.subject := by
                      rw [same, asked]
                      rfl
                    have sameRun := granted_injective orderly before holderGranted subjects token
                    exact absurd (by rw [sameRun]) apart
              · right
                refine ⟨?_, expired⟩
                rw [Option.some_or, moved]
                exact older
      · exact stands
    · left
      rcases ending with same | plain
      · have ended : final = .granted claim seen := Phase.ended.inj ended
        have grants : answer.claim = some claim := by
          rw [← same, ended]
          rfl
        obtain ⟨onSubject, record, _, _⟩ := justified.granted grants
        rw [if_pos onSubject, record, Option.some_or]
      · have ended : final = .granted claim seen := Phase.ended.inj ended
        rw [ended] at plain
        cases plain

/-- A grant about to be committed was acquired at the clock reading of its call. -/
theorem execute_timely {row : Option ClaimRecord} {call : Call} {phase : Phase}
    {clock : UtcTimestamp} (ran : call.execute row = some phase)
    (timely : call.phase.Timely clock) : phase.Timely clock := by
  rcases execute_justified ran with ⟨error, rfl⟩ | ⟨write, answer, rfl, justified⟩
  · trivial
  · cases justified with
    | nothing _ plain => cases answer <;> trivial
    | extend written claim _ plain extends_ => cases answer <;> trivial
    | grant written claim seen succeeds =>
        obtain ⟨request, at_⟩ := call
        cases request with
        | tryAcquire subject owner lease =>
            cases at_ with
            | looked now looked =>
                simp only [Call.execute, Option.some.injEq] at ran
                rcases acquireStatement_cases row subject owner now (now.add lease) looked with
                  refused | ⟨error, raised⟩ | ⟨other, granted, answered, wrote, _, record⟩
                · rw [refused] at ran
                  cases ran
                · rw [raised] at ran
                  cases ran
                · rw [answered] at ran
                  cases ran
                  obtain ⟨_, acquired, _⟩ := insertOrTakeOver_some wrote
                  have reading : claim.acquiredAt = now := by
                    rw [← acquired, ← record]
                    rfl
                  rw [Phase.Timely, reading]
                  exact timely
            | asked => cases ran
            | timed now => cases ran
            | committing write answer => cases ran
            | ended answer => cases ran
        | renew held lease => cases succeeds.asked
        | release held => cases succeeds.asked

/-- A call that has not ended moves, and the runs stay where they are. -/
theorem Orderly.move {runs : Runs} (orderly : Orderly task runs) {id : ExecutionId × LockCall}
    {old : Call} {phase : Phase} (here : runs.store.calls id = some old)
    (running : old.phase.running = true) (sound : Sound (runs.store.setCall id ⟨old.request, phase⟩))
    (ungranted : ∀ claim seen, phase ≠ .ended (.granted claim seen))
    (timely : phase.Timely runs.clock) :
    Orderly task { runs with store := runs.store.setCall id ⟨old.request, phase⟩ } := by
  refine orderly.setCall id _ runs.phase sound ?_ ungranted ?_ ?_ timely (fun _ _ holds => holds) ?_
  · intro other found
    rw [here] at found
    cases found
    exact running
  · intro run same
    exact orderly.acquires run old (same ▸ here)
  · intro run same
    exact orderly.releases run old (same ▸ here)
  · intro run staying
    refine ⟨staying, fun same => ?_⟩
    have uncalled := orderly.unreleased run staying
    rw [same, here] at uncalled
    cases uncalled

theorem Orderly.database {runs : Runs} (orderly : Orderly task runs)
    {id : ExecutionId × LockCall} {store : ClaimStore (ExecutionId × LockCall)}
    (called : runs.store.calls id ≠ none) (steps : Step runs.store id store)
    (timed : ∀ request now, store.calls id = some ⟨request, .timed now⟩ → now = runs.clock) :
    Orderly task { runs with store } := by
  have sound := orderly.sound.step steps
  cases steps with
  | call request fresh => exact absurd fresh called
  | readClock request now here =>
      refine orderly.move here rfl sound (fun _ _ same => by cases same) ?_
      have reading := timed request now (by rw [setCall_calls, if_pos rfl])
      exact Int.le_of_eq (congrArg UtcTimestamp.value reading)
  | look subject owner lease now here =>
      exact orderly.move here rfl sound (fun _ _ same => by cases same) (orderly.timely id _ here)
  | execute call phase here ran unlocked =>
      have running := execute_running ran
      refine orderly.move here running sound ?_ (execute_timely ran (orderly.timely id _ here))
      intro claim seen same
      subst same
      rcases execute_justified ran with ⟨error, raised⟩ | ⟨write, answer, committing, _⟩
      · cases raised
      · cases committing
  | commit request write answer here => exact orderly.commit here (.inl rfl)
  | commitUnconfirmed request write answer error here => exact orderly.commit here (.inr rfl)
  | fail call error here running =>
      exact orderly.move here running sound (fun _ _ same => by cases same) trivial

/-- A run moves without the store. -/
theorem Orderly.enter {runs : Runs} (orderly : Orderly task runs) {run : ExecutionId}
    {phase : RunPhase} (held : ∀ claim, phase.claim = some claim → Granted runs.store run claim)
    (unreleased : phase ≠ .over → runs.phase run ≠ .over) :
    Orderly task (runs.enter run phase) := by
  refine ⟨orderly.sound, orderly.acquires, orderly.releases, ?_, ?_, orderly.timely,
    orderly.standing⟩
  · intro other claim holds
    simp only [Runs.enter, Function.update_apply] at holds
    split at holds
    · next same =>
        rw [same]
        exact held claim holds
    · exact orderly.held other claim holds
  · intro other staying
    simp only [Runs.enter, Function.update_apply] at staying
    split at staying
    · next same =>
        rw [same]
        exact orderly.unreleased run (unreleased staying)
    · exact orderly.unreleased other staying

theorem orderly_quiet {runs : Runs} (quiet : Quiet runs) : Orderly task runs := by
  obtain ⟨fresh, idle⟩ := quiet
  refine ⟨sound_fresh fresh, ?_, ?_, ?_, fun run _ => fresh.1 _, ?_, ?_⟩
  · intro run call here
    rw [fresh.1] at here
    cases here
  · intro run call here
    rw [fresh.1] at here
    cases here
  · intro run claim holds
    rw [idle] at holds
    cases holds
  · intro id call here
    rw [fresh.1] at here
    cases here
  · rintro run claim ⟨request, seen, answered⟩
    rw [fresh.1] at answered
    cases answered

theorem Orderly.start {runs : Runs} (orderly : Orderly task runs) {run : ExecutionId}
    (idle : runs.phase run = .idle) (fresh : runs.store.calls (run, .acquire) = none) :
    Orderly task { runs.enter run .acquiring with
      store := runs.store.setCall (run, .acquire)
        ⟨.tryAcquire (.forTask (task run)) (lockOwner run) defaultLease, .asked⟩ } := by
  refine orderly.setCall (run, .acquire) _ _ (orderly.sound.step (.call _ fresh)) ?_
    (fun _ _ same => by cases same) ?_ (fun _ same => by cases same) trivial ?_ ?_
  · intro old found
    rw [fresh] at found
    cases found
  · intro other same
    cases same
    rfl
  · intro other claim holds
    simp only [Runs.enter, Function.update_apply] at holds
    split at holds
    · cases holds
    · exact holds
  · intro other staying
    refine ⟨?_, fun same => by cases same⟩
    simp only [Runs.enter, Function.update_apply] at staying
    split at staying
    · next same =>
        rw [same, idle]
        exact RunPhase.noConfusion
    · exact staying

theorem Orderly.leave {runs : Runs} (orderly : Orderly task runs) {run : ExecutionId}
    {claim : Claim} (granted : Granted runs.store run claim)
    (fresh : runs.store.calls (run, .release) = none) :
    Orderly task { runs.enter run .over with
      store := runs.store.setCall (run, .release) ⟨.release claim, .asked⟩ } := by
  refine orderly.setCall (run, .release) _ _ (orderly.sound.step (.call _ fresh)) ?_
    (fun _ _ same => by cases same) (fun _ same => by cases same) ?_ trivial ?_ ?_
  · intro old found
    rw [fresh] at found
    cases found
  · intro other same
    cases same
    exact ⟨claim, rfl, granted⟩
  · intro other otherClaim holds
    simp only [Runs.enter, Function.update_apply] at holds
    split at holds
    · cases holds
    · exact holds
  · intro other staying
    simp only [Runs.enter, Function.update_apply] at staying
    split at staying
    · exact absurd rfl staying
    · next apart => exact ⟨staying, fun same => apart (congrArg Prod.fst same)⟩

theorem Orderly.step {runs runs' : Runs} {event : RunEvent} (orderly : Orderly task runs)
    (steps : RunStep task runs event runs') : Orderly task runs' := by
  cases steps with
  | tick now later =>
      refine ⟨orderly.sound, orderly.acquires, orderly.releases, orderly.held,
        orderly.unreleased, ?_, ?_⟩
      · intro id call here
        exact (orderly.timely id call here).later later
      · intro run claim granted uncalled
        rcases orderly.standing run claim granted uncalled with carries | ⟨older, expired⟩
        · exact .inl carries
        · exact .inr ⟨older, Int.le_trans expired later⟩
  | start run idle fresh => exact orderly.start idle fresh
  | database call store called moves timed => exact orderly.database called moves timed
  | granted run request claim seen acquiring answered =>
      refine orderly.enter (fun other holds => ?_) fun _ => by rw [acquiring]; exact nofun
      cases holds
      exact ⟨request, seen, answered⟩
  | turnedAway run acquiring => exact orderly.enter (fun _ holds => by cases holds) (absurd rfl)
  | beginAttempt run claim holding =>
      refine orderly.enter (fun other holds => ?_) fun _ => by rw [holding]; exact nofun
      cases holds
      exact orderly.held run claim (by rw [holding]; rfl)
  | endAttempt run claim attempting =>
      refine orderly.enter (fun other holds => ?_) fun _ => by rw [attempting]; exact nofun
      cases holds
      exact orderly.held run claim (by rw [attempting]; rfl)
  | leave run claim holding fresh =>
      exact orderly.leave (orderly.held run claim (by rw [holding]; rfl)) fresh
  | crash run => exact orderly.enter (fun _ holds => by cases holds) (absurd rfl)

theorem orderly_of_reachable {runs : Runs} (reached : Reachable Quiet (RunMoves task) runs) :
    Orderly task runs :=
  reached.invariant (Orderly task) (fun _ quiet => orderly_quiet quiet) fun _ _ orderly moved => by
    obtain ⟨event, steps⟩ := moved
    exact orderly.step steps

/-! ## Attempts within their lease -/

/-- Every attempt in flight is within the lease of its run. -/
def Prompt (runs : Runs) : Prop :=
  ∀ run claim, runs.phase run = .attempting claim → runs.clock < claim.expiresAt

/-- A run that enters a phase without an attempt leaves the others as they were. -/
theorem Prompt.enter {runs : Runs} (prompt : Prompt runs) (run : ExecutionId) {phase : RunPhase}
    (inLease : ∀ claim, phase = .attempting claim → runs.clock < claim.expiresAt) :
    Prompt (runs.enter run phase) := by
  intro other claim attempting
  simp only [Runs.enter, Function.update_apply] at attempting
  split at attempting
  · exact inLease claim attempting
  · exact prompt other claim attempting

theorem Prompt.step {runs runs' : Runs} {event : RunEvent} (prompt : Prompt runs)
    (inLease : InLease runs event) (steps : RunStep task runs event runs') : Prompt runs' := by
  cases steps with
  | tick now later => exact inLease
  | start run idle fresh => exact prompt.enter run nofun
  | database call store called moves timed => exact prompt
  | granted run request claim seen acquiring answered => exact prompt.enter run nofun
  | turnedAway run acquiring => exact prompt.enter run nofun
  | beginAttempt run claim holding =>
      refine prompt.enter run fun other same => ?_
      cases same
      exact inLease claim holding
  | endAttempt run claim attempting => exact prompt.enter run nofun
  | leave run claim holding fresh => exact prompt.enter run nofun
  | crash run => exact prompt.enter run nofun

/-- Within its lease a claim still carries the row, which carries one token. -/
theorem Orderly.noOverlap {runs : Runs} (orderly : Orderly task runs) (prompt : Prompt runs) :
    NoOverlap task runs := by
  intro first second firstClaim secondClaim firstAttempts secondAttempts sameTask
  have carried : ∀ run claim, runs.phase run = .attempting claim →
      Granted runs.store run claim ∧ runs.store.rows claim.subject = some claim.record := by
    intro run claim attempting
    have granted := orderly.held run claim (by rw [attempting]; rfl)
    refine ⟨granted, ?_⟩
    rcases orderly.standing run claim granted
      (orderly.unreleased run (by rw [attempting]; exact nofun)) with carries | ⟨_, expired⟩
    · exact carries
    · exact absurd (prompt run claim attempting) (Int.not_lt.mpr expired)
  obtain ⟨firstGranted, firstRow⟩ := carried first firstClaim firstAttempts
  obtain ⟨secondGranted, secondRow⟩ := carried second secondClaim secondAttempts
  have subjects : firstClaim.subject = secondClaim.subject := by
    rw [granted_subject orderly firstGranted, granted_subject orderly secondGranted, sameTask]
  rw [subjects, secondRow] at firstRow
  have tokens := congrArg ClaimRecord.fencingToken (Option.some.inj firstRow)
  exact granted_injective orderly firstGranted secondGranted subjects tokens.symm

theorem no_overlap_in_lease {runs : Runs}
    (reached : Reachable Quiet (RunMovesInLease task) runs) : NoOverlap task runs := by
  have both : Orderly task runs ∧ Prompt runs := by
    refine reached.invariant (fun runs => Orderly task runs ∧ Prompt runs) ?_ ?_
    · intro start quiet
      refine ⟨orderly_quiet quiet, fun run claim attempting => ?_⟩
      rw [quiet.2] at attempting
      cases attempting
    · rintro before after ⟨orderly, prompt⟩ ⟨event, inLease, steps⟩
      exact ⟨orderly.step steps, prompt.step inLease steps⟩
  exact both.1.noOverlap both.2

/-! ## An attempt that outlasts its lease -/

theorem runtimeIdentity_token : LinePattern.Token runtimeIdentity := by decide +kernel

theorem runtimeIdentity_length : runtimeIdentity.length = 19 := by decide +kernel

theorem lockOwner_valid (execution : ExecutionId) :
    strip (lockOwner execution) ≠ [] ∧ (lockOwner execution).length ≤ maxOwnerLength := by
  have whole : lockOwner execution = (runtimeIdentity ++ [':']) ++ execution.text := by
    rw [lockOwner, List.append_assoc, List.singleton_append]
  refine ⟨?_, ?_⟩
  · rw [strip, lockOwner, LinePattern.lstrip_token runtimeIdentity_token, ← lockOwner, whole,
      LinePattern.rstrip_append_token execution.text_token, List.append_assoc]
    exact List.append_ne_nil_of_left_ne_nil runtimeIdentity_token.1 _
  · rw [lockOwner, List.length_append, List.length_cons, EntityId.text_length,
      runtimeIdentity_length]
    decide

theorem Claim.make_eq_ok (subject : ClaimSubject) (token : FencingToken) {owner : Text}
    {acquiredAt expiresAt : UtcTimestamp} (owned : strip owner ≠ []) (bounded : owner.length ≤ maxOwnerLength)
    (expires : acquiredAt < expiresAt) :
    ∃ claim, Claim.make subject owner acquiredAt expiresAt token = .ok claim := by
  unfold Claim.make
  rw [dif_neg owned, dif_pos bounded, dif_pos expires]
  exact ⟨_, rfl⟩

/-- A subject without a row, or whose row has expired, is granted to the next call. -/
theorem acquireStatement_free {row : Option ClaimRecord} (subject : ClaimSubject) {owner : Text}
    {now expiresAt : UtcTimestamp} (free : ∀ old, row = some old → old.expiresAt ≤ now)
    (owned : strip owner ≠ []) (bounded : owner.length ≤ maxOwnerLength)
    (expires : now < expiresAt) :
    ∃ claim, acquireStatement row subject owner now expiresAt row =
        .committing (some claim.record) (.granted claim row) ∧
      claim.subject = subject ∧ claim.expiresAt = expiresAt := by
  have writes : ∃ written, insertOrTakeOver row row owner now expiresAt = some written := by
    cases row with
    | none => exact ⟨_, rfl⟩
    | some record =>
        refine ⟨_, if_pos ⟨free record rfl, rfl⟩⟩
  obtain ⟨written, wrote⟩ := writes
  rcases acquireStatement_cases row subject owner now expiresAt row with
    refused | ⟨error, raised⟩ | ⟨other, claim, granted, wrote', onSubject, record⟩
  · obtain ⟨claim, made⟩ := Claim.make_eq_ok subject written.fencingToken owned bounded expires
    rw [acquireStatement, wrote] at refused
    simp only [made] at refused
    cases refused
  · obtain ⟨claim, made⟩ := Claim.make_eq_ok subject written.fencingToken owned bounded expires
    rw [acquireStatement, wrote] at raised
    simp only [made] at raised
    cases raised
  · subst record
    refine ⟨claim, granted, onSubject, ?_⟩
    obtain ⟨_, _, expiry, _⟩ := insertOrTakeOver_some wrote'
    exact expiry

/-- No call has an uncommitted write. -/
def Settled (store : ClaimStore (ExecutionId × LockCall)) : Prop :=
  ∀ id call, store.calls id = some call → call.phase.write = none

/-- A run that finds its subject free acquires it and begins an attempt. -/
theorem acquires_and_begins {runs : Runs} {run : ExecutionId} (idle : runs.phase run = .idle)
    (fresh : runs.store.calls (run, .acquire) = none) (settled : Settled runs.store)
    (free : ∀ old, runs.store.rows (.forTask (task run)) = some old → old.expiresAt ≤ runs.clock) :
    ∃ runs' claim, Relation.ReflTransGen (RunMovesInLease task) runs runs' ∧
      runs'.phase = Function.update runs.phase run (.attempting claim) ∧
      runs'.clock = runs.clock ∧ Settled runs'.store ∧
      (∀ id, id ≠ (run, .acquire) → runs'.store.calls id = runs.store.calls id) ∧
      runs'.store.rows (.forTask (task run)) = some claim.record ∧
      claim.expiresAt = runs.clock.add defaultLease := by
  let id : ExecutionId × LockCall := (run, .acquire)
  let subject := ClaimSubject.forTask (task run)
  let request := Request.tryAcquire subject (lockOwner run) defaultLease
  let row := runs.store.rows subject
  have expires : runs.clock < runs.clock.add defaultLease := by
    rw [UtcTimestamp.lt_def, UtcTimestamp.add]
    simp only [defaultLease]
    omega
  obtain ⟨owned, bounded⟩ := lockOwner_valid run
  obtain ⟨claim, ran, onSubject, expiry⟩ :=
    acquireStatement_free subject free owned bounded expires
  let asked := runs.store.setCall id ⟨request, .asked⟩
  let timed := asked.setCall id ⟨request, .timed runs.clock⟩
  let looked := timed.setCall id ⟨request, .looked runs.clock row⟩
  let written := looked.setCall id ⟨request, .committing (some claim.record) (.granted claim row)⟩
  let granted := (written.commit id subject (some claim.record) (.granted claim row)).setCall id
    ⟨request, .ended (.granted claim row)⟩
  have others : ∀ other, other ≠ id → granted.calls other = runs.store.calls other := by
    intro other apart
    simp only [granted, written, looked, timed, asked, setCall_calls, commit_calls, if_neg apart]
  have called : ∀ call : Call, (some call : Option Call) ≠ none := fun _ => Option.some_ne_none _
  let acquiring := runs.enter run .acquiring
  have run_ : Relation.ReflTransGen (RunMovesInLease task) runs { acquiring with store := granted } := by
    have first : RunMovesInLease task runs { acquiring with store := asked } :=
      ⟨.start run, trivial, .start run idle fresh⟩
    have second : RunMovesInLease task { acquiring with store := asked }
        { acquiring with store := timed } := by
      refine ⟨.database id, trivial, .database id timed ?_ (.readClock request runs.clock (setCall_self _ _ _)) ?_⟩
      · exact (setCall_self runs.store id _).symm ▸ called _
      · intro other now here
        rw [setCall_self] at here
        cases here
        rfl
    have third : RunMovesInLease task { acquiring with store := timed }
        { acquiring with store := looked } := by
      refine ⟨.database id, trivial, .database id looked ?_ (.look subject _ _ runs.clock (setCall_self _ _ _)) ?_⟩
      · exact (setCall_self asked id _).symm ▸ called _
      · intro other now here
        rw [setCall_self] at here
        cases here
    have fourth : RunMovesInLease task { acquiring with store := looked }
        { acquiring with store := written } := by
      refine ⟨.database id, trivial, .database id written ?_
        (.execute _ _ (setCall_self _ _ _) (congrArg some ran) (.inr ?_)) ?_⟩
      · exact (setCall_self timed id _).symm ▸ called _
      · intro other call apart here same
        simp only [timed, asked, setCall_calls, if_neg apart] at here
        exact settled other call here
      · intro other now here
        rw [setCall_self] at here
        cases here
    have fifth : RunMovesInLease task { acquiring with store := written }
        { acquiring with store := granted } := by
      refine ⟨.database id, trivial, .database id granted ?_ (.commit request _ _ (setCall_self _ _ _)) ?_⟩
      · exact (setCall_self looked id _).symm ▸ called _
      · intro other now here
        rw [setCall_self] at here
        cases here
    exact ((((Relation.ReflTransGen.single first).tail second).tail third).tail fourth).tail fifth
  refine ⟨{ store := granted, clock := runs.clock,
            phase := Function.update runs.phase run (.attempting claim) }, claim, ?_, rfl, rfl, ?_,
    others, ?_, expiry⟩
  · have holds : RunMovesInLease task { acquiring with store := granted }
        { store := granted, clock := runs.clock,
          phase := Function.update runs.phase run (.holding claim) } := by
      have steps := @RunStep.granted task { acquiring with store := granted } run request claim row
        (Function.update_self _ _ _) (setCall_self _ _ _)
      simp only [Runs.enter, acquiring, Function.update_idem] at steps
      exact ⟨.granted run, trivial, steps⟩
    have begins : RunMovesInLease task
        { store := granted, clock := runs.clock,
          phase := Function.update runs.phase run (.holding claim) }
        { store := granted, clock := runs.clock,
          phase := Function.update runs.phase run (.attempting claim) } := by
      have steps := @RunStep.beginAttempt task
        { store := granted, clock := runs.clock,
          phase := Function.update runs.phase run (.holding claim) }
        run claim (Function.update_self _ _ _)
      simp only [Runs.enter, Function.update_idem] at steps
      refine ⟨.beginAttempt run, fun other same => ?_, steps⟩
      have holding := (Function.update_self run (RunPhase.holding claim) runs.phase).symm.trans same
      cases holding
      rw [expiry]
      exact expires
    exact (run_.tail holds).tail begins
  · intro other call here
    by_cases same : other = id
    · rw [same, setCall_self] at here
      cases here
      rfl
    · rw [others other same] at here
      exact settled other call here
  · rw [setCall_rows, commit_rows, if_pos rfl, Option.some_or]

/-- Once the lease of an attempt in flight has ended, the next run of the task begins an attempt
beside it. -/
theorem lapsed_attempt_can_overlap {runs : Runs} {first second : ExecutionId} {claim : Claim}
    (attempting : runs.phase first = .attempting claim) (lapsed : claim.expiresAt ≤ runs.clock)
    (carries : runs.store.rows (.forTask (task first)) = some claim.record)
    (settled : Settled runs.store) (sameTask : task first = task second)
    (idle : runs.phase second = .idle) (fresh : runs.store.calls (second, .acquire) = none) :
    ∃ runs', Relation.ReflTransGen (RunMoves task) runs runs' ∧ ¬ NoOverlap task runs' := by
  have free : ∀ old, runs.store.rows (.forTask (task second)) = some old →
      old.expiresAt ≤ runs.clock := by
    intro old found
    rw [← sameTask, carries] at found
    cases found
    exact lapsed
  obtain ⟨runs', later, steps, phases, _⟩ := acquires_and_begins idle fresh settled free
  refine ⟨runs', moves_of_inLease steps, fun exclusive => ?_⟩
  have apart : first ≠ second := by
    intro same
    rw [same, idle] at attempting
    cases attempting
  refine apart (exclusive first second claim later ?_ ?_ sameTask)
  · rw [phases, Function.update_of_ne apart, attempting]
  · rw [phases, Function.update_self]

end

/-! ## An hour later -/

theorem nightlyTask_bounded : 7 < uuidBound := by decide

theorem firstRun_bounded : 1 < uuidBound := by decide

theorem secondRun_bounded : 2 < uuidBound := by decide

def nightlyTask : TaskId := ⟨7, nightlyTask_bounded⟩

def firstRun : ExecutionId := ⟨1, firstRun_bounded⟩

def secondRun : ExecutionId := ⟨2, secondRun_bounded⟩

def quietRuns : Runs where
  store := ⟨fun _ => none, fun _ => none, []⟩
  clock := ⟨0⟩
  phase := fun _ => .idle

theorem quietRuns_quiet : Quiet quietRuns := ⟨⟨fun _ => rfl, rfl⟩, fun _ => rfl⟩

/-- The first run of the night, in flight at midnight. -/
theorem midnight : ∃ runs claim,
    Relation.ReflTransGen (RunMovesInLease fun _ => nightlyTask) quietRuns runs ∧
      runs.phase = Function.update quietRuns.phase firstRun (.attempting claim) ∧
      runs.clock = quietRuns.clock ∧ Settled runs.store ∧
      (∀ id, id ≠ (firstRun, .acquire) → runs.store.calls id = quietRuns.store.calls id) ∧
      runs.store.rows (.forTask nightlyTask) = some claim.record ∧
      claim.expiresAt = quietRuns.clock.add defaultLease :=
  acquires_and_begins rfl rfl (fun _ _ here => by cases here) fun _ found => by cases found

theorem no_overlap_in_lease_midnight :
    ∃ runs claim, runs.phase firstRun = .attempting claim ∧
      NoOverlap (fun _ => nightlyTask) runs := by
  obtain ⟨runs, claim, began, phases, _⟩ := midnight
  refine ⟨runs, claim, by rw [phases, Function.update_self], ?_⟩
  exact no_overlap_in_lease ⟨quietRuns, quietRuns_quiet, began⟩

/-- The first run's attempt is still in flight after an hour when cron starts the second. -/
theorem hour_long_attempt_overlaps :
    ∃ runs, Reachable Quiet (RunMoves fun _ => nightlyTask) runs ∧
      ¬ NoOverlap (fun _ => nightlyTask) runs := by
  obtain ⟨before, claim, began, phases, clock, settled, calls, row, expiry⟩ := midnight
  let oneAm : Runs := { before with clock := claim.expiresAt }
  have passed : RunMoves (fun _ => nightlyTask) before oneAm := by
    refine ⟨_, .tick claim.expiresAt ?_⟩
    rw [clock, expiry]
    decide
  have attempting : oneAm.phase firstRun = .attempting claim := by
    rw [show oneAm.phase = before.phase from rfl, phases, Function.update_self]
  have idle : oneAm.phase secondRun = .idle := by
    rw [show oneAm.phase = before.phase from rfl, phases, Function.update_of_ne (by decide)]
    rfl
  have fresh : oneAm.store.calls (secondRun, .acquire) = none := calls _ (by decide)
  obtain ⟨runs, overlaps, overlap⟩ :=
    @lapsed_attempt_can_overlap (fun _ => nightlyTask) oneAm firstRun secondRun claim attempting
      (Int.le_refl _) row settled rfl idle fresh
  exact ⟨runs, ⟨quietRuns, quietRuns_quiet, ((moves_of_inLease began).tail passed).trans overlaps⟩, overlap⟩

end TaskControl.Claims
