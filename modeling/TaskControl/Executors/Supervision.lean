import TaskControl.Domain.Results

/-!
# Supervised processes

How the subprocess executor waits for a process and stops it: `_wait` polls until the
process has ended, the run timeout has passed or a cancellation is asked for, and
`_terminate` sends SIGTERM, waits out the grace period and sends SIGKILL.  Times are
microseconds of the monotonic clock; signals are delivered and a wait wakes without delay.
-/

set_option autoImplicit false

namespace TaskControl.Supervision

/-- When a process ends, if it does, without a signal, after SIGTERM, and after a SIGKILL that
follows.  A signal changes nothing before it is sent, and the kernel ends a process that is sent
SIGKILL. -/
structure Child where
  unsignalled : Option Nat
  terminated : Nat → Option Nat
  killed : Nat → Nat → Nat
  staysEnded : ∀ e term, e ≤ term → unsignalled = some e → terminated term = some e
  termOnward : ∀ e term, e < term → terminated term = some e → unsignalled = some e
  staysTerminated : ∀ e term kill, e ≤ kill → terminated term = some e → killed term kill = e
  killOnward : ∀ term kill, killed term kill < kill → terminated term = some (killed term kill)

/-- `CANCELLATION_POLL_SECONDS`. -/
def cancellationPoll : Nat := 50000

/-- When the process was started and when it is polled. -/
structure Clock where
  started : Nat
  poll : Nat → Nat
  begins : started ≤ poll 0
  paced : ∀ n, poll n + cancellationPoll ≤ poll (n + 1)

inductive Signal where
  | term
  | kill
  deriving DecidableEq, Repr

/-- `_Termination`. -/
structure Termination where
  cause : TerminationCause
  signal : Signal
  deriving DecidableEq, Repr

/-- The signals that were sent with their times, and when and with what the wait returned, unless
it goes on for ever. -/
structure Supervised where
  signals : List (Signal × Nat)
  returned : Option (Nat × Option Termination)
  deriving DecidableEq

/-! ## The program -/

inductive Waited where
  | ended (time : Nat)
  | expired (time : Nat)
  | forever

/-- `Popen.wait`. -/
def processWait (ending : Option Nat) (now : Nat) (timeout : Option Nat) : Waited :=
  match timeout, ending with
  | none, none => .forever
  | none, some e => .ended (max now e)
  | some limit, none => .expired (now + limit)
  | some limit, some e => if e ≤ now + limit then .ended (max now e) else .expired (now + limit)

/-- `value or None` of a number of seconds. -/
def orNone (seconds : Nat) : Option Nat := if seconds = 0 then none else some (1000000 * seconds)

/-- `_terminate`. -/
def terminate (child : Child) (cause : TerminationCause) (grace : Duration) (now : Nat) :
    Supervised :=
  match processWait (child.terminated now) now (orNone (max grace.seconds 0)) with
  | .ended e => ⟨[(.term, now)], some (e, some ⟨cause, .term⟩)⟩
  | .forever => ⟨[(.term, now)], none⟩
  | .expired late =>
      match processWait (some (child.killed now late)) late (some 10000000) with
      | .ended e => ⟨[(.term, now), (.kill, late)], some (e, some ⟨cause, .kill⟩)⟩
      | .expired e => ⟨[(.term, now), (.kill, late)], some (e, some ⟨cause, .kill⟩)⟩
      | .forever => ⟨[(.term, now), (.kill, late)], none⟩

/-- `process.poll() is not None`. -/
def Child.endedBy (child : Child) (now : Nat) : Bool := child.unsignalled.any (· ≤ now)

/-- `timeout_seconds is not None and elapsed >= timeout_seconds`. -/
def overrun (policy : TimeoutPolicy) (clock : Clock) (n : Nat) : Bool :=
  (orNone policy.runTimeout.seconds).any fun limit => limit ≤ clock.poll n - clock.started

/-- The loop of `_wait` from the poll `n` on, for as many rounds as there is fuel. -/
def waitFrom (policy : TimeoutPolicy) (child : Child) (clock : Clock) (shouldCancel : Nat → Bool) :
    Nat → Nat → Option Supervised
  | 0, _ => none
  | fuel + 1, n =>
      let now := clock.poll n
      if child.endedBy now then some ⟨[], some (now, none)⟩
      else if overrun policy clock n then
        some (terminate child .runTimeout policy.terminationGrace now)
      else if shouldCancel n then
        some (terminate child .cancellationRequested policy.terminationGrace now)
      else waitFrom policy child clock shouldCancel fuel (n + 1)

section

variable (policy : TimeoutPolicy) (child : Child) (clock : Clock) (shouldCancel : Nat → Bool)

/-! ## The run timeout -/

/-- Nothing is found at the poll that ends the loop. -/
def Quiet (n : Nat) : Prop :=
  child.endedBy (clock.poll n) = false ∧ overrun policy clock n = false ∧ shouldCancel n = false

/-- The poll is the first that finds the run timeout exceeded: the process is alive and no
cancellation was asked for before. -/
structure TimesOut (n : Nat) : Prop where
  alive : child.endedBy (clock.poll n) = false
  late : 1000000 * policy.runTimeout.seconds ≤ clock.poll n - clock.started
  before : ∀ m, m < n → Quiet policy child clock shouldCancel m

/-- The process sent SIGTERM is alive at the end of the span. -/
def Child.AliveAfter (term span : Nat) : Prop :=
  ∀ e, child.terminated term = some e → term + span < e

/-- SIGTERM is sent, SIGKILL no later than the grace period after it if the process is alive then,
and the wait returns. -/
structure Killed (term : Nat) (run : Supervised) : Prop where
  terminated : run.signals.head? = some (.term, term)
  killed : child.AliveAfter term (1000000 * policy.terminationGrace.seconds) →
    ∃ kill, (.kill, kill) ∈ run.signals ∧
      kill ≤ term + 1000000 * policy.terminationGrace.seconds
  returned : run.returned ≠ none

/-- The loop ends, and a process that has exceeded the run timeout is killed. -/
def KillsTimedOut : Prop :=
  ∃ fuel run, waitFrom policy child clock shouldCancel fuel 0 = some run ∧
    ∀ n, TimesOut policy child clock shouldCancel n → Killed policy child (clock.poll n) run

/-! ## The wait -/

variable {policy child clock shouldCancel}

/-- The loop passes the polls that find nothing. -/
theorem waitFrom_quiet {fuel k n : Nat} {run : Supervised} (reaches : k ≤ n)
    (quiet : ∀ m, m < n → Quiet policy child clock shouldCancel m)
    (returns : waitFrom policy child clock shouldCancel fuel k = some run) :
    ∃ more, waitFrom policy child clock shouldCancel (more + 1) n = some run := by
  induction fuel generalizing k with
  | zero => cases returns
  | succ fuel ih =>
      by_cases there : k = n
      · exact ⟨fuel, there ▸ returns⟩
      · obtain ⟨alive, early, wanted⟩ := quiet k (by omega)
        refine ih (k := k + 1) (by omega) ?_
        simpa [waitFrom, alive, early, wanted] using returns

theorem overrun_eq_true (positive : 0 < policy.runTimeout.seconds) {n : Nat} :
    overrun policy clock n = true ↔
      1000000 * policy.runTimeout.seconds ≤ clock.poll n - clock.started := by
  rw [overrun, orNone, if_neg (by omega)]
  simp

/-- A process that exceeds the run timeout is terminated at the poll that finds it. -/
theorem waitFrom_timesOut (positive : 0 < policy.runTimeout.seconds) {fuel n : Nat}
    {run : Supervised} (timesOut : TimesOut policy child clock shouldCancel n)
    (returns : waitFrom policy child clock shouldCancel fuel 0 = some run) :
    run = terminate child .runTimeout policy.terminationGrace (clock.poll n) := by
  obtain ⟨more, there⟩ := waitFrom_quiet (Nat.zero_le n) timesOut.before returns
  have late := (@overrun_eq_true policy clock positive n).mpr timesOut.late
  simpa [waitFrom, timesOut.alive, late] using there.symm

theorem Clock.elapsed (clock : Clock) (n : Nat) :
    clock.started + n * cancellationPoll ≤ clock.poll n := by
  induction n with
  | zero =>
      have begins := clock.begins
      omega
  | succ n ih =>
      have paced := clock.paced n
      rw [Nat.succ_mul]
      omega

/-- From some poll on the run timeout has passed. -/
theorem waitFrom_returns (positive : 0 < policy.runTimeout.seconds) (rounds k : Nat)
    (enough : 20 * policy.runTimeout.seconds ≤ k + rounds) :
    ∃ run, waitFrom policy child clock shouldCancel (rounds + 1) k = some run := by
  induction rounds generalizing k with
  | zero =>
      have passed := clock.elapsed k
      have late : overrun policy clock k = true := by
        rw [overrun_eq_true positive]
        unfold cancellationPoll at passed
        omega
      rw [waitFrom]
      split_ifs
      · exact ⟨_, rfl⟩
      · exact ⟨_, rfl⟩
  | succ rounds ih =>
      obtain ⟨run, later⟩ := ih (k + 1) (by omega)
      rw [waitFrom]
      split_ifs
      · exact ⟨_, rfl⟩
      · exact ⟨_, rfl⟩
      · exact ⟨_, rfl⟩
      · exact ⟨run, later⟩

/-! ## The escalation -/

/-- A process that ends within the grace period gets no second signal, and one that does not is sent
SIGKILL when it is over. -/
theorem terminate_graced (cause : TerminationCause) {grace : Duration} (positive : 0 < grace.seconds)
    (now : Nat) :
    (∃ e, e ≤ now + 1000000 * grace.seconds ∧ child.terminated now = some e ∧
      terminate child cause grace now =
        ⟨[(.term, now)], some (max now e, some ⟨cause, .term⟩)⟩) ∨
    ∃ e, terminate child cause grace now =
      ⟨[(.term, now), (.kill, now + 1000000 * grace.seconds)], some (e, some ⟨cause, .kill⟩)⟩ := by
  have limit : orNone (max grace.seconds 0) = some (1000000 * grace.seconds) := by
    rw [Nat.max_zero, orNone, if_neg (by omega)]
  have escalates (late : Nat) : ∃ e, (match processWait (some (child.killed now late)) late
      (some 10000000) with
      | .ended e => ⟨[(.term, now), (.kill, late)], some (e, some ⟨cause, .kill⟩)⟩
      | .expired e => ⟨[(.term, now), (.kill, late)], some (e, some ⟨cause, .kill⟩)⟩
      | .forever => ⟨[(.term, now), (.kill, late)], none⟩ : Supervised) =
        ⟨[(.term, now), (.kill, late)], some (e, some ⟨cause, .kill⟩)⟩ := by
    rw [processWait]
    by_cases quick : child.killed now late ≤ late + 10000000
    · exact ⟨_, by rw [if_pos quick]⟩
    · exact ⟨_, by rw [if_neg quick]⟩
  unfold terminate
  rw [limit]
  cases ending : child.terminated now with
  | none => exact Or.inr (escalates _)
  | some e =>
      rw [processWait]
      by_cases inTime : e ≤ now + 1000000 * grace.seconds
      · rw [if_pos inTime]
        exact Or.inl ⟨e, inTime, rfl, rfl⟩
      · rw [if_neg inTime]
        exact Or.inr (escalates _)

/-- Without a grace period the wait for the process has no limit. -/
theorem terminate_ungraced (cause : TerminationCause) {grace : Duration} (none_ : grace.seconds = 0)
    (now : Nat) :
    terminate child cause grace now =
      ⟨[(.term, now)], (child.terminated now).map fun e => (max now e, some ⟨cause, .term⟩)⟩ := by
  unfold terminate
  rw [none_]
  cases child.terminated now <;> rfl

theorem terminate_killed_iff (now : Nat) :
    Killed policy child now (terminate child .runTimeout policy.terminationGrace now) ↔
      0 < policy.terminationGrace.seconds ∨ ∃ e, e ≤ now ∧ child.terminated now = some e := by
  by_cases positive : 0 < policy.terminationGrace.seconds
  · simp only [positive, true_or, iff_true]
    rcases @terminate_graced child .runTimeout policy.terminationGrace positive now with
      ⟨e, inTime, ending, run⟩ | ⟨e, run⟩
    · rw [run]
      refine ⟨rfl, ?_, by simp⟩
      intro alive
      exact absurd inTime (Nat.not_le_of_lt (alive e ending))
    · rw [run]
      exact ⟨rfl, fun _ => ⟨_, List.mem_cons_of_mem _ List.mem_cons_self, Nat.le_refl _⟩, by simp⟩
  · have none_ : policy.terminationGrace.seconds = 0 := by omega
    rw [terminate_ungraced .runTimeout none_]
    simp only [positive, false_or]
    constructor
    · rintro ⟨_, killed, _⟩
      by_contra lives
      obtain ⟨kill, sent, _⟩ := killed fun e ending => by
        have apart : ¬ e ≤ now := fun early => lives ⟨e, early, ending⟩
        omega
      simp at sent
    · rintro ⟨e, early, ending⟩
      rw [ending]
      refine ⟨rfl, ?_, by simp⟩
      intro alive
      have late : now + 1000000 * policy.terminationGrace.seconds < e := alive e ending
      omega

end

/-- The executor kills what exceeds its run timeout exactly where there is a grace period, or the
process is gone the moment it gets SIGTERM. -/
theorem killsTimedOut_iff (policy : TimeoutPolicy) (positive : 0 < policy.runTimeout.seconds)
    (child : Child) (clock : Clock) (shouldCancel : Nat → Bool) :
    KillsTimedOut policy child clock shouldCancel ↔
      ∀ n, TimesOut policy child clock shouldCancel n →
        0 < policy.terminationGrace.seconds ∨
          ∃ e, e ≤ clock.poll n ∧ child.terminated (clock.poll n) = some e := by
  constructor
  · rintro ⟨fuel, run, returns, killed⟩ n timesOut
    have result := killed n timesOut
    rw [waitFrom_timesOut positive timesOut returns] at result
    exact (terminate_killed_iff _).mp result
  · intro stops
    obtain ⟨run, returns⟩ := @waitFrom_returns policy child clock shouldCancel positive
      (20 * policy.runTimeout.seconds) 0 (by omega)
    refine ⟨_, run, returns, fun n timesOut => ?_⟩
    rw [waitFrom_timesOut positive timesOut returns]
    exact (terminate_killed_iff _).mpr (stops n timesOut)

/-! ## A process that ignores SIGTERM -/

/-- A process that ends only when it is sent SIGKILL. -/
def stubborn : Child where
  unsignalled := none
  terminated := fun _ => none
  killed := fun _ kill => kill
  staysEnded := by simp
  termOnward := by simp
  staysTerminated := by simp
  killOnward := by simp

theorem steady_paced (n : Nat) : cancellationPoll * n + cancellationPoll ≤
    cancellationPoll * (n + 1) := by
  rw [Nat.mul_succ]

/-- Polls that are never late. -/
def steady : Clock where
  started := 0
  poll := fun n => cancellationPoll * n
  begins := Nat.zero_le _
  paced := steady_paced

theorem second_bounded : 1 ≤ maxDurationSeconds := by decide

theorem none_bounded : 0 ≤ maxDurationSeconds := Nat.zero_le _

theorem second_enforced (grace : Duration) : (Duration.mk 1 second_bounded).isZero = true →
    grace.isZero = true := by
  intro zero
  cases zero

/-- A run timeout of one second. -/
def oneSecond (grace : Duration) : TimeoutPolicy where
  runTimeout := ⟨1, second_bounded⟩
  terminationGrace := grace
  enforced := second_enforced grace

theorem killsTimedOut_stubborn :
    KillsTimedOut (oneSecond ⟨1, second_bounded⟩) stubborn steady fun _ => false :=
  (killsTimedOut_iff (oneSecond ⟨1, second_bounded⟩) Nat.one_pos stubborn steady fun _ => false).mpr
    fun _ _ => Or.inl Nat.one_pos

/-- Without a grace period it is never killed. -/
theorem stubborn_spared :
    ¬ KillsTimedOut (oneSecond ⟨0, none_bounded⟩) stubborn steady fun _ => false := by
  rintro ⟨fuel, run, returns, killed⟩
  have timesOut : TimesOut (oneSecond ⟨0, none_bounded⟩) stubborn steady (fun _ => false) 20 := by
    refine ⟨rfl, by decide, fun m early => ⟨rfl, ?_, rfl⟩⟩
    rw [Bool.eq_false_iff, Ne, overrun_eq_true Nat.one_pos]
    simp only [steady, oneSecond, cancellationPoll]
    omega
  have result := killed 20 timesOut
  rw [waitFrom_timesOut Nat.one_pos timesOut returns] at result
  exact result.returned rfl

end TaskControl.Supervision
