import TaskControl.Claims.Renewal

/-!
# Inspecting a claim

`current` rebuilds a claim from its row with the checks of the constructor, and
`is_held` asks it.  A release in the very instant of the acquisition, or a
renewal for no time in that instant, leaves a row that lapses when it was
acquired, and no claim can be rebuilt from it.
-/

set_option autoImplicit false

namespace TaskControl.Claims

open PythonText

/-! ## Calls one after the other -/

abbrev Rows := ClaimSubject → Option ClaimRecord

/-- The phase in which a call that nothing interrupts executes its statement. -/
def Request.readyPhase (request : Request) (row : Option ClaimRecord) (now : UtcTimestamp) : Phase :=
  match request with
  | .tryAcquire _ _ _ => .looked now row
  | .renew _ _ => .timed now
  | .release _ => .timed now

/-- The rows after a call that nothing interrupts. -/
def serve (rows : Rows) (request : Request) (now : UtcTimestamp) : Rows :=
  match Call.execute (rows request.subject)
      ⟨request, request.readyPhase (rows request.subject) now⟩ with
  | some (.committing (some record) _) => Function.update rows request.subject (some record)
  | _ => rows

/-- The rows after calls on an empty table, the latest one first. -/
def serveAll : List (Request × UtcTimestamp) → Rows
  | [] => fun _ => none
  | (request, now) :: earlier => serve (serveAll earlier) request now

/-- The clock did not go back; two calls may read the same instant. -/
def Timed (calls : List (Request × UtcTimestamp)) : Prop :=
  calls.Pairwise fun later earlier => earlier.2 ≤ later.2

/-! ## Uninterrupted calls as steps -/

section

variable {Id : Type} [DecidableEq Id]

/-- A call is ready for its statement after steps of its own that change no row. -/
theorem ready_reached {store : ClaimStore Id} {id : Id} (fresh : store.calls id = none)
    (request : Request) (now : UtcTimestamp) :
    ∃ ready, Relation.ReflTransGen Moves store ready ∧ ready.rows = store.rows ∧
      ready.calls id = some ⟨request, request.readyPhase (store.rows request.subject) now⟩ ∧
      ∀ other, other ≠ id → ready.calls other = store.calls other := by
  have asked : Moves store (store.setCall id ⟨request, .asked⟩) := ⟨id, .call request fresh⟩
  have timed : Moves (store.setCall id ⟨request, .asked⟩)
      ((store.setCall id ⟨request, .asked⟩).setCall id ⟨request, .timed now⟩) :=
    ⟨id, .readClock request now (setCall_self _ _ _)⟩
  have steps := (Relation.ReflTransGen.single asked).tail timed
  have elsewhere (other : Id) (apart : other ≠ id) :
      ((store.setCall id ⟨request, .asked⟩).setCall id ⟨request, .timed now⟩).calls other =
        store.calls other := by
    rw [setCall_calls, if_neg apart, setCall_calls, if_neg apart]
  cases request with
  | renew claim lease => exact ⟨_, steps, rfl, setCall_self _ _ _, elsewhere⟩
  | release claim => exact ⟨_, steps, rfl, setCall_self _ _ _, elsewhere⟩
  | tryAcquire subject owner lease =>
      refine ⟨_, steps.tail ⟨id, .look subject owner lease now (setCall_self _ _ _)⟩, rfl,
        setCall_self _ _ _, fun other apart => ?_⟩
      rw [setCall_calls, if_neg apart, elsewhere other apart]

/-- While no other call has written without committing, an uninterrupted call leads to the rows
that `serve` gives. -/
theorem serve_reached {store : ClaimStore Id} {id : Id} (fresh : store.calls id = none)
    (quiet : ∀ other call, store.calls other = some call → call.phase.write = none)
    (request : Request) (now : UtcTimestamp) :
    ∃ served, Relation.ReflTransGen Moves store served ∧
      served.rows = serve store.rows request now := by
  obtain ⟨ready, steps, rows, here, elsewhere⟩ := ready_reached fresh request now
  have unlocked : ready.Unlocked id request.subject := by
    intro other call apart standing _
    exact quiet other call ((elsewhere other apart).symm.trans standing)
  have executes (phase : Phase)
      (ran : Call.execute (store.rows request.subject)
        ⟨request, request.readyPhase (store.rows request.subject) now⟩ = some phase) :
      Moves ready (ready.setCall id ⟨request, phase⟩) :=
    ⟨id, .execute ⟨request, _⟩ phase here (rows ▸ ran) (Or.inr unlocked)⟩
  unfold serve
  cases ran : Call.execute (store.rows request.subject)
      ⟨request, request.readyPhase (store.rows request.subject) now⟩ with
  | none => exact ⟨ready, steps, rows⟩
  | some phase =>
      have executed := steps.tail (executes phase ran)
      cases phase with
      | committing write answer =>
          refine ⟨_, executed.tail ⟨id, .commit request write answer (setCall_self _ _ _)⟩, ?_⟩
          cases write with
          | none => exact rows
          | some record =>
              change Function.update ready.rows request.subject (some record) = _
              rw [rows]
      | asked => exact ⟨_, executed, rows⟩
      | timed now => exact ⟨_, executed, rows⟩
      | looked now seen => exact ⟨_, executed, rows⟩
      | ended answer => exact ⟨_, executed, rows⟩

end

/-! ## Inspection -/

/-- `_to_claim`. -/
def toClaim (subject : ClaimSubject) (record : ClaimRecord) : Except TaskControlError Claim :=
  Claim.make subject record.owner record.acquiredAt record.expiresAt record.fencingToken

instance (claim : Claim) (moment : UtcTimestamp) : Decidable (claim.hasExpiredAt moment) :=
  inferInstanceAs (Decidable (claim.expiresAt ≤ moment))

def current (rows : Rows) (subject : ClaimSubject) (now : UtcTimestamp) :
    Except TaskControlError (Option Claim) :=
  match rows subject with
  | none => .ok none
  | some record => do
      let claim ← toClaim subject record
      return if claim.hasExpiredAt now then none else some claim

/-- `is_held`. -/
def isHeld (rows : Rows) (taskId : TaskId) (now : UtcTimestamp) : Except TaskControlError Bool := do
  return (← current rows (.forTask taskId) now).isSome

/-- What an inspection should give: the claim that the row holds, while it lasts. -/
def live (rows : Rows) (subject : ClaimSubject) (now : UtcTimestamp) (found : Option Claim) : Prop :=
  ∀ claim, found = some claim ↔
    claim.subject = subject ∧ rows subject = some claim.record ∧ now < claim.expiresAt

/-- Every inspection returns the live claim or nothing, and every row is a claim's. -/
structure Inspectable (rows : Rows) : Prop where
  current : ∀ subject now, ∃ found, current rows subject now = .ok found ∧ live rows subject now found
  isHeld : ∀ taskId now, ∃ held, isHeld rows taskId now = .ok held
  rebuilt : ∀ subject record, rows subject = some record →
    ∃ claim, toClaim subject record = .ok claim

/-- The call does not make a row lapse in the instant in which it was acquired. -/
def Spaced (rows : Rows) (request : Request) (now : UtcTimestamp) : Prop :=
  match request with
  | .tryAcquire _ _ _ => True
  | .renew claim lease => ∀ record, rows claim.subject = some record → Holds record claim now →
      ¬ (lease.seconds = 0 ∧ now = record.acquiredAt)
  | .release claim => ∀ record, rows claim.subject = some record → record.owner = claim.owner →
      record.fencingToken = claim.fencingToken → now ≠ record.acquiredAt

/-! ## Rows of claims -/

/-- The row could be a claim's. -/
structure Sane (record : ClaimRecord) : Prop where
  owned : strip record.owner ≠ []
  bounded : record.owner.length ≤ maxOwnerLength
  expires : record.acquiredAt < record.expiresAt

theorem make_of_sane {subject : ClaimSubject} {record : ClaimRecord} (sane : Sane record) :
    ∃ claim, toClaim subject record = .ok claim ∧ claim.subject = subject ∧
      claim.record = record := by
  unfold toClaim Claim.make
  rw [dif_neg sane.owned, dif_pos sane.bounded, dif_pos sane.expires]
  exact ⟨_, rfl, rfl, rfl⟩

theorem Claim.record_sane (claim : Claim) : Sane claim.record :=
  ⟨claim.owned, claim.ownerBounded, claim.expires⟩

theorem toClaim_record {subject : ClaimSubject} {record : ClaimRecord} {claim : Claim}
    (made : toClaim subject record = .ok claim) : claim.subject = subject ∧ claim.record = record := by
  obtain ⟨same, owner, acquired, expires, token⟩ := Claim.make_ok made
  refine ⟨same, ?_⟩
  unfold Claim.record
  rw [owner, acquired, expires, token]

theorem Claim.eq_of_record {first second : Claim} (subject : first.subject = second.subject)
    (record : first.record = second.record) : first = second := by
  have fields := ClaimRecord.mk.inj record
  cases first
  cases second
  simp_all

theorem current_live {rows : Rows} {subject : ClaimSubject}
    (sane : ∀ record, rows subject = some record → Sane record) (now : UtcTimestamp) :
    ∃ found, current rows subject now = .ok found ∧ live rows subject now found := by
  unfold current live
  cases standing : rows subject with
  | none =>
      refine ⟨none, rfl, fun claim => iff_of_false (Option.some_ne_none _).symm ?_⟩
      rintro ⟨_, held, _⟩
      cases held
  | some record =>
      obtain ⟨claim, made, onSubject, same⟩ := make_of_sane (sane record standing)
      have only : ∀ other : Claim, other.subject = subject → some record = some other.record →
          other = claim := fun other on held =>
        Claim.eq_of_record (on.trans onSubject.symm) ((Option.some.inj held).symm.trans same.symm)
      dsimp only
      rw [made]
      refine ⟨_, rfl, fun other => ?_⟩
      by_cases expired : claim.hasExpiredAt now
      · rw [if_pos expired]
        refine iff_of_false (Option.some_ne_none _).symm ?_
        rintro ⟨on, held, lasts⟩
        rw [only other on held] at lasts
        exact absurd expired (Int.not_le.mpr lasts)
      · rw [if_neg expired]
        constructor
        · intro found
          cases found
          exact ⟨onSubject, by rw [same], Int.not_le.mp expired⟩
        · rintro ⟨on, held, _⟩
          rw [only other on held]

theorem inspectable_iff {rows : Rows} :
    Inspectable rows ↔ ∀ subject record, rows subject = some record → Sane record := by
  constructor
  · intro inspectable subject record standing
    obtain ⟨claim, made⟩ := inspectable.rebuilt subject record standing
    rw [← (toClaim_record made).2]
    exact claim.record_sane
  · intro sane
    refine ⟨fun subject now => current_live (sane subject) now, fun taskId now => ?_,
      fun subject record standing => ?_⟩
    · obtain ⟨found, inspected, _⟩ := current_live (sane (.forTask taskId)) now
      unfold isHeld
      rw [inspected]
      exact ⟨_, rfl⟩
    · obtain ⟨claim, made, _⟩ := make_of_sane (sane subject record standing)
      exact ⟨claim, made⟩

/-! ## One call -/

/-- Every row could be a claim's, and was acquired by now. -/
def Kept (rows : Rows) (now : UtcTimestamp) : Prop :=
  ∀ subject record, rows subject = some record → Sane record ∧ record.acquiredAt ≤ now

theorem Kept.later {rows : Rows} {clock now : UtcTimestamp} (kept : Kept rows clock)
    (later : clock ≤ now) : Kept rows now := fun subject record standing =>
  ⟨(kept subject record standing).1, Int.le_trans (kept subject record standing).2 later⟩

/-- Rows of which one is written anew. -/
theorem written_kept {rows : Rows} {now : UtcTimestamp} (kept : Kept rows now)
    (subject : ClaimSubject) {written : ClaimRecord} (acquired : written.acquiredAt ≤ now) :
    (Inspectable (Function.update rows subject (some written)) ↔ Sane written) ∧
      (Sane written → Kept (Function.update rows subject (some written)) now) := by
  have own : Function.update rows subject (some written) subject = some written :=
    Function.update_self _ _ _
  have after : Sane written → Kept (Function.update rows subject (some written)) now := by
    intro sane other record standing
    rw [Function.update_apply] at standing
    split at standing
    · cases standing
      exact ⟨sane, acquired⟩
    · exact kept other record standing
  refine ⟨?_, after⟩
  rw [inspectable_iff]
  exact ⟨fun all => all subject written own, fun sane other record standing =>
    (after sane other record standing).1⟩

theorem sane_until {record : ClaimRecord} (sane : Sane record) (moment : UtcTimestamp) :
    Sane { record with expiresAt := moment } ↔ record.acquiredAt < moment :=
  ⟨fun until_ => until_.expires, fun expires => ⟨sane.owned, sane.bounded, expires⟩⟩

theorem acquired_before {acquired now : UtcTimestamp} (before : acquired ≤ now) :
    acquired < now ↔ now ≠ acquired := by
  have value : now = acquired ↔ now.value = acquired.value := by
    cases now
    cases acquired
    exact UtcTimestamp.mk.injEq _ _ ▸ Iff.rfl
  rw [UtcTimestamp.le_def] at before
  rw [UtcTimestamp.lt_def, Ne, value]
  omega

theorem acquired_before_renewal {acquired now : UtcTimestamp} (before : acquired ≤ now)
    (lease : Duration) : acquired < now.add lease ↔ ¬ (lease.seconds = 0 ∧ now = acquired) := by
  have value : now = acquired ↔ now.value = acquired.value := by
    cases now
    cases acquired
    exact UtcTimestamp.mk.injEq _ _ ▸ Iff.rfl
  rw [UtcTimestamp.le_def] at before
  rw [value]
  change acquired.value < now.value + 1000000 * lease.seconds ↔ _
  omega

/-- By the statement of the call: what it writes is a claim's row exactly when the call is spaced. -/
theorem serve_kept {rows : Rows} {now : UtcTimestamp} (kept : Kept rows now) (request : Request) :
    (Inspectable (serve rows request now) ↔ Spaced rows request now) ∧
      (Spaced rows request now → Kept (serve rows request now) now) := by
  have same (unwritten : serve rows request now = rows) (spaced : Spaced rows request now) :
      (Inspectable (serve rows request now) ↔ Spaced rows request now) ∧
        (Spaced rows request now → Kept (serve rows request now) now) := by
    rw [unwritten, inspectable_iff]
    exact ⟨iff_of_true (fun subject record standing => (kept subject record standing).1) spaced,
      fun _ => kept⟩
  have moved (record : ClaimRecord) (moment : UtcTimestamp)
      (standing : rows request.subject = some record)
      (written : serve rows request now =
        Function.update rows request.subject (some { record with expiresAt := moment }))
      (spaced : record.acquiredAt < moment ↔ Spaced rows request now) :
      (Inspectable (serve rows request now) ↔ Spaced rows request now) ∧
        (Spaced rows request now → Kept (serve rows request now) now) := by
    obtain ⟨sane, acquired⟩ := kept request.subject record standing
    obtain ⟨exact_, after⟩ :=
      @written_kept rows now kept request.subject { record with expiresAt := moment } acquired
    rw [written, ← spaced, ← sane_until sane moment]
    exact ⟨exact_, after⟩
  cases request with
  | tryAcquire subject owner lease =>
      rcases acquireStatement_cases (rows subject) subject owner now (now.add lease) (rows subject)
        with refused | ⟨error, raised⟩ | ⟨written, claim, granted, wrote, _, record⟩
      · exact same (by simp only [serve, Request.subject, Request.readyPhase, Call.execute, refused])
          trivial
      · exact same (by simp only [serve, Request.subject, Request.readyPhase, Call.execute, raised])
          trivial
      · obtain ⟨_, acquired, _⟩ := insertOrTakeOver_some wrote
        have next : serve rows (.tryAcquire subject owner lease) now =
            Function.update rows subject (some written) := by
          simp only [serve, Request.subject, Request.readyPhase, Call.execute, granted]
        have sane : Sane written := record ▸ claim.record_sane
        obtain ⟨exact_, after⟩ :=
          written_kept kept subject (Int.le_of_eq (congrArg UtcTimestamp.value acquired))
        rw [next]
        exact ⟨iff_of_true (exact_.mpr sane) trivial, fun _ => after sane⟩
  | renew claim lease =>
      by_cases held : ∃ record, rows claim.subject = some record ∧ Holds record claim now
      · obtain ⟨record, standing, held⟩ := held
        refine moved record (now.add lease) standing ?_ ?_
        · simp only [serve, Request.subject, Request.readyPhase, Call.execute, standing,
            renewStatement_held held]
        · rw [acquired_before_renewal (kept claim.subject record standing).2]
          refine ⟨fun apart other found _ => ?_, fun spaced => spaced record standing held⟩
          obtain rfl := Option.some.inj (standing.symm.trans found)
          exact apart
      · have lapsed : ∀ record, rows claim.subject = some record → ¬ Holds record claim now :=
          fun record standing holds => held ⟨record, standing, holds⟩
        obtain ⟨error, missed⟩ := @renewStatement_lapsed _ _ _ (now.add lease) lapsed
        refine same ?_ fun record standing holds => absurd holds (lapsed record standing)
        simp only [serve, Request.subject, Request.readyPhase, Call.execute, missed]
  | release claim =>
      cases wrote : releaseClaim (rows claim.subject) claim now with
      | none =>
          refine same ?_ fun record standing owner token => ?_
          · simp only [serve, Request.subject, Request.readyPhase, Call.execute, wrote]
          · rw [standing] at wrote
            unfold releaseClaim at wrote
            dsimp only at wrote
            rw [if_pos ⟨owner, token⟩] at wrote
            cases wrote
      | some written =>
          obtain ⟨record, standing, owner, token, rfl⟩ := releaseClaim_some wrote
          refine moved record now standing ?_ ?_
          · simp only [serve, Request.subject, Request.readyPhase, Call.execute, wrote]
          · rw [acquired_before (kept claim.subject record standing).2]
            refine ⟨fun apart other found _ _ => ?_, fun spaced =>
              spaced record standing owner token⟩
            obtain rfl := Option.some.inj (standing.symm.trans found)
            exact apart

/-! ## Every sequence of calls -/

theorem timed_tail {call : Request × UtcTimestamp} {earlier : List (Request × UtcTimestamp)}
    (timed : Timed (call :: earlier)) : Timed earlier := List.Pairwise.of_cons timed

/-- Whether every call of a sequence was spaced when it was made. -/
def AllSpaced (calls : List (Request × UtcTimestamp)) : Prop :=
  ∀ request now earlier, (request, now) :: earlier <:+ calls →
    Spaced (serveAll earlier) request now

/-- By induction on the calls, from the first on. -/
theorem serveAll_kept {calls : List (Request × UtcTimestamp)} (timed : Timed calls)
    (spaced : AllSpaced calls) {now : UtcTimestamp} (later : ∀ call ∈ calls, call.2 ≤ now) :
    Kept (serveAll calls) now := by
  induction calls generalizing now with
  | nil =>
      intro subject record standing
      cases standing
  | cons call earlier ih =>
      obtain ⟨request, at_⟩ := call
      have before : ∀ call ∈ earlier, call.2 ≤ at_ :=
        fun call member => List.rel_of_pairwise_cons timed member
      have kept := ih (timed_tail timed)
        (fun request now rest suffix => spaced request now rest (suffix.trans (List.suffix_cons _ _)))
        before
      exact ((serve_kept kept request).2 (spaced request at_ earlier (List.suffix_refl _))).later
        (later (request, at_) List.mem_cons_self)

/-- After any calls with a clock that does not go back, every inspection in every state so far
returns the live claim or nothing exactly when no call made a row lapse as it was acquired. -/
theorem inspection_never_fails_iff {calls : List (Request × UtcTimestamp)} (timed : Timed calls) :
    (∀ earlier, earlier <:+ calls → Inspectable (serveAll earlier)) ↔ AllSpaced calls := by
  induction calls with
  | nil =>
      have empty : Inspectable (serveAll []) :=
        inspectable_iff.mpr fun subject record standing => absurd standing.symm (Option.some_ne_none _)
      refine iff_of_true (fun earlier suffix => ?_) fun request now earlier suffix => ?_
      · rw [List.suffix_nil.mp suffix]
        exact empty
      · exact absurd (List.suffix_nil.mp suffix) (List.cons_ne_nil _ _)
  | cons call earlier ih =>
      obtain ⟨request, now⟩ := call
      have before : ∀ call ∈ earlier, call.2 ≤ now :=
        fun call member => List.rel_of_pairwise_cons timed member
      have step (spaced : AllSpaced earlier) :
          Inspectable (serveAll ((request, now) :: earlier)) ↔
            Spaced (serveAll earlier) request now :=
        (serve_kept (serveAll_kept (timed_tail timed) spaced before) request).1
      constructor
      · intro inspectable other moment rest suffix
        have spaced : AllSpaced earlier := (ih (timed_tail timed)).mp fun part shorter =>
          inspectable part (shorter.trans (List.suffix_cons _ _))
        rcases List.suffix_cons_iff.mp suffix with whole | shorter
        · obtain ⟨same, rfl⟩ := List.cons_eq_cons.mp whole
          cases same
          exact (step spaced).mp (inspectable _ (List.suffix_refl _))
        · exact spaced other moment rest shorter
      · intro all part suffix
        have spaced : AllSpaced earlier := fun other moment rest shorter =>
          all other moment rest (shorter.trans (List.suffix_cons _ _))
        rcases List.suffix_cons_iff.mp suffix with rfl | shorter
        · exact (step spaced).mpr (all request now earlier (List.suffix_refl _))
        · exact (ih (timed_tail timed)).mpr spaced part shorter

/-! ## A release in the instant of the acquisition -/

def acquiring : List (Request × UtcTimestamp) := [(hourRequest, ⟨0⟩)]

theorem acquiring_timed : Timed acquiring := List.pairwise_singleton _ _

theorem inspection_never_fails_acquiring : Inspectable (serveAll acquiring) := by
  have spaced : AllSpaced acquiring := by
    intro request now earlier suffix
    rcases List.suffix_cons_iff.mp suffix with whole | shorter
    · obtain ⟨same, _⟩ := List.cons_eq_cons.mp whole
      cases same
      trivial
    · exact absurd (List.suffix_nil.mp shorter) (List.cons_ne_nil _ _)
  exact (inspection_never_fails_iff acquiring_timed).mpr spaced acquiring (List.suffix_refl _)

/-- The claim is released at the clock reading at which it was acquired. -/
def brief : List (Request × UtcTimestamp) := (.release hourClaim, ⟨0⟩) :: acquiring

theorem released_at_once_fails :
    Timed brief ∧ ∀ now, ∃ error, current (serveAll brief) nightlySubject now = .error error :=
  ⟨List.pairwise_pair.mpr (Int.le_refl 0), fun _ => ⟨_, rfl⟩⟩

end TaskControl.Claims
