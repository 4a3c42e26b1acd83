import TaskControl.Claims.Protocol

/-!
# Renewing a claim

`renew` moves the expiry of the row by its `UPDATE`, commits, and only then asks
the claim itself for the later expiry, which refuses one that is not later.  So a
renewal can raise with the row already moved, and can return with a row that
lapses sooner than before.
-/

set_option autoImplicit false

namespace TaskControl.Claims

open Transition

variable {Id : Type}

/-! ## What a renewal promises -/

/-- A renewal that raises leaves the row, and one that returns has moved its expiry to a later
one, which is the expiry of the claim it returns. -/
def AllOrNothing (row row' : Option ClaimRecord) : Answer → Prop
  | .raised _ => row' = row
  | .renewed claim => ∃ old new, row = some old ∧ row' = some new ∧
      new.expiresAt = claim.expiresAt ∧ old.expiresAt < new.expiresAt ∧
      new.owner = old.owner ∧ new.fencingToken = old.fencingToken ∧
      new.acquiredAt = old.acquiredAt
  | _ => False

/-- The `UPDATE` of a renewal finds the row. -/
def Holds (record : ClaimRecord) (claim : Claim) (now : UtcTimestamp) : Prop :=
  record.owner = claim.owner ∧ record.fencingToken = claim.fencingToken ∧ now < record.expiresAt

/-- Where the row is held, the new expiry is later than those of the claim and of the row, or it
is the row's own and not later than the claim's. -/
def Extending (row : Option ClaimRecord) (claim : Claim) (now expiresAt : UtcTimestamp) : Prop :=
  ∀ record, row = some record → Holds record claim now →
    (claim.expiresAt < expiresAt ∧ record.expiresAt < expiresAt) ∨
      (expiresAt ≤ claim.expiresAt ∧ expiresAt = record.expiresAt)

/-! ## The statement -/

theorem renewStatement_lapsed {row : Option ClaimRecord} {claim : Claim}
    {now expiresAt : UtcTimestamp}
    (lapsed : ∀ record, row = some record → ¬ Holds record claim now) :
    ∃ error, renewStatement row claim now expiresAt = .committing none (.raised error) := by
  have missed : renewClaim row claim now expiresAt = none := by
    cases row with
    | none => rfl
    | some record => exact if_neg (lapsed record rfl)
  unfold renewStatement
  rw [missed]
  exact ⟨_, rfl⟩

/-- How a renewal ends whose `UPDATE` found the row. -/
def renewalAnswer (claim : Claim) (expiresAt : UtcTimestamp) : Answer :=
  match claim.renewedUntil expiresAt with
  | .ok renewed => .renewed renewed
  | .error error => .raised (.taskControl error)

theorem renewStatement_held {record : ClaimRecord} {claim : Claim} {now expiresAt : UtcTimestamp}
    (held : Holds record claim now) :
    renewStatement (some record) claim now expiresAt =
      .committing (some { record with expiresAt }) (renewalAnswer claim expiresAt) := by
  have wrote : renewClaim (some record) claim now expiresAt = some { record with expiresAt } :=
    if_pos held
  unfold renewStatement
  rw [wrote]
  rfl

theorem renewalAnswer_later {claim : Claim} {expiresAt : UtcTimestamp}
    (later : claim.expiresAt < expiresAt) :
    ∃ renewed, renewalAnswer claim expiresAt = .renewed renewed ∧ renewed.expiresAt = expiresAt := by
  unfold renewalAnswer Claim.renewedUntil
  rw [dif_pos later]
  exact ⟨_, rfl, rfl⟩

theorem renewalAnswer_sooner {claim : Claim} {expiresAt : UtcTimestamp}
    (sooner : ¬ claim.expiresAt < expiresAt) :
    ∃ error, renewalAnswer claim expiresAt = .raised error := by
  unfold renewalAnswer Claim.renewedUntil
  rw [dif_neg sooner]
  exact ⟨_, rfl⟩

/-- Of one renewal on the row that its `UPDATE` runs on. -/
theorem renewStatement_allOrNothing {row write : Option ClaimRecord} {claim : Claim}
    {now expiresAt : UtcTimestamp} {answer : Answer}
    (ran : renewStatement row claim now expiresAt = .committing write answer) :
    (∀ other, write = none → AllOrNothing other other answer) ∧
      (AllOrNothing row (write.or row) answer ↔ Extending row claim now expiresAt) := by
  by_cases held : ∃ record, row = some record ∧ Holds record claim now
  · obtain ⟨record, rfl, held⟩ := held
    rw [renewStatement_held held] at ran
    obtain ⟨rfl, answered⟩ := Phase.committing.inj ran
    refine ⟨fun _ missing => absurd missing (Option.some_ne_none _), ?_⟩
    rw [Option.some_or]
    by_cases later : claim.expiresAt < expiresAt
    · obtain ⟨renewed, extended, expiry⟩ := renewalAnswer_later later
      rw [extended] at answered
      subst answered
      constructor
      · rintro ⟨old, new, same, changed, _, moved, _⟩ other standing _
        cases same
        cases standing
        cases changed
        exact Or.inl ⟨later, moved⟩
      · intro extending
        rcases extending record rfl held with ⟨_, moved⟩ | ⟨sooner, _⟩
        · exact ⟨record, _, rfl, rfl, expiry.symm, moved, rfl, rfl, rfl⟩
        · exact absurd later (Int.not_lt.mpr sooner)
    · obtain ⟨error, refused⟩ := renewalAnswer_sooner later
      rw [refused] at answered
      subst answered
      constructor
      · intro unchanged other standing _
        cases standing
        have same := congrArg ClaimRecord.expiresAt (Option.some.inj unchanged)
        exact Or.inr ⟨Int.not_lt.mp later, same⟩
      · intro extending
        rcases extending record rfl held with ⟨later', _⟩ | ⟨_, same⟩
        · exact absurd later' later
        · change some _ = some record
          rw [same]
  · have lapsed : ∀ record, row = some record → ¬ Holds record claim now :=
      fun record standing holds => held ⟨record, standing, holds⟩
    obtain ⟨error, missed⟩ := @renewStatement_lapsed row claim now expiresAt lapsed
    rw [missed] at ran
    obtain ⟨rfl, rfl⟩ := Phase.committing.inj ran
    refine ⟨fun _ _ => rfl, iff_of_true rfl ?_⟩
    exact fun record standing holds => absurd holds (lapsed record standing)

/-! ## Other calls in between -/

section

variable [DecidableEq Id]

/-- A step of a call other than one. -/
def OthersMove (id : Id) (store store' : ClaimStore Id) : Prop :=
  ∃ other, other ≠ id ∧ Step store other store'

/-- A step of another call changes neither the call nor a row that the call has written. -/
theorem othersMove_keeps {store store' : ClaimStore Id} {id : Id} {call : Call}
    (sound : Sound store) (moved : OthersMove id store store') (here : store.calls id = some call) :
    store'.calls id = some call ∧
      (call.phase.write ≠ none →
        store'.rows call.request.subject = store.rows call.request.subject) := by
  obtain ⟨other, apart, steps⟩ := moved
  have elsewhere (state : ClaimStore Id) (changed : Call) (same : state.calls = store.calls) :
      (state.setCall other changed).calls id = some call := by
    rw [setCall_calls, if_neg (Ne.symm apart), same, here]
  have committed (request : Request) (write : Option ClaimRecord) (answer final : Answer)
      (pending : store.calls other = some ⟨request, .committing write answer⟩) :
      ((store.commit other request.subject write answer).setCall other
          ⟨request, .ended final⟩).calls id = some call ∧
        (call.phase.write ≠ none →
          ((store.commit other request.subject write answer).setCall other
            ⟨request, .ended final⟩).rows call.request.subject =
              store.rows call.request.subject) := by
    refine ⟨elsewhere _ _ rfl, fun writes => ?_⟩
    rw [setCall_rows, commit_rows]
    split
    · next same =>
        cases write with
        | none => rw [Option.none_or, same]
        | some record =>
            have both := sound.exclusive other id _ _ pending here same.symm
              (Option.some_ne_none record) writes
            exact absurd both apart
    · rfl
  cases steps with
  | call request fresh => exact ⟨elsewhere _ _ rfl, fun _ => rfl⟩
  | readClock request now asked => exact ⟨elsewhere _ _ rfl, fun _ => rfl⟩
  | look subject owner lease now timed => exact ⟨elsewhere _ _ rfl, fun _ => rfl⟩
  | execute ready phase standing ran unlocked => exact ⟨elsewhere _ _ rfl, fun _ => rfl⟩
  | commit request write answer pending => exact committed request write answer answer pending
  | commitUnconfirmed request write answer error pending =>
      exact committed request write answer (.raised error) pending
  | fail failing error standing running => exact ⟨elsewhere _ _ rfl, fun _ => rfl⟩

theorem othersMove_keeps_run {store before : ClaimStore Id} {id : Id} {call : Call}
    (sound : Sound store) (meanwhile : Relation.ReflTransGen (OthersMove id) store before)
    (here : store.calls id = some call) :
    Sound before ∧ before.calls id = some call ∧
      (call.phase.write ≠ none →
        before.rows call.request.subject = store.rows call.request.subject) := by
  induction meanwhile with
  | refl => exact ⟨sound, here, fun _ => rfl⟩
  | tail _ moved ih =>
      obtain ⟨soundMid, hereMid, rowsMid⟩ := ih
      obtain ⟨hereNext, rowsNext⟩ := othersMove_keeps soundMid moved hereMid
      obtain ⟨other, _, steps⟩ := moved
      exact ⟨soundMid.step steps, hereNext, fun writes =>
        (rowsNext writes).trans (rowsMid writes)⟩

/-! ## A renewal in any run -/

/-- A renewal executes its `UPDATE` in a reachable store and commits after any steps of other
calls: it is all or nothing exactly when what it asked for extends the claim and the row. -/
theorem renew_all_or_nothing_iff {store before : ClaimStore Id} {id : Id} {claim : Claim}
    {lease : Duration} {now : UtcTimestamp} {write : Option ClaimRecord} {answer : Answer}
    (reached : Reachable Fresh Moves store)
    (ready : store.calls id = some ⟨.renew claim lease, .timed now⟩)
    (ran : Call.execute (store.rows claim.subject) ⟨.renew claim lease, .timed now⟩ =
      some (.committing write answer))
    (unlocked : write = none ∨ store.Unlocked id claim.subject)
    (meanwhile : Relation.ReflTransGen (OthersMove id)
      (store.setCall id ⟨.renew claim lease, .committing write answer⟩) before) :
    AllOrNothing (before.rows claim.subject)
        ((before.commit id claim.subject write answer).rows claim.subject) answer ↔
      Extending (store.rows claim.subject) claim now (now.add lease) := by
  have steps : Step store id (store.setCall id ⟨.renew claim lease, .committing write answer⟩) :=
    .execute ⟨.renew claim lease, .timed now⟩ _ ready ran unlocked
  have sound := (sound_of_reachable reached).step steps
  obtain ⟨_, _, standing⟩ := othersMove_keeps_run sound meanwhile (setCall_self _ _ _)
  obtain ⟨quiet, exact_⟩ := renewStatement_allOrNothing (Option.some.inj ran)
  rw [commit_rows, if_pos rfl]
  cases write with
  | none =>
      rw [Option.none_or] at exact_ ⊢
      exact iff_of_true (quiet _ rfl) (exact_.mp (quiet _ rfl))
  | some record =>
      have same : before.rows claim.subject = store.rows claim.subject :=
        standing (Option.some_ne_none record)
      rw [same]
      exact exact_

end

/-! ## A renewal for less than is left -/

theorem hostNamed : PythonText.strip "host:1".toList ≠ [] := by decide

theorem hostBounded : "host:1".toList.length ≤ maxOwnerLength := by decide

theorem hourAhead : (⟨0⟩ : UtcTimestamp) < ⟨3600000000⟩ := by decide

theorem minuteBounded : 60 ≤ maxDurationSeconds := by decide

theorem twoHoursBounded : 7200 ≤ maxDurationSeconds := by decide

def minute : Duration := ⟨60, minuteBounded⟩

def twoHours : Duration := ⟨7200, twoHoursBounded⟩

/-- The claim granted for an hour at the start. -/
def hourClaim : Claim where
  subject := nightlySubject
  owner := "host:1".toList
  acquiredAt := ⟨0⟩
  expiresAt := ⟨3600000000⟩
  fencingToken := .first
  owned := hostNamed
  ownerBounded := hostBounded
  expires := hourAhead

def hourRequest : Request := .tryAcquire nightlySubject "host:1".toList hourLease

def inserting : ClaimStore Nat :=
  aboutToInsert.setCall 0 ⟨hourRequest, .committing (some hourClaim.record) (.granted hourClaim none)⟩

def inserted : ClaimStore Nat :=
  (inserting.commit 0 nightlySubject (some hourClaim.record) (.granted hourClaim none)).setCall 0
    ⟨hourRequest, .ended (.granted hourClaim none)⟩

/-- The granted claim is to be renewed for a time, ten seconds later. -/
def renewing (lease : Duration) : ClaimStore Nat :=
  (inserted.setCall 1 ⟨.renew hourClaim lease, .asked⟩).setCall 1
    ⟨.renew hourClaim lease, .timed ⟨10000000⟩⟩

theorem aboutToInsert_unlocked : aboutToInsert.Unlocked 0 nightlySubject := by
  intro other call apart here
  unfold aboutToInsert at here
  rw [setCall_calls, if_neg apart, setCall_calls, if_neg apart, setCall_calls, if_neg apart] at here
  cases here

theorem inserted_reachable : Reachable Fresh Moves inserted := by
  have looked : aboutToInsert.calls 0 = some ⟨hourRequest, .looked ⟨0⟩ none⟩ := rfl
  have written : Step aboutToInsert 0 inserting :=
    .execute ⟨hourRequest, .looked ⟨0⟩ none⟩ _ looked rfl (Or.inr aboutToInsert_unlocked)
  have pending : inserting.calls 0 =
      some ⟨hourRequest, .committing (some hourClaim.record) (.granted hourClaim none)⟩ := rfl
  have committed : Step inserting 0 inserted := .commit hourRequest _ _ pending
  exact (aboutToInsert_reachable.next ⟨0, written⟩).next ⟨0, committed⟩

theorem renewing_reachable (lease : Duration) : Reachable Fresh Moves (renewing lease) := by
  have fresh : inserted.calls 1 = none := rfl
  have asked : Step inserted 1 (inserted.setCall 1 ⟨.renew hourClaim lease, .asked⟩) :=
    .call (.renew hourClaim lease) fresh
  have timed : Step (inserted.setCall 1 ⟨.renew hourClaim lease, .asked⟩) 1 (renewing lease) :=
    .readClock (.renew hourClaim lease) ⟨10000000⟩ rfl
  exact (inserted_reachable.next ⟨1, asked⟩).next ⟨1, timed⟩

theorem renewing_unlocked (lease : Duration) : (renewing lease).Unlocked 1 nightlySubject := by
  intro other call apart here
  unfold renewing at here
  rw [setCall_calls, if_neg apart, setCall_calls, if_neg apart] at here
  unfold inserted at here
  rw [setCall_calls] at here
  split at here
  · cases here
    exact fun _ => rfl
  · next elsewhere =>
      have quiet : inserting.calls other = none := by
        unfold inserting aboutToInsert
        rw [setCall_calls, if_neg elsewhere, setCall_calls, if_neg elsewhere, setCall_calls,
          if_neg elsewhere, setCall_calls, if_neg elsewhere]
      rw [commit_calls, quiet] at here
      cases here

/-- The row of the claim, to lapse at another time. -/
def hourRecordUntil (moment : Int) : ClaimRecord := { hourClaim.record with expiresAt := ⟨moment⟩ }

theorem twoHoursAhead : (⟨0⟩ : UtcTimestamp) < ⟨7210000000⟩ := by decide

def extendedClaim : Claim := { hourClaim with expiresAt := ⟨7210000000⟩, expires := twoHoursAhead }

theorem renew_all_or_nothing_two_hours :
    AllOrNothing (some hourClaim.record) (some (hourRecordUntil 7210000000))
      (.renewed extendedClaim) := by
  have ready : (renewing twoHours).calls 1 = some ⟨.renew hourClaim twoHours, .timed ⟨10000000⟩⟩ :=
    rfl
  have ran : Call.execute ((renewing twoHours).rows hourClaim.subject)
      ⟨.renew hourClaim twoHours, .timed ⟨10000000⟩⟩ =
        some (.committing (some (hourRecordUntil 7210000000)) (.renewed extendedClaim)) := rfl
  have exact_ := renew_all_or_nothing_iff (renewing_reachable twoHours) ready ran
    (Or.inr (renewing_unlocked twoHours)) .refl
  refine exact_.mpr fun record standing _ => ?_
  cases standing
  exact Or.inl (by decide)

/-- Renewed for a minute with an hour left, the claim is refused the earlier expiry, and the row
has it. -/
theorem short_renewal_raises :
    Reachable Fresh Moves (renewing minute) ∧
      ∃ error, Call.execute ((renewing minute).rows nightlySubject)
          ⟨.renew hourClaim minute, .timed ⟨10000000⟩⟩ =
            some (.committing (some (hourRecordUntil 70000000)) (.raised error)) ∧
        ¬ AllOrNothing (some hourClaim.record) (some (hourRecordUntil 70000000))
          (.raised error) := by
  refine ⟨renewing_reachable _, _, rfl, ?_⟩
  intro unchanged
  have same := congrArg ClaimRecord.expiresAt (Option.some.inj unchanged)
  exact absurd same (by decide)

end TaskControl.Claims
