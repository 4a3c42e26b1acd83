import TaskControl.Claims.Store

/-!
# Safety of the claim protocol

Over any interleaving of calls, with any clock readings and any calls that fail,
the row of a subject moves from one grant to the next by one token, and a written
row that is not committed yet still fits the committed one, since no other call
can write in between.
-/

set_option autoImplicit false

namespace TaskControl.Claims

open Transition

/-- The token of the row, or zero where there is none. -/
def version (row : Option ClaimRecord) : Nat :=
  match row with
  | none => 0
  | some record => record.fencingToken.value

@[simp] theorem version_some (record : ClaimRecord) :
    version (some record) = record.fencingToken.value := rfl

/-! ## What a statement writes -/

/-- The row written is the successor of the row that stands, by a grant of the claim. -/
structure Succeeds (row : Option ClaimRecord) (request : Request) (written : ClaimRecord)
    (claim : Claim) (seen : Option ClaimRecord) : Prop where
  asked : request.held = none
  subject : claim.subject = request.subject
  record : claim.record = written
  next : written.fencingToken.value = version row + 1
  unchanged : version seen = version row
  expired : ∀ old, row = some old → old.expiresAt ≤ written.acquiredAt

/-- The row written moves the expiry of the row that the claim still holds. -/
structure Extends (row : Option ClaimRecord) (request : Request) (written : ClaimRecord)
    (claim : Claim) : Prop where
  held : request.held = some claim
  standing : ∃ old, row = some old ∧ old.owner = claim.owner ∧
    old.fencingToken = claim.fencingToken ∧ written = { old with expiresAt := written.expiresAt }

/-- What a call that is about to commit has written, in terms of the committed row. -/
inductive Justified (row : Option ClaimRecord) (request : Request) :
    Option ClaimRecord → Answer → Prop where
  | nothing (answer : Answer) (plain : answer.claim = none) : Justified row request none answer
  | grant (written : ClaimRecord) (claim : Claim) (seen : Option ClaimRecord)
      (succeeds : Succeeds row request written claim seen) :
      Justified row request (some written) (.granted claim seen)
  | extend (written : ClaimRecord) (claim : Claim) (answer : Answer) (plain : answer.claim = none)
      (extends_ : Extends row request written claim) : Justified row request (some written) answer

theorem insertClaim_some {row : Option ClaimRecord} {owner : PythonText.Text}
    {now expiresAt : UtcTimestamp} {written : ClaimRecord}
    (wrote : insertClaim row owner now expiresAt = some written) :
    row = none ∧ written = { owner, acquiredAt := now, expiresAt, fencingToken := .first } := by
  cases row with
  | none => exact ⟨rfl, (Option.some.inj wrote).symm⟩
  | some record => cases wrote

theorem takeOver_some {row : Option ClaimRecord} {seen : ClaimRecord} {owner : PythonText.Text}
    {now expiresAt : UtcTimestamp} {written : ClaimRecord}
    (wrote : takeOver row seen owner now expiresAt = some written) :
    ∃ old, row = some old ∧ old.expiresAt ≤ now ∧ old.fencingToken = seen.fencingToken ∧
      written = { owner, acquiredAt := now, expiresAt, fencingToken := old.fencingToken.next } := by
  cases row with
  | none => cases wrote
  | some record =>
      simp only [takeOver] at wrote
      split at wrote
      · next matched =>
          refine ⟨record, rfl, matched.1, matched.2, ?_⟩
          rw [matched.2]
          exact (Option.some.inj wrote).symm
      · cases wrote

theorem renewClaim_some {row : Option ClaimRecord} {claim : Claim} {now expiresAt : UtcTimestamp}
    {written : ClaimRecord} (wrote : renewClaim row claim now expiresAt = some written) :
    ∃ old, row = some old ∧ old.owner = claim.owner ∧ old.fencingToken = claim.fencingToken ∧
      now < old.expiresAt ∧ written = { old with expiresAt } := by
  cases row with
  | none => cases wrote
  | some record =>
      simp only [renewClaim] at wrote
      split at wrote
      · next matched =>
          exact ⟨record, rfl, matched.1, matched.2.1, matched.2.2, (Option.some.inj wrote).symm⟩
      · cases wrote

theorem releaseClaim_some {row : Option ClaimRecord} {claim : Claim} {now : UtcTimestamp}
    {written : ClaimRecord} (wrote : releaseClaim row claim now = some written) :
    ∃ old, row = some old ∧ old.owner = claim.owner ∧ old.fencingToken = claim.fencingToken ∧
      written = { old with expiresAt := now } := by
  cases row with
  | none => cases wrote
  | some record =>
      simp only [releaseClaim] at wrote
      split at wrote
      · next matched => exact ⟨record, rfl, matched.1, matched.2, (Option.some.inj wrote).symm⟩
      · cases wrote

/-- Whichever statement wrote, the row written carries the call's own owner and times. -/
theorem insertOrTakeOver_some {row seen : Option ClaimRecord} {owner : PythonText.Text}
    {now expiresAt : UtcTimestamp} {written : ClaimRecord}
    (wrote : insertOrTakeOver row seen owner now expiresAt = some written) :
    written.owner = owner ∧ written.acquiredAt = now ∧ written.expiresAt = expiresAt ∧
      written.fencingToken.value = version row + 1 ∧ version seen = version row ∧
      ∀ old, row = some old → old.expiresAt ≤ now := by
  cases seen with
  | none =>
      obtain ⟨empty, rfl⟩ := insertClaim_some wrote
      subst empty
      exact ⟨rfl, rfl, rfl, rfl, rfl, fun old found => by cases found⟩
  | some record =>
      obtain ⟨old, found, expired, same, rfl⟩ := takeOver_some wrote
      subst found
      refine ⟨rfl, rfl, rfl, rfl, ?_, fun other found => ?_⟩
      · simp only [version_some, same]
      · cases found
        exact expired

/-- The statement of an acquisition refuses, raises, or writes the successor of the row. -/
theorem acquireStatement_cases (row : Option ClaimRecord) (subject : ClaimSubject)
    (owner : PythonText.Text) (now expiresAt : UtcTimestamp) (seen : Option ClaimRecord) :
    acquireStatement row subject owner now expiresAt seen = .committing none .refused ∨
    (∃ error, acquireStatement row subject owner now expiresAt seen = .ended (.raised error)) ∨
    ∃ written claim,
      acquireStatement row subject owner now expiresAt seen =
        .committing (some written) (.granted claim seen) ∧
      insertOrTakeOver row seen owner now expiresAt = some written ∧
      claim.subject = subject ∧ claim.record = written := by
  unfold acquireStatement
  split
  · exact .inl rfl
  · next written wrote =>
      split
      · next claim made =>
          obtain ⟨onSubject, ofOwner, acquired, expires, token⟩ := Claim.make_ok made
          obtain ⟨owner_, acquired_, expires_, _⟩ := insertOrTakeOver_some wrote
          refine .inr (.inr ⟨written, claim, rfl, wrote, onSubject, ?_⟩)
          rw [Claim.record, ofOwner, acquired, expires, token, ← owner_, ← acquired_, ← expires_]
      · next error made => exact .inr (.inl ⟨_, rfl⟩)

/-- A statement leaves the call about to commit something justified, or ended by an error. -/
theorem execute_justified {row : Option ClaimRecord} {call : Call} {phase : Phase}
    (ran : call.execute row = some phase) :
    (∃ error, phase = .ended (.raised error)) ∨
      ∃ write answer, phase = .committing write answer ∧ Justified row call.request write answer := by
  obtain ⟨request, at_⟩ := call
  cases request with
  | tryAcquire subject owner lease =>
      cases at_ with
      | looked now seen =>
          simp only [Call.execute, Option.some.injEq] at ran
          rcases acquireStatement_cases row subject owner now (now.add lease) seen with
            refused | ⟨error, raised⟩ | ⟨written, claim, granted, wrote, onSubject, record⟩
          · exact .inr ⟨none, .refused, ran.symm.trans refused, .nothing _ rfl⟩
          · exact .inl ⟨error, ran.symm.trans raised⟩
          · obtain ⟨_, acquired, _, next, unchanged, expired⟩ := insertOrTakeOver_some wrote
            refine .inr ⟨_, _, ran.symm.trans granted, .grant _ _ _ ⟨rfl, onSubject, record, next,
              unchanged, fun old found => ?_⟩⟩
            rw [acquired]
            exact expired old found
      | asked => cases ran
      | timed now => cases ran
      | committing write answer => cases ran
      | ended answer => cases ran
  | renew claim lease =>
      cases at_ with
      | timed now =>
          simp only [Call.execute, Option.some.injEq] at ran
          cases wrote : renewClaim row claim now (now.add lease) with
          | none =>
              simp only [renewStatement, wrote] at ran
              exact .inr ⟨_, _, ran.symm, .nothing _ rfl⟩
          | some written =>
              simp only [renewStatement, wrote] at ran
              obtain ⟨old, found, owner, token, _, rfl⟩ := renewClaim_some wrote
              refine .inr ⟨_, _, ran.symm, .extend _ claim _ ?_
                ⟨rfl, old, found, owner, token, rfl⟩⟩
              cases claim.renewedUntil (now.add lease) <;> rfl
      | asked => cases ran
      | looked now seen => cases ran
      | committing write answer => cases ran
      | ended answer => cases ran
  | release claim =>
      cases at_ with
      | timed now =>
          simp only [Call.execute, Option.some.injEq] at ran
          cases wrote : releaseClaim row claim now with
          | none =>
              rw [wrote] at ran
              exact .inr ⟨_, _, ran.symm, .nothing _ rfl⟩
          | some written =>
              rw [wrote] at ran
              obtain ⟨old, found, owner, token, rfl⟩ := releaseClaim_some wrote
              exact .inr ⟨_, _, ran.symm, .extend _ claim _ rfl
                ⟨rfl, old, found, owner, token, rfl⟩⟩
      | asked => cases ran
      | looked now seen => cases ran
      | committing write answer => cases ran
      | ended answer => cases ran

theorem execute_running {row : Option ClaimRecord} {call : Call} {phase : Phase}
    (ran : call.execute row = some phase) : call.phase.running = true := by
  obtain ⟨request, at_⟩ := call
  cases at_ with
  | ended answer => cases request <;> cases ran
  | asked => rfl
  | timed now => rfl
  | looked now seen => rfl
  | committing write answer => rfl

/-! ## The invariant -/

variable {Id : Type}

structure Sound (store : ClaimStore Id) : Prop where
  /-- Uncommitted writes of one row belong to one call. -/
  exclusive : ∀ first second firstCall secondCall,
    store.calls first = some firstCall → store.calls second = some secondCall →
    firstCall.request.subject = secondCall.request.subject →
    firstCall.phase.write ≠ none → secondCall.phase.write ≠ none → first = second
  pending : ∀ id request write answer,
    store.calls id = some ⟨request, .committing write answer⟩ →
    Justified (store.rows request.subject) request write answer
  increasing : store.grants.Pairwise fun earlier later =>
    earlier.2.subject = later.2.subject →
      earlier.2.fencingToken.value < later.2.fencingToken.value
  bounded : ∀ grant ∈ store.grants,
    grant.2.fencingToken.value ≤ version (store.rows grant.2.subject)
  answered : ∀ id request claim seen,
    store.calls id = some ⟨request, .ended (.granted claim seen)⟩ →
    (id, claim) ∈ store.grants ∧ claim.subject = request.subject ∧
      claim.fencingToken.value = version seen + 1

theorem sound_fresh {store : ClaimStore Id} (fresh : Fresh store) : Sound store := by
  obtain ⟨uncalled, ungranted⟩ := fresh
  refine ⟨?_, ?_, ?_, ?_, ?_⟩
  · intro first second firstCall secondCall called
    rw [uncalled] at called
    cases called
  · intro id request write answer called
    rw [uncalled] at called
    cases called
  · rw [ungranted]
    exact List.Pairwise.nil
  · rw [ungranted]
    intro grant member
    cases member
  · intro id request claim seen called
    rw [uncalled] at called
    cases called

/-- What a commit makes of a row. -/
theorem commit_rows (store : ClaimStore Id) (id : Id) (subject other : ClaimSubject)
    (write : Option ClaimRecord) (answer : Answer) :
    (store.commit id subject write answer).rows other =
      if other = subject then write.or (store.rows subject) else store.rows other := by
  cases write with
  | none =>
      simp only [ClaimStore.commit, Option.none_or]
      split
      · next same => rw [same]
      · rfl
  | some record => simp only [ClaimStore.commit, Function.update_apply, Option.some_or]

theorem Justified.of_none {row row' : Option ClaimRecord} {request : Request} {answer : Answer}
    (justified : Justified row request none answer) : Justified row' request none answer := by
  cases justified with
  | nothing _ plain => exact .nothing answer plain

theorem Justified.version_le {row write : Option ClaimRecord} {request : Request} {answer : Answer}
    (justified : Justified row request write answer) : version row ≤ version (write.or row) := by
  cases justified with
  | nothing _ plain => exact Nat.le_refl _
  | grant written claim seen succeeds =>
      rw [Option.some_or, version_some, succeeds.next]
      omega
  | extend written claim _ plain extends_ =>
      obtain ⟨old, found, _, _, same⟩ := extends_.standing
      rw [Option.some_or, found, same]
      exact Nat.le_refl _

theorem Justified.granted {row write : Option ClaimRecord} {request : Request} {answer : Answer}
    {claim : Claim} (justified : Justified row request write answer)
    (grants : answer.claim = some claim) :
    claim.subject = request.subject ∧ write = some claim.record ∧
      claim.fencingToken.value = version row + 1 ∧
      ∀ old, row = some old → old.expiresAt ≤ claim.acquiredAt := by
  cases justified with
  | nothing _ plain =>
      rw [plain] at grants
      cases grants
  | grant written granted seen succeeds =>
      cases grants
      have record := succeeds.record
      subst record
      exact ⟨succeeds.subject, rfl, succeeds.next, succeeds.expired⟩
  | extend written held _ plain extends_ =>
      rw [plain] at grants
      cases grants

section

variable [DecidableEq Id]

/-- A step that commits nothing. -/
theorem Sound.setCall {store : ClaimStore Id} (sound : Sound store) (id : Id) (request : Request)
    (phase : Phase)
    (unlocked : phase.write = none ∨ store.Unlocked id request.subject)
    (justified : ∀ write answer, phase = .committing write answer →
      Justified (store.rows request.subject) request write answer)
    (ungranted : ∀ claim seen, phase ≠ .ended (.granted claim seen)) :
    Sound (store.setCall id ⟨request, phase⟩) := by
  refine ⟨?_, ?_, sound.increasing, sound.bounded, ?_⟩
  · intro first second firstCall secondCall firstHere secondHere same firstWrites secondWrites
    rw [setCall_calls] at firstHere secondHere
    split at firstHere
    · next isFirst =>
        split at secondHere
        · next isSecond => rw [isFirst, isSecond]
        · next notSecond =>
            cases Option.some.inj firstHere
            rcases unlocked with quiet | free
            · exact absurd quiet firstWrites
            · exact absurd (free second secondCall notSecond secondHere same.symm) secondWrites
    · next notFirst =>
        split at secondHere
        · next isSecond =>
            cases Option.some.inj secondHere
            rcases unlocked with quiet | free
            · exact absurd quiet secondWrites
            · exact absurd (free first firstCall notFirst firstHere same) firstWrites
        · next notSecond =>
            exact sound.exclusive first second firstCall secondCall firstHere secondHere same
              firstWrites secondWrites
  · intro other otherRequest write answer here
    rw [setCall_calls] at here
    split at here
    · cases Option.some.inj here
      exact justified write answer rfl
    · exact sound.pending other otherRequest write answer here
  · intro other otherRequest claim seen here
    rw [setCall_calls] at here
    split at here
    · have same := congrArg Call.phase (Option.some.inj here)
      exact absurd same (ungranted claim seen)
    · exact sound.answered other otherRequest claim seen here

/-- A commit, whether or not its confirmation arrives. -/
theorem Sound.commit {store : ClaimStore Id} (sound : Sound store) {id : Id} {request : Request}
    {write : Option ClaimRecord} {answer final : Answer}
    (here : store.calls id = some ⟨request, .committing write answer⟩)
    (ending : final = answer ∨ final.claim = none) :
    Sound ((store.commit id request.subject write answer).setCall id ⟨request, .ended final⟩) := by
  have justified := sound.pending id request write answer here
  have grows : ∀ subject, version (store.rows subject) ≤
      version ((store.commit id request.subject write answer).rows subject) := by
    intro subject
    rw [commit_rows]
    split
    · next same =>
        rw [same]
        exact justified.version_le
    · exact Nat.le_refl _
  have bounded : ∀ grant ∈ store.grants, grant.2.fencingToken.value ≤
      version ((store.commit id request.subject write answer).rows grant.2.subject) :=
    fun grant member => Nat.le_trans (sound.bounded grant member) (grows grant.2.subject)
  refine ⟨?_, ?_, ?_, ?_, ?_⟩
  · intro first second firstCall secondCall firstHere secondHere same firstWrites secondWrites
    rw [setCall_calls] at firstHere secondHere
    split at firstHere
    · cases Option.some.inj firstHere
      exact absurd rfl firstWrites
    · split at secondHere
      · cases Option.some.inj secondHere
        exact absurd rfl secondWrites
      · exact sound.exclusive first second firstCall secondCall firstHere secondHere same
          firstWrites secondWrites
  · -- The row under an uncommitted write of another call is not the one committed here.
    intro other otherRequest otherWrite otherAnswer otherHere
    rw [setCall_calls] at otherHere
    split at otherHere
    · cases Option.some.inj otherHere
    · next notHere =>
        have before := sound.pending other otherRequest otherWrite otherAnswer otherHere
        cases otherWrite with
        | none => exact before.of_none
        | some otherWritten =>
            rw [setCall_rows, commit_rows]
            split
            · next same =>
                cases write with
                | none => rwa [Option.none_or, ← same]
                | some written =>
                    have both := sound.exclusive other id _ _ otherHere here same
                      (Option.some_ne_none _) (Option.some_ne_none _)
                    exact absurd both notHere
            · exact before
  · rw [setCall_grants]
    cases grants : answer.claim with
    | none =>
        simp only [ClaimStore.commit, grants]
        exact sound.increasing
    | some claim =>
        obtain ⟨onSubject, _, next, _⟩ := justified.granted grants
        simp only [ClaimStore.commit, grants]
        refine List.pairwise_append.mpr ⟨sound.increasing, List.pairwise_singleton _ _, ?_⟩
        intro grant member later isNew same
        cases List.mem_singleton.mp isNew
        have below := sound.bounded grant member
        rw [same, onSubject] at below
        calc grant.2.fencingToken.value ≤ version (store.rows request.subject) := below
          _ < claim.fencingToken.value := by omega
  · rw [setCall_grants]
    cases grants : answer.claim with
    | none =>
        have kept : (store.commit id request.subject write answer).grants = store.grants := by
          simp only [ClaimStore.commit, grants]
        rw [kept]
        exact bounded
    | some claim =>
        obtain ⟨onSubject, record, _, _⟩ := justified.granted grants
        have extended : (store.commit id request.subject write answer).grants =
            store.grants ++ [(id, claim)] := by
          simp only [ClaimStore.commit, grants]
        rw [extended, List.forall_mem_append, List.forall_mem_singleton]
        refine ⟨bounded, ?_⟩
        rw [setCall_rows, commit_rows, if_pos onSubject, record]
        exact Nat.le_refl _
  · intro other otherRequest claim seen otherHere
    have kept : ∀ grant ∈ store.grants,
        grant ∈ (store.commit id request.subject write answer).grants := by
      intro grant member
      cases grants : answer.claim with
      | none => simpa only [ClaimStore.commit, grants] using member
      | some claim =>
          simp only [ClaimStore.commit, grants]
          exact List.mem_append_left _ member
    rw [setCall_calls] at otherHere
    split at otherHere
    · next isHere =>
        obtain ⟨sameRequest, samePhase⟩ := Call.mk.inj (Option.some.inj otherHere)
        cases samePhase
        subst sameRequest
        rcases ending with same | plain
        · subst same
          cases justified with
          | nothing _ plain => cases plain
          | extend written held _ plain extends_ => cases plain
          | grant written _ _ succeeds =>
              refine ⟨?_, succeeds.subject, ?_⟩
              · rw [setCall_grants, isHere]
                exact List.mem_append_right _ (List.mem_singleton_self _)
              · have record := congrArg ClaimRecord.fencingToken succeeds.record
                rw [succeeds.unchanged, ← succeeds.next, ← record]
                rfl
        · cases plain
    · obtain ⟨member, onSubject, token⟩ :=
        sound.answered other otherRequest claim seen otherHere
      exact ⟨kept _ member, onSubject, token⟩

theorem Sound.step {store store' : ClaimStore Id} {id : Id} (sound : Sound store)
    (steps : Step store id store') : Sound store' := by
  cases steps with
  | call request fresh =>
      exact sound.setCall id request .asked (.inl rfl) (fun _ _ same => by cases same)
        fun _ _ same => by cases same
  | readClock request now here =>
      exact sound.setCall id request (.timed now) (.inl rfl) (fun _ _ same => by cases same)
        fun _ _ same => by cases same
  | look subject owner lease now here =>
      exact sound.setCall id _ (.looked now (store.rows subject)) (.inl rfl)
        (fun _ _ same => by cases same) fun _ _ same => by cases same
  | execute call phase here ran unlocked =>
      rcases execute_justified ran with ⟨error, rfl⟩ | ⟨write, answer, rfl, justified⟩
      · exact sound.setCall id call.request _ unlocked (fun _ _ same => by cases same)
          fun _ _ same => by cases same
      · refine sound.setCall id call.request _ unlocked ?_ fun _ _ same => by cases same
        intro _ _ same
        cases same
        exact justified
  | commit request write answer here => exact sound.commit here (.inl rfl)
  | commitUnconfirmed request write answer error here => exact sound.commit here (.inr rfl)
  | fail call error here running =>
      exact sound.setCall id call.request _ (.inl rfl) (fun _ _ same => by cases same)
        fun _ _ same => by cases same

theorem sound_of_reachable {store : ClaimStore Id} (reached : Reachable Fresh Moves store) :
    Sound store :=
  reached.invariant Sound (fun _ fresh => sound_fresh fresh) fun _ _ sound moved => by
    obtain ⟨id, steps⟩ := moved
    exact sound.step steps

/-! ## Safety -/

/-- Of two calls that looked at the same state of the subject, at most one is granted. -/
def OneWinner (store : ClaimStore Id) : Prop :=
  ∀ first second firstRequest secondRequest firstClaim secondClaim firstSeen secondSeen,
    store.calls first = some ⟨firstRequest, .ended (.granted firstClaim firstSeen)⟩ →
    store.calls second = some ⟨secondRequest, .ended (.granted secondClaim secondSeen)⟩ →
    firstRequest.subject = secondRequest.subject → version firstSeen = version secondSeen →
    first = second

/-- Successive grants of a subject carry increasing tokens. -/
def TokensIncrease (store : ClaimStore Id) : Prop :=
  store.grants.Pairwise fun earlier later =>
    earlier.2.subject = later.2.subject →
      later.2.fencingToken.supersedes earlier.2.fencingToken

/-- Where the step commits a grant, the row it replaces had expired when the grant was
acquired, and the new row is that of the grant. -/
def TakesOverExpired (store : ClaimStore Id) (id : Id) (store' : ClaimStore Id) : Prop :=
  ∀ claim, store'.grants = store.grants ++ [(id, claim)] →
    (∀ old, store.rows claim.subject = some old → old.expiresAt ≤ claim.acquiredAt) ∧
      store'.rows claim.subject = some claim.record

/-- A renewal or release whose claim is not the one the row carries changes no row. -/
def SupersededHarmless (store : ClaimStore Id) (id : Id) (store' : ClaimStore Id) : Prop :=
  ∀ call claim, store.calls id = some call → call.request.held = some claim →
    (∀ row, store.rows claim.subject = some row →
      row.fencingToken ≠ claim.fencingToken ∨ row.owner ≠ claim.owner) →
    store'.rows = store.rows

theorem Sound.oneWinner {store : ClaimStore Id} (sound : Sound store) : OneWinner store := by
  intro first second firstRequest secondRequest firstClaim secondClaim firstSeen secondSeen
    firstHere secondHere same racing
  obtain ⟨firstMember, firstSubject, firstToken⟩ := sound.answered _ _ _ _ firstHere
  obtain ⟨secondMember, secondSubject, secondToken⟩ := sound.answered _ _ _ _ secondHere
  by_contra apart
  have different : (first, firstClaim) ≠ (second, secondClaim) := fun equal =>
    apart (congrArg Prod.fst equal)
  have symmetric : Std.Symm fun earlier later : Id × Claim =>
      earlier.2.subject = later.2.subject →
        earlier.2.fencingToken.value ≠ later.2.fencingToken.value :=
    ⟨fun _ _ distinct sameSubject equal => distinct sameSubject.symm equal.symm⟩
  have distinct := sound.increasing.imp fun increases sameSubject =>
    Nat.ne_of_lt (increases sameSubject)
  have tokens := distinct.forall firstMember secondMember different
  refine tokens (by rw [firstSubject, secondSubject, same]) ?_
  rw [firstToken, secondToken, racing]

/-- The step that a commit takes. -/
theorem Sound.commit_step {store : ClaimStore Id} (sound : Sound store) {id : Id}
    {request : Request} {write : Option ClaimRecord} {answer final : Answer}
    (here : store.calls id = some ⟨request, .committing write answer⟩) :
    TakesOverExpired store id
        ((store.commit id request.subject write answer).setCall id ⟨request, .ended final⟩) ∧
      SupersededHarmless store id
        ((store.commit id request.subject write answer).setCall id ⟨request, .ended final⟩) := by
  have justified := sound.pending id request write answer here
  constructor
  · intro claim appended
    rw [setCall_grants] at appended
    cases grants : answer.claim with
    | none =>
        simp only [ClaimStore.commit, grants] at appended
        exact absurd appended (by simp)
    | some granted =>
        simp only [ClaimStore.commit, grants] at appended
        cases List.append_cancel_left appended
        obtain ⟨onSubject, record, _, expired⟩ := justified.granted grants
        refine ⟨fun old found => expired old (onSubject ▸ found), ?_⟩
        rw [setCall_rows, commit_rows, if_pos onSubject, record, Option.some_or]
  · intro call claim called held superseded
    rw [here] at called
    cases called
    funext subject
    rw [setCall_rows, commit_rows]
    cases justified with
    | nothing _ plain =>
        rw [Option.none_or]
        split
        · next same => rw [same]
        · rfl
    | grant written granted seen succeeds =>
        rw [succeeds.asked] at held
        cases held
    | extend written holder _ plain extends_ =>
        -- The row that the statement matched still stands, so it carries the claim.
        obtain ⟨old, found, owner, token, _⟩ := extends_.standing
        rw [extends_.held] at held
        cases held
        have onSubject : claim.subject = request.subject := by
          have is := extends_.held
          cases request <;> cases is <;> rfl
        rw [← onSubject] at found
        rcases superseded old found with otherToken | otherOwner
        · exact absurd token otherToken
        · exact absurd owner otherOwner

/-- A step that commits nothing grants nothing and changes no row. -/
theorem setCall_step {store : ClaimStore Id} {id : Id} {call : Call} :
    TakesOverExpired store id (store.setCall id call) ∧
      SupersededHarmless store id (store.setCall id call) :=
  ⟨fun _ appended => absurd appended (by simp),
    fun _ _ _ _ _ => rfl⟩

end

/-! ## A first grant -/

def nightlySubject : ClaimSubject where
  key := "task:nightly".toList
  named := by decide
  bounded := by decide

def hourLease : Duration := ⟨3600, by decide⟩

/-- A store without rows in which one call has looked and is about to insert. -/
def aboutToInsert : ClaimStore Nat :=
  (((⟨fun _ => none, fun _ => none, []⟩ : ClaimStore Nat).setCall 0
    ⟨.tryAcquire nightlySubject "host:1".toList hourLease, .asked⟩).setCall 0
    ⟨.tryAcquire nightlySubject "host:1".toList hourLease, .timed ⟨0⟩⟩).setCall 0
    ⟨.tryAcquire nightlySubject "host:1".toList hourLease, .looked ⟨0⟩ none⟩

theorem aboutToInsert_reachable : Reachable Fresh Moves aboutToInsert := by
  have started : Reachable Fresh Moves (⟨fun _ => none, fun _ => none, []⟩ : ClaimStore Nat) :=
    .start ⟨fun _ => rfl, rfl⟩
  have asked := started.next ⟨0, .call (.tryAcquire nightlySubject "host:1".toList hourLease) rfl⟩
  exact (asked.next ⟨0, .readClock _ ⟨0⟩ rfl⟩).next ⟨0, .look nightlySubject _ hourLease ⟨0⟩ rfl⟩

end TaskControl.Claims
