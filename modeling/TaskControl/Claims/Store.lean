import TaskControl.Domain.Claim
import TaskControl.Foundation.Transition
import Mathlib.Logic.Function.Basic

/-!
# The durable claim store

`SqlAlchemyClaimStore` as the statements its operations send.  Each operation is
a call that reads the clock, for an acquisition looks at the row, executes one
`INSERT` or `UPDATE` and commits; calls of any number of processes interleave
between these steps.  What a statement wrote is visible to others from the commit
on, and until then no other call can write that row.
-/

set_option autoImplicit false

namespace TaskControl.Claims

open PythonText

/-- A row of the `claims` table; the subject is its key. -/
structure ClaimRecord where
  owner : Text
  acquiredAt : UtcTimestamp
  expiresAt : UtcTimestamp
  fencingToken : FencingToken
  deriving DecidableEq

def Claim.record (claim : Claim) : ClaimRecord :=
  { owner := claim.owner, acquiredAt := claim.acquiredAt, expiresAt := claim.expiresAt,
    fencingToken := claim.fencingToken }

/-! ## The statements

Each gives the row it writes, or nothing where it changes no row. -/

/-- `INSERT`; the primary key refuses a second row for a subject. -/
def insertClaim (row : Option ClaimRecord) (owner : Text) (now expiresAt : UtcTimestamp) :
    Option ClaimRecord :=
  match row with
  | none => some { owner, acquiredAt := now, expiresAt, fencingToken := .first }
  | some _ => none

/-- `UPDATE .. WHERE expires_at <= now AND fencing_token = seen`. -/
def takeOver (row : Option ClaimRecord) (seen : ClaimRecord) (owner : Text)
    (now expiresAt : UtcTimestamp) : Option ClaimRecord :=
  match row with
  | none => none
  | some record =>
      if record.expiresAt ≤ now ∧ record.fencingToken = seen.fencingToken then
        some { owner, acquiredAt := now, expiresAt, fencingToken := seen.fencingToken.next }
      else none

/-- The writing statement of `_insert_or_take_over`, chosen by the row it looked at. -/
def insertOrTakeOver (row seen : Option ClaimRecord) (owner : Text)
    (now expiresAt : UtcTimestamp) : Option ClaimRecord :=
  match seen with
  | none => insertClaim row owner now expiresAt
  | some record => takeOver row record owner now expiresAt

def renewClaim (row : Option ClaimRecord) (claim : Claim) (now expiresAt : UtcTimestamp) :
    Option ClaimRecord :=
  match row with
  | none => none
  | some record =>
      if record.owner = claim.owner ∧ record.fencingToken = claim.fencingToken ∧
          now < record.expiresAt then
        some { record with expiresAt }
      else none

def releaseClaim (row : Option ClaimRecord) (claim : Claim) (now : UtcTimestamp) :
    Option ClaimRecord :=
  match row with
  | none => none
  | some record =>
      if record.owner = claim.owner ∧ record.fencingToken = claim.fencingToken then
        some { record with expiresAt := now }
      else none

/-! ## Calls -/

inductive Request where
  | tryAcquire (subject : ClaimSubject) (owner : Text) (lease : Duration)
  | renew (claim : Claim) (lease : Duration)
  | release (claim : Claim)

def Request.subject : Request → ClaimSubject
  | .tryAcquire subject _ _ => subject
  | .renew claim _ => claim.subject
  | .release claim => claim.subject

/-- The claim a renewal or a release is made with. -/
def Request.held : Request → Option Claim
  | .tryAcquire _ _ _ => none
  | .renew claim _ => some claim
  | .release claim => some claim

/-- How a call ends.  A grant remembers the row its call had looked at. -/
inductive Answer where
  | granted (claim : Claim) (seen : Option ClaimRecord)
  | refused
  | renewed (claim : Claim)
  | released
  | raised (error : Raised)

def Answer.claim : Answer → Option Claim
  | .granted claim _ => some claim
  | _ => none

inductive Phase where
  | asked
  | timed (now : UtcTimestamp)
  | looked (now : UtcTimestamp) (seen : Option ClaimRecord)
  | committing (write : Option ClaimRecord) (answer : Answer)
  | ended (answer : Answer)

def Phase.write : Phase → Option ClaimRecord
  | .committing write _ => write
  | _ => none

def Phase.running : Phase → Bool
  | .ended _ => false
  | _ => true

structure Call where
  request : Request
  phase : Phase

/-- `_insert_or_take_over`: the claim is built from what was written before the commit. -/
def acquireStatement (row : Option ClaimRecord) (subject : ClaimSubject) (owner : Text)
    (now expiresAt : UtcTimestamp) (seen : Option ClaimRecord) : Phase :=
  match insertOrTakeOver row seen owner now expiresAt with
  | none => .committing none .refused
  | some record =>
      match Claim.make subject owner now expiresAt record.fencingToken with
      | .ok claim => .committing (some record) (.granted claim seen)
      | .error error => .ended (.raised (.taskControl error))

/-- The statement of `renew`; the claim to return is built after the commit. -/
def renewStatement (row : Option ClaimRecord) (claim : Claim) (now expiresAt : UtcTimestamp) :
    Phase :=
  match renewClaim row claim now expiresAt with
  | none =>
      .committing none (.raised (.claimNotHeld
        (s!"The claim on {String.ofList claim.subject.key} is no longer held by " ++
          s!"{String.ofList claim.owner}. It lapsed, or another process has taken it over.")))
  | some record =>
      .committing (some record)
        (match claim.renewedUntil expiresAt with
        | .ok renewed => .renewed renewed
        | .error error => .raised (.taskControl error))

/-- The writing statement of a call that is ready for it, on the row of its subject. -/
def Call.execute (row : Option ClaimRecord) (call : Call) : Option Phase :=
  match call.request, call.phase with
  | .tryAcquire subject owner lease, .looked now seen =>
      some (acquireStatement row subject owner now (now.add lease) seen)
  | .renew claim lease, .timed now => some (renewStatement row claim now (now.add lease))
  | .release claim, .timed now => some (.committing (releaseClaim row claim now) .released)
  | _, _ => none

/-! ## The store and its steps -/

/-- The committed rows, the calls made so far, and the grants in the order in which they
were committed. -/
structure ClaimStore (Id : Type) where
  rows : ClaimSubject → Option ClaimRecord
  calls : Id → Option Call
  grants : List (Id × Claim)

section

variable {Id : Type} [DecidableEq Id]

def ClaimStore.setCall (store : ClaimStore Id) (id : Id) (call : Call) : ClaimStore Id :=
  { store with calls := Function.update store.calls id (some call) }

/-- What a commit makes visible. -/
def ClaimStore.commit (store : ClaimStore Id) (id : Id) (subject : ClaimSubject)
    (write : Option ClaimRecord) (answer : Answer) : ClaimStore Id :=
  { store with
    rows := match write with
      | none => store.rows
      | some record => Function.update store.rows subject (some record)
    grants := match answer.claim with
      | none => store.grants
      | some claim => store.grants ++ [(id, claim)] }

/-- No other call has written the row of the subject without having committed. -/
def ClaimStore.Unlocked (store : ClaimStore Id) (id : Id) (subject : ClaimSubject) : Prop :=
  ∀ other call, other ≠ id → store.calls other = some call → call.request.subject = subject →
    call.phase.write = none

inductive Step (store : ClaimStore Id) (id : Id) : ClaimStore Id → Prop where
  | call (request : Request) (fresh : store.calls id = none) :
      Step store id (store.setCall id ⟨request, .asked⟩)
  | readClock (request : Request) (now : UtcTimestamp)
      (here : store.calls id = some ⟨request, .asked⟩) :
      Step store id (store.setCall id ⟨request, .timed now⟩)
  | look (subject : ClaimSubject) (owner : Text) (lease : Duration) (now : UtcTimestamp)
      (here : store.calls id = some ⟨.tryAcquire subject owner lease, .timed now⟩) :
      Step store id
        (store.setCall id ⟨.tryAcquire subject owner lease, .looked now (store.rows subject)⟩)
  | execute (call : Call) (phase : Phase) (here : store.calls id = some call)
      (ran : call.execute (store.rows call.request.subject) = some phase)
      (unlocked : phase.write = none ∨ store.Unlocked id call.request.subject) :
      Step store id (store.setCall id ⟨call.request, phase⟩)
  | commit (request : Request) (write : Option ClaimRecord) (answer : Answer)
      (here : store.calls id = some ⟨request, .committing write answer⟩) :
      Step store id
        ((store.commit id request.subject write answer).setCall id ⟨request, .ended answer⟩)
  /-- The commit takes effect and its confirmation is lost. -/
  | commitUnconfirmed (request : Request) (write : Option ClaimRecord) (answer : Answer)
      (error : Raised) (here : store.calls id = some ⟨request, .committing write answer⟩) :
      Step store id
        ((store.commit id request.subject write answer).setCall id
          ⟨request, .ended (.raised error)⟩)
  /-- The call raises at any point before its commit takes effect, and is rolled back. -/
  | fail (call : Call) (error : Raised) (here : store.calls id = some call)
      (running : call.phase.running = true) :
      Step store id (store.setCall id ⟨call.request, .ended (.raised error)⟩)

/-- A step of some call. -/
def Moves (store store' : ClaimStore Id) : Prop := ∃ id, Step store id store'

/-- Any rows, and no call made yet. -/
def Fresh (store : ClaimStore Id) : Prop := (∀ id, store.calls id = none) ∧ store.grants = []

@[simp] theorem setCall_rows (store : ClaimStore Id) (id : Id) (call : Call) :
    (store.setCall id call).rows = store.rows := rfl

@[simp] theorem setCall_grants (store : ClaimStore Id) (id : Id) (call : Call) :
    (store.setCall id call).grants = store.grants := rfl

theorem setCall_calls (store : ClaimStore Id) (id other : Id) (call : Call) :
    (store.setCall id call).calls other = if other = id then some call else store.calls other := by
  simp only [ClaimStore.setCall, Function.update_apply]

@[simp] theorem setCall_self (store : ClaimStore Id) (id : Id) (call : Call) :
    (store.setCall id call).calls id = some call := by
  rw [setCall_calls, if_pos rfl]

omit [DecidableEq Id] in
@[simp] theorem commit_calls (store : ClaimStore Id) (id : Id) (subject : ClaimSubject)
    (write : Option ClaimRecord) (answer : Answer) :
    (store.commit id subject write answer).calls = store.calls := rfl

end

end TaskControl.Claims
