import TaskControl.Domain.Identifiers
import TaskControl.Domain.Values

/-!
# Claims

Time-bounded ownership of a named subject by a named owner.  A claim carries the
checks of its constructor, so a claim that could never expire cannot be built.
-/

set_option autoImplicit false

namespace TaskControl.Claims

open PythonText LinePattern

def maxSubjectLength : Nat := 200

def maxOwnerLength : Nat := 200

structure ClaimSubject where
  key : Text
  named : strip key ≠ []
  bounded : key.length ≤ maxSubjectLength
  deriving DecidableEq

/-- The subject that protects one capability against overlapping runs. -/
def ClaimSubject.forTask (taskId : TaskId) : ClaimSubject where
  key := "task:".toList ++ taskId.text
  named := by
    have token : Token "task:".toList := by decide
    rw [strip, lstrip_token token, rstrip_append_token taskId.text_token]
    exact List.append_ne_nil_of_left_ne_nil token.1 _
  bounded := by
    rw [List.length_append, EntityId.text_length]
    decide

structure FencingToken where
  value : Nat
  positive : 1 ≤ value
  deriving DecidableEq

def FencingToken.first : FencingToken := ⟨1, by omega⟩

def FencingToken.next (token : FencingToken) : FencingToken := ⟨token.value + 1, by omega⟩

def FencingToken.supersedes (token other : FencingToken) : Prop := other.value < token.value

structure Claim where
  subject : ClaimSubject
  owner : Text
  acquiredAt : UtcTimestamp
  expiresAt : UtcTimestamp
  fencingToken : FencingToken
  owned : strip owner ≠ []
  ownerBounded : owner.length ≤ maxOwnerLength
  expires : acquiredAt < expiresAt
  deriving DecidableEq

/-- The constructor with the checks of `__post_init__`. -/
def Claim.make (subject : ClaimSubject) (owner : Text) (acquiredAt expiresAt : UtcTimestamp)
    (fencingToken : FencingToken) : Except TaskControlError Claim :=
  if owned : strip owner = [] then
    .error (validationError
      "A claim must record who holds it. An anonymous claim cannot be safely released or renewed.")
  else if ownerBounded : owner.length ≤ maxOwnerLength then
    if expires : acquiredAt < expiresAt then
      .ok { subject, owner, acquiredAt, expiresAt, fencingToken, owned, ownerBounded, expires }
    else .error (validationError "A claim must expire after it was acquired.")
  else .error (validationError "Claim owner is too long.")

theorem Claim.make_ok {subject : ClaimSubject} {owner : Text} {acquiredAt expiresAt : UtcTimestamp}
    {token : FencingToken} {claim : Claim}
    (made : Claim.make subject owner acquiredAt expiresAt token = .ok claim) :
    claim.subject = subject ∧ claim.owner = owner ∧ claim.acquiredAt = acquiredAt ∧
      claim.expiresAt = expiresAt ∧ claim.fencingToken = token := by
  unfold Claim.make at made
  split at made
  · cases made
  · split at made
    · split at made
      · cases made
        exact ⟨rfl, rfl, rfl, rfl, rfl⟩
      · cases made
    · cases made

def Claim.hasExpiredAt (claim : Claim) (moment : UtcTimestamp) : Prop := claim.expiresAt ≤ moment

/-- Renewal keeps the token: it is the same acquisition, held longer. -/
def Claim.renewedUntil (claim : Claim) (expiresAt : UtcTimestamp) :
    Except TaskControlError Claim :=
  if later : claim.expiresAt < expiresAt then
    .ok { claim with
      expiresAt
      expires := Int.lt_trans claim.expires later }
  else
    .error (validationError
      "Renewing a claim must extend it. A renewal that shortened the lease would make the subject reclaimable sooner than its holder expects.")

end TaskControl.Claims
