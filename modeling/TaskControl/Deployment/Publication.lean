import TaskControl.Runtime.Runs

/-!
# The publication of revisions

The operations of a revision's lifecycle against the table of its transitions.  The
table lets a draft be withdrawn, but the constructor wants a digest of whatever has
left the draft state, and a draft has none.
-/

set_option autoImplicit false

namespace TaskControl.Deployment

open PythonText

/-! ## The operations -/

inductive PublicationOperation where
  | publish (publishedBy : OwnerId) (publishedAt : UtcTimestamp)
  | supersede
  | withdraw

namespace PublicationOperation

def target : PublicationOperation → PublicationState
  | .publish _ _ => .published
  | .supersede => .superseded
  | .withdraw => .withdrawn

/-- The operation on a revision; `computeDigest` is the digest of the canonical content. -/
def run (computeDigest : TaskRevision → ContentDigest) (revision : TaskRevision) :
    PublicationOperation → Except TaskControlError TaskRevision
  | .publish publishedBy publishedAt => revision.publish computeDigest publishedBy publishedAt
  | .supersede => revision.supersede
  | .withdraw => revision.withdraw

/-- What the operation asks of the content. -/
def Accepts (revision : TaskRevision) : PublicationOperation → Prop
  | .publish _ _ => revision.assertPublishable = .ok ()
  | _ => True

end PublicationOperation

/-- The identity and the content of a revision are kept. -/
structure SameContent (revision moved : TaskRevision) : Prop where
  revisionId : moved.revisionId = revision.revisionId
  taskId : moved.taskId = revision.taskId
  revisionNumber : moved.revisionNumber = revision.revisionNumber
  action : moved.action = revision.action
  createdAt : moved.createdAt = revision.createdAt
  createdBy : moved.createdBy = revision.createdBy
  schemaVersion : moved.schemaVersion = revision.schemaVersion
  controls : moved.controls = revision.controls
  deployment : moved.deployment = revision.deployment
  activationSchedule : moved.activationSchedule = revision.activationSchedule
  changeSummary : moved.changeSummary = revision.changeSummary

/-- What an operation that succeeds leaves. -/
structure MovedTo (target : PublicationState) (revision moved : TaskRevision) : Prop where
  content : SameContent revision moved
  state : moved.publicationState = target
  digest : ∀ digest, revision.contentDigest = some digest → moved.contentDigest = some digest

/-- The operation succeeds exactly where the table lets it, and then only moves the revision. -/
structure FollowsTable (computeDigest : TaskRevision → ContentDigest) (revision : TaskRevision)
    (operation : PublicationOperation) : Prop where
  succeeds : (∃ moved, operation.run computeDigest revision = .ok moved) ↔
    operation.target ∈ revision.publicationState.transitions ∧ operation.Accepts revision
  moves : ∀ moved, operation.run computeDigest revision = .ok moved →
    MovedTo operation.target revision moved

/-! ## Each operation -/

section

variable {computeDigest : TaskRevision → ContentDigest} {revision : TaskRevision}

theorem assertLegalPublicationTransition_ok {current proposed : PublicationState} :
    assertLegalPublicationTransition current proposed = .ok () ↔ proposed ∈ current.transitions := by
  unfold assertLegalPublicationTransition
  split
  · next legal => exact iff_of_true rfl legal
  · next illegal => exact iff_of_false nofun illegal

/-- Only a draft can be published, and it has no digest yet. -/
theorem published_from {state : PublicationState}
    (legal : PublicationState.published ∈ state.transitions) : state = .draft := by
  cases state with
  | draft => rfl
  | published => simp [PublicationState.transitions] at legal
  | superseded => simp [PublicationState.transitions] at legal
  | withdrawn => simp [PublicationState.transitions] at legal

theorem draft_undigested (draft : revision.publicationState = .draft) :
    revision.contentDigest = none := by
  by_contra digested
  have frozen := revision.frozenDigest.mpr digested
  rw [draft] at frozen
  cases frozen

theorem publish_follows (publishedBy : OwnerId) (publishedAt : UtcTimestamp) :
    FollowsTable computeDigest revision (.publish publishedBy publishedAt) := by
  have published : ∀ moved, revision.publish computeDigest publishedBy publishedAt = .ok moved ↔
      PublicationState.published ∈ revision.publicationState.transitions ∧
        revision.assertPublishable = .ok () ∧
        moved = { revision with
          publicationState := .published
          publishedAt := some publishedAt
          publishedBy := some publishedBy
          contentDigest := some (computeDigest revision)
          frozenDigest := TaskRevision.published_marked (computeDigest revision)
          frozenPublished := TaskRevision.published_recorded publishedAt publishedBy } := by
    intro moved
    rw [← assertLegalPublicationTransition_ok]
    unfold TaskRevision.publish
    cases assertLegalPublicationTransition revision.publicationState .published with
    | error illegal => simp [bind, Except.bind]
    | ok done =>
        cases revision.assertPublishable with
        | error refused => simp [bind, Except.bind]
        | ok done => simp [bind, Except.bind, pure, Except.pure, eq_comm]
  constructor
  · constructor
    · rintro ⟨moved, done⟩
      obtain ⟨legal, accepted, _⟩ := (published moved).mp done
      exact ⟨legal, accepted⟩
    · rintro ⟨legal, accepted⟩
      exact ⟨_, (published _).mpr ⟨legal, accepted, rfl⟩⟩
  · intro moved done
    obtain ⟨legal, _, rfl⟩ := (published moved).mp done
    constructor
    · constructor <;> rfl
    · rfl
    · intro digest present
      rw [draft_undigested (published_from legal)] at present
      cases present

/-- A move to a frozen state succeeds from the frozen states that the table names. -/
theorem move_ok {proposed : PublicationState} {stays : proposed.isFrozen = true}
    {moved : TaskRevision} : revision.move proposed stays = .ok moved ↔
      proposed ∈ revision.publicationState.transitions ∧
        ∃ frozen : revision.publicationState.isFrozen = true,
          moved = revision.moved proposed frozen stays := by
  rw [← assertLegalPublicationTransition_ok]
  unfold TaskRevision.move
  cases assertLegalPublicationTransition revision.publicationState proposed with
  | error illegal => simp [bind, Except.bind]
  | ok done =>
      by_cases frozen : revision.publicationState.isFrozen = true
      · simp [bind, Except.bind, pure, Except.pure, frozen, eq_comm]
      · simp [bind, Except.bind, frozen]

theorem moved_movedTo {proposed : PublicationState}
    (frozen : revision.publicationState.isFrozen = true) (stays : proposed.isFrozen = true) :
    MovedTo proposed revision (revision.moved proposed frozen stays) := by
  constructor
  · constructor <;> rfl
  · rfl
  · intro digest present
    exact present

theorem move_follows {proposed : PublicationState} (stays : proposed.isFrozen = true)
    (frozen : proposed ∈ revision.publicationState.transitions →
      revision.publicationState.isFrozen = true) :
    ((∃ moved, revision.move proposed stays = .ok moved) ↔
        proposed ∈ revision.publicationState.transitions ∧ True) ∧
      ∀ moved, revision.move proposed stays = .ok moved → MovedTo proposed revision moved := by
  constructor
  · constructor
    · rintro ⟨moved, done⟩
      exact ⟨(move_ok.mp done).1, trivial⟩
    · rintro ⟨legal, _⟩
      exact ⟨_, move_ok.mpr ⟨legal, frozen legal, rfl⟩⟩
  · intro moved done
    obtain ⟨_, wasFrozen, rfl⟩ := move_ok.mp done
    exact moved_movedTo wasFrozen stays

theorem superseded_from {state : PublicationState}
    (legal : PublicationState.superseded ∈ state.transitions) : state.isFrozen = true := by
  cases state with
  | draft => simp [PublicationState.transitions] at legal
  | published => rfl
  | superseded => rfl
  | withdrawn => rfl

end

namespace Backup

open TaskControl.Runtime.Backup

theorem draft_unmarked :
    PublicationState.draft.isFrozen = true ↔ (none : Option ContentDigest) ≠ none := by decide

theorem draft_unrecorded : PublicationState.draft.isFrozen = true →
    (none : Option UtcTimestamp) ≠ none ∧ (none : Option OwnerId) ≠ none := by decide

/-- The revision before it was published. -/
def draft : TaskRevision :=
  { revision with
    publicationState := .draft
    publishedAt := none
    publishedBy := none
    contentDigest := none
    frozenDigest := draft_unmarked
    frozenPublished := draft_unrecorded }

end Backup

end TaskControl.Deployment
