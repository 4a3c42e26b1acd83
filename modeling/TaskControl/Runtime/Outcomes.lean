import TaskControl.Runtime.Terminal

/-!
# Stored outcomes

When a run changes an outcome that it has already stored: an exception that leaves
the body after the body's own save took effect makes the handler finish a copy
that is still open.
-/

set_option autoImplicit false

namespace TaskControl.Runtime

open PythonText Effects Persistence

/-- Of two rows, the second says the same about how the execution ended. -/
structure SameVerdict (first second : ExecutionRecord) : Prop where
  outcome : second.outcome = first.outcome
  reasonCode : second.reasonCode = first.reasonCode
  explanation : second.explanation = first.explanation
  finishedAt : second.finishedAt = first.finishedAt

/-- A later save leaves what a finished row says. -/
def Keeps (first second : Event) : Prop :=
  ∀ old new, first = .stored old → second = .stored new → old.state = .finished →
    SameVerdict old new

/-- Once a finished row is stored, no later save changes what it says. -/
def OutcomeKept (events : List Event) : Prop := events.Pairwise Keeps

/-- No event of the list is a save of a finished row. -/
def Unfinished (event : Event) : Prop := ∀ record, event = .stored record → record.state ≠ .finished

theorem keeps_of_unfinished {first : Event} (unfinished : Unfinished first) (second : Event) :
    Keeps first second :=
  fun old _ saved _ done => absurd done (unfinished old saved)

theorem InProgress.unfinished {executionId : ExecutionId} {revision : TaskRevision}
    {held : Option LockHandle} {event : Event}
    (progress : InProgress executionId revision held event) : Unfinished event := by
  rintro record rfl done
  have open_ := progress.2
  rw [done] at open_
  cases open_

/-- Events that save no finished row may stand before any others. -/
theorem outcomeKept_append {first second : List Event}
    (unfinished : ∀ event ∈ first, Unfinished event) :
    OutcomeKept (first ++ second) ↔ OutcomeKept second := by
  induction first with
  | nil => exact Iff.rfl
  | cons event rest ih =>
      have later := ih fun other member => unfinished other (List.mem_cons_of_mem _ member)
      unfold OutcomeKept at later ⊢
      rw [List.cons_append, List.pairwise_cons, later]
      exact ⟨fun both => both.2, fun kept =>
        ⟨fun other _ => keeps_of_unfinished (unfinished event List.mem_cons_self) other, kept⟩⟩

theorem releasing_silent {held : Option LockHandle} {event : Event}
    (member : event ∈ releasing held) (record : ExecutionRecord) : event ≠ .stored record := by
  obtain ⟨handle, _, rfl⟩ := List.mem_map.mp member
  simp

/-- The saves of a run that come after one of a verdict. -/
theorem outcomeKept_releasing (held : Option LockHandle) (events : List Event) :
    OutcomeKept (releasing held ++ events) ↔ OutcomeKept events :=
  outcomeKept_append fun _ member record saved => absurd saved (releasing_silent member record)

section Distinct

variable {service : RuntimeService} {reactions : Reactions} {revision : TaskRevision}
  {request : RunRequest}

theorem classifyExited_outcome (result : ProcessResult) (evidence : ExpectationEvidence)
    (successfulCodes : List Int) :
    (classifyExited result evidence successfulCodes).outcome ∈
      [ExecutionOutcome.succeeded, .failed, .outcomeFailed] := by
  unfold classifyExited
  split
  · simp
  · split
    · simp
    · split <;> simp

/-- No classification is an infrastructure failure, and one that is unknown says why. -/
theorem classifyReport_outcome (result : ProcessResult) :
    (classifyReport result).outcome ≠ .infrastructureFailed ∧
      ((classifyReport result).outcome = .unknown → (classifyReport result).explanation =
        ("The runtime lost track of the process, so its result cannot be proven. " ++
          "This execution requires reconciliation.").toList) := by
  unfold classifyReport classifyProcessResult
  split
  · simp
  · simp
  · split
    · next outcome code found =>
        cases cause : result.terminationCause <;> rw [cause] at found <;>
          simp only [terminationClassification, Option.some.injEq, Prod.mk.injEq, reduceCtorEq]
            at found <;> (obtain ⟨rfl, rfl⟩ := found; simp)
    · split
      · simp
      · have outcome := classifyExited_outcome result .none [0]
        constructor
        · intro same
          rw [same] at outcome
          simp at outcome
        · intro same
          rw [same] at outcome
          simp at outcome

/-- The explanation of a run whose process was lost track of. -/
def abandonedExplanation : Text :=
  strip (("The runtime lost track of the process, so its result cannot be proven. " ++
    "This execution requires reconciliation.").toList ++ ' ' ::
      (ExecutionOutcome.unknown.wire.toList ++ " is never retried.".toList))

theorem abandonedExplanation_ne : abandonedExplanation ≠ RuntimeService.interruptedExplanation := by
  decide +kernel

/-- What the body concludes is never what a handler records. -/
theorem Concludes.ne_handlerVerdict {verdict : Verdict} (raised : Raised)
    (concluded : Concludes service reactions revision request verdict) :
    verdict.outcome ≠ (handlerVerdict raised).outcome ∨
      verdict.explanation ≠ (handlerVerdict raised).explanation := by
  cases concluded with
  | blocked held => cases raised <;> simp [blockedVerdict, handlerVerdict]
  | @reported handle environment n report held prepared ended =>
      obtain ⟨notInfrastructure, unknown⟩ := classifyReport_outcome report.result
      have interrupted : (classifyReport report.result).outcome ≠ .unknown ∨
          (verdictOn revision.controls.retry n report).explanation ≠
            RuntimeService.interruptedExplanation := by
        by_cases lost : (classifyReport report.result).outcome = .unknown
        · right
          have retry : (decideRetry (classifyReport report.result).outcome
              revision.controls.retry n).reason =
              ExecutionOutcome.unknown.wire.toList ++ " is never retried.".toList := by
            rw [lost]
            rfl
          have explained : (verdictOn revision.controls.retry n report).explanation =
              abandonedExplanation := by
            change strip (_ ++ ' ' :: _) = _
            rw [unknown lost, retry]
            rfl
          rw [explained]
          exact abandonedExplanation_ne
        · exact .inl lost
      cases raised with
      | taskControl error => exact .inl notInfrastructure
      | lockNotAcquired message => exact interrupted
      | claimNotHeld message => exact interrupted
      | other message => exact interrupted
      | interrupt => exact interrupted

/-- The body and the handler both store a verdict exactly when an exception strikes the body
after its own save took effect and the handler's save takes effect too. -/
theorem Guarded.both_iff {result : Except Raised Verdict} {body handler : Option Verdict}
    {finished : Bool}
    (guarded : Guarded service reactions revision request result body handler finished) :
    (body ≠ none ∧ handler ≠ none) ↔
      ∃ raised verdict, Strikes service reactions revision request raised (some verdict) ∧
        Settles reactions.handlerClock reactions.handler (handlerVerdict raised) := by
  simp only [Option.ne_none_iff_exists', guarded.body_iff, guarded.handler_iff]
  constructor
  · rintro ⟨⟨verdict, settles⟩, _, raised, stored, struck, rfl, kept⟩
    rw [struck.stored_iff.mpr settles] at struck
    exact ⟨raised, verdict, struck, kept⟩
  · rintro ⟨raised, verdict, struck, kept⟩
    exact ⟨⟨verdict, struck.stored_iff.mp rfl⟩, _, raised, some verdict, struck, rfl, kept⟩

theorem Guarded.differ {result : Except Raised Verdict} {first second : Verdict} {finished : Bool}
    (guarded : Guarded service reactions revision request result (some first) (some second)
      finished) :
    first.outcome ≠ second.outcome ∨ first.explanation ≠ second.explanation := by
  obtain ⟨concluded, _⟩ := guarded.body_iff.mp rfl
  obtain ⟨raised, _, _, rfl, _⟩ := guarded.handler_iff.mp rfl
  exact concluded.ne_handlerVerdict raised

/-- A run rewrites what it has stored exactly when two of its parts store a verdict. -/
theorem Traced.outcomeKept_iff {executionId : ExecutionId} {result : Except Raised Verdict}
    {body handler cleanup : Option Verdict} {events : List Event}
    (traced : Traced service reactions revision request executionId body handler cleanup events)
    (ended : Ended service reactions revision request result body handler cleanup) :
    OutcomeKept events ↔ ¬ (body ≠ none ∧ handler ≠ none) := by
  obtain ⟨opened, fromBody, fromHandler, fromCleanup, quiet, _, bodySaves, handlerSaves,
    cleanupSaves, rfl⟩ := traced
  rw [outcomeKept_append fun event member => (quiet event member).unfinished]
  obtain ⟨_, _, guarded⟩ := ended.guarded
  have once := ended.stores_once
  have single : ∀ {stored : Option Verdict} {events : List Event},
      Saves executionId stored events → OutcomeKept events := by
    intro stored events saves
    cases stored with
    | none =>
        cases saves
        exact List.Pairwise.nil
    | some verdict =>
        obtain ⟨record, _, _, rfl⟩ := saves
        exact List.pairwise_singleton _ _
  have silent : ∀ {verdict : Verdict} {events : List Event}, Saves executionId (some verdict) events →
      OutcomeKept (events ++ (releasing (heldLock reactions) ++ [])) := by
    rintro verdict _ ⟨record, _, _, rfl⟩
    unfold OutcomeKept
    rw [List.append_nil, List.singleton_append, List.pairwise_cons]
    refine ⟨?_, ?_⟩
    · rintro event member old new _ saved
      exact absurd saved (releasing_silent member new)
    · have kept := outcomeKept_releasing (heldLock reactions) []
      rw [List.append_nil] at kept
      exact kept.mpr List.Pairwise.nil
  cases body with
  | none =>
      cases bodySaves
      rw [List.nil_append]
      refine iff_of_true ?_ (by simp)
      cases handler with
      | none =>
          cases handlerSaves
          rw [List.nil_append, outcomeKept_releasing]
          exact single cleanupSaves
      | some verdict =>
          obtain rfl : cleanup = none := by simpa using once
          cases cleanupSaves
          exact silent handlerSaves
  | some verdict =>
      obtain rfl : cleanup = none := by simpa using once
      cases cleanupSaves
      cases handler with
      | none =>
          cases handlerSaves
          exact iff_of_true (silent bodySaves) (by simp)
      | some verdict' =>
          refine iff_of_false ?_ (by simp)
          obtain ⟨old, _, written, rfl⟩ := bodySaves
          obtain ⟨new, _, written', rfl⟩ := handlerSaves
          intro kept
          have same := List.rel_of_pairwise_cons kept (by simp) old new rfl rfl written.state
          have outcome := same.outcome
          rw [written.outcome, written'.outcome, Option.some_inj] at outcome
          have explanation := same.explanation
          rw [written.explanation, written'.explanation] at explanation
          rcases guarded.differ with apart | apart
          · exact apart outcome.symm
          · exact apart explanation.symm

end Distinct

/-- A run keeps the outcome it has stored exactly when no exception strikes its body after the
body's own save took effect and the handler's save takes effect after that. -/
theorem run_keeps_outcome_iff (service : RuntimeService) (reactions : Reactions)
    (request : RunRequest) (world : World) :
    OutcomeKept (eventsSince world (finalWorld (service.run reactions request world))) ↔
      ¬ (reactions.create = .none ∧ ∃ new raised verdict,
        start reactions request world.database = .ok (.inr new) ∧
        Admitted reactions world.database new.execution ∧
        Strikes service reactions new.revision request raised (some verdict) ∧
        Settles reactions.handlerClock reactions.handler (handlerVerdict raised)) := by
  have leaves := run_leaves service reactions request world
  generalize finalWorld (service.run reactions request world) = final at leaves ⊢
  cases leaves with
  | untouched idle =>
      rw [eventsSince, List.drop_length]
      refine iff_of_true List.Pairwise.nil ?_
      rintro ⟨_, new, _, _, starts, admitted, _⟩
      exact idle new starts admitted
  | created starts late adds =>
      rw [eventsSince, adds.trace, List.drop_left]
      exact iff_of_true (List.pairwise_singleton _ _) (by simp [late])
  | @ran new result body handler cleanup _ starts quiet ran =>
      obtain ⟨events, traced, trace⟩ := ran.traced
      have pending : ∀ event ∈ [Event.stored (executionToRecord new.execution)],
          Unfinished event := by
        intro event member record saved done
        rw [List.mem_singleton.mp member] at saved
        cases saved
        have state := (start_new starts).2.1
        rw [show new.execution.state = .finished from done] at state
        cases state
      obtain ⟨mid, admitted, _, ended, _⟩ := ran
      obtain ⟨_, _, guarded⟩ := ended.guarded
      rw [trace, ← List.singleton_append, outcomeKept_append pending,
        traced.outcomeKept_iff ended, guarded.both_iff]
      apply not_congr
      constructor
      · rintro ⟨raised, verdict, struck, kept⟩
        exact ⟨quiet, new, raised, verdict, starts, admitted, struck, kept⟩
      · rintro ⟨_, new', raised, verdict, starts', _, struck, kept⟩
        rw [starts] at starts'
        cases starts'
        exact ⟨raised, verdict, struck, kept⟩

/-- The state and the outcome that a save leaves. -/
def Event.saved? : Event → Option (ExecutionState × Option ExecutionOutcome)
  | .stored record => some (record.state, record.outcome)
  | _ => none

theorem OutcomeKept.outcomes {events : List Event} (kept : OutcomeKept events) :
    (events.filterMap Event.saved?).Pairwise fun old new => old.1 = .finished → new.2 = old.2 := by
  rw [List.pairwise_filterMap]
  refine kept.imp ?_
  intro first second keeps old wasSaved new isSaved done
  cases first with
  | stored record =>
      cases second with
      | stored record' =>
          cases wasSaved
          cases isSaved
          exact (keeps record record' rfl rfl done).outcome
      | _ => cases isSaved
  | _ => cases wasSaved

/-- The save of the result takes effect and then raises. -/
def Backup.unacknowledged : Reactions := { Backup.quiet with finish := .after Backup.unreachable }

/-- A success that is stored is overwritten by a failure. -/
theorem run_rewrites_outcome :
    ¬ OutcomeKept (eventsSince Backup.world
      (finalWorld (Backup.service.run Backup.unacknowledged Backup.request Backup.world))) := by
  intro kept
  have outcomes := kept.outcomes
  rw [show List.filterMap Event.saved? _ = [(.pending, none), (.evaluating, none), (.running, none),
    (.running, none), (.finished, some .succeeded), (.finished, some .infrastructureFailed)] by
      decide +kernel] at outcomes
  revert outcomes
  decide

end TaskControl.Runtime
