import Mathlib.Logic.Relation

/-!
# Transition systems

A system is a predicate of initial states and a step relation.  `Reachable` are
the states that steps lead to; an invariant holds in each of them, and a step
relation restricted by a guard describes the runs all of whose steps meet it.
-/

set_option autoImplicit false

namespace Transition

variable {σ τ : Type*}

def Reachable (initial : σ → Prop) (step : σ → σ → Prop) (s : σ) : Prop :=
  ∃ start, initial start ∧ Relation.ReflTransGen step start s

/-- The steps that meet a condition. -/
def Guarded (guard step : σ → σ → Prop) (s s' : σ) : Prop := guard s s' ∧ step s s'

section

variable {initial : σ → Prop} {step : σ → σ → Prop}

theorem Reachable.start {s : σ} (starts : initial s) : Reachable initial step s :=
  ⟨s, starts, .refl⟩

theorem Reachable.next {s s' : σ} (reached : Reachable initial step s) (steps : step s s') :
    Reachable initial step s' := by
  obtain ⟨start, starts, run⟩ := reached
  exact ⟨start, starts, run.tail steps⟩

/-- An invariant, where the step may use that its first state is reachable. -/
theorem Reachable.invariant_of (invariant : σ → Prop)
    (starts : ∀ s, initial s → invariant s)
    (keeps : ∀ s s', Reachable initial step s → invariant s → step s s' → invariant s')
    {s : σ} (reached : Reachable initial step s) : invariant s := by
  obtain ⟨start, started, run⟩ := reached
  induction run with
  | refl => exact starts start started
  | tail before last ih => exact keeps _ _ ⟨start, started, before⟩ ih last

theorem Reachable.invariant (invariant : σ → Prop)
    (starts : ∀ s, initial s → invariant s)
    (keeps : ∀ s s', invariant s → step s s' → invariant s')
    {s : σ} (reached : Reachable initial step s) : invariant s :=
  reached.invariant_of invariant starts fun s s' _ holds steps => keeps s s' holds steps

/-- A map that takes steps to steps, or to no step at all, takes reachable states to
reachable states. -/
theorem Reachable.map {initial' : τ → Prop} {step' : τ → τ → Prop} (project : σ → τ)
    (starts : ∀ s, initial s → initial' (project s))
    (simulates : ∀ s s', step s s' → project s = project s' ∨ step' (project s) (project s'))
    {s : σ} (reached : Reachable initial step s) : Reachable initial' step' (project s) := by
  refine reached.invariant (fun s => Reachable initial' step' (project s))
    (fun s started => .start (starts s started)) ?_
  intro s s' earlier steps
  rcases simulates s s' steps with same | moved
  · rwa [← same]
  · exact earlier.next moved

end

end Transition
