import Mathlib

/-!
# Sequences of calls

Calls that may be refused, made one after the other on a value that each of them
replaces.  A relation between the values before and after a call that has an exact
condition for each call has that condition, call by call, for a whole sequence.
-/

set_option autoImplicit false

namespace Calls

variable {σ κ ε : Type}

/-- The values after each call of a sequence, all of which must succeed. -/
def perform (apply : σ → κ → Except ε σ) : σ → List κ → Except ε (List σ)
  | _, [] => .ok []
  | s, call :: rest => do
      let next ← apply s call
      let later ← perform apply next rest
      return next :: later

variable {apply : σ → κ → Except ε σ}

theorem perform_cons {s : σ} {call : κ} {rest : List κ} {history : List σ}
    (ran : perform apply s (call :: rest) = .ok history) :
    ∃ next later, apply s call = .ok next ∧ perform apply next rest = .ok later ∧
      history = next :: later := by
  unfold perform at ran
  cases first : apply s call with
  | error e =>
      rw [first] at ran
      cases ran
  | ok next =>
      rw [first] at ran
      cases others : perform apply next rest with
      | error e =>
          change (perform apply next rest >>= _) = _ at ran
          rw [others] at ran
          cases ran
      | ok later =>
          change (perform apply next rest >>= _) = _ at ran
          rw [others] at ran
          cases ran
          exact ⟨next, later, rfl, others, rfl⟩

theorem perform_step {s next : σ} {call : κ} {rest : List κ} {later : List σ}
    (first : apply s call = .ok next) (others : perform apply next rest = .ok later) :
    perform apply s (call :: rest) = .ok (next :: later) := by
  rw [perform, first]
  change (perform apply next rest >>= _) = _
  rw [others]
  rfl

/-- A relation that each call establishes exactly under its condition, where the earlier
calls have established an invariant. -/
theorem isChain_iff (invariant : σ → Prop) {relation : σ → σ → Prop} {condition : σ → κ → Prop}
    (exact_ : ∀ s call s', invariant s → apply s call = .ok s' →
      (relation s s' ↔ condition s call))
    (keeps : ∀ s call s', invariant s → apply s call = .ok s' → relation s s' → invariant s')
    (calls : List κ) :
    ∀ {s : σ} {history : List σ}, invariant s → perform apply s calls = .ok history →
      ((s :: history).IsChain relation ↔
        ∀ made ∈ (s :: history).zip calls, condition made.1 made.2) := by
  induction calls with
  | nil =>
      intro s history _ ran
      cases ran
      simp
  | cons call rest ih =>
      intro s history holds ran
      obtain ⟨next, later, first, others, rfl⟩ := perform_cons ran
      have step := exact_ s call next holds first
      rw [List.isChain_cons_cons, List.zip_cons_cons, List.forall_mem_cons, step]
      apply and_congr_right
      intro met
      exact ih (keeps s call next holds first (step.mpr met)) others

/-- What the invariant and the relation say of each value and of each pair in a row, they say of
the whole history. -/
theorem isChain_and_iff (invariant : σ → Prop) (relation : σ → σ → Prop) {s : σ}
    (start : invariant s) (history : List σ) :
    (s :: history).IsChain (fun earlier later => invariant later ∧ relation earlier later) ↔
      (∀ value ∈ s :: history, invariant value) ∧ (s :: history).IsChain relation := by
  induction history generalizing s with
  | nil => simp [start]
  | cons next rest ih =>
      rw [List.isChain_cons_cons, List.isChain_cons_cons, List.forall_mem_cons]
      constructor
      · rintro ⟨⟨holds, related⟩, chain⟩
        have later := (ih holds).mp chain
        exact ⟨⟨start, later.1⟩, related, later.2⟩
      · rintro ⟨⟨_, all⟩, related, chain⟩
        have holds := all next List.mem_cons_self
        exact ⟨⟨holds, related⟩, (ih holds).mpr ⟨all, chain⟩⟩

/-- Where every call meets a guard under which it keeps an invariant, the invariant holds of every
value. -/
theorem perform_guarded (invariant : σ → Prop) {guard : σ → κ → Prop}
    (keeps : ∀ s call s', invariant s → guard s call → apply s call = .ok s' → invariant s')
    (calls : List κ) :
    ∀ {s : σ} {history : List σ}, invariant s → perform apply s calls = .ok history →
      (∀ made ∈ (s :: history).zip calls, guard made.1 made.2) →
      ∀ value ∈ s :: history, invariant value := by
  induction calls with
  | nil =>
      intro s history holds ran _
      cases ran
      simpa using holds
  | cons call rest ih =>
      intro s history holds ran met
      obtain ⟨next, later, first, others, rfl⟩ := perform_cons ran
      rw [List.zip_cons_cons, List.forall_mem_cons] at met
      have all := ih (keeps s call next holds met.1 first) others met.2
      exact List.forall_mem_cons.mpr ⟨holds, all⟩

/-! ## Calls that leave the value when they fail -/

/-- What each call does to a value that the invariant holds of, a sequence of calls does. -/
theorem foldl_related {make : σ → κ → σ} (invariant : σ → Prop) {relation : σ → σ → Prop}
    (same : ∀ s, relation s s)
    (trans_ : ∀ first second third, relation first second → relation second third →
      relation first third)
    (calls : List κ)
    (keeps : ∀ s, invariant s → ∀ call ∈ calls,
      invariant (make s call) ∧ relation s (make s call))
    {s : σ} (start : invariant s) :
    invariant (calls.foldl make s) ∧ relation s (calls.foldl make s) := by
  induction calls generalizing s with
  | nil => exact ⟨start, same s⟩
  | cons call rest ih =>
      obtain ⟨holds, first⟩ := keeps s start call List.mem_cons_self
      have later := ih (fun s holds call member => keeps s holds call (List.mem_cons_of_mem _ member))
        holds
      exact ⟨later.1, trans_ _ _ _ first later.2⟩

end Calls
