import TaskControl.Foundation.Effects

/-!
# The next elements of a set

What it means that a moment is followed next by an element of a set of moments, and that a
list holds the first elements after a moment; and that asking for the next one again and
again lists them, when each answer is right.
-/

set_option autoImplicit false

namespace Occurrences

variable {α ε : Type} [LinearOrder α]

/-- The least element of the set that is strictly later than the moment. -/
def IsNext (occurs : Set α) (moment next : α) : Prop :=
  IsLeast {t | t ∈ occurs ∧ moment < t} next

/-- The list holds the first elements of the set after the moment, in order. -/
structure Firsts (occurs : Set α) (moment : α) (found : List α) : Prop where
  rising : (moment :: found).Pairwise (· < ·)
  within : ∀ t ∈ found, t ∈ occurs
  complete : ∀ t ∈ occurs, moment < t → t ∉ found → ∀ other ∈ found, other < t

theorem IsNext.unique {occurs : Set α} {moment first second : α} (one : IsNext occurs moment first)
    (other : IsNext occurs moment second) : first = second :=
  IsLeast.unique one other

/-- Until the next element is reached it stays the next one. -/
theorem IsNext.stable {occurs : Set α} {moment later next : α} (isNext : IsNext occurs moment next)
    (notBefore : moment ≤ later) (before : later < next) : IsNext occurs later next := by
  refine ⟨⟨isNext.1.1, before⟩, ?_⟩
  rintro t ⟨inSet, after⟩
  exact isNext.2 ⟨inSet, lt_of_le_of_lt notBefore after⟩

theorem Firsts.nil (occurs : Set α) (moment : α) : Firsts occurs moment [] := by
  constructor <;> simp

theorem Firsts.cons {occurs : Set α} {moment next : α} {rest : List α}
    (isNext : IsNext occurs moment next) (firsts : Firsts occurs next rest) :
    Firsts occurs moment (next :: rest) := by
  obtain ⟨laters, rising⟩ := List.pairwise_cons.mp firsts.rising
  constructor
  · refine List.pairwise_cons.mpr ⟨?_, firsts.rising⟩
    intro t found
    rcases List.mem_cons.mp found with rfl | later
    · exact isNext.1.2
    · exact lt_trans isNext.1.2 (laters t later)
  · intro t found
    rcases List.mem_cons.mp found with rfl | later
    · exact isNext.1.1
    · exact firsts.within t later
  · intro t inSet after missing other found
    obtain ⟨apart, missing⟩ := not_or.mp (mt List.mem_cons.mpr missing)
    have beyond : next < t := lt_of_le_of_ne (isNext.2 ⟨inSet, after⟩) (Ne.symm apart)
    rcases List.mem_cons.mp found with rfl | later
    · exact beyond
    · exact firsts.complete t inSet beyond missing other later

theorem Firsts.uncons {occurs : Set α} {moment next : α} {rest : List α}
    (firsts : Firsts occurs moment (next :: rest)) :
    IsNext occurs moment next ∧ Firsts occurs next rest := by
  obtain ⟨after, rising⟩ := List.pairwise_cons.mp firsts.rising
  obtain ⟨laters, _⟩ := List.pairwise_cons.mp rising
  refine ⟨⟨⟨firsts.within next List.mem_cons_self, after next List.mem_cons_self⟩, ?_⟩, ?_⟩
  · rintro t ⟨inSet, beyond⟩
    by_cases found : t ∈ next :: rest
    · rcases List.mem_cons.mp found with rfl | later
      · exact le_refl t
      · exact le_of_lt (laters t later)
    · exact le_of_lt (firsts.complete t inSet beyond found next List.mem_cons_self)
  · constructor
    · exact rising
    · exact fun t later => firsts.within t (List.mem_cons_of_mem _ later)
    · intro t inSet beyond missing other later
      have absent : t ∉ next :: rest := by
        intro found
        rcases List.mem_cons.mp found with rfl | again
        · exact lt_irrefl t beyond
        · exact missing again
      exact firsts.complete t inSet (lt_trans (after next List.mem_cons_self) beyond) absent other
        (List.mem_cons_of_mem _ later)

theorem Firsts.unique {occurs : Set α} {moment : α} {one other : List α}
    (firsts : Firsts occurs moment one) (firsts' : Firsts occurs moment other)
    (same : one.length = other.length) : one = other := by
  induction one generalizing moment other with
  | nil => exact (List.length_eq_zero_iff.mp same.symm).symm
  | cons t rest ih =>
      cases other with
      | nil => cases same
      | cons u rest' =>
          obtain ⟨isNext, later⟩ := firsts.uncons
          obtain ⟨isNext', later'⟩ := firsts'.uncons
          obtain rfl := isNext.unique isNext'
          rw [ih later later' (Nat.succ.inj same)]

/-- Asks for the next element again and again, from each answer on. -/
def collect (next : α → Except ε (Option α)) : Nat → α → Except ε (List α)
  | 0, _ => return []
  | count + 1, cursor => do
      match ← next cursor with
      | none => return []
      | some found => return found :: (← collect next count found)

/-- Where every answer is right, the first elements are listed. -/
theorem collect_firsts {next : α → Except ε (Option α)} {occurs : Set α} {found : List α}
    {moment : α} (firsts : Firsts occurs moment found)
    (right : ∀ cursor ∈ (moment :: found).dropLast, ∀ t, IsNext occurs cursor t →
      t ∈ found → next cursor = .ok (some t)) :
    collect next found.length moment = .ok found := by
  induction found generalizing moment with
  | nil => rfl
  | cons t rest ih =>
      obtain ⟨isNext, later⟩ := firsts.uncons
      have answer := right moment (by simp) t isNext List.mem_cons_self
      have others := ih later fun cursor asked u nextOne inRest =>
        right cursor (List.mem_cons_of_mem _ asked) u nextOne (List.mem_cons_of_mem _ inRest)
      rw [List.length_cons, collect, answer]
      simp only [bind, Except.bind]
      rw [others]
      rfl

/-! ## Searching in order -/

/-- Looks at one candidate after the other, from the number `k` on, until one is later than the
moment. -/
def search (look : Nat → Except ε (Option α)) (moment : α) : Nat → Nat → Except ε (Option α)
  | 0, _ => return none
  | rounds + 1, k => do
      match ← look k with
      | none => search look moment rounds (k + 1)
      | some t =>
          if moment < t then return some t else search look moment rounds (k + 1)

/-- The candidate is there and is later than the moment. -/
def Hit (look : Nat → Except ε (Option α)) (moment : α) (k : Nat) : Prop :=
  ∃ t, look k = .ok (some t) ∧ moment < t

/-- The candidate fails to be computed. -/
def Fails (look : Nat → Except ε (Option α)) (k : Nat) : Prop := ∃ e, look k = .error e

theorem search_step {look : Nat → Except ε (Option α)} {moment : α} (rounds : Nat) {k : Nat}
    (hits : ¬ Hit look moment k) (fails : ¬ Fails look k) :
    search look moment (rounds + 1) k = search look moment rounds (k + 1) := by
  rw [search]
  cases found : look k with
  | error e => exact absurd ⟨e, found⟩ fails
  | ok candidate =>
      cases candidate with
      | none => rfl
      | some t =>
          have early : ¬ moment < t := fun later => hits ⟨t, found, later⟩
          simp only [bind, Except.bind, if_neg early]

/-- The search returns the first candidate that is later than the moment, if none before it
fails. -/
theorem search_eq_some {look : Nat → Except ε (Option α)} {moment t : α} {rounds k : Nat} :
    search look moment rounds k = .ok (some t) ↔
      ∃ i, k ≤ i ∧ i < k + rounds ∧ look i = .ok (some t) ∧ moment < t ∧
        ∀ j, k ≤ j → j < i → ¬ Hit look moment j ∧ ¬ Fails look j := by
  induction rounds generalizing k with
  | zero =>
      constructor
      · intro found
        cases found
      · rintro ⟨i, low, high, _⟩
        omega
  | succ rounds ih =>
      by_cases fails : Fails look k
      · obtain ⟨e, failed⟩ := fails
        constructor
        · intro found
          rw [search, failed] at found
          cases found
        · rintro ⟨i, low, _, found, _, clear⟩
          rcases Nat.eq_or_lt_of_le low with rfl | beyond
          · rw [failed] at found
            cases found
          · exact absurd ⟨e, failed⟩ (clear k (Nat.le_refl k) beyond).2
      · by_cases hits : Hit look moment k
        · obtain ⟨s, found, later⟩ := hits
          have result : search look moment (rounds + 1) k = .ok (some s) := by
            rw [search, found]
            simp only [bind, Except.bind, if_pos later]
            rfl
          rw [result]
          constructor
          · intro same
            obtain rfl := Option.some.inj (Except.ok.inj same)
            exact ⟨k, Nat.le_refl k, by omega, found, later, fun j low high => by omega⟩
          · rintro ⟨i, low, _, found', _, clear⟩
            rcases Nat.eq_or_lt_of_le low with rfl | beyond
            · exact found.symm.trans found'
            · exact absurd ⟨s, found, later⟩ (clear k (Nat.le_refl k) beyond).1
        · rw [search_step rounds hits fails, ih]
          constructor
          · rintro ⟨i, low, high, found, later, clear⟩
            refine ⟨i, by omega, by omega, found, later, fun j from_ before => ?_⟩
            rcases Nat.eq_or_lt_of_le from_ with rfl | beyond
            · exact ⟨hits, fails⟩
            · exact clear j beyond before
          · rintro ⟨i, low, high, found, later, clear⟩
            rcases Nat.eq_or_lt_of_le low with rfl | beyond
            · exact absurd ⟨t, found, later⟩ hits
            · exact ⟨i, beyond, by omega, found, later, fun j from_ before =>
                clear j (by omega) before⟩

end Occurrences
