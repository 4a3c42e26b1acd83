import Mathlib

/-!
# Bringing a journal in

Records are brought into a store under a key of their own: one whose key is there
already is left out.  A journal that is cleared only once its records are stored can
be brought in again after any crash.
-/

set_option autoImplicit false

namespace Ingestion

variable {β κ : Type} [DecidableEq κ] (key : β → κ)

/-- The store after the items, each under a key of its own. -/
def absorb (store : List β) : List β → List β
  | [] => store
  | item :: rest =>
      if key item ∈ store.map key then absorb store rest else absorb (store ++ [item]) rest

variable {key}

theorem absorb_known {store : List β} {item : β} (known : key item ∈ store.map key)
    (rest : List β) : absorb key store (item :: rest) = absorb key store rest := by
  rw [absorb, if_pos known]

theorem absorb_new {store : List β} {item : β} (new : key item ∉ store.map key) (rest : List β) :
    absorb key store (item :: rest) = absorb key (store ++ [item]) rest := by
  rw [absorb, if_neg new]

/-- What is stored stays where it is. -/
theorem prefix_absorb (store items : List β) : store <+: absorb key store items := by
  induction items generalizing store with
  | nil => exact List.prefix_refl store
  | cons item rest ih =>
      by_cases known : key item ∈ store.map key
      · rw [absorb_known known]
        exact ih store
      · rw [absorb_new known]
        exact (List.prefix_append store [item]).trans (ih _)

theorem nodup_absorb {store : List β} (nodup : (store.map key).Nodup) (items : List β) :
    ((absorb key store items).map key).Nodup := by
  induction items generalizing store with
  | nil => exact nodup
  | cons item rest ih =>
      by_cases known : key item ∈ store.map key
      · rw [absorb_known known]
        exact ih nodup
      · rw [absorb_new known]
        apply ih
        rw [List.map_append, List.map_singleton, List.nodup_append]
        refine ⟨nodup, List.nodup_singleton _, ?_⟩
        intro held member new last same
        rw [List.mem_singleton.mp last] at same
        exact known (same ▸ member)

theorem mem_absorb {store items : List β} {record : β} (member : record ∈ absorb key store items) :
    record ∈ store ∨ record ∈ items := by
  induction items generalizing store with
  | nil => exact .inl member
  | cons item rest ih =>
      by_cases known : key item ∈ store.map key
      · rw [absorb_known known] at member
        exact (ih member).imp_right (List.mem_cons_of_mem item)
      · rw [absorb_new known] at member
        rcases ih member with held | later
        · rcases List.mem_append.mp held with old | last
          · exact .inl old
          · exact .inr (List.mem_singleton.mp last ▸ List.mem_cons_self)
        · exact .inr (List.mem_cons_of_mem item later)

/-- Every item ends up stored under its key. -/
theorem mem_keys_absorb (store items : List β) {item : β} (member : item ∈ items) :
    key item ∈ (absorb key store items).map key := by
  induction items generalizing store with
  | nil => cases member
  | cons first rest ih =>
      rcases List.mem_cons.mp member with rfl | later
      · by_cases known : key item ∈ store.map key
        · rw [absorb_known known]
          exact ((prefix_absorb store rest).map key).subset known
        · rw [absorb_new known]
          apply ((prefix_absorb (store ++ [item]) rest).map key).subset
          simp
      · by_cases known : key first ∈ store.map key
        · rw [absorb_known known]
          exact ih store later
        · rw [absorb_new known]
          exact ih _ later

/-- Items that are all known change nothing. -/
theorem absorb_eq_self {store items : List β} (known : ∀ item ∈ items, key item ∈ store.map key) :
    absorb key store items = store := by
  induction items with
  | nil => rfl
  | cons item rest ih =>
      rw [absorb_known (known item List.mem_cons_self)]
      exact ih fun other member => known other (List.mem_cons_of_mem item member)

/-- Bringing a journal in twice is bringing it in once. -/
theorem absorb_absorb (store items : List β) :
    absorb key (absorb key store items) items = absorb key store items :=
  absorb_eq_self fun _ member => mem_keys_absorb store items member

/-- Under keys that differ, one record has a key that is there. -/
theorem countP_key {store : List β} (nodup : (store.map key).Nodup) {k : κ}
    (member : k ∈ store.map key) : store.countP (fun record => key record = k) = 1 := by
  have once := List.count_eq_one_of_mem nodup member
  rw [List.count, List.countP_map] at once
  rw [← once]
  congr 1

/-! ## Crashes -/

structure Ledger (β : Type) where
  store : List β
  journal : List β

variable (key) in
/-- One attempt to bring the journal in: lost before its commit, cut off between the commit and
the clearing of the journal, or gone through. -/
inductive Attempt : Ledger β → Ledger β → Prop
  | lost (ledger : Ledger β) : Attempt ledger ledger
  | stored (ledger : Ledger β) :
      Attempt ledger ⟨absorb key ledger.store ledger.journal, ledger.journal⟩
  | cleared (ledger : Ledger β) : Attempt ledger ⟨absorb key ledger.store ledger.journal, []⟩

variable (key) in
/-- The three states in which any number of attempts leaves a ledger. -/
inductive Outcome (start : Ledger β) : Ledger β → Prop
  | untouched : Outcome start start
  | stored : Outcome start ⟨absorb key start.store start.journal, start.journal⟩
  | cleared : Outcome start ⟨absorb key start.store start.journal, []⟩

theorem Outcome.step {start ledger next : Ledger β} (outcome : Outcome key start ledger)
    (attempt : Attempt key ledger next) : Outcome key start next := by
  cases outcome with
  | untouched =>
      cases attempt with
      | lost => exact .untouched
      | stored => exact .stored
      | cleared => exact .cleared
  | stored =>
      cases attempt with
      | lost => exact .stored
      | stored =>
          rw [absorb_absorb]
          exact .stored
      | cleared =>
          rw [absorb_absorb]
          exact .cleared
  | cleared => cases attempt <;> exact .cleared

/-- Wherever the attempts have got to, the journal brought in once more leads to the same store. -/
theorem Outcome.absorbed {start ledger : Ledger β} (outcome : Outcome key start ledger) :
    absorb key ledger.store ledger.journal = absorb key start.store start.journal := by
  cases outcome with
  | untouched => rfl
  | stored => exact absorb_absorb start.store start.journal
  | cleared => rfl

end Ingestion
