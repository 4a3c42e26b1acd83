import Mathlib

/-!
# Tables sorted by key

A finite map kept as its entries in increasing order of key, so that listing
the keys needs no sorting and two tables with the same lookups are equal.
-/

set_option autoImplicit false

universe u v

structure SortedTable (κ : Type u) (α : Type v) [LinearOrder κ] where
  entries : List (κ × α)
  sorted : (entries.map Prod.fst).Pairwise (· < ·)

namespace SortedTable

variable {κ : Type u} {α : Type v} [LinearOrder κ]

def empty : SortedTable κ α := ⟨[], List.Pairwise.nil⟩

def lookup (entries : List (κ × α)) (key : κ) : Option α :=
  (entries.find? fun entry => entry.1 = key).map Prod.snd

def find (table : SortedTable κ α) (key : κ) : Option α := lookup table.entries key

/-- The keys, in increasing order. -/
def names (table : SortedTable κ α) : List κ := table.entries.map Prod.fst

def insertInto (key : κ) (value : α) : List (κ × α) → List (κ × α)
  | [] => [(key, value)]
  | (other, held) :: rest =>
      if key < other then (key, value) :: (other, held) :: rest
      else if key = other then (key, value) :: rest
      else (other, held) :: insertInto key value rest

theorem mem_insertInto {key other : κ} {value : α} {entries : List (κ × α)}
    (member : other ∈ (insertInto key value entries).map Prod.fst) :
    other = key ∨ other ∈ entries.map Prod.fst := by
  induction entries with
  | nil => simpa [insertInto] using member
  | cons entry rest ih =>
      obtain ⟨first, held⟩ := entry
      unfold insertInto at member
      split at member
      · simpa using member
      · split at member
        · rename_i same
          subst same
          simp only [List.map_cons, List.mem_cons] at member ⊢
          tauto
        · simp only [List.map_cons, List.mem_cons] at member ⊢
          rcases member with here | later
          · exact Or.inr (Or.inl here)
          · rcases ih later with same | inRest
            · exact Or.inl same
            · exact Or.inr (Or.inr inRest)

theorem insertInto_sorted (key : κ) (value : α) {entries : List (κ × α)}
    (sorted : (entries.map Prod.fst).Pairwise (· < ·)) :
    ((insertInto key value entries).map Prod.fst).Pairwise (· < ·) := by
  induction entries with
  | nil => simp [insertInto]
  | cons entry rest ih =>
      obtain ⟨first, held⟩ := entry
      rw [List.map_cons, List.pairwise_cons] at sorted
      obtain ⟨least, later⟩ := sorted
      unfold insertInto
      split
      · rename_i before
        rw [List.map_cons, List.pairwise_cons, List.map_cons, List.pairwise_cons]
        refine ⟨?_, least, later⟩
        intro other member
        rcases List.mem_cons.mp member with rfl | inRest
        · exact before
        · exact before.trans (least other inRest)
      · split
        · rename_i same
          subst same
          exact List.pairwise_cons.mpr ⟨least, later⟩
        · rename_i notBefore differs
          have after : first < key := lt_of_le_of_ne (not_lt.mp notBefore) (Ne.symm differs)
          rw [List.map_cons, List.pairwise_cons]
          refine ⟨?_, ih later⟩
          intro other member
          rcases mem_insertInto member with rfl | inRest
          · exact after
          · exact least other inRest

def insert (table : SortedTable κ α) (key : κ) (value : α) : SortedTable κ α :=
  ⟨insertInto key value table.entries, insertInto_sorted key value table.sorted⟩

def erase (table : SortedTable κ α) (key : κ) : SortedTable κ α :=
  ⟨table.entries.filter fun entry => entry.1 ≠ key,
    table.sorted.sublist (List.filter_sublist.map _)⟩

/-! ## Lookups -/

theorem lookup_cons (first key : κ) (held : α) (rest : List (κ × α)) :
    lookup ((first, held) :: rest) key = if first = key then some held else lookup rest key := by
  unfold lookup
  by_cases same : first = key <;> simp [same]

theorem lookup_insertInto (key other : κ) (value : α) (entries : List (κ × α)) :
    lookup (insertInto key value entries) other =
      if key = other then some value else lookup entries other := by
  induction entries with
  | nil => simp [insertInto, lookup_cons]
  | cons entry rest ih =>
      obtain ⟨first, held⟩ := entry
      unfold insertInto
      split
      · rw [lookup_cons]
      · split
        · rename_i same
          subst same
          rw [lookup_cons, lookup_cons]
          split <;> rfl
        · rename_i differs
          rw [lookup_cons, lookup_cons, ih]
          by_cases here : first = other
          · have apart : ¬ key = other := fun same => differs (same.trans here.symm)
            simp [here, apart]
          · simp [here]

theorem find_insert (table : SortedTable κ α) (key other : κ) (value : α) :
    (table.insert key value).find other = if key = other then some value else table.find other :=
  lookup_insertInto key other value table.entries

theorem lookup_filter (key other : κ) (entries : List (κ × α)) :
    lookup (entries.filter fun entry => entry.1 ≠ key) other =
      if key = other then none else lookup entries other := by
  induction entries with
  | nil => simp [lookup]
  | cons entry rest ih =>
      obtain ⟨first, held⟩ := entry
      by_cases here : first = key
      · subst here
        rw [List.filter_cons_of_neg (by simp), ih, lookup_cons]
        split <;> rfl
      · rw [List.filter_cons_of_pos (by simpa using here), lookup_cons, lookup_cons, ih]
        by_cases same : first = other
        · have apart : ¬ key = other := fun equal => here (same.trans equal.symm)
          simp [same, apart]
        · simp [same]

theorem find_erase (table : SortedTable κ α) (key other : κ) :
    (table.erase key).find other = if key = other then none else table.find other :=
  lookup_filter key other table.entries

theorem lookup_eq_none {entries : List (κ × α)} {key : κ}
    (absent : key ∉ entries.map Prod.fst) : lookup entries key = none := by
  unfold lookup
  rw [List.find?_eq_none.mpr]
  · rfl
  · intro entry member
    have differs : entry.1 ≠ key := fun same => absent (same ▸ List.mem_map_of_mem member)
    simpa using differs

theorem lookup_isSome {entries : List (κ × α)} {key : κ} (present : key ∈ entries.map Prod.fst) :
    ∃ value, lookup entries key = some value := by
  induction entries with
  | nil => simp at present
  | cons entry rest ih =>
      obtain ⟨first, held⟩ := entry
      rw [lookup_cons]
      by_cases here : first = key
      · exact ⟨held, if_pos here⟩
      · rw [if_neg here]
        rcases List.mem_cons.mp present with same | inRest
        · exact absurd same.symm here
        · exact ih inRest

theorem mem_names {table : SortedTable κ α} {key : κ} :
    key ∈ table.names ↔ ∃ value, table.find key = some value := by
  constructor
  · exact lookup_isSome
  · rintro ⟨value, found⟩
    by_contra absent
    rw [find, lookup_eq_none absent] at found
    cases found

theorem entries_eq_of_lookup {first second : List (κ × α)}
    (firstSorted : (first.map Prod.fst).Pairwise (· < ·))
    (secondSorted : (second.map Prod.fst).Pairwise (· < ·))
    (same : ∀ key, lookup first key = lookup second key) : first = second := by
  induction first generalizing second with
  | nil =>
      cases second with
      | nil => rfl
      | cons entry rest =>
          have found := same entry.1
          rw [show entry = (entry.1, entry.2) from rfl, lookup_cons, if_pos rfl] at found
          cases found
  | cons entry rest ih =>
      obtain ⟨key, value⟩ := entry
      cases second with
      | nil =>
          have found := same key
          rw [lookup_cons, if_pos rfl] at found
          cases found
      | cons entry' rest' =>
          obtain ⟨key', value'⟩ := entry'
          rw [List.map_cons, List.pairwise_cons] at firstSorted secondSorted
          obtain ⟨least, later⟩ := firstSorted
          obtain ⟨least', later'⟩ := secondSorted
          have absent : key ∉ rest.map Prod.fst := fun member => lt_irrefl _ (least key member)
          have absent' : key' ∉ rest'.map Prod.fst := fun member => lt_irrefl _ (least' key' member)
          -- each head is found in the other list, so neither can be the smaller one
          have keys : key = key' := by
            by_contra differs
            have here := same key
            have there := same key'
            rw [lookup_cons, if_pos rfl, lookup_cons, if_neg (Ne.symm differs)] at here
            rw [lookup_cons, if_neg differs, lookup_cons, if_pos rfl] at there
            have inRest' : key ∈ rest'.map Prod.fst := by
              by_contra missing
              rw [lookup_eq_none missing] at here
              cases here
            have inRest : key' ∈ rest.map Prod.fst := by
              by_contra missing
              rw [lookup_eq_none missing] at there
              cases there
            exact lt_asymm (least key' inRest) (least' key inRest')
          subst keys
          have values : value = value' := by
            have found := same key
            rw [lookup_cons, if_pos rfl, lookup_cons, if_pos rfl] at found
            exact Option.some.inj found
          have tails : ∀ other, lookup rest other = lookup rest' other := by
            intro other
            by_cases here : key = other
            · subst here
              rw [lookup_eq_none absent, lookup_eq_none absent']
            · have found := same other
              rwa [lookup_cons, if_neg here, lookup_cons, if_neg here] at found
          rw [values, ih later later' tails]

theorem ext_find {first second : SortedTable κ α} (same : ∀ key, first.find key = second.find key) :
    first = second := by
  have entries := entries_eq_of_lookup first.sorted second.sorted same
  cases first
  cases second
  simp_all

end SortedTable
