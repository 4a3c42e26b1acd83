import Mathlib

/-!
# Definitions in layers

Items that define keys at layers.  The history of a key is its items in the order in
which they are applied; where the order follows the layers and no two items define
a key at one layer, the history rises strictly, ends with the highest item, and
does not depend on how the items were given.
-/

set_option autoImplicit false

namespace Overlays

section

variable {δ κ ℓ : Type} [DecidableEq κ] [LinearOrder ℓ] (key : δ → κ) (layer : δ → ℓ)

/-- The items that define a key. -/
def history (k : κ) (items : List δ) : List δ := items.filter fun item => key item = k

/-- Two items that do not define one key at one layer. -/
def Apart (first second : δ) : Prop := key first = key second → layer first ≠ layer second

/-- The items are applied from the lowest layer up. -/
def Rising (items : List δ) : Prop := items.Pairwise fun first second => layer first ≤ layer second

variable {key layer} {k : κ} {items others : List δ} {item : δ}

theorem mem_history : item ∈ history key k items ↔ item ∈ items ∧ key item = k := by
  simp [history]

theorem history_append : history key k (items ++ others) =
    history key k items ++ history key k others := List.filter_append ..

theorem history_increasing (rising : Rising layer items)
    (apart : items.Pairwise (Apart key layer)) :
    (history key k items).Pairwise fun first second => layer first < layer second := by
  have both := (rising.and apart).filter fun item => decide (key item = k)
  refine both.imp_of_mem fun {first second} inFirst inSecond ordered => ?_
  have one := (mem_history.mp inFirst).2
  have other := (mem_history.mp inSecond).2
  exact lt_of_le_of_ne ordered.1 (ordered.2 (one.trans other.symm))

/-- The last item of the history is above all others. -/
theorem history_last (rising : Rising layer items) (apart : items.Pairwise (Apart key layer))
    {earlier : List δ} (shape : history key k items = earlier ++ [item]) :
    ∀ other ∈ earlier, layer other < layer item := by
  have increasing := history_increasing (k := k) rising apart
  rw [shape, List.pairwise_append] at increasing
  exact fun other member => increasing.2.2 other member item List.mem_cons_self

/-- The history of a key does not depend on the order in which the items are given. -/
theorem history_perm (same : items.Perm others) (rising : Rising layer items)
    (rising' : Rising layer others) (apart : items.Pairwise (Apart key layer)) :
    history key k items = history key k others := by
  have apart' : others.Pairwise (Apart key layer) := by
    refine (same.pairwise_iff fun {first second} clear same => ?_).mp apart
    exact (clear same.symm).symm
  refine (same.filter _).eq_of_pairwise (fun first second _ _ less greater => ?_)
    (history_increasing rising apart) (history_increasing rising' apart')
  exact absurd greater (lt_asymm less)

end

end Overlays
