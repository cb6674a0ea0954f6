import Mathlib.Data.Finset.Card
import Mathlib.Algebra.BigOperators.Group.List.Basic
import Mathlib.Algebra.GroupWithZero.Nat

/-!
# Sets that are counted one by one

The sizes of several finite sets add up to that of their union just when no two of them share
an element.
-/

namespace Argmax.Lib

variable {α : Type*} [DecidableEq α]

/-- The union of several sets. -/
def unionAll (sets : List (Finset α)) : Finset α := sets.foldr (· ∪ ·) ∅

@[simp] theorem unionAll_nil : unionAll ([] : List (Finset α)) = ∅ := rfl

@[simp] theorem unionAll_cons (s : Finset α) (sets : List (Finset α)) :
    unionAll (s :: sets) = s ∪ unionAll sets := rfl

@[simp] theorem mem_unionAll {a : α} {sets : List (Finset α)} :
    a ∈ unionAll sets ↔ ∃ s ∈ sets, a ∈ s := by
  induction sets with
  | nil => simp
  | cons s sets ih => simp [ih]

theorem disjoint_unionAll {s : Finset α} {sets : List (Finset α)} :
    Disjoint s (unionAll sets) ↔ ∀ t ∈ sets, Disjoint s t := by
  induction sets with
  | nil => simp
  | cons t sets ih => simp [ih]

theorem card_unionAll_le (sets : List (Finset α)) :
    (unionAll sets).card ≤ (sets.map Finset.card).sum := by
  induction sets with
  | nil => simp
  | cons s sets ih =>
    rw [unionAll_cons, List.map_cons, List.sum_cons]
    have hunion := Finset.card_union_le s (unionAll sets)
    omega

theorem sum_card_eq_card_union_iff (sets : List (Finset α)) :
    (sets.map Finset.card).sum = (unionAll sets).card ↔ sets.Pairwise Disjoint := by
  induction sets with
  | nil => simp
  | cons s sets ih =>
    have hrest := card_unionAll_le sets
    have hunion := Finset.card_union_le s (unionAll sets)
    rw [List.pairwise_cons, ← disjoint_unionAll, ← ih, ← Finset.card_union_eq_card_add_card,
      unionAll_cons, List.map_cons, List.sum_cons]
    omega

end Argmax.Lib
