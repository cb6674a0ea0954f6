import Mathlib.Algebra.BigOperators.Group.List.Basic

/-!
# Rows that are counted up

A list of rows, one for each kind of what was counted. What is counted next goes to the first
row of its kind, or to a new one behind the others. So a sum over the rows is the sum over all
that was counted.
-/

namespace Argmax.Lib

variable {α κ ρ M : Type*}

/-- The first row of the kind is changed, or a fresh one is put behind the others and changed. -/
def upsert (same : ρ → Bool) (fresh : ρ) (f : ρ → ρ) : List ρ → List ρ
  | [] => [f fresh]
  | row :: rows => if same row then f row :: rows else row :: upsert same fresh f rows

section Sum

variable [AddCommMonoid M]

/-- One row takes up what is counted. -/
theorem sum_upsert {g : ρ → M} {d : M} {same : ρ → Bool} {fresh : ρ} {f : ρ → ρ}
    (hf : ∀ row, g (f row) = g row + d) (hfresh : g fresh = 0) (rows : List ρ) :
    ((upsert same fresh f rows).map g).sum = (rows.map g).sum + d := by
  induction rows with
  | nil => simp [upsert, hf, hfresh]
  | cons row rows ih =>
    rw [upsert]
    split
    · rw [List.map_cons, hf]
      exact add_right_comm _ _ _
    · rw [List.map_cons, List.sum_cons, ih, List.map_cons, List.sum_cons, add_assoc]

end Sum

end Argmax.Lib
