import Mathlib.Data.List.Basic

/-!
# Stable sorts

A merge sort is stable, so rows that come last and belong first can be sorted by themselves.

## Main results

* `mergeSort_congr`: a sort depends on the comparison of the members only.
* `pairwise_mergeSort_of_mem`: an order of the members sorts them.
* `mergeSort_append`: newer rows come out on top of sorted older ones.
* `takeWhile_eq_filter`: a bound cuts sorted rows at one place.
-/

namespace Argmax.Lib

variable {α : Type*} {le le' : α → α → Bool}

theorem mergeSort_congr {rows : List α} (h : ∀ a ∈ rows, ∀ b ∈ rows, le a b = le' a b) :
    rows.mergeSort le = rows.mergeSort le' := by
  have hmap := List.map_mergeSort (f := fun row : α => row) h
  simpa using hmap

/-- The order need be transitive among the members only. -/
theorem pairwise_mergeSort_of_mem {rows : List α}
    (trans : ∀ a ∈ rows, ∀ b ∈ rows, ∀ c ∈ rows, le a b = true → le b c = true → le a c = true)
    (total : ∀ a b, (le a b || le b a) = true) :
    (rows.mergeSort le).Pairwise fun a b => le a b = true := by
  have hmap := List.map_mergeSort (l := rows.attach) (r := fun a b => le a.1 b.1) (s := le)
    (f := Subtype.val) fun _ _ _ _ => rfl
  rw [List.attach_map_subtype_val] at hmap
  rw [← hmap, List.pairwise_map]
  exact List.pairwise_mergeSort (fun a b c => trans a.1 a.2 b.1 b.2 c.1 c.2)
    (fun a b => total a.1 b.1) rows.attach

/-- Rows that come before every sorted row are sorted by themselves. -/
theorem mergeSort_append (trans : ∀ a b c, le a b = true → le b c = true → le a c = true)
    (total : ∀ a b, (le a b || le b a) = true) {older newer : List α}
    (hsorted : older.Pairwise fun a b => le a b = true)
    (hbefore : ∀ a ∈ newer, ∀ b ∈ older, le b a = false) :
    (older ++ newer).mergeSort le = newer.mergeSort le ++ older := by
  induction older with
  | nil => simp
  | cons row older ih =>
    rw [List.pairwise_cons] at hsorted
    have hrest := ih hsorted.2 fun a ha b hb => hbefore a ha b (List.mem_cons_of_mem _ hb)
    obtain ⟨l₁, l₂, hsort, hsplit, hl₁⟩ :=
      List.mergeSort_cons trans total row (older ++ newer)
    have hl₂ : ∀ b ∈ l₂, le row b = true := by
      have hpairwise := List.pairwise_mergeSort trans total (row :: (older ++ newer))
      rw [hsort, List.pairwise_append, List.pairwise_cons] at hpairwise
      exact hpairwise.2.1.1
    -- The rows before which `row` may stand are `l₂`, and they are the older ones.
    have hparts : l₁ = newer.mergeSort le ∧ l₂ = older := by
      rw [hrest] at hsplit
      refine (List.append_inj' hsplit.symm ?_)
      have hcount := congrArg (List.countP (le row)) hsplit
      simp only [List.countP_append] at hcount
      have hnewer : (newer.mergeSort le).countP (le row) = 0 := by
        simp only [List.countP_eq_zero, List.mem_mergeSort]
        exact fun a ha => by simp [hbefore a ha row List.mem_cons_self]
      have hl₁' : l₁.countP (le row) = 0 := by
        rw [List.countP_eq_zero]
        exact fun b hb => by simpa using hl₁ b hb
      rw [List.countP_eq_length.mpr hl₂, List.countP_eq_length.mpr hsorted.1] at hcount
      omega
    rw [List.cons_append, hsort, hparts.1, hparts.2]

/-! ## Sorted rows -/

theorem takeWhile_eq_filter {R : α → α → Prop} {p : α → Bool} {rows : List α}
    (hsorted : rows.Pairwise R) (hp : ∀ a b, R a b → p b = true → p a = true) :
    rows.takeWhile p = rows.filter p := by
  induction rows with
  | nil => rfl
  | cons row rows ih =>
    have ⟨hrow, hrest⟩ := List.pairwise_cons.mp hsorted
    by_cases h : p row = true
    · rw [List.takeWhile_cons_of_pos h, List.filter_cons_of_pos h, ih hrest]
    · rw [List.takeWhile_cons_of_neg h, List.filter_cons_of_neg h]
      refine (List.filter_eq_nil_iff.mpr fun later hlater hlater' => ?_).symm
      exact h (hp row later (hrow later hlater) hlater')

end Argmax.Lib
