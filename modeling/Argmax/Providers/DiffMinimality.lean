import Argmax.Lib.CommonSubsequence
import Argmax.Providers.UnifiedDiffPatch

/-!
# Minimal diffs

The table of `match_middle` holds how many lines the ends of two middles have in common at most,
so its walk keeps as many lines as can be kept. What both texts start and end with is kept, and
keeping it costs nothing.

## Main results

* `cell_commonTable`: the table.
* `count_matchLoop`: the walk.
* `minimal_diff`: the edit script keeps a longest common subsequence, and has the fewest changes.
-/

namespace Argmax.Providers.UnifiedDiff

open Argmax.Lib

/-! ## The table -/

/-- A loop that counts down to `0`. -/
theorem foldl_range_reverse {β : Type*} {f : β → ℕ → β} {P : ℕ → β → Prop} {n : ℕ} {b : β}
    (hstart : P n b) (hstep : ∀ k b, k < n → P (k + 1) b → P k (f b k)) :
    P 0 ((List.range n).reverse.foldl f b) := by
  induction n generalizing b with
  | zero => exact hstart
  | succ n ih =>
    rw [List.range_succ, List.reverse_concat]
    exact ih (hstep n b (Nat.lt_succ_self n) hstart) fun k b hk => hstep k b (by omega)

variable {left right : ℕ}

section Table

variable (old new : List Line)

/-- `common[left * columns + right]`. -/
def cell (common : List ℕ) (left right : ℕ) : ℕ :=
  common.getD (left * (new.length + 1) + right) 0

/-- The cells from `right` on in the row `left`, the rows below and the last column are filled. -/
structure Filled (common : List ℕ) (left right : ℕ) : Prop where
  length : common.length = (old.length + 1) * (new.length + 1)
  cells : ∀ i j, i ≤ old.length → j ≤ new.length →
    left < i ∨ (i = left ∧ right ≤ j) ∨ j = new.length →
    cell new common i j = lcsLength (old.drop i) (new.drop j)

variable {old new}

theorem index_inj {columns i j : ℕ} (hright : right < columns) (hj : j < columns) :
    left * columns + right = i * columns + j ↔ left = i ∧ right = j := by
  constructor
  · intro heq
    have hdiv : left = i := by
      have h := congrArg (· / columns) heq
      simpa [Nat.mul_comm _ columns, Nat.mul_add_div (by omega : 0 < columns),
        Nat.div_eq_of_lt hright, Nat.div_eq_of_lt hj] using h
    subst hdiv
    exact ⟨rfl, by omega⟩
  · rintro ⟨rfl, rfl⟩
    rfl

theorem cell_fillCell {common : List ℕ}
    (hlength : common.length = (old.length + 1) *
    (new.length + 1)) {i j : ℕ} (hleft : left < old.length) (hright : right < new.length)
    (hj : j ≤ new.length) :
    cell new (fillCell old new common left right) i j =
      if left = i ∧ right = j then
        if old.getD left [] = new.getD right [] then cell new common (left + 1) (right + 1) + 1
        else max (cell new common (left + 1) right) (cell new common left (right + 1))
      else cell new common i j := by
  have hindex : left * (new.length + 1) + right = i * (new.length + 1) + j ↔
      left = i ∧ right = j :=
    index_inj (Nat.lt_succ_of_lt hright) (Nat.lt_succ_of_le hj)
  have hbound : left * (new.length + 1) + right < common.length := by
    have hrow : left * (new.length + 1) + (new.length + 1) ≤
        (old.length + 1) * (new.length + 1) := by
      rw [← Nat.succ_mul]
      exact Nat.mul_le_mul_right _ (by omega)
    omega
  rw [fillCell]
  by_cases hsame : left = i ∧ right = j
  · obtain ⟨rfl, rfl⟩ := hsame
    simp [hbound, cell, Nat.add_assoc]
  · simp [hindex, hsame, cell]

/-- A round of the inner loop fills one more cell. -/
theorem Filled.fillCell {common : List ℕ} (hleft : left < old.length) (hright : right < new.length)
    (h : Filled old new common left (right + 1)) :
    Filled old new (fillCell old new common left right) left right where
  length := by simpa [UnifiedDiff.fillCell] using h.length
  cells := fun i j hi hj hcell => by
    rw [cell_fillCell h.length hleft hright hj]
    split
    · rename_i hsame
      obtain ⟨rfl, rfl⟩ := hsame
      rw [List.drop_eq_getElem_cons hleft, List.drop_eq_getElem_cons hright, lcsLength_cons,
        ← List.drop_eq_getElem_cons hleft, ← List.drop_eq_getElem_cons hright,
        h.cells _ _ hleft hright (by omega), h.cells _ _ hleft (by omega) (by omega),
        h.cells _ _ (by omega) hright (by omega)]
      simp [hleft, hright]
    · exact h.cells i j hi hj (by omega)

/-- Where a row is filled the next one up has its last cell. -/
theorem Filled.nextRow {common : List ℕ} (h : Filled old new common (left + 1) 0) :
    Filled old new common left new.length where
  length := h.length
  cells := fun i j hi hj hcell => h.cells i j hi hj (by omega)

/-- **The table** holds how long common subsequences of two ends can be. -/
theorem cell_commonTable {i j : ℕ} (hi : i ≤ old.length) (hj : j ≤ new.length) :
    cell new (commonTable old new) i j = lcsLength (old.drop i) (new.drop j) := by
  have hzero : Filled old new (List.replicate ((old.length + 1) * (new.length + 1)) 0)
      old.length 0 := by
    have hempty : ∀ i j,
        cell new (List.replicate ((old.length + 1) * (new.length + 1)) 0) i j = 0 := by
      intro i j
      rw [cell, List.getD_eq_getElem?_getD, List.getElem?_replicate]
      split <;> rfl
    refine ⟨by simp, fun i j hi hj hcell => ?_⟩
    have hend : i = old.length ∨ j = new.length := by omega
    obtain rfl | rfl := hend <;> simp [hempty]
  have hfilled : Filled old new (commonTable old new) 0 0 := by
    refine foldl_range_reverse (P := fun left common => Filled old new common left 0) hzero ?_
    intro left common hleft h
    exact foldl_range_reverse (P := fun right common => Filled old new common left right)
      h.nextRow fun right common hright h => h.fillCell hleft hright
  exact hfilled.cells i j hi hj (by omega)

end Table

/-! ## The walk -/

section Walk

variable {common : ℕ → ℕ → ℕ} {old new : List Line}
  (hcommon : ∀ i j, i ≤ old.length → j ≤ new.length →
    common i j = lcsLength (old.drop i) (new.drop j))

theorem drop_succ_of_drop {lines rest : List Line} {line : Line} {index : ℕ}
    (h : lines.drop index = line :: rest) :
    index < lines.length ∧ lines.drop (index + 1) = rest := by
  refine ⟨?_, by rw [← List.tail_drop, h, List.tail_cons]⟩
  by_contra hle
  simp [List.drop_eq_nil_of_le (by omega : lines.length ≤ index)] at h

include hcommon

theorem count_matchLine {first : Line} {oldRest : List Line}
    (hold : old.drop left = first :: oldRest) {next : ℕ → List Line → List Op}
    (hnext : ∀ right newRest, new.drop right = newRest →
      (next right newRest).count .equal = lcsLength oldRest newRest) {newRest : List Line}
    (hnew : new.drop right = newRest) :
    (matchLine common left first oldRest.length next right newRest).count .equal =
      lcsLength (first :: oldRest) newRest := by
  obtain ⟨hleft, holdRest⟩ := drop_succ_of_drop hold
  induction newRest generalizing right with
  | nil => simp [matchLine, List.count_replicate]
  | cons line newRest ih =>
    obtain ⟨hright, hnewRest⟩ := drop_succ_of_drop hnew
    have hbelow : common (left + 1) right = lcsLength oldRest (line :: newRest) := by
      rw [hcommon _ _ hleft (by omega), holdRest, hnew]
    have hbeside : common left (right + 1) = lcsLength (first :: oldRest) newRest := by
      rw [hcommon _ _ (by omega) hright, hold, hnewRest]
    rw [matchLine, lcsLength_cons, hbelow, hbeside]
    by_cases heq : first = line
    · simp [heq, hnext _ _ hnewRest]
    · by_cases hle : lcsLength (first :: oldRest) newRest ≤ lcsLength oldRest (line :: newRest)
      · simp [heq, hle, hnext _ _ hnew]
      · simp [heq, hle, ih hnewRest]
        omega

theorem count_matchLoop {oldRest newRest : List Line} (hold : old.drop left = oldRest)
    (hnew : new.drop right = newRest) :
    (matchLoop common left oldRest right newRest).count .equal = lcsLength oldRest newRest := by
  induction oldRest generalizing left right newRest with
  | nil => simp [matchLoop, List.count_replicate]
  | cons first oldRest ih =>
    have holdRest := (drop_succ_of_drop hold).2
    exact count_matchLine hcommon hold (fun right newRest hnew => ih holdRest hnew) hnew

end Walk

/-! ## The script -/

/-- The middles are matched line by line where their table is not too large. -/
theorem count_middleOps {old new : List Line}
    (hfits : (oldMiddle old new).length * (newMiddle old new).length ≤ maxMatchCells) :
    (middleOps old new).count .equal = lcsLength (oldMiddle old new) (newMiddle old new) := by
  rw [middleOps, if_neg (by omega)]
  exact count_matchLoop (fun i j hi hj => cell_commonTable hi hj) List.drop_zero List.drop_zero

/-- The script keeps as many lines as can be kept. -/
theorem isLongestCommon_diffOps {old new : List Line}
    (hfits : (oldMiddle old new).length * (newMiddle old new).length ≤ maxMatchCells) :
    IsLongestCommon ((diffOps old new).count .equal) old new := by
  obtain ⟨front, back, hold, hnew, hops⟩ := exists_middle old new
  have hmiddle := ((isLongestCommon_lcsLength (oldMiddle old new)
    (newMiddle old new)).append_right back).append_left front
  rw [← hold, ← hnew] at hmiddle
  have hcount : (diffOps old new).count .equal =
      front.length + (lcsLength (oldMiddle old new) (newMiddle old new) + back.length) := by
    simp [hops, count_middleOps hfits]
  rwa [hcount]

/-- **Minimality.** The diff of two texts keeps a longest common subsequence of their lines, and
no script that turns the one into the other changes fewer. -/
theorem minimal_diff (before after : List Char)
    (hfits : (oldMiddle (splitLines before) (splitLines after)).length *
      (newMiddle (splitLines before) (splitLines after)).length ≤ maxMatchCells) :
    IsLongestCommon ((diffOps (splitLines before) (splitLines after)).count .equal)
        (splitLines before) (splitLines after) ∧
      ∀ script, Transforms script (splitLines before) (splitLines after) →
        (diffOps (splitLines before) (splitLines after)).countP
            (fun edit => decide (edit ≠ .equal)) ≤
          script.countP fun edit => decide (edit ≠ .equal) :=
  ⟨isLongestCommon_diffOps hfits, fun _ hscript =>
    (diffOps_transforms _ _).fewest (isLongestCommon_diffOps hfits) hscript⟩

/-- Two lines change places: one of them is kept. -/
theorem minimal_diff_swap :
    (diffOps (splitLines "one\ntwo\n".toList) (splitLines "two\none\n".toList)).count .equal = 1 ∧
      IsLongestCommon 1 (splitLines "one\ntwo\n".toList) (splitLines "two\none\n".toList) := by
  have hminimal := minimal_diff "one\ntwo\n".toList "two\none\n".toList (by decide)
  have hcount : (diffOps (splitLines "one\ntwo\n".toList)
      (splitLines "two\none\n".toList)).count .equal = 1 := by rfl
  exact ⟨hcount, hcount ▸ hminimal.1⟩

end Argmax.Providers.UnifiedDiff
