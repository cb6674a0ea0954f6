import Mathlib.Data.List.Basic

/-!
# Edit scripts and patches

An edit script turns one list into another by keeping, deleting and inserting elements. Its
rows can be cut into windows that hold every change. A window with the numbers of its
first rows is a hunk. Applying hunks is strict: a hunk applies only where its numbers and its
old side say.

## Main definitions

* `Transforms`: what a script does.
* `Hunk`, `Hunk.Numbered`: rows with numbers, and that the numbers are right.
* `applyHunks`: replaces the old side of each hunk by its new side.
* `Cut`: hunks that are cut out of the rows of a script.
-/

namespace Argmax.Lib

variable {α : Type*}

/-- What happens to an element: kept, taken from the old list, or added to the new one. -/
inductive Edit where
  | equal
  | delete
  | insert
  deriving DecidableEq

/-! ## Scripts -/

/-- **A script turns a list into another.** -/
inductive Transforms : List Edit → List α → List α → Prop where
  | nil : Transforms [] [] []
  | equal (a : α) {script : List Edit} {old new : List α} (h : Transforms script old new) :
      Transforms (.equal :: script) (a :: old) (a :: new)
  | delete (a : α) {script : List Edit} {old new : List α} (h : Transforms script old new) :
      Transforms (.delete :: script) (a :: old) new
  | insert (a : α) {script : List Edit} {old new : List α} (h : Transforms script old new) :
      Transforms (.insert :: script) old (a :: new)

namespace Transforms

variable {script script' : List Edit} {old old' new new' : List α}

theorem append (h : Transforms script old new) (h' : Transforms script' old' new') :
    Transforms (script ++ script') (old ++ old') (new ++ new') := by
  induction h with
  | nil => exact h'
  | equal a _ ih => exact .equal a ih
  | delete a _ ih => exact .delete a ih
  | insert a _ ih => exact .insert a ih

theorem keepAll (as : List α) : Transforms (List.replicate as.length .equal) as as := by
  induction as with
  | nil => exact .nil
  | cons a as ih => exact .equal a ih

theorem deleteAll (as : List α) : Transforms (List.replicate as.length .delete) as [] := by
  induction as with
  | nil => exact .nil
  | cons a as ih => exact .delete a ih

theorem insertAll (as : List α) : Transforms (List.replicate as.length .insert) [] as := by
  induction as with
  | nil => exact .nil
  | cons a as ih => exact .insert a ih

end Transforms

/-! ## Rows -/

/-- The elements of the old list among rows. -/
def oldSide (rows : List (Edit × α)) : List α :=
  (rows.filter fun row => decide (row.1 ≠ .insert)).map (·.2)

/-- The elements of the new list among rows. -/
def newSide (rows : List (Edit × α)) : List α :=
  (rows.filter fun row => decide (row.1 ≠ .delete)).map (·.2)

@[simp] theorem oldSide_nil : oldSide ([] : List (Edit × α)) = [] := rfl

@[simp] theorem newSide_nil : newSide ([] : List (Edit × α)) = [] := rfl

@[simp] theorem oldSide_equal (a : α) (rows : List (Edit × α)) :
    oldSide ((.equal, a) :: rows) = a :: oldSide rows := rfl

@[simp] theorem oldSide_delete (a : α) (rows : List (Edit × α)) :
    oldSide ((.delete, a) :: rows) = a :: oldSide rows := rfl

@[simp] theorem oldSide_insert (a : α) (rows : List (Edit × α)) :
    oldSide ((.insert, a) :: rows) = oldSide rows := rfl

@[simp] theorem newSide_equal (a : α) (rows : List (Edit × α)) :
    newSide ((.equal, a) :: rows) = a :: newSide rows := rfl

@[simp] theorem newSide_delete (a : α) (rows : List (Edit × α)) :
    newSide ((.delete, a) :: rows) = newSide rows := rfl

@[simp] theorem newSide_insert (a : α) (rows : List (Edit × α)) :
    newSide ((.insert, a) :: rows) = a :: newSide rows := rfl

@[simp] theorem oldSide_append (rows rows' : List (Edit × α)) :
    oldSide (rows ++ rows') = oldSide rows ++ oldSide rows' := by
  simp [oldSide]

@[simp] theorem newSide_append (rows rows' : List (Edit × α)) :
    newSide (rows ++ rows') = newSide rows ++ newSide rows' := by
  simp [newSide]

/-- Rows that keep their elements. -/
theorem sides_of_equal {rows : List (Edit × α)} (h : ∀ row ∈ rows, row.1 = .equal) :
    oldSide rows = rows.map (·.2) ∧ newSide rows = rows.map (·.2) := by
  have hall : ∀ edit, edit ≠ .equal → rows.filter (fun row => decide (row.1 ≠ edit)) = rows := by
    intro edit hne
    refine List.filter_eq_self.mpr fun row hrow => ?_
    rw [h row hrow]
    simpa using hne.symm
  rw [oldSide, newSide, hall .insert (by simp), hall .delete (by simp)]
  exact ⟨rfl, rfl⟩

theorem sides_map_equal (as : List α) :
    oldSide (as.map (Prod.mk .equal)) = as ∧ newSide (as.map (Prod.mk .equal)) = as := by
  obtain ⟨hold, hnew⟩ := @sides_of_equal α (as.map (Prod.mk .equal)) (by simp)
  rw [hold, hnew, List.map_map]
  exact ⟨List.map_id _, List.map_id _⟩

/-! ## Hunks -/

/-- Rows with the numbers of a patch. A side starts at the number of its first row, counted
from one, and a side without rows at the number of the row before it. -/
structure Hunk (α : Type*) where
  oldStart : ℕ
  oldCount : ℕ
  newStart : ℕ
  newCount : ℕ
  rows : List (Edit × α)

namespace Hunk

variable (hunk : Hunk α)

/-- The old rows in front of the hunk. -/
def oldBefore : ℕ := hunk.oldStart - if hunk.oldCount = 0 then 0 else 1

/-- The new rows in front of the hunk. -/
def newBefore : ℕ := hunk.newStart - if hunk.newCount = 0 then 0 else 1

/-- **The numbers of a hunk are those of its rows** when so many rows are in front of it. -/
structure Numbered (oldBefore newBefore : ℕ) : Prop where
  oldCount : hunk.oldCount = (oldSide hunk.rows).length
  newCount : hunk.newCount = (newSide hunk.rows).length
  oldStart : hunk.oldStart = oldBefore + if hunk.oldCount = 0 then 0 else 1
  newStart : hunk.newStart = newBefore + if hunk.newCount = 0 then 0 else 1

instance (oldBefore newBefore : ℕ) : Decidable (hunk.Numbered oldBefore newBefore) :=
  decidable_of_iff (hunk.oldCount = (oldSide hunk.rows).length ∧
      hunk.newCount = (newSide hunk.rows).length ∧
      hunk.oldStart = oldBefore + (if hunk.oldCount = 0 then 0 else 1) ∧
      hunk.newStart = newBefore + if hunk.newCount = 0 then 0 else 1)
    ⟨fun h => ⟨h.1, h.2.1, h.2.2.1, h.2.2.2⟩,
      fun h => ⟨h.oldCount, h.newCount, h.oldStart, h.newStart⟩⟩

variable {hunk}

theorem Numbered.oldBefore_eq {oldBefore newBefore : ℕ}
    (h : hunk.Numbered oldBefore newBefore) : hunk.oldBefore = oldBefore := by
  rw [Hunk.oldBefore, h.oldStart, Nat.add_sub_cancel_right]

theorem Numbered.newBefore_eq {oldBefore newBefore : ℕ}
    (h : hunk.Numbered oldBefore newBefore) : hunk.newBefore = newBefore := by
  rw [Hunk.newBefore, h.newStart, Nat.add_sub_cancel_right]

/-- A hunk is in front of another one on both sides. -/
def Precedes (hunk hunk' : Hunk α) : Prop :=
  hunk.oldBefore + hunk.oldCount ≤ hunk'.oldBefore ∧
    hunk.newBefore + hunk.newCount ≤ hunk'.newBefore

instance (hunk hunk' : Hunk α) : Decidable (hunk.Precedes hunk') :=
  inferInstanceAs (Decidable (_ ∧ _))

end Hunk

/-- **Hunks applied to a list**, whose elements in front of it are done. A hunk applies if its
numbers are right where it is and its old side is there. -/
def applyHunks [DecidableEq α] : ℕ → ℕ → List (Hunk α) → List α → Option (List α)
  | _, _, [], old => some old
  | oldDone, newDone, hunk :: hunks, old =>
    let skipped := hunk.oldBefore - oldDone
    if hunk.Numbered hunk.oldBefore hunk.newBefore ∧ oldDone ≤ hunk.oldBefore ∧
        hunk.newBefore = newDone + skipped ∧ skipped ≤ old.length ∧
        oldSide hunk.rows <+: old.drop skipped then
      (applyHunks (hunk.oldBefore + hunk.oldCount) (hunk.newBefore + hunk.newCount) hunks
        (old.drop (skipped + hunk.oldCount))).map
          fun new => old.take skipped ++ (newSide hunk.rows ++ new)
    else none

/-! ## Cuts -/

/-- **Hunks cut out of rows**, with so many elements of each side in front of the rows. What is
left between the hunks is unchanged. -/
inductive Cut : ℕ → ℕ → List (Edit × α) → List (Hunk α) → Prop where
  | rest {oldDone newDone : ℕ} {gap : List (Edit × α)} (hgap : ∀ row ∈ gap, row.1 = .equal) :
      Cut oldDone newDone gap []
  | hunk {oldDone newDone : ℕ} {gap rest : List (Edit × α)} {hunk : Hunk α}
      {hunks : List (Hunk α)} (hgap : ∀ row ∈ gap, row.1 = .equal)
      (hnumbered : hunk.Numbered (oldDone + gap.length) (newDone + gap.length))
      (hrest : Cut (oldDone + gap.length + hunk.oldCount) (newDone + gap.length + hunk.newCount)
        rest hunks) :
      Cut oldDone newDone (gap ++ (hunk.rows ++ rest)) (hunk :: hunks)

namespace Cut

variable {oldDone newDone : ℕ} {rows : List (Edit × α)} {hunks : List (Hunk α)}

/-- **Hunks cut out of a script apply.** -/
theorem applyHunks_eq [DecidableEq α] (h : Cut oldDone newDone rows hunks) :
    applyHunks oldDone newDone hunks (oldSide rows) = some (newSide rows) := by
  induction h with
  | rest hgap =>
    obtain ⟨hold, hnew⟩ := sides_of_equal hgap
    rw [applyHunks, hold, hnew]
  | @hunk oldDone newDone gap rest hunk hunks hgap hnumbered hrest ih =>
    obtain ⟨hold, hnew⟩ := sides_of_equal hgap
    have holdBefore := hnumbered.oldBefore_eq
    have hnewBefore := hnumbered.newBefore_eq
    have hskipped : hunk.oldBefore - oldDone = (gap.map (·.2)).length := by
      rw [List.length_map]
      omega
    rw [applyHunks, oldSide_append, oldSide_append, hold, hskipped, List.drop_left, List.take_left, if_pos]
    · rw [hnumbered.oldCount, List.drop_length_add_append, List.drop_left, ← hnumbered.oldCount,
        holdBefore, hnewBefore, ih, newSide_append, newSide_append, hnew]
      rfl
    · refine ⟨?_, ?_, ?_, ?_, List.prefix_append _ _⟩
      · rwa [holdBefore, hnewBefore]
      · omega
      · rw [hnewBefore, List.length_map]
      · simp

/-- Hunks of rows start behind what is in front of the rows. -/
theorem le_before (h : Cut oldDone newDone rows hunks) :
    ∀ hunk ∈ hunks, oldDone ≤ hunk.oldBefore ∧ newDone ≤ hunk.newBefore := by
  induction h with
  | rest => simp
  | hunk hgap hnumbered hrest ih =>
    intro hunk hmem
    rcases List.mem_cons.mp hmem with rfl | hmem
    · rw [hnumbered.oldBefore_eq, hnumbered.newBefore_eq]
      omega
    · have := ih hunk hmem
      omega

/-- **Hunks cut out of a script do not overlap.** -/
theorem pairwise_precedes (h : Cut oldDone newDone rows hunks) : hunks.Pairwise Hunk.Precedes := by
  induction h with
  | rest => exact List.Pairwise.nil
  | hunk hgap hnumbered hrest ih =>
    refine List.Pairwise.cons (fun later hlater => ?_) ih
    have hle := hrest.le_before later hlater
    rwa [← hnumbered.oldBefore_eq, ← hnumbered.newBefore_eq] at hle

theorem numbered (h : Cut oldDone newDone rows hunks) :
    ∀ hunk ∈ hunks, hunk.Numbered hunk.oldBefore hunk.newBefore := by
  induction h with
  | rest => simp
  | hunk hgap hnumbered hrest ih =>
    intro hunk hmem
    rcases List.mem_cons.mp hmem with rfl | hmem
    · rwa [hnumbered.oldBefore_eq, hnumbered.newBefore_eq]
    · exact ih hunk hmem

/-- Every change is in a hunk. -/
theorem countP_eq (h : Cut oldDone newDone rows hunks) {edit : Edit} (hne : edit ≠ .equal) :
    (hunks.flatMap (·.rows)).countP (fun row => decide (row.1 = edit)) =
      rows.countP fun row => decide (row.1 = edit) := by
  have hgaps : ∀ gap : List (Edit × α), (∀ row ∈ gap, row.1 = .equal) →
      gap.countP (fun row => decide (row.1 = edit)) = 0 := by
    intro gap hgap
    refine List.countP_eq_zero.mpr fun row hrow => ?_
    rw [hgap row hrow]
    simpa using hne.symm
  induction h with
  | rest hgap =>
    rw [hgaps _ hgap]
    rfl
  | hunk hgap hnumbered hrest ih =>
    rw [List.flatMap_cons, List.countP_append, List.countP_append, List.countP_append, ih,
      hgaps _ hgap, Nat.zero_add]

end Cut

end Argmax.Lib
