import Argmax.Lib.Transition
import Argmax.Renderer.GridState

/-!
# What the grid shows

Two rows of two cells, no empty row, no workspace twice, one launcher, and a focus that
names a cell: every operation keeps this, but for two ways to miss it. A chat that is
turned into a launcher may be the second launcher, and a drop beside a place that the
row does not reach focuses that place.

What a grid shows is the list of its cells, whatever their order. Replacing a cell and
inserting one are each a permutation of that list up to the cells at hand.
-/

namespace Argmax.Renderer.Grid

open Argmax.Lib

/-! ## Places -/

section Places

variable {α : Type}

theorem getAt_natCast (xs : List α) (n : ℕ) : getAt xs n = xs[n]? := by
  rw [getAt, if_neg (by omega), Int.toNat_natCast]

theorem changeAt_natCast (xs : List α) (n : ℕ) (f : α → α) : changeAt xs n f = xs.modify n f := by
  rw [changeAt, if_neg (by omega), Int.toNat_natCast]

/-- An index that names an element is a natural number. -/
theorem getAt_eq_some {xs : List α} {i : ℤ} {x : α} (h : getAt xs i = some x) :
    ∃ n : ℕ, i = n ∧ xs[n]? = some x := by
  rw [getAt] at h
  split at h
  · cases h
  · exact ⟨i.toNat, by omega, h⟩

/-- The list around an element that is named. -/
theorem getAt_split {xs : List α} {i : ℤ} {x : α} (h : getAt xs i = some x) :
    ∃ before after, xs = before ++ x :: after ∧ i = before.length ∧
      ∀ f, changeAt xs i f = before ++ f x :: after := by
  obtain ⟨n, rfl, hn⟩ := getAt_eq_some h
  obtain ⟨hlt, rfl⟩ := List.getElem?_eq_some_iff.mp hn
  have hlength : (xs.take n).length = n := List.length_take_of_le (by omega)
  refine ⟨xs.take n, xs.drop (n + 1), ?_, by rw [hlength], ?_⟩
  · rw [← List.drop_eq_getElem_cons hlt, List.take_append_drop]
  · intro f
    rw [changeAt_natCast, List.modify_eq_take_cons_drop hlt]

theorem getAt_append (before after : List α) (x : α) :
    getAt (before ++ x :: after) before.length = some x := by
  rw [getAt_natCast]
  simp

theorem getAt_changeAt (xs : List α) (i j : ℤ) (f : α → α) :
    getAt (changeAt xs i f) j = if j = i then (getAt xs j).map f else getAt xs j := by
  rw [changeAt]
  split
  · split
    · rename_i hneg heq
      rw [heq, getAt, if_pos hneg]
      rfl
    · rfl
  · rename_i hi
    rw [getAt, getAt]
    split
    · split <;> rfl
    · rename_i hj
      by_cases heq : j = i
      · simp [heq]
      · have hne : ¬ i.toNat = j.toNat := by omega
        simp [heq, hne]

theorem map_length_changeAt (xs : List (List α)) (i : ℤ) (f : List α → List α)
    (hf : ∀ x, (f x).length = x.length) :
    (changeAt xs i f).map List.length = xs.map List.length := by
  rw [changeAt]
  split
  · rfl
  · apply List.ext_getElem?
    intro n
    rw [List.getElem?_map, List.getElem?_map, List.getElem?_modify]
    cases xs[n]? with
    | none => rfl
    | some x =>
      simp only [Option.map_some, Option.map_eq_map]
      split
      · rw [hf]
      · rfl

theorem length_changeAt (xs : List α) (i : ℤ) (f : α → α) :
    (changeAt xs i f).length = xs.length := by
  rw [changeAt]
  split
  · rfl
  · simp

theorem insertAt_of_le {xs : List α} {n : ℕ} (x : α) :
    insertAt xs n x = xs.take n ++ x :: xs.drop n := by
  rw [insertAt, sliceIndex, if_neg (by omega), Int.toNat_natCast]

theorem getAt_insertAt {xs : List α} {i : ℤ} (hi : 0 ≤ i) (hle : i ≤ xs.length) (x : α) :
    getAt (insertAt xs i x) i = some x := by
  obtain ⟨n, rfl⟩ := Int.eq_ofNat_of_zero_le hi
  have hat := getAt_append (xs.take n) (xs.drop n) x
  rw [List.length_take_of_le (by omega)] at hat
  rw [insertAt_of_le, hat]

end Places

variable {rows : List (List GridCell)} {coord : GridCoord} {cell : GridCell} {grid : GridState}

theorem cellAt_eq_some (h : cellAt rows coord = some cell) :
    ∃ row, getAt rows coord.row = some row ∧ getAt row coord.col = some cell := by
  rw [cellAt, Option.bind_eq_some_iff] at h
  exact h

theorem cellAt_replaceCell (rows : List (List GridCell)) (coord other : GridCoord)
    (cell : GridCell) : cellAt (replaceCell rows coord cell) other =
      if other = coord then (cellAt rows other).map fun _ => cell else cellAt rows other := by
  rw [cellAt, replaceCell, getAt_changeAt, cellAt]
  obtain ⟨r, c⟩ := coord
  obtain ⟨r', c'⟩ := other
  by_cases hrow : r' = r
  · rw [if_pos hrow]
    cases getAt rows r' with
    | none => simp
    | some row =>
      rw [Option.map_some, Option.bind_some, getAt_changeAt]
      simp [hrow]
  · rw [if_neg hrow, if_neg]
    intro heq
    cases heq
    exact hrow rfl

/-- A cell for another: the rest stays. -/
theorem replaceCell_perm {old : GridCell} (h : cellAt rows coord = some old) (cell : GridCell) :
    (old :: (replaceCell rows coord cell).flatten).Perm (cell :: rows.flatten) := by
  obtain ⟨row, hrow, hcol⟩ := cellAt_eq_some h
  obtain ⟨before, after, hrows, _, hchange⟩ := getAt_split hrow
  obtain ⟨left, right, hcells, _, hchange'⟩ := getAt_split hcol
  have hmiddle : ∀ c : GridCell, (before ++ (left ++ c :: right) :: after).flatten.Perm
      (c :: (before.flatten ++ left ++ right ++ after.flatten)) := by
    intro c
    simp only [List.flatten_append, List.flatten_cons, List.append_assoc, List.cons_append]
    rw [← List.append_assoc]
    refine List.perm_middle.trans ?_
    rw [List.append_assoc]
  rw [replaceCell, hchange, hchange', hrows, hcells]
  exact ((hmiddle cell).cons old).trans
    ((List.Perm.swap cell old _).trans ((hmiddle old).cons cell).symm)

/-! ## The invariant -/

def GridCell.workspaceId : GridCell → Option String
  | .session cell => some cell.workspaceId
  | .launcher _ => none

def GridCell.isLauncher : GridCell → Bool
  | .session _ => false
  | .launcher _ => true

/-- No workspace twice and one launcher. -/
structure Distinct (cells : List GridCell) : Prop where
  workspaces : (cells.filterMap GridCell.workspaceId).Nodup
  launchers : (cells.filter GridCell.isLauncher).length ≤ 1

/-- At most two rows of one or two cells. -/
structure Shape (rows : List (List GridCell)) : Prop where
  few : rows.length ≤ 2
  filled : ∀ n ∈ rows.map List.length, 0 < n ∧ n ≤ 2

/-- The focus is null in the empty grid and names a cell in any other. -/
def Focused (grid : GridState) : Prop :=
  match grid.focused with
  | none => grid.rows = []
  | some coord => (cellAt grid.rows coord).isSome

/-- The invariant of the grid. -/
structure Valid (grid : GridState) : Prop where
  shape : Shape grid.rows
  distinct : Distinct grid.rows.flatten
  focused : Focused grid

theorem Distinct.perm {cells cells' : List GridCell} (h : Distinct cells)
    (hperm : cells'.Perm cells) : Distinct cells' where
  workspaces := (hperm.filterMap GridCell.workspaceId).nodup_iff.mpr h.workspaces
  launchers := by
    rw [(hperm.filter GridCell.isLauncher).length_eq]
    exact h.launchers

theorem Distinct.sublist {cells cells' : List GridCell} (h : Distinct cells)
    (hsub : cells'.Sublist cells) : Distinct cells' where
  workspaces := h.workspaces.sublist (hsub.filterMap GridCell.workspaceId)
  launchers := ((hsub.filter GridCell.isLauncher).length_le).trans h.launchers

theorem Distinct.cons_session {cells : List GridCell} (h : Distinct cells)
    {cell : SessionGridCell}
    (hfree : ∀ shown ∈ cells, shown.workspaceId ≠ some cell.workspaceId) :
    Distinct (.session cell :: cells) where
  workspaces := by
    refine List.nodup_cons.mpr ⟨?_, h.workspaces⟩
    intro hmem
    obtain ⟨shown, hshown, hid⟩ := List.mem_filterMap.mp hmem
    exact hfree shown hshown hid
  launchers := h.launchers

theorem Distinct.cons_launcher {cells : List GridCell} (h : Distinct cells)
    {cell : LauncherGridCell} (hfree : ∀ shown ∈ cells, shown.isLauncher = false) :
    Distinct (.launcher cell :: cells) where
  workspaces := h.workspaces
  launchers := by
    have hnone : cells.filter GridCell.isLauncher = [] := by
      rw [List.filter_eq_nil_iff]
      intro shown hshown
      simp [hfree shown hshown]
    rw [List.filter_cons_of_pos rfl, hnone]
    rfl

/-! ## Finding -/

theorem findCell_eq_none {p : GridCell → Bool} (h : findCell p rows = none) :
    ∀ cell ∈ rows.flatten, p cell = false := by
  intro cell hcell
  obtain ⟨row, hrow, hin⟩ := List.mem_flatten.mp hcell
  rw [findCell, Option.bind_eq_none_iff] at h
  by_contra hp
  rw [Bool.not_eq_false] at hp
  cases hfind : rows.findIdx? fun row => row.any p with
  | none =>
    have hnone := List.findIdx?_eq_none_iff.mp hfind row hrow
    rw [List.any_eq_false] at hnone
    exact hnone cell hin hp
  | some r =>
    have hnot := h r hfind
    obtain ⟨hlt, hany, _⟩ := List.findIdx?_eq_some_iff_getElem.mp hfind
    rw [Option.map_eq_none_iff, List.getElem?_eq_getElem hlt, List.findIdx?_eq_none_iff] at hnot
    obtain ⟨found, hfound, hpfound⟩ := List.any_eq_true.mp hany
    rw [hnot found hfound] at hpfound
    cases hpfound

theorem findCell_eq_some {p : GridCell → Bool} (h : findCell p rows = some coord) :
    ∃ cell, cellAt rows coord = some cell ∧ p cell = true := by
  rw [findCell, Option.bind_eq_some_iff] at h
  obtain ⟨r, hrow, hcol⟩ := h
  obtain ⟨hlt, _, _⟩ := List.findIdx?_eq_some_iff_getElem.mp hrow
  rw [List.getElem?_eq_getElem hlt, Option.getD_some, Option.map_eq_some_iff] at hcol
  obtain ⟨c, hcol, rfl⟩ := hcol
  obtain ⟨hlt', hp, _⟩ := List.findIdx?_eq_some_iff_getElem.mp hcol
  refine ⟨rows[r][c], ?_, hp⟩
  rw [cellAt]
  rw [getAt_natCast, List.getElem?_eq_getElem hlt, Option.bind_some, getAt_natCast,
    List.getElem?_eq_getElem hlt']

theorem free_of_findWorkspaceCell {workspaceId : String}
    (h : findWorkspaceCell grid workspaceId = none) :
    ∀ shown ∈ grid.rows.flatten, shown.workspaceId ≠ some workspaceId := by
  intro shown hshown
  have hnot := findCell_eq_none h shown hshown
  cases shown with
  | session cell =>
    intro heq
    cases heq
    simp at hnot
  | launcher cell => simp [GridCell.workspaceId]

theorem free_of_findLauncherCell (h : findLauncherCell grid = none) :
    ∀ shown ∈ grid.rows.flatten, shown.isLauncher = false := by
  intro shown hshown
  have hnot := findCell_eq_none h shown hshown
  cases shown with
  | session cell => rfl
  | launcher cell => cases hnot

/-! ## Operations on the rows -/

theorem maxColumns_le (layout : Layout) : maxColumns layout ≤ 2 := by
  cases layout with
  | none => exact le_refl _
  | some requested =>
    rw [maxColumns, maxCols]
    omega

theorem Shape.replaceCell (h : Shape rows) (coord : GridCoord) (cell : GridCell) :
    Shape (replaceCell rows coord cell) where
  few := by
    rw [Grid.replaceCell, length_changeAt]
    exact h.few
  filled := by
    rw [Grid.replaceCell, map_length_changeAt _ _ _ fun row => length_changeAt row _ _]
    exact h.filled

/-- A cell that the grid does not show in the place of one that it does. -/
theorem Distinct.replaceCell {old : GridCell} (hold : cellAt rows coord = some old)
    (h : Distinct (cell :: rows.flatten)) : Distinct (replaceCell rows coord cell).flatten :=
  (h.perm (replaceCell_perm hold cell)).sublist (List.sublist_cons_self _ _)

theorem focused_replaceCell {old : GridCell} (hold : cellAt rows coord = some old) (cell : GridCell) :
    Focused ⟨replaceCell rows coord cell, some coord⟩ := by
  change (cellAt (Grid.replaceCell rows coord cell) coord).isSome
  rw [cellAt_replaceCell, if_pos rfl, hold]
  rfl

/-- **A cell more in a row that has room.** -/
theorem valid_insertCellInRow (hshape : Shape rows) (hdistinct : Distinct (cell :: rows.flatten))
    {r : ℤ} {row : List GridCell} (hrow : getAt rows r = some row) (hroom : row.length < 2) {c : ℤ}
    (hc : 0 ≤ c) (hle : c ≤ row.length) : Valid ⟨insertCellInRow rows r c cell, some ⟨r, c⟩⟩ := by
  obtain ⟨n, rfl⟩ := Int.eq_ofNat_of_zero_le hc
  obtain ⟨before, after, hrows, hr, hchange⟩ := getAt_split hrow
  have hlength : (row.take n).length = n := by
    rw [List.length_take]
    omega
  rw [insertCellInRow, hchange, insertAt_of_le]
  refine ⟨⟨?_, ?_⟩, ?_, ?_⟩
  · have hfew := hshape.few
    rw [hrows] at hfew
    simpa using hfew
  · intro m hm
    have hfilled := hshape.filled
    rw [hrows] at hfilled
    rw [List.map_append, List.map_cons, List.mem_append, List.mem_cons] at hm
    rcases hm with hbefore | hself | hafter
    · exact hfilled m (by simp [hbefore])
    · rw [List.length_append, List.length_cons, List.length_drop] at hself
      omega
    · exact hfilled m (by simp [hafter])
  · apply hdistinct.perm
    rw [hrows]
    simp only [List.flatten_append, List.flatten_cons, List.append_assoc, List.cons_append]
    rw [← List.append_assoc]
    refine List.perm_middle.trans ?_
    rw [List.append_assoc, ← List.append_assoc (row.take n), List.take_append_drop]
  · change (cellAt _ _).isSome
    rw [cellAt]
    rw [hr, getAt_append, Option.bind_some]
    conv => rw [← hlength]
    rw [hlength]
    have hat := getAt_append (row.take n) (row.drop n) cell
    rw [hlength] at hat
    rw [hat]
    rfl

/-- **A row more, where there is room for one.** -/
theorem valid_insertRow (hshape : Shape rows) (hdistinct : Distinct (cell :: rows.flatten))
    (hroom : rows.length < 2) {r : ℤ} (hr : 0 ≤ r) (hle : r ≤ rows.length) :
    Valid ⟨insertRow rows r cell, some ⟨r, 0⟩⟩ := by
  obtain ⟨n, rfl⟩ := Int.eq_ofNat_of_zero_le hr
  have hlength : (rows.take n).length = n := by
    rw [List.length_take]
    omega
  rw [insertRow, insertAt_of_le]
  refine ⟨⟨?_, ?_⟩, ?_, ?_⟩
  · simp only [List.length_append, List.length_cons, List.length_drop]
    omega
  · intro m hm
    rw [List.map_append, List.map_cons, List.mem_append, List.mem_cons] at hm
    rcases hm with hbefore | hself | hafter
    · exact hshape.filled m (((List.take_sublist n rows).map _).subset hbefore)
    · rw [hself]
      simp
    · exact hshape.filled m (((List.drop_sublist n rows).map _).subset hafter)
  · apply hdistinct.perm
    rw [List.flatten_append, List.flatten_cons, List.cons_append, List.nil_append]
    refine List.perm_middle.trans ?_
    rw [← List.flatten_append, List.take_append_drop]
  · change (cellAt _ _).isSome
    have hat := getAt_append (rows.take n) (rows.drop n) [cell]
    rw [hlength] at hat
    rw [cellAt]
    rw [hat]
    rfl

/-- Empty rows go, and the focus stays near. -/
theorem valid_focusNear (hfew : rows.length ≤ 2) (hrows : ∀ row ∈ rows, row.length ≤ 2)
    (hdistinct : Distinct rows.flatten) (preferred : GridCoord) :
    Valid (focusNear rows preferred) := by
  have hempty : Valid emptyGrid :=
    ⟨⟨Nat.zero_le _, fun _ hn => nomatch hn⟩, ⟨List.nodup_nil, Nat.zero_le _⟩, rfl⟩
  have hflatten : (compactRows rows).flatten = rows.flatten := by
    rw [compactRows]
    clear hfew hrows hdistinct
    induction rows with
    | nil => rfl
    | cons row rows ih =>
      by_cases hrow : 0 < row.length
      · rw [List.filter_cons_of_pos (by simpa using hrow), List.flatten_cons, ih,
          List.flatten_cons]
      · have hnil : row = [] := List.length_eq_zero_iff.mp (by omega)
        rw [List.filter_cons_of_neg (by simpa using hrow), List.flatten_cons, ih, hnil,
          List.nil_append]
  have hshape : Shape (compactRows rows) := by
    refine ⟨(List.length_filter_le _ _).trans hfew, ?_⟩
    intro n hn
    obtain ⟨row, hrow, rfl⟩ := List.mem_map.mp hn
    obtain ⟨hin, hpos⟩ := List.mem_filter.mp hrow
    exact ⟨of_decide_eq_true hpos, hrows row hin⟩
  rw [focusNear]
  dsimp only
  split
  · exact hempty
  · rename_i hne
    split
    · rename_i row hrow
      refine ⟨hshape, by rw [hflatten]; exact hdistinct, ?_⟩
      change (cellAt _ _).isSome
      have hpos : 0 < row.length := by
        obtain ⟨n, _, hn⟩ := getAt_eq_some hrow
        exact (hshape.filled _ (List.mem_map_of_mem (List.mem_of_getElem? hn))).1
      rw [cellAt]
      dsimp only
      rw [hrow, Option.bind_some, getAt, if_neg (by omega), List.getElem?_eq_getElem (by omega)]
      rfl
    · exact hempty

/-- A workspace that the grid does not show in the place of a cell. -/
theorem valid_replaceWorkspaceContext (h : Valid grid) {cell : SessionGridCell}
    (hfree : findWorkspaceCell grid cell.workspaceId = none) (target : GridCoord) :
    Valid (replaceWorkspaceContext grid target cell) := by
  have hdistinct := h.distinct.cons_session (free_of_findWorkspaceCell hfree)
  rw [replaceWorkspaceContext]
  split
  · rename_i old hold
    have hshape := h.shape.replaceCell target (.session cell)
    have hcells := hdistinct.replaceCell hold
    dsimp only
    split
    · rename_i focused hfocused
      obtain ⟨shown, hshown, _⟩ := findCell_eq_some hfocused
      refine ⟨hshape, hcells, ?_⟩
      change (cellAt _ _).isSome
      rw [hshown]
      rfl
    · apply valid_focusNear hshape.few _ hcells
      intro row hrow
      exact (hshape.filled _ (List.mem_map_of_mem hrow)).2
  · exact h

/-- The focus of a grid that shows something. -/
theorem Valid.focusedRow (h : Valid grid) {focused : GridCoord}
    (hfocused : grid.focused = some focused) :
    ∃ row, getAt grid.rows focused.row = some row ∧ 0 ≤ focused.row ∧
      focused.row < grid.rows.length ∧ 0 ≤ focused.col ∧ focused.col < row.length := by
  have hcell := h.focused
  rw [Focused, hfocused] at hcell
  obtain ⟨cell, hcell⟩ := Option.isSome_iff_exists.mp hcell
  obtain ⟨row, hrow, hcol⟩ := cellAt_eq_some hcell
  obtain ⟨r, hr, hrows⟩ := getAt_eq_some hrow
  obtain ⟨c, hc, hcells⟩ := getAt_eq_some hcol
  obtain ⟨hlt, _⟩ := List.getElem?_eq_some_iff.mp hrows
  obtain ⟨hlt', _⟩ := List.getElem?_eq_some_iff.mp hcells
  exact ⟨row, hrow, by omega, by omega, by omega, by omega⟩

/-- A grid with a row has a first cell. -/
theorem Valid.firstCell (h : Valid grid) (hne : ¬ grid.rows.length = 0) :
    ∃ cell, cellAt grid.rows ⟨0, 0⟩ = some cell := by
  obtain ⟨row, rows, hrows⟩ := List.exists_cons_of_length_pos (by omega : 0 < grid.rows.length)
  have hpos := (h.shape.filled row.length (by rw [hrows]; simp)).1
  obtain ⟨cell, cells, hcells⟩ := List.exists_cons_of_length_pos hpos
  exact ⟨cell, by rw [hrows, hcells]; rfl⟩

/-- A cell more in the first row that has room. -/
theorem valid_insertInAvailableRow {grid' : GridState} (h : Valid grid)
    (hdistinct : Distinct (cell :: grid.rows.flatten)) {preferred : GridCoord}
    (hcol : 0 ≤ preferred.col) {rowCap : ℕ} (hcap : rowCap ≤ 2)
    (hfilled : insertInAvailableRow grid cell preferred rowCap = some grid') : Valid grid' := by
  rw [insertInAvailableRow, Option.bind_eq_some_iff] at hfilled
  obtain ⟨rowIndex, hindex, hfilled⟩ := hfilled
  obtain ⟨row, hrow, rfl⟩ := Option.map_eq_some_iff.mp hfilled
  have hroom := List.find?_some hindex
  rw [decide_eq_true_eq] at hroom
  dsimp only at hroom
  rw [hrow, Option.map_some, Option.getD_some] at hroom
  apply valid_insertCellInRow h.shape hdistinct hrow (by omega)
  · split <;> omega
  · split <;> omega

/-- A change of the focus to a cell. -/
theorem Valid.focus (h : Valid grid) (hcell : cellAt grid.rows coord = some cell) :
    Valid { grid with focused := some coord } where
  shape := h.shape
  distinct := h.distinct
  focused := by
    change (cellAt _ _).isSome
    rw [hcell]
    rfl

theorem valid_single (cell : SessionGridCell) : Valid ⟨[[.session cell]], some ⟨0, 0⟩⟩ where
  shape := ⟨by simp, by simp⟩
  distinct := ⟨by simp [GridCell.workspaceId], by simp [GridCell.isLauncher]⟩
  focused := rfl

/-! ## Operations of the grid -/

theorem openWorkspaceInGrid_valid (h : Valid grid) (cell : SessionGridCell) (modifiers : Modifiers)
    (layout : Layout) : Valid (openWorkspaceInGrid grid cell modifiers layout) := by
  rw [openWorkspaceInGrid]
  cases hexisting : findWorkspaceCell grid cell.workspaceId with
  | some existing =>
    obtain ⟨shown, hshown, _⟩ := findCell_eq_some hexisting
    exact h.focus hshown
  | none =>
    have hdistinct := h.distinct.cons_session (free_of_findWorkspaceCell hexisting)
    have hcap := maxColumns_le layout
    cases hfocused : grid.focused with
    | none => exact valid_single cell
    | some focused =>
      obtain ⟨row, hrow, hr, hrlt, hc, hclt⟩ := h.focusedRow hfocused
      have hbelow : grid.rows.length < 2 → Valid
          ⟨insertRow grid.rows (focused.row + 1) (.session cell), some ⟨focused.row + 1, 0⟩⟩ :=
        fun hroom => valid_insertRow h.shape hdistinct hroom (by omega) (by omega)
      dsimp only
      rw [hrow]
      split
      · exact valid_single cell
      split
      · rename_i hbeside
        simp only [Bool.and_eq_true, Option.any_some, decide_eq_true_eq] at hbeside
        exact valid_insertCellInRow h.shape hdistinct hrow (by omega) (by omega) (by omega)
      split
      · rename_i hroom
        simp only [Bool.and_eq_true, decide_eq_true_eq] at hroom
        exact hbelow hroom.2
      split
      · rename_i hroom
        simp only [Bool.and_eq_true, decide_eq_true_eq] at hroom
        exact hbelow hroom.2
      · cases hfilled : (if (modifiers.ctrlOrMeta || modifiers.alt) &&
            decide (totalCells grid < maxCells layout) then
          insertInAvailableRow grid (.session cell) focused (maxColumns layout) else none) with
        | none => exact valid_replaceWorkspaceContext h hexisting focused
        | some filled =>
          split at hfilled
          · exact valid_insertInAvailableRow h hdistinct hc hcap hfilled
          · cases hfilled

theorem openLauncherInGrid_valid (h : Valid grid) (cell : LauncherGridCell) (layout : Layout) :
    Valid (openLauncherInGrid grid cell layout) := by
  rw [openLauncherInGrid]
  cases hexisting : findLauncherCell grid with
  | some existing =>
    obtain ⟨shown, hshown, _⟩ := findCell_eq_some hexisting
    exact h.focus hshown
  | none =>
    have hdistinct : Distinct (.launcher cell :: grid.rows.flatten) :=
      h.distinct.cons_launcher (free_of_findLauncherCell hexisting)
    have hcap := maxColumns_le layout
    cases hfocused : grid.focused with
    | none => exact h
    | some focused =>
      obtain ⟨row, hrow, hr, hrlt, hc, hclt⟩ := h.focusedRow hfocused
      dsimp only
      rw [hrow]
      dsimp only
      split
      · exact h
      split
      · exact h
      split
      · exact valid_insertCellInRow h.shape hdistinct hrow (by omega) (by omega) (by omega)
      split
      · rename_i hroom
        exact valid_insertRow h.shape hdistinct hroom (by omega) (by omega)
      · cases hfilled : insertInAvailableRow grid (.launcher cell) focused (maxColumns layout) with
        | none => exact h
        | some filled => exact valid_insertInAvailableRow h hdistinct hc hcap hfilled

theorem closeCell_valid (h : Valid grid) (row col : ℤ) : Valid (closeCell grid row col) := by
  have hremove : ∀ cells : List GridCell, (removeAt cells col).Sublist cells := by
    intro cells
    rw [removeAt]
    split
    · exact List.Sublist.refl _
    · exact List.eraseIdx_sublist _ _
  have hlengths : ∀ cells ∈ grid.rows, cells.length ≤ 2 := by
    intro cells hcells
    exact (h.shape.filled _ (List.mem_map_of_mem hcells)).2
  rw [closeCell]
  cases hrow : getAt grid.rows row with
  | none =>
    have hsame : changeAt grid.rows row (fun cells => removeAt cells col) = grid.rows := by
      rw [getAt] at hrow
      rw [changeAt]
      split
      · rfl
      · rename_i hpos
        rw [if_neg hpos, List.getElem?_eq_none_iff] at hrow
        exact List.modify_eq_self hrow
    rw [hsame]
    exact valid_focusNear h.shape.few hlengths h.distinct _
  | some cells =>
    obtain ⟨before, after, hrows, _, hchange⟩ := getAt_split hrow
    rw [hchange]
    apply valid_focusNear
    · have hfew := h.shape.few
      rw [hrows] at hfew
      simpa using hfew
    · intro left hleft
      rw [hrows] at hlengths
      rcases List.mem_append.mp hleft with hbefore | hmem
      · exact hlengths left (by simp [hbefore])
      rcases List.mem_cons.mp hmem with rfl | hafter
      · exact (hremove cells).length_le.trans (hlengths cells (by simp))
      · exact hlengths left (by simp [hafter])
    · apply h.distinct.sublist
      rw [hrows]
      simp only [List.flatten_append]
      exact (List.Sublist.refl _).append ((hremove cells).append (List.Sublist.refl _))

theorem setFocus_valid (h : Valid grid) (coord : GridCoord) : Valid (setFocus grid coord) := by
  rw [setFocus]
  split
  · exact h
  · cases hcell : cellAt grid.rows coord with
    | none => exact h
    | some cell => exact h.focus hcell

/-- Another cell of the same kind: what the grid shows stays distinct. -/
theorem setLauncherProject_valid (h : Valid grid) (projectId : String) :
    Valid (setLauncherProject grid projectId) := by
  rw [setLauncherProject]
  split
  · exact h
  rename_i coord _
  split
  · rename_i cell hcell
    split
    · exact h
    · have hperm := replaceCell_perm hcell (.launcher ⟨projectId⟩)
      refine ⟨h.shape.replaceCell coord _, ⟨?_, ?_⟩, ?_⟩
      · have hworkspaces := hperm.filterMap GridCell.workspaceId
        exact hworkspaces.nodup_iff.mpr h.distinct.workspaces
      · have hlaunchers := (hperm.filter GridCell.isLauncher).length_eq
        rw [List.filter_cons_of_pos rfl, List.filter_cons_of_pos rfl, List.length_cons,
          List.length_cons] at hlaunchers
        have hone := h.distinct.launchers
        change ((replaceCell grid.rows coord _).flatten.filter GridCell.isLauncher).length ≤ 1
        omega
      · have hfocused := h.focused
        rw [Focused] at hfocused ⊢
        split
        · rename_i hnone
          rw [hnone] at hfocused
          rw [hfocused] at hcell
          rw [cellAt, getAt] at hcell
          split at hcell <;> cases hcell
        · rename_i focused hsome
          rw [hsome] at hfocused
          rw [cellAt_replaceCell]
          split
          · rw [Option.isSome_map]
            exact hfocused
          · exact hfocused
  · exact h

/-! ## Operations that may miss the invariant -/

/-- The column that a drop beside a cell makes. -/
def insertedCol : SplitPosition → ℤ → Option ℤ
  | .left, col => some col
  | .right, col => some (col + 1)
  | _, _ => none

/-- No chat is turned into a launcher beside another launcher, and no chat is dropped
beside a place that its row does not reach. -/
def fits (grid : GridState) : Action → Bool
  | .revertSession sessionId _ =>
    (findSessionCell grid sessionId).isNone || (findLauncherCell grid).isNone
  | .dropWorkspace cell target position layout =>
    match getAt grid.rows target.row, insertedCol position target.col with
    | some row, some col =>
      (findWorkspaceCell grid cell.workspaceId).isSome ||
        decide (maxCells layout ≤ totalCells grid) ||
        decide (maxColumns layout ≤ row.length) || (decide (0 ≤ col) && decide (col ≤ row.length))
    | _, _ => true
  | _ => true

theorem revertSessionToLauncher_valid (h : Valid grid) {sessionId projectId : String}
    (hfits : fits grid (.revertSession sessionId projectId) = true) :
    Valid (revertSessionToLauncher grid sessionId projectId) := by
  rw [revertSessionToLauncher]
  cases hfound : findSessionCell grid sessionId with
  | none =>
    dsimp only
    split
    · exact ⟨⟨Nat.zero_le _, fun _ hn => nomatch hn⟩, ⟨List.nodup_nil, Nat.zero_le _⟩, rfl⟩
    · exact openLauncherInGrid_valid h _ _
  | some coord =>
    rw [fits, hfound, Option.isNone_some, Bool.false_or, Option.isNone_iff_eq_none] at hfits
    obtain ⟨old, hold, _⟩ := findCell_eq_some hfound
    have hdistinct : Distinct (.launcher ⟨projectId⟩ :: grid.rows.flatten) :=
      h.distinct.cons_launcher (free_of_findLauncherCell hfits)
    exact ⟨h.shape.replaceCell coord _, hdistinct.replaceCell hold, focused_replaceCell hold _⟩

/-- Two cells change places. -/
theorem swap_valid (h : Valid grid) {existing target : GridCoord} {shown targetCell : GridCell}
    (hshown : cellAt grid.rows existing = some shown)
    (htarget : cellAt grid.rows target = some targetCell) (hne : existing ≠ target) :
    Valid ⟨replaceCell (replaceCell grid.rows existing targetCell) target shown, some target⟩ := by
  have hstill : cellAt (replaceCell grid.rows existing targetCell) target = some targetCell := by
    rw [cellAt_replaceCell, if_neg hne.symm]
    exact htarget
  refine ⟨(h.shape.replaceCell existing _).replaceCell target _, ?_, focused_replaceCell hstill _⟩
  have hperm := (replaceCell_perm hstill shown).trans (replaceCell_perm hshown targetCell)
  exact h.distinct.perm hperm.cons_inv

theorem dropWorkspaceInGrid_valid (h : Valid grid) {cell : SessionGridCell} {target : GridCoord}
    {position : SplitPosition} {layout : Layout}
    (hfits : fits grid (.dropWorkspace cell target position layout) = true) :
    Valid (dropWorkspaceInGrid grid cell target position layout) := by
  rw [dropWorkspaceInGrid]
  cases hexisting : findWorkspaceCell grid cell.workspaceId with
  | some existing =>
    obtain ⟨shown, hshown, _⟩ := findCell_eq_some hexisting
    dsimp only
    split
    · exact h.focus hshown
    split
    · exact h
    · rename_i hne
      cases htarget : cellAt grid.rows target with
      | none => exact h.focus hshown
      | some targetCell =>
        rw [hshown]
        exact swap_valid h hshown htarget hne
  | none =>
    have hdistinct := h.distinct.cons_session (free_of_findWorkspaceCell hexisting)
    have hcap := maxColumns_le layout
    have hreplaced := valid_replaceWorkspaceContext h hexisting target
    dsimp only
    split
    · exact valid_single cell
    rename_i hne
    cases hrow : getAt grid.rows target.row with
    | none =>
      obtain ⟨first, hfirst⟩ := h.firstCell hne
      exact h.focus hfirst
    | some row =>
      obtain ⟨r, hr, hrows⟩ := getAt_eq_some hrow
      obtain ⟨hlt, _⟩ := List.getElem?_eq_some_iff.mp hrows
      have hbeside : ∀ col, insertedCol position target.col = some col →
          totalCells grid < maxCells layout → row.length < maxColumns layout →
          Valid ⟨insertCellInRow grid.rows target.row col (.session cell),
            some ⟨target.row, col⟩⟩ := by
        intro col hcol hsplit hroom
        rw [fits, hrow, hcol] at hfits
        simp only [hexisting, Option.isSome_none, Bool.false_or, Bool.or_eq_true,
          Bool.and_eq_true, decide_eq_true_eq] at hfits
        exact valid_insertCellInRow h.shape hdistinct hrow (by omega) (by omega) (by omega)
      have hapart : ∀ at_ : ℤ, 0 ≤ at_ → at_ ≤ grid.rows.length → grid.rows.length < maxRows →
          Valid ⟨insertRow grid.rows at_ (.session cell), some ⟨at_, 0⟩⟩ :=
        fun _ hpos hle hroom => valid_insertRow h.shape hdistinct hroom hpos hle
      cases position with
      | replace => exact hreplaced
      | left | right =>
        dsimp only
        split
        · rename_i hroom
          simp only [Bool.and_eq_true, decide_eq_true_eq] at hroom
          exact hbeside _ rfl hroom.1 hroom.2
        · exact hreplaced
      | above | below =>
        dsimp only
        split
        · rename_i hroom
          simp only [Bool.and_eq_true, decide_eq_true_eq] at hroom
          exact hapart _ (by omega) (by omega) hroom.2
        · exact hreplaced

/-! ## What opening shows -/

/-- The focus is on a cell of the workspace. -/
def Shows (grid : GridState) (workspaceId : String) : Prop :=
  ∃ coord shown, grid.focused = some coord ∧ cellAt grid.rows coord = some shown ∧
    shown.workspaceId = some workspaceId

theorem shows_of_findWorkspaceCell {workspaceId : String}
    (h : findWorkspaceCell grid workspaceId = some coord) :
    Shows { grid with focused := some coord } workspaceId := by
  obtain ⟨shown, hshown, hp⟩ := findCell_eq_some h
  refine ⟨coord, shown, rfl, hshown, ?_⟩
  cases shown with
  | session shown => exact congrArg some (beq_iff_eq.mp hp)
  | launcher shown => cases hp

theorem cellAt_insertCellInRow {r c : ℤ} {row : List GridCell} (hrow : getAt rows r = some row)
    (hc : 0 ≤ c) (hle : c ≤ row.length) (cell : GridCell) :
    cellAt (insertCellInRow rows r c cell) ⟨r, c⟩ = some cell := by
  obtain ⟨before, after, _, hr, hchange⟩ := getAt_split hrow
  rw [cellAt, insertCellInRow, hchange, hr, getAt_append, Option.bind_some]
  exact getAt_insertAt hc hle cell

theorem shows_insertRow {r : ℤ} (hr : 0 ≤ r) (hle : r ≤ rows.length) (cell : SessionGridCell) :
    Shows ⟨insertRow rows r (.session cell), some ⟨r, 0⟩⟩ cell.workspaceId := by
  refine ⟨_, .session cell, rfl, ?_, rfl⟩
  rw [cellAt, insertRow, getAt_insertAt hr hle]
  rfl

/-- The cell of the focus has made room, so the workspace is found. -/
theorem shows_replaceWorkspaceContext {old : GridCell} (hold : cellAt grid.rows coord = some old)
    (cell : SessionGridCell) : Shows (replaceWorkspaceContext grid coord cell) cell.workspaceId := by
  have hmem : GridCell.session cell ∈ (replaceCell grid.rows coord (.session cell)).flatten := by
    have hcell : cellAt (replaceCell grid.rows coord (.session cell)) coord =
        some (.session cell) := by
      rw [cellAt_replaceCell, if_pos rfl, hold, Option.map_some]
    obtain ⟨row, hrow, hcol⟩ := cellAt_eq_some hcell
    obtain ⟨r, -, hrow⟩ := getAt_eq_some hrow
    obtain ⟨c, -, hcol⟩ := getAt_eq_some hcol
    exact List.mem_flatten_of_mem (List.mem_of_getElem? hrow) (List.mem_of_getElem? hcol)
  rw [replaceWorkspaceContext, hold]
  dsimp only
  split
  · rename_i focused hfocused
    exact shows_of_findWorkspaceCell hfocused
  · rename_i hnone
    exact absurd rfl (free_of_findWorkspaceCell hnone _ hmem)

/-- **A workspace that is opened is shown.** Whatever the grid held, and however full it is, the
focus is then on the workspace. -/
theorem openWorkspaceInGrid_shows (h : Valid grid) (cell : SessionGridCell) (modifiers : Modifiers)
    (layout : Layout) :
    Shows (openWorkspaceInGrid grid cell modifiers layout) cell.workspaceId := by
  have hsingle : Shows ⟨[[.session cell]], some ⟨0, 0⟩⟩ cell.workspaceId :=
    ⟨⟨0, 0⟩, .session cell, rfl, rfl, rfl⟩
  rw [openWorkspaceInGrid]
  cases hexisting : findWorkspaceCell grid cell.workspaceId with
  | some existing => exact shows_of_findWorkspaceCell hexisting
  | none =>
    cases hfocused : grid.focused with
    | none => exact hsingle
    | some focused =>
      obtain ⟨row, hrow, hr, hrlt, hc, hclt⟩ := h.focusedRow hfocused
      have hbelow : Shows ⟨insertRow grid.rows (focused.row + 1) (.session cell),
          some ⟨focused.row + 1, 0⟩⟩ cell.workspaceId :=
        shows_insertRow (by omega) (by omega) cell
      dsimp only
      rw [hrow]
      split
      · exact hsingle
      split
      · exact ⟨_, _, rfl, cellAt_insertCellInRow hrow (by omega) (by omega) _, rfl⟩
      split
      · exact hbelow
      split
      · exact hbelow
      · cases hfilled : (if (modifiers.ctrlOrMeta || modifiers.alt) &&
            decide (totalCells grid < maxCells layout) then
          insertInAvailableRow grid (.session cell) focused (maxColumns layout) else none) with
        | none =>
          have hcell := h.focused
          rw [Focused, hfocused] at hcell
          obtain ⟨old, hold⟩ := Option.isSome_iff_exists.mp hcell
          exact shows_replaceWorkspaceContext hold cell
        | some filled =>
          split at hfilled
          · rw [insertInAvailableRow, Option.bind_eq_some_iff] at hfilled
            obtain ⟨rowIndex, -, hfilled⟩ := hfilled
            obtain ⟨found, hfound, rfl⟩ := Option.map_eq_some_iff.mp hfilled
            refine ⟨_, _, rfl, cellAt_insertCellInRow hfound ?_ ?_ _, rfl⟩ <;> split <;> omega
          · cases hfilled

/-- The second workspace takes the place of the first. -/
theorem openWorkspaceInGrid_shows_single :
    Shows (openWorkspaceInGrid ⟨[[.session ⟨"s", "w"⟩]], some ⟨0, 0⟩⟩ ⟨"t", "v"⟩ ⟨false, false⟩ none)
      "v" :=
  openWorkspaceInGrid_shows (valid_single ⟨"s", "w"⟩) ⟨"t", "v"⟩ ⟨false, false⟩ none

/-! ## Runs -/

/-- **One operation.** -/
theorem step_valid (h : Valid grid) {action : Action} (hfits : fits grid action = true) :
    Valid (step grid action) := by
  cases action with
  | openWorkspace cell modifiers layout => exact openWorkspaceInGrid_valid h cell modifiers layout
  | openLauncher cell layout => exact openLauncherInGrid_valid h cell layout
  | dropWorkspace cell target position layout => exact dropWorkspaceInGrid_valid h hfits
  | close row col => exact closeCell_valid h row col
  | revertSession sessionId projectId => exact revertSessionToLauncher_valid h hfits
  | setFocus coord => exact setFocus_valid h coord
  | setLauncherProject projectId => exact setLauncherProject_valid h projectId

/-- **The grid invariant.** Every state of a run whose operations all fit is valid. -/
theorem grid_valid (actions rest : List Action)
    (h : Legal step (fun grid action => fits grid action = true) emptyGrid (actions ++ rest)) :
    Valid (run step emptyGrid actions) := by
  have hempty : Valid emptyGrid :=
    ⟨⟨Nat.zero_le _, fun _ hn => nomatch hn⟩, ⟨List.nodup_nil, Nat.zero_le _⟩, rfl⟩
  have hstep : ∀ grid action, Valid grid → fits grid action = true → Valid (step grid action) :=
    fun _ _ hvalid hfits => step_valid hvalid hfits
  exact ((legal_append step _ emptyGrid actions rest).mp h).1.invariant hstep hempty

/-- Two chats side by side, a launcher below, and the first chat dropped on the second. -/
theorem grid_valid_swapped :
    Legal step (fun grid action => fits grid action = true) emptyGrid
        ([.openWorkspace ⟨"s", "w"⟩ ⟨false, false⟩ none,
          .dropWorkspace ⟨"t", "v"⟩ ⟨0, 0⟩ .right none, .openLauncher ⟨"p"⟩ none,
          .dropWorkspace ⟨"s", "w"⟩ ⟨0, 1⟩ .replace none] ++ [.close 1 0]) ∧
      Valid (run step emptyGrid
        [.openWorkspace ⟨"s", "w"⟩ ⟨false, false⟩ none,
          .dropWorkspace ⟨"t", "v"⟩ ⟨0, 0⟩ .right none, .openLauncher ⟨"p"⟩ none,
          .dropWorkspace ⟨"s", "w"⟩ ⟨0, 1⟩ .replace none]) :=
  ⟨by decide, grid_valid _ [.close 1 0] (by decide)⟩

/-- A chat turned into a launcher beside a launcher: two launchers. -/
theorem two_launchers :
    ¬ Valid (run step emptyGrid
      [.openWorkspace ⟨"s", "w"⟩ ⟨false, false⟩ none, .openLauncher ⟨"p"⟩ none,
        .revertSession "s" "p"]) := by
  intro h
  have hone := h.distinct.launchers
  revert hone
  decide

end Argmax.Renderer.Grid
