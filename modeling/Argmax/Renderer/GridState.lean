import Mathlib.Data.Rat.Floor

/-!
# The pane grid

`gridState.ts`: chats and one launcher in at most two rows of at most two cells. A
coordinate is an integer, and what it names may not exist.
-/

namespace Argmax.Renderer.Grid

/-! ## Data -/

structure SessionGridCell where
  sessionId : String
  workspaceId : String

structure LauncherGridCell where
  projectId : String

inductive GridCell where
  | session (cell : SessionGridCell)
  | launcher (cell : LauncherGridCell)

structure GridCoord where
  row : ℤ
  col : ℤ
  deriving DecidableEq

structure GridState where
  rows : List (List GridCell)
  focused : Option GridCoord

inductive SplitPosition where
  | replace
  | left
  | right
  | above
  | below
  deriving DecidableEq

structure Modifiers where
  ctrlOrMeta : Bool
  alt : Bool

/-- The requested number of columns, if it is given and finite. -/
abbrev Layout := Option ℚ

def emptyGrid : GridState := ⟨[], none⟩

def maxRows : ℕ := 2
def maxCols : ℕ := 2

/-! ## Places -/

/-- `xs[i]`. -/
def getAt {α : Type} (xs : List α) (i : ℤ) : Option α := if i < 0 then none else xs[i.toNat]?

/-- `grid.rows[coord.row]?.[coord.col]`. -/
def cellAt (rows : List (List GridCell)) (coord : GridCoord) : Option GridCell :=
  (getAt rows coord.row).bind fun row => getAt row coord.col

/-- Where a slice ends or starts: a negative index counts from the end. -/
def sliceIndex (length : ℕ) (i : ℤ) : ℕ := if i < 0 then (length + i).toNat else i.toNat

/-- `[...xs.slice(0, i), x, ...xs.slice(i)]`. -/
def insertAt {α : Type} (xs : List α) (i : ℤ) (x : α) : List α :=
  xs.take (sliceIndex xs.length i) ++ x :: xs.drop (sliceIndex xs.length i)

/-- `xs.map` with a change of the element of one index. -/
def changeAt {α : Type} (xs : List α) (i : ℤ) (f : α → α) : List α :=
  if i < 0 then xs else xs.modify i.toNat f

/-- `xs.filter` without the element of one index. -/
def removeAt {α : Type} (xs : List α) (i : ℤ) : List α :=
  if i < 0 then xs else xs.eraseIdx i.toNat

/-! ## Cells -/

def totalCells (grid : GridState) : ℕ := (grid.rows.map List.length).sum

def maxColumns (layout : Layout) : ℕ :=
  match layout with
  | some requested => (max 1 (min (maxCols : ℤ) ⌊requested⌋)).toNat
  | none => maxCols

def maxCells (layout : Layout) : ℕ := maxRows * maxColumns layout

/-- The first cell with a property, row by row. -/
def findCell (p : GridCell → Bool) (rows : List (List GridCell)) : Option GridCoord :=
  (rows.findIdx? fun row => row.any p).bind fun r =>
    ((rows[r]?.getD []).findIdx? p).map fun (c : ℕ) => ⟨r, c⟩

def findWorkspaceCell (grid : GridState) (workspaceId : String) : Option GridCoord :=
  findCell (fun cell => match cell with
    | .session cell => cell.workspaceId == workspaceId
    | .launcher _ => false) grid.rows

def findSessionCell (grid : GridState) (sessionId : String) : Option GridCoord :=
  findCell (fun cell => match cell with
    | .session cell => cell.sessionId == sessionId
    | .launcher _ => false) grid.rows

def findLauncherCell (grid : GridState) : Option GridCoord :=
  findCell (fun cell => match cell with
    | .session _ => false
    | .launcher _ => true) grid.rows

def replaceCell (rows : List (List GridCell)) (coord : GridCoord) (cell : GridCell) :
    List (List GridCell) :=
  changeAt rows coord.row fun row => changeAt row coord.col fun _ => cell

def compactRows (rows : List (List GridCell)) : List (List GridCell) :=
  rows.filter fun row => decide (0 < row.length)

def focusNear (rows : List (List GridCell)) (preferred : GridCoord) : GridState :=
  let compacted := compactRows rows
  if compacted.length = 0 then emptyGrid
  else
    let nextRow := min (max preferred.row 0) (compacted.length - 1)
    match getAt compacted nextRow with
    | some nextRowCells =>
      ⟨compacted, some ⟨nextRow, min (max preferred.col 0) (nextRowCells.length - 1)⟩⟩
    | none => emptyGrid

def replaceWorkspaceContext (grid : GridState) (target : GridCoord) (cell : SessionGridCell) :
    GridState :=
  match cellAt grid.rows target with
  | some _ =>
    let rows := replaceCell grid.rows target (.session cell)
    match findWorkspaceCell ⟨rows, none⟩ cell.workspaceId with
    | some focused => ⟨rows, some focused⟩
    | none => focusNear rows target
  | none => grid

def insertCellInRow (rows : List (List GridCell)) (rowIndex colIndex : ℤ) (cell : GridCell) :
    List (List GridCell) :=
  changeAt rows rowIndex fun row => insertAt row colIndex cell

def insertRow (rows : List (List GridCell)) (at_ : ℤ) (cell : GridCell) : List (List GridCell) :=
  insertAt rows at_ [cell]

def insertInAvailableRow (grid : GridState) (cell : GridCell) (preferred : GridCoord)
    (rowCap : ℕ) : Option GridState :=
  let rowIndexes : List ℤ := preferred.row ::
    ((List.range grid.rows.length).map Int.ofNat).filter (· ≠ preferred.row)
  let length := fun candidate => ((getAt grid.rows candidate).map List.length).getD rowCap
  (rowIndexes.find? fun candidate => decide (length candidate < rowCap)).bind fun rowIndex =>
    (getAt grid.rows rowIndex).map fun row =>
      let colIndex : ℤ :=
        if rowIndex = preferred.row then min (preferred.col + 1) row.length else row.length
      ⟨insertCellInRow grid.rows rowIndex colIndex cell, some ⟨rowIndex, colIndex⟩⟩

/-! ## Operations -/

def openWorkspaceInGrid (grid : GridState) (cell : SessionGridCell) (modifiers : Modifiers)
    (layout : Layout) : GridState :=
  match findWorkspaceCell grid cell.workspaceId with
  | some existing => { grid with focused := some existing }
  | none =>
    match grid.focused with
    | none => ⟨[[.session cell]], some ⟨0, 0⟩⟩
    | some focused =>
      if grid.rows.length = 0 then ⟨[[.session cell]], some ⟨0, 0⟩⟩
      else
        let rowCap := maxColumns layout
        let canSplit := decide (totalCells grid < maxCells layout)
        let focusedRow := getAt grid.rows focused.row
        let hasRow := focusedRow.isSome
        let hasRoom := focusedRow.any fun row => decide (row.length < rowCap)
        let belowFocused : GridState :=
          ⟨insertRow grid.rows (focused.row + 1) (.session cell), some ⟨focused.row + 1, 0⟩⟩
        if modifiers.ctrlOrMeta && canSplit && hasRoom then
          ⟨insertCellInRow grid.rows focused.row (focused.col + 1) (.session cell),
            some ⟨focused.row, focused.col + 1⟩⟩
        else if modifiers.ctrlOrMeta && canSplit && hasRow && decide (grid.rows.length < maxRows)
        then belowFocused
        else if modifiers.alt && canSplit && decide (grid.rows.length < maxRows) then belowFocused
        else
          let filled :=
            if (modifiers.ctrlOrMeta || modifiers.alt) && canSplit then
              insertInAvailableRow grid (.session cell) focused rowCap
            else none
          filled.getD (replaceWorkspaceContext grid focused cell)

def openLauncherInGrid (grid : GridState) (cell : LauncherGridCell) (layout : Layout) : GridState :=
  match findLauncherCell grid with
  | some existing => { grid with focused := some existing }
  | none =>
    match grid.focused with
    | none => grid
    | some focused =>
      if grid.rows.length = 0 then grid
      else
        let rowCap := maxColumns layout
        match getAt grid.rows focused.row with
        | none => grid
        | some focusedRow =>
          if maxCells layout ≤ totalCells grid then grid
          else if focusedRow.length < rowCap then
            ⟨insertCellInRow grid.rows focused.row (focused.col + 1) (.launcher cell),
              some ⟨focused.row, focused.col + 1⟩⟩
          else if grid.rows.length < maxRows then
            ⟨insertRow grid.rows (focused.row + 1) (.launcher cell), some ⟨focused.row + 1, 0⟩⟩
          else (insertInAvailableRow grid (.launcher cell) focused rowCap).getD grid

def dropWorkspaceInGrid (grid : GridState) (cell : SessionGridCell) (target : GridCoord)
    (position : SplitPosition) (layout : Layout) : GridState :=
  match findWorkspaceCell grid cell.workspaceId with
  | some existing =>
    if position ≠ .replace then { grid with focused := some existing }
    else if existing = target then grid
    else
      match cellAt grid.rows target with
      | none => { grid with focused := some existing }
      | some targetCell =>
        ⟨replaceCell (replaceCell grid.rows existing targetCell) target
          ((cellAt grid.rows existing).getD (.session cell)), some target⟩
  | none =>
    if grid.rows.length = 0 then ⟨[[.session cell]], some ⟨0, 0⟩⟩
    else
      match getAt grid.rows target.row with
      | none => { grid with focused := some ⟨0, 0⟩ }
      | some targetRow =>
        let canSplit := decide (totalCells grid < maxCells layout)
        let beside := canSplit && decide (targetRow.length < maxColumns layout)
        let apart := canSplit && decide (grid.rows.length < maxRows)
        let insertCol := fun col : ℤ =>
          (⟨insertCellInRow grid.rows target.row col (.session cell),
            some ⟨target.row, col⟩⟩ : GridState)
        let insertRowAt := fun row : ℤ =>
          (⟨insertRow grid.rows row (.session cell), some ⟨row, 0⟩⟩ : GridState)
        let replaced := replaceWorkspaceContext grid target cell
        match position with
        | .replace => replaced
        | .left => if beside then insertCol target.col else replaced
        | .right => if beside then insertCol (target.col + 1) else replaced
        | .above => if apart then insertRowAt target.row else replaced
        | .below => if apart then insertRowAt (target.row + 1) else replaced

def closeCell (grid : GridState) (row col : ℤ) : GridState :=
  focusNear (changeAt grid.rows row fun cells => removeAt cells col) ⟨row, col⟩

def setLauncherProject (grid : GridState) (projectId : String) : GridState :=
  match findLauncherCell grid with
  | none => grid
  | some coord =>
    match cellAt grid.rows coord with
    | some (.launcher cell) =>
      if cell.projectId = projectId then grid
      else { grid with rows := replaceCell grid.rows coord (.launcher ⟨projectId⟩) }
    | _ => grid

def revertSessionToLauncher (grid : GridState) (sessionId projectId : String) : GridState :=
  match findSessionCell grid sessionId with
  | none =>
    if grid.rows.length = 0 then emptyGrid else openLauncherInGrid grid ⟨projectId⟩ none
  | some coord =>
    ⟨replaceCell grid.rows coord (.launcher ⟨projectId⟩), some coord⟩

def setFocus (grid : GridState) (coord : GridCoord) : GridState :=
  if grid.focused = some coord then grid
  else
    match cellAt grid.rows coord with
    | some _ => { grid with focused := some coord }
    | none => grid

/-! ## Steps -/

inductive Action where
  | openWorkspace (cell : SessionGridCell) (modifiers : Modifiers) (layout : Layout)
  | openLauncher (cell : LauncherGridCell) (layout : Layout)
  | dropWorkspace (cell : SessionGridCell) (target : GridCoord) (position : SplitPosition)
      (layout : Layout)
  | close (row col : ℤ)
  | revertSession (sessionId projectId : String)
  | setFocus (coord : GridCoord)
  | setLauncherProject (projectId : String)

def step (grid : GridState) : Action → GridState
  | .openWorkspace cell modifiers layout => openWorkspaceInGrid grid cell modifiers layout
  | .openLauncher cell layout => openLauncherInGrid grid cell layout
  | .dropWorkspace cell target position layout =>
    dropWorkspaceInGrid grid cell target position layout
  | .close row col => closeCell grid row col
  | .revertSession sessionId projectId => revertSessionToLauncher grid sessionId projectId
  | .setFocus coord => Grid.setFocus grid coord
  | .setLauncherProject projectId => Grid.setLauncherProject grid projectId

end Argmax.Renderer.Grid
