import Argmax.Lib.Table
import Argmax.Routines.Schedule
import Mathlib.Data.List.Sort

/-!
# The routines table

`persistence/routines.rs`. Every mutation of a row moves its `updated_at` forward, so
that the value serves as a token: what settles a run applies only while the row still
has the token the run began with.

The columns that no function here reads are left out: `worktree`, a copy of the run
target, and `created_at`.
-/

namespace Argmax.Persistence.Routines

open Argmax.Lib Argmax.Routines

/-- Where a firing lands. -/
inductive RoutineRunTarget where
  | newSession
  | sameSession
  | worktree
  | arcCoordinator
  deriving DecidableEq

/-- Who put the routine in the list. -/
inductive RoutineAuthor where
  | user
  | agent
  deriving DecidableEq

/-- A row. -/
structure Routine where
  id : String
  name : String
  projectId : String
  prompt : String
  provider : String
  modelLabel : String
  modelId : String
  runTarget : RoutineRunTarget
  lastSessionId : Option String
  arcId : Option String
  schedule : Schedule
  enabled : Bool
  lastRunAt : Option ℤ
  nextRunAt : Option ℤ
  lastError : Option String
  createdBy : RoutineAuthor
  updatedAt : ℤ
  deriving DecidableEq

abbrev RoutineTable := Table Routine.id

/-- What the scheduler copies out of a row. -/
structure RoutineLaunchFields where
  id : String
  name : String
  projectId : String
  prompt : String
  provider : String
  modelLabel : String
  modelId : String
  runTarget : RoutineRunTarget
  lastSessionId : Option String
  arcId : Option String
  schedule : Schedule
  enabled : Bool
  updatedAt : ℤ
  createdBy : RoutineAuthor

def routineLaunchFields (routine : Routine) : RoutineLaunchFields where
  id := routine.id
  name := routine.name
  projectId := routine.projectId
  prompt := routine.prompt
  provider := routine.provider
  modelLabel := routine.modelLabel
  modelId := routine.modelId
  runTarget := routine.runTarget
  lastSessionId := routine.lastSessionId
  arcId := routine.arcId
  schedule := routine.schedule
  enabled := routine.enabled
  updatedAt := routine.updatedAt
  createdBy := routine.createdBy

/-- What a save provides, with its schedule validated. -/
structure UpsertRoutineInput where
  id : String
  name : String
  projectId : String
  prompt : String
  provider : String
  modelLabel : String
  modelId : String
  runTarget : RoutineRunTarget
  arcId : Option String
  schedule : Schedule
  enabled : Bool
  createdBy : RoutineAuthor

/-- `next_routine_updated_at`: the clock, unless the row is already there or beyond. -/
def nextRoutineUpdatedAt (table : RoutineTable) (id : String) (now : ℤ) : ℤ :=
  match table.find? id with
  | some row => if now ≤ row.updatedAt then row.updatedAt + 1 else now
  | none => now

/-- `UPDATE routines SET … WHERE id = ? AND …`, and whether a row matched. -/
def updateRoutine (table : RoutineTable) (id : String) (applies : Routine → Bool)
    (change : Routine → Routine) : RoutineTable × Bool :=
  match table.find? id with
  | some row => if applies row then (table.put (change row), true) else (table, false)
  | none => (table, false)

/-- `set_routine_last_session`, and whether the row exists. -/
def setRoutineLastSession (table : RoutineTable) (id : String) (sessionId : Option String)
    (now : ℤ) : RoutineTable × Bool :=
  updateRoutine table id (fun _ => true) fun row =>
    { row with
      lastSessionId := sessionId
      updatedAt := nextRoutineUpdatedAt table id now }

/-- `upsert_routine`. A row that leaves the shared chat loses its pointer, in a second
statement with its own reading of the clock. -/
def upsertRoutine (table : RoutineTable) (input : UpsertRoutineInput)
    (nextRunAt : Option ℤ) (now now' : ℤ) : RoutineTable :=
  let old := table.find? input.id
  let table := table.put
    { id := input.id
      name := input.name
      projectId := input.projectId
      prompt := input.prompt
      provider := input.provider
      modelLabel := input.modelLabel
      modelId := input.modelId
      runTarget := input.runTarget
      lastSessionId := old.bind (·.lastSessionId)
      arcId := input.arcId
      schedule := input.schedule
      enabled := input.enabled
      lastRunAt := old.bind (·.lastRunAt)
      nextRunAt := nextRunAt
      lastError := none
      createdBy := input.createdBy
      updatedAt := nextRoutineUpdatedAt table input.id now }
  if input.runTarget = .sameSession then table
  else (setRoutineLastSession table input.id none now').1

/-- `set_routine_enabled`, and whether the row exists. -/
def setRoutineEnabled (table : RoutineTable) (id : String) (enabled : Bool)
    (nextRunAt : Option ℤ) (now : ℤ) : RoutineTable × Bool :=
  updateRoutine table id (fun _ => true) fun row =>
    { row with
      enabled := enabled
      nextRunAt := nextRunAt
      lastError := none
      updatedAt := nextRoutineUpdatedAt table id now }

/-- `delete_routine`, and whether the row existed. -/
def deleteRoutine (table : RoutineTable) (id : String) : RoutineTable × Bool :=
  (table.delete fun row => row.id == id, (table.find? id).isSome)

/-- `delete_spent_routine`: `DELETE … WHERE id = ? AND updated_at = ?`. -/
def deleteSpentRoutine (table : RoutineTable) (id : String) (updatedAt : ℤ) : RoutineTable × Bool :=
  (table.delete fun row => row.id == id && row.updatedAt == updatedAt,
    (table.find? id).any fun row => row.updatedAt == updatedAt)

/-- `due_routines`, oldest first. -/
def dueRoutines (table : RoutineTable) (now : ℤ) : List RoutineLaunchFields :=
  let due := table.rows.filter fun row => row.enabled && row.nextRunAt.any (· ≤ now)
  (due.insertionSort fun a b =>
    a.nextRunAt.getD 0 < b.nextRunAt.getD 0 ∨
      (a.nextRunAt.getD 0 = b.nextRunAt.getD 0 ∧ a.id ≤ b.id)).map routineLaunchFields

/-- `mark_routine_run`: applies only while the row has the run's token. -/
def markRoutineRun (table : RoutineTable) (fields : RoutineLaunchFields) (lastRunAt : ℤ)
    (nextRunAt : Option ℤ) (lastError : Option String) (enabled : Bool)
    (launchedSessionId : Option String) (now : ℤ) : RoutineTable × Bool :=
  updateRoutine table fields.id (fun row => row.updatedAt == fields.updatedAt) fun row =>
    { row with
      lastRunAt := some lastRunAt
      nextRunAt := nextRunAt
      lastError := lastError
      enabled := enabled
      lastSessionId := launchedSessionId.or row.lastSessionId
      updatedAt := nextRoutineUpdatedAt table fields.id now }

/-- `retire_fired_one_shot`: applies while the row still has the time that fired. -/
def retireFiredOneShot (table : RoutineTable) (id : String) (firedRunOnceAt lastRunAt : ℤ)
    (now : ℤ) : RoutineTable × Bool :=
  updateRoutine table id
    (fun row => row.schedule.cronExpr.isNone && row.schedule.runOnceAt == some firedRunOnceAt)
    fun row =>
      { row with
        enabled := false
        nextRunAt := none
        lastRunAt := some lastRunAt
        updatedAt := nextRoutineUpdatedAt table id now }

/-! ## What each statement does to the row of an id -/

theorem lt_nextRoutineUpdatedAt {table : RoutineTable} {id : String} {row : Routine}
    (h : table.find? id = some row) (now : ℤ) :
    row.updatedAt < nextRoutineUpdatedAt table id now := by
  rw [nextRoutineUpdatedAt, h]
  dsimp only
  split <;> omega

section Update

variable {table : RoutineTable} {id : String} {applies : Routine → Bool}
  {change : Routine → Routine}

/-- An update that keeps the id rewrites the row it applies to. -/
theorem find?_updateRoutine (hid : ∀ row, (change row).id = row.id) (other : String) :
    (updateRoutine table id applies change).1.find? other =
      if other = id then
        (table.find? id).map fun row => if applies row then change row else row
      else table.find? other := by
  rw [updateRoutine]
  cases hrow : table.find? id with
  | none =>
    by_cases hother : other = id
    · rw [if_pos hother, hother]
      exact hrow
    · rw [if_neg hother]
  | some row =>
    have hkey : row.id = id := Table.key_of_find? hrow
    dsimp only [Option.map_some]
    by_cases happ : applies row = true
    · rw [if_pos happ]
      rw [Table.find?_put, hid, hkey, if_pos happ]
      by_cases hother : other = id
      · rw [if_pos hother, if_pos hother.symm]
      · rw [if_neg (fun heq => hother heq.symm), if_neg hother]
    · rw [if_neg happ, if_neg happ]
      by_cases hother : other = id
      · rw [if_pos hother, hother]
        exact hrow
      · rw [if_neg hother]

theorem updateRoutine_self (hid : ∀ row, (change row).id = row.id) {row : Routine}
    (h : table.find? id = some row) :
    (updateRoutine table id applies change).1.find? id =
      some (if applies row then change row else row) := by
  rw [find?_updateRoutine hid, if_pos rfl, h]
  rfl

theorem updateRoutine_others (hid : ∀ row, (change row).id = row.id) (other : String)
    (hother : other ≠ id) :
    (updateRoutine table id applies change).1.find? other = table.find? other := by
  rw [find?_updateRoutine hid, if_neg hother]

/-- An update reports that it applied exactly when it did. -/
theorem updateRoutine_snd :
    (updateRoutine table id applies change).2 = true ↔
      ∃ row, table.find? id = some row ∧ applies row = true := by
  rw [updateRoutine]
  cases hrow : table.find? id with
  | none => simp
  | some row =>
    by_cases happ : applies row = true
    · simp [happ]
    · simp [happ]

end Update

end Argmax.Persistence.Routines
