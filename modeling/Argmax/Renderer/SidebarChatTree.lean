import Argmax.Lib.Ancestry
import Argmax.Lib.Table
import Argmax.Lib.Text

/-!
# The chat tree of the sidebar

`lib/sidebarChatTree.ts`, with what it takes from `lib/workspaceChat.ts` and `lib/projects.ts`. A
workspace stands below the workspace whose chat launched its own chat. Cycles of launches are cut.
The loops have a bound on their steps, and `none` is a loop that did not end within it.
-/

namespace Argmax.Renderer.SidebarChatTree

open Argmax.Lib Argmax.Lib.Text

/-- `WorkspaceSummary`, as far as the tree reads it. -/
structure WorkspaceSummary where
  id : String
  pinned : Bool
  lastActivityAt : String
  deriving DecidableEq

/-- `SessionSummary`, as far as the tree reads it. -/
structure SessionSummary where
  id : String
  workspaceId : String
  launchedBySessionId : Option String
  lastActivityAt : String

/-! ## Maps -/

/-- A `Map` with strings as its keys, in the order of insertion. -/
abbrev StringMap (α : Type) := Table (Prod.fst : String × α → String)

namespace StringMap

variable {α : Type}

def get (map : StringMap α) (key : String) : Option α := (map.find? key).map Prod.snd

def set (map : StringMap α) (key : String) (value : α) : StringMap α := map.put (key, value)

def keys (map : StringMap α) : List String := map.rows.map Prod.fst

/-- `delete`, for some keys. -/
def deleteAll (map : StringMap α) (keys : List String) : StringMap α :=
  map.delete fun row => keys.contains row.1

/-- `set` on every key that the map has. -/
def mapValues (map : StringMap α) (f : α → α) : StringMap α :=
  map.update (fun row => (row.1, f row.2)) fun _ => rfl

@[simp] theorem get_empty (key : String) : get (.empty : StringMap α) key = none := rfl

@[simp] theorem get_set (map : StringMap α) (key key' : String) (value : α) :
    get (set map key value) key' = if key = key' then some value else get map key' := by
  rw [get, set, Table.find?_put]
  split <;> rfl

theorem get_eq_some {map : StringMap α} {key : String} {value : α} :
    get map key = some value ↔ (key, value) ∈ map := by
  rw [get, Option.map_eq_some_iff]
  constructor
  · rintro ⟨row, hrow, rfl⟩
    rw [← Table.key_of_find? hrow]
    exact Table.mem_of_find? hrow
  · intro h
    exact ⟨_, Table.find?_of_mem h, rfl⟩

@[simp] theorem get_deleteAll (map : StringMap α) (keys : List String) (key : String) :
    get (deleteAll map keys) key = if key ∈ keys then none else get map key := by
  ext value
  rw [get_eq_some, deleteAll]
  by_cases hkey : key ∈ keys
  · simp [hkey]
  · simp [hkey, get_eq_some]

@[simp] theorem get_mapValues (map : StringMap α) (f : α → α) (key : String) :
    get (mapValues map f) key = (get map key).map f := by
  rw [get, mapValues, Table.find?_update, get, Option.map_map, Option.map_map]
  rfl

theorem mem_keys {map : StringMap α} {key : String} : key ∈ keys map ↔ get map key ≠ none := by
  rw [keys, List.mem_map, Option.ne_none_iff_exists']
  constructor
  · rintro ⟨row, hrow, rfl⟩
    exact ⟨row.2, get_eq_some.mpr hrow⟩
  · rintro ⟨value, hvalue⟩
    exact ⟨_, get_eq_some.mp hvalue, rfl⟩

end StringMap

/-- `<` on strings compares UTF-16 units. -/
def stringLess (left right : String) : Bool :=
  decide (utf16Units left.toList < utf16Units right.toList)

/-! ## The chat of a workspace -/

def isLaterChat (candidate held : SessionSummary) : Bool :=
  if candidate.lastActivityAt ≠ held.lastActivityAt then
    stringLess held.lastActivityAt candidate.lastActivityAt
  else stringLess held.id candidate.id

def chatSessionByWorkspace (sessions : List SessionSummary) : StringMap SessionSummary :=
  sessions.foldl (fun byWorkspace session =>
    match byWorkspace.get session.workspaceId with
    | none => byWorkspace.set session.workspaceId session
    | some held =>
      if isLaterChat session held then byWorkspace.set session.workspaceId session
      else byWorkspace) .empty

/-! ## The order of a group -/

/-- The place of a workspace in the manual order. -/
def rank (manualOrder : List String) (id : String) : Option ℕ :=
  (manualOrder.zipIdx.reverse.find? fun entry => entry.1 == id).map Prod.snd

/-- Whether the comparison of `sortWorkspaceGroup` lets `a` stand before `b`. -/
def comesBefore (manualOrder : List String) (a b : WorkspaceSummary) : Bool :=
  let byActivity := a.lastActivityAt == b.lastActivityAt ||
    !stringLess a.lastActivityAt b.lastActivityAt
  if a.pinned ≠ b.pinned then a.pinned
  else
    match rank manualOrder a.id, rank manualOrder b.id with
    | none, none => byActivity
    | none, some _ => false
    | some _, none => true
    | some ra, some rb => if ra ≠ rb then decide (ra < rb) else byActivity

def sortWorkspaceGroup (workspaces : List WorkspaceSummary) (manualOrder : List String) :
    List WorkspaceSummary :=
  workspaces.mergeSort (comesBefore manualOrder)

/-! ## The tree -/

structure ChatTree where
  childrenByWorkspace : StringMap (List WorkspaceSummary)
  rootByWorkspace : StringMap String
  parentByWorkspace : StringMap String

section Loops

variable (workspaces : List WorkspaceSummary) (sessions : List SessionSummary)
  (detachedIds : List String)

/-- The workspace of the session that launched the chat of a workspace. An empty id launches
nothing. -/
def launcher (workspaceId : String) : Option String :=
  let sessionById : StringMap SessionSummary :=
    sessions.foldl (fun byId session => byId.set session.id session) .empty
  (((chatSessionByWorkspace sessions).get workspaceId).bind (·.launchedBySessionId)).bind
    fun parentSessionId =>
      if parentSessionId = "" then none
      else (sessionById.get parentSessionId).map (·.workspaceId)

/-- The parent that the first loop gives a workspace. -/
def launchParent (workspace : WorkspaceSummary) : Option String :=
  if workspace.pinned || detachedIds.contains workspace.id then none
  else (launcher sessions workspace.id).filter fun parentId =>
    parentId != "" && parentId != workspace.id && (workspaces.map (·.id)).contains parentId

/-- The first loop. -/
def launchParents : StringMap String :=
  workspaces.foldl (fun parents workspace =>
    match launchParent workspaces sessions detachedIds workspace with
    | some parentId => parents.set workspace.id parentId
    | none => parents) .empty

/-- What the second loop has done: the parents that are left, and the ids that it has visited. -/
structure Cutting where
  parents : StringMap String
  visited : List String

/-- Where a walk ends without a cycle. -/
def Cutting.stops (cutting : Cutting) (id : String) : Bool :=
  id == "" || cutting.visited.contains id

/-- One turn of the second loop. A key that has been deleted is not reached. -/
def Cutting.visit (fuel : ℕ) (cutting : Cutting) (workspaceId : String) : Option Cutting :=
  if cutting.parents.get workspaceId = none then some cutting
  else
    (climb cutting.parents.get cutting.stops fuel [] (some workspaceId)).map fun (path, cycle) =>
      ⟨cutting.parents.deleteAll (cycleOf path cycle), cutting.visited ++ path⟩

/-- The second loop. -/
def cutCycles (fuel : ℕ) (parents : StringMap String) : Option (StringMap String) :=
  (parents.keys.foldlM (Cutting.visit fuel) ⟨parents, []⟩).map (·.parents)

/-- What the third loop has filed. -/
structure Placing where
  children : StringMap (List WorkspaceSummary)
  roots : StringMap String

/-- One turn of the third loop. -/
def Placing.place (fuel : ℕ) (parents : StringMap String) (placing : Placing)
    (workspace : WorkspaceSummary) : Option Placing :=
  match parents.get workspace.id with
  | none => some placing
  | some parentId =>
    if parentId = "" then some placing
    else
      (rootOf parents.get fuel parentId).map fun rootId =>
        ⟨placing.children.set parentId ((placing.children.get parentId).getD [] ++ [workspace]),
          placing.roots.set workspace.id rootId⟩

/-- The third loop. -/
def placeWorkspaces (fuel : ℕ) (parents : StringMap String) : Option Placing :=
  workspaces.foldlM (Placing.place fuel parents)
    ⟨.empty, workspaces.foldl (fun roots workspace => roots.set workspace.id workspace.id) .empty⟩

def buildSidebarChatTree (fuel : ℕ) (nested : Bool) : Option ChatTree :=
  if !nested then
    some ⟨.empty, workspaces.foldl (fun roots workspace => roots.set workspace.id workspace.id)
      .empty, .empty⟩
  else do
    let parents ← cutCycles fuel (launchParents workspaces sessions detachedIds)
    let placing ← placeWorkspaces workspaces fuel parents
    pure ⟨placing.children.mapValues fun children => sortWorkspaceGroup children [],
      placing.roots, parents⟩

end Loops

end Argmax.Renderer.SidebarChatTree
