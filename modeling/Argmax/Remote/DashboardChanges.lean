import Argmax.Json
import Argmax.Lib.Table
import Mathlib.Data.String.Basic

/-!
# The dashboard as changes

`remote/dashboard_changes.rs`: a client that names the snapshot it holds is answered
with what differs from it, as long as the host still holds that snapshot too. The
client's half is that of the module's tests and that of the phone
(`DashboardChanges.swift`), which refuses an answer that does not add up.

The digest of a snapshot is a parameter.
-/

namespace Argmax.Remote.DashboardChanges

open Argmax.Lib Std

/-! ## Values -/

/-- A `serde_json::Map`, ordered by key. -/
abbrev JsonMap := ExtTreeMap String Json

/-- A snapshot is an object, if all is well. -/
inductive Snapshot where
  | object (map : JsonMap)
  | other (value : Json)

/-- The change of an array of rows. -/
structure RowChanges where
  upsert : List Json
  remove : List String
  order : Option (List String)

/-- An answer: a snapshot with its digest, if it has one, or what differs from a base. -/
inductive Answer where
  | full (digest : Option String) (snapshot : Snapshot)
  | diff (digest base : String) (collections : List (String × RowChanges))
      (replace : List (String × Json)) (remove : List String)

/-- `row.get("id")?.as_str()`. -/
def rowId (row : Json) : Option String := (row.get "id").bind Json.asStr

/-- The rows with their ids, if each has one. -/
def identified : List Json → Option (List (String × Json))
  | [] => some []
  | row :: rows => (rowId row).bind fun id => (identified rows).map ((id, row) :: ·)

/-- `keyed_rows`: an array whose every element has an id of its own. -/
def keyedRows (value : Json) : Option (List (String × Json)) :=
  value.asArray.bind fun rows =>
    (identified rows).bind fun keyed =>
      if (keyed.map (·.1)).Nodup then some keyed else none

/-- A `HashMap` of rows: of several with one id the last one. -/
def byId (rows : List (String × Json)) : Table (Prod.fst : String × Json → String) :=
  rows.foldl Table.put .empty

/-! ## The host -/

def diffRows (rows before : List (String × Json)) : RowChanges :=
  let kept := (before.map (·.1)).filter fun id => (rows.map (·.1)).contains id
  let order := rows.map (·.1)
  { upsert := (rows.filter fun row => decide ((byId before).find? row.1 ≠ some row)).map (·.2)
    remove := (before.map (·.1)).filter fun id => !(rows.map (·.1)).contains id
    order := if order ≠ kept then some order else none }

/-- What `diff` does with a key whose value has changed: the changes of its rows, if it
has rows on both sides. -/
def rowsChanged (previous : JsonMap) (key : String) (value : Json) : Option RowChanges :=
  match keyedRows value, previous[key]?.bind keyedRows with
  | some rows, some before => some (diffRows rows before)
  | _, _ => none

def diff (baseDigest : String) (previous : JsonMap) (digest : String) (snapshot : JsonMap) :
    Answer :=
  let changed := snapshot.toList.filter fun entry => decide (previous[entry.1]? ≠ some entry.2)
  .diff digest baseDigest
    (changed.filterMap fun entry =>
      (rowsChanged previous entry.1 entry.2).map fun changes => (entry.1, changes))
    (changed.filter fun entry => (rowsChanged previous entry.1 entry.2).isNone)
    ((previous.toList.map (·.1)).filter fun key => !snapshot.contains key)

def baselineCapacity : ℕ := 4

/-- `DashboardBaselines`: the last snapshots by digest, the oldest first. -/
abbrev DashboardBaselines := List (String × JsonMap)

def changes (digest : JsonMap → String) (recent : DashboardBaselines) (snapshot : Snapshot)
    (baseDigest : Option String) : Answer × DashboardBaselines :=
  match snapshot with
  | .other value => (.full none (.other value), recent)
  | .object snapshot =>
    let named := baseDigest.bind fun base => recent.find? fun held => decide (held.1 = base)
    let answer :=
      match named with
      | some (base, previous) => diff base previous (digest snapshot) snapshot
      | none => .full (some (digest snapshot)) (.object snapshot)
    let recent := (recent.filter fun held => decide (held.1 ≠ digest snapshot)) ++
      [(digest snapshot, snapshot)]
    (answer, recent.drop (recent.length - baselineCapacity))

/-! ## The client -/

/-- The rows of a collection after a change: `by_id` in the `order`. -/
def applyRows (rows : List Json) (change : RowChanges) : Option (List Json) :=
  (identified rows).bind fun held =>
    (identified change.upsert).bind fun upserts =>
      let order := change.order.getD ((held.map (·.1)).filter fun id => !change.remove.contains id)
      order.mapM fun id => ((byId (held ++ upserts)).find? id).map (·.2)

/-- `merge(rows:upsert:remove:order:)` of the phone: no row twice, and each upserted row
has a place. -/
def mergeRows (rows : List Json) (change : RowChanges) : Option (List Json) :=
  (identified rows).bind fun held =>
    (identified change.upsert).bind fun upserts =>
      let order := change.order.getD ((held.map (·.1)).filter fun id => !change.remove.contains id)
      if order.Nodup ∧ (upserts.map (·.1)).all order.contains then
        order.mapM fun id => ((byId (held ++ upserts)).find? id).map (·.2)
      else none

section Apply

variable (rowsOf : List Json → RowChanges → Option (List Json))

/-- One collection of a snapshot changed. -/
def applyCollection (next : JsonMap) (collection : String × RowChanges) : Option JsonMap :=
  (next[collection.1]?.bind Json.asArray).bind fun rows =>
    (rowsOf rows collection.2).map fun rows => next.insert collection.1 (.array rows)

/-- The parts of a difference, applied: keys that are gone, values that are replaced, and
collections. -/
def applyDiff (base : JsonMap) (collections : List (String × RowChanges))
    (replace : List (String × Json)) (remove : List String) : Option JsonMap :=
  let next := remove.foldl (fun next key => next.erase key) base
  let next := replace.foldl (fun next entry => next.insert entry.1 entry.2) next
  collections.foldlM (applyCollection rowsOf) next

end Apply

/-- `apply`, of the tests. -/
def apply (base : JsonMap) : Answer → Option JsonMap
  | .full _ (.object snapshot) => some snapshot
  | .full _ (.other _) => none
  | .diff _ _ collections replace remove => applyDiff applyRows base collections replace remove

/-- What the phone holds: a snapshot with its digest. -/
structure Held where
  digest : String
  value : JsonMap

/-- `merge(_:into:)`, of the phone: the answer has to be to the digest it holds. -/
def merge (answer : Answer) (base : Option Held) : Option Held :=
  match answer with
  | .full (some digest) (.object snapshot) => some ⟨digest, snapshot⟩
  | .full _ _ => none
  | .diff digest baseDigest collections replace remove =>
    base.bind fun base =>
      if baseDigest = base.digest then
        (applyDiff mergeRows base.value collections replace remove).map fun next => ⟨digest, next⟩
      else none

end Argmax.Remote.DashboardChanges
