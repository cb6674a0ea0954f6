import Argmax.Error
import Argmax.Lib.Table
import Argmax.Lib.Transition
import Mathlib.Data.List.Sort

/-!
# The change feed of a session

`persistence/events.rs` and the triggers of `persistence/migrations.rs`. Every
mutation of an event or a raw output appends a row to `session_changes`. A client
that holds a cursor into this sequence asks for the changes after it and is
answered with the *current* rows of the entities they name, page by page. A
client without a cursor, or one the feed can no longer serve, is answered with a
bounded tail of the session that replaces what it held.

Both kinds of entities are treated alike, so one table holds both, keyed by kind
and id. The feed prunes itself after certain insertions; here it may be pruned
at any other time as well.
-/

namespace Argmax.Persistence.ChangeFeed

open Argmax.Lib

/-! ## The tables -/

inductive EntityKind where
  | event
  | rawOutput
  deriving DecidableEq

/-- The content of an entity, by kind. -/
inductive Body where
  | event (type message : String) (payload : Json)
  | rawOutput (stream content : String)
  deriving DecidableEq

def Body.kind : Body → EntityKind
  | .event .. => .event
  | .rawOutput .. => .rawOutput

/-- What a change names. -/
structure EntityKey where
  kind : EntityKind
  id : String
  deriving DecidableEq

/-- A row of `events` or of `raw_outputs`. -/
structure FeedRow where
  rowid : ℤ
  id : String
  sessionId : String
  body : Body
  createdAt : String
  deriving DecidableEq

def FeedRow.entity (row : FeedRow) : EntityKey := ⟨row.body.kind, row.id⟩

abbrev EntityTable := Table FeedRow.entity

/-- A row of `session_changes`. -/
structure Change where
  sequence : ℤ
  sessionId : String
  entity : EntityKey
  deriving DecidableEq

/-- The entities, the feed in sequence order, the last sequence number drawn and the
watermarks, zero where there is none. `log` observes every change ever recorded. -/
structure Db where
  rows : EntityTable
  changes : List Change
  head : ℤ
  prunedThrough : String → ℤ
  log : List Change

def Db.empty : Db := ⟨.empty, [], 0, fun _ => 0, []⟩

/-! ## Recording changes -/

/-- Prune the feed through a sequence number. Each session that loses changes remembers
the last one it lost. -/
def prune (db : Db) (through : ℤ) : Db :=
  let lost := db.changes.filter fun change => decide (change.sequence ≤ through)
  { db with
    changes := db.changes.filter fun change => decide (through < change.sequence)
    prunedThrough := fun sessionId =>
      (lost.filter fun change => change.sessionId == sessionId).foldr
        (fun change newest => max change.sequence newest) (db.prunedThrough sessionId) }

/-- Append a change, with the trigger that keeps the feed at its newest fifty thousand. -/
def recordChange (db : Db) (sessionId : String) (entity : EntityKey) : Db :=
  let change : Change := ⟨db.head + 1, sessionId, entity⟩
  let db :=
    { db with
      head := change.sequence
      changes := db.changes ++ [change]
      log := db.log ++ [change] }
  if change.sequence % 256 = 0 then prune db (change.sequence - 49745) else db

def nextRowid (db : Db) (kind : EntityKind) : ℤ :=
  (db.rows.rows.filter fun row => row.entity.kind == kind).foldr
    (fun row newest => max row.rowid newest) 0 + 1

/-- `INSERT`, with its trigger. A taken id is an error. -/
def insertRow (db : Db) (id sessionId : String) (body : Body) (createdAt : String) : Db :=
  let row : FeedRow := ⟨nextRowid db body.kind, id, sessionId, body, createdAt⟩
  match db.rows.insert? row with
  | some rows => recordChange { db with rows := rows } sessionId row.entity
  | none => db

/-- `UPDATE` of one row, with its trigger: a row that changes its session or its id is
a deletion where it was. -/
def updateRow (db : Db) (entity : EntityKey) (id sessionId : String) (body : Body)
    (createdAt : String) : Db :=
  match db.rows.find? entity with
  | none => db
  | some old =>
    let row : FeedRow := ⟨old.rowid, id, sessionId, body, createdAt⟩
    if row.entity.kind ≠ entity.kind ∨
        (row.entity ≠ entity ∧ (db.rows.find? row.entity).isSome) then db
    else
      let db := { db with rows := (db.rows.delete fun r => r.entity == entity).put row }
      let db :=
        if old.sessionId ≠ sessionId ∨ old.id ≠ id then recordChange db old.sessionId entity
        else db
      recordChange db sessionId row.entity

/-- `DELETE` of one row, with its trigger. -/
def deleteRow (db : Db) (entity : EntityKey) : Db :=
  match db.rows.find? entity with
  | none => db
  | some old =>
    recordChange { db with rows := db.rows.delete fun r => r.entity == entity } old.sessionId entity

/-! ## Answers -/

/-- `SessionEventsSinceResult`. -/
structure Page where
  events : List FeedRow
  rawOutputs : List FeedRow
  eventCursor : ℤ
  rawOutputCursor : ℤ
  changeCursor : Option ℤ
  deletedEventIds : List String
  deletedRawOutputIds : List String
  resetRequired : Bool
  hasMore : Bool

def sessionEventPageLimit : ℕ := 500
def sessionTailDurableLimit : ℕ := 2000
def sessionTailOpenRunLimit : ℕ := 5000
def sessionRawOutputPageLimit : ℕ := 100
def sessionChangePageLimit : ℕ := 500

/-- The rows of one kind in a session, by rowid. -/
def sessionRows (db : Db) (sessionId : String) (kind : EntityKind) : List FeedRow :=
  (db.rows.rows.filter fun row =>
    row.sessionId == sessionId && row.entity.kind == kind).insertionSort
      fun a b => a.rowid ≤ b.rowid

/-- `ORDER BY rowid DESC LIMIT n`, oldest first. -/
def newest (n : ℕ) (rows : List FeedRow) : List FeedRow := rows.drop (rows.length - n)

def isDurable (row : FeedRow) : Bool :=
  match row.body with
  | .event type _ _ => type != "message.delta"
  | .rawOutput .. => true

def maxRowCursor (rows : List FeedRow) : ℤ :=
  rows.foldr (fun row newest => max row.rowid newest) 0

/-- `list_event_rows` without a cursor: the newest page, extended back to the durable
row before the run of deltas it begins in, and the newest durable rows. -/
def listEventRows (db : Db) (sessionId : String) : List FeedRow :=
  let rows := sessionRows db sessionId .event
  let page := newest sessionEventPageLimit rows
  let durable := newest sessionTailDurableLimit (rows.filter isDurable)
  let beforePage :=
    match page.head? with
    | some oldest => maxRowCursor (rows.filter fun row =>
        isDurable row && decide (row.rowid < oldest.rowid))
    | none => 0
  let openRun := ((rows.reverse[sessionTailOpenRunLimit]?).map (·.rowid)).getD 0
  let runFloor := max beforePage openRun
  rows.filter fun row => decide (runFloor < row.rowid) || durable.contains row

/-- `list_raw_output_rows` without a cursor. -/
def listRawOutputRows (db : Db) (sessionId : String) : List FeedRow :=
  newest sessionRawOutputPageLimit (sessionRows db sessionId .rawOutput)

/-- `list_authoritative_tail`. The answer of a reset is the same. -/
def listAuthoritativeTail (db : Db) (sessionId : String) : Page :=
  let events := listEventRows db sessionId
  let rawOutputs := listRawOutputRows db sessionId
  { events := events
    rawOutputs := rawOutputs
    eventCursor := maxRowCursor events
    rawOutputCursor := maxRowCursor rawOutputs
    changeCursor := some db.head
    deletedEventIds := []
    deletedRawOutputIds := []
    resetRequired := true
    hasMore := false }

/-- The lengths of serialised values: an entity, an id, and the envelope of a page with
its three cursors. -/
structure Sizes where
  row : FeedRow → ℕ
  id : String → ℕ
  envelope : ℤ → ℤ → ℤ → ℕ

/-- Addition of `usize`, which stops at the largest value. -/
def saturatingAdd (a b : ℕ) : ℕ := min (a + b) (2 ^ 64 - 1)

/-- The state of the loop that fills a page. -/
structure Filling where
  included : List EntityKey
  consumed : ℕ
  lastConsumedSequence : ℤ
  spent : ℕ

/-- What a change adds to the page: nothing without a budget or for an entity that is
in it already. One byte covers the comma. -/
def contribution (sizes : Sizes) (current : EntityKey → Option FeedRow)
    (budget : Option ℕ) (included : List EntityKey) (entity : EntityKey) : ℕ :=
  if budget.isNone || included.contains entity then 0
  else
    match current entity with
    | some row => saturatingAdd (sizes.row row) 1
    | none => saturatingAdd (sizes.id entity.id) 1

/-- The loop over the candidates. The first entity is taken whatever its size. -/
def fill (sizes : Sizes) (current : EntityKey → Option FeedRow) (budget : Option ℕ) :
    Filling → List Change → Filling
  | filling, [] => filling
  | filling, change :: changes =>
    let adds := contribution sizes current budget filling.included change.entity
    let full := budget.any fun budget =>
      decide (0 < adds) && !filling.included.isEmpty &&
        decide (budget < saturatingAdd filling.spent adds)
    if full then filling
    else
      fill sizes current budget
        { included :=
            if filling.included.contains change.entity then filling.included
            else filling.included ++ [change.entity]
          consumed := filling.consumed + 1
          lastConsumedSequence := change.sequence
          spent := saturatingAdd filling.spent adds }
        changes

/-- `list_events_by_ids` and `list_raw_outputs_by_ids`: the rows a session has now. -/
def listByIds (db : Db) (sessionId : String) (kind : EntityKind) (ids : List EntityKey) :
    List FeedRow :=
  (sessionRows db sessionId kind).filter fun row => ids.contains row.entity

/-- The ids of one kind that no row of the page has. -/
def deletedIds (kind : EntityKind) (included : List EntityKey) (rows : List FeedRow) :
    List String :=
  (included.filter fun entity =>
    entity.kind == kind && !rows.any fun row => row.entity == entity).map (·.id)

def listChangePage (sizes : Sizes) (db : Db) (sessionId : String) (cursor : ℤ)
    (budget : Option ℕ) : ArgmaxResult Page :=
  if cursor < 0 then
    .error (.invalid ⟨["changeCursor"], "CHANGE_CURSOR_NEGATIVE",
      "change cursor must be zero or greater"⟩)
  else if db.head < cursor ∨ cursor < db.prunedThrough sessionId then
    .ok (listAuthoritativeTail db sessionId)
  else
    let changes := (db.changes.filter fun change =>
      change.sessionId == sessionId && decide (cursor < change.sequence) &&
        decide (change.sequence ≤ db.head)).take (sessionChangePageLimit + 1)
    let candidates := changes.take sessionChangePageLimit
    let ids := candidates.map (·.entity)
    let candidateEvents := listByIds db sessionId .event ids
    let candidateRawOutputs := listByIds db sessionId .rawOutput ids
    let current := fun entity =>
      (candidateEvents ++ candidateRawOutputs).find? fun row => row.entity == entity
    let spent :=
      if budget.isSome then
        sizes.envelope (maxRowCursor candidateEvents) (maxRowCursor candidateRawOutputs) db.head
      else 0
    let filled := fill sizes current budget ⟨[], 0, cursor, spent⟩ candidates
    let hasMore := decide (filled.consumed < changes.length)
    let events := candidateEvents.filter fun row => filled.included.contains row.entity
    let rawOutputs :=
      candidateRawOutputs.filter fun row => filled.included.contains row.entity
    .ok
      { events := events
        rawOutputs := rawOutputs
        eventCursor := maxRowCursor events
        rawOutputCursor := maxRowCursor rawOutputs
        changeCursor := some (if hasMore then filled.lastConsumedSequence else db.head)
        deletedEventIds := deletedIds .event filled.included events
        deletedRawOutputIds := deletedIds .rawOutput filled.included rawOutputs
        resetRequired := false
        hasMore := hasMore }

/-- `list_session_changes_since_with_budget`, for a client that uses no row cursors. -/
def listSessionChangesSinceWithBudget (sizes : Sizes) (db : Db) (sessionId : String)
    (changeCursor : Option ℤ) (budget : Option ℕ) : ArgmaxResult Page :=
  match changeCursor with
  | some cursor => listChangePage sizes db sessionId cursor budget
  | none => .ok (listAuthoritativeTail db sessionId)

/-! ## The client -/

namespace Page

def rows (page : Page) : List FeedRow := page.events ++ page.rawOutputs

def deleted (page : Page) : List EntityKey :=
  page.deletedEventIds.map (⟨.event, ·⟩) ++ page.deletedRawOutputIds.map (⟨.rawOutput, ·⟩)

end Page

/-- What a client of one session holds, and the cursor it was last given. -/
structure Client where
  held : EntityTable
  cursor : Option ℤ

/-- Replace everything, or upsert the rows and drop the deleted ids. -/
def Client.apply (client : Client) (page : Page) : Client where
  held :=
    if page.resetRequired then page.rows.foldl Table.put .empty
    else page.rows.foldl Table.put (client.held.delete fun row => page.deleted.contains row.entity)
  cursor := page.changeCursor

/-! ## Runs -/

/-- The database, a client of one session, and, for observation only, the entities the
client was sent or that changed since its first read, and those since its last
authoritative one. -/
structure State where
  db : Db
  client : Client
  known : List EntityKey
  recent : List EntityKey

def start : State := ⟨.empty, ⟨.empty, none⟩, [], []⟩

/-- One step. -/
inductive Action where
  | insert (id sessionId : String) (body : Body) (createdAt : String)
  | update (entity : EntityKey) (id sessionId : String) (body : Body) (createdAt : String)
  | delete (entity : EntityKey)
  | prune (through : ℤ)
  | poll (budget : Option ℕ)

/-- The entities of a session that changes name. -/
def named (sessionId : String) (changes : List Change) : List EntityKey :=
  (changes.filter fun change => change.sessionId == sessionId).map (·.entity)

/-- A mutation. What it changes in the client's session counts as changed from the
client's first read on. -/
def mutate (sessionId : String) (s : State) (db : Db) : State :=
  let changed :=
    if s.client.cursor.isSome then named sessionId (db.log.drop s.db.log.length) else []
  { s with db := db, known := changed ++ s.known, recent := changed ++ s.recent }

/-- An answer reaches the client. -/
def receive (s : State) (page : Page) : State :=
  let sent := page.rows.map (·.entity)
  { s with
    client := s.client.apply page
    known := sent ++ s.known
    recent := if page.resetRequired then sent else sent ++ s.recent }

def step (sizes : Sizes) (sessionId : String) (s : State) : Action → State
  | .insert id owner body createdAt =>
    mutate sessionId s (insertRow s.db id owner body createdAt)
  | .update entity id owner body createdAt =>
    mutate sessionId s (updateRow s.db entity id owner body createdAt)
  | .delete entity => mutate sessionId s (deleteRow s.db entity)
  | .prune through => { s with db := prune s.db through }
  | .poll budget =>
    match listSessionChangesSinceWithBudget sizes s.db sessionId s.client.cursor budget with
    | .ok page => receive s page
    | .error _ => s

end Argmax.Persistence.ChangeFeed
