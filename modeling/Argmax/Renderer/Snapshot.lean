import Argmax.Renderer.TurnBoundaries

/-!
# Merging a delta into the renderer's snapshot

`snapshot.ts`. Rows in hand are upserted by id into the rows of a slice, which is sorted
again and cut at its limit. Events have a budget for each of four kinds, and lose the
deltas that an answer supersedes.

A delta's rows are new objects, so an upsert of any row counts as a change. The slices
of checks and arcs, which the host's deltas never carry, are left out. `localeCompare`
is a parameter: any total order of texts.
-/

namespace Argmax.Renderer

open Argmax.Lib Argmax.Providers

/-- `localeCompare`: a total preorder of texts. -/
structure Collation where
  le : String → String → Bool
  trans : ∀ a b c, le a b = true → le b c = true → le a c = true
  total : ∀ a b, (le a b || le b a) = true

/-- The slices of the dashboard. A record of queues is a map from sessions. -/
structure Snapshot where
  projects : List ProjectSummary
  workspaces : List WorkspaceSummary
  sessions : List SessionSummary
  events : List TimelineEvent
  rawOutputs : List RawProviderOutput
  approvals : List ApprovalRow
  pendingMessages : String → Option (List PendingMessage)

/-! ## Slices -/

section Slice

variable {T : Type*} (id : T → String)

/-- `new Map(rows.map(row => [row.id, row]))`. -/
def byId (rows : List T) : Table id := rows.foldl Table.put .empty

/-- `upsertById`: a row keeps the place of the row it replaces. -/
def upsertById (current updates : List T) : List T :=
  if updates.isEmpty then current else (updates.foldl Table.put (byId id current)).rows

end Slice

section Sorting

variable {T : Type*} (collation : Collation) (timestamp : T → String)
  (order : T → Option ℤ)

/-- The comparison of `sortByTimestamp`: descending by cursor, else by timestamp. -/
def comesBefore (left right : T) : Bool :=
  match order left, order right with
  | some l, some r =>
    if l ≠ r then decide (r ≤ l) else collation.le (timestamp right) (timestamp left)
  | _, _ => collation.le (timestamp right) (timestamp left)

/-- `sortByTimestamp`. The sort is stable. -/
def sortByTimestamp (rows : List T) : List T :=
  rows.mergeSort (comesBefore collation timestamp order)

def mergeSlice (id : T → String) (limit : Option ℕ) (current updates : List T) : List T :=
  if updates.isEmpty then current
  else
    let sorted := sortByTimestamp collation timestamp order (upsertById id current updates)
    match limit with
    | some limit => sorted.take limit
    | none => sorted

end Sorting

/-! ## Projects -/

/-- `mergeProjectSummary`: a newer overview stays. -/
def mergeProjectSummary (existing : Option ProjectSummary) (incoming : ProjectSummary) :
    ProjectSummary :=
  match existing.bind (·.overview) with
  | some overview =>
    if (incoming.overview.map (·.revision)).getD 0 < overview.revision then
      { incoming with overview := some overview }
    else incoming
  | none => incoming

/-- The projects of a delta, each against the project it replaces. -/
def mergeProjects (collation : Collation) (current updates : List ProjectSummary) :
    List ProjectSummary :=
  mergeSlice collation (fun project => project.latestActivityAt.getD "") (fun _ => none)
    (·.id) none current
    (updates.map fun project =>
      mergeProjectSummary ((byId (·.id) current).find? project.id) project)

/-! ## Events -/

def eventDeltaLimit : ℕ := 4000
def eventThinkingLimit : ℕ := 1000
def eventTraceImportLimit : ℕ := 1000
def eventProtectedLimit : ℕ := 2000

def isAfter (left right : TimelineEvent) : Bool :=
  match left.rowCursor, right.rowCursor with
  | some l, some r => decide (r < l)
  | _, _ => decide (right.createdAt < left.createdAt)

/-- `pruneSupersededDeltas`, of events in either order. -/
def pruneSupersededDeltas (decode : Decoder) (events : List TimelineEvent) : List TimelineEvent :=
  match events.head?, events.getLast? with
  | some first, some last =>
    if events.length < 2 then events
    else
      let isDescending := isAfter first last
      let ascending := if isDescending then events.reverse else events
      let superseded := supersededAnswerDeltaIds decode ascending
      let kept := ascending.filter fun event => !superseded.contains event.id
      if isDescending then kept.reverse else kept
  | _, _ => events

/-- `appendNewerEvents`: new rows on top of rows that are in order below them. -/
def appendNewerEvents (collation : Collation) (current updates : List TimelineEvent) :
    Option (List TimelineEvent) :=
  let fresh := updates.all (·.rowCursor.isSome) && decide (updates.map (·.id)).Nodup
  let inOrder := current.all fun event =>
    event.rowCursor.isSome && !(updates.map (·.id)).contains event.id &&
      updates.all fun update =>
        decide (event.rowCursor.getD 0 < update.rowCursor.getD 0)
  let descending :=
    decide (current.Pairwise fun a b => b.rowCursor.getD 0 < a.rowCursor.getD 0)
  if !updates.isEmpty && fresh && inOrder && descending then
    some (sortByTimestamp collation (·.createdAt) (·.rowCursor) updates ++ current)
  else none

/-- How many events of each kind are kept so far. -/
structure Kept where
  deltas : String → ℕ
  thinking : ℕ
  trace : ℕ
  durable : ℕ

/-- Count an event, and say whether its kind is within its budget. -/
def Kept.count (decode : Decoder) (kept : Kept) (event : TimelineEvent) : Kept × Bool :=
  if (decode event).traceImported then
    ({ kept with trace := kept.trace + 1 }, decide (kept.trace < eventTraceImportLimit))
  else
    match (decode event).kind with
    | .message _ _ .delta .thinking _ =>
      ({ kept with thinking := kept.thinking + 1 }, decide (kept.thinking < eventThinkingLimit))
    | .message _ _ .delta .answer _ =>
      ({ kept with
          deltas := fun sessionId =>
            if sessionId = event.sessionId then kept.deltas sessionId + 1
            else kept.deltas sessionId },
        decide (kept.deltas event.sessionId < eventDeltaLimit))
    | _ =>
      ({ kept with durable := kept.durable + 1 }, decide (kept.durable < eventProtectedLimit))

/-- The events within their budgets, from the newest on. -/
def cap (decode : Decoder) : Kept → List TimelineEvent → List TimelineEvent
  | _, [] => []
  | kept, event :: events =>
    if (kept.count decode event).2 then event :: cap decode (kept.count decode event).1 events
    else cap decode (kept.count decode event).1 events

def mergeEventsBounded (collation : Collation) (decode : Decoder)
    (current updates : List TimelineEvent) : List TimelineEvent :=
  if updates.isEmpty then current
  else
    let sorted := (appendNewerEvents collation current updates).getD
      (sortByTimestamp collation (·.createdAt) (·.rowCursor) (upsertById (·.id) current updates))
    pruneSupersededDeltas decode (cap decode ⟨fun _ => 0, 0, 0, 0⟩ sorted)

/-! ## Queues -/

/-- The queue of one session: an empty one is dropped, and one with the ids it had stays
as it is. -/
def mergeQueue (existing : Option (List PendingMessage)) (incoming : List PendingMessage) :
    Option (List PendingMessage) :=
  if incoming.isEmpty then none
  else
    match existing with
    | some queue =>
      if queue.map (·.id) = incoming.map (·.id) then some queue else some incoming
    | none => some incoming

def mergePendingMessages (current : String → Option (List PendingMessage))
    (updates : Option PendingMessages) : String → Option (List PendingMessage) :=
  fun sessionId =>
    match updates.bind fun updates => updates.find? sessionId with
    | some (_, incoming) => mergeQueue (current sessionId) incoming
    | none => current sessionId

/-! ## The merge -/

def rawOutputLimit : ℕ := 100
def approvalLimit : ℕ := 200

/-- What a delta's removals leave of a snapshot. -/
def removeRows (snapshot : Snapshot) (delta : DashboardDelta) : Snapshot :=
  { snapshot with
    workspaces := snapshot.workspaces.filter fun workspace =>
      !delta.removedWorkspaceIds.contains workspace.id
    sessions := snapshot.sessions.filter fun session =>
      !delta.removedSessionIds.contains session.id &&
        !delta.removedWorkspaceIds.contains session.workspaceId
    events := snapshot.events.filter fun event =>
      !delta.removedSessionIds.contains event.sessionId }

/-- `mergeDashboardDelta`: removals first. -/
def mergeDashboardDelta (collation : Collation) (decode : Decoder) (incoming : Snapshot)
    (delta : DashboardDelta) : Snapshot :=
  let snapshot := removeRows incoming delta
  { projects := mergeProjects collation snapshot.projects delta.projects
    workspaces := mergeSlice collation (·.lastActivityAt) (fun _ => none) (·.id) none
      snapshot.workspaces delta.workspaces
    sessions := mergeSlice collation (·.lastActivityAt) (fun _ => none) (·.id) none
      snapshot.sessions delta.sessions
    events := mergeEventsBounded collation decode snapshot.events delta.events
    rawOutputs := mergeSlice collation (·.createdAt) (·.rowCursor) (·.id)
      (some rawOutputLimit) snapshot.rawOutputs delta.rawOutputs
    approvals := mergeSlice collation (·.createdAt) (fun _ => none) (·.id)
      (some approvalLimit) snapshot.approvals delta.approvals
    pendingMessages := mergePendingMessages snapshot.pendingMessages delta.pendingMessages }

end Argmax.Renderer
