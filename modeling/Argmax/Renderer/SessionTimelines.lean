import Argmax.Remote.TranscriptTrim
import Argmax.Renderer.Snapshot

/-!
# Transcript tails per session

`sessionTimelines.ts`: a store of buckets, one for each session that is shown or was shown
recently. A read of a bucket takes time. It starts with a ticket, and when the answer
comes, rows that were changed meanwhile keep their newer state. A bucket therefore
remembers at which of its revisions a row was last set or deleted, as long as a read that
began before is pending.

A symbol is a number that is not used twice. Events and raw outputs are versioned alike
(`RowVersions`). Notifications are left out.
-/

namespace Argmax.Renderer.Timelines

open Argmax.Lib Argmax.Providers

abbrev RevisionReadResult := Remote.TranscriptTrim.SessionEventsSinceResult

def inactiveSessionLimit : ℕ := 12
def maxPendingReads : ℕ := 64
def maxPendingVersionEntries : ℕ := 10000

structure SessionTimelineSnapshot where
  events : List TimelineEvent
  rawOutputs : List RawProviderOutput

def emptySessionTimeline : SessionTimelineSnapshot := ⟨[], []⟩

structure SessionTimelineReadTicket where
  sessionId : String
  eventCursor : Option ℤ
  rawOutputCursor : Option ℤ
  changeCursor : Option ℤ
  generation : ℕ
  bucketIdentity : ℕ
  readIdentity : ℕ
  revision : ℕ
  deriving DecidableEq

/-! ## Versions -/

/-- A map from row ids to revisions. -/
abbrev Versions := Table (Prod.fst : String × ℕ → String)

/-- `versions.get(id) ?? 0`. -/
def Versions.at (versions : Versions) (id : String) : ℕ :=
  ((versions.find? id).map (·.2)).getD 0

/-- When rows of a kind were last set, and when last deleted. -/
structure RowVersions where
  live : Versions
  deletions : Versions

namespace RowVersions

def empty : RowVersions := ⟨.empty, .empty⟩

def set (revision : ℕ) (rows : RowVersions) (id : String) : RowVersions :=
  ⟨rows.live.put (id, revision), rows.deletions.delete fun entry => entry.1 == id⟩

def delete (revision : ℕ) (rows : RowVersions) (id : String) : RowVersions :=
  ⟨rows.live.delete fun entry => entry.1 == id, rows.deletions.put (id, revision)⟩

/-- `latestEventVersion` and `latestRawOutputVersion`. -/
def latest (rows : RowVersions) (id : String) : ℕ := max (rows.live.at id) (rows.deletions.at id)

/-- The versions after an update of the rows `updated` has turned the rows `before` into
the rows `final`. -/
def record (rows : RowVersions) (revision : ℕ) (updated before final deleted : List String) :
    RowVersions :=
  let rows := updated.foldl (fun rows id =>
    if final.contains id && !deleted.contains id then rows.set revision id
    else rows.delete revision id) rows
  let rows := (before.filter fun id => !final.contains id).foldl (delete revision) rows
  deleted.foldl (delete revision) rows

/-- The versions behind a revision. -/
def after (rows : RowVersions) (revision : ℕ) : RowVersions :=
  ⟨rows.live.delete fun entry => decide (entry.2 ≤ revision),
    rows.deletions.delete fun entry => decide (entry.2 ≤ revision)⟩

def size (rows : RowVersions) : ℕ := rows.live.rows.length + rows.deletions.rows.length

end RowVersions

/-! ## Buckets -/

structure SessionTimelineBucket where
  identity : ℕ
  generation : ℕ
  revision : ℕ
  snapshot : SessionTimelineSnapshot
  eventCursor : Option ℤ
  rawOutputCursor : Option ℤ
  changeCursor : Option ℤ
  authoritativeReadRequired : Bool
  eventVersions : RowVersions
  rawOutputVersions : RowVersions
  /-- Reads with the revisions they began at, oldest first. -/
  pendingReads : List (ℕ × ℕ)

/-- What an update brings. The base is the snapshot unless it is given. -/
structure Update where
  events : List TimelineEvent
  rawOutputs : List RawProviderOutput
  base : Option SessionTimelineSnapshot
  deletedEventIds : List String
  deletedRawOutputIds : List String

namespace SessionTimelineBucket

def compactVersions (bucket : SessionTimelineBucket) : SessionTimelineBucket :=
  match (bucket.pendingReads.map (·.2)).min? with
  | none => { bucket with eventVersions := .empty, rawOutputVersions := .empty }
  | some oldest =>
    { bucket with
      eventVersions := bucket.eventVersions.after oldest
      rawOutputVersions := bucket.rawOutputVersions.after oldest }

/-- `pendingReads.delete`. -/
def endRead (bucket : SessionTimelineBucket) (readIdentity : ℕ) : SessionTimelineBucket :=
  { bucket with pendingReads := bucket.pendingReads.filter fun read => read.1 != readIdentity }

section Update

variable (collation : Collation) (decode : Decoder) (traceSuperseded : TimelineEvent → Bool)

/-- The rows an update leaves, before deletions. -/
def mergedRows (bucket : SessionTimelineBucket) (update : Update) : SessionTimelineSnapshot :=
  let base := update.base.getD bucket.snapshot
  let merged := mergeDashboardDelta collation decode
    ⟨[], [], [], base.events, base.rawOutputs, [], fun _ => none⟩
    { DashboardDelta.empty with events := update.events, rawOutputs := update.rawOutputs }
  ⟨merged.events, merged.rawOutputs⟩

/-- The events an update deletes: superseded trace rows, too. -/
def goneEventIds (update : Update) : List String :=
  update.deletedEventIds ++ (update.events.filter traceSuperseded).map (·.id)

def applyBucketUpdate (bucket : SessionTimelineBucket) (update : Update) : SessionTimelineBucket :=
  let deletedEventIds := goneEventIds traceSuperseded update
  if update.events.isEmpty && update.rawOutputs.isEmpty && deletedEventIds.isEmpty &&
      update.deletedRawOutputIds.isEmpty && update.base.isNone then bucket
  else
    let merged := mergedRows collation decode bucket update
    let events := merged.events.filter fun event => !deletedEventIds.contains event.id
    let rawOutputs := merged.rawOutputs.filter fun output =>
      !update.deletedRawOutputIds.contains output.id
    let revision := bucket.revision + 1
    let eventVersions := bucket.eventVersions.record revision (update.events.map (·.id))
      (bucket.snapshot.events.map (·.id)) (events.map (·.id)) deletedEventIds
    let rawOutputVersions := bucket.rawOutputVersions.record revision
      (update.rawOutputs.map (·.id)) (bucket.snapshot.rawOutputs.map (·.id))
      (rawOutputs.map (·.id)) update.deletedRawOutputIds
    let overflow := decide (maxPendingVersionEntries < eventVersions.size + rawOutputVersions.size)
    { bucket with
      revision := revision
      snapshot := ⟨events, rawOutputs⟩
      eventVersions := if overflow then .empty else eventVersions
      rawOutputVersions := if overflow then .empty else rawOutputVersions
      pendingReads := if overflow then [] else bucket.pendingReads }

end Update

/-! ## Answers -/

section Answers

variable (bucket : SessionTimelineBucket) (ticket : SessionTimelineReadTicket)
  (result : RevisionReadResult)

/-- An answer from before the cursor of the bucket, which has moved since. -/
def isStale : Bool :=
  match result.changeCursor, bucket.changeCursor with
  | some cursor, some current =>
    decide (cursor < current) && decide (ticket.changeCursor ≠ bucket.changeCursor)
  | _, _ => false

/-- The answer replaces what the bucket holds. -/
def isAuthoritative : Bool := bucket.authoritativeReadRequired || result.resetRequired

/-- The rows of an answer that were not changed since the read began. -/
def freshEvents : List TimelineEvent :=
  result.events.filter fun event =>
    decide (bucket.eventVersions.latest event.id ≤ ticket.revision)

def freshRawOutputs : List RawProviderOutput :=
  result.rawOutputs.filter fun output =>
    decide (bucket.rawOutputVersions.latest output.id ≤ ticket.revision)

/-- The update that `finishRead` applies. -/
def readUpdate : Update where
  events := (bucket.freshEvents ticket result).filter fun event =>
    event.sessionId == ticket.sessionId
  rawOutputs := (bucket.freshRawOutputs ticket result).filter fun output =>
    output.sessionId == ticket.sessionId
  base :=
    if bucket.isAuthoritative result then
      some ⟨bucket.snapshot.events.filter fun event =>
          decide (ticket.revision < bucket.eventVersions.latest event.id),
        bucket.snapshot.rawOutputs.filter fun output =>
          decide (ticket.revision < bucket.rawOutputVersions.latest output.id)⟩
    else none
  deletedEventIds := result.deletedEventIds.filter fun id =>
    decide (bucket.eventVersions.live.at id ≤ ticket.revision)
  deletedRawOutputIds := result.deletedRawOutputIds.filter fun id =>
    decide (bucket.rawOutputVersions.live.at id ≤ ticket.revision)

/-- The update that `mergeAgentTail` applies. -/
def tailUpdate : Update :=
  ⟨bucket.freshEvents ticket result, bucket.freshRawOutputs ticket result, none, [], []⟩

/-- The cursors after an answer. -/
def advanceCursors : SessionTimelineBucket :=
  if bucket.isAuthoritative result then
    { bucket with
      eventCursor := some result.eventCursor
      rawOutputCursor := some result.rawOutputCursor
      changeCursor := result.changeCursor
      authoritativeReadRequired := false }
  else
    { bucket with
      eventCursor := some (max (bucket.eventCursor.getD 0) result.eventCursor)
      rawOutputCursor := some (max (bucket.rawOutputCursor.getD 0) result.rawOutputCursor)
      changeCursor :=
        match result.changeCursor with
        | some cursor => some (max (bucket.changeCursor.getD 0) cursor)
        | none => bucket.changeCursor
      authoritativeReadRequired := false }

end Answers

end SessionTimelineBucket

open SessionTimelineBucket

/-! ## The store -/

structure SessionTimelines where
  buckets : Table (Prod.fst : String × SessionTimelineBucket → String)
  listeners : String → List ℕ
  inactiveSessions : List String
  nextGeneration : ℕ
  nextSymbol : ℕ

namespace SessionTimelines

def empty : SessionTimelines := ⟨.empty, fun _ => [], [], 1, 0⟩

section Lookup

variable (store : SessionTimelines) (sessionId : String)

def bucketOf : Option SessionTimelineBucket := (store.buckets.find? sessionId).map (·.2)

def getSnapshot : SessionTimelineSnapshot :=
  ((store.bucketOf sessionId).map (·.snapshot)).getD emptySessionTimeline

def isSubscribed : Bool := !(store.listeners sessionId).isEmpty

def validReadBucket (ticket : SessionTimelineReadTicket) : Option SessionTimelineBucket :=
  (store.bucketOf sessionId).filter fun bucket =>
    ticket.sessionId == sessionId && bucket.identity == ticket.bucketIdentity &&
      bucket.generation == ticket.generation &&
      (bucket.pendingReads.map (·.1)).contains ticket.readIdentity

end Lookup

/-- `buckets.set`. -/
def setBucket (store : SessionTimelines) (sessionId : String) (bucket : SessionTimelineBucket) :
    SessionTimelines :=
  { store with buckets := store.buckets.put (sessionId, bucket) }

/-- `buckets.delete`. -/
def deleteBucket (store : SessionTimelines) (sessionId : String) : SessionTimelines :=
  { store with buckets := store.buckets.delete fun entry => entry.1 == sessionId }

/-- `createBucket`: the bucket, which is not in the store yet. -/
def newBucket (store : SessionTimelines) : SessionTimelineBucket :=
  ⟨store.nextSymbol, store.nextGeneration, 0, emptySessionTimeline, none, none, none, false,
    .empty, .empty, []⟩

/-- The store after `createBucket`. -/
def createBucket (store : SessionTimelines) : SessionTimelines :=
  { store with nextSymbol := store.nextSymbol + 1, nextGeneration := store.nextGeneration + 1 }

/-- `markInactive`: the session moves to the end, and the first ones beyond the limit are
evicted. -/
def markInactive (store : SessionTimelines) (sessionId : String) : SessionTimelines :=
  let inactive := store.inactiveSessions.filter (· != sessionId) ++ [sessionId]
  let excess := inactive.length - inactiveSessionLimit
  (inactive.take excess).foldl deleteBucket { store with inactiveSessions := inactive.drop excess }

/-- What `getOrCreateBucket`, `reset` and `invalidate` do with a session afterwards. -/
def touch (store : SessionTimelines) (sessionId : String) : SessionTimelines :=
  if store.isSubscribed sessionId then
    { store with inactiveSessions := store.inactiveSessions.filter (· != sessionId) }
  else store.markInactive sessionId

def getOrCreateBucket (store : SessionTimelines) (sessionId : String) : SessionTimelines :=
  if (store.bucketOf sessionId).isSome then store.touch sessionId
  else (store.createBucket.setBucket sessionId store.newBucket).touch sessionId

/-- A change of a bucket in place. -/
def modify (store : SessionTimelines) (sessionId : String)
    (f : SessionTimelineBucket → SessionTimelineBucket) : SessionTimelines :=
  match store.bucketOf sessionId with
  | some bucket => store.setBucket sessionId (f bucket)
  | none => store

def subscribe (store : SessionTimelines) (sessionId : String) (listener : ℕ) : SessionTimelines :=
  getOrCreateBucket
    { store with
      listeners := fun session =>
        if session = sessionId then (store.listeners session).insert listener
        else store.listeners session
      inactiveSessions := store.inactiveSessions.filter (· != sessionId) } sessionId

/-- The function that `subscribe` returns. -/
def unsubscribe (store : SessionTimelines) (sessionId : String) (listener : ℕ) : SessionTimelines :=
  if (store.listeners sessionId).isEmpty then store
  else
    let rest := (store.listeners sessionId).erase listener
    let store :=
      { store with
        listeners := fun session => if session = sessionId then rest else store.listeners session }
    if rest.isEmpty && (store.bucketOf sessionId).isSome then store.markInactive sessionId
    else store

section Merging

variable (collation : Collation) (decode : Decoder) (traceSuperseded : TimelineEvent → Bool)

def mergeInto (store : SessionTimelines) (sessionId : String) (events : List TimelineEvent)
    (rawOutputs : List RawProviderOutput) : SessionTimelines :=
  (store.getOrCreateBucket sessionId).modify sessionId fun bucket =>
    (bucket.applyBucketUpdate collation decode traceSuperseded
      ⟨events, rawOutputs, none, [], []⟩).compactVersions

/-- `merge`: session by session, in the order in which they occur. -/
def merge (store : SessionTimelines) (events : List TimelineEvent)
    (rawOutputs : List RawProviderOutput) : SessionTimelines :=
  ((events.map (·.sessionId) ++ rawOutputs.map (·.sessionId)).eraseDups).foldl
    (fun store sessionId => store.mergeInto collation decode traceSuperseded sessionId
      (events.filter fun event => event.sessionId == sessionId)
      (rawOutputs.filter fun output => output.sessionId == sessionId)) store

def mergeAgentTail (store : SessionTimelines) (sessionId : String) (result : RevisionReadResult)
    (ticket : Option SessionTimelineReadTicket) : Bool × SessionTimelines :=
  match ticket with
  | none =>
    (true, store.mergeInto collation decode traceSuperseded sessionId result.events
      result.rawOutputs)
  | some ticket =>
    match store.validReadBucket sessionId ticket with
    | none => (false, store)
    | some bucket =>
      (true, store.setBucket sessionId
        ((bucket.applyBucketUpdate collation decode traceSuperseded
          (bucket.tailUpdate ticket result)).endRead ticket.readIdentity).compactVersions)

def finishRead (store : SessionTimelines) (sessionId : String)
    (ticket : SessionTimelineReadTicket) (result : RevisionReadResult) :
    Bool × SessionTimelines :=
  match store.validReadBucket sessionId ticket with
  | none => (false, store)
  | some bucket =>
    if bucket.isStale ticket result then
      (false, store.setBucket sessionId (bucket.endRead ticket.readIdentity).compactVersions)
    else
      (true, store.setBucket sessionId
        (((bucket.applyBucketUpdate collation decode traceSuperseded
          (bucket.readUpdate ticket result)).advanceCursors result).endRead
            ticket.readIdentity).compactVersions)

end Merging

/-- The first part of `beginRead`: room for one more read. -/
def makeRoom (bucket : SessionTimelineBucket) : SessionTimelineBucket :=
  compactVersions
    { bucket with
      pendingReads := bucket.pendingReads.drop (bucket.pendingReads.length + 1 - maxPendingReads) }

def beginRead (store : SessionTimelines) (sessionId : String) :
    Option SessionTimelineReadTicket × SessionTimelines :=
  let store := store.getOrCreateBucket sessionId
  match store.bucketOf sessionId with
  | none => (none, store)
  | some bucket =>
    let bucket := makeRoom bucket
    let ticket := ⟨sessionId, bucket.eventCursor, bucket.rawOutputCursor, bucket.changeCursor,
      bucket.generation, bucket.identity, store.nextSymbol, bucket.revision⟩
    (some ticket,
      { store with nextSymbol := store.nextSymbol + 1 }.setBucket sessionId
        { bucket with
          pendingReads := bucket.pendingReads ++ [(store.nextSymbol, bucket.revision)] })

def cancelRead (store : SessionTimelines) (sessionId : String)
    (ticket : SessionTimelineReadTicket) : SessionTimelines :=
  match store.validReadBucket sessionId ticket with
  | none => store
  | some bucket =>
    store.setBucket sessionId (bucket.endRead ticket.readIdentity).compactVersions

def remove (store : SessionTimelines) (sessionIds : List String) : SessionTimelines :=
  sessionIds.eraseDups.foldl (fun store sessionId =>
    if (store.bucketOf sessionId).isSome then
      { store.deleteBucket sessionId with
        inactiveSessions := store.inactiveSessions.filter (· != sessionId) }
    else store) store

def retainSessions (store : SessionTimelines) (allowedIds : List String) : SessionTimelines :=
  store.remove ((store.buckets.rows.map (·.1)).filter fun session => !allowedIds.contains session)

/-- The sessions that `reset` and `invalidate` go through. -/
def targets (store : SessionTimelines) (sessionIds : Option (List String)) : List String :=
  match sessionIds with
  | some sessionIds => sessionIds.eraseDups
  | none => store.buckets.rows.map (·.1)

def reset (store : SessionTimelines) (sessionIds : Option (List String)) : SessionTimelines :=
  (store.targets sessionIds).foldl (fun store sessionId =>
    if (store.bucketOf sessionId).isNone then store
    else
      let next := store.createBucket.setBucket sessionId store.newBucket
      if next.isSubscribed sessionId then next else next.markInactive sessionId) store

def invalidate (store : SessionTimelines) (sessionIds : Option (List String)) : SessionTimelines :=
  (store.targets sessionIds).foldl (fun store sessionId =>
    match store.bucketOf sessionId with
    | none => store
    | some current =>
      let next := store.createBucket.setBucket sessionId
        { store.newBucket with snapshot := current.snapshot, authoritativeReadRequired := true }
      if next.isSubscribed sessionId then next else next.markInactive sessionId) store

end SessionTimelines

/-! ## Operations -/

/-- The public operations. -/
inductive Op where
  | subscribe (sessionId : String) (listener : ℕ)
  | unsubscribe (sessionId : String) (listener : ℕ)
  | merge (events : List TimelineEvent) (rawOutputs : List RawProviderOutput)
  | mergeAgentTail (sessionId : String) (result : RevisionReadResult)
      (ticket : Option SessionTimelineReadTicket)
  | beginRead (sessionId : String)
  | cancelRead (sessionId : String) (ticket : SessionTimelineReadTicket)
  | finishRead (sessionId : String) (ticket : SessionTimelineReadTicket)
      (result : RevisionReadResult)
  | remove (sessionIds : List String)
  | retainSessions (allowedIds : List String)
  | reset (sessionIds : Option (List String))
  | invalidate (sessionIds : Option (List String))

section Step

variable (collation : Collation) (decode : Decoder) (traceSuperseded : TimelineEvent → Bool)

def step (store : SessionTimelines) : Op → SessionTimelines
  | .subscribe sessionId listener => store.subscribe sessionId listener
  | .unsubscribe sessionId listener => store.unsubscribe sessionId listener
  | .merge events rawOutputs => store.merge collation decode traceSuperseded events rawOutputs
  | .mergeAgentTail sessionId result ticket =>
    (store.mergeAgentTail collation decode traceSuperseded sessionId result ticket).2
  | .beginRead sessionId => (store.beginRead sessionId).2
  | .cancelRead sessionId ticket => store.cancelRead sessionId ticket
  | .finishRead sessionId ticket result =>
    (store.finishRead collation decode traceSuperseded sessionId ticket result).2
  | .remove sessionIds => store.remove sessionIds
  | .retainSessions allowedIds => store.retainSessions allowedIds
  | .reset sessionIds => store.reset sessionIds
  | .invalidate sessionIds => store.invalidate sessionIds

end Step

end Argmax.Renderer.Timelines
