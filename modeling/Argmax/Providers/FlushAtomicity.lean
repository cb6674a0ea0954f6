import Argmax.Lib.Transaction
import Argmax.Providers.ApprovalIdempotence

/-!
# A flush happens at once or not at all

`flush_session_buffer` of `providers/flush_queue.rs`, with the usage ledger of
`persistence/usage.rs`. A flush takes the buffers of a session, writes raw outputs, events,
usage records, approvals and attention in one transaction, and puts the buffers back when
anything fails, be it the begin, a write or the commit.

What is queued is counted from the last flush that succeeded. A flush that succeeds writes
that: every raw output, every event but a permission request that was recorded before, and
every usage record but one of a message that was billed before.

What `enrich_native_agent_event` makes of a payload, the clock and the sum of two costs are
parameters.
-/

namespace Argmax.FlushAtomicity

open Argmax.Lib Argmax.Providers Argmax.Persistence
open Argmax.ApprovalFlush (FlushDelta permissionRequest identity isRepeated persistPendingApproval
  transitionSessionAttention restored)

/-! ## Tables -/

/-- A row of `usage_events`. The cost is a float, given by its bits. -/
structure UsageEventRow where
  sessionId : String
  eventId : Option String
  modelId : String
  inputTokens : ℤ
  outputTokens : ℤ
  cacheReadTokens : ℤ
  cacheWriteTokens : ℤ
  costUsd : BitVec 64
  deriving DecidableEq

/-- The usage columns of a row of `sessions`. -/
structure SessionUsage where
  inputTokens : ℤ
  outputTokens : ℤ
  cacheReadTokens : ℤ
  cacheWriteTokens : ℤ
  costUsd : BitVec 64
  contextTokens : Option ℤ
  contextWindow : Option ℤ
  lastModelId : Option String

structure Store where
  db : Database
  usageEvents : List UsageEventRow
  usage : String → SessionUsage

/-- `as i64` of a `u64`. -/
def asI64 (n : ℕ) : ℤ := (BitVec.ofNat 64 n).toInt

/-- The row of a usage record. -/
def usageEventRow (sessionId : String) (usage : NormalizedUsage) : UsageEventRow where
  sessionId := sessionId
  eventId := usage.eventId
  modelId := usage.modelId
  inputTokens := asI64 usage.tokens.input
  outputTokens := asI64 usage.tokens.output
  cacheReadTokens := asI64 usage.tokens.cacheRead
  cacheWriteTokens := asI64 usage.tokens.cacheWrite
  costUsd := usage.costUsd

/-- Some row of the session has the record's event id. -/
def isBilled (rows : List UsageEventRow) (sessionId : String) (usage : NormalizedUsage) : Bool :=
  match usage.eventId with
  | some eventId =>
    rows.any fun row => row.sessionId == sessionId && row.eventId == some eventId
  | none => false

/-! ## The writes -/

/-- What the transaction keeps beside the tables: the requests seen, and the delta. -/
structure Progress where
  seen : List String
  delta : FlushDelta

def Progress.start : Progress := ⟨[], .empty⟩

/-- A write of the transaction. -/
abbrev Write := Store → Progress → ArgmaxResult (Store × Progress)

section

variable (hasOutstandingCardAsk : List PersistTimelineEventInput → String → Bool)
  (enrichNativeAgentEvent : Database → PersistTimelineEventInput → ArgmaxResult Json)
  (addCost : BitVec 64 → BitVec 64 → BitVec 64) (sessionId : String)

def persistRawOutput (output : PersistRawOutputInput) : Write := fun store progress =>
  .ok ({ store with db := { store.db with rawOutputs := store.db.rawOutputs ++ [output] } },
    { progress with
      delta := { progress.delta with rawOutputs := progress.delta.rawOutputs ++ [output] } })

def persistTimelineEvent (event : PersistTimelineEventInput) : Write := fun store progress => do
  let payload ← enrichNativeAgentEvent store.db event
  let event := { event with payload := payload }
  .ok ({ store with db := { store.db with events := store.db.events ++ [event] } },
    { progress with
      delta := { progress.delta with events := progress.delta.events ++ [event] } })

/-- The body of the loop over the pending events. -/
def writeEvent (event : PersistTimelineEventInput) : Write := fun store progress =>
  match permissionRequest sessionId event with
  | some request =>
    let seen := { progress with seen := progress.seen.insert (identity request) }
    if isRepeated store.db progress.seen sessionId event.type request then .ok (store, seen)
    else persistTimelineEvent enrichNativeAgentEvent event store seen
  | none => persistTimelineEvent enrichNativeAgentEvent event store progress

/-- The session's columns after the update of `insert_usage_event`. -/
def chargeSession (usage : NormalizedUsage) (columns : SessionUsage) : SessionUsage where
  inputTokens := columns.inputTokens + asI64 usage.tokens.input
  outputTokens := columns.outputTokens + asI64 usage.tokens.output
  cacheReadTokens := columns.cacheReadTokens + asI64 usage.tokens.cacheRead
  cacheWriteTokens := columns.cacheWriteTokens + asI64 usage.tokens.cacheWrite
  costUsd := addCost columns.costUsd usage.costUsd
  contextTokens := (usage.contextTokens.map asI64).or columns.contextTokens
  contextWindow := (usage.contextWindow.map asI64).or columns.contextWindow
  lastModelId := if usage.modelId.isEmpty then columns.lastModelId else some usage.modelId

def insertUsageEvent (usage : NormalizedUsage) : Write := fun store progress =>
  if isBilled store.usageEvents sessionId usage then .ok (store, progress)
  else do
    let session ← store.db.findSessionById sessionId
    .ok ({ store with
      usageEvents := store.usageEvents ++ [usageEventRow sessionId usage]
      usage := fun other =>
        if other = session.id then chargeSession addCost usage (store.usage other)
        else store.usage other }, progress)

/-- The body of the loop over the pending approvals. -/
def writeApproval (approval : PersistApprovalInput) : Write := fun store progress => do
  let (db, delta) ← persistPendingApproval hasOutstandingCardAsk (store.db, progress.delta) approval
  .ok ({ store with db := db }, { progress with delta := delta })

def writeBlocked : Write := fun store progress => do
  let (db, delta) ← transitionSessionAttention hasOutstandingCardAsk store.db sessionId .blocked
    false progress.delta
  .ok ({ store with db := db }, { progress with delta := delta })

/-- The writes of a batch, in their order. -/
def batchWrites (batch : Batch) : List Write :=
  batch.rawOutputs.map persistRawOutput ++
    (batch.events.map (writeEvent enrichNativeAgentEvent sessionId) ++
      (batch.usages.map (insertUsageEvent addCost sessionId) ++
        (batch.approvals.map (writeApproval hasOutstandingCardAsk) ++
          if batch.permissionBlocked then [writeBlocked hasOutstandingCardAsk sessionId] else [])))

/-! ## The flush -/

/-- `flush_session_buffer`, where the store fails the points of `fault`. -/
def flushSessionBuffer (fault : ℕ → Option ArgmaxError) (conn : Connection Store)
    (buffer : SessionFlushBuffer) :
    ArgmaxResult FlushDelta × Connection Store × SessionFlushBuffer :=
  if buffer.isEmpty then (.ok .empty, conn, buffer)
  else
    let (batch, taken) := Providers.flushSessionBuffer buffer
    match transact fault
        (batchWrites hasOutstandingCardAsk enrichNativeAgentEvent addCost sessionId batch) conn
        .start with
    | (.ok progress, conn) => (.ok progress.delta, conn, taken)
    | (.error error, conn) => (.error error, conn, restored buffer)

/-! ## Runs -/

structure State where
  store : Store
  buffer : SessionFlushBuffer
  /-- What was queued since the last flush that succeeded. -/
  queued : Batch

def State.start (store : Store) : State := ⟨store, .new, .empty⟩

inductive Act where
  | queueTimelineEvent (event : PersistTimelineEventInput)
  | queueRawOutput (output : PersistRawOutputInput)
  | queueUsage (usage : NormalizedUsage)
  | queueApproval (approval : NormalizedApprovalRequest) (providerInvocationId : String)
  | markPermissionBlocked
  | flush (fault : ℕ → Option ArgmaxError)
  /-- What other code leaves in the database. -/
  | write (store : Store)

/-- The row that is queued for an approval. -/
def approvalInput (approval : NormalizedApprovalRequest) (providerInvocationId : String) :
    PersistApprovalInput where
  sessionId := approval.sessionId
  command := approval.command
  cwd := approval.cwd
  provider := approval.provider
  providerInvocationId := some providerInvocationId
  providerRequestId := approval.providerRequestId
  riskLevel := approval.riskLevel
  status := "pending"

/-- The flush of a state. -/
def flushOf (s : State) (fault : ℕ → Option ArgmaxError) :
    ArgmaxResult FlushDelta × Connection Store × SessionFlushBuffer :=
  flushSessionBuffer hasOutstandingCardAsk enrichNativeAgentEvent addCost sessionId fault
    (.idle s.store) s.buffer

def step (s : State) : Act → State
  | .queueTimelineEvent event =>
    { s with
      buffer := s.buffer.queueTimelineEvent event
      queued := { s.queued with events := s.queued.events ++ [event] } }
  | .queueRawOutput output =>
    { s with
      buffer := s.buffer.queueRawOutput output
      queued := { s.queued with rawOutputs := s.queued.rawOutputs ++ [output] } }
  | .queueUsage usage =>
    { s with
      buffer := s.buffer.queueUsage usage
      queued := { s.queued with usages := s.queued.usages ++ [usage] } }
  | .queueApproval approval providerInvocationId =>
    { s with
      buffer := s.buffer.queueApprovalForInvocation approval providerInvocationId
      queued := { s.queued with
        approvals := s.queued.approvals ++ [approvalInput approval providerInvocationId] } }
  | .markPermissionBlocked =>
    { s with
      buffer := { s.buffer with permissionBlocked := true }
      queued := { s.queued with permissionBlocked := true } }
  | .flush fault =>
    let (result, conn, buffer) :=
      flushOf hasOutstandingCardAsk enrichNativeAgentEvent addCost sessionId s fault
    { store := conn.committed
      buffer := buffer
      queued := match result with
        | .ok _ => .empty
        | .error _ => s.queued }
  | .write store => { s with store := store }

end

end Argmax.FlushAtomicity
