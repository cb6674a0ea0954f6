import Argmax.Providers.Normalizer

/-!
# The output queue of the live sessions

`providers/flush_queue.rs`. Output arrives in chunks. The queue keeps the text of each
stream until a line is complete, hands complete lines to the normalizer, and collects
what comes of them in the buffer of the session until the buffer is flushed.

A flush hands the buffer to one transaction, which is taken to succeed. Ids that are
made for the rows and the times of the chunks are left out.
-/

namespace Argmax.Providers

open Argmax.Lib

/-! ## The buffer -/

structure PendingTimelineEvent where
  sequence : ℕ
  event : PersistTimelineEventInput

structure PersistRawOutputInput where
  sessionId : String
  stream : String
  content : List Char
  deriving DecidableEq

structure PersistApprovalInput where
  sessionId : String
  command : String
  cwd : String
  provider : String
  providerInvocationId : Option String
  providerRequestId : Option String
  riskLevel : String
  status : String
  deriving DecidableEq

structure SessionFlushBuffer where
  sequence : ℕ
  pendingEvents : List PendingTimelineEvent
  pendingRawOutputs : List PersistRawOutputInput
  pendingUsages : List NormalizedUsage
  pendingApprovals : List PersistApprovalInput
  permissionBlocked : Bool

namespace SessionFlushBuffer

def new : SessionFlushBuffer := ⟨0, [], [], [], [], false⟩

def isEmpty (buffer : SessionFlushBuffer) : Bool :=
  buffer.pendingEvents.isEmpty && buffer.pendingRawOutputs.isEmpty &&
    buffer.pendingUsages.isEmpty && buffer.pendingApprovals.isEmpty && !buffer.permissionBlocked

def queueTimelineEvent (buffer : SessionFlushBuffer) (event : PersistTimelineEventInput) :
    SessionFlushBuffer :=
  { buffer with
    sequence := buffer.sequence + 1
    pendingEvents := buffer.pendingEvents ++ [⟨buffer.sequence + 1, event⟩] }

def queueRawOutput (buffer : SessionFlushBuffer) (output : PersistRawOutputInput) :
    SessionFlushBuffer :=
  { buffer with pendingRawOutputs := buffer.pendingRawOutputs ++ [output] }

def queueUsage (buffer : SessionFlushBuffer) (usage : NormalizedUsage) : SessionFlushBuffer :=
  { buffer with pendingUsages := buffer.pendingUsages ++ [usage] }

def queueApprovalForInvocation (buffer : SessionFlushBuffer)
    (approval : NormalizedApprovalRequest) (providerInvocationId : String) :
    SessionFlushBuffer :=
  { buffer with
    pendingApprovals := buffer.pendingApprovals ++
      [{ sessionId := approval.sessionId
         command := approval.command
         cwd := approval.cwd
         provider := approval.provider
         providerInvocationId := some providerInvocationId
         providerRequestId := approval.providerRequestId
         riskLevel := approval.riskLevel
         status := "pending" }] }

end SessionFlushBuffer

/-- What the transaction of a flush is given. -/
structure Batch where
  events : List PersistTimelineEventInput
  rawOutputs : List PersistRawOutputInput
  usages : List NormalizedUsage
  approvals : List PersistApprovalInput
  permissionBlocked : Bool
  deriving DecidableEq

def Batch.empty : Batch := ⟨[], [], [], [], false⟩

/-- A delta is sent on unless it is empty. -/
def Batch.delta (batch : Batch) : Option Batch := if batch = .empty then none else some batch

def flushSessionBuffer (buffer : SessionFlushBuffer) : Batch × SessionFlushBuffer :=
  if buffer.isEmpty then (.empty, buffer)
  else
    ({ events := (buffer.pendingEvents.mergeSort fun a b =>
          decide (a.sequence ≤ b.sequence)).map (·.event)
       rawOutputs := buffer.pendingRawOutputs
       usages := buffer.pendingUsages
       approvals := buffer.pendingApprovals
       permissionBlocked := buffer.permissionBlocked },
      { SessionFlushBuffer.new with sequence := buffer.sequence })

/-- A flush of what must not wait. -/
def flushWhen (immediately : Bool) (buffer : SessionFlushBuffer) :
    Option Batch × SessionFlushBuffer :=
  if immediately then ((flushSessionBuffer buffer).1.delta, (flushSessionBuffer buffer).2)
  else (none, buffer)

/-! ## Results of the normalizer -/

def attachProviderInvocationId (event : PersistTimelineEventInput)
    (providerInvocationId : String) : PersistTimelineEventInput :=
  match event.payload with
  | .object fields =>
    { event with
      payload := .object (Json.insertField "providerInvocationId"
        (.string providerInvocationId) fields) }
  | _ => event

def normalizedResultRequiresImmediateFlush (result : NormalizedProviderResult) : Bool :=
  result.permissionBlocked || !result.approvals.isEmpty ||
    result.events.any fun event =>
      event.type == "approval.requested" || event.type == "permission.blocked" ||
        event.type == "error" || event.type == "session.completed"

def ingestNormalizedResult (buffer : SessionFlushBuffer) (providerInvocationId : String)
    (normalized : NormalizedProviderResult) : SessionFlushBuffer × Option String :=
  let buffer := normalized.events.foldl
    (fun buffer event =>
      buffer.queueTimelineEvent (attachProviderInvocationId event providerInvocationId)) buffer
  let buffer := normalized.usages.foldl (fun buffer usage => buffer.queueUsage usage) buffer
  let buffer :=
    if normalized.permissionBlocked then { buffer with permissionBlocked := true } else buffer
  let buffer := normalized.approvals.foldl
    (fun buffer approval => buffer.queueApprovalForInvocation approval providerInvocationId)
    buffer
  (buffer, normalized.providerConversationId)

/-! ## The queue -/

structure ProviderFlushSession (σ : Type) where
  provider : ProviderId
  providerInvocationId : String
  normalizerContext : NormalizerSessionContext σ
  streamBuffers : ProviderOutputStream → List Char
  buffer : SessionFlushBuffer

/-- The live sessions. -/
abbrev ProviderEventFlushQueue (σ : Type) := String → Option (ProviderFlushSession σ)

/-- The delta of a flush is what the flush takes. -/
structure QueueOutputResult where
  delta : Option Batch
  providerConversationId : Option String
  hasPendingBatch : Bool
  hasTrailingFragment : Bool

section Queue

variable {σ : Type} (protocol : Protocol σ)

def initializeSession (queue : ProviderEventFlushQueue σ) (sessionId : String)
    (provider : ProviderId) (providerInvocationId : String)
    (normalizerContext : NormalizerSessionContext σ) : ProviderEventFlushQueue σ :=
  fun other =>
    if other = sessionId then
      some ⟨provider, providerInvocationId, normalizerContext, fun _ => [], .new⟩
    else queue other

/-- Lines are complete up to the last of these. -/
def isLineBreak (c : Char) : Bool := c == '\n' || c == '\r'

/-- The text up to its last line break, and what follows. -/
def splitCompleted (pending : List Char) : List Char × List Char :=
  (pending.rdropWhile fun c => !isLineBreak c, pending.rtakeWhile fun c => !isLineBreak c)

def setStreamBuffer (session : ProviderFlushSession σ) (stream : ProviderOutputStream)
    (text : List Char) : ProviderFlushSession σ :=
  { session with
    streamBuffers := fun other => if other = stream then text else session.streamBuffers other }

/-- `queue_output_event`, of the session of the event. -/
def queueOutputToSession (session : ProviderFlushSession σ) (providerInvocationId : String)
    (event : ProviderOutputEvent) : QueueOutputResult × ProviderFlushSession σ :=
  let buffer := session.buffer.queueRawOutput ⟨event.sessionId, event.stream.asStr, event.message⟩
  let pending := session.streamBuffers event.stream ++ event.message
  let (completed, trailing) := splitCompleted pending
  if completed.isEmpty then
    (⟨none, none, true, true⟩,
      { setStreamBuffer session event.stream pending with buffer := buffer })
  else
    let hasTrailingFragment := !(Text.trim trailing).isEmpty
    let (normalized, context) := normalizeProviderEvent protocol session.provider
      { event with message := completed } session.normalizerContext
    let (buffer, providerConversationId) :=
      ingestNormalizedResult buffer providerInvocationId normalized
    let (delta, buffer) := flushWhen (normalizedResultRequiresImmediateFlush normalized) buffer
    (⟨delta, providerConversationId, !buffer.isEmpty, hasTrailingFragment⟩,
      { setStreamBuffer session event.stream trailing with
        normalizerContext := context
        buffer := buffer })

/-- `queue_output_event`: output of an invocation that is not the session's current one
is dropped. -/
def queueOutputEvent (queue : ProviderEventFlushQueue σ) (providerInvocationId : String)
    (event : ProviderOutputEvent) : QueueOutputResult × ProviderEventFlushQueue σ :=
  match queue event.sessionId with
  | some session =>
    if session.providerInvocationId = providerInvocationId then
      let (result, session) := queueOutputToSession protocol session providerInvocationId event
      (result, fun other => if other = event.sessionId then some session else queue other)
    else (⟨none, none, false, false⟩, queue)
  | none => (⟨none, none, false, false⟩, queue)

def flushPendingOutput (queue : ProviderEventFlushQueue σ) (sessionId : String) :
    Option Batch × ProviderEventFlushQueue σ :=
  match queue sessionId with
  | some session =>
    let (batch, buffer) := flushSessionBuffer session.buffer
    (batch.delta, fun other =>
      if other = sessionId then some { session with buffer := buffer } else queue other)
  | none => (none, queue)

end Queue

end Argmax.Providers
