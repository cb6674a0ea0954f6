import Argmax.Lib.Transition
import Argmax.Persistence.Approvals

/-!
# Flushes that carry permission requests

`flush_session_buffer` of `providers/flush_queue.rs`, and `approvals/service.rs`. A flush
writes what a session's buffer holds in one transaction: a request whose identity has a row
is not written again, and when anything fails the buffer is put back. A request that comes
over a provider's native transport is written by `register_native`.

The rows of the usage ledger are left out, and so are the responders of native requests:
a resolution is taken here whether or not its provider still waits for it. What other code
does to the sessions, the workspaces and the events is one step, `Act.write`.
-/

namespace Argmax.ApprovalFlush

open Argmax.Lib Argmax.Providers Argmax.Persistence

/-! ## Deltas -/

/-- The parts of `DashboardDelta` that a flush fills. -/
structure FlushDelta where
  workspaces : List WorkspaceRow
  sessions : List SessionRow
  events : List PersistTimelineEventInput
  rawOutputs : List PersistRawOutputInput
  approvals : List ApprovalRequest
  deriving DecidableEq

/-- `DashboardDelta::default`. -/
def FlushDelta.empty : FlushDelta := ⟨[], [], [], [], []⟩

/-! ## Events -/

/-- What a permission event asks for: both ids, when it carries them. -/
def permissionRequest (sessionId : String) (event : PersistTimelineEventInput) :
    Option ProviderRequest :=
  if ["approval.requested", "permission.blocked"].contains event.type then
    let field := fun key => (event.payload.get key).bind Json.asStr
    requestOf sessionId ((field "provider").getD "") (field "providerInvocationId")
      (field "providerRequestId")
  else none

/-- The key under which a flush remembers a request. -/
def identity (request : ProviderRequest) : String :=
  request.sessionId ++ "\x00" ++ request.provider ++ "\x00" ++ request.providerInvocationId ++
    "\x00" ++ request.providerRequestId

/-- The request was seen in this flush, has a row, or was blocked before. -/
def isRepeated (db : Database) (seen : List String) (sessionId type : String)
    (request : ProviderRequest) : Bool :=
  seen.contains (identity request) ||
    (db.findApprovalByProviderRequest sessionId request.provider request.providerInvocationId
      request.providerRequestId).isSome ||
    (type == "permission.blocked" &&
      db.hasProviderPermissionEvent sessionId request.provider request.providerInvocationId
        request.providerRequestId)

/-- The body of the loop over the pending events, after what was seen and the delta so far. -/
def persistEvent (sessionId : String) (now : Database × List String × FlushDelta)
    (event : PersistTimelineEventInput) : Database × List String × FlushDelta :=
  let (db, seen, delta) := now
  let persisted := fun seen =>
    ({ db with events := db.events ++ [event] }, seen,
      { delta with events := delta.events ++ [event] })
  match permissionRequest sessionId event with
  | some request =>
    let seen' := seen.insert (identity request)
    if isRepeated db seen sessionId event.type request then (db, seen', delta)
    else persisted seen'
  | none => persisted seen

/-! ## Approvals -/

section

variable (hasOutstandingCardAsk : List PersistTimelineEventInput → String → Bool)

def transitionSessionAttention (db : Database) (sessionId : String) (state : SessionState)
    (pendingApproval : Bool) (delta : FlushDelta) : ArgmaxResult (Database × FlushDelta) := do
  let currentSession ← db.findSessionById sessionId
  if !currentSession.state.isLive then .ok (db, delta)
  else
    let input := SessionStateInput.transition state
    let input := if pendingApproval then input.withPendingApproval else input
    let (session, db) ← db.updateSessionState hasOutstandingCardAsk sessionId input
    let delta := { delta with sessions := delta.sessions ++ [session] }
    let workspace ← db.findWorkspaceById session.workspaceId
    if ["archiving", "archive-failed", "archived"].contains workspace.state then .ok (db, delta)
    else
      let (workspace, db) ← db.updateWorkspaceState session.workspaceId state.asStr
      .ok (db, { delta with workspaces := delta.workspaces ++ [workspace] })

/-- The row that a pending approval is taken for. -/
def findExisting (db : Database) (approval : PersistApprovalInput) : Option ApprovalRequest :=
  match approval.providerInvocationId, approval.providerRequestId with
  | some invocationId, some requestId =>
    db.findApprovalByProviderRequest approval.sessionId approval.provider invocationId requestId
  | _, _ =>
    db.findPendingApproval approval.sessionId approval.command approval.cwd approval.provider

/-- The body of the loop over the pending approvals. -/
def persistPendingApproval (now : Database × FlushDelta) (approval : PersistApprovalInput) :
    ArgmaxResult (Database × FlushDelta) := do
  let (db, delta) := now
  if (findExisting db approval).isSome then .ok (db, delta)
  else
    let (row, db) ← db.persistApproval approval
    if row.status ≠ "pending" then .ok (db, delta)
    else
      let (db, delta) ← transitionSessionAttention hasOutstandingCardAsk db approval.sessionId
        .waiting true delta
      .ok (db, { delta with approvals := delta.approvals ++ [row] })

/-! ## Flushes -/

/-- The events and the output of a batch, which are written first. -/
def persistOutput (db : Database) (sessionId : String) (batch : Batch) : Database × FlushDelta :=
  let (db, _, delta) := batch.events.foldl (persistEvent sessionId)
    ({ db with rawOutputs := db.rawOutputs ++ batch.rawOutputs }, [],
      { FlushDelta.empty with rawOutputs := batch.rawOutputs })
  (db, delta)

/-- The transaction of a flush. -/
def persistBatch (db : Database) (sessionId : String) (batch : Batch) :
    ArgmaxResult (Database × FlushDelta) := do
  let (db, delta) ← batch.approvals.foldlM (persistPendingApproval hasOutstandingCardAsk)
    (persistOutput db sessionId batch)
  if batch.permissionBlocked then
    transitionSessionAttention hasOutstandingCardAsk db sessionId .blocked false delta
  else .ok (db, delta)

/-- What an error puts back. -/
def restored (buffer : SessionFlushBuffer) : SessionFlushBuffer :=
  { buffer with
    pendingEvents := buffer.pendingEvents.mergeSort fun a b => decide (a.sequence ≤ b.sequence) }

/-- `flush_session_buffer`. -/
def flush (db : Database) (sessionId : String) (buffer : SessionFlushBuffer) :
    ArgmaxResult (Database × FlushDelta) × SessionFlushBuffer :=
  if buffer.isEmpty then (.ok (db, .empty), buffer)
  else
    let (batch, taken) := flushSessionBuffer buffer
    match persistBatch hasOutstandingCardAsk db sessionId batch with
    | .ok written => (.ok written, taken)
    | .error error => (.error error, restored buffer)

/-! ## Native requests -/

/-- A request on the native transport, with the risk the policy sees in its command. -/
structure NativeRequest where
  request : ProviderRequest
  command : String
  cwd : String
  riskLevel : String

def registerNative (db : Database) (native : NativeRequest) :
    ArgmaxResult (Database × FlushDelta) := do
  let request := native.request
  let session ← db.findSessionById request.sessionId
  if !(session.state == .running || session.state == .waiting) then
    .error (.service "APPROVAL_CANCELLED" "The provider turn has ended")
  else if (db.findApprovalByProviderRequest request.sessionId request.provider
      request.providerInvocationId request.providerRequestId).isSome then
    .error (.service "APPROVAL_DUPLICATE" "This provider request was already received")
  else
    let (approval, db) ← db.persistApproval
      { sessionId := request.sessionId
        command := native.command
        cwd := native.cwd
        provider := request.provider
        providerInvocationId := some request.providerInvocationId
        providerRequestId := some request.providerRequestId
        riskLevel := native.riskLevel
        status := "pending" }
    let (session, db) ← db.updateSessionState hasOutstandingCardAsk request.sessionId
      (SessionStateInput.transition .waiting).withPendingApproval
    let event : PersistTimelineEventInput :=
      { sessionId := request.sessionId
        type := "approval.requested"
        message := "The provider needs your approval to continue"
        payload := .object [("approvalId", .string approval.id.repr),
          ("command", .string native.command), ("cwd", .string native.cwd),
          ("provider", .string request.provider)] }
    .ok ({ db with events := db.events ++ [event] },
      { FlushDelta.empty with sessions := [session], events := [event], approvals := [approval] })

/-! ## Runs -/

inductive ResolveStatus where
  | approved
  | rejected
  deriving DecidableEq

def ResolveStatus.asStr : ResolveStatus → String
  | .approved => "approved"
  | .rejected => "rejected"

structure State where
  db : Database
  /-- The buffers of the sessions. -/
  buffers : String → SessionFlushBuffer

/-- Nobody has asked for anything. -/
def State.start (sessions : Table SessionRow.id) (workspaces : Table WorkspaceRow.id)
    (events : List PersistTimelineEventInput) : State where
  db := ⟨sessions, workspaces, .empty, 0, events, []⟩
  buffers := fun _ => .new

inductive Act where
  /-- Output of a session's provider is queued. -/
  | output (sessionId : String) (output : PersistRawOutputInput)
  /-- What the normalizer made of lines of an invocation is queued. -/
  | ingest (sessionId invocationId : String) (normalized : NormalizedProviderResult)
  /-- A launch starts with an empty buffer. -/
  | launch (sessionId : String)
  | flush (sessionId : String)
  /-- A flush that the database fails. -/
  | flushFails (sessionId : String)
  | registerNative (native : NativeRequest)
  | resolve (approvalId : ℕ) (status : ResolveStatus)
  | cancelNativeRequest (sessionId invocationId requestId : String)
  | cancelSessionPending (sessionId : String)
  | cancelWorkspacePending (workspaceId : String)
  /-- Other code leaves these rows. The approvals of a session go with it. -/
  | write (sessions : Table SessionRow.id) (workspaces : Table WorkspaceRow.id)
      (events : List PersistTimelineEventInput)

def setBuffer (s : State) (sessionId : String) (buffer : SessionFlushBuffer) : State :=
  { s with buffers := fun other => if other = sessionId then buffer else s.buffers other }

/-- The database after a transaction, the one before it when it fails. -/
def committed {α : Type} (db : Database) (result : ArgmaxResult α) (after : α → Database) :
    Database :=
  match result with
  | .ok written => after written
  | .error _ => db

def step (s : State) : Act → State
  | .output sessionId output => setBuffer s sessionId ((s.buffers sessionId).queueRawOutput output)
  | .ingest sessionId invocationId normalized =>
    setBuffer s sessionId (ingestNormalizedResult (s.buffers sessionId) invocationId normalized).1
  | .launch sessionId => setBuffer s sessionId .new
  | .flush sessionId =>
    let (result, buffer) := flush hasOutstandingCardAsk s.db sessionId (s.buffers sessionId)
    setBuffer { s with db := committed s.db result (·.1) } sessionId buffer
  | .flushFails sessionId => setBuffer s sessionId (restored (s.buffers sessionId))
  | .registerNative native =>
    { s with db := committed s.db (registerNative hasOutstandingCardAsk s.db native) (·.1) }
  | .resolve approvalId status =>
    { s with db := committed s.db (s.db.resolveApproval approvalId status.asStr) (·.2) }
  | .cancelNativeRequest sessionId invocationId requestId =>
    { s with db := s.db.cancelNativeRequest sessionId invocationId requestId }
  | .cancelSessionPending sessionId => { s with db := s.db.cancelSessionPending sessionId }
  | .cancelWorkspacePending workspaceId => { s with db := s.db.cancelWorkspacePending workspaceId }
  | .write sessions workspaces events =>
    { s with
      db := { s.db with
        sessions := sessions
        workspaces := workspaces
        events := events
        approvals := s.db.approvals.delete fun row => (sessions.find? row.sessionId).isNone } }

end

end Argmax.ApprovalFlush
