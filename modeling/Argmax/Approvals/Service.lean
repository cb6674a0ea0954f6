import Argmax.Providers.ApprovalFlush
import Argmax.Questions.Cards

/-!
# The approval service

`approvals/service.rs`, with the responders of the native requests. A provider that asks
over its native transport waits for the decision on its row. Its responder lives in memory
under the id of the row, and an answer goes to it when the decision is committed.

An operation holds the lock on the responders and the connection from start to end, so
operations happen one after another. Any call of the store can fail. The calls of one
operation that no write and no responder lies between are one `Call`.
-/

namespace Argmax.Approvals

open Argmax.Lib Argmax.Persistence Argmax.Providers Argmax.Questions
open Argmax.ApprovalFlush (NativeRequest ResolveStatus)

/-! ## State -/

/-- The sender of a native request. It is closed once its receiver was dropped. -/
structure Responder where
  approvalId : ℕ
  sessionId : String
  isClosed : Bool
  deriving DecidableEq

structure State where
  db : Database
  native : Table Responder.approvalId
  /-- What the providers were told, latest first. The program does not keep this. -/
  told : List (ℕ × Bool)
  deriving DecidableEq

/-- Nobody has asked for anything. -/
def State.start (sessions : Table SessionRow.id) (workspaces : Table WorkspaceRow.id)
    (events : List PersistTimelineEventInput) : State where
  db := ⟨sessions, workspaces, .empty, 0, events, []⟩
  native := .empty
  told := []

/-- A call of the store. -/
inductive Call where
  /-- The transaction is opened, and what comes first is read. -/
  | read
  /-- A row is cancelled. -/
  | update (approvalId : ℕ)
  /-- A cancelled row is read again. -/
  | reread (approvalId : ℕ)
  /-- What is left, up to the commit. -/
  | commit
  deriving DecidableEq

/-! ## Operations -/

section

variable (hasOutstandingCardAsk : List PersistTimelineEventInput → String → Bool)

def registerNative (fault : Option Call) (s : State) (native : NativeRequest) :
    ArgmaxResult State := do
  attempt fault .read
  let id := s.db.approvalIds
  let (db, _) ← ApprovalFlush.registerNative hasOutstandingCardAsk s.db native
  attempt fault .commit
  return { s with db := db, native := s.native.put ⟨id, native.request.sessionId, false⟩ }

/-- The update of a request that its provider withdrew. -/
def cancelRow (fault : Option Call) (db : Database) (approvalId : ℕ) : ArgmaxResult Database := do
  attempt fault (.update approvalId)
  let db := db.setStatus (fun row => row.id == approvalId) "cancelled"
  attempt fault (.reread approvalId)
  let _ ← db.findApprovalById approvalId
  return db

/-- The loop of `cancel_native_request`. A responder goes before its row is written. -/
def withdraw (fault : Option Call) : Database → Table Responder.approvalId →
    List ApprovalRequest → ArgmaxResult Database × Table Responder.approvalId
  | db, native, [] => (.ok db, native)
  | db, native, approval :: pending =>
    let native := native.delete fun responder => responder.approvalId == approval.id
    match cancelRow fault db approval.id with
    | .error error => (.error error, native)
    | .ok db => withdraw fault db native pending

/-- What `cancel_native_request` does with the session, and its commit. -/
def resume (fault : Option Call) (db : Database) (sessionId : String)
    (cancelled : List ApprovalRequest) : ArgmaxResult Database := do
  attempt fault .commit
  let session ← db.findSessionById sessionId
  if cancelled ≠ [] ∧ session.state = .waiting ∧
      db.listApprovalsForSession sessionId "pending" = [] ∧
      hasDurablePending db.events sessionId = false then
    let (_, db) ← db.updateSessionState hasOutstandingCardAsk sessionId (.transition .running)
    return db
  else return db

/-- The pending rows of a request. -/
def matching (db : Database) (sessionId invocationId requestId : String) : List ApprovalRequest :=
  (db.listApprovalsForSession sessionId "pending").filter fun approval =>
    approval.providerInvocationId == some invocationId &&
      approval.providerRequestId == some requestId

def cancelNativeRequest (fault : Option Call) (s : State)
    (sessionId invocationId requestId : String) : ArgmaxResult Unit × State :=
  match attempt fault .read with
  | .error error => (.error error, s)
  | .ok () =>
    let pending := matching s.db sessionId invocationId requestId
    let (cancelled, native) := withdraw fault s.db s.native pending
    match cancelled >>= fun db => resume hasOutstandingCardAsk fault db sessionId pending with
    | .error error => (.error error, { s with native := native })
    | .ok db => (.ok (), { s with db := db, native := native })

/-- The state a session takes with a decision. -/
def nextState (stillPending isNative : Bool) (status : ResolveStatus) : SessionState :=
  if stillPending then .waiting
  else if isNative then .running
  else match status with
    | .approved => .running
    | .rejected => .blocked

/-- What `resolve` does with the session of the row. -/
def settleSession (db : Database) (sessionId : String) (isNative : Bool)
    (status : ResolveStatus) : ArgmaxResult Database := do
  let session ← db.findSessionById sessionId
  if session.state ≠ .waiting then return db
  else
    let stillHasApproval := !(db.listApprovalsForSession sessionId "pending").isEmpty
    let stillHasQuestion := hasDurablePending db.events sessionId
    let next := nextState (stillHasApproval || stillHasQuestion) isNative status
    let input := SessionStateInput.transition next
    let (_, db) ← db.updateSessionState hasOutstandingCardAsk sessionId
      (if next = .waiting ∧ stillHasApproval then input.withPendingApproval
        else if next = .waiting then input.withBlockingQuestion
        else input)
    return db

/-- The event of a decision. -/
def resolvedEvent (approval : ApprovalRequest) (status : ResolveStatus) :
    PersistTimelineEventInput where
  sessionId := approval.sessionId
  type := "approval.resolved"
  message := match status with
    | .approved => "Approval granted"
    | .rejected => "Approval denied"
  payload := .object [("approvalId", .string approval.id.repr),
    ("command", .string approval.command), ("status", .string status.asStr)]

/-- The transaction of `resolve`. -/
def resolveRow (fault : Option Call) (db : Database) (approvalId : ℕ) (isNative : Bool)
    (status : ResolveStatus) : ArgmaxResult Database := do
  let (approval, db) ← db.resolveApproval approvalId status.asStr
  let db ← settleSession hasOutstandingCardAsk db approval.sessionId isNative status
  attempt fault .commit
  return { db with events := db.events ++ [resolvedEvent approval status] }

def resolve (fault : Option Call) (s : State) (approvalId : ℕ) (status : ResolveStatus) :
    ArgmaxResult State := do
  attempt fault .read
  let current ← s.db.findApprovalById approvalId
  let isNative := current.providerRequestId.isSome
  let responder := s.native.find? approvalId
  if isNative ∧ responder.all (·.isClosed) then
    .error (.service "APPROVAL_CANCELLED"
      "This approval is no longer connected to a running provider")
  else
    let db ← resolveRow hasOutstandingCardAsk fault s.db approvalId isNative status
    return {
      db := db
      native := s.native.delete fun responder => responder.approvalId == approvalId
      told := if responder.any fun responder => !responder.isClosed then
        (approvalId, status == .approved) :: s.told else s.told }

end

/-- The rows that were cancelled are read again, to be published. -/
def rereadAll (fault : Option Call) (db : Database) (pending : List ApprovalRequest) :
    ArgmaxResult Unit :=
  pending.forM fun approval => do
    attempt fault (.reread approval.id)
    let _ ← db.findApprovalById approval.id

/-- What the cancellation of a session and of a workspace do after they listed what is
pending: the rows, then the responders, then what is published. -/
def cancelPending (fault : Option Call) (s : State) (pending : List ApprovalRequest)
    (cancelled : Database) : ArgmaxResult Unit × State :=
  if pending = [] then (.ok (), s)
  else
    match attempt fault .commit with
    | .error error => (.error error, s)
    | .ok () =>
      (rereadAll fault cancelled pending,
        { s with
          db := cancelled
          native := s.native.delete fun responder =>
            pending.any fun approval => approval.id == responder.approvalId })

def cancelWorkspacePending (fault : Option Call) (s : State) (workspaceId : String) :
    ArgmaxResult Unit × State :=
  match attempt fault .read with
  | .error error => (.error error, s)
  | .ok () =>
    cancelPending fault s (s.db.listApprovalsForWorkspace workspaceId "pending")
      (s.db.cancelWorkspacePending workspaceId)

/-- `cancel_session_pending`. The responders go before anything is read. -/
def cancelSessionPending (fault : Option Call) (s : State) (sessionId : String) :
    ArgmaxResult Unit × State :=
  let s := { s with
    native := s.native.delete fun responder => responder.sessionId == sessionId }
  match attempt fault .read with
  | .error error => (.error error, s)
  | .ok () =>
    cancelPending fault s (s.db.listApprovalsForSession sessionId "pending")
      (s.db.cancelSessionPending sessionId)

/-! ## Runs -/

inductive Act where
  | registerNative (fault : Option Call) (native : NativeRequest)
  | cancelNativeRequest (fault : Option Call) (sessionId invocationId requestId : String)
  | resolve (fault : Option Call) (approvalId : ℕ) (status : ResolveStatus)
  | cancelWorkspacePending (fault : Option Call) (workspaceId : String)
  | cancelSessionPending (fault : Option Call) (sessionId : String)
  /-- A provider stops waiting. -/
  | hangUp (approvalId : ℕ)
  /-- The process ends and starts again. -/
  | restart
  /-- A flush persists a request that it read off a provider's output. -/
  | persist (input : PersistApprovalInput)
  /-- Other code leaves these rows. The approvals of a session go with it. -/
  | write (sessions : Table SessionRow.id) (workspaces : Table WorkspaceRow.id)
      (events : List PersistTimelineEventInput)

def hungUp (approvalId : ℕ) (responder : Responder) : Responder :=
  if responder.approvalId = approvalId then { responder with isClosed := true } else responder

theorem approvalId_hungUp (approvalId : ℕ) (responder : Responder) :
    (hungUp approvalId responder).approvalId = responder.approvalId := by
  rw [hungUp]
  split <;> rfl

/-- The result of an operation that changes nothing when it fails. -/
def committed (s : State) : ArgmaxResult State → ArgmaxResult Unit × State
  | .ok s => (.ok (), s)
  | .error error => (.error error, s)

section

variable (hasOutstandingCardAsk : List PersistTimelineEventInput → String → Bool)

/-- What an act comes to. -/
def perform (s : State) : Act → ArgmaxResult Unit × State
  | .registerNative fault native =>
    committed s (registerNative hasOutstandingCardAsk fault s native)
  | .cancelNativeRequest fault sessionId invocationId requestId =>
    cancelNativeRequest hasOutstandingCardAsk fault s sessionId invocationId requestId
  | .resolve fault approvalId status =>
    committed s (resolve hasOutstandingCardAsk fault s approvalId status)
  | .cancelWorkspacePending fault workspaceId => cancelWorkspacePending fault s workspaceId
  | .cancelSessionPending fault sessionId => cancelSessionPending fault s sessionId
  | .hangUp approvalId =>
    (.ok (), { s with
      native := s.native.update (hungUp approvalId) (approvalId_hungUp approvalId) })
  | .restart => (.ok (), { s with native := .empty })
  | .persist input =>
    committed s ((s.db.persistApproval input).map fun written => { s with db := written.2 })
  | .write sessions workspaces events =>
    (.ok (), { s with
      db := { s.db with
        sessions := sessions
        workspaces := workspaces
        events := events
        approvals := s.db.approvals.delete fun row => (sessions.find? row.sessionId).isNone } })

def step (s : State) (act : Act) : State := (perform hasOutstandingCardAsk s act).2

end

end Argmax.Approvals
