import Argmax.Persistence.Events
import Argmax.Providers.FlushQueue

/-!
# Approval requests

`persistence/approvals.rs`, and the writes of a session's state that go with it in
`persistence/sessions.rs` and `persistence/workspaces.rs`. A provider that asks for a
permission names the request, and the pair of Argmax's invocation id and the
provider's request id is the identity under which a row is found again whatever
became of it. A request without an id of its own is found only while it is pending.

Times are left out. The id of a row is its number among the ids made.
-/

namespace Argmax.Persistence

open Argmax.Lib Argmax.Providers

/-! ## Sessions -/

inductive SessionState where
  | created
  | running
  | waiting
  | blocked
  | complete
  | failed
  | cancelled
  deriving DecidableEq

def SessionState.asStr : SessionState → String
  | .created => "created"
  | .running => "running"
  | .waiting => "waiting"
  | .blocked => "blocked"
  | .complete => "complete"
  | .failed => "failed"
  | .cancelled => "cancelled"

def SessionState.isLive (state : SessionState) : Bool := state == .running || state == .waiting

inductive AttentionState where
  | normal
  | blocked
  | failed
  | reviewReady
  | questionAsked
  | approvalNeeded
  deriving DecidableEq

def computeSessionAttention (state : SessionState) (hasPendingApproval : Bool)
    (hasOutstandingQuestion : Bool) : AttentionState :=
  if hasPendingApproval then .approvalNeeded
  else if hasOutstandingQuestion &&
      !([.created, .running, .cancelled].contains state) then
    .questionAsked
  else
    match state with
    | .blocked | .waiting => .blocked
    | .failed => .failed
    | .complete => .reviewReady
    | .created | .running | .cancelled => .normal

structure SessionStateInput where
  state : SessionState
  attention : AttentionState

namespace SessionStateInput

def transition (state : SessionState) : SessionStateInput :=
  ⟨state, computeSessionAttention state false false⟩

def withPendingApproval (input : SessionStateInput) : SessionStateInput :=
  { input with attention := computeSessionAttention input.state true false }

def withBlockingQuestion (input : SessionStateInput) : SessionStateInput :=
  { input with attention := computeSessionAttention input.state false true }

def withOutstandingQuestion (input : SessionStateInput) : SessionStateInput :=
  { input with attention := computeSessionAttention input.state false true }

def mayCarryQuestion (input : SessionStateInput) : Bool :=
  input.attention != .approvalNeeded && !([.created, .running, .cancelled].contains input.state)

end SessionStateInput

structure SessionRow where
  id : String
  workspaceId : String
  state : SessionState
  attention : AttentionState
  deriving DecidableEq

structure WorkspaceRow where
  id : String
  state : String
  deriving DecidableEq

/-! ## Rows -/

/-- What identifies a request of a provider. -/
structure ProviderRequest where
  sessionId : String
  provider : String
  providerInvocationId : String
  providerRequestId : String
  deriving DecidableEq

/-- A row of `approvals`. -/
structure ApprovalRequest where
  id : ℕ
  sessionId : String
  command : String
  cwd : String
  provider : String
  providerInvocationId : Option String
  providerRequestId : Option String
  riskLevel : String
  status : String
  deriving DecidableEq

/-- The columns of the index `idx_approvals_provider_invocation_request`, which holds the
rows that have both ids. -/
def requestOf (sessionId provider : String) :
    (providerInvocationId providerRequestId : Option String) → Option ProviderRequest
  | some invocationId, some requestId => some ⟨sessionId, provider, invocationId, requestId⟩
  | _, _ => none

/-- The identity of a row. -/
def ApprovalRequest.request (row : ApprovalRequest) : Option ProviderRequest :=
  requestOf row.sessionId row.provider row.providerInvocationId row.providerRequestId

/-- The identity of what is to become a row. -/
def requestOfInput (input : PersistApprovalInput) : Option ProviderRequest :=
  requestOf input.sessionId input.provider input.providerInvocationId input.providerRequestId

def approvalRow (id : ℕ) (input : PersistApprovalInput) : ApprovalRequest where
  id := id
  sessionId := input.sessionId
  command := input.command
  cwd := input.cwd
  provider := input.provider
  providerInvocationId := input.providerInvocationId
  providerRequestId := input.providerRequestId
  riskLevel := input.riskLevel
  status := input.status

/-- The tables a flush reads and writes. -/
structure Database where
  sessions : Table SessionRow.id
  workspaces : Table WorkspaceRow.id
  approvals : Table ApprovalRequest.id
  /-- How many approval ids were made. -/
  approvalIds : ℕ
  events : List PersistTimelineEventInput
  rawOutputs : List PersistRawOutputInput
  deriving DecidableEq

namespace Database

variable (db : Database)

/-! ## Lookups -/

def findApprovalByProviderRequest (sessionId provider invocationId requestId : String) :
    Option ApprovalRequest :=
  db.approvals.rows.find? fun row =>
    row.sessionId == sessionId && row.provider == provider &&
      row.providerInvocationId == some invocationId && row.providerRequestId == some requestId

def findPendingApproval (sessionId command cwd provider : String) : Option ApprovalRequest :=
  db.approvals.rows.find? fun row =>
    row.sessionId == sessionId && row.command == command && row.cwd == cwd &&
      row.provider == provider && row.status == "pending"

def hasProviderPermissionEvent (sessionId provider invocationId requestId : String) : Bool :=
  db.events.any fun event =>
    event.sessionId == sessionId &&
      ["approval.requested", "permission.blocked"].contains event.type &&
      jsonExtract event.payload ["provider"] == some (.string provider) &&
      jsonExtract event.payload ["providerInvocationId"] == some (.string invocationId) &&
      jsonExtract event.payload ["providerRequestId"] == some (.string requestId)

def findSessionById (sessionId : String) : ArgmaxResult SessionRow :=
  match db.sessions.find? sessionId with
  | some session => .ok session
  | none => .error (.recordNotFound "session" sessionId)

def findWorkspaceById (workspaceId : String) : ArgmaxResult WorkspaceRow :=
  match db.workspaces.find? workspaceId with
  | some workspace => .ok workspace
  | none => .error (.recordNotFound "workspace" workspaceId)

def findApprovalById (approvalId : ℕ) : ArgmaxResult ApprovalRequest :=
  match db.approvals.find? approvalId with
  | some row => .ok row
  | none => .error (.recordNotFound "approval" approvalId.repr)

/-- `list_approvals_for_session`. The newest come first. -/
def listApprovalsForSession (sessionId status : String) : List ApprovalRequest :=
  db.approvals.rows.reverse.filter fun row => row.sessionId == sessionId && row.status == status

def listApprovalsForWorkspace (workspaceId status : String) : List ApprovalRequest :=
  db.approvals.rows.reverse.filter fun row =>
    (db.sessions.rows.any fun session =>
      session.id == row.sessionId && session.workspaceId == workspaceId) && row.status == status

/-- Some row has this identity. -/
def Holds (request : ProviderRequest) : Prop := ∃ row ∈ db.approvals, row.request = some request

/-- The identities of the rows, in their order. -/
def requests : List ProviderRequest := db.approvals.rows.filterMap (·.request)

/-! ## Writes -/

/-- The insert of a row with a new id. The index and the reference to the session may
refuse it. -/
def insertApproval (input : PersistApprovalInput) : ArgmaxResult (ApprovalRequest × Database) :=
  let row := approvalRow db.approvalIds input
  if row.request.isSome && db.approvals.rows.any fun other => other.request == row.request then
    .error (.service "SQLITE" "UNIQUE constraint failed: idx_approvals_provider_invocation_request")
  else if (db.sessions.find? input.sessionId).isNone then
    .error (.service "SQLITE" "FOREIGN KEY constraint failed")
  else
    match db.approvals.insert? row with
    | some approvals =>
      .ok (row, { db with approvals := approvals, approvalIds := db.approvalIds + 1 })
    | none => .error (.service "SQLITE" "UNIQUE constraint failed: approvals.id")

def persistApproval (input : PersistApprovalInput) : ArgmaxResult (ApprovalRequest × Database) := do
  let (row, db) ← db.insertApproval input
  return (← db.findApprovalById row.id, db)

/-- Gives the selected rows that are pending a status. -/
def setStatus (selected : ApprovalRequest → Bool) (status : String) : Database :=
  { db with
    approvals := db.approvals.update
      (fun row => if selected row && row.status == "pending" then { row with status := status }
        else row)
      (by intro row; split <;> rfl) }

def resolveApproval (approvalId : ℕ) (status : String) :
    ArgmaxResult (ApprovalRequest × Database) := do
  let existing ← db.findApprovalById approvalId
  if existing.status = "pending" ∧ existing.providerRequestId.isSome ∧
      existing.providerInvocationId.isNone then
    .error (.service "APPROVAL_LEGACY_UNSUPPORTED" ("Approval " ++ existing.id.repr ++
      " belongs to a provider invocation that cannot be resumed safely."))
  else if existing.status ≠ "pending" then
    .error (.service "APPROVAL_NOT_PENDING" ("Approval " ++ existing.id.repr ++ " is already " ++
      existing.status ++ " and cannot be resolved again."))
  else
    let db := db.setStatus (fun row => row.id == approvalId) status
    return (← db.findApprovalById approvalId, db)

/-- The update of `cancel_native_request`. -/
def cancelNativeRequest (sessionId invocationId requestId : String) : Database :=
  db.setStatus (fun row => row.sessionId == sessionId &&
    row.providerInvocationId == some invocationId && row.providerRequestId == some requestId)
    "cancelled"

/-- The update of `cancel_session_pending`. -/
def cancelSessionPending (sessionId : String) : Database :=
  db.setStatus (fun row => row.sessionId == sessionId) "cancelled"

/-- The update of `cancel_workspace_pending`. -/
def cancelWorkspacePending (workspaceId : String) : Database :=
  db.setStatus (fun row => db.sessions.rows.any fun session =>
    session.id == row.sessionId && session.workspaceId == workspaceId) "cancelled"

/-- `update_session_state`. Whether the session sits on an open question is read off its
events. -/
def updateSessionState (hasOutstandingCardAsk : List PersistTimelineEventInput → String → Bool)
    (sessionId : String) (input : SessionStateInput) : ArgmaxResult (SessionRow × Database) := do
  let input :=
    if input.mayCarryQuestion && hasOutstandingCardAsk db.events sessionId then
      input.withOutstandingQuestion
    else input
  let db := { db with
    sessions := db.sessions.update
      (fun session => if session.id = sessionId then
        { session with state := input.state, attention := input.attention } else session)
      (by intro session; split <;> rfl) }
  return (← db.findSessionById sessionId, db)

def updateWorkspaceState (workspaceId state : String) : ArgmaxResult (WorkspaceRow × Database) := do
  let db := { db with
    workspaces := db.workspaces.update
      (fun workspace => if workspace.id = workspaceId then { workspace with state := state }
        else workspace)
      (by intro workspace; split <;> rfl) }
  return (← db.findWorkspaceById workspaceId, db)

end Database

/-! ## What the lookups and writes do -/

variable {sessionId : String} {session : SessionRow} {row : ApprovalRequest}

theorem requestOf_eq_some {provider : String} {invocationId requestId : Option String}
    {request : ProviderRequest} :
    requestOf sessionId provider invocationId requestId = some request ↔
      sessionId = request.sessionId ∧ provider = request.provider ∧
        invocationId = some request.providerInvocationId ∧
        requestId = some request.providerRequestId := by
  cases request
  cases invocationId <;> cases requestId <;> simp [requestOf]

namespace Database

variable {db db' : Database}

/-- **A request is found whatever became of its row.** -/
theorem findApprovalByProviderRequest_isSome {request : ProviderRequest} :
    (db.findApprovalByProviderRequest request.sessionId request.provider
      request.providerInvocationId request.providerRequestId).isSome ↔ db.Holds request := by
  simp [findApprovalByProviderRequest, Holds, ApprovalRequest.request, requestOf_eq_some,
    Table.mem_def, and_assoc]

theorem findSessionById_eq_ok :
    db.findSessionById sessionId = .ok session ↔ session ∈ db.sessions ∧ session.id = sessionId := by
  rw [← Table.find?_eq_some, findSessionById]
  cases db.sessions.find? sessionId <;> simp

theorem findApprovalById_eq_ok {approvalId : ℕ} :
    db.findApprovalById approvalId = .ok row ↔ row ∈ db.approvals ∧ row.id = approvalId := by
  rw [← Table.find?_eq_some, findApprovalById]
  cases db.approvals.find? approvalId <;> simp

theorem insertApproval_eq_ok {input : PersistApprovalInput}
    (h : db.insertApproval input = .ok (row, db')) :
    row = approvalRow db.approvalIds input ∧
      (∀ request, row.request = some request → ¬ db.Holds request) ∧
      ∃ hfree : db.approvals.find? row.id = none,
        db' = { db with
          approvals := db.approvals.push row hfree, approvalIds := db.approvalIds + 1 } := by
  simp only [insertApproval] at h
  split at h
  · simp at h
  rename_i hindex
  split at h
  · simp at h
  split at h
  · rename_i approvals hinsert
    obtain ⟨rfl, rfl⟩ := Prod.mk.inj (Except.ok.inj h)
    obtain ⟨hfree, rfl⟩ := Table.insert?_eq_some.mp hinsert
    refine ⟨rfl, ?_, hfree, rfl⟩
    rintro request hrequest ⟨other, hother, heq⟩
    exact hindex (by simpa [hrequest] using ⟨other, hother, heq⟩)
  · simp at h

/-- A row that is persisted comes last, and no row had its identity. -/
theorem persistApproval_eq_ok {input : PersistApprovalInput}
    (h : db.persistApproval input = .ok (row, db')) :
    row = approvalRow db.approvalIds input ∧
      (∀ request, row.request = some request → ¬ db.Holds request) ∧
      ∃ hfree : db.approvals.find? row.id = none,
        db' = { db with
          approvals := db.approvals.push row hfree, approvalIds := db.approvalIds + 1 } := by
  obtain ⟨⟨inserted, after⟩, hinsert, h⟩ := ArgmaxResult.bind_eq_ok.mp h
  obtain ⟨found, hfound, h⟩ := ArgmaxResult.bind_eq_ok.mp h
  obtain ⟨rfl, rfl⟩ := Prod.mk.inj (Except.ok.inj h)
  obtain ⟨hrow, hnew, hfree, hdb⟩ := insertApproval_eq_ok hinsert
  obtain ⟨hmem, hid⟩ := findApprovalById_eq_ok.mp hfound
  have hself : inserted ∈ after.approvals := by simp [hdb]
  obtain rfl := Table.eq_of_key hmem hself hid
  exact ⟨hrow, hnew, hfree, hdb⟩

/-- A row whose identity is new leaves the identities distinct. -/
theorem nodup_requests_push (hfree : db.approvals.find? row.id = none)
    (hnew : ∀ request, row.request = some request → ¬ db.Holds request)
    (hpush : db'.approvals = db.approvals.push row hfree) (h : db.requests.Nodup) :
    db'.requests.Nodup := by
  rw [requests] at h
  simp only [requests, hpush, Table.push, List.filterMap_append]
  cases hrequest : row.request with
  | none => simpa [hrequest] using h
  | some request =>
    refine h.append (by simp [hrequest]) ?_
    simpa [hrequest, Holds, Table.mem_def] using hnew request hrequest

/-- A change of status leaves what identifies the rows. -/
@[simp] theorem requests_setStatus (selected : ApprovalRequest → Bool) (status : String) :
    (db.setStatus selected status).requests = db.requests := by
  simp only [requests, setStatus, Table.update, List.filterMap_map]
  refine List.filterMap_congr fun row _ => ?_
  rw [Function.comp_apply]
  split <;> rfl

/-- What is decided stays as it was decided. -/
theorem mem_setStatus (hrow : row ∈ db.approvals) (hstatus : row.status ≠ "pending")
    (selected : ApprovalRequest → Bool) (status : String) :
    row ∈ (db.setStatus selected status).approvals := by
  simp only [setStatus, Table.mem_update]
  exact ⟨row, hrow, by simp [hstatus]⟩

theorem resolveApproval_eq_ok {approvalId : ℕ} {status : String}
    (h : db.resolveApproval approvalId status = .ok (row, db')) :
    db' = db.setStatus (fun row => row.id == approvalId) status := by
  obtain ⟨existing, -, h⟩ := ArgmaxResult.bind_eq_ok.mp h
  split at h
  · simp at h
  split at h
  · simp at h
  obtain ⟨found, -, h⟩ := ArgmaxResult.bind_eq_ok.mp h
  exact (Prod.mk.inj (Except.ok.inj h)).2.symm

variable {hasOutstandingCardAsk : List PersistTimelineEventInput → String → Bool}

/-- A session's new state is all that is written. -/
theorem updateSessionState_eq_ok {input : SessionStateInput}
    (h : db.updateSessionState hasOutstandingCardAsk sessionId input = .ok (session, db')) :
    db'.approvals = db.approvals ∧ session.state = input.state ∧
      ∀ row ∈ db'.sessions, row.state = input.state ∨ row ∈ db.sessions := by
  obtain ⟨found, hfound, h⟩ := ArgmaxResult.bind_eq_ok.mp h
  obtain ⟨rfl, rfl⟩ := Prod.mk.inj (Except.ok.inj h)
  obtain ⟨hmem, hid⟩ := findSessionById_eq_ok.mp hfound
  -- An open question changes the attention only.
  have hstate : (if input.mayCarryQuestion && hasOutstandingCardAsk db.events sessionId then
      input.withOutstandingQuestion else input).state = input.state := by
    split <;> rfl
  rw [Table.mem_update] at hmem
  obtain ⟨row, hrow, rfl⟩ := hmem
  refine ⟨rfl, ?_, ?_⟩
  · by_cases h : row.id = sessionId
    · rw [if_pos h]
      exact hstate
    · simp [h] at hid
  · intro row' hrow'
    rw [Table.mem_update] at hrow'
    obtain ⟨row, hrow, rfl⟩ := hrow'
    by_cases h : row.id = sessionId
    · rw [if_pos h]
      exact .inl hstate
    · rw [if_neg h]
      exact .inr hrow

/-- No other session changes. -/
theorem mem_sessions_updateSessionState {input : SessionStateInput}
    (h : db.updateSessionState hasOutstandingCardAsk sessionId input = .ok (session, db')) :
    ∀ row ∈ db'.sessions, row ∈ db.sessions ∨ row.id = sessionId ∧ row.state = input.state := by
  obtain ⟨found, -, h⟩ := ArgmaxResult.bind_eq_ok.mp h
  obtain ⟨rfl, rfl⟩ := Prod.mk.inj (Except.ok.inj h)
  intro row' hrow'
  rw [Table.mem_update] at hrow'
  obtain ⟨row, hrow, rfl⟩ := hrow'
  by_cases hid : row.id = sessionId
  · refine .inr ⟨by simp [hid], ?_⟩
    simp only [hid, if_true]
    split <;> rfl
  · simp [hid, hrow]

/-- The tables of approvals and of events stay. -/
theorem updateSessionState_keeps {input : SessionStateInput}
    (h : db.updateSessionState hasOutstandingCardAsk sessionId input = .ok (session, db')) :
    db'.approvals = db.approvals ∧ db'.events = db.events ∧ db'.approvalIds = db.approvalIds := by
  obtain ⟨found, -, h⟩ := ArgmaxResult.bind_eq_ok.mp h
  obtain ⟨rfl, rfl⟩ := Prod.mk.inj (Except.ok.inj h)
  exact ⟨rfl, rfl, rfl⟩

theorem updateWorkspaceState_eq_ok {workspaceId state : String} {workspace : WorkspaceRow}
    (h : db.updateWorkspaceState workspaceId state = .ok (workspace, db')) :
    db'.approvals = db.approvals ∧ db'.sessions = db.sessions := by
  obtain ⟨found, -, h⟩ := ArgmaxResult.bind_eq_ok.mp h
  obtain ⟨-, rfl⟩ := Prod.mk.inj (Except.ok.inj h)
  exact ⟨rfl, rfl⟩

end Database

end Argmax.Persistence
