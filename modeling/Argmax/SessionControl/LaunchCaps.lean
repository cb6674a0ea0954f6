import Argmax.Persistence.LaunchReceipts

/-!
# The caps on launches

`session_control/actions/launch.rs`. A session may launch sessions, and these may launch
sessions, within two caps: on how many a session launches, and on how deep a launch may be. A
call reads under which lock its budget is, waits for that lock, checks the caps, has the session
written and started, and records the launch. A call with a client request id has a receipt, which
it settles when it is over. It can fail, or be dropped, wherever it is.

A step is what a call does between two reads or writes of the store. The caps of an Arc, what
else is checked before a launch, multitasks and moves are left out, and so is whatever else is
written of a session.
-/

namespace Argmax.SessionControl.LaunchCaps

open Argmax.Lib Argmax.Persistence.LaunchReceipts

/-! ## Calls -/

def maxLaunchDepth : ℕ := 2

def maxLaunchesPerSession : ℕ := 20

/-- `LAUNCH_KIND_AGENT`, which is the column's default as well. -/
def launchKindAgent : String := "agent"

/-- The key of `LAUNCH_BUDGET_LOCKS`. -/
inductive BudgetKey where
  | arc (id : ℕ)
  | session (id : ℕ)
  deriving DecidableEq

inductive Stage where
  | entered
  /-- The key is read, and the lock is not held. -/
  | waiting (key : BudgetKey)
  | locked (key : BudgetKey)
  /-- The lineage and the Arc are read: the depth of the launch, the sessions that the caller
  has launched, the caller's Arc and whether the caller coordinates it. -/
  | counted (key : BudgetKey) (depth : ℕ) (launched : List ℕ) (arcId : Option ℕ) (exempt : Bool)
  /-- The caps are checked. -/
  | checked (key : BudgetKey) (depth : ℕ) (arcId : Option ℕ) (exempt : Bool)
  /-- The session is written, and its provider may have started. -/
  | written (key : BudgetKey) (depth : ℕ)
  /-- The launch is recorded, and the receipt is not settled. -/
  | recorded
  /-- The call returned an error, and the receipt is not settled. -/
  | failed (code message : String)
  /-- The call was dropped, and its guard has not run. -/
  | dropped

namespace Stage

/-- The key that a call has read and that it has yet to use. -/
def key? : Stage → Option BudgetKey
  | .waiting key | .locked key | .counted key _ _ _ _ | .checked key _ _ _ | .written key _ =>
    some key
  | .entered | .recorded | .failed _ _ | .dropped => none

/-- The lock that a call holds. -/
def lock? : Stage → Option BudgetKey
  | .locked key | .counted key _ _ _ _ | .checked key _ _ _ | .written key _ => some key
  | .entered | .waiting _ | .recorded | .failed _ _ | .dropped => none

/-- The call has returned an error, or was dropped. -/
def isBroken : Stage → Bool
  | .failed _ _ | .dropped => true
  | .entered | .waiting _ | .locked _ | .counted _ _ _ _ _ | .checked _ _ _ _ | .written _ _
  | .recorded => false

/-- The launch is over. -/
def isOver : Stage → Bool
  | .recorded | .failed _ _ | .dropped => true
  | .entered | .waiting _ | .locked _ | .counted _ _ _ _ _ | .checked _ _ _ _ | .written _ _ =>
    false

end Stage

structure Call where
  parent : ℕ
  /-- The client request id. -/
  request : Option String
  /-- The session that the call writes. -/
  sessionId : ℕ
  stage : Stage

/-- A session that was written for a caller. -/
structure Start where
  child : ℕ
  parent : ℕ
  /-- The caller coordinated its Arc when the caps were checked. -/
  exempt : Bool

structure State where
  db : Database
  /-- `sessions.launch_depth`. -/
  launchDepth : ℕ → ℕ
  /-- `sessions.arc_id`. -/
  arcId : ℕ → Option ℕ
  /-- `arcs.coordinator_session_id`. -/
  coordinator : ℕ → Option ℕ
  /-- `LAUNCH_BUDGET_LOCKS`, with the call that holds each. -/
  locks : BudgetKey → Option ℕ
  calls : ℕ → Option Call
  /-- How many session ids were drawn. -/
  drawn : ℕ
  /-- What was started, the newest first. The program keeps neither this nor the levels. -/
  starts : List Start
  /-- How many launches lie between a session and one that a person started. -/
  level : ℕ → ℕ

def State.start : State :=
  { db := ⟨.empty, .empty⟩, launchDepth := fun _ => 0, arcId := fun _ => none
    coordinator := fun _ => none, locks := fun _ => none, calls := fun _ => none, drawn := 0
    starts := [], level := fun _ => 0 }

/-- How the receipt of a launch that is over is settled. -/
inductive Settlement where
  /-- `settle_receipt` settles it, with the reply where there is one. -/
  | settled (resultJson : String)
  /-- The guard marks it uncertain and repairs the lineage. -/
  | guarded
  /-- The receipt is marked uncertain, and the lineage is not repaired. -/
  | marked
  /-- Nothing could be written. -/
  | lost

inductive Act where
  /-- A person starts a session. -/
  | openSession (arcId : Option ℕ)
  /-- A session becomes a member of an Arc, or of none. -/
  | setArc (id : ℕ) (arcId : Option ℕ)
  | setCoordinator (arcId : ℕ) (id : Option ℕ)
  /-- `launch_session`, up to `launch_once`. -/
  | launch (call parent : ℕ) (request : Option String) (requestHash : String)
  | proceed (call : ℕ)
  | fail (call : ℕ) (code message : String)
  | drop (call : ℕ)
  | settle (call : ℕ) (settlement : Settlement)
  /-- A retry finds an uncertain receipt. -/
  | reconcile
  | restart

/-! ## Steps -/

def budgetKey (s : State) (parent : ℕ) : BudgetKey :=
  match s.arcId parent with
  | some arcId => .arc arcId
  | none => .session parent

/-- What `session_launch_lineage` counts. -/
def launchedBy (s : State) (parent : ℕ) : List ℕ :=
  (s.db.sessions.rows.filter fun row =>
    row.launchedBySessionId == some parent && row.launchKind == launchKindAgent).map (·.id)

/-- The caller is its Arc's current coordinator. -/
def isCurrentCoordinator (s : State) (parent : ℕ) : Bool :=
  (s.arcId parent).any fun arcId => s.coordinator arcId == some parent

def setCall (s : State) (call : ℕ) (c : Option Call) : State :=
  { s with calls := Function.update s.calls call c }

/-- A call that has a receipt goes on to settle it. -/
def Call.over (c : Call) (stage : Stage) : Option Call :=
  if c.request.isSome then some { c with stage := stage } else none

/-- The call ends its launch, and lets go of its lock. -/
def leave (s : State) (call : ℕ) (c : Call) (stage : Stage) : State :=
  { setCall s call (c.over stage) with
    locks := fun key => if c.stage.lock? = some key then none else s.locks key }

/-- The row of a session that a call has written. -/
def writeSession (s : State) (c : Call) (arcId : Option ℕ) (exempt : Bool) : State :=
  { s with
    db := { s.db with sessions := s.db.sessions.put ⟨c.sessionId, none, launchKindAgent⟩ }
    launchDepth := Function.update s.launchDepth c.sessionId 0
    arcId := Function.update s.arcId c.sessionId arcId
    starts := ⟨c.sessionId, c.parent, exempt⟩ :: s.starts
    level := Function.update s.level c.sessionId (s.level c.parent + 1) }

def recordSessionLaunch (s : State) (id parent depth : ℕ) : State :=
  { s with
    db :=
      { s.db with
        sessions := s.db.sessions.update
          (fun row =>
            if row.id = id then
              { row with launchedBySessionId := some parent, launchKind := launchKindAgent }
            else row)
          (by intro row; split <;> rfl) }
    launchDepth := Function.update s.launchDepth id depth }

/-- The depth that `reconcile_uncertain_lineage` writes. -/
def repairedDepth (db : Database) (depth : ℕ → ℕ) (id : ℕ) : ℕ :=
  match db.sessions.find? id, db.uncertainLauncher id with
  | some row, some launcher =>
    if row.launchedBySessionId.isNone then
      (if (db.sessions.find? launcher).isSome then depth launcher else 0) + 1
    else depth id
  | _, _ => depth id

def reconcile (s : State) : State :=
  { s with
    db := s.db.reconcileUncertainLineage
    launchDepth := repairedDepth s.db s.launchDepth }

def markUncertain (s : State) (parent : ℕ) (request : String) : State :=
  { s with db := s.db.settle parent request .uncertain }

/-- What a boot makes of the receipts before it repairs the lineage. -/
def orphansSettled (db : Database) : Database :=
  let db := db.updateReceipts
    (fun receipt => receipt.status == .pending && (db.sessions.find? receipt.sessionId).isNone)
    Database.interrupted Database.key_interrupted
  db.updateReceipts (fun receipt => receipt.status == .pending) Database.unsettled
    Database.key_unsettled

def launch (s : State) (call parent : ℕ) (request : Option String) (requestHash : String) : State :=
  match request with
  | none =>
    { setCall s call (some ⟨parent, none, s.drawn, .entered⟩) with drawn := s.drawn + 1 }
  | some clientRequestId =>
    match s.db.claimReceipt parent clientRequestId requestHash s.drawn with
    | .ok (.claimed receipt, db) =>
      { setCall s call (some ⟨parent, some clientRequestId, receipt.sessionId, .entered⟩) with
        db := db
        drawn := s.drawn + 1 }
    | .ok (.existing _, _) => { s with drawn := s.drawn + 1 }
    | .error _ => { s with drawn := s.drawn + 1 }

/-- `launch_once`, from one point at which it reads or writes to the next. -/
def proceed (s : State) (call : ℕ) (c : Call) : Stage → State
  | .entered => setCall s call (some { c with stage := .waiting (budgetKey s c.parent) })
  | .waiting key =>
    if (s.locks key).isSome then s
    else
      { setCall s call (some { c with stage := .locked key }) with
        locks := Function.update s.locks key (some call) }
  | .locked key =>
    let depth := s.launchDepth c.parent + 1
    if maxLaunchDepth < depth then
      leave s call c (.failed "LAUNCH_DEPTH_EXCEEDED"
        ("Launched sessions may go 2 levels deep and this session is already at " ++
          s!"{s.launchDepth c.parent}. Do the work here, or message a session nearer the top " ++
          "to launch it."))
    else
      setCall s call (some
        { c with
          stage := .counted key depth (launchedBy s c.parent) (s.arcId c.parent)
            (isCurrentCoordinator s c.parent) })
  | .counted key depth launched arcId exempt =>
    let reserved := s.db.countUnrecordedLaunches c.parent
    if !exempt && decide (maxLaunchesPerSession ≤ launched.length + reserved) then
      leave s call c (.failed "LAUNCH_LIMIT_REACHED"
        ("This session has already launched 20 sessions, which is the per-session cap. " ++
          "Message one of them instead."))
    else setCall s call (some { c with stage := .checked key depth arcId exempt })
  | .checked key depth arcId exempt =>
    setCall (writeSession s c arcId exempt) call (some { c with stage := .written key depth })
  | .written _ depth => leave (recordSessionLaunch s c.sessionId c.parent depth) call c .recorded
  | .recorded | .failed _ _ | .dropped => s

/-- The receipt of a launch that is over. -/
def settleReceipt (s : State) (c : Call) (request : String) : Settlement → State
  | .settled resultJson =>
    match c.stage with
    | .recorded => { s with db := s.db.settle c.parent request (.completed resultJson) }
    | .failed code message =>
      if (s.db.sessions.find? c.sessionId).isSome then
        reconcile (markUncertain s c.parent request)
      else { s with db := s.db.settle c.parent request (.failed code message) }
    | _ => reconcile (markUncertain s c.parent request)
  | .guarded => reconcile (markUncertain s c.parent request)
  | .marked => markUncertain s c.parent request
  | .lost => s

def step (s : State) : Act → State
  | .openSession arcId =>
    { s with
      db := { s.db with sessions := s.db.sessions.put ⟨s.drawn, none, launchKindAgent⟩ }
      launchDepth := Function.update s.launchDepth s.drawn 0
      arcId := Function.update s.arcId s.drawn arcId
      level := Function.update s.level s.drawn 0
      drawn := s.drawn + 1 }
  | .setArc id arcId => { s with arcId := Function.update s.arcId id arcId }
  | .setCoordinator arcId id => { s with coordinator := Function.update s.coordinator arcId id }
  | .launch call parent request requestHash =>
    if (s.calls call).isNone && (s.db.sessions.find? parent).isSome then
      launch s call parent request requestHash
    else s
  | .proceed call =>
    match s.calls call with
    | some c => proceed s call c c.stage
    | none => s
  | .fail call code message =>
    match s.calls call with
    | some c => if c.stage.isBroken then s else leave s call c (.failed code message)
    | none => s
  | .drop call =>
    match s.calls call with
    | some c => if c.stage.isBroken then s else leave s call c .dropped
    | none => s
  | .settle call settlement =>
    match s.calls call with
    | some c =>
      match c.request with
      | some request =>
        if c.stage.isOver then setCall (settleReceipt s c request settlement) call none else s
      | none => s
    | none => s
  | .reconcile => reconcile s
  | .restart =>
    { reconcile { s with db := orphansSettled s.db } with
      locks := fun _ => none
      calls := fun _ => none }

end Argmax.SessionControl.LaunchCaps
