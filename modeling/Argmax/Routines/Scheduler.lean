import Argmax.Application.Validation
import Argmax.Lib.Transition
import Argmax.Persistence.Routines

/-!
# The scheduler of routines

`routines/scheduler.rs`, with the commands of `ipc/routines.rs` and the wakes of
`session_control/actions/project_tools.rs` that change the same rows. A firing claims
its routine, copies the row, and then goes through steps between which anything else
may happen: it asks the Arc, sends to a chat or launches a session, and settles on the
row in up to three statements. The table of firings in progress is the claim set.

What a launch and a follow-up answer comes from outside, and so does the Arc's state.
An answer that is an error may come from a launch that had started something. Statements
do not fail.
-/

namespace Argmax.Routines

open Argmax.Lib Argmax.Persistence.Routines

/-! ## Firings -/

/-- What set a firing off. -/
inductive Trigger where
  | tick
  | runNow
  deriving DecidableEq

/-- What a firing does next. -/
inductive Stage where
  /-- Ask the Arc for its coordinator. -/
  | resolveArc
  /-- Await the follow-up to a chat. -/
  | send (sessionId : String)
  /-- Await the launch of a session. -/
  | launch
  /-- Delete the row of a spent wake. -/
  | deleteSpent (launchedSessionId : Option String)
  /-- Book a success. -/
  | mark (launchedSessionId : Option String)
  /-- Retire a one-shot whose success could not be booked. -/
  | retire
  /-- Book a failure. -/
  | markFailed (nextRunAt : Option ℤ) (lastError : String) (enabled : Bool)
  deriving DecidableEq

/-- The stages after the launch. -/
def Stage.settles : Stage → Bool
  | .resolveArc | .send _ | .launch => false
  | .deleteSpent _ | .mark _ | .retire | .markFailed .. => true

/-- A firing in progress. `seen` observes how many edits its row had had when it read it. -/
structure Firing where
  fields : RoutineLaunchFields
  trigger : Trigger
  now : ℤ
  staysScheduled : Bool
  next : Option ℤ
  stage : Stage
  seen : ℕ

namespace Firing

/-- The claim a firing holds. -/
def id (firing : Firing) : String := firing.fields.id

/-- The occurrence it fires, if the routine is a one-shot. -/
def runOnceAt (firing : Firing) : Option ℤ := firing.fields.schedule.runOnceAt

def nextRunAt (firing : Firing) : Option ℤ :=
  if firing.staysScheduled then firing.next else none

def nextRunAtOrRetry (firing : Firing) : Option ℤ :=
  if firing.staysScheduled then some (retryAfter firing.now) else none

/-- The stage that books a failure. -/
def fails (firing : Firing) (lastError : String) : Stage :=
  .markFailed firing.nextRunAtOrRetry lastError firing.staysScheduled

end Firing

/-- `settle_success`: an agent's own wake is deleted, any other row is marked. -/
def settleSuccess (fields : RoutineLaunchFields) (launchedSessionId : Option String) : Stage :=
  if fields.schedule.runOnceAt.isSome && fields.createdBy == .agent then
    .deleteSpent launchedSessionId
  else .mark launchedSessionId

/-- `fire_routine`, up to the first thing it waits for. -/
def fire (cronNext : CronNext) (fields : RoutineLaunchFields) (trigger : Trigger)
    (now : ℤ) (seen : ℕ) : Firing :=
  let stays := fields.enabled && !fields.schedule.runOnceAt.isSome
  let start (next : Option ℤ) (stage : Stage) : Firing :=
    ⟨fields, trigger, now, stays, next, stage, seen⟩
  match nextOccurrence cronNext fields.schedule now with
  | .error error => start none (.markFailed none error.toString false)
  | .ok next =>
    match parseProvider fields.provider with
    | .error _ =>
      start next (.markFailed none "stored provider is not recognized" false)
    | .ok _ =>
      match fields.runTarget, fields.lastSessionId with
      | .arcCoordinator, _ => start next .resolveArc
      | .sameSession, some sessionId => start next (.send sessionId)
      | _, _ => start next .launch

/-! ## Answers from outside -/

inductive ArcCoordinatorResolution where
  | skip
  | noCoordinator
  | coordinator (sessionId : String)

/-- What a follow-up answers. A failure may have started a turn. -/
inductive FollowUpOutcome where
  | sent
  | busy
  | missing
  | failed (message : String) (started : Bool)

/-- What a launch answers. A failure may have started a session. -/
inductive LaunchResult where
  | launched (sessionId : String)
  | failed (error : ArgmaxError) (started : Bool)

/-! ## The state -/

/-- A change of a row by anything but the scheduler. -/
structure Edit where
  id : String
  deletes : Bool

/-- A launch that happened, and whether its occurrence had launched before and had not
been scheduled again. -/
structure LaunchRecord where
  id : String
  runOnceAt : Option ℤ
  trigger : Trigger
  repeated : Bool

inductive SettlementKind where
  | deleted
  | marked
  | retired
  deriving DecidableEq

/-- A settlement that changed a row: the row it met, and the edits since the firing
read it. -/
structure Settlement where
  kind : SettlementKind
  fields : RoutineLaunchFields
  row : Option Routine
  newer : List Edit

/-- The rows, the firings in progress and the routines the current tick has not come to.
The last four fields observe: `spent` are the occurrences that launched and were not
scheduled again since. -/
structure State where
  routines : RoutineTable
  firings : Table Firing.id
  due : List String
  spent : List (String × ℤ)
  launches : List LaunchRecord
  edits : List Edit
  settled : List Settlement

def start : State := ⟨.empty, .empty, [], [], [], [], []⟩

namespace State

/-- The edits of an id. -/
def editsOf (s : State) (id : String) : List Edit := s.edits.filter fun edit => edit.id == id

/-- The edits of a firing's row since it read it. -/
def newer (s : State) (firing : Firing) : List Edit :=
  (s.editsOf firing.id).drop firing.seen

/-- The row a firing read is gone, even when the id is in use again. -/
def deletedSince (s : State) (firing : Firing) : Bool :=
  (s.newer firing).any (·.deletes)

/-- A firing of an occurrence has had its answer and has not settled. -/
def settling (s : State) (id : String) (time : ℤ) : Bool :=
  (s.firings.find? id).any fun firing =>
    firing.runOnceAt == some time && firing.stage.settles

/-- The firing goes on with another stage. -/
def advance (s : State) (firing : Firing) (stage : Stage) : State :=
  { s with firings := s.firings.put { firing with stage := stage } }

/-- The firing ends and releases its claim. -/
def finish (s : State) (firing : Firing) : State :=
  { s with firings := s.firings.delete fun other => other.id == firing.id }

/-- Observe a launch. The occurrence of a row that is gone is not stored any more. -/
def observeLaunch (s : State) (firing : Firing) : State :=
  match firing.runOnceAt with
  | none =>
    { s with launches := s.launches ++ [⟨firing.id, none, firing.trigger, false⟩] }
  | some time =>
    { s with
      launches := s.launches ++
        [⟨firing.id, some time, firing.trigger, s.spent.contains (firing.id, time)⟩]
      spent :=
        if s.deletedSince firing then s.spent else (firing.id, time) :: s.spent }

/-- Observe a settlement that found its row. -/
def observeSettled (s : State) (firing : Firing) (kind : SettlementKind)
    (routines : RoutineTable) : State :=
  { s with
    routines := routines
    settled := s.settled ++ [⟨kind, firing.fields, s.routines.find? firing.id, s.newer firing⟩] }

/-- Observe an edit. -/
def edited (s : State) (id : String) (routines : RoutineTable) : State :=
  { s with routines := routines, edits := s.edits ++ [⟨id, false⟩] }

/-- Observe a deletion, which ends the occurrences of the row. -/
def deleted (s : State) (id : String) (routines : RoutineTable) : State :=
  { s with
    routines := routines
    edits := s.edits ++ [⟨id, true⟩]
    spent := s.spent.filter fun occurrence => occurrence.1 != id }

/-- Observe that the row of an id was saved or switched on: if it is enabled its
occurrence is wanted again, unless a firing of it is still settling. -/
def scheduled (s : State) (id : String) : State :=
  match s.routines.find? id with
  | none => s
  | some row =>
    match row.schedule.runOnceAt with
    | none => s
    | some time =>
      if row.enabled && !s.settling id time then
        { s with spent := s.spent.filter fun occurrence => occurrence != (id, time) }
      else s

/-- Observe that a failure was not booked because of an edit. -/
def excused (s : State) (firing : Firing) : State :=
  { s with
    spent := s.spent.filter fun occurrence =>
      !(occurrence.1 == firing.id && firing.runOnceAt == some occurrence.2) }

end State

/-! ## Commands -/

/-- `routines:upsert`. A single time is kept even when it has passed. -/
def save (cronNext : CronNext) (s : State) (input : UpsertRoutineInput) (now now' : ℤ) : State :=
  let nextRunAt : ArgmaxResult (Option ℤ) :=
    if input.enabled then
      match input.schedule.runOnceAt with
      | some time => .ok (some time)
      | none => nextOccurrence cronNext input.schedule now
    else .ok none
  match nextRunAt with
  | .error _ => s
  | .ok nextRunAt =>
    (s.edited input.id (upsertRoutine s.routines { input with createdBy := .user }
      nextRunAt now now')).scheduled input.id

/-- `schedule_same_session_wake`: a chat's alarm clock for itself. -/
def wake (s : State) (input : UpsertRoutineInput) (time : ℤ) (sessionId : String)
    (now now' : ℤ) : State :=
  let input :=
    { input with
      runTarget := .sameSession
      arcId := none
      schedule := .once time
      enabled := true
      createdBy := .agent }
  let routines := upsertRoutine s.routines input (some time) now now
  (s.edited input.id (setRoutineLastSession routines input.id (some sessionId) now').1).scheduled
    input.id

/-- `routines:set-enabled`, and the agent's cancellation when it only disables. -/
def setEnabled (cronNext : CronNext) (s : State) (id : String) (enabled : Bool) (now : ℤ) : State :=
  match s.routines.find? id with
  | none => s
  | some existing =>
    let nextRunAt : ArgmaxResult (Option ℤ) :=
      if enabled then nextRunFromNow cronNext existing.schedule now else .ok none
    match nextRunAt with
    | .error _ => s
    | .ok nextRunAt =>
      (s.edited id (setRoutineEnabled s.routines id enabled nextRunAt now).1).scheduled id

/-- `resume_schedule`. The time comes from a row that was read before and may have
changed since. -/
def resumeSchedule (s : State) (id : String) (nextRunAt : Option ℤ) (now : ℤ) : State :=
  let (routines, found) := setRoutineEnabled s.routines id true nextRunAt now
  if found then (s.edited id routines).scheduled id else s

/-- `routines:delete`, and the deletion of a check-in nobody needs any more. -/
def delete (s : State) (id : String) : State :=
  let (routines, found) := deleteRoutine s.routines id
  if found then s.deleted id routines else s

/-- `routines:reset-session`. -/
def resetSession (s : State) (id : String) (now : ℤ) : State :=
  match s.routines.find? id with
  | none => s
  | some existing =>
    if existing.runTarget = .sameSession then
      s.edited id (setRoutineLastSession s.routines id none now).1
    else s

/-- Claim a routine and read its row. -/
def claim (cronNext : CronNext) (s : State) (row : Routine) (trigger : Trigger) (now : ℤ) : State :=
  { s with
    firings := s.firings.put
      (fire cronNext (routineLaunchFields row) trigger now (s.editsOf row.id).length) }

/-- `routines:run-now`: any row, unless it is claimed. -/
def runNow (cronNext : CronNext) (s : State) (id : String) (now : ℤ) : State :=
  if (s.firings.find? id).isSome then s
  else
    match s.routines.find? id with
    | none => s
    | some row => claim cronNext s row .runNow now

/-! ## The tick -/

/-- Whether a tick is between two of its routines. -/
def State.tickIdle (s : State) : Bool :=
  s.firings.rows.all fun firing => firing.trigger != .tick

/-- `tick` reads the due list. -/
def tick (s : State) (now : ℤ) : State :=
  if s.due.isEmpty && s.tickIdle then
    { s with due := (dueRoutines s.routines now).map (·.id) }
  else s

/-- `tick` comes to its next routine: it claims it and reads it again. -/
def claimDue (cronNext : CronNext) (s : State) (now : ℤ) : State :=
  if s.tickIdle then
    match s.due with
    | [] => s
    | id :: due =>
      let s := { s with due := due }
      if (s.firings.find? id).isSome then s
      else
        match s.routines.find? id with
        | none => s
        | some row =>
          if row.enabled && row.nextRunAt.any (· ≤ now) then
            claim cronNext s row .tick now
          else s
  else s

/-! ## The firing -/

/-- `resolve_arc_coordinator` has answered. A paused Arc is no failure. -/
def resolveArc (s : State) (firing : Firing) : ArcCoordinatorResolution → State
  | .skip => s.advance firing (settleSuccess firing.fields none)
  | .noCoordinator => s.advance firing (firing.fails "Arc has no coordinator")
  | .coordinator sessionId => s.advance firing (.send sessionId)

/-- The follow-up to a coordinator has been answered. -/
def coordinatorAnswered (s : State) (firing : Firing) : FollowUpOutcome → State
  | .sent => (s.observeLaunch firing).advance firing (settleSuccess firing.fields none)
  | .busy => s.finish firing
  | .missing => s.advance firing (firing.fails "Arc has no coordinator")
  | .failed message started =>
    (if started then s.observeLaunch firing else s).advance firing (firing.fails message)

/-- The shared chat is gone: drop the pointer, if the row is as it was, and launch. -/
def chatMissing (s : State) (firing : Firing) (now : ℤ) : State :=
  match s.routines.find? firing.id with
  | none => s.finish firing
  | some current =>
    if current.updatedAt = firing.fields.updatedAt then
      let routines := (setRoutineLastSession s.routines firing.id none now).1
      match routines.find? firing.id with
      | none => s.finish firing
      | some current =>
        { s with routines := routines }.advance
          { firing with fields := routineLaunchFields current } .launch
    else s.finish firing

/-- The follow-up to the shared chat has been answered. -/
def chatAnswered (s : State) (firing : Firing) (now : ℤ) : FollowUpOutcome → State
  | .sent => (s.observeLaunch firing).advance firing (settleSuccess firing.fields none)
  | .busy => s.finish firing
  | .missing => chatMissing s firing now
  | .failed message started =>
    (if started then s.observeLaunch firing else s).advance firing (firing.fails message)

/-- The launch has been answered. -/
def launchAnswered (s : State) (firing : Firing) : LaunchResult → State
  | .launched sessionId =>
    (s.observeLaunch firing).advance firing (settleSuccess firing.fields
      (if firing.fields.runTarget = .sameSession then some sessionId else none))
  | .failed error started =>
    (if started then s.observeLaunch firing else s).advance firing (firing.fails error.toString)

/-- The next statement of a settlement: of `settle_success`, or of `mark` alone after a
failure. -/
def settle (s : State) (firing : Firing) (now : ℤ) : State :=
  match firing.stage with
  | .deleteSpent launchedSessionId =>
    let (routines, applied) :=
      deleteSpentRoutine s.routines firing.id firing.fields.updatedAt
    if applied then (s.observeSettled firing .deleted routines).finish firing
    else s.advance firing (.mark launchedSessionId)
  | .mark launchedSessionId =>
    let (routines, recorded) :=
      markRoutineRun s.routines firing.fields firing.now firing.nextRunAt none
        firing.staysScheduled launchedSessionId now
    if recorded then (s.observeSettled firing .marked routines).finish firing
    else if firing.runOnceAt.isSome then s.advance firing .retire
    else s.finish firing
  | .retire =>
    match firing.runOnceAt with
    | none => s.finish firing
    | some time =>
      let (routines, retired) :=
        retireFiredOneShot s.routines firing.id time firing.now now
      if retired then (s.observeSettled firing .retired routines).finish firing
      else s.finish firing
  | .markFailed nextRunAt lastError enabled =>
    let (routines, recorded) :=
      markRoutineRun s.routines firing.fields firing.now nextRunAt (some lastError) enabled none now
    if recorded then (s.observeSettled firing .marked routines).finish firing
    else (s.excused firing).finish firing
  | .resolveArc | .send _ | .launch => s

/-! ## Runs -/

/-- One step. -/
inductive Action where
  | save (input : UpsertRoutineInput) (now now' : ℤ)
  | wake (input : UpsertRoutineInput) (time : ℤ) (sessionId : String) (now now' : ℤ)
  | setEnabled (id : String) (enabled : Bool) (now : ℤ)
  | resumeSchedule (id : String) (nextRunAt : Option ℤ) (now : ℤ)
  | delete (id : String)
  | resetSession (id : String) (now : ℤ)
  | runNow (id : String) (now : ℤ)
  | tick (now : ℤ)
  | claimDue (now : ℤ)
  | arcAnswers (id : String) (resolution : ArcCoordinatorResolution)
  | chatAnswers (id : String) (outcome : FollowUpOutcome) (now : ℤ)
  | launchAnswers (id : String) (result : LaunchResult)
  | settle (id : String) (now : ℤ)

/-- An answer reaches the firing that waits for it. -/
def step (cronNext : CronNext) (s : State) : Action → State
  | .save input now now' => save cronNext s input now now'
  | .wake input time sessionId now now' => wake s input time sessionId now now'
  | .setEnabled id enabled now => setEnabled cronNext s id enabled now
  | .resumeSchedule id nextRunAt now => resumeSchedule s id nextRunAt now
  | .delete id => delete s id
  | .resetSession id now => resetSession s id now
  | .runNow id now => runNow cronNext s id now
  | .tick now => tick s now
  | .claimDue now => claimDue cronNext s now
  | .arcAnswers id resolution =>
    match s.firings.find? id with
    | some firing => if firing.stage = .resolveArc then resolveArc s firing resolution else s
    | none => s
  | .chatAnswers id outcome now =>
    match s.firings.find? id with
    | some firing =>
      match firing.stage with
      | .send _ =>
        if firing.fields.runTarget = .arcCoordinator then coordinatorAnswered s firing outcome
        else chatAnswered s firing now outcome
      | _ => s
    | none => s
  | .launchAnswers id result =>
    match s.firings.find? id with
    | some firing => if firing.stage = .launch then launchAnswered s firing result else s
    | none => s
  | .settle id now =>
    match s.firings.find? id with
    | some firing => settle s firing now
    | none => s

end Argmax.Routines
