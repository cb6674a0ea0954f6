import Argmax.Providers.FollowUpQueue
import Argmax.SessionControl.Waits

/-!
# What happens to a session after its turn

`session_control/registry.rs`, `actions/move_archive.rs`, `actions/resume.rs`,
`persistence/after_turn.rs` and the checks of `providers/session_service.rs`. An agent may ask
that its chat is moved or archived once its turn ends. The registry holds a slot for it in
memory, and a row holds the promise over a restart. While a slot is taken, follow-ups are
refused.

Three locks are in play: the one of the slots, the writer connection and the one of the queues.
A step here is what a call does between two points at which it may have to wait for a lock, and
a call that has to wait does not move. Only calls that hold a lock across steps are recorded
under it. The session is fixed and is not deleted. What a disposal does, and what is published,
is left out.
-/

namespace Argmax.SessionControl.AfterTurnSlot

open Argmax.Lib Argmax.FollowUps Argmax.Persistence.PendingMessages

/-! ## Promises -/

structure MergedPrRequest where
  prNumber : ℤ
  mergedHead : String

structure ArchiveRequest where
  workspaceId : String
  mergedPr : Option MergedPrRequest

inductive MoveDestinationRecord where
  | project (projectId : String) (worktree : Bool)
  | checkout (path : String)

structure MoveRequest where
  destination : MoveDestinationRecord
  keepSource : Bool
  prompt : String

inductive AfterTurnAction where
  | archive (request : ArchiveRequest)
  | move (request : MoveRequest)

inductive AfterTurn where
  | move
  | archive
  | removeCheckout
  deriving DecidableEq

def AfterTurn.of : AfterTurnAction → AfterTurn
  | .move _ => .move
  | .archive request => if request.mergedPr.isSome then .removeCheckout else .archive

/-- `already_pending`: the refusal names what is there. -/
def alreadyPending : AfterTurn → ArgmaxError
  | .move =>
    .serviceError "MOVE_ALREADY_PENDING" "A move is already scheduled for this session."
  | .archive =>
    .serviceError "ARCHIVE_ALREADY_PENDING" "An archive is already scheduled for this session."
  | .removeCheckout =>
    .serviceError "ARCHIVE_ALREADY_PENDING"
      "This chat's checkout is already being removed after this turn."

/-- The refusal of `ensure_no_pending_after_turn`. -/
def followUpsDisabled : AfterTurn → ArgmaxError
  | .move =>
    .serviceError "MOVE_ALREADY_PENDING"
      "This chat is moving after the current turn. New follow-ups are disabled."
  | .archive =>
    .serviceError "ARCHIVE_ALREADY_PENDING"
      "This chat is archiving after the current turn. New follow-ups are disabled."
  | .removeCheckout =>
    .serviceError "ARCHIVE_ALREADY_PENDING"
      ("This chat's checkout is removed after the current turn. " ++
        "The chat stays listed, read-only. New follow-ups are disabled.")

/-- The refusal of `ensure_after_turn_schedulable`. -/
def hasQueuedMessages : AfterTurn → ArgmaxError
  | .move =>
    .serviceError "MOVE_HAS_QUEUED_MESSAGES"
      "Send or cancel queued follow-ups before moving this chat."
  | .archive =>
    .serviceError "ARCHIVE_HAS_QUEUED_MESSAGES"
      "Send or cancel queued follow-ups before archiving this chat."
  | .removeCheckout =>
    .serviceError "ARCHIVE_HAS_QUEUED_MESSAGES"
      "Send or cancel queued follow-ups before removing this chat's checkout."

def storeError : ArgmaxError := .serviceError "SQLITE" "database error"

/-- A row of `session_after_turn`. The program does not number the promises. -/
structure AfterTurnRow where
  action : AfterTurnAction
  promise : ℕ

structure PendingAfterTurn where
  action : AfterTurn
  promise : ℕ
  /-- The slot still has the sender that tells its task that the turn has settled. -/
  settled : Bool
  deriving DecidableEq

/-! ## Startup -/

/-- What is read of the session, of its workspace and of its timeline. -/
structure Facts where
  session : Option SessionState
  workspace : Option String
  sourceMoveRecorded : Bool

inductive Resumption where
  | obsolete (reason : String)
  | awaitTurnEnd
  | runNow

def AfterTurnAction.isMove : AfterTurnAction → Bool
  | .move _ => true
  | .archive _ => false

def judge (facts : Facts) (action : AfterTurnAction) : Resumption :=
  match facts.session, facts.workspace with
  | none, _ => .obsolete "the session is gone"
  | some _, none => .obsolete "the workspace is gone"
  | some session, some workspace =>
    if workspace = "archived" then .obsolete "the workspace is already archived"
    else if action.isMove && facts.sourceMoveRecorded then .obsolete "the move already happened"
    else if session.isActive then .awaitTurnEnd
    else .runNow

/-- Where `resume_after_turn_actions` is. It runs once in a launch. -/
inductive Boot where
  | unlisted
  /-- The row was listed. -/
  | listed (row : AfterTurnRow)
  | judged (row : AfterTurnRow) (resumption : Resumption)
  | done

/-! ## Calls -/

inductive ScheduleStage where
  | entered
  /-- Neither a slot nor a row was found, and the lock of the slots is held. -/
  | vacant
  /-- The slot is taken, and the queue was not looked at. -/
  | slotted (promise : ℕ)
  /-- The queue was found empty, and the timeline does not say so yet. -/
  | checked (promise : ℕ)

inductive SendStage where
  | entered
  /-- No slot was found. -/
  | resolving
  /-- A turn is running: `enqueue_pending_message` has the writer connection. -/
  | writing
  /-- It has found no slot, and has the writer connection. -/
  | admitted

inductive Call where
  | schedule (action : AfterTurnAction) (stage : ScheduleStage)
  | send (message : PendingMessage) (stage : SendStage)
  /-- `abort_session_after_turn`, before it looks at the slot. -/
  | abort
  /-- `release_after_turn`, for a promise that was carried out or for a cancel. A call that
  is `locked` has the lock of the slots. -/
  | release (finished : Option ℕ) (answer : ArgmaxResult Unit) (locked : Bool)

/-! ## States -/

structure State where
  pending : Option PendingAfterTurn
  row : Option AfterTurnRow
  queue : FollowUpQueue
  calls : ℕ → Option Call
  /-- The call that holds the lock of the slots across steps. -/
  mapLock : Option ℕ
  /-- The call that holds the writer connection across steps. -/
  writer : Option ℕ
  facts : Facts
  /-- The tasks that wait for the end of the turn. -/
  tasks : List (ℕ × AfterTurnAction)
  /-- The promises whose senders were used. -/
  sent : List ℕ
  /-- What is being carried out. -/
  running : List ℕ
  /-- What was carried out and is being released. -/
  finishing : List ℕ
  boot : Boot
  answers : List (ℕ × ArgmaxResult Unit)
  /-- How many promises were made. The program keeps nothing of this and what follows. -/
  promises : ℕ
  /-- A schedule of this launch has taken the slot. -/
  scheduled : Bool
  /-- The promises whose schedule found the queue empty. -/
  checked : List ℕ
  started : List ℕ
  /-- What a launch was carrying out when it ended. -/
  interrupted : List ℕ
  /-- What was finished, cancelled or dropped. -/
  released : List ℕ

def State.start (facts : Facts) : State :=
  { pending := none, row := none, queue := .empty, calls := fun _ => none, mapLock := none
    writer := none, facts := facts, tasks := [], sent := [], running := [], finishing := []
    boot := .unlisted, answers := [], promises := 0, scheduled := false, checked := []
    started := [], interrupted := [], released := [] }

inductive Act where
  | schedule (key : ℕ) (action : AfterTurnAction)
  | send (key : ℕ) (message : PendingMessage)
  | abort (key : ℕ)
  /-- A call goes on. The flag says that the store does what it is asked; where a send has
  its handle to find, that a turn is running. -/
  | proceed (key : ℕ) (ok : Bool)
  /-- `signal_turn_settled`. -/
  | settle
  /-- The task of a promise hears that the turn has settled, and starts. -/
  | startTask (promise : ℕ)
  /-- What was promised is carried out. -/
  | finish (key promise : ℕ)
  | list
  | judge
  | resume
  | queue (write : QueueWrite)
  | facts (facts : Facts)
  /-- The app ends, at any point, and is launched again. -/
  | restart (delivered : String → Bool)

/-! ## Steps -/

variable (sessionId : String)

def occupiedBy (s : State) : Option AfterTurn :=
  (s.pending.map (·.action)).or (s.row.map fun row => .of row.action)

def setCall (s : State) (key : ℕ) (call : Option Call) : State :=
  { s with calls := Function.update s.calls key call }

/-- The call returns. -/
def answer (s : State) (key : ℕ) (result : ArgmaxResult Unit) : State :=
  { setCall s key none with answers := (key, result) :: s.answers }

def stepSchedule (s : State) (key : ℕ) (action : AfterTurnAction) (ok : Bool) :
    ScheduleStage → State
  | .entered =>
    if s.mapLock.isSome then s
    else
      match occupiedBy s with
      | some existing => answer s key (.error (alreadyPending existing))
      | none =>
        if ok then { setCall s key (some (.schedule action .vacant)) with mapLock := some key }
        else answer s key (.error storeError)
  | .vacant =>
    if s.writer.isSome then s
    else if ok && s.row.isNone then
      { setCall s key (some (.schedule action (.slotted s.promises))) with
        row := some ⟨action, s.promises⟩
        pending := some ⟨.of action, s.promises, true⟩
        mapLock := none
        promises := s.promises + 1
        scheduled := true }
    else { answer s key (.error storeError) with mapLock := none }
  | .slotted promise =>
    if s.queue.memory.isEmpty then
      -- Only a move and an archive write to the timeline before their task is spawned.
      if AfterTurn.of action = .removeCheckout then
        { answer s key (.ok ()) with
          tasks := (promise, action) :: s.tasks
          checked := promise :: s.checked }
      else
        { setCall s key (some (.schedule action (.checked promise))) with
          checked := promise :: s.checked }
    else
      setCall s key (some (.release none (.error (hasQueuedMessages (.of action))) false))
  | .checked promise =>
    if s.writer.isSome then s
    else if ok then { answer s key (.ok ()) with tasks := (promise, action) :: s.tasks }
    else setCall s key (some (.release none (.error storeError) false))

def stepSend (s : State) (key : ℕ) (message : PendingMessage) (ok : Bool) : SendStage → State
  | .entered =>
    if s.mapLock.isSome then s
    else
      match s.pending with
      | some slot => answer s key (.error (followUpsDisabled slot.action))
      | none => setCall s key (some (.send message .resolving))
  | .resolving =>
    if !ok then answer s key (.ok ())
    else if s.writer.isSome then s
    else { setCall s key (some (.send message .writing)) with writer := some key }
  | .writing =>
    -- The message was collected from the inbox, or the session is gone.
    if !ok then { answer s key (.ok ()) with writer := none }
    else if s.mapLock.isSome then s
    else
      match s.pending with
      | some slot =>
        { answer s key (.error (followUpsDisabled slot.action)) with writer := none }
      | none => setCall s key (some (.send message .admitted))
  | .admitted =>
    match enqueue sessionId s.queue message with
    | .ok queue => { answer s key (.ok ()) with queue := queue, writer := none }
    | .error error => { answer s key (.error error) with writer := none }

/-- `release_after_turn`: an error of the delete is only logged. -/
def stepRelease (s : State) (key : ℕ) (finished : Option ℕ) (result : ArgmaxResult Unit)
    (ok : Bool) : Bool → State
  | false =>
    if s.mapLock.isSome then s
    else { setCall s key (some (.release finished result true)) with mapLock := some key }
  | true =>
    if s.writer.isSome then s
    else
      { answer s key result with
        pending := none
        row := if ok then none else s.row
        mapLock := none
        finishing := finished.elim s.finishing fun promise => s.finishing.erase promise
        released :=
          finished.toList ++ (s.pending.map (·.promise)).toList ++
            (s.row.map (·.promise)).toList ++ s.released }

/-- The end of `resume_one`. -/
def stepResume (s : State) (row : AfterTurnRow) : Resumption → State
  | .obsolete _ =>
    if s.writer.isSome then s
    else
      { s with
        row := none
        boot := .done
        released := (s.row.map (·.promise)).toList ++ s.released }
  | .awaitTurnEnd =>
    if s.mapLock.isSome then s
    else
      match s.pending with
      | some _ => { s with boot := .done }
      | none =>
        { s with
          pending := some ⟨.of row.action, row.promise, true⟩
          tasks := (row.promise, row.action) :: s.tasks
          boot := .done }
  | .runNow =>
    { s with
      running := row.promise :: s.running
      started := row.promise :: s.started
      boot := .done }

def step (s : State) : Act → State
  | .schedule key action =>
    if (s.calls key).isNone && s.facts.workspace != some "archived" then
      setCall s key (some (.schedule action .entered))
    else s
  | .send key message =>
    if (s.calls key).isNone then setCall s key (some (.send message .entered)) else s
  | .abort key => if (s.calls key).isNone then setCall s key (some .abort) else s
  | .proceed key ok =>
    match s.calls key with
    | some (.schedule action stage) => stepSchedule s key action ok stage
    | some (.send message stage) => stepSend sessionId s key message ok stage
    | some .abort =>
      if s.mapLock.isSome then s
      else if s.pending.isSome then setCall s key (some (.release none (.ok ()) false))
      else answer s key (.ok ())
    | some (.release finished result locked) => stepRelease s key finished result ok locked
    | none => s
  | .settle =>
    match s.pending with
    | some ⟨action, promise, true⟩ =>
      if s.mapLock.isSome then s
      else { s with pending := some ⟨action, promise, false⟩, sent := promise :: s.sent }
    | _ => s
  | .startTask promise =>
    if promise ∈ s.sent ∧ promise ∈ s.tasks.map (·.1) then
      { s with
        tasks := s.tasks.filter fun task => task.1 != promise
        running := promise :: s.running
        started := promise :: s.started }
    else s
  | .finish key promise =>
    if (s.calls key).isNone ∧ promise ∈ s.running then
      { setCall s key (some (.release (some promise) (.ok ()) false)) with
        running := s.running.erase promise
        finishing := promise :: s.finishing }
    else s
  | .list =>
    match s.boot with
    | .unlisted => { s with boot := s.row.elim .done .listed }
    | _ => s
  | .judge =>
    match s.boot with
    | .listed row => { s with boot := .judged row (judge s.facts row.action) }
    | _ => s
  | .resume =>
    match s.boot with
    | .judged row resumption => stepResume s row resumption
    | _ => s
  | .queue write =>
    if s.writer.isSome then s
    else
      match s.queue.write sessionId write with
      | .ok queue => { s with queue := queue }
      | .error _ => s
  | .facts facts => { s with facts := facts }
  | .restart delivered =>
    { s with
      pending := none
      queue := recoverQueue sessionId delivered s.queue
      calls := fun _ => none
      mapLock := none
      writer := none
      tasks := []
      sent := []
      running := []
      finishing := []
      boot := .unlisted
      answers := []
      scheduled := false
      interrupted := s.running ++ s.finishing ++ s.interrupted }

end Argmax.SessionControl.AfterTurnSlot
