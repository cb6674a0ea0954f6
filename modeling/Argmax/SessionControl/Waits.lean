import Argmax.Lib.Table
import Argmax.Lib.Transition

/-!
# Waiting for launched sessions

`session_control/actions/wait.rs` and the columns of `sessions` that it reads. A wait without
arguments answers with the sessions that its caller launched and that have settled since the
caller was last told. It reads each session's state and then whether its mark is older than its
activity, and it marks what it found when it answers. Other connections write between these
statements.

The launcher is fixed. The other columns of a session, and the messages that a wait hands
over, are left out; a time is the text that is stored.
-/

namespace Argmax.SessionControl

open Argmax.Lib

/-! ## Rows -/

inductive SessionState where
  | created
  | running
  | waiting
  | blocked
  | complete
  | failed
  | cancelled
  deriving DecidableEq

/-- `is_active`: a turn runs, or waits for a person. -/
def SessionState.isActive : SessionState → Bool
  | .running | .waiting | .blocked => true
  | .created | .complete | .failed | .cancelled => false

structure SessionRow where
  id : String
  state : SessionState
  lastActivityAt : String
  waitReportedAt : Option String
  /-- The launcher launched the session. -/
  launched : Bool
  deriving DecidableEq

abbrev SessionTable := Table SessionRow.id

/-- What is written to a row. Each of these statements stamps the activity, and none but the
first moves the state. -/
inductive SessionWrite where
  /-- `update_session_state`. -/
  | state (state : SessionState)
  /-- `update_session_agent_mode`. -/
  | agentMode
  /-- `update_session_model`. -/
  | model
  /-- `update_session_provider`. -/
  | provider
  /-- `update_session_provider_conversation_id`. -/
  | conversationId
  /-- `clear_session_conversation`. -/
  | cleared
  /-- `update_session_last_activity`. -/
  | lastActivity

def SessionWrite.nextState (prior : SessionState) : SessionWrite → SessionState
  | .state next => next
  | .agentMode | .model | .provider | .conversationId | .cleared | .lastActivity => prior

def SessionRow.written (row : SessionRow) (write : SessionWrite) (stamp : String) : SessionRow :=
  { row with state := write.nextState row.state, lastActivityAt := stamp }

def waitReportIsDue (row : SessionRow) : Bool :=
  row.waitReportedAt.all fun mark => decide (mark < row.lastActivityAt)

/-- An `UPDATE` of the row of an id. -/
def updateRow (sessions : SessionTable) (id : String) (f : SessionRow → SessionRow)
    (hf : ∀ row, (f row).id = row.id) : SessionTable :=
  sessions.update (fun row => if row.id = id then f row else row)
    (by intro row; split <;> simp [hf])

/-- `mark_wait_reported`, for one session. -/
def markWaitReported (sessions : SessionTable) (id reportedAt : String) : SessionTable :=
  updateRow sessions id (fun row => { row with waitReportedAt := some reportedAt }) fun _ => rfl

def writeRow (sessions : SessionTable) (id : String) (write : SessionWrite) (stamp : String) :
    SessionTable :=
  updateRow sessions id (fun row => row.written write stamp) fun _ => rfl

def sessionsLaunchedBy (sessions : SessionTable) : List String :=
  (sessions.rows.filter (·.launched)).map (·.id)

/-! ## Waits -/

/-- A session that was read as settled. The program does not keep which finish it was. -/
structure WaitedSession where
  sessionId : String
  state : SessionState
  finish : ℕ
  deriving DecidableEq

/-- A wait, and where it is in `collect_wait_outcome`. -/
structure Wait where
  watched : List String
  /-- The sessions that are yet to be read. -/
  rest : List String
  /-- A session whose state was read, and whose mark was not. -/
  reading : Option WaitedSession
  /-- What was found and is not marked. -/
  settled : List WaitedSession
  marking : Bool
  deriving DecidableEq

/-- A wait between two looks at the rows. -/
def Wait.idle (watched : List String) : Wait := ⟨watched, [], none, [], false⟩

structure State where
  sessions : SessionTable
  waits : ℕ → Option Wait
  /-- How often each session has finished. The program does not keep this. -/
  finishes : String → ℕ
  /-- What waits have reported, the newest first. -/
  reports : List WaitedSession

def State.start : State := ⟨.empty, fun _ => none, fun _ => 0, []⟩

inductive Act where
  /-- `persist_session`. -/
  | persist (id : String) (state : SessionState) (stamp : String)
  /-- The launch of a session is recorded. -/
  | recordLaunch (id : String)
  | write (id : String) (write : SessionWrite) (stamp : String)
  /-- A wait starts. -/
  | wait (key : ℕ)
  /-- It looks at the rows, from the first one on. -/
  | collect (key : ℕ)
  | readState (key : ℕ)
  | readDue (key : ℕ)
  | mark (key : ℕ) (reportedAt : String)
  /-- It answers, times out or fails, but not between two marks. -/
  | leave (key : ℕ)

/-- The write ends a turn of the row. -/
def finishesTurn (row : SessionRow) (write : SessionWrite) : Bool :=
  row.state.isActive && !(write.nextState row.state).isActive

def setWait (s : State) (key : ℕ) (wait : Option Wait) : State :=
  { s with waits := Function.update s.waits key wait }

/-- The next session of a wait: it is passed over unless it has settled. -/
def readState (s : State) (wait : Wait) : Wait :=
  match wait.reading, wait.rest with
  | none, id :: rest =>
    { wait with
      rest := rest
      reading := ((s.sessions.find? id).filter fun row => !row.state.isActive).map fun row =>
        ⟨id, row.state, s.finishes id⟩ }
  | _, _ => wait

/-- The session was settled: it is found when its report is due. -/
def readDue (s : State) (wait : Wait) : Wait :=
  match wait.reading with
  | some session =>
    { wait with
      reading := none
      settled :=
        if (s.sessions.find? session.sessionId).any waitReportIsDue then
          wait.settled ++ [session]
        else wait.settled }
  | none => wait

def step (s : State) : Act → State
  | .persist id state stamp =>
    { s with sessions := s.sessions.insertOrIgnore ⟨id, state, stamp, none, false⟩ }
  | .recordLaunch id =>
    { s with
      sessions := updateRow s.sessions id (fun row => { row with launched := true }) fun _ => rfl }
  | .write id write stamp =>
    { s with
      sessions := writeRow s.sessions id write stamp
      finishes :=
        if (s.sessions.find? id).any fun row => finishesTurn row write then
          Function.update s.finishes id (s.finishes id + 1)
        else s.finishes }
  | .wait key =>
    match s.waits key with
    | none => setWait s key (some (.idle (sessionsLaunchedBy s.sessions)))
    | some _ => s
  | .collect key =>
    match s.waits key with
    | some wait =>
      if wait = .idle wait.watched then setWait s key (some { wait with rest := wait.watched })
      else s
    | none => s
  | .readState key =>
    match s.waits key with
    | some wait => setWait s key (some (readState s wait))
    | none => s
  | .readDue key =>
    match s.waits key with
    | some wait => setWait s key (some (readDue s wait))
    | none => s
  | .mark key reportedAt =>
    match s.waits key with
    | some ⟨watched, [], none, session :: settled, _⟩ =>
      { setWait s key (some ⟨watched, [], none, settled, true⟩) with
        sessions := markWaitReported s.sessions session.sessionId reportedAt
        reports := session :: s.reports }
    | _ => s
  | .leave key =>
    match s.waits key with
    | some wait => if wait.marking && !wait.settled.isEmpty then s else setWait s key none
    | none => s

end Argmax.SessionControl
