import Argmax.SessionControl.Waits

/-!
# The goal driver

`run_driver` of `goals/service.rs` with the chat it drives: it waits until the chat's turn is
settled, has the turn judged, and sends the next prompt. Each read or write of the store and each
answer that is awaited is a step, and the chat's own steps, Stop and `clear` come in between.

A send reads the generation of the chat, which Stop raises, and checks twice that the goal is
active. It is refused while a provider runs, and queued while one is starting or exiting.
-/

namespace Argmax.Goals

open Argmax.SessionControl (SessionState)

/-! ## Goals -/

inductive GoalState where
  | active
  | achieved
  | impossible
  | stopped
  deriving DecidableEq

inductive GoalVerdict where
  | met
  | notYet
  | impossible
  deriving DecidableEq

structure Goal where
  condition : String
  state : GoalState
  turns : ℕ
  maxTurns : ℕ
  lastReason : Option String

namespace Goal

/-- `settle_goal`. -/
def settle (goal : Goal) (state : GoalState) (reason : Option String) : Goal :=
  if goal.state = .active then
    { goal with state := state, lastReason := reason.or goal.lastReason }
  else goal

/-- `update_goal_progress`, of an active goal. -/
def progress (goal : Goal) (turns : ℕ) (reason : Option String) : Goal :=
  { goal with turns := turns, lastReason := reason }

theorem settle_of_ne {goal : Goal} (h : goal.state ≠ .active) (state : GoalState)
    (reason : Option String) : goal.settle state reason = goal := if_neg h

@[simp] theorem settle_turns (goal : Goal) (state : GoalState) (reason : Option String) :
    (goal.settle state reason).turns = goal.turns := by
  unfold settle
  split_ifs <;> rfl

@[simp] theorem settle_maxTurns (goal : Goal) (state : GoalState) (reason : Option String) :
    (goal.settle state reason).maxTurns = goal.maxTurns := by
  unfold settle
  split_ifs <;> rfl

end Goal

def maxIdleTurns : ℕ := 3

def maxEvaluatorFailures : ℕ := 3

def followUpPrompt (condition : String) (reason : Option String) : String :=
  "The goal is not met yet: " ++ reason.getD "the evidence so far does not show it holds" ++
    "\n\nKeep working toward it:\n\n" ++ condition

/-! ## The driver -/

/-- What the driver does next. -/
inductive Stage where
  /-- The head of the loop. -/
  | top
  /-- In `wait_for_session`. -/
  | waiting
  /-- The chat was settled in this state. -/
  | observed (state : SessionState)
  /-- The goal was read again, with these turns, and the transcript is to be read. -/
  | reading (turns : ℕ)
  /-- The evaluator is asked about a turn with these tool calls. -/
  | judging (turns toolCalls : ℕ)
  | judged (turns toolCalls : ℕ) (verdict : GoalVerdict) (reason : Option String)
  | sending (reason : Option String) (escalates : Bool)
  /-- The send read the generation and found the goal active. -/
  | admitted (reason : Option String) (escalates : Bool) (generation : ℕ)
  /-- It found the goal active again, under the lock of the checkout. -/
  | locked (reason : Option String) (escalates : Bool) (generation : ℕ)
  /-- The goal is to be settled, and then the driver ends. -/
  | settling (state : GoalState) (reason : Option String)
  | done
  deriving DecidableEq

/-- What the driver did, the latest first. -/
inductive Event where
  | evaluatorFailed
  | verdict (turn : ℕ) (verdict : GoalVerdict) (toolCalls : ℕ)
  | sent (prompt : String)

structure Driver where
  stage : Stage
  idleTurns : ℕ
  evaluatorFailures : ℕ
  notYetStreak : ℕ
  /-- The turn of the chat that was found settled. -/
  observedTurn : ℕ
  log : List Event

namespace Driver

def start : Driver := ⟨.top, 0, 0, 0, 0, []⟩

/-- The goal is given back. -/
def stopBecause (driver : Driver) (reason : String) : Driver :=
  { driver with stage := .settling .stopped (some reason) }

/-- Why a turn is not judged. -/
def interrupted : SessionState → Option String
  | .cancelled => some "Stopped: the turn was cancelled."
  | .failed => some "Stopped: the turn failed."
  | .created | .running | .waiting | .blocked | .complete => none

/-- A call to the evaluator failed. -/
def judgeFailed (driver : Driver) : Driver :=
  let driver := { driver with
    evaluatorFailures := driver.evaluatorFailures + 1, log := .evaluatorFailed :: driver.log }
  if maxEvaluatorFailures ≤ driver.evaluatorFailures then
    driver.stopBecause "Stopped: the evaluator could not be reached to judge the goal."
  else { driver with stage := .top }

/-- The evaluator answered. -/
def judgedAs (driver : Driver) (turns toolCalls : ℕ) (verdict : GoalVerdict) (reason : String) :
    Driver :=
  { driver with
    evaluatorFailures := 0
    log := .verdict driver.observedTurn verdict toolCalls :: driver.log
    stage := .judged turns toolCalls verdict (if reason = "" then none else some reason) }

/-- What follows "not yet", once it is recorded. -/
def continueFrom (driver : Driver) (turns maxTurns toolCalls : ℕ) (reason : Option String) :
    Driver :=
  let driver := { driver with
    notYetStreak := driver.notYetStreak + 1
    idleTurns := if toolCalls = 0 then driver.idleTurns + 1 else 0 }
  if maxIdleTurns ≤ driver.idleTurns then
    driver.stopBecause "Stopped: the agent went several turns without doing any work."
  else if maxTurns ≤ turns then
    driver.stopBecause ("Stopped after " ++ toString turns ++ " turns without meeting the goal.")
  else if 2 ≤ driver.notYetStreak then
    { driver with notYetStreak := 0, stage := .sending reason true }
  else { driver with stage := .sending reason false }

/-- The prompt went through. -/
def sentPrompt (driver : Driver) (prompt : String) : Driver :=
  { driver with log := .sent prompt :: driver.log, stage := .top }

end Driver

/-! ## The chat -/

/-- The entry of a chat in `handles`. -/
inductive Entry where
  | none
  /-- The provider is starting. -/
  | pending
  | live
  /-- The provider is disposed, and its exit is not yet handled. -/
  | disposed
  deriving DecidableEq

structure Chat where
  row : SessionState
  entry : Entry
  /-- How many turns have been started. -/
  turn : ℕ
  /-- `send_generations`. -/
  generation : ℕ
  terminating : Bool
  /-- Prompts of the goal among the queued follow-ups. -/
  queued : ℕ

/-- What happens to a chat. -/
inductive ChatAct where
  /-- A turn that the driver does not send. -/
  | startTurn
  /-- The provider has started. -/
  | resolve
  | dispose
  /-- A turn waits for the person, or goes on. -/
  | attend (state : SessionState)
  /-- The provider's exit is written to the row. -/
  | endTurn (succeeded : Bool)
  | removeEntry
  /-- Stop, which may keep the queue. -/
  | stop (preserveQueue : Bool)
  | stopped

namespace Chat

/-- A turn may be started by a send. -/
def isIdle (chat : Chat) : Bool :=
  !chat.row.isActive && chat.entry == .none && !chat.terminating

/-- A turn is started: the row is running and the provider is starting. -/
def launch (chat : Chat) : Chat :=
  { chat with row := .running, entry := .pending, turn := chat.turn + 1 }

def step (chat : Chat) : ChatAct → Chat
  | .startTurn => if chat.isIdle then chat.launch else chat
  | .resolve => if chat.entry = .pending then { chat with entry := .live } else chat
  | .dispose => if chat.entry = .live then { chat with entry := .disposed } else chat
  | .attend state =>
    if chat.row.isActive && state.isActive then { chat with row := state } else chat
  | .endTurn succeeded =>
    if chat.row.isActive && !chat.terminating then
      { chat with row := if succeeded then .complete else .failed }
    else chat
  | .removeEntry => if chat.row.isActive then chat else { chat with entry := .none }
  | .stop preserveQueue =>
    { chat with
      generation := chat.generation + 1
      terminating := true
      entry := .none
      queued := if preserveQueue then chat.queued else 0 }
  | .stopped =>
    if chat.terminating then
      { chat with
        row := if chat.row.isActive then .cancelled else chat.row
        terminating := false }
    else chat

end Chat

/-! ## Steps -/

structure State where
  goal : Goal
  driver : Driver
  chat : Chat
  /-- The state of the chat and of the goal when a prompt of the goal started a turn. -/
  prompts : List (SessionState × GoalState)

/-- A driver that was just spawned. -/
def State.start (condition : String) (maxTurns : ℕ) (chat : Chat) : State :=
  ⟨⟨condition, .active, 0, maxTurns, none⟩, .start, chat, []⟩

/-- A step of the driver, with the answers that it gets. -/
inductive DriverAct where
  | readGoal
  | observe
  | reread
  | readTail (toolCalls : ℕ)
  | judgeFails
  | judge (verdict : GoalVerdict) (reason : String)
  | progress
  | admitSend
  | lockCheckout
  | send
  /-- A call fails that ends the driver. -/
  | fail (message : String)
  | settle
  deriving DecidableEq

inductive Action where
  | driver (act : DriverAct)
  | chat (act : ChatAct)
  /-- `clear` settles the goal. -/
  | clear
  /-- `clear` ends the task of the driver. -/
  | abort
  /-- A queued prompt of the goal starts a turn. -/
  | drain

namespace State

def withStage (s : State) (stage : Stage) : State := { s with driver.stage := stage }

def stopBecause (s : State) (reason : String) : State :=
  { s with driver := s.driver.stopBecause reason }

def goalNotActive : String := "The goal stopped before its next turn could start."

/-- The send, once it has the checkout. -/
def send (s : State) (reason : Option String) (generation : ℕ) : State :=
  let prompt := followUpPrompt s.goal.condition reason
  if s.chat.generation ≠ generation then
    s.stopBecause "Provider chat was stopped before this message could be sent."
  else
    match s.chat.entry with
    -- `TURN_IN_FLIGHT`.
    | .live => s.withStage .top
    | .pending | .disposed =>
      { s with
        driver := s.driver.sentPrompt prompt
        chat.queued := s.chat.queued + 1 }
    | .none =>
      { s with
        driver := s.driver.sentPrompt prompt
        chat := s.chat.launch
        prompts := (s.chat.row, s.goal.state) :: s.prompts }

def driverStep (s : State) (act : DriverAct) : State :=
  match act, s.driver.stage with
  | .readGoal, .top => s.withStage (if s.goal.state = .active then .waiting else .done)
  | .observe, .waiting =>
    if s.chat.row.isActive then s
    else { s with driver.stage := .observed s.chat.row, driver.observedTurn := s.chat.turn }
  | .reread, .observed state =>
    if s.goal.state ≠ .active then s.withStage .done
    else
      match Driver.interrupted state with
      | some reason => s.stopBecause reason
      | none => s.withStage (.reading s.goal.turns)
  | .readTail toolCalls, .reading turns => s.withStage (.judging turns toolCalls)
  | .judgeFails, .judging _ _ => { s with driver := s.driver.judgeFailed }
  | .judge verdict reason, .judging turns toolCalls =>
    { s with driver := s.driver.judgedAs turns toolCalls verdict reason }
  | .progress, .judged turns toolCalls verdict reason =>
    if s.goal.state ≠ .active then s.withStage .done
    else
      let s := { s with goal := s.goal.progress (turns + 1) reason }
      match verdict with
      | .met => s.withStage (.settling .achieved reason)
      | .impossible => s.withStage (.settling .impossible reason)
      | .notYet =>
        { s with driver := s.driver.continueFrom (turns + 1) s.goal.maxTurns toolCalls reason }
  | .admitSend, .sending reason escalates =>
    if s.goal.state ≠ .active then s.stopBecause goalNotActive
    else if s.chat.terminating then
      s.stopBecause "Provider chat is being terminated; wait for cancellation to finish."
    else s.withStage (.admitted reason escalates s.chat.generation)
  | .lockCheckout, .admitted reason escalates generation =>
    if s.goal.state ≠ .active then s.stopBecause goalNotActive
    else s.withStage (.locked reason escalates generation)
  | .send, .locked reason _ generation => s.send reason generation
  | .settle, .settling state reason =>
    { s with goal := s.goal.settle state reason, driver.stage := .done }
  | .fail message, stage =>
    match stage with
    | .settling _ _ | .done => s
    | _ => s.stopBecause message
  | _, _ => s

end State

def step (s : State) : Action → State
  | .driver act => s.driverStep act
  | .chat act => { s with chat := s.chat.step act }
  | .clear => { s with goal := s.goal.settle .stopped (some "Goal cleared.") }
  | .abort => if s.goal.state = .active then s else s.withStage .done
  | .drain =>
    if s.chat.isIdle && s.chat.row == .complete && 0 < s.chat.queued then
      { s with
        chat := { s.chat.launch with queued := s.chat.queued - 1 }
        prompts := (s.chat.row, s.goal.state) :: s.prompts }
    else s

end Argmax.Goals
