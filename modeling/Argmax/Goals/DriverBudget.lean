import Argmax.Goals.Driver

/-!
# The budget of a goal driver

In every run the driver judges before it prompts, stays below its budget and gives up after three
idle turns or three failures in a row, and a goal that was settled stays as it was settled.

The other promises rest on an order. The chat is free while the evaluator is asked, so a turn can be
started there, and stopped or failed, before the prompt is sent. `clear` can come between the last
look at the goal and the send. A send that meets a provider on its way up or down is queued, for
whatever the goal is by then. `Ordered` excludes these, and then every promise holds.
-/

namespace Argmax.Goals

open Argmax.Lib
open Argmax.SessionControl (SessionState)

/-! ## The log -/

namespace Event

def isSent : Event → Bool
  | .sent _ => true
  | .evaluatorFailed | .verdict .. => false

def turn? : Event → Option ℕ
  | .verdict turn .. => some turn
  | .evaluatorFailed | .sent _ => none

end Event

/-- How many prompts were sent. -/
def sends (log : List Event) : ℕ := log.countP Event.isSent

/-- The turns that were judged. -/
def judgedTurns (log : List Event) : List ℕ := log.filterMap Event.turn?

/-- The idle turns in a row. -/
def idleRun : List Event → ℕ
  | [] => 0
  | .verdict _ .notYet 0 :: log => idleRun log + 1
  | .verdict .. :: _ => 0
  | .evaluatorFailed :: log => idleRun log
  | .sent _ :: log => idleRun log

/-- The failures of the evaluator in a row. -/
def failureRun : List Event → ℕ
  | [] => 0
  | .evaluatorFailed :: log => failureRun log + 1
  | .verdict .. :: _ => 0
  | .sent _ :: log => failureRun log

/-- The last thing that the driver did was to judge a turn "not yet". -/
def EndsNotYet : List Event → Prop
  | .verdict _ .notYet _ :: _ => True
  | _ => False

/-- Each prompt was sent when a turn had just been judged "not yet". -/
def JudgedFirst : List Event → Prop
  | [] => True
  | .sent _ :: log => EndsNotYet log ∧ JudgedFirst log
  | _ :: log => JudgedFirst log

/-- After three idle turns or three failures in a row, the driver neither judged nor prompted. -/
def StopsInTime : List Event → Prop
  | [] => True
  | _ :: log => idleRun log < 3 ∧ failureRun log < 3 ∧ StopsInTime log

@[simp] theorem sends_nil : sends [] = 0 := rfl

@[simp] theorem sends_sent (prompt : String) (log : List Event) :
    sends (.sent prompt :: log) = sends log + 1 := by
  simp [sends, List.countP_cons, Event.isSent]

@[simp] theorem sends_failed (log : List Event) : sends (.evaluatorFailed :: log) = sends log := by
  simp [sends, Event.isSent]

@[simp] theorem sends_verdict (turn toolCalls : ℕ) (verdict : GoalVerdict) (log : List Event) :
    sends (.verdict turn verdict toolCalls :: log) = sends log := by
  simp [sends, Event.isSent]

@[simp] theorem judgedTurns_nil : judgedTurns [] = [] := rfl

@[simp] theorem judgedTurns_verdict (turn toolCalls : ℕ) (verdict : GoalVerdict)
    (log : List Event) :
    judgedTurns (.verdict turn verdict toolCalls :: log) = turn :: judgedTurns log := rfl

/-- A turn that is judged ends a row of idle turns, or makes it longer by one. -/
theorem idleRun_verdict (turn toolCalls : ℕ) (verdict : GoalVerdict) (log : List Event) :
    idleRun (.verdict turn verdict toolCalls :: log) =
      if verdict = .notYet ∧ toolCalls = 0 then idleRun log + 1 else 0 := by
  cases verdict <;> cases toolCalls <;> simp [idleRun]

/-! ## The promises -/

namespace Stage

/-- The driver is between a settled turn and the prompt that follows it. -/
def isDeciding : Stage → Bool
  | .observed _ | .reading _ | .judging _ _ | .judged _ _ _ _ | .sending _ _
  | .admitted _ _ _ | .locked _ _ _ => true
  | .top | .waiting | .settling _ _ | .done => false

/-- The send has read the generation of the chat. -/
def isAdmitted : Stage → Bool
  | .admitted _ _ _ | .locked _ _ _ => true
  | _ => false

def isLocked : Stage → Bool
  | .locked _ _ _ => true
  | _ => false

/-- The driver gives up, or is about to count what it was answered. -/
def isEnding : Stage → Bool
  | .judged _ _ _ _ | .settling _ _ | .done => true
  | _ => false

end Stage

/-- What is promised of a state: a turn is judged before each prompt, the prompts stay below the
budget, no prompt follows a turn that was stopped or failed, or a goal that is over, no turn is
judged twice, three idle turns or three failures in a row are the end, and the driver does not end
before the goal is settled. -/
structure Sound (s : State) : Prop where
  judgedFirst : JudgedFirst s.driver.log
  budget : sends s.driver.log ≤ s.goal.maxTurns - 1
  prompts : ∀ prompt ∈ s.prompts, prompt.1 ≠ .cancelled ∧ prompt.1 ≠ .failed ∧ prompt.2 = .active
  judgedOnce : (judgedTurns s.driver.log).Nodup
  stopsInTime : StopsInTime s.driver.log
  ends : 3 ≤ idleRun s.driver.log ∨ 3 ≤ failureRun s.driver.log → s.driver.stage.isEnding = true
  settled : s.driver.stage = .done → s.goal.state ≠ .active

/-- The steps that the promises allow. Between a settled turn and the prompt behind it no turn
fails, none is stopped before the send reads the generation, and the goal is not cleared once the
send has the checkout. The send meets no provider whose turn is over, and a prompt that was queued
starts a turn while the goal is active. -/
def Ordered (s : State) : Action → Prop
  | .chat (.endTurn false) => s.driver.stage.isDeciding = true → s.chat.row.isActive = false
  | .chat .stopped =>
    s.driver.stage.isDeciding = true → s.driver.stage.isAdmitted = false →
      s.chat.row.isActive = false
  | .clear => s.driver.stage.isLocked = false
  | .driver .send =>
    s.driver.stage.isLocked = true → s.chat.entry = .none ∨ s.chat.row.isActive = true
  | .drain => 0 < s.chat.queued → s.goal.state = .active
  | _ => True

instance (s : State) (a : Action) : Decidable (Ordered s a) := by
  unfold Ordered
  split <;> infer_instance

/-! ## The counters -/

/-- What the counters of the driver say at a stage. -/
def StageCounts (goal : Goal) (driver : Driver) : Prop :=
  match driver.stage with
  | .top | .waiting | .observed _ =>
    sends driver.log ≤ goal.turns ∧ driver.idleTurns = idleRun driver.log ∧
      driver.idleTurns < 3 ∧ driver.evaluatorFailures = failureRun driver.log ∧
      driver.evaluatorFailures < 3
  | .reading turns | .judging turns _ =>
    turns = goal.turns ∧ sends driver.log ≤ goal.turns ∧ driver.idleTurns = idleRun driver.log ∧
      driver.idleTurns < 3 ∧ driver.evaluatorFailures = failureRun driver.log ∧
      driver.evaluatorFailures < 3
  | .judged turns toolCalls verdict _ =>
    turns = goal.turns ∧ sends driver.log ≤ goal.turns ∧ driver.evaluatorFailures = 0 ∧
      (verdict = .notYet → EndsNotYet driver.log ∧ failureRun driver.log = 0 ∧
        idleRun driver.log = if toolCalls = 0 then driver.idleTurns + 1 else 0)
  | .sending _ _ | .admitted _ _ _ | .locked _ _ _ =>
    EndsNotYet driver.log ∧ sends driver.log + 1 ≤ goal.turns ∧ goal.turns < goal.maxTurns ∧
      driver.idleTurns = idleRun driver.log ∧ driver.idleTurns < 3 ∧
      driver.evaluatorFailures = 0 ∧ failureRun driver.log = 0
  | .settling state _ => state ≠ .active
  | .done => goal.state ≠ .active

/-- What holds of the counters in every run. -/
structure Counts (goal : Goal) (driver : Driver) : Prop where
  judgedFirst : JudgedFirst driver.log
  budget : sends driver.log + 1 ≤ goal.maxTurns
  stopsInTime : StopsInTime driver.log
  stage : StageCounts goal driver

theorem Counts.start (condition : String) {maxTurns : ℕ} (h : 0 < maxTurns) (chat : Chat) :
    Counts (State.start condition maxTurns chat).goal
      (State.start condition maxTurns chat).driver := by
  constructor
  · trivial
  · simpa [State.start, Driver.start] using Nat.succ_le_of_lt h
  · trivial
  · simp [StageCounts, State.start, Driver.start, idleRun, failureRun]

variable {driver : Driver} {turns toolCalls : ℕ} {reason : Option String} {s : State} {chat : Chat}

/-- The driver goes to a stage of which the same is known. -/
theorem Counts.withStage {goal : Goal} {stage : Stage} (h : Counts goal driver)
    (hstage : StageCounts goal { driver with stage := stage }) :
    Counts goal { driver with stage := stage } :=
  ⟨h.judgedFirst, h.budget, h.stopsInTime, hstage⟩

theorem Counts.stopBecause {goal : Goal} (h : Counts goal driver) (reason : String) :
    Counts goal (driver.stopBecause reason) :=
  h.withStage (by simp [StageCounts])

theorem Counts.judgeFailed {goal : Goal} (h : Counts goal driver)
    (hstage : driver.stage = .judging turns toolCalls) : Counts goal driver.judgeFailed := by
  have hcounts := h.stage
  simp only [StageCounts, hstage] at hcounts
  have hlogged : ∀ stage, StageCounts goal
      { driver with
        stage := stage
        evaluatorFailures := driver.evaluatorFailures + 1
        log := .evaluatorFailed :: driver.log } →
      Counts goal
        { driver with
          stage := stage
          evaluatorFailures := driver.evaluatorFailures + 1
          log := .evaluatorFailed :: driver.log } := by
    intro stage hnext
    refine ⟨h.judgedFirst, ?_, ⟨?_, ?_, h.stopsInTime⟩, hnext⟩
    · simpa using h.budget
    · omega
    · omega
  simp only [Driver.judgeFailed]
  split_ifs with hmax
  · apply hlogged
    simp [StageCounts]
  · apply hlogged
    simp only [maxEvaluatorFailures] at hmax
    simp only [StageCounts, sends_failed, idleRun, failureRun]
    omega

theorem Counts.judgedAs {goal : Goal} (h : Counts goal driver)
    (hstage : driver.stage = .judging turns toolCalls) (verdict : GoalVerdict) (reason : String) :
    Counts goal (driver.judgedAs turns toolCalls verdict reason) := by
  have hcounts := h.stage
  simp only [StageCounts, hstage] at hcounts
  have ⟨hturns, hsends, hidle, hidleLt, hfailures, hfailuresLt⟩ := hcounts
  refine ⟨h.judgedFirst, ?_, ⟨?_, ?_, h.stopsInTime⟩, ?_⟩
  · simpa [Driver.judgedAs] using h.budget
  · omega
  · omega
  · simp only [StageCounts, Driver.judgedAs]
    refine ⟨hturns, hsends, trivial, ?_⟩
    intro hverdict
    subst hverdict
    refine ⟨trivial, rfl, ?_⟩
    rw [idleRun_verdict, hidle]
    simp

/-- What follows "not yet" is a prompt only while turns are left and the agent works. -/
theorem Counts.continueFrom {goal : Goal} (h : Counts goal driver)
    (hstage : driver.stage = .judged turns toolCalls .notYet reason) (reason' : Option String) :
    Counts (goal.progress (turns + 1) reason')
      (driver.continueFrom (turns + 1) goal.maxTurns toolCalls reason) := by
  have hcounts := h.stage
  simp only [StageCounts, hstage] at hcounts
  obtain ⟨hturns, hsends, hfailures, hnotYet⟩ := hcounts
  obtain ⟨hends, hrun, hidle⟩ := hnotYet trivial
  have hsame : (if toolCalls = 0 then driver.idleTurns + 1 else 0) = idleRun driver.log :=
    hidle.symm
  simp only [Driver.continueFrom, Driver.stopBecause, hsame]
  split_ifs with hmax hspent hstreak
  all_goals refine ⟨h.judgedFirst, h.budget, h.stopsInTime, ?_⟩
  · simp [StageCounts]
  · simp [StageCounts]
  all_goals
    simp only [StageCounts, Goal.progress, maxIdleTurns] at hmax ⊢
    refine ⟨hends, ?_, ?_, trivial, ?_, hfailures, hrun⟩ <;> omega

/-- Settling the goal leaves its counters. -/
theorem Counts.settle {goal : Goal} {state : GoalState} (h : Counts goal driver)
    (reason : Option String) : Counts (goal.settle state reason) driver := by
  refine ⟨h.judgedFirst, by simpa using h.budget, h.stopsInTime, ?_⟩
  have hstage := h.stage
  cases hcase : driver.stage with
  | done =>
    simp only [StageCounts, hcase] at hstage ⊢
    rwa [Goal.settle_of_ne hstage]
  | _ => simpa [StageCounts, hcase] using hstage

/-- A settled goal is not active. -/
theorem Goal.settle_state_ne {goal : Goal} {state : GoalState} (hstate : state ≠ .active)
    (reason : Option String) : (goal.settle state reason).state ≠ .active := by
  by_cases h : goal.state = .active
  · simpa [Goal.settle, h] using hstate
  · rwa [Goal.settle_of_ne h]

/-- The send is counted, refused for the driver to wait again, or the end of the driver. -/
theorem Counts.send {escalates : Bool} {generation : ℕ} (h : Counts s.goal s.driver)
    (hstage : s.driver.stage = .locked reason escalates generation) :
    Counts (s.send reason generation).goal (s.send reason generation).driver := by
  have hcounts := h.stage
  simp only [StageCounts, hstage] at hcounts
  have ⟨hends, hsends, hturns, hidle, hidleLt, hfailures, hrun⟩ := hcounts
  have hsent : ∀ prompt, Counts s.goal (s.driver.sentPrompt prompt) := by
    intro prompt
    refine ⟨⟨hends, h.judgedFirst⟩, ?_, ⟨?_, ?_, h.stopsInTime⟩, ?_⟩
    · simp only [Driver.sentPrompt, sends_sent]
      omega
    · omega
    · omega
    · simp only [StageCounts, Driver.sentPrompt, sends_sent, idleRun, failureRun]
      omega
  simp only [State.send]
  split_ifs with hstale
  · exact h.stopBecause _
  cases s.chat.entry with
  | live =>
    apply h.withStage
    simp only [StageCounts]
    omega
  | none | pending | disposed => exact hsent _

theorem Counts.driverStep (h : Counts s.goal s.driver) (act : DriverAct) :
    Counts (s.driverStep act).goal (s.driverStep act).driver := by
  have hcounts := h.stage
  unfold State.driverStep
  split
  case h_1 hstage =>
    simp only [StageCounts, hstage] at hcounts
    apply h.withStage
    split_ifs with hactive
    · simpa [StageCounts] using hcounts
    · simp [StageCounts, hactive]
  case h_2 hstage =>
    simp only [StageCounts, hstage] at hcounts
    split_ifs with hrow
    · exact h
    · exact ⟨h.judgedFirst, h.budget, h.stopsInTime, by simpa [StageCounts] using hcounts⟩
  case h_3 state hstage =>
    simp only [StageCounts, hstage] at hcounts
    split_ifs with hactive
    · exact h.withStage (by simpa [StageCounts] using hactive)
    · cases Driver.interrupted state with
      | some reason => exact h.stopBecause _
      | none => exact h.withStage (by simpa [StageCounts] using hcounts)
  case h_4 hstage =>
    simp only [StageCounts, hstage] at hcounts
    exact h.withStage (by simpa [StageCounts] using hcounts)
  case h_5 hstage => exact h.judgeFailed hstage
  case h_6 hstage => exact h.judgedAs hstage _ _
  case h_7 turns toolCalls verdict reason hstage =>
    split_ifs with hactive
    · exact h.withStage (by simpa [StageCounts] using hactive)
    · have hdone : ∀ state, state ≠ .active → Counts (s.goal.progress (turns + 1) reason)
          { s.driver with stage := .settling state reason } := by
        intro state hstate
        exact ⟨h.judgedFirst, h.budget, h.stopsInTime, by simpa [StageCounts] using hstate⟩
      cases verdict with
      | met => exact hdone .achieved (by simp)
      | impossible => exact hdone .impossible (by simp)
      | notYet => exact h.continueFrom hstage reason
  case h_8 hstage =>
    simp only [StageCounts, hstage] at hcounts
    split_ifs with hactive hterminating
    · exact h.stopBecause _
    · exact h.stopBecause _
    · exact h.withStage (by simpa [StageCounts] using hcounts)
  case h_9 hstage =>
    simp only [StageCounts, hstage] at hcounts
    split_ifs with hactive
    · exact h.stopBecause _
    · exact h.withStage (by simpa [StageCounts] using hcounts)
  case h_10 hstage => exact h.send hstage
  case h_11 state reason hstage =>
    simp only [StageCounts, hstage] at hcounts
    exact (h.settle reason).withStage
      (by simpa [StageCounts] using Goal.settle_state_ne hcounts reason)
  case h_12 =>
    split
    · exact h
    · exact h
    · exact h.stopBecause _
  case h_13 => exact h

/-- No step loses the counters. -/
theorem Counts.step (h : Counts s.goal s.driver) (a : Action) :
    Counts (step s a).goal (step s a).driver := by
  cases a with
  | driver act => exact h.driverStep act
  | chat act => exact h
  | clear => exact h.settle _
  | abort =>
    simp only [Goals.step]
    split_ifs with hactive
    · exact h
    · exact h.withStage (by simpa [StageCounts] using hactive)
  | drain =>
    simp only [Goals.step]
    split_ifs <;> exact h

/-- In a row of three the driver is about to count its answer, or it ends. -/
theorem Counts.isEnding {goal : Goal} (h : Counts goal driver)
    (hrow : 3 ≤ idleRun driver.log ∨ 3 ≤ failureRun driver.log) : driver.stage.isEnding = true := by
  have hcounts := h.stage
  cases hstage : driver.stage with
  | judged | settling | done => rfl
  | _ =>
    simp only [StageCounts, hstage] at hcounts
    omega

/-! ## A settled goal -/

/-- No step writes a goal that is not active. -/
theorem step_goal_of_ne (h : s.goal.state ≠ .active) (a : Action) : (step s a).goal = s.goal := by
  cases a with
  | driver act =>
    simp only [step, State.driverStep]
    split
    all_goals try rfl
    case h_2 => split_ifs <;> rfl
    case h_3 => rw [if_pos h]; rfl
    case h_7 => rw [if_pos h]; rfl
    case h_8 => rw [if_pos h]; rfl
    case h_9 => rw [if_pos h]; rfl
    case h_10 =>
      simp only [State.send]
      split_ifs
      · rfl
      · cases s.chat.entry <;> rfl
    case h_11 => exact Goal.settle_of_ne h _ _
    case h_12 => split <;> rfl
  | chat act => rfl
  | clear => exact Goal.settle_of_ne h _ _
  | abort =>
    simp only [step]
    split_ifs <;> rfl
  | drain =>
    simp only [step]
    split_ifs <;> rfl

/-- **A goal that was settled stays as it was settled.** -/
theorem run_goal_of_ne (h : s.goal.state ≠ .active) (as : List Action) :
    (run step s as).goal = s.goal := by
  have hstep : ∀ t a, t.goal = s.goal → (step t a).goal = s.goal := by
    intro t a ht
    rw [step_goal_of_ne (ht ▸ h), ht]
  exact @run_invariant _ _ step (fun t => t.goal = s.goal) hstep s rfl as

/-! ## The chat -/

namespace Chat

/-- The last turn was stopped or failed. -/
def isInterrupted (chat : Chat) : Bool := (Driver.interrupted chat.row).isSome

/-- A chat at work is not interrupted. -/
theorem isInterrupted_of_isActive (h : chat.row.isActive = true) : chat.isInterrupted = false := by
  cases hrow : chat.row <;> simp_all [isInterrupted, Driver.interrupted, SessionState.isActive]

theorem ne_of_not_isInterrupted (h : chat.isInterrupted = false) :
    chat.row ≠ .cancelled ∧ chat.row ≠ .failed := by
  cases hrow : chat.row <;> simp_all [isInterrupted, Driver.interrupted]

/-- No turn goes away. -/
theorem turn_le_step (chat : Chat) (act : ChatAct) : chat.turn ≤ (chat.step act).turn := by
  cases act with
  | stop => simp [step]
  | _ =>
    simp only [step]
    split_ifs <;> simp [launch]

/-- A chat that is at work was at work, or has a new turn. -/
theorem isActive_step {chat : Chat} {act : ChatAct}
    (h : (chat.step act).row.isActive = true) :
    chat.row.isActive = true ∨ chat.turn < (chat.step act).turn := by
  by_cases hactive : chat.row.isActive = true
  · exact .inl hactive
  cases act with
  | startTurn =>
    simp only [step] at h ⊢
    split_ifs at h ⊢ with hidle
    · simp [launch]
    · exact absurd h hactive
  | stop => exact absurd h hactive
  | _ =>
    simp only [step] at h
    split_ifs at h <;> simp_all

/-- A chat is interrupted only by a turn that fails or is stopped. -/
theorem isInterrupted_step {act : ChatAct} (h : (chat.step act).isInterrupted = true) :
    chat.isInterrupted = true ∨ chat.row.isActive = true ∧
      (act = .endTurn false ∨ act = .stopped ∧ chat.terminating = true) := by
  by_cases hrow : (chat.step act).row = chat.row
  · left
    simpa [isInterrupted, hrow] using h
  cases act with
  | endTurn succeeded =>
    simp only [step] at h hrow
    split_ifs at h hrow with hactive hsucceeded
    · simp [isInterrupted, Driver.interrupted] at h
    · simp_all
    · simp at hrow
  | stopped =>
    simp only [step] at h hrow
    split_ifs at hrow with hterminating hactive
    · simp_all
    · simp at hrow
    · simp at hrow
  | startTurn =>
    simp only [step] at h hrow
    split_ifs at h hrow
    · simp [isInterrupted, Driver.interrupted, launch] at h
    · simp at hrow
  | attend state =>
    simp only [step] at h hrow
    split_ifs at h hrow with hactive
    · simp only [Bool.and_eq_true] at hactive
      rw [isInterrupted_of_isActive hactive.2] at h
      simp at h
    · simp at hrow
  | stop => simp [step] at hrow
  | resolve | dispose | removeEntry =>
    simp only [step] at hrow
    split_ifs at hrow <;> simp at hrow

theorem generation_le_step (chat : Chat) (act : ChatAct) :
    chat.generation ≤ (chat.step act).generation := by
  cases act with
  | stop => simp [step]
  | _ =>
    simp only [step]
    split_ifs <;> simp [launch]

/-- Only Stop begins to terminate a chat, and it raises the generation. -/
theorem terminating_step {act : ChatAct} (h : (chat.step act).generation = chat.generation)
    (hchat : chat.terminating = false) : (chat.step act).terminating = false := by
  cases act with
  | stop => simp [step] at h
  | _ =>
    simp only [step]
    split_ifs <;> simp_all [launch]

end Chat

/-- Which turns were judged, at a stage. -/
def StageTurns (driver : Driver) (chat : Chat) : Prop :=
  match driver.stage with
  | .top | .waiting => ∀ turn ∈ judgedTurns driver.log, turn < chat.turn
  | .observed _ | .reading _ | .judging _ _ =>
    (∀ turn ∈ judgedTurns driver.log, turn < driver.observedTurn) ∧
      driver.observedTurn ≤ chat.turn ∧
      (chat.row.isActive = true → driver.observedTurn < chat.turn)
  | .judged _ _ _ _ | .sending _ _ | .admitted _ _ _ | .locked _ _ _ =>
    (∀ turn ∈ judgedTurns driver.log, turn ≤ driver.observedTurn) ∧
      driver.observedTurn ≤ chat.turn ∧
      (chat.row.isActive = true → driver.observedTurn < chat.turn)
  | .settling _ _ | .done => True

/-- Whether the chat is interrupted, at a stage. -/
def StageRow (goal : Goal) (driver : Driver) (chat : Chat) : Prop :=
  match driver.stage with
  | .observed state => chat.isInterrupted = true → (Driver.interrupted state).isSome = true
  | .reading _ | .judging _ _ | .judged _ _ _ _ | .sending _ _ => chat.isInterrupted = false
  | .admitted _ _ generation =>
    generation ≤ chat.generation ∧ (generation = chat.generation →
      chat.isInterrupted = false ∧ chat.terminating = false)
  | .locked _ _ generation =>
    goal.state = .active ∧ generation ≤ chat.generation ∧
      (generation = chat.generation → chat.isInterrupted = false ∧ chat.terminating = false)
  | .top | .waiting | .settling _ _ | .done => True

/-- What holds of the chat in an ordered run. -/
structure Watches (s : State) : Prop where
  prompts : ∀ prompt ∈ s.prompts, prompt.1 ≠ .cancelled ∧ prompt.1 ≠ .failed ∧ prompt.2 = .active
  judgedOnce : (judgedTurns s.driver.log).Nodup
  turns : StageTurns s.driver s.chat
  row : StageRow s.goal s.driver s.chat

theorem Watches.start (condition : String) (maxTurns : ℕ) (chat : Chat) :
    Watches (State.start condition maxTurns chat) := by
  constructor
  · simp [State.start]
  · simp [State.start, Driver.start]
  · simp [StageTurns, State.start, Driver.start]
  · simp [StageRow, State.start, Driver.start]

/-- A stage of which the same is known of the chat. -/
theorem Watches.withStage {stage : Stage} (h : Watches s)
    (hturns : StageTurns { s.driver with stage := stage } s.chat)
    (hrow : StageRow s.goal { s.driver with stage := stage } s.chat) :
    Watches (s.withStage stage) :=
  ⟨h.prompts, h.judgedOnce, hturns, hrow⟩

theorem Watches.stopBecause (h : Watches s) (reason : String) : Watches (s.stopBecause reason) :=
  h.withStage (by simp [StageTurns]) (by simp [StageRow])

/-- The turns stay as they were when the chat goes on. -/
theorem StageTurns.chatStep {driver : Driver} {chat : Chat} (h : StageTurns driver chat)
    (act : ChatAct) : StageTurns driver (chat.step act) := by
  have hle := chat.turn_le_step act
  have hactive := @Chat.isActive_step chat act
  cases hstage : driver.stage with
  | top | waiting =>
    simp only [StageTurns, hstage] at h ⊢
    intro turn hturn
    exact Nat.lt_of_lt_of_le (h turn hturn) hle
  | settling | done => simp [StageTurns, hstage]
  | _ =>
    simp only [StageTurns, hstage] at h ⊢
    obtain ⟨hjudged, hobserved, hrow⟩ := h
    refine ⟨hjudged, Nat.le_trans hobserved hle, ?_⟩
    intro hnow
    rcases hactive hnow with hwas | hnew
    · exact Nat.lt_of_lt_of_le (hrow hwas) hle
    · exact Nat.lt_of_le_of_lt hobserved hnew

/-- In an ordered run the chat is not interrupted behind the driver's back. -/
theorem StageRow.chatStep {s : State} {act : ChatAct} (h : StageRow s.goal s.driver s.chat)
    (hordered : Ordered s (.chat act)) : StageRow s.goal s.driver (s.chat.step act) := by
  have hgen := s.chat.generation_le_step act
  -- What is known of an interruption when the order is kept.
  have hkept : s.driver.stage.isDeciding = true →
      (s.driver.stage.isAdmitted = false ∨ s.chat.terminating = false) →
      (s.chat.step act).isInterrupted = true → s.chat.isInterrupted = true := by
    intro hdeciding hsafe hnow
    rcases Chat.isInterrupted_step hnow with hwas | ⟨hactive, rfl | ⟨rfl, hterminating⟩⟩
    · exact hwas
    · simp [hordered hdeciding] at hactive
    · rcases hsafe with hadmitted | hnot
      · simp [hordered hdeciding hadmitted] at hactive
      · simp [hnot] at hterminating
  have hlater : ∀ generation, s.driver.stage.isDeciding = true →
      generation ≤ s.chat.generation ∧ (generation = s.chat.generation →
        s.chat.isInterrupted = false ∧ s.chat.terminating = false) →
      generation ≤ (s.chat.step act).generation ∧ (generation = (s.chat.step act).generation →
        (s.chat.step act).isInterrupted = false ∧ (s.chat.step act).terminating = false) := by
    intro generation hdeciding ⟨hle, hread⟩
    refine ⟨Nat.le_trans hle hgen, ?_⟩
    intro hnow
    have ⟨hnot, hcalm⟩ := hread (by omega)
    refine ⟨?_, Chat.terminating_step (by omega) hcalm⟩
    by_contra hinterrupted
    have := hkept hdeciding (.inr hcalm) (by simpa using hinterrupted)
    simp [hnot] at this
  cases hstage : s.driver.stage with
  | top | waiting | settling | done => simp [StageRow, hstage]
  | observed state =>
    simp only [StageRow, hstage] at h ⊢
    simp only [hstage, Stage.isDeciding, Stage.isAdmitted] at hkept
    exact fun hnow => h (hkept trivial (.inl trivial) hnow)
  | reading | judging | judged | sending =>
    simp only [StageRow, hstage] at h ⊢
    simp only [hstage, Stage.isDeciding, Stage.isAdmitted] at hkept
    by_contra hinterrupted
    have := hkept trivial (.inl trivial) (by simpa using hinterrupted)
    simp [h] at this
  | admitted reason escalates generation =>
    simp only [StageRow, hstage] at h ⊢
    exact hlater generation (by simp [hstage, Stage.isDeciding]) h
  | locked reason escalates generation =>
    simp only [StageRow, hstage] at h ⊢
    exact ⟨h.1, hlater generation (by simp [hstage, Stage.isDeciding]) h.2⟩

theorem Watches.chatStep {s : State} {act : ChatAct} (h : Watches s)
    (hordered : Ordered s (.chat act)) : Watches (step s (.chat act)) :=
  ⟨h.prompts, h.judgedOnce, h.turns.chatStep act, h.row.chatStep hordered⟩

/-- The goal may be settled while the driver does not hold the checkout. -/
theorem Watches.settle (h : Watches s) (hlocked : s.driver.stage.isLocked = false)
    (state : GoalState) (reason : Option String) :
    Watches { s with goal := s.goal.settle state reason } := by
  refine ⟨h.prompts, h.judgedOnce, h.turns, ?_⟩
  have hrow := h.row
  cases hstage : s.driver.stage with
  | locked => simp [hstage, Stage.isLocked] at hlocked
  | top | waiting | settling | done => simp [StageRow, hstage]
  | _ =>
    simp only [StageRow, hstage] at hrow ⊢
    exact hrow

/-- A turn that is judged was not judged before. -/
theorem Watches.judgedAs (h : Watches s) (hstage : s.driver.stage = .judging turns toolCalls)
    (verdict : GoalVerdict) (reason : String) :
    Watches { s with driver := s.driver.judgedAs turns toolCalls verdict reason } := by
  have hturns := h.turns
  simp only [StageTurns, hstage] at hturns
  have hrow := h.row
  simp only [StageRow, hstage] at hrow
  have ⟨hjudged, hobserved⟩ := hturns
  refine ⟨h.prompts, ?_, ?_, by simpa [StageRow, Driver.judgedAs] using hrow⟩
  · have hnew : s.driver.observedTurn ∉ judgedTurns s.driver.log :=
      fun hmem => Nat.lt_irrefl _ (hjudged _ hmem)
    simpa [Driver.judgedAs] using ⟨hnew, h.judgedOnce⟩
  · refine ⟨?_, hobserved⟩
    intro turn hturn
    simp only [Driver.judgedAs, judgedTurns_verdict, List.mem_cons] at hturn
    rcases hturn with rfl | hturn
    · exact Nat.le_refl _
    · exact Nat.le_of_lt (hjudged turn hturn)

theorem Watches.judgeFailed (h : Watches s) (hstage : s.driver.stage = .judging turns toolCalls) :
    Watches { s with driver := s.driver.judgeFailed } := by
  have hturns := h.turns
  simp only [StageTurns, hstage] at hturns
  have ⟨hjudged, hobserved, _⟩ := hturns
  simp only [Driver.judgeFailed, Driver.stopBecause]
  split_ifs
  · exact ⟨h.prompts, h.judgedOnce, by simp [StageTurns], by simp [StageRow]⟩
  · refine ⟨h.prompts, h.judgedOnce, ?_, by simp [StageRow]⟩
    intro turn hturn
    exact Nat.lt_of_lt_of_le (hjudged turn hturn) hobserved

theorem Watches.continueFrom (h : Watches s)
    (hstage : s.driver.stage = .judged turns toolCalls .notYet reason) (goal : Goal) (maxTurns : ℕ) :
    Watches { s with
      goal := goal
      driver := s.driver.continueFrom (turns + 1) maxTurns toolCalls reason } := by
  have hturns := h.turns
  have hrow := h.row
  simp only [StageTurns, StageRow, hstage] at hturns hrow
  simp only [Driver.continueFrom]
  split_ifs
  all_goals refine ⟨h.prompts, h.judgedOnce, ?_, ?_⟩
  all_goals first
    | trivial

/-- The prompt starts a turn behind one that was settled, or a turn that goes on is waited for. -/
theorem Watches.send {escalates : Bool} {generation : ℕ} (h : Watches s)
    (hstage : s.driver.stage = .locked reason escalates generation)
    (hordered : Ordered s (.driver .send)) : Watches (s.send reason generation) := by
  have hturns := h.turns
  have hrow := h.row
  simp only [StageTurns, StageRow, hstage] at hturns hrow
  have ⟨hjudged, hobserved, hactive⟩ := hturns
  have ⟨hgoal, _, hread⟩ := hrow
  simp only [State.send]
  split_ifs with hstale
  · exact h.stopBecause _
  simp only [not_not] at hstale
  have ⟨hnot, _⟩ := hread hstale.symm
  have hsafe := hordered (by simp [hstage, Stage.isLocked])
  cases hentry : s.chat.entry with
  | none =>
    refine ⟨?_, h.judgedOnce, ?_, by simp [StageRow, Driver.sentPrompt]⟩
    · intro prompt hprompt
      rcases List.mem_cons.mp hprompt with rfl | hprompt
      · have ⟨hcancelled, hfailed⟩ := Chat.ne_of_not_isInterrupted hnot
        exact ⟨hcancelled, hfailed, hgoal⟩
      · exact h.prompts prompt hprompt
    · intro turn hturn
      exact Nat.lt_succ_of_le (Nat.le_trans (hjudged turn hturn) hobserved)
  | live | pending | disposed =>
    have hnow : s.chat.row.isActive = true := by simpa [hentry] using hsafe
    refine ⟨h.prompts, h.judgedOnce, ?_, by simp [StageRow, State.withStage, Driver.sentPrompt]⟩
    intro turn hturn
    exact Nat.lt_of_le_of_lt (hjudged turn hturn) (hactive hnow)

theorem Watches.driverStep {act : DriverAct} (h : Watches s) (hordered : Ordered s (.driver act)) :
    Watches (s.driverStep act) := by
  have hturns := h.turns
  have hrow := h.row
  unfold State.driverStep
  split
  case h_1 hstage =>
    simp only [StageTurns, hstage] at hturns
    split_ifs
    · exact h.withStage (by simpa [StageTurns] using hturns) (by simp [StageRow])
    · exact h.withStage (by simp [StageTurns]) (by simp [StageRow])
  case h_2 hstage =>
    simp only [StageTurns, hstage] at hturns
    split_ifs with hactive
    · exact h
    · exact ⟨h.prompts, h.judgedOnce, by simpa [StageTurns, hactive] using hturns,
        fun hinterrupted => hinterrupted⟩
  case h_3 state hstage =>
    simp only [StageTurns, StageRow, hstage] at hturns hrow
    split_ifs with hactive
    · exact h.withStage (by simp [StageTurns]) (by simp [StageRow])
    · cases hcase : Driver.interrupted state with
      | some reason => exact h.stopBecause _
      | none =>
        apply h.withStage (by simpa [StageTurns] using hturns)
        simpa [StageRow, hcase] using hrow
  case h_4 hstage =>
    simp only [StageTurns, StageRow, hstage] at hturns hrow
    exact h.withStage hturns hrow
  case h_5 hstage => exact h.judgeFailed hstage
  case h_6 hstage => exact h.judgedAs hstage _ _
  case h_7 turns toolCalls verdict reason hstage =>
    split_ifs
    · exact h.withStage (by simp [StageTurns]) (by simp [StageRow])
    · cases verdict with
      | met | impossible =>
        exact ⟨h.prompts, h.judgedOnce, by simp [StageTurns, State.withStage],
          by simp [StageRow, State.withStage]⟩
      | notYet => exact h.continueFrom hstage _ _
  case h_8 hstage =>
    simp only [StageTurns, StageRow, hstage] at hturns hrow
    split_ifs with hactive hterminating
    · exact h.stopBecause _
    · exact h.stopBecause _
    · refine h.withStage (by simpa only [StageTurns] using hturns) ?_
      exact ⟨Nat.le_refl _, fun _ => ⟨hrow, by simpa using hterminating⟩⟩
  case h_9 hstage =>
    simp only [StageTurns, StageRow, hstage] at hturns hrow
    split_ifs with hactive
    · exact h.stopBecause _
    · exact h.withStage (by simpa only [StageTurns] using hturns) ⟨by simpa using hactive, hrow⟩
  case h_10 hstage => exact h.send hstage hordered
  case h_11 state reason hstage =>
    exact (h.settle (by simp [hstage, Stage.isLocked]) state reason).withStage
      (by simp [StageTurns]) (by simp [StageRow])
  case h_12 =>
    split
    · exact h
    · exact h
    · exact h.stopBecause _
  case h_13 => exact h

/-- No ordered step loses sight of the chat. -/
theorem Watches.step (h : Watches s) (a : Action) (hordered : Ordered s a) :
    Watches (step s a) := by
  cases a with
  | driver act => exact h.driverStep hordered
  | chat act => exact h.chatStep hordered
  | clear => exact h.settle hordered _ _
  | abort =>
    simp only [Goals.step]
    split_ifs
    · exact h
    · exact h.withStage (by simp [StageTurns]) (by simp [StageRow])
  | drain =>
    simp only [Goals.step]
    split_ifs with hdrain
    · simp only [Bool.and_eq_true, beq_iff_eq, decide_eq_true_eq] at hdrain
      obtain ⟨⟨hidle, hrow⟩, hqueued⟩ := hdrain
      have hlaunch : s.chat.step .startTurn = s.chat.launch := if_pos hidle
      have hturns := h.turns.chatStep .startTurn
      have hwatched := @StageRow.chatStep s .startTurn h.row trivial
      rw [hlaunch] at hturns hwatched
      refine ⟨?_, h.judgedOnce, hturns, hwatched⟩
      intro prompt hprompt
      rcases List.mem_cons.mp hprompt with rfl | hprompt
      · simp [hrow, hordered hqueued]
      · exact h.prompts prompt hprompt
    · exact h

/-! ## Main results -/

/-- **The promises that need no order.** In every run the driver judges before it prompts, stays
below its budget and ends in time. -/
theorem run_counts (condition : String) {maxTurns : ℕ} (h : 0 < maxTurns) (chat : Chat)
    (as : List Action) :
    Counts (run step (.start condition maxTurns chat) as).goal
      (run step (.start condition maxTurns chat) as).driver :=
  run_invariant (I := fun s : State => Counts s.goal s.driver) (fun _ a hs => hs.step a)
    (Counts.start condition h chat) as

/-- **An ordered run keeps every promise**, and a goal that is settled stays so. -/
theorem driver_budget (condition : String) (maxTurns : ℕ) (hmax : 0 < maxTurns) (chat : Chat)
    (as bs : List Action)
    (h : Legal step Ordered (.start condition maxTurns chat) as) :
    let s := run step (.start condition maxTurns chat) as
    Sound s ∧ (s.goal.state ≠ .active → (run step s bs).goal = s.goal) := by
  intro s
  have hcounts : Counts s.goal s.driver := run_counts condition hmax chat as
  have hwatches : Watches s :=
    Legal.invariant (I := Watches) (fun _ a hs hordered => hs.step a hordered) h
      (Watches.start condition maxTurns chat)
  refine ⟨?_, fun hgoal => run_goal_of_ne hgoal bs⟩
  constructor
  · exact hcounts.judgedFirst
  · have := hcounts.budget
    omega
  · exact hwatches.prompts
  · exact hwatches.judgedOnce
  · exact hcounts.stopsInTime
  · exact hcounts.isEnding
  · intro hdone
    have hstage := hcounts.stage
    simpa only [StageCounts, hdone] using hstage

/-- A chat whose first turn is complete. -/
def settledChat : Chat := ⟨.complete, .none, 1, 0, false, 0⟩

/-- The driver judges the turn that it found settled and sends its prompt, while this happens
before the evaluator answers. -/
def promptAround (meanwhile : List ChatAct) : List Action :=
  [.driver .readGoal, .driver .observe, .driver .reread, .driver (.readTail 1)] ++
    meanwhile.map .chat ++
    [.driver (.judge .notYet "A test fails."), .driver .progress, .driver .admitSend,
      .driver .lockCheckout, .driver .send]

/-- The person's turn is complete before the evaluator answers. -/
theorem driver_budget_completeTurn :
    let s := run step (.start "The tests pass." 3 settledChat)
      (promptAround [.startTurn, .resolve, .endTurn true, .removeEntry])
    Sound s ∧ (s.goal.state ≠ .active → (run step s [.clear]).goal = s.goal) :=
  driver_budget "The tests pass." 3 (by decide) settledChat
    (promptAround [.startTurn, .resolve, .endTurn true, .removeEntry]) [.clear] (by decide)

/-- The person stops their turn before the evaluator answers, and the chat is prompted all the
same. -/
theorem stoppedTurn_prompted :
    (run step (.start "The tests pass." 3 settledChat)
        (promptAround [.startTurn, .resolve, .stop false, .stopped])).prompts =
      [(.cancelled, .active)] ∧
    ¬ ∀ (condition : String) (maxTurns : ℕ) (chat : Chat) (as : List Action),
      0 < maxTurns → Sound (run step (.start condition maxTurns chat) as) := by
  have hprompts : (run step (.start "The tests pass." 3 settledChat)
      (promptAround [.startTurn, .resolve, .stop false, .stopped])).prompts =
        [(.cancelled, .active)] := by decide
  refine ⟨hprompts, ?_⟩
  intro hall
  have hsound := hall "The tests pass." 3 settledChat
    (promptAround [.startTurn, .resolve, .stop false, .stopped]) (by decide)
  have := hsound.prompts (.cancelled, .active) (by simp [hprompts])
  simp at this

end Argmax.Goals
