import Argmax.Lib.StableSort
import Argmax.Providers.SendChat
import Argmax.Usage.Records

/-!
# The turns of a route

`routing/cost.rs`. A row of `turn_routes` opens a window of its chat, up to the chat's next row.
The timeline events in the window cut it into turns: the route starts one, and a user message
after an end marker starts the next. A timestamp is a text whose order is that of time.
-/

namespace Argmax.Routing

open Argmax.Providers.SendInput (AutoTier RouteDecisionKind)

/-- A row of `turn_routes`. -/
structure RouteRow where
  id : ℕ
  sessionId : String
  createdAt : String
  tier : AutoTier
  provider : ProviderId
  modelId : String
  reasoningEffort : Option String
  kind : Option String
  difficulty : Option String
  decision : RouteDecisionKind
  reason : String

/-- The types of timeline events that a turn is read from. -/
inductive TurnEventType where
  /-- `user.message`. -/
  | userMessage
  /-- `message.completed`. -/
  | messageCompleted
  /-- `command.started`. -/
  | commandStarted
  /-- `session.completed`. -/
  | sessionCompleted
  /-- `session.cancelled`. -/
  | sessionCancelled
  /-- `message.delta`. -/
  | messageDelta
  deriving DecidableEq

/-- A row of `events`. A table lists its rows in the order of their `rowid`. -/
structure TurnEvent where
  sessionId : String
  createdAt : String
  type : TurnEventType

/-- `None` means no recorded call or an unknown price. -/
abbrev TurnCost := Option ℚ

structure RouteTurn where
  startAt : String
  endedAt : Option String
  cancelled : Bool
  firstAnswerAt : Option String
  hasUsage : Bool
  cost : TurnCost
  outputTokens : ℕ
  unknownUsage : Bool

namespace RouteTurn

def new (startAt : String) : RouteTurn := ⟨startAt, none, false, none, false, none, 0, false⟩

def answered (turn : RouteTurn) : Bool := turn.firstAnswerAt.isSome || turn.hasUsage

/-- `add_usage`. A call of an unknown price leaves its turn without one. -/
def addUsage (turn : RouteTurn) (cost : TurnCost) (outputTokens : ℕ) : RouteTurn :=
  match cost, turn.unknownUsage with
  | some usd, false =>
    { turn with
      hasUsage := true
      outputTokens := turn.outputTokens + outputTokens
      cost := some (turn.cost.getD 0 + usd) }
  | _, _ =>
    { turn with
      hasUsage := true
      outputTokens := turn.outputTokens + outputTokens
      unknownUsage := true
      cost := none }

@[simp] theorem new_startAt (startAt : String) : (new startAt).startAt = startAt := rfl

@[simp] theorem addUsage_startAt (turn : RouteTurn) (cost : TurnCost) (outputTokens : ℕ) :
    (turn.addUsage cost outputTokens).startAt = turn.startAt := by
  simp only [addUsage]
  split <;> rfl

end RouteTurn

/-! ## Windows -/

/-- `created_at >= ?2 AND (?3 IS NULL OR created_at < ?3)`. -/
def inWindow (start : String) (stop : Option String) (at' : String) : Bool :=
  start ≤ at' && stop.all (at' < ·)

theorem inWindow_iff {start : String} {stop : Option String} {at' : String} :
    inWindow start stop at' = true ↔ start ≤ at' ∧ ∀ bound ∈ stop, at' < bound := by
  cases stop <;> simp [inWindow]

/-! ## Cutting a window into turns -/

/-- One event of the window, at the turns read so far, the last one first. -/
def readEvent : List RouteTurn → TurnEvent → List RouteTurn
  | [], _ => []
  | turn :: done, event =>
    match event.type with
    | .userMessage =>
      if turn.endedAt.isSome then .new event.createdAt :: turn :: done else turn :: done
    | .sessionCompleted | .sessionCancelled =>
      if turn.endedAt.isNone then
        { turn with
          endedAt := some event.createdAt
          cancelled := event.type == .sessionCancelled } :: done
      else turn :: done
    | _ =>
      if turn.firstAnswerAt.isNone then
        { turn with firstAnswerAt := some event.createdAt } :: done
      else turn :: done

/-- `first_delta_at`: the first streamed text of a window. -/
def firstDeltaAt (events : List TurnEvent) (sessionId start : String) (stop : Option String) :
    Option String :=
  ((events.filter fun event => event.sessionId == sessionId &&
    inWindow start stop event.createdAt && event.type == .messageDelta).map (·.createdAt)).min?

/-- The streamed text counts as an answer too. The window of a turn ends with the next turn. -/
def withDeltas (events : List TurnEvent) (sessionId : String) (until' : Option String) :
    List RouteTurn → List RouteTurn
  | [] => []
  | turn :: later =>
    let stop := (later.head?.map (·.startAt)).or until'
    let firstAnswerAt :=
      match turn.firstAnswerAt, firstDeltaAt events sessionId turn.startAt stop with
      | some other, some delta => some (min other delta)
      | other, delta => other.or delta
    { turn with firstAnswerAt } :: withDeltas events sessionId until' later

/-- `ORDER BY created_at`. -/
def earlier (a b : TurnEvent) : Bool := a.createdAt ≤ b.createdAt

/-- The events that cut a window, in the order of `created_at, rowid`. -/
def turnEvents (events : List TurnEvent) (route : RouteRow) (until' : Option String) :
    List TurnEvent :=
  (events.filter fun event => event.sessionId == route.sessionId &&
    inWindow route.createdAt until' event.createdAt && event.type != .messageDelta).mergeSort
      earlier

def turnsInRoute (events : List TurnEvent) (route : RouteRow) (until' : Option String) :
    List RouteTurn :=
  withDeltas events route.sessionId until'
    ((turnEvents events route until').foldl readEvent [.new route.createdAt]).reverse

/-- `turn_index`: the latest turn that started at or before a time. The search is over turns in
the order of their starts. -/
def turnIndex (turns : List RouteTurn) (at' : String) : Option ℕ :=
  match turns.findIdx fun turn => decide (at' < turn.startAt) with
  | 0 => none
  | index + 1 => some index

/-! ## The turns start one after the other -/

/-- An event opens a turn at its own time or none. -/
theorem readEvent_starts (turns : List RouteTurn) (event : TurnEvent) :
    (readEvent turns event).map (·.startAt) = turns.map (·.startAt) ∨
      (readEvent turns event).map (·.startAt) = event.createdAt :: turns.map (·.startAt) := by
  cases turns with
  | nil => simp [readEvent]
  | cons turn done =>
    simp only [readEvent]
    split <;> split <;> simp

theorem foldl_readEvent_sorted {events : List TurnEvent} {turns : List RouteTurn}
    (hevents : events.Pairwise fun a b => a.createdAt ≤ b.createdAt)
    (hturns : (turns.map (·.startAt)).Pairwise (· ≥ ·))
    (hbefore : ∀ event ∈ events, ∀ start ∈ turns.map (·.startAt), start ≤ event.createdAt) :
    ((events.foldl readEvent turns).map (·.startAt)).Pairwise (· ≥ ·) := by
  induction events generalizing turns with
  | nil => exact hturns
  | cons event events ih =>
    rw [List.pairwise_cons] at hevents
    have hfirst := hbefore event List.mem_cons_self
    have hlater := fun later h => hbefore later (List.mem_cons_of_mem _ h)
    apply ih hevents.2
    · cases readEvent_starts turns event with
      | inl h => rwa [h]
      | inr h =>
        rw [h, List.pairwise_cons]
        exact ⟨hfirst, hturns⟩
    · intro later hmem
      cases readEvent_starts turns event with
      | inl h =>
        rw [h]
        exact hlater later hmem
      | inr h =>
        rw [h, List.forall_mem_cons]
        exact ⟨hevents.1 later hmem, hlater later hmem⟩

@[simp] theorem withDeltas_starts (events : List TurnEvent) (sessionId : String)
    (until' : Option String) (turns : List RouteTurn) :
    (withDeltas events sessionId until' turns).map (·.startAt) = turns.map (·.startAt) := by
  induction turns with
  | nil => rfl
  | cons turn later ih => simp [withDeltas, ih]

theorem turnEvents_sorted (events : List TurnEvent) (route : RouteRow) (until' : Option String) :
    (turnEvents events route until').Pairwise fun a b => a.createdAt ≤ b.createdAt := by
  have hsort := @List.pairwise_mergeSort _ earlier (fun a b c => by simpa [earlier] using le_trans)
    (fun a b => by simpa [earlier] using le_total a.createdAt b.createdAt)
    (events.filter fun event => event.sessionId == route.sessionId &&
      inWindow route.createdAt until' event.createdAt && event.type != .messageDelta)
  simpa [turnEvents, earlier] using hsort

/-- **The turns of a route start one after the other**, so the search of `turn_index` is over
sorted starts. -/
theorem turnsInRoute_sorted (events : List TurnEvent) (route : RouteRow) (until' : Option String) :
    (turnsInRoute events route until').Pairwise fun a b => a.startAt ≤ b.startAt := by
  have hstarts : ((turnEvents events route until').foldl readEvent [.new route.createdAt]).map
      (·.startAt) |>.Pairwise (· ≥ ·) := by
    apply foldl_readEvent_sorted (turnEvents_sorted events route until') (by simp)
    intro event hevent
    simp only [turnEvents, List.mem_mergeSort, List.mem_filter, Bool.and_eq_true,
      inWindow_iff] at hevent
    simpa using hevent.2.1.2.1
  rw [← List.pairwise_map (f := RouteTurn.startAt) (R := (· ≤ ·)), turnsInRoute, withDeltas_starts,
    List.map_reverse, List.pairwise_reverse]
  exact hstarts

end Argmax.Routing
