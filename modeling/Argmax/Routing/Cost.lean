import Argmax.Lib.Tally
import Argmax.Providers.Pricing
import Argmax.Routing.ApprovalWaits
import Argmax.Usage.Cursor
import Mathlib.Data.List.SplitBy
import Mathlib.Data.Prod.Lex

/-!
# Router cost

`routing/cost.rs`. What each tier spent over a usage window. The rows of `turn_routes` of one chat
cut its time into windows, the turns of a window are charged to the tier on its row, and a row
that pins a model only closes the window before it.

The first instant of the usage window and the price tables are parameters. Errors of the database
are left out.
-/

namespace Argmax.Routing

open Argmax.Lib Argmax.Providers Argmax.Usage
open Argmax.Providers.SendInput (AutoTier RouteDecisionKind)

/-! ## The tables -/

/-- A row of `usage_events`. A table lists its rows in the order of their `rowid`. -/
structure UsageRow where
  id : ℕ
  sessionId : String
  createdAt : String
  modelId : String
  inputTokens : ℤ
  outputTokens : ℤ
  cacheReadTokens : ℤ
  cacheWriteTokens : ℤ
  costUsd : ℚ

def UsageRow.counts (row : UsageRow) : UsageCounts :=
  ⟨row.inputTokens.toNat, row.outputTokens.toNat, row.cacheReadTokens.toNat,
    row.cacheWriteTokens.toNat⟩

/-- What `router_cost` reads. -/
structure Tables where
  routes : List RouteRow
  events : List TurnEvent
  usage : List UsageRow
  approvals : List ApprovalRow
  /-- The transcript of a chat, for the Cursor estimate. -/
  transcript : String → List ContextEvent

/-- The tables of published prices. -/
structure Prices where
  list : PriceTable
  cursor : CursorRateTable

/-! ## Routes and their windows -/

/-- `ORDER BY session_id, created_at, id`. -/
def RouteRow.key (route : RouteRow) : String ×ₗ String ×ₗ ℕ :=
  toLex (route.sessionId, toLex (route.createdAt, route.id))

def inOrder (a b : RouteRow) : Bool := a.key ≤ b.key

def routesOfSessionsRoutedSince (routes : List RouteRow) (start : String) : List RouteRow :=
  (routes.filter fun route => routes.any fun other =>
    other.sessionId == route.sessionId && decide (start ≤ other.createdAt)).mergeSort inOrder

/-- A route and the time of the chat's next row. -/
structure Window where
  route : RouteRow
  until' : Option String

/-- The windows of one chat. -/
def windows : List RouteRow → List Window
  | [] => []
  | route :: later => ⟨route, later.head?.map (·.createdAt)⟩ :: windows later

def sameChat (left right : RouteRow) : Bool := left.sessionId == right.sessionId

/-- The windows of all chats routed since a time. -/
def allWindows (tables : Tables) (start : String) : List Window :=
  ((routesOfSessionsRoutedSince tables.routes start).splitBy sameChat).flatMap windows

/-- The route is in the usage window, and not the user's own. -/
def Window.admitted (start : String) (window : Window) : Bool :=
  start ≤ window.route.createdAt && window.route.decision != .pinned

/-! ## Pricing the turns -/

/-- Each row goes to its turn. -/
def chargeTurns {α : Type*} (time : α → String) (cost : α → TurnCost) (output : α → ℕ)
    (turns : List RouteTurn) (rows : List α) : List RouteTurn :=
  rows.foldl (fun turns row =>
    match turnIndex turns (time row) with
    | some index => turns.modify index (·.addUsage (cost row) (output row))
    | none => turns) turns

def usageCost (prices : Prices) (provider : ProviderId) (modelId : String) (counts : UsageCounts)
    (reported : ℚ) : TurnCost :=
  if (provider = .grok ∨ provider = .opencode) ∧ 0 < reported then some reported
  else if (prices.list modelId).isSome then some (costOf prices.list counts modelId)
  else if 0 < reported then some reported
  else none

/-- The usage rows of a window, in the order of `created_at, rowid`. -/
def Window.usageRows (tables : Tables) (window : Window) : List UsageRow :=
  (tables.usage.filter fun row => row.sessionId == window.route.sessionId &&
    inWindow window.route.createdAt window.until' row.createdAt).mergeSort
      fun a b => a.createdAt ≤ b.createdAt

def priceMeasuredTurns (tables : Tables) (prices : Prices) (window : Window)
    (turns : List RouteTurn) : List RouteTurn :=
  chargeTurns UsageRow.createdAt
    (fun row => usageCost prices window.route.provider row.modelId row.counts row.costUsd)
    (fun row => row.counts.output) turns (window.usageRows tables)

/-- The estimated calls of a window. -/
def Window.cursorCalls (tables : Tables) (window : Window) : List EstimatedCall :=
  (estimateCalls (tables.transcript window.route.sessionId)).filter fun call =>
    inWindow window.route.createdAt window.until' call.createdAt

def priceCursorTurns (tables : Tables) (prices : Prices) (window : Window)
    (turns : List RouteTurn) : List RouteTurn :=
  chargeTurns EstimatedCall.createdAt
    (fun call => (prices.cursor window.route.modelId call.createdAt).map (·.cost call))
    EstimatedCall.output turns (window.cursorCalls tables)

/-- The turns of a window before they are priced. -/
def Window.unpriced (tables : Tables) (window : Window) : List RouteTurn :=
  turnsInRoute tables.events window.route window.until'

def Window.priced (tables : Tables) (prices : Prices) (window : Window) : List RouteTurn :=
  if window.route.provider = .cursor then
    priceCursorTurns tables prices window (window.unpriced tables)
  else priceMeasuredTurns tables prices window (window.unpriced tables)

/-- A cancelled turn is left out entirely, cost included. -/
def Window.turns (tables : Tables) (prices : Prices) (window : Window) : List RouteTurn :=
  (window.priced tables prices).filter fun turn => turn.answered && !turn.cancelled

/-! ## Tiers -/

structure RouterModelCost where
  provider : ProviderId
  modelId : String
  turns : ℕ
  costUsd : ℚ
  /-- The cost is a transcript estimate. -/
  estimated : Bool

structure RouterDecisionSummary where
  provider : ProviderId
  modelId : String
  reasoningEffort : Option String
  kind : Option String
  difficulty : Option String
  decision : RouteDecisionKind
  reason : String
  /-- The windows with this decision. -/
  count : ℕ
  /-- The answered turns in them. -/
  turns : ℕ

structure RouterTierCost where
  tier : AutoTier
  chats : ℕ
  turns : ℕ
  escalations : ℕ
  reroutes : ℕ
  measuredCostUsd : ℚ
  estimatedCostUsd : ℚ
  unpricedTurns : ℕ
  pricedOutputTokens : ℕ
  medianTurnOutputTokens : Option ℚ
  models : List RouterModelCost
  decisions : List RouterDecisionSummary
  medianTurnSeconds : Option ℚ
  medianFirstAnswerSeconds : Option ℚ
  outputTokensPerSecond : Option ℚ

structure TierTally where
  cost : RouterTierCost
  chats : Finset String
  turnSeconds : List ℚ
  firstAnswerSeconds : List ℚ
  turnOutputTokens : List ℚ
  outputTokens : ℕ
  outputSeconds : ℚ

/-- A window with the turns that count. -/
structure Entry where
  route : RouteRow
  turns : List RouteTurn
  timings : List TurnTiming

namespace TierTally

def new (tier : AutoTier) : TierTally :=
  ⟨⟨tier, 0, 0, 0, 0, 0, 0, 0, 0, none, [], [], none, none, none⟩, ∅, [], [], [], 0, 0⟩

/-- The route decided as an earlier one did. -/
def sameDecision (route : RouteRow) (decision : RouterDecisionSummary) : Bool :=
  decision.provider == route.provider && decision.modelId == route.modelId &&
    decision.reasoningEffort == route.reasoningEffort && decision.kind == route.kind &&
    decision.difficulty == route.difficulty && decision.decision == route.decision &&
    decision.reason == route.reason

def newDecision (route : RouteRow) : RouterDecisionSummary :=
  ⟨route.provider, route.modelId, route.reasoningEffort, route.kind, route.difficulty,
    route.decision, route.reason, 0, 0⟩

def sameModel (route : RouteRow) (model : RouterModelCost) : Bool :=
  model.provider == route.provider && model.modelId == route.modelId

def newModel (route : RouteRow) : RouterModelCost :=
  ⟨route.provider, route.modelId, 0, 0, route.provider == .cursor⟩

/-- The cost of the priced turns. -/
def routeCost (turns : List RouteTurn) : ℚ := (turns.filterMap (·.cost)).sum

def add (tally : TierTally) (entry : Entry) : TierTally :=
  let withOutput := entry.timings.filter (0 < ·.outputTokens)
  let cost := tally.cost
  let usd := routeCost entry.turns
  let estimated := entry.route.provider = .cursor
  { cost :=
      { cost with
        turns := cost.turns + entry.turns.length
        decisions := upsert (sameDecision entry.route) (newDecision entry.route)
          (fun decision =>
            { decision with
              count := decision.count + 1
              turns := decision.turns + entry.turns.length }) cost.decisions
        escalations := cost.escalations + if entry.route.decision = .escalate then 1 else 0
        reroutes := cost.reroutes + if entry.route.decision = .reroute then 1 else 0
        pricedOutputTokens := cost.pricedOutputTokens +
          ((entry.turns.filter (·.cost.isSome)).map (·.outputTokens)).sum
        unpricedTurns := cost.unpricedTurns + entry.turns.countP (·.cost.isNone)
        estimatedCostUsd := cost.estimatedCostUsd + if estimated then usd else 0
        measuredCostUsd := cost.measuredCostUsd + if estimated then 0 else usd
        models := upsert (sameModel entry.route) (newModel entry.route)
          (fun model =>
            { model with
              turns := model.turns + entry.turns.length
              costUsd := model.costUsd + usd }) cost.models }
    chats := insert entry.route.sessionId tally.chats
    turnSeconds := tally.turnSeconds ++ entry.timings.map (·.turnSeconds)
    firstAnswerSeconds := tally.firstAnswerSeconds ++ entry.timings.map (·.firstAnswerSeconds)
    turnOutputTokens := tally.turnOutputTokens ++
      (entry.turns.filter (0 < ·.outputTokens)).map fun turn => (turn.outputTokens : ℚ)
    outputTokens := tally.outputTokens + (withOutput.map (·.outputTokens)).sum
    outputSeconds := tally.outputSeconds + (withOutput.map (·.turnSeconds)).sum }

def median (values : List ℚ) : Option ℚ :=
  let sorted := values.mergeSort fun a b => a ≤ b
  let middle := sorted.length / 2
  if sorted.length % 2 = 0 then
    (sorted[middle - 1]?.map₂ (fun a b => (a + b) / 2) sorted[middle]?)
  else sorted[middle]?

/-- `as_str` of a decision. -/
def decisionText : RouteDecisionKind → String
  | .launch => "launch"
  | .reroute => "reroute"
  | .escalate => "escalate"
  | .kept => "kept"
  | .fallback => "fallback"
  | .pinned => "pinned"

/-- Most turns first. -/
def modelOrder (left right : RouterModelCost) : Bool :=
  ((compare right.turns left.turns).then (compare left.modelId right.modelId)).isLE

/-- Most decisions first. -/
def decisionOrder (left right : RouterDecisionSummary) : Bool :=
  ((compare right.count left.count).then <|
    (compare left.provider.ctorIdx right.provider.ctorIdx).then <|
    (compare left.modelId right.modelId).then <|
    (compare left.reasoningEffort right.reasoningEffort).then <|
    (compare left.kind right.kind).then <|
    (compare left.difficulty right.difficulty).then <|
    (compare (decisionText left.decision) (decisionText right.decision)).then <|
    compare left.reason right.reason).isLE

def finish (tally : TierTally) : RouterTierCost :=
  { tally.cost with
    chats := tally.chats.card
    medianTurnSeconds := median tally.turnSeconds
    medianFirstAnswerSeconds := median tally.firstAnswerSeconds
    medianTurnOutputTokens := median tally.turnOutputTokens
    outputTokensPerSecond :=
      if 0 < tally.outputSeconds then some (tally.outputTokens / tally.outputSeconds) else none
    models := tally.cost.models.mergeSort modelOrder
    decisions := tally.cost.decisions.mergeSort decisionOrder }

end TierTally

/-- The order of `tier_rank`. -/
def tierOrder : List AutoTier := [.intelligence, .balanced, .cost, .economy]

/-- The tallies, by `tier_rank`. -/
abbrev Tiers := AutoTier → Option TierTally

/-- The entries of the tally of their tier. -/
def Tiers.add (tiers : Tiers) (entry : Entry) : Tiers :=
  Function.update tiers entry.route.tier
    (some (((tiers entry.route.tier).getD (.new entry.route.tier)).add entry))

/-- One window of the loop of `router_cost`. -/
def Window.entry (tables : Tables) (prices : Prices) (start : String) (window : Window) :
    Option Entry :=
  if !window.admitted start then none
  else
    let turns := window.turns tables prices
    if turns.isEmpty then none
    else some ⟨window.route, turns, turnTimings tables.approvals window.route turns⟩

def entries (tables : Tables) (prices : Prices) (start : String) : List Entry :=
  (allWindows tables start).filterMap (Window.entry tables prices start)

def routerCost (tables : Tables) (prices : Prices) (start : String) :
    Option (List RouterTierCost) :=
  let routes := routesOfSessionsRoutedSince tables.routes start
  if !routes.any fun route => decide (start ≤ route.createdAt) then none
  else
    match entries tables prices start with
    | [] => none
    | entries =>
      let tiers := entries.foldl Tiers.add fun _ => none
      some (tierOrder.filterMap fun tier => (tiers tier).map TierTally.finish)

end Argmax.Routing
