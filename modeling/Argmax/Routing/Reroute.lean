import Argmax.Providers.Pricing
import Argmax.Routing.Jev
import Mathlib.Data.Prod.Lex

/-!
# Routing a follow-up

`routing/reroute.rs`. Between two turns a chat is moved up when the next task likely needs more,
and down when it surely needs less. An `expect` that is reached is no decision.

Prices are the rows of `MODEL_PRICING` for the models that can be compared; probabilities and
dollars are exact rationals.
-/

namespace Argmax.Routing

open Argmax.Providers
open Argmax.Providers.SendInput (AutoTier ReasoningEffort RouteDecisionKind)

/-! ## Thresholds -/

def correctionThreshold : ℚ := 17 / 20

def effortUp : ℚ := 3 / 5

def modelUp : ℚ := 7 / 10

def effortDown : ℚ := 3 / 4

def modelDown : ℚ := 4 / 5

def resumeConfidence : ℚ := 9 / 10

def expectedTurns : ℚ := 2

/-- `CACHE_TTL`, in nanoseconds. -/
def cacheTtl : ℕ := 3600000000000

def coldCacheSurvival : ℚ := 1 / 4

/-! ## The state of a chat -/

/-- The route of an earlier task. Its effort was clamped when it was read. -/
structure ResumeTarget extends RoutedModel where
  supported : ∀ level ∈ effort, level ∈ model.efforts

structure FollowUpState where
  tier : AutoTier
  provider : ProviderId
  modelId : String
  effort : Option ReasoningEffort
  /-- The providers that are installed. None means that it is not known. -/
  available : List ProviderId
  contextTokens : ℕ
  lastTurn : UsageCounts
  /-- The request and the context that it needs are all there. -/
  downgradeSafe : Bool
  resumeTarget : Option ResumeTarget
  /-- Nanoseconds since the last activity. -/
  idle : Option ℕ

/-- A decision with what it was based on. -/
structure FollowUpDecision extends SendInput.RouteDecision where
  kind : Option TaskKind
  difficulty : Option Difficulty
  kindConfidence : Option ℚ
  difficultyConfidence : Option ℚ
  /-- What `signals_json` writes. -/
  signals : Option Classification

/-- `decision_from`, of a follow-up. -/
def decisionFrom (state : FollowUpState) (routed : RoutedModel) (c : Classification)
    (settled : TaskKind × Difficulty) (decision : RouteDecisionKind) (reason : String) :
    FollowUpDecision where
  tier := state.tier
  provider := routed.model.provider
  modelId := routed.model.modelId
  modelLabel := routed.model.label
  effort := routed.effort
  decision := decision
  reason := reason
  kind := some settled.1
  difficulty := some settled.2
  kindConfidence := some c.kindConfidence
  difficultyConfidence := some c.difficultyConfidence
  signals := some c

def kept (state : FollowUpState) (c : Classification) (settled : TaskKind × Difficulty)
    (reason : String) : FollowUpDecision where
  tier := state.tier
  provider := state.provider
  modelId := state.modelId
  modelLabel := (routeModel state.modelId).elim state.modelId (·.label)
  effort := state.effort
  decision := .kept
  reason := reason
  kind := some settled.1
  difficulty := some settled.2
  kindConfidence := some c.kindConfidence
  difficultyConfidence := some c.difficultyConfidence
  signals := some c

/-! ## Strength and ladders -/

abbrev Strength := ℕ ×ₗ ℕ

def strength (modelId : String) (effort : Option ReasoningEffort) : Option Strength :=
  (capability modelId).map fun capability => toLex (capability, effort.elim 0 rank)

/-- The order of two strengths, an unknown one first. -/
def exceeds : Option Strength → Option Strength → Bool
  | some a, some b => b < a
  | some _, none => true
  | none, _ => false

/-- `ladder`, weakest first. -/
def ladder : ProviderId → List RoutedModel
  | .claude =>
    [⟨.opus, some .medium⟩, ⟨.opus, some .high⟩, ⟨.fable, some .high⟩, ⟨.fable, some .xhigh⟩]
  | .codex =>
    [⟨.sol, some .medium⟩, ⟨.sol, some .high⟩, ⟨.astra, some .high⟩, ⟨.astra, some .xhigh⟩]
  | .grok =>
    [⟨.grok, some .low⟩, ⟨.grok, some .medium⟩, ⟨.grok, some .high⟩, ⟨.opus, some .high⟩]
  | .opencode => [⟨.deepseek, some .high⟩, ⟨.sonnet, some .high⟩]
  | .cursor => [⟨.composer, none⟩, ⟨.cursorOpus, some .medium⟩, ⟨.cursorOpus, some .high⟩]

/-- The rungs of a provider on a tier. -/
def rungs (tier : AutoTier) (provider : ProviderId) : List RoutedModel :=
  if tier = .economy ∧ provider = .codex then
    [⟨.luna, some .medium⟩, ⟨.sol, some .medium⟩, ⟨.sol, some .high⟩, ⟨.opus, some .high⟩]
  else ladder provider

def nextRung (tier : AutoTier) (provider : ProviderId) (modelId : String)
    (effort : Option ReasoningEffort) (available : List ProviderId) : Option RoutedModel :=
  let modelId := (routeModel modelId).elim modelId (·.modelId)
  let rungs := rungs tier provider
  let next :=
    match rungs.findIdx? fun rung => rung.model.modelId == modelId && rung.effort == effort with
    | some index => rungs[index + 1]?
    | none =>
      (strength modelId effort).bind fun current =>
        rungs.find? fun rung => (strength rung.model.modelId rung.effort).any (current < ·)
  next.filter fun rung => rung.model.provider == provider || available.isEmpty ||
    available.contains rung.model.provider

/-! ## What a switch costs -/

/-- The rows of `MODEL_PRICING` and its aliases for the ids with a capability, but Cursor's. -/
def routePrice : PriceTable := fun modelId =>
  if modelId = "claude-fable-5-1" then some ⟨10, 50, 1 / 4, 25 / 2⟩
  else if modelId = "claude-opus-5-5" then some ⟨4, 20, 1 / 5, 5⟩
  else if modelId = "claude-sonnet-5-5" then some ⟨2, 10, 1 / 5, 5 / 2⟩
  else if modelId = "gpt-6-astra" then some ⟨10, 50, 1, 25 / 2⟩
  else if modelId = "gpt-6.1-sol" then some ⟨2, 10, 1 / 5, 5 / 2⟩
  else if modelId = "gpt-6-sol" then some ⟨2, 10, 1 / 5, 5 / 2⟩
  else if modelId = "gpt-6-luna" then some ⟨1 / 10, 1 / 2, 1 / 100, 1 / 8⟩
  else if modelId = "composer-2.5" then some ⟨0, 0, 0, 0⟩
  else if modelId = "claude-opus-5-5-medium" then some ⟨0, 0, 0, 0⟩
  else if modelId = "openrouter/deepseek/deepseek-v4.1-flash-1017" then
    some ⟨3 / 20, 3 / 5, 3 / 1000, 3 / 20⟩
  else if modelId = "openrouter/deepseek/deepseek-v4.1-flash" then
    some ⟨3 / 20, 3 / 5, 3 / 1000, 3 / 20⟩
  else if modelId = "grok-4.7" then some ⟨17 / 25, 51 / 25, 17 / 100, 0⟩
  else none

def rebuildRate (provider : ProviderId) (price : ModelPricing) : ℚ :=
  let write :=
    if provider = .claude then max price.cacheWrite (2 * price.input)
    else max price.cacheWrite price.input
  max (write - price.cacheRead) 0

/-- The next turn, each count capped by the last turn's. -/
def forecast (state : FollowUpState) (c : Classification) : UsageCounts :=
  let caps : ℕ × ℕ :=
    if c.followUpScope = some .finishingStep then (256, 256)
    else if c.difficulty = .light then (1000, 500)
    else (4000, 2000)
  ⟨min state.lastTurn.input caps.1, min state.lastTurn.output caps.2,
    min state.lastTurn.cacheRead state.contextTokens, 0⟩

def switchPaysBack (state : FollowUpState) (candidate : RoutedModel) (c : Classification) : Bool :=
  if state.provider = .cursor ∨ state.contextTokens = 0 then false
  else
    match routePrice state.modelId, routePrice candidate.model.modelId with
    | some old, some new =>
      if old.input ≤ 0 ∨ new.input ≤ 0 then false
      else
        let context : ℚ := state.contextTokens / 1000000
        let warm : ℚ :=
          match state.idle with
          | some idle => if cacheTtl ≤ idle then coldCacheSurvival else 1
          | none => 1
        let penalty := context * rebuildRate state.provider new -
          (1 - warm) * context * rebuildRate state.provider old
        let saving := expectedTurns * (costOf routePrice (forecast state c) state.modelId -
          costOf routePrice (forecast state c) candidate.model.modelId)
        0 < saving && penalty ≤ saving
    | _, _ => false

/-! ## The decision -/

/-- Half to even, as `{:.0}` rounds. -/
def roundHalfEven (q : ℚ) : ℤ :=
  let floor := ⌊q⌋
  let rest := q - floor
  if rest < 1 / 2 ∨ (rest = 1 / 2 ∧ floor % 2 = 0) then floor else floor + 1

def percent (probability : ℚ) : String := toString (roundHalfEven (probability * 100)) ++ "%"

/-- A reported-wrong answer climbs one rung. -/
def correct (state : FollowUpState) (c : Classification) (settled : TaskKind × Difficulty)
    (summary : String) : FollowUpDecision :=
  match nextRung state.tier state.provider state.modelId state.effort state.available with
  | some rung =>
    decisionFrom state rung c settled .escalate
      (summary ++ " (escalated: the last answer was reported wrong)")
  | none =>
    kept state c settled (summary ++
      " (the last answer was reported wrong, but this is the top of the " ++
      SendInput.providerText state.provider ++ " ladder)")

/-- A continuation of a DeepSeek chat that can move to Sonnet. -/
def continuesDeepseek (state : FollowUpState) (c : Classification) : Bool :=
  state.provider == .opencode && routeModel state.modelId == some .deepseek &&
    c.followUpScope != some .newTask && effortUp ≤ c.scopeConfidence.getD 0 &&
    (state.available.isEmpty || state.available.contains RouteModel.sonnet.provider)

/-- The earlier route, if the task surely resumes it. -/
def resumed (state : FollowUpState) (c : Classification) : Option RoutedModel :=
  (state.resumeTarget.map (·.toRoutedModel)).filter fun target =>
    target.model.provider == state.provider && c.followUpScope == some .continuation &&
      resumeConfidence ≤ c.scopeConfidence.getD 0 && resumeConfidence ≤ c.resumeConfidence.getD 0

/-- The earlier route instead of a weaker target. -/
def orResumed (state : FollowUpState) (c : Classification) (candidate : RoutedModel) :
    RoutedModel :=
  match resumed state c with
  | some target =>
    if exceeds (strength target.model.modelId target.effort)
        (strength candidate.model.modelId candidate.effort) then target
    else candidate
  | none => candidate

/-- The current model instead of a lesser one, where the effort goes up. -/
def orRetained (state : FollowUpState) (candidate : RoutedModel) : RoutedModel :=
  match routeModel state.modelId with
  | none => candidate
  | some current =>
    let above :=
      match capability state.modelId, capability candidate.model.modelId with
      | some a, some b => decide (b < a)
      | some _, none => true
      | none, _ => false
    let raises :=
      match candidate.effort, state.effort with
      | some next, some effort => decide (rank effort < rank next)
      | _, _ => false
    if above && raises then ⟨current, candidate.effort.bind (clampEffort · current)⟩ else candidate

/-- The route that a follow-up is measured against. -/
def candidateOf (state : FollowUpState) (c : Classification) (settled : TaskKind × Difficulty) :
    Option RoutedModel :=
  (followUpTarget state.provider state.tier settled.1 settled.2 c.isUi).map fun target =>
    orRetained state (orResumed state c target)

/-- Up goes straight to the target. -/
def moveUp (state : FollowUpState) (c : Classification) (settled : TaskKind × Difficulty)
    (candidate : RoutedModel) (reason : String) : FollowUpDecision :=
  if resumed state c = some candidate then
    decisionFrom state candidate c settled .reroute
      (reason ++ ". Restoring the route for the earlier task being resumed")
  else
    let needed := if candidate.model.modelId = state.modelId then effortUp else modelUp
    let evidence := c.probabilityAtLeastBucket settled.2
    if needed ≤ evidence then
      decisionFrom state candidate c settled .reroute
        (reason ++ ". Likely needs more (" ++ percent evidence ++ "), moving up")
    else
      kept state c settled (reason ++ ". Not sure it needs more (" ++ percent evidence ++ " < " ++
        percent needed ++ "), staying")

/-- What speaks for a move down. -/
def downEvidence (c : Classification) (difficulty : Difficulty) : ℚ :=
  min (min c.kindConfidence (c.probabilityAtMostBucket difficulty)) (c.simplerTask.getD 0)

/-- The level below the current one, no lower than the floor. -/
def oneStep (model : RouteModel) (effort floor : Option ReasoningEffort) : Option ReasoningEffort :=
  match effort, floor with
  | some current, some floor =>
    strongest (model.efforts.filter fun level =>
      decide (rank level < rank current) && decide (rank floor ≤ rank level))
  | _, _ => none

/-- Why a chat that could move down stays. -/
def noStep (state : FollowUpState) (candidate : RoutedModel) (evidence : ℚ) : String :=
  if candidate.model.modelId = state.modelId then "No supported effort reduction"
  else if state.provider = .cursor then "Cursor usage is unpriced, retaining model"
  else if evidence < modelDown then
    "Not sure the next task is simpler enough to switch model (" ++ percent evidence ++ " < " ++
      percent modelDown ++ ")"
  else candidate.model.label ++ " would not repay the cache it rebuilds, retaining model"

/-- Down to another model where that repays, otherwise one effort level at a time. -/
def moveDown (state : FollowUpState) (c : Classification) (settled : TaskKind × Difficulty)
    (candidate : RoutedModel) (reason : String) : Option FollowUpDecision :=
  if !state.downgradeSafe then
    some (kept state c settled
      (reason ++ ". Relevant context is missing or truncated, retaining capability"))
  else
    let evidence := downEvidence c settled.2
    if candidate.model.modelId ≠ state.modelId ∧ modelDown ≤ evidence ∧
        switchPaysBack state candidate c = true then
      some (decisionFrom state candidate c settled .reroute
        (reason ++ ". Simpler next task, and the savings cover the cache rebuild"))
    else
      (routeModel state.modelId).map fun currentModel =>
        let floor := clampEffort (candidate.effort.getD .low) currentModel
        match oneStep currentModel state.effort floor with
        | none => kept state c settled (reason ++ ". " ++ noStep state candidate evidence)
        | some lower =>
          if evidence < effortDown then
            kept state c settled (reason ++ ". Not sure the next task is simpler (" ++
              percent evidence ++ " < " ++ percent effortDown ++ "), retaining capability")
          else
            decisionFrom state ⟨currentModel, some lower⟩ c settled .reroute
              (reason ++ ". Simpler next task, one effort level down on the same model")

/-- The decision about a candidate. -/
def weigh (state : FollowUpState) (c : Classification) (settled : TaskKind × Difficulty)
    (candidate : RoutedModel) (reason : String) : Option FollowUpDecision :=
  if candidate.model.modelId = state.modelId ∧ candidate.effort = state.effort then
    some (kept state c settled reason)
  else
    match strength state.modelId state.effort with
    | none =>
      some (kept state c settled
        (reason ++ ". Current model has no follow-up capability policy, staying"))
    | some current =>
      (strength candidate.model.modelId candidate.effort).bind fun offered =>
        if current < offered then some (moveUp state c settled candidate reason)
        else moveDown state c settled candidate reason

def followUpRoute (state : FollowUpState) (c : Classification) : Option FollowUpDecision :=
  let (kind, difficulty, notes) := settle c
  let settled := (kind, difficulty)
  let summary := kindLabel kind ++ " · " ++ difficultyLabel difficulty ++
    if c.isUi then " · UI" else ""
  if correctionThreshold ≤ c.correction.getD 0 then some (correct state c settled summary)
  else if continuesDeepseek state c then
    some (decisionFrom state ⟨.sonnet, some .medium⟩ c settled .reroute
      (summary ++ " (a continuation of a DeepSeek chat moves to Sonnet)"))
  else
    let reason :=
      if notes.isEmpty then summary else summary ++ " (" ++ "; ".intercalate notes ++ ")"
    match candidateOf state c settled with
    | none =>
      some (kept state c settled (reason ++ ". Provider has no follow-up routing policy, staying"))
    | some candidate => weigh state c settled candidate reason

end Argmax.Routing
