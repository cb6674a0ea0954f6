import Argmax.Providers.SendChat

/-!
# The models a chat is routed to

`routing/table.rs`: the models with the efforts they take, the target of a follow-up within its
provider, and the order of capability that the policy compares models by.
-/

namespace Argmax.Routing

open Argmax.Providers.SendInput (AutoTier ReasoningEffort)

inductive TaskKind where
  | coding
  | mechanical
  | research
  | review
  | question
  deriving DecidableEq

inductive Difficulty where
  | light
  | standard
  | heavy
  deriving DecidableEq

def kindLabel : TaskKind → String
  | .coding => "coding"
  | .mechanical => "mechanical"
  | .research => "research"
  | .review => "review"
  | .question => "question"

def difficultyLabel : Difficulty → String
  | .light => "light"
  | .standard => "standard"
  | .heavy => "heavy"

inductive Column where
  | cheap
  | value
  | frontier

/-! ## Models -/

/-- `ROUTE_MODELS`. -/
inductive RouteModel where
  | opus
  | sonnet
  | fable
  | sol
  | luna
  | astra
  | deepseek
  | composer
  | cursorOpus
  | grok
  deriving DecidableEq

namespace RouteModel

/-- In the order of the table. -/
def all : List RouteModel :=
  [.opus, .sonnet, .fable, .sol, .luna, .astra, .deepseek, .composer, .cursorOpus, .grok]

def provider : RouteModel → ProviderId
  | .opus | .sonnet | .fable => .claude
  | .sol | .luna | .astra => .codex
  | .deepseek => .opencode
  | .composer | .cursorOpus => .cursor
  | .grok => .grok

def modelId : RouteModel → String
  | .opus => "claude-opus-5-5"
  | .sonnet => "claude-sonnet-5-5"
  | .fable => "claude-fable-5-1"
  | .sol => "gpt-6.1-sol"
  | .luna => "gpt-6-luna"
  | .astra => "gpt-6-astra"
  | .deepseek => "openrouter/deepseek/deepseek-v4.1-flash-1017"
  | .composer => "composer-2.5"
  | .cursorOpus => "claude-opus-5-5-medium"
  | .grok => "grok-4.7"

def label : RouteModel → String
  | .opus => "Opus 5.5"
  | .sonnet => "Sonnet 5.5"
  | .fable => "Fable 5.1"
  | .sol => "GPT-6.1 Sol"
  | .luna => "GPT-6 Luna"
  | .astra => "GPT-6 Astra"
  | .deepseek => "DeepSeek V4.1 Flash 1017"
  | .composer => "Composer 2.5 (Cursor)"
  | .cursorOpus => "Claude Opus 5.5 (Cursor)"
  | .grok => "Grok 4.7"

/-- The levels its CLI takes. Without any the provider picks the effort itself. -/
def efforts : RouteModel → List ReasoningEffort
  | .opus | .sonnet | .fable | .cursorOpus => [.low, .medium, .high, .xhigh, .max]
  | .sol | .astra => [.low, .medium, .high, .xhigh, .max, .ultra]
  | .luna => [.low, .medium, .high, .xhigh, .max]
  | .deepseek => [.low, .high, .max]
  | .composer => []
  | .grok => [.low, .medium, .high, .xhigh]

end RouteModel

/-- A concrete launch target. -/
structure RoutedModel where
  model : RouteModel
  effort : Option ReasoningEffort
  deriving DecidableEq

/-- `route_model`: a retired id resolves to its successor. -/
def routeModel (modelId : String) : Option RouteModel :=
  let current :=
    if modelId = "gpt-6-sol" then "gpt-6.1-sol"
    else if modelId = "openrouter/deepseek/deepseek-v4.1-flash" then RouteModel.deepseek.modelId
    else modelId
  RouteModel.all.find? fun model => model.modelId == current

def capability (modelId : String) : Option ℕ :=
  if modelId = "composer-2.5" ∨ modelId = "openrouter/deepseek/deepseek-v4.1-flash" ∨
      modelId = "openrouter/deepseek/deepseek-v4.1-flash-1017" ∨ modelId = "grok-4.7" ∨
      modelId = "claude-sonnet-5-5" ∨ modelId = "gpt-6-luna" then some 0
  else if modelId = "claude-opus-5-5" ∨ modelId = "claude-opus-5-5-medium" ∨
      modelId = "gpt-6.1-sol" ∨ modelId = "gpt-6-sol" then some 1
  else if modelId = "claude-fable-5-1" ∨ modelId = "gpt-6-astra" then some 2
  else none

def rank : ReasoningEffort → ℕ
  | .low => 0
  | .medium => 1
  | .high => 2
  | .xhigh => 3
  | .max => 4
  | .ultra => 5

/-- `max_by_key` with `rank`. -/
def strongest (efforts : List ReasoningEffort) : Option ReasoningEffort :=
  efforts.foldl (fun best effort =>
    match best with
    | none => some effort
    | some found => if rank found ≤ rank effort then some effort else some found) none

/-- `clamp_effort`: a supported level, else the highest below it, else the lowest. -/
def clampEffort (effort : ReasoningEffort) (model : RouteModel) : Option ReasoningEffort :=
  if model.efforts.isEmpty then none
  else if effort ∈ model.efforts then some effort
  else (strongest (model.efforts.filter fun candidate => rank candidate < rank effort)).or
    model.efforts.head?

/-! ## Targets -/

def columnAndEffort : AutoTier → Difficulty → Column × ReasoningEffort
  | .economy, .light | .economy, .standard => (.cheap, .medium)
  | .economy, .heavy => (.value, .high)
  | .cost, .light => (.cheap, .low)
  | .cost, .standard => (.cheap, .medium)
  | .cost, .heavy => (.value, .medium)
  | .balanced, .light => (.cheap, .medium)
  | .balanced, .standard => (.value, .medium)
  | .balanced, .heavy => (.value, .high)
  | .intelligence, .light => (.value, .medium)
  | .intelligence, .standard => (.frontier, .high)
  | .intelligence, .heavy => (.frontier, .high)

def difficultyEffort : Difficulty → ReasoningEffort
  | .light => .low
  | .standard => .medium
  | .heavy => .high

def costRoute : TaskKind → Difficulty → RoutedModel
  | .review, difficulty => ⟨.sonnet, some (difficultyEffort difficulty)⟩
  | .mechanical, _ | _, .light | .question, .standard => ⟨.luna, some .medium⟩
  | _, .standard => ⟨.sol, some .medium⟩
  | _, .heavy => ⟨.sol, some .high⟩

/-- The effort that `follow_up_target` starts from. -/
def followUpEffort (tier : AutoTier) (kind : TaskKind) (difficulty : Difficulty) :
    ReasoningEffort :=
  if kind = .mechanical then if difficulty = .light then .low else .medium
  else if difficulty = .light ∧ tier ≠ .intelligence then .low
  else (columnAndEffort tier difficulty).2

/-- The model of a provider for a task, and its effort before it is clamped. -/
def followUpModel (provider : ProviderId) (tier : AutoTier) (kind : TaskKind)
    (difficulty : Difficulty) (ui : Bool) : Option (RouteModel × ReasoningEffort) :=
  let effort := followUpEffort tier kind difficulty
  match provider with
  | .claude =>
    if tier = .intelligence ∧ difficulty = .heavy ∧ (kind = .question ∨ kind = .research) then
      some (.fable, effort)
    else if tier = .cost then
      some (.sonnet, if kind = .review then difficultyEffort difficulty else effort)
    else some (.opus, effort)
  | .codex =>
    if (difficulty = .heavy ∧ ¬ (kind = .coding ∨ kind = .mechanical)) ∨
        (tier = .intelligence ∧ difficulty = .standard ∧ (kind = .review ∨ kind = .research)) then
      some (.astra, effort)
    else some (.sol, effort)
  | .cursor =>
    if kind = .review ∨ difficulty = .heavy ∨ (difficulty = .standard ∧ tier ≠ .cost) ∨
        tier = .intelligence ∨ (tier = .balanced ∧ ui = true) then
      some (.cursorOpus, effort)
    else some (.composer, effort)
  | .opencode => none
  | .grok => some (.grok, difficultyEffort difficulty)

def followUpTarget (provider : ProviderId) (tier : AutoTier) (kind : TaskKind)
    (difficulty : Difficulty) (ui : Bool) : Option RoutedModel :=
  let target := costRoute kind difficulty
  if tier = .economy ∧ provider = .codex then
    some ⟨if target.model.provider = .codex then target.model else .sol, target.effort⟩
  else if tier = .economy ∧ provider = .claude then
    let heavy := difficulty = .heavy ∧ ¬ (kind = .mechanical ∨ kind = .review)
    some ⟨if heavy then .opus else .sonnet, target.effort⟩
  else
    (followUpModel provider tier kind difficulty ui).map fun (model, effort) =>
      ⟨model, clampEffort effort model⟩

/-! ## What the table holds -/

@[simp] theorem routeModel_modelId (model : RouteModel) :
    routeModel model.modelId = some model := by
  cases model <;> decide

theorem routeModel_eq_some {modelId : String} {model : RouteModel}
    (h : routeModel modelId = some model) :
    modelId = model.modelId ∨ modelId = "gpt-6-sol" ∧ model = .sol ∨
      modelId = "openrouter/deepseek/deepseek-v4.1-flash" ∧ model = .deepseek := by
  by_cases hsol : modelId = "gpt-6-sol"
  · subst hsol
    have hm : some RouteModel.sol = some model := h
    simp only [Option.some.injEq] at hm
    simp [← hm]
  · by_cases hflash : modelId = "openrouter/deepseek/deepseek-v4.1-flash"
    · subst hflash
      have hm : some RouteModel.deepseek = some model := h
      simp only [Option.some.injEq] at hm
      simp [← hm]
    · have hm := List.find?_some h
      rw [if_neg hsol, if_neg hflash] at hm
      exact .inl (of_decide_eq_true hm).symm

theorem capability_eq {modelId : String} {model : RouteModel}
    (h : routeModel modelId = some model) : capability modelId = capability model.modelId := by
  rcases routeModel_eq_some h with rfl | ⟨rfl, rfl⟩ | ⟨rfl, rfl⟩
  · rfl
  · decide
  · decide

/-- The policy ranks exactly the models of the table. -/
theorem capability_isSome_iff (modelId : String) :
    (capability modelId).isSome = true ↔ (routeModel modelId).isSome = true := by
  constructor
  · intro h
    unfold capability at h
    split_ifs at h with h₁ h₂ h₃
    · rcases h₁ with rfl | rfl | rfl | rfl | rfl | rfl <;> decide
    · rcases h₂ with rfl | rfl | rfl | rfl <;> decide
    · rcases h₃ with rfl | rfl <;> decide
    · simp at h
  · intro h
    obtain ⟨model, hm⟩ := Option.isSome_iff_exists.1 h
    rw [capability_eq hm]
    cases model <;> decide

theorem strongest_eq_none {efforts : List ReasoningEffort} (h : strongest efforts = none) :
    efforts = [] := by
  cases efforts with
  | nil => rfl
  | cons effort rest =>
    exfalso
    have hkeeps : ∀ (rest : List ReasoningEffort) (found : ReasoningEffort),
        rest.foldl (fun best effort =>
          match best with
          | none => some effort
          | some found => if rank found ≤ rank effort then some effort else some found)
          (some found) ≠ none := by
      intro rest
      induction rest with
      | nil => simp
      | cons effort rest ih =>
        intro found
        by_cases hle : rank found ≤ rank effort
        · simpa [hle] using ih effort
        · simpa [hle] using ih found
    exact hkeeps rest effort h

/-- What the fold has found is one of the levels, and none is above it. -/
theorem strongest_spec (efforts : List ReasoningEffort) :
    ∀ found ∈ strongest efforts, found ∈ efforts ∧ ∀ level ∈ efforts, rank level ≤ rank found := by
  induction efforts using List.reverseRecOn with
  | nil => simp [strongest]
  | append_singleton efforts last ih =>
    intro found hfound
    have hstep : strongest (efforts ++ [last]) =
        match strongest efforts with
        | none => some last
        | some found => if rank found ≤ rank last then some last else some found := by
      simp [strongest]
    rw [hstep] at hfound
    cases hs : strongest efforts with
    | none =>
      have hempty := strongest_eq_none hs
      simp only [hs, Option.mem_def, Option.some.injEq] at hfound
      subst hfound hempty
      simp
    | some best =>
      have ⟨hmem, hbest⟩ := ih best hs
      by_cases hle : rank best ≤ rank last
      · simp only [hs, if_pos hle, Option.mem_def, Option.some.injEq] at hfound
        subst hfound
        refine ⟨by simp, ?_⟩
        intro level hlevel
        rcases List.mem_append.1 hlevel with hold | hnew
        · exact (hbest level hold).trans hle
        · simp [List.mem_singleton.1 hnew]
      · simp only [hs, if_neg hle, Option.mem_def, Option.some.injEq] at hfound
        subst hfound
        refine ⟨by simp [hmem], ?_⟩
        intro level hlevel
        rcases List.mem_append.1 hlevel with hold | hnew
        · exact hbest level hold
        · rw [List.mem_singleton.1 hnew]
          omega

/-- A clamped effort is one that the model takes. -/
theorem mem_efforts_of_clampEffort {effort level : ReasoningEffort} {model : RouteModel}
    (h : clampEffort effort model = some level) : level ∈ model.efforts := by
  unfold clampEffort at h
  split_ifs at h with hempty hmem
  · rwa [← Option.some.inj h]
  · cases hs : strongest (model.efforts.filter fun candidate => rank candidate < rank effort) with
    | some found =>
      rw [hs, Option.some_or, Option.some.injEq] at h
      rw [← h]
      exact List.mem_of_mem_filter (strongest_spec _ found hs).1
    | none =>
      rw [hs] at h
      exact List.mem_of_head? h

/-- An effort is one that its model takes, or left to the provider. -/
def RoutedModel.Supported (routed : RoutedModel) : Prop :=
  ∀ level ∈ routed.effort, level ∈ routed.model.efforts

theorem RoutedModel.supported_clampEffort (effort : ReasoningEffort) (model : RouteModel) :
    (RoutedModel.mk model (clampEffort effort model)).Supported :=
  fun _ h => mem_efforts_of_clampEffort h

theorem provider_followUpModel {provider : ProviderId} {tier : AutoTier} {kind : TaskKind}
    {difficulty : Difficulty} {ui : Bool} {model : RouteModel} {effort : ReasoningEffort}
    (h : followUpModel provider tier kind difficulty ui = some (model, effort)) :
    model.provider = provider := by
  cases provider <;> simp only [followUpModel] at h
  all_goals try split_ifs at h
  all_goals simp only [Option.some.injEq, Prod.mk.injEq, reduceCtorEq] at h
  all_goals simp [← h.1, RouteModel.provider]

/-- A target is of the provider it was asked for, with an effort that its model takes. -/
theorem followUpTarget_spec {provider : ProviderId} {tier : AutoTier} {kind : TaskKind}
    {difficulty : Difficulty} {ui : Bool} {target : RoutedModel}
    (h : followUpTarget provider tier kind difficulty ui = some target) :
    target.model.provider = provider ∧ target.Supported := by
  unfold followUpTarget at h
  split_ifs at h with hcodex hclaude
  · rw [hcodex.2, ← Option.some.inj h]
    cases kind <;> cases difficulty <;> exact ⟨by decide, by unfold RoutedModel.Supported; decide⟩
  · rw [hclaude.2, ← Option.some.inj h]
    cases kind <;> cases difficulty <;> exact ⟨by decide, by unfold RoutedModel.Supported; decide⟩
  · rw [Option.map_eq_some_iff] at h
    obtain ⟨⟨model, effort⟩, hmodel, rfl⟩ := h
    exact ⟨provider_followUpModel hmodel, RoutedModel.supported_clampEffort effort model⟩

end Argmax.Routing
