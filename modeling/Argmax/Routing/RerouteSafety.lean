import Argmax.Routing.Reroute

/-!
# What a follow-up can do to a route

A decision keeps the route, climbs one rung, moves a DeepSeek chat to Sonnet, or moves to a
candidate: up on what the task needs, down on what a switch saves or by one level of effort.
Everything that holds of a decision is read off these six outcomes.

A DeepSeek chat that goes on is moved to Sonnet whatever its effort, so its strength can drop. A
route whose model belongs to another provider can come back to that model's provider.

## Main statements

* `followUpRoute_outcome`: there is a decision, and it is one of the outcomes.
* `followUp_safe`: what every decision keeps to.
-/

namespace Argmax.Routing

open Argmax.Providers
open Argmax.Providers.SendInput (AutoTier ReasoningEffort RouteDecisionKind)

variable {state : FollowUpState} {c : Classification} {d : FollowUpDecision}

/-! ## Strength -/

/-- A route's place in the order. -/
def RoutedModel.strength (routed : RoutedModel) : Option Strength :=
  Routing.strength routed.model.modelId routed.effort

theorem strength_eq {modelId : String} {model : RouteModel} (h : routeModel modelId = some model)
    (effort : Option ReasoningEffort) : strength modelId effort = strength model.modelId effort := by
  simp only [strength, capability_eq h]

theorem exists_strength (model : RouteModel) (effort : Option ReasoningEffort) :
    ∃ s, strength model.modelId effort = some s := by
  have hcap := (capability_isSome_iff model.modelId).2 (by simp)
  obtain ⟨n, hn⟩ := Option.isSome_iff_exists.1 hcap
  exact ⟨toLex (n, effort.elim 0 rank), by simp [strength, hn]⟩

theorem strength_eq_none_iff {modelId : String} {effort : Option ReasoningEffort} :
    strength modelId effort = none ↔ routeModel modelId = none := by
  rw [strength, Option.map_eq_none_iff, ← Option.not_isSome_iff_eq_none, capability_isSome_iff,
    Option.not_isSome_iff_eq_none]

/-- No strength of the second route is below one of the first. -/
def Keeps (before after : Option Strength) : Prop := ∀ a ∈ before, ∀ b ∈ after, a ≤ b

instance (before after : Option Strength) : Decidable (Keeps before after) :=
  inferInstanceAs (Decidable (∀ a ∈ before, ∀ b ∈ after, a ≤ b))

theorem Keeps.refl (s : Option Strength) : Keeps s s := by
  intro a ha b hb
  simp_all

theorem keeps_of_lt {a b : Strength} (h : a < b) : Keeps (some a) (some b) := by
  intro x hx y hy
  rw [Option.mem_def, Option.some.injEq] at hx hy
  rw [← hx, ← hy]
  exact h.le

/-! ## Ladders -/

/-- Each rung is a route of the table. -/
theorem supported_of_mem_rungs {tier : AutoTier} {provider : ProviderId} {rung : RoutedModel}
    (h : rung ∈ rungs tier provider) : rung.Supported := by
  have hall : ∀ rung ∈ rungs tier provider, ∀ level ∈ rung.effort, level ∈ rung.model.efforts := by
    cases tier <;> cases provider <;> decide
  exact hall rung h

/-- Rungs go up. -/
theorem isChain_rungs (tier : AutoTier) (provider : ProviderId) :
    (rungs tier provider).IsChain fun a b => Keeps a.strength b.strength := by
  cases tier <;> cases provider <;> decide

/-- Only a known model has a next rung, and that is a route of the table that is no weaker. -/
theorem nextRung_spec {rung : RoutedModel}
    (h : nextRung state.tier state.provider state.modelId state.effort state.available =
      some rung) :
    routeModel state.modelId ≠ none ∧ rung.Supported ∧
      Keeps (strength state.modelId state.effort) rung.strength := by
  rw [nextRung, Option.filter_eq_some_iff] at h
  obtain ⟨hnext, _⟩ := h
  split at hnext
  · rename_i index hindex
    -- The chat stands on a rung: the one above it.
    obtain ⟨hlt, hat⟩ := List.findIdx?_eq_some_iff_getElem.1 hindex |>.imp fun _ h => h.1
    obtain ⟨hlt', hget⟩ := List.getElem?_eq_some_iff.1 hnext
    have hchain := List.isChain_iff_getElem.1 (isChain_rungs state.tier state.provider) index hlt'
    rw [hget] at hchain
    simp only [Bool.and_eq_true, beq_iff_eq] at hat
    obtain ⟨hid, heffort⟩ := hat
    have hmodel : ∃ model, routeModel state.modelId = some model := by
      cases hm : routeModel state.modelId with
      | some model => exact ⟨model, rfl⟩
      | none =>
        have := routeModel_modelId ((rungs state.tier state.provider)[index]).model
        rw [hid] at this
        simp [hm] at this
    obtain ⟨model, hmodel⟩ := hmodel
    refine ⟨by simp [hmodel], supported_of_mem_rungs (hget ▸ List.getElem_mem hlt'), ?_⟩
    rw [strength_eq hmodel]
    rw [hmodel] at hid
    rwa [RoutedModel.strength, hid, heffort] at hchain
  · -- It stands between rungs: the first that is above it.
    rw [Option.bind_eq_some_iff] at hnext
    obtain ⟨current, hcurrent, hfind⟩ := hnext
    have habove := List.find?_some hfind
    have hmem := List.mem_of_find?_eq_some hfind
    obtain ⟨offered, hoffered⟩ := exists_strength rung.model rung.effort
    rw [hoffered, Option.any_some, decide_eq_true_eq] at habove
    cases hm : routeModel state.modelId with
    | none =>
      rw [hm, Option.elim_none, strength_eq_none_iff.2 hm] at hcurrent
      simp at hcurrent
    | some model =>
      rw [hm, Option.elim_some, ← strength_eq hm] at hcurrent
      refine ⟨by simp, supported_of_mem_rungs hmem, ?_⟩
      rw [hcurrent, RoutedModel.strength, hoffered]
      exact keeps_of_lt habove

/-! ## Candidates -/

theorem supported_of_resumed {target : RoutedModel} (h : resumed state c = some target) :
    target.model.provider = state.provider ∧ target.Supported := by
  rw [resumed, Option.filter_eq_some_iff, Option.map_eq_some_iff] at h
  obtain ⟨⟨resumeTarget, _, rfl⟩, hsame⟩ := h
  simp only [Bool.and_eq_true, beq_iff_eq] at hsame
  exact ⟨hsame.1.1.1, resumeTarget.supported⟩

variable {candidate : RoutedModel}

theorem orResumed_spec (hprovider : candidate.model.provider = state.provider)
    (hsupported : candidate.Supported) :
    (orResumed state c candidate).model.provider = state.provider ∧
      (orResumed state c candidate).Supported := by
  unfold orResumed
  split
  · rename_i target htarget
    split_ifs
    · exact supported_of_resumed htarget
    · exact ⟨hprovider, hsupported⟩
  · exact ⟨hprovider, hsupported⟩

/-- A candidate is of the chat's provider, or it is the chat's own model. -/
theorem candidateOf_spec {settled : TaskKind × Difficulty}
    (h : candidateOf state c settled = some candidate) :
    candidate.Supported ∧ (candidate.model.provider = state.provider ∨
      routeModel state.modelId = some candidate.model) := by
  rw [candidateOf, Option.map_eq_some_iff] at h
  obtain ⟨target, htarget, rfl⟩ := h
  have ⟨htarget₁, htarget₂⟩ := followUpTarget_spec htarget
  have ⟨hprovider, hsupported⟩ := orResumed_spec (c := c) htarget₁ htarget₂
  unfold orRetained
  split
  · exact ⟨hsupported, .inl hprovider⟩
  · rename_i current hcurrent
    dsimp only
    split_ifs
    · refine ⟨?_, .inr hcurrent⟩
      intro level hlevel
      obtain ⟨effort, _, hclamp⟩ := Option.bind_eq_some_iff.1 hlevel
      exact mem_efforts_of_clampEffort hclamp
    · exact ⟨hsupported, .inl hprovider⟩

/-! ## Moves down -/

/-- The two ids of a model cost the same. -/
theorem routePrice_eq {modelId : String} {model : RouteModel} (h : routeModel modelId = some model) :
    routePrice modelId = routePrice model.modelId := by
  rcases routeModel_eq_some h with rfl | ⟨rfl, rfl⟩ | ⟨rfl, rfl⟩
  · rfl
  · simp [routePrice, RouteModel.modelId]
  · simp [routePrice, RouteModel.modelId]

/-- Nothing is saved by a switch to the model that the chat already runs on. -/
theorem switchPaysBack_same (h : routeModel state.modelId = some candidate.model) :
    switchPaysBack state candidate c = false := by
  unfold switchPaysBack
  split_ifs
  · rfl
  · have hcost : costOf routePrice (forecast state c) state.modelId =
        costOf routePrice (forecast state c) candidate.model.modelId := by
      simp [costOf, routePrice_eq h]
    split
    · split_ifs
      · rfl
      · simp [hcost]
    · rfl

/-- The level that is taken is the next one down. -/
theorem oneStep_spec {model : RouteModel} {effort floor : Option ReasoningEffort}
    {lower : ReasoningEffort} (h : oneStep model effort floor = some lower) :
    ∃ current ∈ effort, lower ∈ model.efforts ∧ rank lower < rank current ∧
      ∀ level ∈ model.efforts, rank level < rank current → rank level ≤ rank lower := by
  unfold oneStep at h
  split at h
  · rename_i current floor
    have ⟨hmem, hmax⟩ := strongest_spec _ lower h
    rw [List.mem_filter, Bool.and_eq_true, decide_eq_true_eq, decide_eq_true_eq] at hmem
    have ⟨hlower, hbelow, hfloor⟩ := hmem
    refine ⟨current, rfl, hlower, hbelow, ?_⟩
    intro level hlevel hlt
    by_cases hfl : rank floor ≤ rank level
    · apply hmax
      simp [hlevel, hlt, hfl]
    · omega
  · simp at h

/-! ## Outcomes -/

/-- The chat's answer was not reported wrong, and it continues on DeepSeek. -/
def MovesToSonnet (state : FollowUpState) (c : Classification) : Prop :=
  c.correction.getD 0 < correctionThreshold ∧ continuesDeepseek state c = true

/-- The kind and the difficulty that the policy goes by. -/
def settledOf (c : Classification) : TaskKind × Difficulty := ((settle c).1, (settle c).2.1)

/-- What can become of a route. -/
inductive Outcome (state : FollowUpState) (c : Classification) : FollowUpDecision → Prop
  | stay (reason : String) : Outcome state c (kept state c (settledOf c) reason)
  | climb (rung : RoutedModel) (reason : String)
      (next : nextRung state.tier state.provider state.modelId state.effort state.available =
        some rung) :
      Outcome state c (decisionFrom state rung c (settledOf c) .escalate reason)
  | sonnet (reason : String) (moves : MovesToSonnet state c) :
      Outcome state c (decisionFrom state ⟨.sonnet, some .medium⟩ c (settledOf c) .reroute reason)
  | up (candidate : RoutedModel) (reason : String) (current offered : Strength)
      (target : candidateOf state c (settledOf c) = some candidate)
      (now : strength state.modelId state.effort = some current)
      (next : candidate.strength = some offered) (above : current < offered) :
      Outcome state c (decisionFrom state candidate c (settledOf c) .reroute reason)
  | down (candidate : RoutedModel) (reason : String)
      (target : candidateOf state c (settledOf c) = some candidate)
      (known : routeModel state.modelId ≠ none) (safe : state.downgradeSafe = true)
      (sure : modelDown ≤ downEvidence c (settledOf c).2)
      (pays : switchPaysBack state candidate c = true) :
      Outcome state c (decisionFrom state candidate c (settledOf c) .reroute reason)
  | lower (model : RouteModel) (floor : Option ReasoningEffort) (level : ReasoningEffort)
      (reason : String) (same : routeModel state.modelId = some model)
      (safe : state.downgradeSafe = true) (sure : effortDown ≤ downEvidence c (settledOf c).2)
      (step : oneStep model state.effort floor = some level) :
      Outcome state c (decisionFrom state ⟨model, some level⟩ c (settledOf c) .reroute reason)

theorem moveUp_outcome {current offered : Strength}
    (target : candidateOf state c (settledOf c) = some candidate)
    (now : strength state.modelId state.effort = some current)
    (next : candidate.strength = some offered) (above : current < offered) (reason : String) :
    Outcome state c (moveUp state c (settledOf c) candidate reason) := by
  unfold moveUp
  split_ifs
  · exact .up candidate _ current offered target now next above
  · dsimp only
    split_ifs
    · exact .up candidate _ current offered target now next above
    · exact .stay _
  · dsimp only
    split_ifs
    · exact .up candidate _ current offered target now next above
    · exact .stay _

theorem moveDown_outcome (target : candidateOf state c (settledOf c) = some candidate)
    (known : routeModel state.modelId ≠ none) (reason : String) :
    ∃ d, moveDown state c (settledOf c) candidate reason = some d ∧ Outcome state c d := by
  obtain ⟨model, hmodel⟩ := Option.ne_none_iff_exists'.1 known
  unfold moveDown
  by_cases hsafe : state.downgradeSafe = true
  · rw [if_neg (by simp [hsafe])]
    dsimp only
    by_cases hswitch : candidate.model.modelId ≠ state.modelId ∧
        modelDown ≤ downEvidence c (settledOf c).2 ∧ switchPaysBack state candidate c = true
    · rw [if_pos hswitch]
      exact ⟨_, rfl, .down candidate _ target known hsafe hswitch.2.1 hswitch.2.2⟩
    · rw [if_neg hswitch, hmodel, Option.map_some]
      refine ⟨_, rfl, ?_⟩
      split
      · exact .stay _
      · rename_i level hlevel
        split_ifs with hsure
        · exact .stay _
        · exact .lower model _ level _ hmodel hsafe (not_lt.1 hsure) hlevel
  · rw [if_pos (by simp [hsafe])]
    exact ⟨_, rfl, .stay _⟩

theorem weigh_outcome (target : candidateOf state c (settledOf c) = some candidate)
    (reason : String) :
    ∃ d, weigh state c (settledOf c) candidate reason = some d ∧ Outcome state c d := by
  unfold weigh
  split_ifs
  · exact ⟨_, rfl, .stay _⟩
  · split
    · exact ⟨_, rfl, .stay _⟩
    · rename_i current hcurrent
      obtain ⟨offered, hoffered⟩ := exists_strength candidate.model candidate.effort
      rw [hoffered, Option.bind_some]
      split_ifs with habove
      · exact ⟨_, rfl, moveUp_outcome target hcurrent hoffered habove reason⟩
      · apply moveDown_outcome target
        intro hnone
        simp [strength_eq_none_iff.2 hnone] at hcurrent

theorem correct_outcome (summary : String) :
    Outcome state c (correct state c (settledOf c) summary) := by
  unfold correct
  split
  · rename_i rung hrung
    exact .climb rung _ hrung
  · exact .stay _

/-- No `expect` is reached, and there are no other outcomes. -/
theorem followUpRoute_outcome (state : FollowUpState) (c : Classification) :
    ∃ d, followUpRoute state c = some d ∧ Outcome state c d := by
  unfold followUpRoute
  dsimp only
  by_cases hcorrection : correctionThreshold ≤ c.correction.getD 0
  · rw [if_pos hcorrection]
    exact ⟨_, rfl, correct_outcome _⟩
  · rw [if_neg hcorrection]
    by_cases hcontinues : continuesDeepseek state c = true
    · rw [if_pos hcontinues]
      exact ⟨_, rfl, .sonnet _ ⟨not_le.1 hcorrection, hcontinues⟩⟩
    · rw [if_neg hcontinues]
      split
      · exact ⟨_, rfl, .stay _⟩
      · rename_i candidate hcandidate
        exact weigh_outcome hcandidate _

/-! ## What every decision keeps to -/

/-- A route of the table with an effort that its model takes. -/
def Offered (d : FollowUpDecision) : Prop :=
  ∃ model : RouteModel, d.provider = model.provider ∧ d.modelId = model.modelId ∧
    d.modelLabel = model.label ∧ ∀ level ∈ d.effort, level ∈ model.efforts

/-- The route of the chat, as it is. -/
def Stays (state : FollowUpState) (d : FollowUpDecision) : Prop :=
  d.decision = .kept ∧ d.provider = state.provider ∧ d.modelId = state.modelId ∧
    d.effort = state.effort

/-- The context is not all there, or too little speaks for a move down. -/
def Unproven (state : FollowUpState) (c : Classification) : Prop :=
  state.downgradeSafe = false ∨ downEvidence c (settledOf c).2 < effortDown

/-- The strength does not drop. -/
def KeepsStrength (state : FollowUpState) (d : FollowUpDecision) : Prop :=
  Keeps (strength state.modelId state.effort) (strength d.modelId d.effort)

/-- Weaker on the same model means the next supported level down. -/
def StepsOnce (state : FollowUpState) (d : FollowUpDecision) : Prop :=
  ∀ model, routeModel state.modelId = some model → routeModel d.modelId = some model →
    ¬ KeepsStrength state d →
      ∃ current ∈ state.effort, ∃ lower ∈ d.effort, lower ∈ model.efforts ∧
        rank lower < rank current ∧
        ∀ level ∈ model.efforts, rank level < rank current → rank level ≤ rank lower

@[simp] theorem keepsStrength_kept (settled : TaskKind × Difficulty) (reason : String) :
    KeepsStrength state (kept state c settled reason) := Keeps.refl _

theorem offered_decisionFrom {routed : RoutedModel} (h : routed.Supported)
    (settled : TaskKind × Difficulty) (decision : RouteDecisionKind) (reason : String) :
    Offered (decisionFrom state routed c settled decision reason) :=
  ⟨routed.model, rfl, rfl, rfl, h⟩

theorem Outcome.stays_or_offered (h : Outcome state c d) : Stays state d ∨ Offered d := by
  cases h with
  | stay => exact .inl ⟨rfl, rfl, rfl, rfl⟩
  | climb rung _ next => exact .inr (offered_decisionFrom (nextRung_spec next).2.1 _ _ _)
  | sonnet =>
    right
    apply offered_decisionFrom
    unfold RoutedModel.Supported
    decide
  | up candidate _ _ _ target => exact .inr (offered_decisionFrom (candidateOf_spec target).1 _ _ _)
  | down candidate _ target => exact .inr (offered_decisionFrom (candidateOf_spec target).1 _ _ _)
  | lower model floor level _ _ _ _ step =>
    right
    apply offered_decisionFrom
    intro taken htaken
    obtain ⟨_, _, hmem, _⟩ := oneStep_spec step
    rwa [← Option.some.inj htaken]

theorem Outcome.stays_of_unknown (h : Outcome state c d) (hunknown : routeModel state.modelId = none) :
    Stays state d := by
  cases h with
  | stay => exact ⟨rfl, rfl, rfl, rfl⟩
  | climb _ _ next => exact absurd hunknown (nextRung_spec next).1
  | sonnet _ moves => simp [MovesToSonnet, continuesDeepseek, hunknown] at moves
  | up _ _ _ _ _ now => simp [strength_eq_none_iff.2 hunknown] at now
  | down _ _ _ known => exact absurd hunknown known
  | lower _ _ _ _ same => simp [hunknown] at same

theorem Outcome.keepsStrength (h : Outcome state c d) (hsonnet : ¬ MovesToSonnet state c)
    (hunproven : Unproven state c) : KeepsStrength state d := by
  cases h with
  | stay => exact keepsStrength_kept _ _
  | climb _ _ next => exact (nextRung_spec next).2.2
  | sonnet _ moves => exact absurd moves hsonnet
  | up candidate _ _ _ _ now next above =>
    have hkeeps := keeps_of_lt above
    rwa [← now, ← next] at hkeeps
  | down _ _ _ _ safe sure =>
    have hlt : effortDown < modelDown := by norm_num [effortDown, modelDown]
    rcases hunproven with hunsafe | hlow
    · simp [safe] at hunsafe
    · exact absurd (hlt.trans_le sure) hlow.not_gt
  | lower _ _ _ _ _ safe sure =>
    rcases hunproven with hunsafe | hlow
    · simp [safe] at hunsafe
    · exact absurd hlow sure.not_gt

theorem Outcome.stepsOnce (h : Outcome state c d) : StepsOnce state d := by
  intro model hmodel hafter hdrop
  cases h with
  | stay => exact absurd (keepsStrength_kept _ _) hdrop
  | climb _ _ next => exact absurd (nextRung_spec next).2.2 hdrop
  | sonnet _ moves =>
    -- A DeepSeek model is not Sonnet.
    have hdeepseek : routeModel state.modelId = some .deepseek := by
      have := moves.2
      simp only [continuesDeepseek, Bool.and_eq_true, beq_iff_eq] at this
      exact this.1.1.1.2
    have hsonnet : routeModel RouteModel.sonnet.modelId = some model := hafter
    rw [hdeepseek, ← hsonnet] at hmodel
    simp at hmodel
  | up candidate _ _ _ _ now next above =>
    have hkeeps := keeps_of_lt above
    rw [← now, ← next] at hkeeps
    exact absurd hkeeps hdrop
  | down candidate _ _ _ _ _ pays =>
    have hsame : routeModel candidate.model.modelId = some model := hafter
    rw [routeModel_modelId] at hsame
    rw [← hsame] at hmodel
    simp [switchPaysBack_same hmodel] at pays
  | lower taken floor level _ same _ _ step =>
    obtain ⟨current, hcurrent, hmem, hlt, hnext⟩ := oneStep_spec step
    rw [hmodel, Option.some.injEq] at same
    subst same
    exact ⟨current, hcurrent, level, rfl, hmem, hlt, hnext⟩

/-- A provider is left by an escalation or for Sonnet, or for the one that the model is of. -/
theorem Outcome.provider (h : Outcome state c d) (hleft : d.provider ≠ state.provider) :
    d.decision = .escalate ∨ MovesToSonnet state c ∨
      ∃ model, routeModel state.modelId = some model ∧ model.provider = d.provider := by
  have hcandidate : ∀ {candidate : RoutedModel} {reason : String},
      candidateOf state c (settledOf c) = some candidate →
      (decisionFrom state candidate c (settledOf c) .reroute reason).provider ≠ state.provider →
      ∃ model, routeModel state.modelId = some model ∧ model.provider = candidate.model.provider := by
    intro candidate reason target hleft
    rcases (candidateOf_spec target).2 with hprovider | hmodel
    · exact absurd hprovider hleft
    · exact ⟨candidate.model, hmodel, rfl⟩
  cases h with
  | stay => exact absurd rfl hleft
  | climb => exact .inl rfl
  | sonnet _ moves => exact .inr (.inl moves)
  | up _ _ _ _ target => exact .inr (.inr (hcandidate target hleft))
  | down _ _ target => exact .inr (.inr (hcandidate target hleft))
  | lower model _ _ _ same => exact .inr (.inr ⟨model, same, rfl⟩)

/-- There is a decision for every route and classification. It keeps the route or is one that the
table offers; an unknown model is kept; without proof the strength only drops where a DeepSeek
chat goes on; on the same model it drops by one level; and the provider changes on an escalation,
for such a chat, or back to the provider of the chat's model. -/
theorem followUp_safe (state : FollowUpState) (c : Classification) :
    ∃ d, followUpRoute state c = some d ∧ (Stays state d ∨ Offered d) ∧
      (routeModel state.modelId = none → Stays state d) ∧
      (¬ MovesToSonnet state c → Unproven state c → KeepsStrength state d) ∧
      StepsOnce state d ∧
      (d.provider ≠ state.provider → d.decision = .escalate ∨ MovesToSonnet state c ∨
        ∃ model, routeModel state.modelId = some model ∧ model.provider = d.provider) := by
  obtain ⟨d, hd, outcome⟩ := followUpRoute_outcome state c
  exact ⟨d, hd, outcome.stays_or_offered, outcome.stays_of_unknown, outcome.keepsStrength,
    outcome.stepsOnce, outcome.provider⟩

/-! ## Where the exceptions are met -/

instance (state : FollowUpState) (c : Classification) : Decidable (Unproven state c) :=
  inferInstanceAs (Decidable (_ ∨ _))

instance (state : FollowUpState) (d : FollowUpDecision) : Decidable (KeepsStrength state d) :=
  inferInstanceAs (Decidable (Keeps _ _))

/-- A chat whose context is not all there. -/
def truncatedChat (provider : ProviderId) (modelId : String) (effort : ReasoningEffort) :
    FollowUpState where
  tier := .balanced
  provider := provider
  modelId := modelId
  effort := some effort
  available := []
  contextTokens := 168000
  lastTurn := ⟨2000, 2500, 737000, 14000⟩
  downgradeSafe := false
  resumeTarget := none
  idle := none

/-- A task that goes on with the last one. -/
def followOn (kind : TaskKind) (score : ℚ) : Classification where
  kind := kind
  kindConfidence := 9 / 10
  kindProbabilities := none
  difficultyScore := score
  difficultyConfidence := 9 / 10
  levelProbabilities := none
  correction := some (1 / 5)
  followUpScope := some .continuation
  scopeConfidence := some (9 / 10)
  simplerTask := some (9 / 10)
  resumeRoute := none
  resumeConfidence := none
  ui := none

/-- A DeepSeek chat loses effort without proof, a Codex chat on a Claude model is moved to Claude
without an escalation, and an effort that the model does not take is kept. -/
theorem followUp_exceptions :
    (¬ ∀ state c, ∀ d ∈ followUpRoute state c, Unproven state c → KeepsStrength state d) ∧
    (¬ ∀ state c, ∀ d ∈ followUpRoute state c, d.provider ≠ state.provider →
      d.decision = .escalate ∨ continuesDeepseek state c = true) ∧
    ¬ ∀ state c, ∀ d ∈ followUpRoute state c, routeModel state.modelId ≠ none → Offered d := by
  refine ⟨fun h => ?_, fun h => ?_, fun h => ?_⟩
  · let state := truncatedChat .opencode RouteModel.deepseek.modelId .high
    have hdrops : ∃ d ∈ followUpRoute state (followOn .question (1 / 2)),
        Unproven state (followOn .question (1 / 2)) ∧ ¬ KeepsStrength state d := by
      decide +kernel
    obtain ⟨d, hd, hunproven, hdrop⟩ := hdrops
    exact hdrop (h _ _ d hd hunproven)
  · let state := truncatedChat .codex RouteModel.fable.modelId .low
    have hmoves : ∃ d ∈ followUpRoute state (followOn .coding 2), d.provider ≠ state.provider ∧
        ¬ (d.decision = .escalate ∨ continuesDeepseek state (followOn .coding 2) = true) := by
      decide +kernel
    obtain ⟨d, hd, hleft, hneither⟩ := hmoves
    exact hneither (h _ _ d hd hleft)
  · let state := truncatedChat .claude RouteModel.opus.modelId .ultra
    have hkeeps : ∃ d ∈ followUpRoute state (followOn .coding 2),
        d.modelId = RouteModel.opus.modelId ∧ d.effort = some .ultra := by
      decide +kernel
    obtain ⟨d, hd, hid, heffort⟩ := hkeeps
    obtain ⟨model, _, hmodel, _, hsupported⟩ := h _ _ d hd (by decide)
    have hmem := hsupported .ultra heffort
    have hopus : RouteModel.opus = model := by
      have hof := routeModel_modelId model
      rwa [← hmodel, hid, routeModel_modelId, Option.some.injEq] at hof
    rw [← hopus] at hmem
    revert hmem
    decide

end Argmax.Routing
