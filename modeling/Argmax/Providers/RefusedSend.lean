import Argmax.Providers.ForkPlanRows
import Argmax.Providers.SendInput

/-!
# What a refused send leaves

A send of an idle chat writes the provider or the model, the route and the mode before it has
checked all that may refuse it. So a refused send leaves the chat as it was only where nothing
refuses it behind the first of its writes that shows: with agents of the message that the
conversation does not have, a chat that moves to another provider stays there.
-/

namespace Argmax.Providers.SendInput

open Argmax.Lib Argmax.Lib.Step Argmax.Persistence

/-! ## What is observed -/

/-- What a chat shows of itself. -/
structure Observed where
  provider : String
  modelLabel : String
  modelId : String
  reasoningEffort : Option String
  agentMode : Option String
  autoTier : Option String
  autoRoute : Option String
  routes : List RouteDecision
  state : String
  transcript : List EventRow

def transcript (rows : ForkPlan.State) : List EventRow :=
  rows.events.rows.filter fun event => event.sessionId == rows.child.id

def observe (chat : Chat) : Observed where
  provider := chat.provider
  modelLabel := chat.modelLabel
  modelId := chat.modelId
  reasoningEffort := chat.reasoningEffort
  agentMode := chat.agentMode
  autoTier := chat.autoTier
  autoRoute := chat.autoRoute
  routes := chat.routes
  state := chat.rows.child.state
  transcript := transcript chat.rows

/-! ## Writes -/

/-- The chat with an event, if its id is free. -/
def Chat.persisted (chat : Chat) (event : Continuity.NewEvent) : Chat :=
  match ForkPlan.persistEvent chat.rows chat.id event with
  | some rows => { chat with rows := rows }
  | none => chat

section Writes

variable (world : World) (chat : Chat)

/-- The chat behind `moveModel`. -/
def Chat.moved (follow : Follow) : Chat :=
  match parseProvider chat.provider with
  | .error _ => chat
  | .ok current =>
    match follow.switched current, follow.modelLabel, follow.modelId with
    | some requested, some modelLabel, some modelId =>
      ((chat.parked world).withProvider world requested modelLabel modelId
        follow.reasoningEffort).persisted (switchEvent world current requested modelLabel)
    | none, some modelLabel, some modelId =>
      chat.withModel world modelLabel modelId follow.reasoningEffort
    | _, _, _ => chat

/-- The chat behind `recordRoute`. -/
def Chat.routed : Option RouteDecision → Chat
  | none => chat
  | some route => (chat.withRoute route).withAutoTier route

/-- The chat behind `setAgentMode`. -/
def Chat.inMode (agentMode : AgentMode) : Chat :=
  if chat.agentMode = some agentMode.asStr then chat
  else chat.withAgentMode world agentMode

/-- The chat behind `inferConversation`. -/
def Chat.inferred (switched : Bool) (provider : ProviderId) : Chat :=
  if chat.infers switched provider then
    if !chat.rows.child.bindings.rows.any fun binding => binding.provider == "cursor" then
      match world.inferred with
      | some conversationId => chat.withConversation world conversationId
      | none => chat
    else chat
  else chat

end Writes

/-! ## Steps -/

section Steps

variable (world : World)

def World.check (point : Point) : Step := .check (world.refuses point).isSome

/-- A step that refuses by its own answer. -/
def answer {α : Type} (x : ArgmaxResult α) : Step := .check !x.toBool

def persistSteps (point : Point) (chat : Chat) (event : Continuity.NewEvent) : List Step :=
  [world.check point, .check (ForkPlan.persistEvent chat.rows chat.id event).isNone, .write true]

/-- The model that is named is another one. -/
def otherModel (chat : Chat) (modelLabel modelId : String) (effort : Option ReasoningEffort) :
    Bool :=
  chat.modelLabel != modelLabel || chat.modelId != modelId ||
    chat.reasoningEffort != effort.map (·.asStr)

def moveSteps (chat : Chat) (follow : Follow) : List Step :=
  match parseProvider chat.provider with
  | .error _ => [.check true]
  | .ok current => .check false ::
    match follow.switched current, follow.modelLabel, follow.modelId with
    | some requested, some modelLabel, some modelId =>
      [world.check .parkActive, world.check .updateSessionProvider, .write true,
        world.check .readSwitched] ++
        persistSteps world .persistSwitch
          ((chat.parked world).withProvider world requested modelLabel modelId
            follow.reasoningEffort) (switchEvent world current requested modelLabel)
    | some _, _, _ => [.check true]
    | none, some modelLabel, some modelId =>
      [world.check .updateSessionModel,
        .write (otherModel chat modelLabel modelId follow.reasoningEffort),
        world.check .readModel]
    | none, _, _ => []

def routeSteps : Option RouteDecision → List Step
  | none => []
  | some _ => [world.check .insertRoute, .write true, world.check .updateAutoTier, .write true]

def modeSteps (chat : Chat) (agentMode : AgentMode) : List Step :=
  if chat.agentMode = some agentMode.asStr then []
  else [world.check .updateAgentMode, .write true, world.check .readAgentMode]

def inferSteps (chat : Chat) (switched : Bool) (provider : ProviderId) : List Step :=
  if chat.infers switched provider then [world.check .inferConversation] else []

def referenceSteps (chat : Chat) (follow : Follow) : List Step :=
  if follow.agentReferences.isEmpty then []
  else [world.check .hasCurrentNativeAgentIdentity,
    answer (agentReferencePrompt world.library chat "" follow.agentReferences)]

def promptSteps (chat : Chat) (follow : Follow) (plan : ForkPlan.LaunchPlan) : List Step :=
  let message := String.ofList follow.message
  [world.check .composeFollowUpPrompt,
    answer (FollowUp.composeFollowUpPromptSince world.jsonText chat.rows.events chat.id message
      plan.resumeConversationId.isSome plan.sinceEventId)] ++
    referenceSteps world chat follow ++
    (if plan.needsFallbackPrompt && follow.agentReferences.isEmpty then
      [answer (FollowUp.composeFollowUpPromptSince world.jsonText chat.rows.events chat.id message
        false none)]
    else []) ++
    [world.check .resultsPreamble]

def storeSteps (chat : Chat) (follow : Follow) : List Step :=
  persistSteps world .persistUserMessage chat
      ⟨world.userEventId, "user.message", String.ofList follow.message, follow.payload⟩ ++
    [world.check .updateSessionState, .write (chat.rows.child.state != "running"),
      world.check .readRunning, world.check .updateWorkspaceState,
      world.check .listProjects, world.check .claimEntry]

/-- The steps behind the writes to the session, where its rows can be read. -/
def launchSteps (chat : Chat) (follow : Follow) (switched : Bool) : List Step :=
  match parseProvider chat.provider with
  | .error _ => [.check true]
  | .ok provider => .check false ::
    match parsePermissionMode chat.permissionMode with
    | .error _ => [.check true]
    | .ok permissionMode =>
      let chat' := chat.inferred world switched provider
      let planned := ForkPlan.planLaunch chat'.rows (providerText provider) switched world.freshId
        world.now
      let planning := { chat' with rows := planned.1 }
      [.check false, answer (ensurePermissionModeSupported provider permissionMode)] ++
        inferSteps world chat switched provider ++
        [world.check .planLaunch] ++
        promptSteps world planning follow planned.2 ++
        storeSteps world planning follow

/-- The follow-up moves the chat to another provider. -/
def switches (chat : Chat) (follow : Follow) : Bool :=
  match parseProvider chat.provider with
  | .error _ => false
  | .ok current => (follow.switched current).isSome

/-- The checks and the writes of a send, by the chat and the follow-up. -/
def relaunchSteps (chat : Chat) (follow : Follow) (route : Option RouteDecision) : List Step :=
  [world.check (.lockSendGeneration 3), world.check (.findSession 3),
      world.check (.findWorkspace 1)] ++
    moveSteps world chat follow ++
    routeSteps world route ++
    modeSteps world ((chat.moved world follow).routed route) (turnMode follow chat) ++
    launchSteps world
      (((chat.moved world follow).routed route).inMode world (turnMode follow chat)) follow
      (switches chat follow)

end Steps

variable {event : Continuity.NewEvent} {u : Unit} {follow : Follow}

/-! ## One write after another -/

section Phases

variable {world : World} {chat chat' : Chat} {seen : Observed} {shown : Bool}

/-- The transcript is no shorter than it was seen. -/
def Kept (seen : Observed) (chat : Chat) : Prop :=
  seen.transcript.length ≤ (observe chat).transcript.length

/-- The transcript is longer than it was seen. -/
def Longer (seen : Observed) (chat : Chat) : Prop :=
  seen.transcript.length < (observe chat).transcript.length

theorem Longer.observe_ne (h : Longer seen chat) : observe chat ≠ seen := by
  intro heq
  rw [Longer, heq] at h
  omega

/-- A stored event lengthens the transcript. -/
theorem length_transcript {rows : ForkPlan.State}
    (h : ForkPlan.persistEvent chat.rows chat.id event = some rows) :
    (transcript rows).length = (transcript chat.rows).length + 1 := by
  have ⟨events, hevents, hrows⟩ := Option.map_eq_some_iff.mp h
  have ⟨_, hpush⟩ := Table.insert?_eq_some.mp hevents
  subst hrows hpush
  simp [transcript, Table.push]

theorem persisted_of_some {rows : ForkPlan.State}
    (h : ForkPlan.persistEvent chat.rows chat.id event = some rows) :
    chat.persisted event = { chat with rows := rows } := by
  rw [Chat.persisted, h]

theorem longer_persisted {rows : ForkPlan.State}
    (h : ForkPlan.persistEvent chat.rows chat.id event = some rows) (hkept : Kept seen chat) :
    Longer seen { chat with rows := rows } := by
  have hlength := length_transcript h
  simp only [Kept, Longer, observe] at hkept ⊢
  omega

theorem follows_persist (h : observe chat = seen ↔ shown = false) (hkept : Kept seen chat)
    (point : Point) (event : Continuity.NewEvent) :
    Follows observe seen shown (persist world point event) chat
      (persistSteps world point chat event) := by
  refine .check_bind h fun _ => .get_bind ?_
  cases hstored : ForkPlan.persistEvent chat.rows chat.id event with
  | none => exact ⟨rfl, h⟩
  | some rows =>
    have hne := (longer_persisted hstored hkept).observe_ne
    exact ⟨rfl, by simpa [trace, Proc.modify] using hne⟩

theorem persist_eq_ok {point : Point} (h : (persist world point event).run chat = (chat', .ok u)) :
    ∃ rows, ForkPlan.persistEvent chat.rows chat.id event = some rows ∧
      chat' = { chat with rows := rows } := by
  simp only [persist, Proc.bind_eq_ok, World.pass, Proc.check_eq_ok] at h
  obtain ⟨_, _, ⟨rfl, _⟩, _, _, ⟨rfl, rfl⟩, h⟩ := h
  cases hstored : ForkPlan.persistEvent chat.rows chat.id event with
  | none => simp [hstored, Proc.lift_eq_ok] at h
  | some rows =>
    simp only [hstored, Proc.modify_eq_ok] at h
    exact ⟨rows, rfl, h.symm⟩

theorem providerText_of_parse {value : String} {provider : ProviderId}
    (h : parseProvider value = .ok provider) : value = providerText provider := by
  unfold parseProvider at h
  repeat' split at h
  all_goals cases h
  all_goals assumption

theorem providerText_injective : Function.Injective providerText := by
  intro provider provider' h
  revert h
  cases provider <;> cases provider' <;> decide

@[simp] theorem observe_parked : observe (chat.parked world) = observe chat := rfl

/-- A chat that moves to another provider shows it. -/
theorem observe_withProvider_ne (world : World) {current requested : ProviderId}
    (hcurrent : parseProvider chat.provider = .ok current)
    (hswitched : follow.switched current = some requested) (modelLabel modelId : String)
    (effort : Option ReasoningEffort) :
    observe ((chat.parked world).withProvider world requested modelLabel modelId effort) ≠
      observe chat := by
  intro heq
  have hprovider : providerText requested = chat.provider := congrArg Observed.provider heq
  rw [providerText_of_parse hcurrent] at hprovider
  have hrequested := providerText_injective hprovider
  have hother := (Option.filter_eq_some_iff.mp hswitched).2
  simp [hrequested] at hother

theorem observe_withModel {modelLabel modelId : String} {effort : Option ReasoningEffort} :
    observe (chat.withModel world modelLabel modelId effort) = observe chat ↔
      otherModel chat modelLabel modelId effort = false := by
  simp only [observe, Chat.withModel, otherModel, Observed.mk.injEq, Bool.or_eq_false_iff,
    bne_eq_false_iff_eq, and_true, true_and]
  constructor
  · rintro ⟨hlabel, hid, heffort⟩
    exact ⟨⟨hlabel.symm, hid.symm⟩, heffort.symm⟩
  · rintro ⟨⟨hlabel, hid⟩, heffort⟩
    exact ⟨hlabel.symm, hid.symm, heffort.symm⟩

theorem follows_moveModel (world : World) (follow : Follow) (chat : Chat) :
    Follows observe (observe chat) false (moveModel world follow) chat
      (moveSteps world chat follow) := by
  have hseen : observe chat = observe chat ↔ false = false := by simp
  rw [moveSteps]
  refine .get_bind ?_
  cases hcurrent : parseProvider chat.provider with
  | error e => exact ⟨rfl, hseen⟩
  | ok current =>
    refine .lift_bind hseen fun current' hcurrent' => ?_
    cases hcurrent'
    cases hswitched : follow.switched current with
    | none =>
      cases hlabel : follow.modelLabel with
      | none => exact follows_pure hseen _
      | some modelLabel =>
        cases hid : follow.modelId with
        | none => exact follows_pure hseen _
        | some modelId =>
          refine .check_bind hseen fun _ => .modify_bind ?_
          exact .check_bind observe_withModel fun _ => follows_pure observe_withModel _
    | some requested =>
      cases hlabel : follow.modelLabel with
      | none => exact ⟨rfl, hseen⟩
      | some modelLabel =>
        cases hid : follow.modelId with
        | none => exact ⟨rfl, hseen⟩
        | some modelId =>
          have hne := observe_withProvider_ne world hcurrent hswitched modelLabel modelId
            follow.reasoningEffort
          refine .check_bind hseen fun _ => .quiet_bind ?_
          refine .check_bind (by simp) fun _ => .modify_bind ?_
          refine .check_bind (by simpa using hne) fun _ => ?_
          have hkept : Kept (observe chat) ((chat.parked world).withProvider world requested
              modelLabel modelId follow.reasoningEffort) := Nat.le_refl _
          exact (follows_persist (by simpa using hne) hkept _ _).bind_pure fun _ => true

theorem moveModel_eq_ok {switched : Bool}
    (h : (moveModel world follow).run chat = (chat', .ok switched)) :
    chat' = chat.moved world follow ∧ switched = switches chat follow := by
  simp only [moveModel, Proc.bind_eq_ok, Proc.lift_eq_ok] at h
  obtain ⟨_, _, ⟨rfl, rfl⟩, current, _, ⟨rfl, hcurrent⟩, h⟩ := h
  simp only [Chat.moved, switches, hcurrent]
  cases hswitched : follow.switched current with
  | none =>
    cases hlabel : follow.modelLabel with
    | none =>
      simp only [hswitched, hlabel, Proc.pure_eq_ok] at h
      exact ⟨h.1.symm, h.2.symm⟩
    | some modelLabel =>
      cases hid : follow.modelId with
      | none =>
        simp only [hswitched, hlabel, hid, Proc.pure_eq_ok] at h
        exact ⟨h.1.symm, h.2.symm⟩
      | some modelId =>
        simp only [hswitched, hlabel, hid, World.pass, Proc.bind_eq_ok, Proc.check_eq_ok,
          Proc.modify_eq_ok] at h
        obtain ⟨_, _, ⟨rfl, _⟩, _, _, rfl, _, _, ⟨rfl, _⟩, rfl, rfl⟩ := h
        exact ⟨rfl, rfl⟩
  | some requested =>
    cases hlabel : follow.modelLabel with
    | none => simp [hswitched, hlabel, Proc.lift_eq_ok] at h
    | some modelLabel =>
      cases hid : follow.modelId with
      | none => simp [hswitched, hid, Proc.lift_eq_ok] at h
      | some modelId =>
        simp only [hswitched, hlabel, hid, World.pass, Proc.bind_eq_ok, Proc.check_eq_ok,
          Proc.modify_eq_ok] at h
        obtain ⟨_, _, ⟨rfl, _⟩, _, _, rfl, _, _, ⟨rfl, _⟩, _, _, rfl, _, _, ⟨rfl, _⟩, _, _,
          hpersist, rfl, rfl⟩ := h
        have ⟨rows, hstored, hrows⟩ := persist_eq_ok hpersist
        exact ⟨hrows.trans (persisted_of_some hstored).symm, rfl⟩

theorem follows_recordRoute (h : observe chat = seen ↔ shown = false)
    (hroutes : seen.routes.length ≤ chat.routes.length) (route : Option RouteDecision) :
    Follows observe seen shown (recordRoute world route) chat (routeSteps world route) := by
  cases route with
  | none => exact follows_pure h _
  | some route =>
    have hne (chat' : Chat) (hroutes' : chat'.routes = chat.routes ++ [route]) :
        observe chat' ≠ seen := by
      intro heq
      have hlength : seen.routes.length = chat.routes.length + 1 := by
        rw [← heq]
        simp [observe, hroutes']
      omega
    refine .check_bind h fun _ => .modify_bind (.check_bind ?_ fun _ => follows_modify ?_)
    · simpa using hne (chat.withRoute route) rfl
    · have hroutes' : ((chat.withRoute route).withAutoTier route).routes =
          chat.routes ++ [route] := by
        rw [Chat.withAutoTier]
        split <;> rfl
      simpa using hne _ hroutes'

theorem recordRoute_eq_ok {route : Option RouteDecision}
    (h : (recordRoute world route).run chat = (chat', .ok u)) : chat' = chat.routed route := by
  cases route with
  | none =>
    simp only [recordRoute, Proc.pure_eq_ok] at h
    exact h.1.symm
  | some route =>
    simp only [recordRoute, World.pass, Proc.bind_eq_ok, Proc.check_eq_ok, Proc.modify_eq_ok] at h
    obtain ⟨_, _, ⟨rfl, _⟩, _, _, rfl, _, _, ⟨rfl, _⟩, rfl⟩ := h
    rfl

theorem follows_setAgentMode (h : observe chat = seen ↔ shown = false)
    (hmode : seen.agentMode = chat.agentMode) (agentMode : AgentMode) :
    Follows observe seen shown (setAgentMode world agentMode) chat
      (modeSteps world chat agentMode) := by
  rw [modeSteps]
  refine .get_bind ?_
  split
  case isTrue => exact follows_pure h _
  case isFalse hother =>
    have hne : observe (chat.withAgentMode world agentMode) ≠ seen := by
      intro heq
      have hsame : some agentMode.asStr = seen.agentMode := congrArg Observed.agentMode heq
      exact hother (hmode.symm.trans hsame.symm)
    refine .check_bind h fun _ => .modify_bind ?_
    exact follows_check (by simpa using hne) _

theorem setAgentMode_eq_ok {agentMode : AgentMode}
    (h : (setAgentMode world agentMode).run chat = (chat', .ok u)) :
    chat' = chat.inMode world agentMode := by
  simp only [setAgentMode, Proc.bind_eq_ok] at h
  obtain ⟨_, _, ⟨rfl, rfl⟩, h⟩ := h
  rw [Chat.inMode]
  split at h
  case isTrue hsame =>
    rw [if_pos hsame]
    exact (Proc.pure_eq_ok.mp h).1.symm
  case isFalse hother =>
    simp only [World.pass, Proc.bind_eq_ok, Proc.check_eq_ok, Proc.modify_eq_ok] at h
    obtain ⟨_, _, ⟨rfl, _⟩, _, _, rfl, rfl, _⟩ := h
    rw [if_neg hother]

/-! ## The launch -/

@[simp] theorem observe_withConversation (conversationId : String) :
    observe (chat.withConversation world conversationId) = observe chat := rfl

@[simp] theorem provider_restoreParkedBinding (db : Continuity.SessionTables)
    (provider now : String) :
    (Continuity.restoreParkedBinding db provider now).provider = db.provider := by
  unfold Continuity.restoreParkedBinding
  split
  · rfl
  · dsimp only
    split <;> rfl

/-- The columns of a fork that a chat shows. -/
def row (rows : ForkPlan.State) : String × String := (rows.child.provider, rows.child.state)

@[simp] theorem row_dropNativePlan (rows : ForkPlan.State) (plan : ForkPlan.LaunchPlan) :
    row (ForkPlan.dropNativePlan rows plan).1 = row rows := by
  rw [ForkPlan.dropNativePlan]
  split <;> rfl

@[simp] theorem row_restoreParked (rows : ForkPlan.State) (provider now : String) :
    row (ForkPlan.restoreParked rows provider now) = row rows := by
  have hprovider := provider_restoreParkedBinding rows.tables provider now
  have hrow : row (rows.withTables (Continuity.restoreParkedBinding rows.tables provider now)) =
      row rows := Prod.ext hprovider rfl
  simp only [ForkPlan.restoreParked]
  split <;> exact hrow

@[simp] theorem row_planLaunch (rows : ForkPlan.State) (provider : String) (switched : Bool)
    (freshId now : String) :
    row (ForkPlan.planLaunch rows provider switched freshId now).1 = row rows := by
  have hfirst (rows' : ForkPlan.State) (plan : ForkPlan.LaunchPlan) :
      row (ForkPlan.planForkFirstTurn rows' provider plan).1 = row rows' := by
    rcases ForkPlan.planForkFirstTurn_fst rows' provider plan with h | h <;> rw [h]
    exact row_dropNativePlan rows' plan
  simp only [ForkPlan.planLaunch, hfirst]
  split <;> simp

/-- A plan shows nothing of the chat in another way. -/
theorem observe_planLaunch (chat : Chat) (provider : String) (switched : Bool)
    (freshId now : String) :
    observe { chat with
      rows := (ForkPlan.planLaunch chat.rows provider switched freshId now).1 } = observe chat := by
  have hrow := row_planLaunch chat.rows provider switched freshId now
  have hframe := ForkPlan.frame_planLaunch chat.rows provider switched freshId now
  simp only [row, Prod.mk.injEq] at hrow
  simp only [ForkPlan.State.frame, Prod.mk.injEq] at hframe
  simp [observe, transcript, Chat.provider, hrow, hframe]

theorem follows_inferConversation (h : observe chat = seen ↔ shown = false) (switched : Bool)
    (provider : ProviderId) :
    Follows observe seen shown (inferConversation world switched provider) chat
      (inferSteps world chat switched provider) := by
  rw [inferSteps]
  refine .get_bind ?_
  split
  · refine .check_bind h fun _ => ?_
    split
    · cases world.inferred with
      | none => exact follows_pure h _
      | some conversationId => exact follows_quiet (by simpa using h)
    · exact follows_pure h _
  · exact follows_pure h _

@[simp] theorem observe_inferred (switched : Bool) (provider : ProviderId) :
    observe (chat.inferred world switched provider) = observe chat := by
  rw [Chat.inferred]
  split
  · split
    · cases world.inferred <;> simp
    · rfl
  · rfl

theorem inferConversation_eq_ok {switched : Bool} {provider : ProviderId}
    (h : (inferConversation world switched provider).run chat = (chat', .ok u)) :
    chat' = chat.inferred world switched provider := by
  simp only [inferConversation, Proc.bind_eq_ok] at h
  obtain ⟨_, _, ⟨rfl, rfl⟩, h⟩ := h
  rw [Chat.inferred]
  split at h
  case isFalse hinfers =>
    rw [if_neg hinfers]
    exact (Proc.pure_eq_ok.mp h).1.symm
  case isTrue hinfers =>
    simp only [World.pass, Proc.bind_eq_ok, Proc.check_eq_ok] at h
    obtain ⟨_, _, ⟨rfl, _⟩, h⟩ := h
    rw [if_pos hinfers]
    split at h
    case isFalse hbound =>
      rw [if_neg hbound]
      exact (Proc.pure_eq_ok.mp h).1.symm
    case isTrue hfree =>
      rw [if_pos hfree]
      cases hinferred : world.inferred with
      | none =>
        simp only [hinferred, Proc.pure_eq_ok] at h
        exact h.1.symm
      | some conversationId =>
        simp only [hinferred, Proc.modify_eq_ok] at h
        exact h.symm

/-- Whether agents are found does not depend on the prompt. -/
theorem toBool_agentReferencePrompt (lib : AgentCodenames.Library) (prompt prompt' : String)
    (references : List AgentReference) :
    (agentReferencePrompt lib chat prompt references).toBool =
      (agentReferencePrompt lib chat prompt' references).toBool := by
  rw [agentReferencePrompt, agentReferencePrompt]
  split
  · rfl
  · cases resolveReferences lib chat references [] with
    | error e => rfl
    | ok resolved =>
      cases ensureAgentReferencesSupported chat.provider chat.modelId references with
      | error e => rfl
      | ok _ =>
        cases referenceGuidance chat.provider with
        | error e => rfl
        | ok guidance => rfl

theorem follows_referencePrompt (h : observe chat = seen ↔ shown = false) (follow : Follow)
    (prompt : String) :
    Follows observe seen shown (referencePrompt world follow prompt) chat
      (referenceSteps world chat follow) := by
  rw [referenceSteps]
  refine .get_bind ?_
  split
  · exact follows_pure h _
  · refine .check_bind h fun _ => ?_
    rw [answer, toBool_agentReferencePrompt world.library "" prompt]
    exact follows_lift h _

theorem referencePrompt_eq_ok {prompt prompt' : String}
    (h : (referencePrompt world follow prompt).run chat = (chat', .ok prompt')) : chat' = chat := by
  simp only [referencePrompt, Proc.bind_eq_ok] at h
  obtain ⟨_, _, ⟨rfl, rfl⟩, h⟩ := h
  split at h
  · exact (Proc.pure_eq_ok.mp h).1.symm
  · simp only [World.pass, Proc.bind_eq_ok, Proc.check_eq_ok, Proc.lift_eq_ok] at h
    obtain ⟨_, _, ⟨rfl, _⟩, rfl, _⟩ := h
    rfl

theorem follows_composePrompts (h : observe chat = seen ↔ shown = false) (follow : Follow)
    (plan : ForkPlan.LaunchPlan) :
    Follows observe seen shown (composePrompts world follow plan) chat
      (promptSteps world chat follow plan) := by
  rw [promptSteps]
  simp only [List.append_assoc, List.cons_append, List.nil_append]
  refine .get_bind (.check_bind h fun _ => .lift_bind h fun prompt _ => ?_)
  refine .bind (follows_referencePrompt h follow prompt) fun prompt' chat₁ hprompt hobserved => ?_
  split
  case isTrue =>
    refine .bind ((follows_lift hobserved _).bind_pure some) fun fallback chat₂ _ hobserved' => ?_
    exact (follows_check hobserved' _).bind_pure _
  case isFalse =>
    exact .pure_bind ((follows_check hobserved _).bind_pure _)

theorem composePrompts_eq_ok {plan : ForkPlan.LaunchPlan} {prompts : String × Option String}
    (h : (composePrompts world follow plan).run chat = (chat', .ok prompts)) : chat' = chat := by
  simp only [composePrompts, World.pass, Proc.bind_eq_ok, Proc.check_eq_ok, Proc.lift_eq_ok] at h
  obtain ⟨_, _, ⟨rfl, rfl⟩, _, _, ⟨rfl, _⟩, _, _, ⟨rfl, _⟩, _, _, hprompt, h⟩ := h
  have hchat := referencePrompt_eq_ok hprompt
  subst hchat
  split at h
  case isTrue =>
    simp only [Proc.bind_eq_ok, Proc.map_eq_ok, Proc.lift_eq_ok, Proc.check_eq_ok] at h
    obtain ⟨_, _, ⟨_, ⟨rfl, _⟩, _⟩, _, _, ⟨rfl, _⟩, rfl, _⟩ := h
    rfl
  case isFalse =>
    simp only [Proc.bind_eq_ok, Proc.check_eq_ok] at h
    obtain ⟨_, _, ⟨rfl, _⟩, _, _, ⟨rfl, _⟩, rfl, _⟩ := h
    rfl

theorem follows_storeTurn (h : observe chat = seen ↔ shown = false) (hkept : Kept seen chat)
    (follow : Follow) :
    Follows observe seen shown (storeTurn world follow) chat (storeSteps world chat follow) := by
  refine .bind (follows_persist h hkept _ _) fun _ chat₁ hpersist hobserved => ?_
  have ⟨rows, hstored, hrows⟩ := persist_eq_ok hpersist
  have hlonger : Longer seen chat₁ := hrows ▸ longer_persisted hstored hkept
  have hrunning : Longer seen (chat₁.running world) := hlonger
  have hworkspace : Longer seen (chat₁.running world).workspaceRunning := by
    rw [Chat.workspaceRunning]
    split <;> exact hlonger
  have hshown : (trace shown (persistSteps world .persistUserMessage chat ⟨world.userEventId,
      "user.message", String.ofList follow.message, follow.payload⟩)).2 = true := by
    simpa [hlonger.observe_ne] using hobserved
  rw [hshown]
  refine .check_bind (by simpa using hlonger.observe_ne) fun _ => .modify_bind ?_
  refine .check_bind (by simpa using hrunning.observe_ne) fun _ => ?_
  refine .check_bind (by simpa using hrunning.observe_ne) fun _ => .quiet_bind ?_
  refine .check_bind (by simpa using hworkspace.observe_ne) fun _ => ?_
  exact follows_check (by simpa using hworkspace.observe_ne) _

theorem follows_launch (h : observe chat = seen ↔ shown = false) (hkept : Kept seen chat)
    (follow : Follow) (switched : Bool) :
    Follows observe seen shown (launch world follow switched) chat
      (launchSteps world chat follow switched) := by
  rw [launchSteps]
  refine .get_bind ?_
  cases hprovider : parseProvider chat.provider with
  | error e => exact ⟨rfl, h⟩
  | ok provider =>
    refine .lift_bind h fun provider' hprovider' => ?_
    cases hprovider'
    cases hmode : parsePermissionMode chat.permissionMode with
    | error e => exact ⟨rfl, h⟩
    | ok permissionMode =>
      simp only [List.append_assoc, List.cons_append, List.nil_append]
      refine .lift_bind h fun mode' hmode' => ?_
      cases hmode'
      refine .lift_bind h fun _ _ => ?_
      refine .bind (follows_inferConversation h switched provider) fun _ chat₁ hinfer hseen => ?_
      have hchat₁ := inferConversation_eq_ok hinfer
      subst hchat₁
      refine .check_bind hseen fun _ => .get_bind (.quiet_bind ?_)
      have hplan := observe_planLaunch (chat.inferred world switched provider)
      rw [← hplan] at hseen
      have hkept₁ : Kept seen (chat.inferred world switched provider) := by
        rw [Kept, observe_inferred]
        exact hkept
      rw [Kept, ← hplan] at hkept₁
      refine .bind (follows_composePrompts hseen follow _) fun prompts chat₂ hprompts hseen₂ => ?_
      have hchat₂ := composePrompts_eq_ok hprompts
      subst hchat₂
      exact (follows_storeTurn hseen₂ hkept₁ follow).bind_quiet fun _ _ _ hseen₃ =>
        .get_bind (follows_pure hseen₃ _)

/-! ## The send -/

theorem kept_persisted (hkept : Kept seen chat) : Kept seen (chat.persisted event) := by
  rw [Chat.persisted]
  split
  case h_1 rows hstored => exact Nat.le_of_lt (longer_persisted hstored hkept)
  case h_2 => exact hkept

theorem persisted_columns (event : Continuity.NewEvent) :
    (chat.persisted event).routes = chat.routes ∧
      (chat.persisted event).agentMode = chat.agentMode := by
  rw [Chat.persisted]
  split <;> exact ⟨rfl, rfl⟩

/-- What the change of the model leaves for the writes that follow. -/
theorem moved_columns (world : World) (chat : Chat) (follow : Follow) :
    Kept (observe chat) (chat.moved world follow) ∧
      (chat.moved world follow).routes = chat.routes ∧
      (chat.moved world follow).agentMode = chat.agentMode := by
  have hself : Kept (observe chat) chat := Nat.le_refl _
  rw [Chat.moved]
  split
  case h_1 => exact ⟨hself, rfl, rfl⟩
  case h_2 =>
    split
    · exact ⟨kept_persisted hself, persisted_columns _⟩
    · exact ⟨hself, rfl, rfl⟩
    · exact ⟨hself, rfl, rfl⟩

theorem routed_columns (chat : Chat) (route : Option RouteDecision) :
    (chat.routed route).rows = chat.rows ∧ (chat.routed route).agentMode = chat.agentMode := by
  cases route with
  | none => exact ⟨rfl, rfl⟩
  | some route =>
    rw [Chat.routed, Chat.withAutoTier]
    split <;> exact ⟨rfl, rfl⟩

theorem rows_inMode (agentMode : AgentMode) : (chat.inMode world agentMode).rows = chat.rows := by
  rw [Chat.inMode]
  split <;> rfl

theorem Kept.of_rows (h : Kept seen chat) (hrows : chat'.rows = chat.rows) : Kept seen chat' := by
  simpa [Kept, observe, hrows] using h

theorem follows_relaunch (world : World) (chat : Chat) (follow : Follow)
    (route : Option RouteDecision) :
    Follows observe (observe chat) false (relaunch world follow route) chat
      (relaunchSteps world chat follow route) := by
  have hseen : observe chat = observe chat ↔ false = false := by simp
  have ⟨hkept, hroutes, hmode⟩ := moved_columns world chat follow
  have ⟨hrows, hmode'⟩ := routed_columns (chat.moved world follow) route
  rw [relaunchSteps]
  simp only [List.append_assoc, List.cons_append, List.nil_append]
  refine .check_bind hseen fun _ => .check_bind hseen fun _ => .check_bind hseen fun _ => ?_
  refine .get_bind (.bind (follows_moveModel world follow chat) ?_)
  intro switched chat₁ hmove hseen₁
  have ⟨hchat₁, hswitched⟩ := moveModel_eq_ok hmove
  subst hchat₁ hswitched
  have hlength : (observe chat).routes.length ≤ (chat.moved world follow).routes.length := by
    rw [hroutes]
    exact Nat.le_refl _
  refine .bind (follows_recordRoute hseen₁ hlength route) fun _ chat₂ hroute hseen₂ => ?_
  have hchat₂ := recordRoute_eq_ok hroute
  subst hchat₂
  have hsame : (observe chat).agentMode = ((chat.moved world follow).routed route).agentMode := by
    rw [hmode', hmode]
    rfl
  refine .bind (follows_setAgentMode hseen₂ hsame _) fun _ chat₃ hset hseen₃ => ?_
  have hchat₃ := setAgentMode_eq_ok hset
  subst hchat₃
  exact follows_launch hseen₃ (hkept.of_rows ((rows_inMode _).trans hrows)) follow _

end Phases

/-! ## Before the send -/

section Admission

variable (world : World) (follow : Follow)

theorem quiet_pass (point : Point) : Quiet observe (world.pass point) := quiet_check _

theorem quiet_ensureGoalTurnAdmitted (place : ℕ) :
    Quiet observe (ensureGoalTurnAdmitted world follow place) := by
  rw [ensureGoalTurnAdmitted]
  split
  · exact quiet_pass world _
  · exact quiet_pure _

theorem quiet_adoptImported : Quiet observe (adoptImported world) := by
  refine quiet_get.bind fun chat => ?_
  split
  · exact (quiet_pass world _).bind fun _ => quiet_modify fun _ => rfl
  · exact quiet_pure _

theorem quiet_firstReads : Quiet observe (firstReads world follow) :=
  (quiet_pass world _).bind fun _ => (quiet_pass world _).bind fun _ => quiet_get.bind fun _ =>
    (quiet_ensureGoalTurnAdmitted world follow 0).bind fun _ => (quiet_lift _).bind fun _ =>
      (quiet_lift _).bind fun _ => (quiet_adoptImported world).bind fun _ =>
        (quiet_lift _).bind fun _ => quiet_pure _

theorem quiet_routeBefore : Quiet observe (routeBefore world follow) := by
  rw [routeBefore]
  split
  · exact quiet_pure _
  · refine (quiet_pass world _).bind fun _ => quiet_get.bind fun _ =>
      (quiet_lift _).bind fun route => .bind ?_ fun _ => quiet_pure _
    rcases route with _ | _ | _
    · exact quiet_pure _
    · exact quiet_pure _
    · exact quiet_pass world _

theorem quiet_lockCheckout (provider : ProviderId) (permissionMode : PermissionMode) :
    Quiet observe (lockCheckout world follow provider permissionMode) :=
  (quiet_pass world _).bind fun _ => (quiet_lift _).bind fun _ => (quiet_pass world _).bind fun _ =>
    (quiet_pass world _).bind fun _ => quiet_get.bind fun _ => (quiet_lift _).bind fun _ =>
      (quiet_pass world _).bind fun _ => (quiet_ensureGoalTurnAdmitted world follow 1).bind fun _ =>
        quiet_pass world _

theorem quiet_settleRoute (autoFollowUp : Option (Option AutoFollowUp)) :
    Quiet observe (settleRoute world follow autoFollowUp) := by
  have hlate : Quiet observe (routeLate world follow autoFollowUp) := by
    cases autoFollowUp with
    | some autoFollowUp => exact quiet_pure _
    | none =>
      rw [routeLate]
      split
      · exact quiet_pure _
      · exact (quiet_pass world _).bind fun _ => quiet_get.bind fun _ => quiet_lift _
  exact hlate.bind fun _ => (quiet_pass world _).bind fun _ => quiet_get.bind fun _ => quiet_lift _

theorem quietWhenRefused_deliver : QuietWhenRefused observe (deliver world follow) := by
  have hprompt : Quiet observe
      (referencePrompt world follow (String.ofList follow.message)) := by
    refine quiet_get.bind fun chat => ?_
    split
    · exact quiet_pure _
    · exact (quiet_pass world _).bind fun _ => quiet_lift _
  have hpersist : QuietWhenRefused observe (persist world .persistUserMessage
      ⟨world.userEventId, "user.message", String.ofList follow.message, follow.payload⟩) := by
    refine (quiet_pass world _).bind_whenRefused fun _ => quiet_get.bind_whenRefused fun chat => ?_
    split
    · exact (quiet_lift _).whenRefused
    · intro _ _ _ hrefused
      cases hrefused
  exact hprompt.bind_whenRefused fun _ => hpersist.bind_pure _

theorem quiet_enqueue (steer : Bool) : Quiet observe (enqueue world steer) := by
  refine (quiet_pass world _).bind fun _ => ?_
  split
  · exact quiet_pure _
  · split <;> exact quiet_pure _

theorem quietWhenRefused_sendToHandle : QuietWhenRefused observe (sendToHandle world follow) := by
  rw [sendToHandle]
  split
  · exact (quietWhenRefused_deliver world follow).bind_pure some
  · split
    · exact (quiet_lift _).whenRefused
    · exact (quiet_enqueue world _).whenRefused.bind_pure some
  · exact (quiet_enqueue world _).whenRefused.bind_pure some
  · exact (quiet_pure _).whenRefused

/-- A send that finds no entry goes on with the chat as it was. -/
theorem sendToHandle_none {chat chat' : Chat}
    (h : (sendToHandle world follow).run chat = (chat', .ok none)) : chat' = chat := by
  rw [sendToHandle] at h
  split at h
  · simp [Proc.map_eq_ok] at h
  · split at h
    · simp [Proc.lift_eq_ok] at h
    · simp [Proc.map_eq_ok] at h
  · simp [Proc.map_eq_ok] at h
  · exact (Proc.pure_eq_ok.mp h).1.symm

theorem quietWhenRefused_admission : QuietWhenRefused observe (admission world follow) := by
  refine (quiet_pass world _).bind_whenRefused fun _ =>
    (quiet_firstReads world follow).bind_whenRefused fun read =>
      (quiet_pass world _).bind_whenRefused fun _ =>
        (quiet_routeBefore world follow).bind_whenRefused fun autoFollowUp =>
          (quiet_lockCheckout world _ _ _).bind_whenRefused fun _ =>
            (quietWhenRefused_sendToHandle world _).bind
              fun chat chat₁ chat' sent e hsent hrefused => ?_
  cases sent with
  | some sent => exact absurd hrefused pure_ne_error
  | none =>
    rw [← sendToHandle_none world _ hsent]
    exact ((quiet_settleRoute world _ autoFollowUp).bind fun _ => quiet_pure _).whenRefused
      chat₁ chat' e hrefused

/-- A send that goes on to an idle chat shows nothing yet. -/
theorem observe_admission {chat chat' : Chat} {settled : Follow × Option RouteDecision}
    (h : (admission world follow).run chat = (chat', .ok (.inr settled))) :
    observe chat' = observe chat := by
  simp only [admission, Proc.bind_eq_ok] at h
  obtain ⟨_, _, hpass, _, _, hread, _, _, hpass', _, _, hroute, _, _, hlock, sent, _, hsent, h⟩ := h
  have hbefore := (((((quiet_lockCheckout world _ _ _).of_run hlock).trans
    ((quiet_routeBefore world _).of_run hroute)).trans ((quiet_pass world _).of_run hpass')).trans
      ((quiet_firstReads world _).of_run hread)).trans ((quiet_pass world _).of_run hpass)
  cases sent with
  | some sent => cases (Proc.pure_eq_ok.mp h).2
  | none =>
    simp only [Proc.bind_eq_ok] at h
    obtain ⟨_, _, hsettle, rfl, _⟩ := h
    rw [(quiet_settleRoute world _ _).of_run hsettle, sendToHandle_none world _ hsent, hbefore]

end Admission

/-! ## Refused sends -/

/-- Nothing refuses the send of an idle chat behind the first of its writes that shows. -/
def RefusedInTime (world : World) (chat : Chat) (follow : Follow) : Prop :=
  follow.mayBeSent = .ok true →
    ∀ chat' follow' route,
      (admission world follow).run chat = (chat', .ok (.inr (follow', route))) →
        Spared (relaunchSteps world chat' follow' route)

/-- The send is refused and the chat is as it was, or it is not refused. -/
def LeavesNothing (world : World) (chat : Chat) (follow : Follow) : Prop :=
  ∀ e, ((sendInputScoped world follow).run chat).2 = .error e →
    observe ((sendInputScoped world follow).run chat).1 = observe chat

/-- A send behind its first check. -/
theorem run_sendInputScoped {world : World} {chat : Chat} {sent : Bool}
    (h : follow.mayBeSent = .ok sent) :
    (sendInputScoped world follow).run chat =
      if sent then
        (do
          match ← admission world follow with
          | .inl sent => pure sent
          | .inr (follow, route) => relaunch world follow route : SendM Sent).run chat
      else (chat, .ok .done) := by
  have hlift : (Proc.lift (.ok sent) : SendM Bool).run chat = (chat, .ok sent) := rfl
  rw [sendInputScoped, h]
  cases sent <;> rfl

/-- **A refused send.** It leaves the chat as it was just when it is refused in time. -/
theorem refused_send_leaves_nothing_iff (world : World) (chat : Chat) (follow : Follow) :
    LeavesNothing world chat follow ↔ RefusedInTime world chat follow := by
  cases hsent : follow.mayBeSent with
  | error e =>
    have hrun : (sendInputScoped world follow).run chat = (chat, .error e) := by
      have hlift : (Proc.lift (.error e) : SendM Bool).run chat = (chat, .error e) := rfl
      rw [sendInputScoped, hsent, Proc.run_bind_error hlift]
    simp [LeavesNothing, RefusedInTime, hrun, hsent]
  | ok sent =>
    rw [LeavesNothing, run_sendInputScoped hsent, RefusedInTime, hsent]
    cases sent with
    | false => simp
    | true =>
      simp only [forall_const]
      cases hrun : (admission world follow).run chat with
      | mk chat₁ result =>
        cases result with
        | error e =>
          have hobserve := quietWhenRefused_admission world follow chat chat₁ e hrun
          rw [Proc.run_bind_error hrun]
          simp [hobserve]
        | ok settled =>
          rw [Proc.run_bind_ok hrun]
          cases settled with
          | inl sent =>
            have hpure : (pure sent : SendM Sent).run chat₁ = (chat₁, .ok sent) := rfl
            simp [hpure]
          | inr settled =>
            have hobserve := observe_admission world follow hrun
            have hfollows := follows_relaunch world chat₁ settled.1 settled.2
            have hiff := hfollows.spared_iff
            rw [hobserve] at hiff
            refine hiff.trans ⟨fun hspared chat' follow' route heq => ?_, fun h => ?_⟩
            · cases heq
              exact hspared
            · exact h chat₁ settled.1 settled.2 rfl

/-! ## A refused switch -/

section RefusedSwitch

/-- An agent of the conversation `conversation`. -/
def agentStarted : EventRow :=
  ⟨1, "started", "s", "agent.started", "Agent started",
    .object [("providerChildSessionId", .string "child"),
      ("providerParentConversationId", .string "conversation")]⟩

def claudeSession : Workspaces.Fork.Session where
  id := "s"
  provider := "claude"
  state := "complete"
  providerConversationId := some "conversation"
  resumeFork := false
  bindings := .empty
  turns := .empty
  nextBindingId := 0
  workspacePath := "/repo"

/-- A chat with Claude that is no fork. -/
def claudeChat : Chat where
  rows :=
    { events := ⟨[agentStarted], by simp⟩
      source := none
      child := claudeSession
      fork :=
        { id := ""
          sourceSessionId := none
          childSessionId := "s"
          boundaryEventId := none
          childBaseEventId := none
          sourceLastEventId := none
          nativeMode := .none
          nativeProvider := none
          nativeConversationId := none
          nativeTurnId := none }
      configIdentity := fun _ => ""
      launch := none
      point := ⟨.empty, claudeSession, ⟨none, 0, none, false⟩, []⟩
      own := [] }
  modelLabel := "Opus"
  modelId := "opus"
  reasoningEffort := none
  agentMode := some "auto"
  permissionMode := "auto-approve"
  autoTier := none
  autoRoute := none
  lastActivityAt := "1"
  routes := []
  imported := false
  adopted := false
  workspaceState := "complete"

/-- To Codex, with the agent of the chat. -/
def toCodex : Follow where
  provider := some .codex
  input := "Go on".toList
  modelLabel := some "GPT"
  modelId := some "gpt"
  reasoningEffort := none
  fastMode := false
  agentMode := none
  agentReferences := [⟨"Turing", "child", "conversation"⟩]
  payload := .object []
  hasOrigin := false
  goalTurn := false
  personStarts := true
  personWrote := true
  queueingRefused := false
  midTurnDelivery := .queue

/-- Nothing fails. -/
def calmWorld : World where
  refuses := fun _ => none
  handleBefore := false
  handle := .none
  classified := ⟨.balanced, .claude, "opus", "Opus", none, .kept, ""⟩
  collected := false
  steeringContextHeadroom := false
  isWaitingOnInbox := false
  inferred := none
  resultsBlock := none
  jsonText := fun _ => ""
  userEventId := "asked"
  switchEventId := "switch"
  freshId := "fresh"
  now := "2"

/-- The agent is of the conversation that the switch leaves, so the send is refused, and the
chat is with Codex. -/
theorem refused_switch_stays : ¬LeavesNothing calmWorld claudeChat toCodex := by
  intro h
  have hrefused : ((sendInputScoped calmWorld toCodex).run claudeChat).2.toBool = false := by
    rfl
  have hprovider : (observe ((sendInputScoped calmWorld toCodex).run claudeChat).1).provider =
      "codex" := by rfl
  cases hrun : ((sendInputScoped calmWorld toCodex).run claudeChat).2 with
  | ok sent =>
    rw [hrun] at hrefused
    cases hrefused
  | error e =>
    rw [h e hrun] at hprovider
    exact absurd hprovider (by decide)

end RefusedSwitch

end Argmax.Providers.SendInput
