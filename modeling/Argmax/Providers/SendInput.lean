import Argmax.Lib.Procedure
import Argmax.Providers.SendChat

/-!
# Sending a follow-up

`send_input_scoped` of `providers/session_service.rs`, up to the spawn of the provider. No
transaction is around it: each statement stays once it is done. What is not in the chat, such
as the calls of the store that fail, Stop, the process that runs and the classifier, is the
`World` of the send.

A row that is queued is out of the model, and so is what steering makes of it. Where a call of
`providers/continuity.rs` fails, it is taken to fail at its first statement.
-/

namespace Argmax.Providers.SendInput

open Argmax.Lib Argmax.Persistence

/-! ## What a send meets -/

/-- The calls that may fail on their own account. -/
inductive Point where
  | ensureNoPendingAfterTurn
  | lockSendGeneration (place : ℕ)
  | findSession (place : ℕ)
  | ensureGoalTurnAdmitted (place : ℕ)
  | markSyncedSessionAdopted
  | terminating
  | lastTurnUsage
  | lifecycleAdmit
  | findWorkspace (place : ℕ)
  | checkoutWriteLock
  | enqueuePendingMessage
  | hasCurrentNativeAgentIdentity
  | parkActive
  | updateSessionProvider
  | readSwitched
  | persistSwitch
  | updateSessionModel
  | readModel
  | insertRoute
  | updateAutoTier
  | updateAgentMode
  | readAgentMode
  | inferConversation
  | planLaunch
  | composeFollowUpPrompt
  | resultsPreamble
  | persistUserMessage
  | updateSessionState
  | readRunning
  | updateWorkspaceState
  | listProjects
  | claimEntry

/-- The entry of the session among the processes. -/
inductive Handle where
  | none
  /-- It is starting, or it has gone. -/
  | unroutable
  | live (acceptsInput supportsSteering : Bool)

/-- What a send meets beside the chat, and what it draws. -/
structure World where
  refuses : Point → Option ArgmaxError
  /-- There was an entry when the send might have been classified. -/
  handleBefore : Bool
  handle : Handle
  classified : RouteDecision
  /-- The inbox row of the message is delivered by now. -/
  collected : Bool
  steeringContextHeadroom : Bool
  isWaitingOnInbox : Bool
  /-- The conversation that the raw output of a Cursor session tells of. -/
  inferred : Option String
  /-- `results_preamble`. -/
  resultsBlock : Option String
  jsonText : Json → String
  userEventId : String
  switchEventId : String
  freshId : String
  now : String

/-- `ProviderLaunchInput`. -/
structure LaunchInput extends ForkPlan.Launch where
  modelLabel : String
  modelId : String
  reasoningEffort : Option ReasoningEffort
  fastMode : Bool
  permissionMode : PermissionMode

/-- What becomes of a send that is not refused. -/
inductive Sent where
  | done
  | queued
  /-- The row that was queued goes to `steer_queued_row`. -/
  | steered
  | spawned (launch : LaunchInput)

abbrev SendM := Proc Chat ArgmaxError

variable (world : World)

/-- A call that may fail on its own account. -/
def World.pass (point : Point) : SendM Unit := Proc.check (world.refuses point)

def World.library : AgentCodenames.Library := ⟨world.jsonText⟩

/-- An event is stored, unless its id is taken. -/
def persist (point : Point) (event : Continuity.NewEvent) : SendM Unit := do
  world.pass point
  let chat ← Proc.get
  match ForkPlan.persistEvent chat.rows chat.id event with
  | none => Proc.lift (.error (.service "SQLITE" "UNIQUE constraint failed: events.id"))
  | some rows => Proc.modify fun chat => { chat with rows := rows }

/-! ## Statements -/

namespace Chat

variable (chat : Chat)

/-- `park_active`. -/
def parked : Chat :=
  { chat with rows := chat.rows.withTables (chat.rows.tables.parkActive world.now) }

/-- `update_session_model`. -/
def withModel (modelLabel modelId : String) (effort : Option ReasoningEffort) : Chat :=
  { chat with
    modelLabel := modelLabel
    modelId := modelId
    reasoningEffort := effort.map (·.asStr)
    lastActivityAt := world.now }

/-- `update_session_provider`. -/
def withProvider (requested : ProviderId) (modelLabel modelId : String)
    (effort : Option ReasoningEffort) : Chat :=
  { chat.withModel world modelLabel modelId effort with
    rows := ForkPlan.updateProvider chat.rows (providerText requested) world.now }

/-- The row of `record_route`. -/
def withRoute (route : RouteDecision) : Chat := { chat with routes := chat.routes ++ [route] }

/-- The columns of `record_route`, or `clear_auto_tier` behind a pin. -/
def withAutoTier (route : RouteDecision) : Chat :=
  if route.decision = .pinned then { chat with autoTier := none, autoRoute := none }
  else
    { chat with
      autoTier := some (tierLabel route.tier)
      autoRoute := some route.reason }

/-- `update_session_agent_mode`. -/
def withAgentMode (agentMode : AgentMode) : Chat :=
  { chat with agentMode := some agentMode.asStr, lastActivityAt := world.now }

/-- `update_session_provider_conversation_id`. -/
def withConversation (conversationId : String) : Chat :=
  { chat with rows := ForkPlan.adopt chat.rows conversationId world.now }

/-- `update_session_state`. -/
def running : Chat :=
  { chat with
    rows := { chat.rows with child := { chat.rows.child with state := "running" } }
    lastActivityAt := world.now }

/-- `update_workspace_state_for_session_state`. -/
def workspaceRunning : Chat :=
  if ["archiving", "archive-failed", "archived"].contains chat.workspaceState then chat
  else { chat with workspaceState := "running" }

end Chat

/-! ## Before the send -/

/-- The message that is sent. -/
def Follow.message (follow : Follow) : List Char := Text.trim follow.input

/-- `ensure_goal_turn_admitted`, of a turn of a goal. -/
def ensureGoalTurnAdmitted (follow : Follow) (place : ℕ) : SendM Unit :=
  if follow.goalTurn then world.pass (.ensureGoalTurnAdmitted place) else pure ()

/-- Who continues an imported session adopts it. -/
def adoptImported : SendM Unit := do
  let chat ← Proc.get
  if chat.imported then
    world.pass .markSyncedSessionAdopted
    Proc.modify fun chat => { chat with adopted := true }
  else pure ()

/-- The first reads: what the send is for, and whether it may be. -/
def firstReads (follow : Follow) : SendM (ProviderId × PermissionMode) := do
  world.pass (.lockSendGeneration 0)
  world.pass (.findSession 0)
  let chat ← Proc.get
  ensureGoalTurnAdmitted world follow 0
  let provider ← Proc.lift (parseProvider chat.provider)
  Proc.lift (ensureAgentReferencesSupported (providerText (follow.provider.getD provider))
    (chat.targetModelId follow) follow.agentReferences)
  adoptImported world
  let permissionMode ← Proc.lift (parsePermissionMode chat.permissionMode)
  pure (provider, permissionMode)

/-- The usage of the last turn is read for a route. -/
def readLastTurnUsage : Option AutoFollowUp → SendM Unit
  | some (.routed _ _) => world.pass .lastTurnUsage
  | _ => pure ()

/-- Auto is asked before the checkout is locked, for a send that may start a process. -/
def routeBefore (follow : Follow) : SendM (Option (Option AutoFollowUp)) := do
  if follow.goalTurn || world.handleBefore then pure none
  else
    world.pass (.findSession 1)
    let chat ← Proc.get
    let route ← Proc.lift (routeFollowUp world.classified chat follow true)
    readLastTurnUsage world route
    pure (some route)

/-- The fields of a routed follow-up were echoes. -/
def Follow.unpinned (follow : Follow) : Option (Option AutoFollowUp) → Follow
  | some (some (.routed _ _)) => follow.withoutModel
  | _ => follow

/-- No workspace that is archived. -/
def ensureNotArchived (chat : Chat) : ArgmaxResult Unit :=
  if ["archiving", "archive-failed", "archived"].contains chat.workspaceState then
    .error (.service "WORKSPACE_ARCHIVING"
      "Workspace archive is in progress; no new provider input can be sent.")
  else .ok ()

/-- The checkout is the send's. -/
def lockCheckout (follow : Follow) (provider : ProviderId) (permissionMode : PermissionMode) :
    SendM Unit := do
  world.pass (.lockSendGeneration 1)
  Proc.lift (ensurePermissionModeSupported provider permissionMode)
  world.pass .lifecycleAdmit
  world.pass (.findWorkspace 0)
  let chat ← Proc.get
  Proc.lift (ensureNotArchived chat)
  world.pass .checkoutWriteLock
  ensureGoalTurnAdmitted world follow 1
  world.pass (.lockSendGeneration 2)

/-- A send that waits behind a process. -/
def enqueue (steer : Bool) : SendM Sent := do
  world.pass .enqueuePendingMessage
  if world.collected then pure .done
  else if steer then pure .steered
  else pure .queued

/-- The agents of a prompt are looked up. -/
def referencePrompt (follow : Follow) (prompt : String) : SendM String := do
  let chat ← Proc.get
  if follow.agentReferences.isEmpty then pure prompt
  else
    world.pass .hasCurrentNativeAgentIdentity
    Proc.lift (agentReferencePrompt world.library chat prompt follow.agentReferences)

/-- A send to a process that takes input. -/
def deliver (follow : Follow) : SendM Sent := do
  let _prompt ← referencePrompt world follow (String.ofList follow.message)
  persist world .persistUserMessage
    ⟨world.userEventId, "user.message", String.ofList follow.message, follow.payload⟩
  pure .done

/-- A send that finds an entry, or `none` for one that starts a process. -/
def sendToHandle (follow : Follow) : SendM (Option Sent) := do
  match world.handle with
  | .live true _ => some <$> deliver world follow
  | .live false supportsSteering =>
    if follow.queueingRefused then
      Proc.lift (.error (.service "SESSION_TURN_IN_FLIGHT"
        "A turn is already running in this chat; this one was not queued behind it."))
    else
      some <$> enqueue world
        (match follow.midTurnDelivery with
          | .queue => false
          | .steer => world.steeringContextHeadroom
          | .steerOrQueue =>
            world.steeringContextHeadroom && supportsSteering && !world.isWaitingOnInbox)
  | .unroutable =>
    some <$> enqueue world (follow.midTurnDelivery == .steer && world.steeringContextHeadroom)
  | .none => pure none

/-! ## An idle chat -/

/-- The provider that is asked for, if it is another one. -/
def Follow.switched (follow : Follow) (current : ProviderId) : Option ProviderId :=
  follow.provider.filter fun requested => requested != current

/-- The seam that the chat shows. -/
def switchEvent (current requested : ProviderId) (modelLabel : String) : Continuity.NewEvent :=
  ⟨world.switchEventId, "session.provider-changed",
    "Switched provider to " ++ (getProviderDefinition requested).displayName ++ ".",
    .object [("from", .string (providerText current)), ("modelLabel", .string modelLabel),
      ("provider", .string (providerText requested))]⟩

/-- The provider or the model changes. The result says whether the provider does. -/
def moveModel (follow : Follow) : SendM Bool := do
  let chat ← Proc.get
  let current ← Proc.lift (parseProvider chat.provider)
  match follow.switched current, follow.modelLabel, follow.modelId with
  | some requested, some modelLabel, some modelId => do
    world.pass .parkActive
    Proc.modify (Chat.parked world)
    world.pass .updateSessionProvider
    Proc.modify fun chat =>
      chat.withProvider world requested modelLabel modelId follow.reasoningEffort
    world.pass .readSwitched
    persist world .persistSwitch (switchEvent world current requested modelLabel)
    pure true
  | some _, _, _ =>
    Proc.lift (.error (.service "SWITCH_PROVIDER_REQUIRES_MODEL"
      "Switching provider requires a model for the new provider."))
  | none, some modelLabel, some modelId => do
    world.pass .updateSessionModel
    Proc.modify fun chat => chat.withModel world modelLabel modelId follow.reasoningEffort
    world.pass .readModel
    pure false
  | none, _, _ => pure false

/-- `record_route`, and `clear_auto_tier` behind a pin. -/
def recordRoute : Option RouteDecision → SendM Unit
  | none => pure ()
  | some route => do
    world.pass .insertRoute
    Proc.modify fun chat => chat.withRoute route
    world.pass .updateAutoTier
    Proc.modify fun chat => chat.withAutoTier route

/-- `update_session_agent_mode`, where it is another one. -/
def setAgentMode (agentMode : AgentMode) : SendM Unit := do
  let chat ← Proc.get
  if chat.agentMode = some agentMode.asStr then pure ()
  else
    world.pass .updateAgentMode
    Proc.modify fun chat => chat.withAgentMode world agentMode
    world.pass .readAgentMode

/-- The mode of the turn. -/
def turnMode (follow : Follow) (chat : Chat) : AgentMode :=
  (follow.agentMode.or (chat.agentMode.bind parseAgentMode)).getD .auto

/-- The raw output may tell of a conversation. -/
def Chat.infers (chat : Chat) (switched : Bool) (provider : ProviderId) : Bool :=
  !switched && provider == .cursor && chat.rows.child.providerConversationId.isNone

/-- `infer_cursor_provider_conversation_id`, where it may be asked. -/
def inferConversation (switched : Bool) (provider : ProviderId) : SendM Unit := do
  let chat ← Proc.get
  if chat.infers switched provider then
    world.pass .inferConversation
    if !chat.rows.child.bindings.rows.any fun binding => binding.provider == "cursor" then
      match world.inferred with
      | some conversationId =>
        Proc.modify fun chat => chat.withConversation world conversationId
      | none => pure ()

/-- What is put before a prompt. -/
def withResults (resultsBlock : Option String) (prompt : String) : String :=
  match resultsBlock with
  | some block => block ++ "\n\n" ++ prompt
  | none => prompt

/-- The prompt of the launch, and that of its fresh retry. -/
def composePrompts (follow : Follow) (plan : ForkPlan.LaunchPlan) :
    SendM (String × Option String) := do
  let chat ← Proc.get
  let message := String.ofList follow.message
  world.pass .composeFollowUpPrompt
  let prompt ← Proc.lift (FollowUp.composeFollowUpPromptSince world.jsonText chat.rows.events
    chat.id message plan.resumeConversationId.isSome plan.sinceEventId)
  let prompt ← referencePrompt world follow prompt
  let fallback ←
    if plan.needsFallbackPrompt && follow.agentReferences.isEmpty then
      some <$> Proc.lift (FollowUp.composeFollowUpPromptSince world.jsonText chat.rows.events
        chat.id message false none)
    else pure none
  world.pass .resultsPreamble
  pure (withResults world.resultsBlock prompt, fallback.map (withResults world.resultsBlock))

/-- The message is stored, and the session runs. -/
def storeTurn (follow : Follow) : SendM Unit := do
  persist world .persistUserMessage
    ⟨world.userEventId, "user.message", String.ofList follow.message, follow.payload⟩
  world.pass .updateSessionState
  Proc.modify (Chat.running world)
  world.pass .readRunning
  world.pass .updateWorkspaceState
  Proc.modify Chat.workspaceRunning
  world.pass .listProjects
  world.pass .claimEntry

/-- The launch of the provider, up to its spawn. -/
def launch (follow : Follow) (switched : Bool) : SendM Sent := do
  let chat ← Proc.get
  let provider ← Proc.lift (parseProvider chat.provider)
  let permissionMode ← Proc.lift (parsePermissionMode chat.permissionMode)
  Proc.lift (ensurePermissionModeSupported provider permissionMode)
  inferConversation world switched provider
  world.pass .planLaunch
  let chat ← Proc.get
  let planned := ForkPlan.planLaunch chat.rows (providerText provider) switched world.freshId
    world.now
  Proc.modify fun chat => { chat with rows := planned.1 }
  let plan := planned.2
  let prompts ← composePrompts world follow plan
  storeTurn world follow
  let chat ← Proc.get
  pure (.spawned
    { provider := providerText provider
      prompt := prompts.1
      resumeConversationId := plan.resumeConversationId
      resumeFork := plan.resumeFork
      freshNativeId := plan.freshNativeId
      forkLastTurnId := plan.forkLastTurnId
      freshFallbackPrompt := prompts.2
      modelLabel := chat.modelLabel
      modelId := chat.modelId
      reasoningEffort := chat.reasoningEffort.bind parseReasoningEffort
      fastMode := follow.fastMode
      permissionMode := permissionMode })

/-- A send to an idle chat. -/
def relaunch (follow : Follow) (route : Option RouteDecision) : SendM Sent := do
  world.pass (.lockSendGeneration 3)
  world.pass (.findSession 3)
  world.pass (.findWorkspace 1)
  let chat ← Proc.get
  let agentMode := turnMode follow chat
  let switched ← moveModel world follow
  recordRoute world route
  setAgentMode world agentMode
  launch world follow switched

/-- The process went away behind the first question: the pick is settled without classifying. -/
def routeLate (follow : Follow) : Option (Option AutoFollowUp) → SendM (Option AutoFollowUp)
  | some autoFollowUp => pure autoFollowUp
  | none =>
    if follow.goalTurn then pure none
    else do
      world.pass (.findSession 1)
      let chat ← Proc.get
      Proc.lift (routeFollowUp world.classified chat follow false)

/-- The route of the send, and what it makes of the follow-up. -/
def settleRoute (follow : Follow) (autoFollowUp : Option (Option AutoFollowUp)) :
    SendM (Follow × Option RouteDecision) := do
  let autoFollowUp ← routeLate world follow autoFollowUp
  world.pass (.findSession 2)
  let chat ← Proc.get
  Proc.lift (applyAutoFollowUp follow autoFollowUp chat)

/-! ## Sends -/

/-- The checks of a send, up to what an idle chat is asked for. -/
def admission (follow : Follow) : SendM (Sum Sent (Follow × Option RouteDecision)) := do
  world.pass .ensureNoPendingAfterTurn
  let (provider, permissionMode) ← firstReads world follow
  world.pass .terminating
  let autoFollowUp ← routeBefore world follow
  let follow := follow.unpinned autoFollowUp
  lockCheckout world follow provider permissionMode
  match ← sendToHandle world follow with
  | some sent => pure (.inl sent)
  | none => do
    let settled ← settleRoute world follow autoFollowUp
    pure (.inr settled)

/-- There is a message, and its author may be who it says. -/
def Follow.mayBeSent (follow : Follow) : ArgmaxResult Bool :=
  if follow.personWrote && (follow.hasOrigin || !follow.personStarts) then
    .error (.service "PROMPT_AUTHOR_CONFLICT"
      "A person's prompt cannot carry another session's origin or a system starter.")
  else .ok !follow.message.isEmpty

def sendInputScoped (follow : Follow) : SendM Sent := do
  if ← Proc.lift follow.mayBeSent then
    match ← admission world follow with
    | .inl sent => pure sent
    | .inr (follow, route) => relaunch world follow route
  else pure .done

end Argmax.Providers.SendInput
