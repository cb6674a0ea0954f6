import Argmax.Persistence.AgentCodenames
import Argmax.Providers.ForkPlan

/-!
# The chat that a follow-up is sent to

What `send_input_scoped` of `providers/session_service.rs` reads and writes of a session, and
the pure parts of it: the checks of a provider, the agents a message refers to, and what Auto
makes of a follow-up.

A session that is no fork is kept as a fork without a native plan.
-/

namespace Argmax.Providers.SendInput

open Argmax.Persistence

/-! ## Providers -/

/-- `as_str` of a provider. -/
def providerText : ProviderId → String
  | .claude => "claude"
  | .codex => "codex"
  | .cursor => "cursor"
  | .opencode => "opencode"
  | .grok => "grok"

inductive ApprovalSupport where
  | respondable
  | unsupported
  deriving DecidableEq

structure ProviderLaunchDefinition where
  displayName : String
  approvalSupport : ApprovalSupport

def getProviderDefinition : ProviderId → ProviderLaunchDefinition
  | .claude => ⟨"Claude Code", .respondable⟩
  | .codex => ⟨"Codex", .respondable⟩
  | .cursor => ⟨"Cursor", .respondable⟩
  | .opencode => ⟨"OpenCode", .respondable⟩
  | .grok => ⟨"Grok Build", .respondable⟩

inductive PermissionMode where
  | autoApprove
  | askEachTime
  | providerDefaults
  deriving DecidableEq

def parsePermissionMode (value : String) : ArgmaxResult PermissionMode :=
  if value = "auto-approve" then .ok .autoApprove
  else if value = "ask-each-time" then .ok .askEachTime
  else if value = "provider-defaults" then .ok .providerDefaults
  else .error (.service "PERMISSION_MODE_UNKNOWN" ("unknown permission mode " ++ value))

def ensurePermissionModeSupported (provider : ProviderId) (permissionMode : PermissionMode) :
    ArgmaxResult Unit :=
  if permissionMode = .askEachTime ∧
      (getProviderDefinition provider).approvalSupport ≠ .respondable then
    .error (.service "PROVIDER_APPROVAL_UNSUPPORTED"
      ((getProviderDefinition provider).displayName ++
        " cannot answer live approval requests in this runtime. Update the provider CLI to a " ++
        "version with live approval support."))
  else .ok ()

/-- Sessions are of one mode: `plan` loads as `auto`. -/
inductive AgentMode where
  | auto

def AgentMode.asStr : AgentMode → String
  | .auto => "auto"

def parseAgentMode (value : String) : Option AgentMode :=
  if value = "auto" ∨ value = "plan" then some .auto else none

inductive ReasoningEffort where
  | low
  | medium
  | high
  | xhigh
  | max
  | ultra
  deriving DecidableEq

def ReasoningEffort.asStr : ReasoningEffort → String
  | .low => "low"
  | .medium => "medium"
  | .high => "high"
  | .xhigh => "xhigh"
  | .max => "max"
  | .ultra => "ultra"

def parseReasoningEffort (value : String) : Option ReasoningEffort :=
  if value = "low" then some .low
  else if value = "medium" then some .medium
  else if value = "high" then some .high
  else if value = "xhigh" then some .xhigh
  else if value = "max" then some .max
  else if value = "ultra" then some .ultra
  else none

/-! ## Routes -/

inductive AutoTier where
  | economy
  | cost
  | balanced
  | intelligence
  deriving DecidableEq

def tierLabel : AutoTier → String
  | .economy => "economy"
  | .cost => "cost"
  | .balanced => "balanced"
  | .intelligence => "intelligence"

def parseTier (value : String) : Option AutoTier :=
  if value = "economy" then some .economy
  else if value = "cost" then some .cost
  else if value = "balanced" then some .balanced
  else if value = "intelligence" then some .intelligence
  else none

inductive RouteDecisionKind where
  | launch
  | reroute
  | escalate
  | kept
  | fallback
  | pinned
  deriving DecidableEq

/-- What the classifier says beside the decision is left out. -/
structure RouteDecision where
  tier : AutoTier
  provider : ProviderId
  modelId : String
  modelLabel : String
  effort : Option ReasoningEffort
  decision : RouteDecisionKind
  reason : String

/-! ## Chats -/

/-- A row of `sessions`, with the rows that hang on it. -/
structure Chat where
  /-- The session and its fork, its events, and the conversations it has with providers. -/
  rows : ForkPlan.State
  modelLabel : String
  modelId : String
  reasoningEffort : Option String
  agentMode : Option String
  permissionMode : String
  autoTier : Option String
  autoRoute : Option String
  lastActivityAt : String
  /-- The rows of `turn_routes`. -/
  routes : List RouteDecision
  imported : Bool
  adopted : Bool
  workspaceState : String

structure AgentReference where
  name : String
  providerChildSessionId : String
  providerParentConversationId : String

inductive MidTurnDelivery where
  | queue
  | steer
  | steerOrQueue
  deriving DecidableEq

/-- The arguments of a send. The payload is the one its message is stored with. -/
structure Follow where
  provider : Option ProviderId
  input : List Char
  modelLabel : Option String
  modelId : Option String
  reasoningEffort : Option ReasoningEffort
  fastMode : Bool
  agentMode : Option AgentMode
  agentReferences : List AgentReference
  payload : Json
  /-- Another session sent it. -/
  hasOrigin : Bool
  /-- It is a turn of a goal. -/
  goalTurn : Bool
  /-- The starter is a person. -/
  personStarts : Bool
  /-- A person wrote the text. -/
  personWrote : Bool
  queueingRefused : Bool
  midTurnDelivery : MidTurnDelivery

namespace Chat

variable (chat : Chat)

abbrev id : String := chat.rows.child.id

abbrev provider : String := chat.rows.child.provider

/-- The model that a follow-up of this kind would run. -/
def targetModelId (follow : Follow) : String := follow.modelId.getD chat.modelId

end Chat

/-! ## References to agents -/

def ensureAgentReferencesSupported (provider modelId : String)
    (references : List AgentReference) : ArgmaxResult Unit :=
  if references.isEmpty then .ok ()
  else if provider = "cursor" ∧ modelId = "composer-2.5" then
    .error (.service "AGENT_REFERENCE_UNAVAILABLE"
      "Cursor Composer 2.5 does not support persistent native agent references.")
  else .ok ()

def hasCurrentNativeAgentIdentity (lib : AgentCodenames.Library) (chat : Chat)
    (reference : AgentReference) : Bool :=
  let session : AgentCodenames.SessionRow :=
    ⟨chat.provider, chat.rows.child.providerConversationId, chat.rows.child.resumeFork⟩
  let state : AgentCodenames.State := ⟨chat.rows.events, fun id =>
    if id = chat.id then some session else none⟩
  AgentCodenames.currentNativeAgentParentConversationId state chat.id ==
      some reference.providerParentConversationId &&
    chat.rows.events.rows.any fun event =>
      AgentCodenames.isStart lib chat.rows.events chat.id reference.providerParentConversationId
          event &&
        AgentCodenames.textAt lib event.payload "providerChildSessionId" ==
          some reference.providerChildSessionId

/-- The names with their agents. A name has one agent. -/
def resolveReferences (lib : AgentCodenames.Library) (chat : Chat) :
    List AgentReference → List (String × Json) → ArgmaxResult (List (String × Json))
  | [], resolved => .ok resolved
  | reference :: references, resolved =>
    if !hasCurrentNativeAgentIdentity lib chat reference then
      .error (.service "AGENT_REFERENCE_UNAVAILABLE" (reference.name ++
        " is not available in this provider conversation. Continue it from its original chat."))
    else
      let agent := Json.string reference.providerChildSessionId
      match (Json.object resolved).get reference.name with
      | some previous =>
        if previous ≠ agent then
          .error (.service "AGENT_REFERENCE_UNAVAILABLE" ("More than one subagent is named " ++
            reference.name ++ ". Refer to its assignment instead."))
        else resolveReferences lib chat references resolved
      | none =>
        resolveReferences lib chat references (Json.insertField reference.name agent resolved)

/-- What a provider is told about the agents of a message. -/
def referenceGuidance (provider : String) : ArgmaxResult String :=
  if provider = "claude" then
    .ok "Use SendMessage to continue a referenced agent when its existing context is relevant."
  else if provider = "codex" then
    .ok ("Use send_input to continue the referenced native child with its existing context, " ++
      "using resume_agent first if the child is no longer active. Wait for the child's terminal " ++
      "status and answer. A successful delivery or pending_init status does not mean the child " ++
      "has completed.")
  else if provider = "opencode" then
    .ok ("Use the task tool with the referenced native task_id to continue it with its existing " ++
      "context. Verify the returned task id matches the referenced id before treating it as a " ++
      "continuation. Wait for the task result and answer. Do not use direct dock input.")
  else if provider = "cursor" then
    .ok ("Use the Task tool with \x60resume\x60 set to the referenced native agent ID. Wait for its " ++
      "task result and answer. Do not use direct dock input.")
  else
    .error (.service "AGENT_REFERENCE_UNAVAILABLE"
      "This provider does not support native agent references.")

def agentReferencePrompt (lib : AgentCodenames.Library) (chat : Chat) (prompt : String)
    (references : List AgentReference) : ArgmaxResult String :=
  if references.isEmpty then .ok prompt
  else do
    let resolved ← resolveReferences lib chat references []
    ensureAgentReferencesSupported chat.provider chat.modelId references
    let guidance ← referenceGuidance chat.provider
    pure ("Argmax dock names for this " ++ chat.provider ++
      " conversation (JSON name to native agent ID): " ++ lib.toString (.object resolved) ++ "\n" ++
      guidance ++ " If native continuation fails, report that failure before proposing a fresh " ++
      "agent.\n\n" ++ prompt)

/-! ## Auto -/

inductive AutoFollowUp where
  | pinned (route : RouteDecision)
  | routed (route : Option RouteDecision) (observed : Chat)

/-- The person picked another model. -/
def picked (chat : Chat) (follow : Follow) (currentProvider : ProviderId) : Bool :=
  follow.modelId.any (· != chat.modelId) || follow.provider.any (· != currentProvider) ||
    follow.reasoningEffort.any fun effort =>
      some effort != chat.reasoningEffort.bind parseReasoningEffort

/-- `route_follow_up`, of a chat that was read. What Jev is asked for comes to `classified`. -/
def routeFollowUp (classified : RouteDecision) (chat : Chat) (follow : Follow) (classify : Bool) :
    ArgmaxResult (Option AutoFollowUp) :=
  match chat.autoTier.bind parseTier with
  | none => .ok none
  | some tier => do
    let currentProvider ← parseProvider chat.provider
    if picked chat follow currentProvider then
      pure (some (.pinned
        { tier := tier
          provider := follow.provider.getD currentProvider
          modelId := follow.modelId.getD chat.modelId
          modelLabel := follow.modelLabel.getD chat.modelLabel
          effort := follow.reasoningEffort.or (chat.reasoningEffort.bind parseReasoningEffort)
          decision := .pinned
          reason := "user picked a model" }))
    else if classify then pure (some (.routed (some classified) chat))
    else pure (some (.routed none chat))

/-- `NonEmptyString::try_from`. -/
def nonEmptyString (value : String) : ArgmaxResult String :=
  if value.isEmpty then
    .error (.invalid ⟨["value"], "STRING_EMPTY", "must not be empty"⟩)
  else .ok value

/-- A follow-up that names neither a provider nor a model. -/
def Follow.withoutModel (follow : Follow) : Follow :=
  { follow with provider := none, modelId := none, modelLabel := none, reasoningEffort := none }

/-- The session is not the one that was classified. -/
def changedSince (observed chat : Chat) : Bool :=
  observed.provider != chat.provider || observed.modelId != chat.modelId ||
    observed.reasoningEffort != chat.reasoningEffort || observed.autoTier != chat.autoTier ||
      observed.lastActivityAt != chat.lastActivityAt ||
        observed.rows.child.providerConversationId != chat.rows.child.providerConversationId

/-- A route that moves the chat is what the follow-up asks for. -/
def followRoute (follow : Follow) (route : RouteDecision) :
    ArgmaxResult (Follow × Option RouteDecision) :=
  if route.decision = .reroute ∨ route.decision = .escalate then do
    let modelLabel ← nonEmptyString route.modelLabel
    let modelId ← nonEmptyString route.modelId
    pure ({ follow with
        provider := some route.provider
        modelLabel := some modelLabel
        modelId := some modelId
        reasoningEffort := route.effort }, some route)
  else .ok (follow, some route)

def applyAutoFollowUp (follow : Follow) (autoFollowUp : Option AutoFollowUp) (chat : Chat) :
    ArgmaxResult (Follow × Option RouteDecision) :=
  match autoFollowUp with
  | none => .ok (follow, none)
  | some (.pinned route) => .ok (follow, some route)
  | some (.routed route observed) =>
    let follow := { follow with fastMode := false }
    if changedSince observed chat then
      let follow := follow.withoutModel
      match chat.autoTier.bind parseTier with
      | none => .ok (follow, none)
      | some tier => do
        let provider ← parseProvider chat.provider
        followRoute follow
          { tier := tier
            provider := provider
            modelId := chat.modelId
            modelLabel := chat.modelLabel
            effort := chat.reasoningEffort.bind parseReasoningEffort
            decision := .kept
            reason := "Session changed during classification, retaining its admitted route" }
    else
      match route with
      | none => .ok (follow, none)
      | some route => followRoute follow route

end Argmax.Providers.SendInput
