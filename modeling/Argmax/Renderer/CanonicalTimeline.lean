import Argmax.Persistence.TimelineSemantics
import Argmax.Renderer.TurnBoundaries

/-!
# The canonical event of a timeline row

`canonicalTimeline.ts`, with what it uses of `toolCalls.ts` and `toolActivity.ts`. A row that
comes with its meaning is decoded by it. For one without, of an older host, each decoder falls
back to the payload. Both read the details of a card from the payload.

The row itself, which the canonical event refers to, is left out.
-/

namespace Argmax.CanonicalTimeline

open Argmax.Lib Argmax.Providers Argmax.Persistence.Timeline
open Argmax.Renderer (jsTrim)

/-- The reading of JSON texts, and the lower case of a text. -/
structure Runtime where
  /-- `JSON.parse`, none for a syntax error. -/
  parse : String → Option Json
  toLowerCase : String → String
  /-- A word of ASCII letters is the lower case of its ASCII spellings only. The Kelvin sign
  has the lower case `k`. -/
  toLowerCase_eq : ∀ text word : String,
    (∀ c ∈ word.toList, c.toNat < 128 ∧ c.toLower = c ∧ c ≠ 'k') →
      (toLowerCase text = word ↔ asciiLowercase text = word)

/-! ## Values -/

def stringValue (value : Option Json) : Option String :=
  (value.bind Json.asStr).filter fun text => text != ""

def objectValue (value : Option Json) : Option Json := value.filter isObject

def nonBlankString (value : Option Json) : Option String :=
  (value.bind Json.asStr).filter fun text => !(jsTrim text).isEmpty

/-- `payload.key === text`. -/
def equals (payload : Json) (key word : String) : Bool :=
  payload.get key == some (.string word)

/-- `payload.key === true`. -/
def strictTrue (payload : Json) (key : String) : Bool := payload.get key == some (.bool true)

def positiveNumber (value : Option Json) : Option Number :=
  match value with
  | some (.number (.posInt n)) => if 0 < n then some (.posInt n) else none
  | some (.number (.float bits)) => if bits.msb || bits == 0 then none else some (.float bits)
  | _ => none

/-! ## Tools -/

section Tools

variable (js : Runtime)

def inputRecord : Option Json → Json
  | some (.object fields) => .object fields
  | some (.string text) => ((js.parse text).filter isObject).getD (.object [])
  | _ => .object []

/-- `a ?? b`. -/
def orElse (value other : Option Json) : Option Json := (value.filter (· != .null)).or other

/-- The tool that Cursor's wrapper carries in its input. -/
def wrappedToolName (name : Option String) (input : Json) : Option String :=
  let lower := name.map js.toLowerCase
  let embedded := if lower = some "other" then stringValue (input.get "_toolName") else none
  let mcp :=
    if lower = some "mcptoolcall" ∨ lower = some "getmcptoolstoolcall" then
      let server := orElse (input.get "serverIdentifier")
        (orElse (input.get "providerIdentifier") (input.get "server"))
      match stringValue server, stringValue (input.get "toolName") with
      | some server, some tool => some (mcpName server tool)
      | _, _ => none
    else none
  embedded.or mcp

/-- The tool that Codex names at the root of a payload. -/
def rootToolName (payload : Json) : Option String :=
  match stringValue (payload.get "server"), stringValue (payload.get "tool") with
  | some server, some tool =>
    some (if tool.toList.contains '.' then tool else mcpName server tool)
  | _, _ => none

def extractToolName (payload : Json) : String :=
  let payloadName := (payload.get "name").bind Json.asStr
  let input := inputRecord js (payload.get "input")
  let type := ((payload.get "type").bind Json.asStr).filter fun type => type != "command.started"
  ((wrappedToolName js payloadName input).or
    ((rootToolName payload).or ((payloadName.filter fun name => name != "").or type))).getD "tool"

def extractToolUseId (payload : Json) : Option String :=
  (stringValue (payload.get "id")).or (stringValue (payload.get "call_id"))

def extractCompletionCorrelationId (payload : Json) : Option String :=
  (stringValue (payload.get "tool_use_id")).or (extractToolUseId payload)

/-- `/fail|error/i.test(status)`: no character outside ASCII folds to one of these. -/
def namesFailure (status : String) : Bool :=
  let status := (asciiLowercase status).toList
  Text.containsText status "fail".toList || Text.containsText status "error".toList

def isArray : Json → Bool
  | .array _ => true
  | _ => false

def detectToolError (payload : Json) : Bool :=
  strictTrue payload "is_error" || strictTrue payload "isError" ||
    (stringValue (payload.get "error")).isSome ||
    -- `typeof` calls an array an object as well.
    (payload.get "error").any (fun error => isObject error || isArray error) ||
    ((payload.get "status").bind Json.asStr).any namesFailure

def activityKinds : List String :=
  ["read", "edit", "image", "search", "list", "web-search", "web-fetch", "discovery", "command",
    "tool", "agent", "skill", "image-capture", "image-generate", "computer", "agent-message",
    "agent-wait", "agent-stop", "memory-recall", "memory-save", "git", "browser", "plan"]

def oneOf (words : List String) (value : Option Json) : Bool :=
  (value.bind Json.asStr).any words.contains

/-- `Number.isSafeInteger` of a number that is not negative. -/
def isSafeCount : Number → Bool
  | .posInt n => decide (n < 2 ^ 53)
  | .negInt _ => false
  | .float bits =>
    let exponent := (bits.extractLsb 62 52).toNat
    let mantissa := (bits.extractLsb 51 0).toNat
    if exponent = 0 then decide (mantissa = 0)
    else !bits.msb && decide (exponent ≤ 1075) &&
      decide ((2 ^ 52 + mantissa) % 2 ^ (1075 - exponent) = 0)

def decodeToolActivity (value : Option Json) : Option Json :=
  value.filter fun value =>
    isObject value &&
      (value.get "version" == some (.number (.posInt 1)) ||
        value.get "version" == some (.number (.float 0x3FF0000000000000))) &&
      oneOf activityKinds (value.get "kind") &&
      oneOf ["native", "tool", "command"] (value.get "evidence") &&
      ((value.get "targets").bind Json.asArray).any
        (fun targets => targets.all fun path => (stringValue (some path)).isSome) &&
      ((value.get "operation").isNone ||
        oneOf ["create", "edit", "delete", "move"] (value.get "operation")) &&
      (match value.get "toolCount" with
        | none => true
        | some (.number count) => isSafeCount count
        | some _ => false)

end Tools

/-! ## Canonical events -/

structure CanonicalMessageEvent where
  role : MessageRole
  delivery : Option MessageDelivery
  phase : MessagePhase
  content : MessageContent
  childProse : Bool
  rawStream : Bool
  cumulativeText : Option String

structure CanonicalToolEvent where
  phase : ToolPhase
  toolUseId : Option String
  name : String
  providerName : Option String
  invocationId : Option String
  activity : Option Json
  surface : Option String
  outcome : Option ToolOutcome
  running : Bool
  traceSyntheticLaunch : Bool

structure CanonicalApprovalEvent where
  phase : ApprovalPhase
  approvalId : Option String
  provider : Option String
  providerRequestId : Option String
  toolUseId : Option String
  resolution : Option String
  command : Option String
  cwd : Option String
  riskLevel : Option String

structure ProjectSourceActivity where
  sourceId : String
  title : String
  kind : String
  location : String
  guidance : String
  action : String
  readAt : String
  readLocation : Option String
  truncated : Bool

inductive CanonicalLifecycleEvent where
  | plain (name : LifecycleName)
  | compaction (name : LifecycleName) (preTokens postTokens : Option Number)
  | providerChanged (source : Option String) (target : String) (modelLabel : Option String)
  | moveRequested (destinationProjectId destinationProjectName : Option String)
      (worktree keepSource : Option Bool)
  | archiveRequested (workspaceId : Option String)
  | note (operation : Option String) (sourceActivity : Option ProjectSourceActivity)
  | moved (direction sourceSessionId sourceWorkspaceId sourceProjectName destinationSessionId
      destinationWorkspaceId destinationProjectName destinationPath checkoutMode
      sourceArchiveState : Option String)

structure CanonicalMultitaskEvent where
  phase : MultitaskPhase
  childSessionId : Option String
  state : Option String
  taskLabel : String
  prompt : Option String
  worktree : Bool
  answer : Option String

structure CanonicalErrorEvent where
  code : Option String
  operation : Option String
  isPayloadTruncation : Bool

inductive CanonicalEvent where
  | message (message : CanonicalMessageEvent)
  | tool (tool : CanonicalToolEvent)
  | approval (approval : CanonicalApprovalEvent)
  | lifecycle (lifecycle : CanonicalLifecycleEvent)
  | agent (agent : Agent)
  | multitask (multitask : CanonicalMultitaskEvent)
  | error (error : CanonicalErrorEvent)
  | visualization (visualization : Visualization)
  | unknown (reason : UnknownReason)

structure CanonicalTimelineEvent where
  common : TimelineContext
  event : CanonicalEvent

/-- A row, with its meaning where the host has sent it. -/
structure RawTimelineEvent extends TimelineEvent where
  semantic : Option TimelineSemantics

/-! ## Decoding -/

section Decode

variable (js : Runtime)

def providerThreadId (payload : Json) : Option String :=
  let item := objectValue (payload.get "item")
  let isAgentMessage :=
    equals payload "item_type" "agent_message" || item.any (equals · "type" "agent_message")
  if isAgentMessage then
    (stringValue (payload.get "thread_id")).or
      ((stringValue (payload.get "sender_thread_id")).or
        ((stringValue (item.bind (Json.get "thread_id"))).or
          (stringValue (item.bind (Json.get "sender_thread_id")))))
  else none

/-- The context of a row without semantics. -/
def legacyContext (payload : Json) : TimelineContext where
  parentToolUseId := stringValue (payload.get "parent_tool_use_id")
  providerThreadId := providerThreadId payload
  providerInvocationId := stringValue (payload.get "providerInvocationId")
  providerChildSessionId := nonBlankString (payload.get "providerChildSessionId")
  providerParentConversationId := nonBlankString (payload.get "providerParentConversationId")
  agentRunId := nonBlankString (payload.get "agentRunId")
  agentRootToolUseId := (nonBlankString (payload.get "agentRootToolUseId")).or
    (nonBlankString (payload.get "parentToolUseId"))
  agentCodename := nonBlankString (payload.get "agentCodename")
  agentModelId := nonBlankString (payload.get "agentModelId")
  agentReasoningEffort := nonBlankString (payload.get "agentReasoningEffort")
  isRaw := strictTrue payload "raw"
  traceSuperseded := strictTrue payload "traceSyntheticSuperseded"
  traceImported := strictTrue payload "traceImported"

/-- `raw.semantic?.version === 1 ? raw.semantic : null`. -/
def RawTimelineEvent.meaning (raw : RawTimelineEvent) : Option TimelineSemantics :=
  raw.semantic.filter fun semantic => semantic.version == 1

def common (raw : RawTimelineEvent) (payload : Json) : TimelineContext :=
  match raw.meaning with
  | some semantic => semantic.context
  | none => legacyContext payload

def cursorCumulativeText (payload : Json) : Option String :=
  if !equals payload "type" "assistant" then none
  else
    (((objectValue (payload.get "message")).bind (Json.get "content")).bind Json.asArray).bind
      fun content =>
        let parts := content.filterMap fun entry =>
          stringValue ((objectValue (some entry)).bind (Json.get "text"))
        if parts.isEmpty then none else some (String.join parts)

def decodeMessage (raw : RawTimelineEvent) (meaning : Option Message) : CanonicalMessageEvent :=
  let payload := raw.payload
  let shared := common raw payload
  let role := (meaning.map Message.role).getD
    (if raw.type = "user.message" then .user else .assistant)
  { role := role
    delivery :=
      match meaning with
      | some meaning => meaning.delivery
      | none =>
        if raw.type = "user.message" ∧ equals payload "delivery" "steer" then some .steer else none
    phase := (meaning.map Message.phase).getD
      (if raw.type = "message.delta" then .delta else .completed)
    content := (meaning.map Message.content).getD
      (if raw.type = "message.delta" ∧ strictTrue payload "thinking" then .thinking else .answer)
    childProse := decide (role ≠ .user) &&
      (shared.parentToolUseId.isSome || shared.providerThreadId.isSome)
    rawStream := (meaning.map Message.rawStream).getD
      (equals payload "stream" "stdout" || equals payload "stream" "stderr" ||
        equals payload "stream" "pty")
    cumulativeText :=
      match meaning with
      | some meaning => meaning.cumulativeText
      | none => cursorCumulativeText payload }

/-- The phase in the type of a tool row. -/
def toolPhase (type : String) : ToolPhase :=
  if type = "command.started" then .started
  else if type = "command.output" then .output
  else .completed

def decodeTool (raw : RawTimelineEvent) (meaning : Option Tool) : CanonicalToolEvent :=
  let payload := raw.payload
  let phase := (meaning.map Tool.phase).getD (toolPhase raw.type)
  let status := (stringValue (payload.get "status")).map js.toLowerCase
  { phase := phase
    toolUseId :=
      match meaning with
      | some meaning => meaning.toolUseId
      | none =>
        if phase = .started then (extractToolUseId payload).or (some raw.id)
        else extractCompletionCorrelationId payload
    name := (meaning.map Tool.name).getD (extractToolName js payload)
    providerName :=
      match meaning with
      | some meaning => meaning.providerName
      | none => stringValue (payload.get "name")
    invocationId := (common raw payload).providerInvocationId
    activity := decodeToolActivity (payload.get "activity")
    surface :=
      match meaning with
      | some meaning => meaning.surface
      | none => stringValue (payload.get "surface")
    outcome :=
      match meaning with
      | some meaning => meaning.outcome
      | none =>
        if phase = .completed then
          if strictTrue payload "cancelled" || strictTrue payload "canceled" ||
              status.any ["cancelled", "canceled", "interrupted"].contains then
            some .cancelled
          else if detectToolError payload then some .failed
          else some .succeeded
        else none
    running := (meaning.map Tool.running).getD
      (decide (phase ≠ .completed) || status.any ["running", "started", "in_progress"].contains)
    traceSyntheticLaunch := (meaning.map Tool.traceSyntheticLaunch).getD
      (strictTrue payload "traceSyntheticLaunch") }

def decodeApproval (raw : RawTimelineEvent) (meaning : Option Approval) : CanonicalApprovalEvent :=
  let payload := raw.payload
  let phase := (meaning.map Approval.phase).getD
    (if raw.type = "approval.requested" then .requested
      else if raw.type = "approval.resolved" then .resolved
      else .blocked)
  let legacy : Approval :=
    { phase := phase
      approvalId := stringValue (payload.get "approvalId")
      provider := stringValue (payload.get "provider")
      providerRequestId := stringValue (payload.get "providerRequestId")
      toolUseId := (stringValue (payload.get "toolUseId")).or
        (stringValue (payload.get "tool_use_id"))
      resolution := (stringValue (payload.get "status")).or
        (stringValue (payload.get "resolution")) }
  let read := meaning.getD legacy
  ⟨phase, read.approvalId, read.provider, read.providerRequestId, read.toolUseId,
    read.resolution, stringValue (payload.get "command"), stringValue (payload.get "cwd"),
    stringValue (payload.get "riskLevel")⟩

def decodeAgent (raw : RawTimelineEvent) (meaning : Option Agent) : Agent :=
  meaning.getD
    ⟨if raw.type = "agent.started" then .started else .completed,
      stringValue (raw.payload.get "status")⟩

/-- `PROVIDER_DISPLAY_NAMES[provider] ?? provider`. -/
def providerDisplayName (value : Option Json) : Option String :=
  (stringValue value).map fun
    | "claude" => "Claude"
    | "codex" => "Codex"
    | "cursor" => "Cursor"
    | "opencode" => "OpenCode"
    | "grok" => "Grok Build"
    | provider => provider

def decodeSourceActivity (payload : Json) (createdAt : String) : Option ProjectSourceActivity :=
  if !equals payload "operation" "project-source" then none
  else
    let source := objectValue (payload.get "source")
    let kind := ((source.bind (Json.get "kind")).bind Json.asStr).filter ["file", "url"].contains
    let action := ((payload.get "action").bind Json.asStr).filter ["read", "added"].contains
    match nonBlankString (source.bind (Json.get "id")),
      nonBlankString (source.bind (Json.get "title")),
      nonBlankString (source.bind (Json.get "location")), kind, action with
    | some sourceId, some title, some location, some kind, some action =>
      some
        { sourceId := sourceId
          title := title
          kind := kind
          location := location
          guidance := (stringValue (source.bind (Json.get "guidance"))).getD ""
          action := action
          readAt := ((nonBlankString (payload.get "readAt")).or
            (nonBlankString (payload.get "at"))).getD createdAt
          readLocation := nonBlankString (payload.get "location")
          truncated := strictTrue payload "truncated" }
    | _, _, _, _, _ => none

def decodeLifecycle (raw : RawTimelineEvent) (name : LifecycleName) : CanonicalLifecycleEvent :=
  let payload := raw.payload
  let value (key : String) := stringValue (payload.get key)
  match name with
  | .compacting | .compacted =>
    .compaction name (positiveNumber (payload.get "preTokens"))
      (positiveNumber (payload.get "postTokens"))
  | .providerChanged =>
    .providerChanged (providerDisplayName (payload.get "from"))
      ((providerDisplayName (payload.get "provider")).getD raw.message)
      (nonBlankString (payload.get "modelLabel"))
  | .moveRequested =>
    .moveRequested (value "destinationProjectId") (value "destinationProjectName")
      ((payload.get "worktree").bind Json.asBool) ((payload.get "keepSource").bind Json.asBool)
  | .archiveRequested => .archiveRequested (value "workspaceId")
  | .note => .note (value "operation") (decodeSourceActivity payload raw.createdAt)
  | .moved =>
    let among (key : String) (words : List String) :=
      ((payload.get key).bind Json.asStr).filter words.contains
    .moved (among "direction" ["source", "destination"]) (value "sourceSessionId")
      (value "sourceWorkspaceId") (value "sourceProjectName") (value "destinationSessionId")
      (value "destinationWorkspaceId") (value "destinationProjectName") (value "destinationPath")
      (among "checkoutMode" ["shared", "worktree", "attached"]) (value "sourceArchiveState")
  | name => .plain name

def decodeMultitask (raw : RawTimelineEvent) (meaning : Option Multitask) :
    CanonicalMultitaskEvent :=
  let payload := raw.payload
  let legacy : Multitask :=
    { phase := if raw.type = "multitask.launched" then .launched else .finished
      childSessionId := stringValue (payload.get "childSessionId")
      state := stringValue (payload.get "state")
      taskLabel := stringValue (payload.get "taskLabel")
      prompt := stringValue (payload.get "prompt")
      worktree := strictTrue payload "worktree"
      answer := stringValue (payload.get "answer") }
  let read := meaning.getD legacy
  ⟨read.phase, read.childSessionId, read.state, read.taskLabel.getD raw.message, read.prompt,
    read.worktree, read.answer⟩

def decodeError (raw : RawTimelineEvent) (meaning : Option ErrorRow) : CanonicalErrorEvent :=
  let payload := raw.payload
  let read := meaning.getD ⟨stringValue (payload.get "code"), stringValue (payload.get "operation")⟩
  ⟨read.code, read.operation,
    decide (raw.message = "event payload truncated") && (payload.get "truncatedEventId").isSome⟩

/-- A published visualization, from the payload alone. -/
def legacyVisualization (payload : Json) : Option Visualization :=
  let read (key : String) := (payload.get key).bind Json.asStr
  match read "artifactId", read "title", read "summary", visualizationFormat (read "format") with
  | some id, some title, some summary, some format =>
    some ⟨id, title, format, summary, if equals payload "mode" "wide" then some .wide else none⟩
  | _, _, _, _ => none

/-- The canonical event of a row without semantics. -/
def decodeLegacy (raw : RawTimelineEvent) : CanonicalEvent :=
  match raw.type with
  | "visualization.published" =>
    match legacyVisualization raw.payload with
    | some visualization => .visualization visualization
    | none => .unknown .unsupportedType
  | "user.message" | "message.delta" | "message.completed" => .message (decodeMessage raw none)
  | "command.started" | "command.output" | "command.completed" => .tool (decodeTool js raw none)
  | "approval.requested" | "approval.resolved" | "permission.blocked" =>
    .approval (decodeApproval raw none)
  | "agent.started" | "agent.completed" => .agent (decodeAgent raw none)
  | "multitask.launched" | "multitask.finished" => .multitask (decodeMultitask raw none)
  | "error" => .error (decodeError raw none)
  | type =>
    match lifecycleName type with
    | some name => .lifecycle (decodeLifecycle raw name)
    | none => .unknown .unsupportedType

/-- The canonical event of a row with its meaning. -/
def decodeMeant (raw : RawTimelineEvent) : SemanticEvent → CanonicalEvent
  | .message meaning => .message (decodeMessage raw (some meaning))
  | .tool meaning => .tool (decodeTool js raw (some meaning))
  | .approval meaning => .approval (decodeApproval raw (some meaning))
  | .agent meaning => .agent (decodeAgent raw (some meaning))
  | .lifecycle name => .lifecycle (decodeLifecycle raw name)
  | .multitask meaning => .multitask (decodeMultitask raw (some meaning))
  | .visualization meaning => .visualization meaning
  | .error meaning => .error (decodeError raw (some meaning))
  | .unknown reason => .unknown reason

def decodeTimelineEvent (raw : RawTimelineEvent) : CanonicalTimelineEvent :=
  if !isObject raw.payload || strictTrue raw.payload "__argmaxInvalidPayload" then
    ⟨common raw (.object []), .unknown .invalidPayload⟩
  else
    { common := common raw raw.payload
      event :=
        match raw.meaning with
        | some meaning => decodeMeant js raw meaning.event
        | none => decodeLegacy js raw }

end Decode

end Argmax.CanonicalTimeline
