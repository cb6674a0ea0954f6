import Argmax.Json
import Argmax.Lib.Text

/-!
# What a timeline row means

`persistence/timeline_semantics.rs`, and the two functions of `providers/tool_activity.rs`
it uses. The host derives the meaning of a row from its type, its id and its payload, and
sends it along with the row.

Which texts are UUIDs is a parameter.
-/

namespace Argmax.Persistence.Timeline

open Argmax.Lib

/-! ## The meaning -/

structure TimelineContext where
  parentToolUseId : Option String
  providerThreadId : Option String
  providerInvocationId : Option String
  providerChildSessionId : Option String
  providerParentConversationId : Option String
  agentRunId : Option String
  agentRootToolUseId : Option String
  agentCodename : Option String
  agentModelId : Option String
  agentReasoningEffort : Option String
  isRaw : Bool
  traceSuperseded : Bool
  traceImported : Bool

/-- `TimelineContext::default`. -/
def TimelineContext.empty : TimelineContext :=
  ⟨none, none, none, none, none, none, none, none, none, none, false, false, false⟩

inductive MessageRole where
  | user
  | assistant
  deriving DecidableEq

inductive MessagePhase where
  | delta
  | completed
  deriving DecidableEq

inductive MessageContent where
  | answer
  | thinking
  deriving DecidableEq

inductive MessageDelivery where
  | steer

inductive ToolPhase where
  | started
  | output
  | completed
  deriving DecidableEq

inductive ToolOutcome where
  | succeeded
  | failed
  | cancelled

inductive ApprovalPhase where
  | requested
  | resolved
  | blocked

inductive AgentPhase where
  | started
  | completed

inductive MultitaskPhase where
  | launched
  | finished

inductive LifecycleName where
  | started
  | streaming
  | completed
  | cancelled
  | cleared
  | recoveredFromCrash
  | compacting
  | compacted
  | providerChanged
  | moveRequested
  | archiveRequested
  | moved
  | note

inductive VisualizationFormat where
  | html
  | image

inductive VisualizationMode where
  | wide

inductive UnknownReason where
  | invalidPayload
  | unsupportedType

structure Message where
  role : MessageRole
  phase : MessagePhase
  content : MessageContent
  delivery : Option MessageDelivery
  rawStream : Bool
  cumulativeText : Option String

structure Tool where
  phase : ToolPhase
  toolUseId : Option String
  name : String
  providerName : Option String
  outcome : Option ToolOutcome
  running : Bool
  surface : Option String
  traceSyntheticLaunch : Bool

structure Approval where
  phase : ApprovalPhase
  approvalId : Option String
  provider : Option String
  providerRequestId : Option String
  toolUseId : Option String
  resolution : Option String

structure Agent where
  phase : AgentPhase
  status : Option String

structure Multitask where
  phase : MultitaskPhase
  childSessionId : Option String
  state : Option String
  taskLabel : Option String
  prompt : Option String
  worktree : Bool
  answer : Option String

structure Visualization where
  artifactId : String
  title : String
  format : VisualizationFormat
  summary : String
  mode : Option VisualizationMode

structure ErrorRow where
  code : Option String
  operation : Option String

inductive SemanticEvent where
  | message (message : Message)
  | tool (tool : Tool)
  | approval (approval : Approval)
  | agent (agent : Agent)
  | lifecycle (name : LifecycleName)
  | multitask (multitask : Multitask)
  | visualization (visualization : Visualization)
  | error (error : ErrorRow)
  | unknown (reason : UnknownReason)

structure TimelineSemantics where
  version : ℕ
  context : TimelineContext
  event : SemanticEvent

/-! ## Reading a payload -/

/-- A text that is not empty. -/
def nonEmpty (value : Option Json) : Option String :=
  (value.bind Json.asStr).filter fun text => text != ""

/-- `payload.get(key)` is a text. -/
def text (payload : Json) (key : String) : Option String := (payload.get key).bind Json.asStr

/-- `payload.get(key)` is `true`. -/
def flag (payload : Json) (key : String) : Bool := (payload.get key).bind Json.asBool == some true

def field (payload : Json) (key : String) : Option String := nonEmpty (payload.get key)

def firstField (payload : Json) (keys : List String) : Option String :=
  keys.findSome? (field payload)

/-- `to_ascii_lowercase`. -/
def asciiLowercase (text : String) : String := String.ofList (text.toList.map Char.toLower)

def isObject : Json → Bool
  | .object _ => true
  | _ => false

/-! ## The context -/

def providerThreadId (payload : Json) : Option String :=
  let item := payload.get "item"
  let agentMessage :=
    field payload "item_type" == some "agent_message" ||
      item.bind (field · "type") == some "agent_message"
  if agentMessage then
    (firstField payload ["thread_id", "sender_thread_id"]).or
      (item.bind (firstField · ["thread_id", "sender_thread_id"]))
  else none

def context (payload : Json) : TimelineContext where
  parentToolUseId := firstField payload ["parent_tool_use_id", "parentToolUseId"]
  providerThreadId := providerThreadId payload
  providerInvocationId := field payload "providerInvocationId"
  providerChildSessionId := field payload "providerChildSessionId"
  providerParentConversationId := field payload "providerParentConversationId"
  agentRunId := field payload "agentRunId"
  agentRootToolUseId := firstField payload ["agentRootToolUseId", "parentToolUseId"]
  agentCodename := firstField payload ["agentCodename", "agentNickname"]
  agentModelId := field payload "agentModelId"
  agentReasoningEffort := field payload "agentReasoningEffort"
  isRaw := flag payload "raw"
  traceSuperseded := flag payload "traceSyntheticSuperseded"
  traceImported := flag payload "traceImported"

/-! ## Tools -/

/-- The tool of a server, as the namespace of the protocol has it. -/
def mcpName (server tool : String) : String := "mcp__" ++ server ++ "__" ++ tool

/-- The tool that Cursor's wrapper carries in its input. -/
def wrappedToolName (payload : Json) : Option String :=
  let input := (payload.get "input").filter isObject
  let name := (text payload "name").map asciiLowercase
  let embedded := if name = some "other" then input.bind (field · "_toolName") else none
  let mcp :=
    if name = some "mcptoolcall" ∨ name = some "getmcptoolstoolcall" then
      input.bind fun input =>
        let server := (["serverIdentifier", "providerIdentifier", "server"].findSome?
          (text input)).filter fun server => server != ""
        match server, field input "toolName" with
        | some server, some tool => some (mcpName server tool)
        | _, _ => none
    else none
  embedded.or mcp

/-- The tool that Codex names at the root of a payload. -/
def rootToolName (payload : Json) : Option String :=
  match field payload "server", field payload "tool" with
  | some server, some tool =>
    some (if tool.toList.contains '.' then tool else mcpName server tool)
  | _, _ => none

def semanticToolName (payload : Json) : String :=
  ((wrappedToolName payload).or
    ((rootToolName payload).or ((text payload "name").or (text payload "type")))).getD "tool"

def semanticToolFailed (payload : Json) : Bool :=
  flag payload "is_error" || flag payload "isError" ||
    ((payload.get "error").any isObject || (field payload "error").isSome) ||
    (text payload "status").any fun status =>
      let status := (asciiLowercase status).toList
      Text.containsText status "fail".toList || Text.containsText status "error".toList

def isCancelled (status : Option String) : Bool :=
  status.any ["cancelled", "canceled", "interrupted"].contains

def isRunning (status : Option String) : Bool :=
  status.any ["running", "started", "in_progress"].contains

def deriveTool (phase : ToolPhase) (eventId : String) (payload : Json) : Tool :=
  let status := (field payload "status").map asciiLowercase
  { phase
    toolUseId :=
      if phase = .started then (firstField payload ["id", "call_id"]).or (some eventId)
      else firstField payload ["tool_use_id", "id", "call_id"]
    name := semanticToolName payload
    providerName := field payload "name"
    outcome :=
      if phase ≠ .completed then none
      else if flag payload "cancelled" || flag payload "canceled" || isCancelled status then
        some .cancelled
      else if semanticToolFailed payload then some .failed
      else some .succeeded
    running := decide (phase ≠ .completed) || isRunning status
    surface := field payload "surface"
    traceSyntheticLaunch := flag payload "traceSyntheticLaunch" }

/-! ## Messages and the rest -/

/-- Cursor's text of the turn so far. -/
def cumulativeText (payload : Json) : Option String :=
  if field payload "type" ≠ some "assistant" then none
  else
    (((payload.get "message").bind (Json.get "content")).bind Json.asArray).bind fun content =>
      let text := String.join (content.filterMap (field · "text"))
      if text = "" then none else some text

def deriveMessage (role : MessageRole) (phase : MessagePhase) (payload : Json) : Message where
  role := role
  phase := phase
  content := if phase = .delta ∧ flag payload "thinking" then .thinking else .answer
  delivery := if role = .user ∧ field payload "delivery" = some "steer" then some .steer else none
  rawStream := (field payload "stream").any ["stdout", "stderr", "pty"].contains
  cumulativeText := cumulativeText payload

def deriveApproval (phase : ApprovalPhase) (payload : Json) : Approval where
  phase := phase
  approvalId := field payload "approvalId"
  provider := field payload "provider"
  providerRequestId := field payload "providerRequestId"
  toolUseId := firstField payload ["toolUseId", "tool_use_id"]
  resolution := firstField payload ["status", "resolution"]

def visualizationFormat : Option String → Option VisualizationFormat
  | some "html" => some .html
  | some "image" => some .image
  | _ => none

def deriveVisualization (isUuid : String → Bool) (payload : Json) : Option Visualization :=
  match field payload "artifactId", field payload "title", field payload "summary",
    visualizationFormat (field payload "format") with
  | some id, some title, some summary, some format =>
    if isUuid id then
      some ⟨id, title, format, summary,
        if field payload "mode" = some "wide" then some .wide else none⟩
    else none
  | _, _, _, _ => none

def deriveMultitask (phase : MultitaskPhase) (payload : Json) : Multitask where
  phase := phase
  childSessionId := field payload "childSessionId"
  state := field payload "state"
  taskLabel := field payload "taskLabel"
  prompt := field payload "prompt"
  worktree := flag payload "worktree"
  answer := field payload "answer"

def lifecycleName : String → Option LifecycleName
  | "session.started" => some .started
  | "session.streaming" => some .streaming
  | "session.completed" => some .completed
  | "session.cancelled" => some .cancelled
  | "session.cleared" => some .cleared
  | "session.recovered-from-crash" => some .recoveredFromCrash
  | "session.compacting" => some .compacting
  | "session.compacted" => some .compacted
  | "session.provider-changed" => some .providerChanged
  | "session.move-requested" => some .moveRequested
  | "session.archive-requested" => some .archiveRequested
  | "session.moved" => some .moved
  | "session.note" => some .note
  | _ => none

/-- The meaning of a row whose payload can be read. -/
def deriveEvent (isUuid : String → Bool) (eventType eventId : String) (payload : Json) :
    SemanticEvent :=
  match eventType with
  | "user.message" => .message (deriveMessage .user .completed payload)
  | "message.delta" => .message (deriveMessage .assistant .delta payload)
  | "message.completed" => .message (deriveMessage .assistant .completed payload)
  | "command.started" => .tool (deriveTool .started eventId payload)
  | "command.output" => .tool (deriveTool .output eventId payload)
  | "command.completed" => .tool (deriveTool .completed eventId payload)
  | "approval.requested" => .approval (deriveApproval .requested payload)
  | "approval.resolved" => .approval (deriveApproval .resolved payload)
  | "permission.blocked" => .approval (deriveApproval .blocked payload)
  | "agent.started" => .agent ⟨.started, field payload "status"⟩
  | "agent.completed" => .agent ⟨.completed, field payload "status"⟩
  | "visualization.published" =>
    match deriveVisualization isUuid payload with
    | some visualization => .visualization visualization
    | none => .unknown .invalidPayload
  | "multitask.launched" => .multitask (deriveMultitask .launched payload)
  | "multitask.finished" => .multitask (deriveMultitask .finished payload)
  | "error" => .error ⟨field payload "code", field payload "operation"⟩
  | _ =>
    match lifecycleName eventType with
    | some name => .lifecycle name
    | none => .unknown .unsupportedType

def derive (isUuid : String → Bool) (eventType eventId : String) (payload : Json) :
    TimelineSemantics where
  version := 1
  context := context payload
  event :=
    if !isObject payload || flag payload "parseError" then .unknown .invalidPayload
    else deriveEvent isUuid eventType eventId payload

end Argmax.Persistence.Timeline
