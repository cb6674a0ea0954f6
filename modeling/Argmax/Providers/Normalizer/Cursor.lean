import Argmax.Providers.Normalizer.Todo

/-!
# The lines of Cursor

`providers/normalizer/cursor.rs` and the path of a Cursor line through
`normalize_json_payload`. The text of a turn is cumulative: each line carries all of it, and
what is new is emitted. When the turn is over, its answer is the text behind the latest tool
call.

The price of a turn and the activity that is read off a tool call are parameters.
-/

namespace Argmax.Providers.Normalizer.Cursor

open Argmax.Lib.Text Argmax.Providers.Normalizer

/-- What the model takes from elsewhere: `enrich_tool_activity` on the payload of a tool
call, and `cost_of`. -/
structure Library where
  enrichToolActivity : String → Json → Json
  costOf : UsageCounts → String → BitVec 64

/-- The Cursor part of a `NormalizerSessionContext`. -/
structure Context where
  cursorCurrentModel : Option String
  cursorAssistantText : Option (List Char)
  /-- In bytes. -/
  cursorAnswerStart : ℕ
  cursorTurnCompletedEmitted : Bool

variable (lib : Library)

def timelineEvent (event : ProviderOutputEvent) (eventType message : String) (payload : Json) :
    PersistTimelineEventInput :=
  let payload :=
    if "command.".toList <+: eventType.toList then lib.enrichToolActivity eventType payload
    else payload
  ⟨event.sessionId, eventType, message, payload⟩

/-! ## Text -/

/-- `Value::as_f64` gives a number. -/
def isNumber : Json → Bool
  | .number _ => true
  | _ => false

def hasTimestamp (payload : Fields) : Bool := (payload.field "timestamp_ms").any isNumber

def extractMessageContent (payload : Fields) : Option String :=
  (((objectValue (payload.field "message")).bind fun message =>
      arrayValue (message.field "content")).or (arrayValue (payload.field "content"))).bind
    fun content =>
      let text := String.join ((content.filterMap fun entry => objectValue (some entry)).filterMap
        fun entry => stringValue (entry.field "text"))
      if text.isEmpty then none else some text

def extractDeltaText (payload : Fields) : Option String :=
  (objectValue (payload.field "delta")).bind fun delta =>
    match stringValue (delta.field "type") with
    | some "thinking_delta" => stringValue (delta.field "thinking")
    | some "signature_delta" => none
    | _ => stringValue (delta.field "text")

def itemOf (payload : Fields) : Option Fields := objectValue (payload.field "item")

def itemTypeOf (payload : Fields) : Option String :=
  (itemOf payload).bind fun item => stringValue (item.field "type")

def extractMessageText (payload : Fields) : Option String :=
  ((((((itemOf payload).bind fun item => stringValue (item.field "text")).or
    (stringValue (payload.field "text"))).or (stringValue (payload.field "message"))).or
      (extractMessageContent payload)).or (extractDeltaText payload))

def normalizeAssistantText (text : Option (List Char)) (payload : Fields)
    (providerType : Option String) (context : Context) : Context × Option (List Char) :=
  if providerType ≠ some "assistant" then (context, text)
  else
    match text with
    | none => (context, none)
    | some text =>
      if !hasTimestamp payload then
        ({ context with cursorAssistantText := none, cursorAnswerStart := 0 }, some text)
      else
        let prior := context.cursorAssistantText.getD []
        let context := { context with cursorAssistantText := some text }
        if prior <+: text then (context, some (text.drop prior.length))
        else ({ context with cursorAnswerStart := 0 }, some text)

/-- `str::get` from a byte on: the rest of the text, when a character begins there. -/
def getFrom : ℕ → List Char → Option (List Char)
  | 0, text => some text
  | _ + 1, [] => none
  | start + 1, c :: text =>
    if c.utf8Size ≤ start + 1 then getFrom (start + 1 - c.utf8Size) text else none

/-- Nothing but white space. -/
def isBlank (text : List Char) : Bool := (trim text).isEmpty

def takeFinalAnswer (context : Context) : Context × Option (List Char) :=
  let taken := { context with cursorAnswerStart := 0, cursorAssistantText := none }
  match context.cursorAssistantText with
  | none => (taken, none)
  | some text =>
    let answer := ((getFrom context.cursorAnswerStart text).map trimStart).getD []
    if !isBlank answer then (taken, some answer)
    else if !isBlank text then (taken, some text)
    else (taken, none)

def normalizeResultSuccess (event : ProviderOutputEvent) (context : Context) :
    Context × List PersistTimelineEventInput :=
  let final := takeFinalAnswer context
  let completed := final.2.map fun text =>
    timelineEvent lib event "message.completed" (String.ofList text)
      (.object [("synthesizedFromResult", .bool true), ("text", .string (String.ofList text))])
  ({ final.1 with cursorTurnCompletedEmitted := true },
    completed.toList ++ [timelineEvent lib event "session.completed" ""
      (.object [("cursorResultSuccess", .bool true)])])

def synthesizeMessageCompletedFromExit (event : ProviderOutputEvent) (context : Context) :
    Context × Option PersistTimelineEventInput :=
  if context.cursorTurnCompletedEmitted then (context, none)
  else
    let final := takeFinalAnswer context
    match final.2 with
    | none => (final.1, none)
    | some text =>
      ({ final.1 with cursorTurnCompletedEmitted := true },
        some (timelineEvent lib event "message.completed" (String.ofList text)
          (.object [("synthesizedFromExit", .bool true), ("text", .string (String.ofList text))])))

/-! ## Tools -/

def wrappedToolCall (payload : Fields) : Option (String × Fields) :=
  (objectValue (payload.field "tool_call")).bind fun call =>
    call.findSome? fun entry => (objectValue (some entry.2)).map fun body => (entry.1, body)

def resolveToolName : Option (String × Fields) → String
  | none => "tool_call"
  | some (kind, body) =>
    if kind ≠ "other" then kind
    else
      ((objectValue (body.field "args")).bind fun args => stringValue (args.field "_toolName")).getD
        kind

/-- A field that may be left out. -/
def insertOptional (key : String) (value : Option Json) (payload : Fields) : Fields :=
  match value with
  | some value => Json.insertField key value payload
  | none => payload

def normalizeToolCall (event : ProviderOutputEvent) (payload : Fields)
    (providerType : Option String) : Option PersistTimelineEventInput :=
  if providerType ≠ some "tool_call" then none
  else
    (stringValue (payload.field "subtype")).bind fun subtype =>
      if subtype ≠ "started" ∧ subtype ≠ "completed" then none
      else
        let wrapped := wrappedToolCall payload
        let toolName := resolveToolName wrapped
        let args := (wrapped.bind fun call => objectValue (call.2.field "args")).getD []
        let flattened := Json.insertField "name" (.string toolName) []
        let flattened := Json.insertField "input" (.object args) flattened
        let flattened := insertOptional "result" (wrapped.bind fun call => call.2.field "result")
          flattened
        let flattened := insertOptional "status"
          ((stringValue (payload.field "status")).map .string) flattened
        let flattened := insertOptional "call_id"
          ((stringValue (payload.field "call_id")).map .string) flattened
        let flattened := Json.insertField "raw" (.object payload) flattened
        let flattened := if isTodoTool toolName then stampTodoSurface flattened else flattened
        some (timelineEvent lib event
          (if subtype = "started" then "command.started" else "command.completed") toolName
          (.object flattened))

def normalizeTodoCall (event : ProviderOutputEvent) (payload : Fields)
    (providerType : Option String) : Option PersistTimelineEventInput :=
  if providerType ≠ some "tool_call" ∨ stringValue (payload.field "subtype") ≠ some "started" then
    none
  else
    (wrappedToolCall payload).bind fun call =>
      if !isTodoTool call.1 then none
      else
        (objectValue (call.2.field "args")).bind fun args =>
          (todosArrayUpdate args).map fun update =>
            todoEvent event update (stringValue (payload.field "call_id"))

def normalizePlanUpdate (event : ProviderOutputEvent) (payload : Fields)
    (providerType : Option String) : Option PersistTimelineEventInput :=
  if providerType ≠ some "plan" then none
  else
    (payload.field "entries").bind fun entries =>
      (todosArrayUpdate [("todos", entries)]).map fun update => todoEvent event update none

/-- A text that is not blank. -/
def visibleText (value : Option Json) : Option String :=
  (stringValue value).filter fun text => !isBlank text.toList

def cursorTaskResultSummary (success : Fields) : Option String :=
  (arrayValue (success.field "conversationSteps")).bind fun steps =>
    steps.findSome? fun step =>
      (objectValue (step.get "assistantMessage")).bind fun message => visibleText (message.field "text")

def nativeAgentLifecycleEvents (event : ProviderOutputEvent) (payload : Fields)
    (providerType : Option String) : List PersistTimelineEventInput :=
  if providerType ≠ some "tool_call" ∨ stringValue (payload.field "subtype") ≠ some "completed" then
    []
  else
    let task := (objectValue (payload.field "tool_call")).bind fun call =>
      objectValue ((call.field "taskToolCall").or (call.field "task"))
    let success := task.bind fun task => (objectValue (task.field "result")).bind fun result =>
      objectValue (result.field "success")
    match task, success.bind (fun success => stringValue (success.field "agentId")),
        stringValue (payload.field "session_id"), stringValue (payload.field "call_id") with
    | some task, some childId, some parentId, some runId =>
      let lifecycle := Json.insertField "providerParentConversationId" (.string parentId) payload
      let lifecycle := Json.insertField "providerChildSessionId" (.string childId) lifecycle
      let lifecycle := Json.insertField "agentRunId" (.string runId) lifecycle
      let lifecycle := Json.insertField "status" (.string "completed") lifecycle
      let startedMessage := ((objectValue (task.field "args")).bind fun args =>
        visibleText (args.field "description")).getD "Agent started"
      let completedMessage := (success.bind cursorTaskResultSummary).getD "Agent completed"
      [timelineEvent lib event "agent.started" startedMessage (.object lifecycle),
        timelineEvent lib event "agent.completed" completedMessage (.object lifecycle)]
    | _, _, _, _ => []

/-! ## Lines -/

def normalizeThinkingDelta (event : ProviderOutputEvent) (payload : Fields)
    (providerType : Option String) : Option PersistTimelineEventInput :=
  if providerType ≠ some "thinking" ∨ stringValue (payload.field "subtype") ≠ some "delta" then none
  else
    (visibleText (payload.field "text")).map fun text =>
      let thinking := Json.insertField "thinking" (.bool true) payload
      let thinking := Json.insertField "providerEventType" (.string "thinking") thinking
      timelineEvent lib event "message.delta" text (.object thinking)

def extractUsage (payload : Fields) (providerType : Option String) (context : Context) :
    Option NormalizedUsage :=
  if providerType ≠ some "result" ∨ stringValue (payload.field "subtype") ≠ some "success" then none
  else
    (objectValue (payload.field "usage")).bind fun usage =>
      let tokens : UsageCounts :=
        { input := numberValue (usage.field "inputTokens")
          output := numberValue (usage.field "outputTokens")
          cacheRead := numberValue (usage.field "cacheReadTokens")
          cacheWrite := numberValue (usage.field "cacheWriteTokens") }
      if (tokens.input + tokens.output + tokens.cacheRead + tokens.cacheWrite) % 2 ^ 64 = 0 then none
      else
        let modelId := context.cursorCurrentModel.getD "cursor-unknown"
        some ⟨modelId, tokens, lib.costOf tokens modelId, none, none, none⟩

/-- `is_lifecycle_event` of all providers. -/
def isLifecycleEvent (providerType itemType : Option String) : Bool :=
  itemType != some "agent_message" &&
    [some "thread.started", some "turn.started", some "turn.completed",
      some "session.started"].contains providerType

/-- `is_lifecycle_event` of Cursor. -/
def isCursorLifecycleEvent (providerType subtype : Option String) : Bool :=
  (providerType == some "system" && subtype == some "init") ||
    (providerType == some "result" && subtype == some "success") ||
    providerType == some "user" || providerType == some "thinking"

/-- `map_provider_type` for Cursor. -/
def mapProviderType (providerType itemType : Option String) (payload : Fields) : Option String :=
  if itemType = some "agent_message" then some "message.completed"
  else if providerType = some "assistant" then
    some (if hasTimestamp payload then "message.delta" else "message.completed")
  else if providerType = some "error" then some "error"
  else none

def isMessageEvent (eventType : Option String) : Bool :=
  eventType == some "message.delta" || eventType == some "message.completed"

/-- The end of `normalize_json_payload`: a line with a text, or of a known type. -/
def normalizeTextLine (event : ProviderOutputEvent) (payload : Fields) (context : Context) :
    Context × List PersistTimelineEventInput :=
  let providerType := stringValue (payload.field "type")
  let read := normalizeAssistantText ((extractMessageText payload).map String.toList) payload
    providerType context
  let mappedType := mapProviderType providerType (itemTypeOf payload) payload
  if read.2.isNone && (isMessageEvent mappedType || mappedType.isNone) then (read.1, [])
  else
    let finalPayload :=
      if mappedType.isSome then payload
      else insertOptional "unknownType" (providerType.map .string) payload
    (read.1, [timelineEvent lib event (mappedType.getD "message.delta")
      ((read.2.map String.ofList).getD (providerType.getD "Provider event")) (.object finalPayload)])

/-- `normalize_json_payload` for Cursor: the events of a line. -/
def normalizeEvents (event : ProviderOutputEvent) (payload : Fields) (context : Context) :
    Context × List PersistTimelineEventInput :=
  let providerType := stringValue (payload.field "type")
  let subtype := stringValue (payload.field "subtype")
  if isLifecycleEvent providerType (itemTypeOf payload) then (context, [])
  else if isCursorLifecycleEvent providerType subtype then
    match normalizeThinkingDelta lib event payload providerType with
    | some thinking => (context, [thinking])
    | none =>
      if providerType = some "result" ∧ subtype = some "success" then
        normalizeResultSuccess lib event context
      else (context, [])
  else
    match normalizePlanUpdate event payload providerType with
    | some todo => (context, [todo])
    | none =>
      match normalizeToolCall lib event payload providerType with
      | some tool =>
        ({ context with
            cursorAnswerStart := byteLength (context.cursorAssistantText.getD []) },
          tool :: (normalizeTodoCall event payload providerType).toList ++
            nativeAgentLifecycleEvents lib event payload providerType)
      | none => normalizeTextLine lib event payload context

/-- The conversation id that a line carries. -/
def conversationId (payload : Fields) : Option String :=
  let providerType := stringValue (payload.field "type")
  let subtype := stringValue (payload.field "subtype")
  if (providerType = some "system" ∧ subtype = some "init") ∨
      (providerType = some "result" ∧ subtype = some "success") then
    stringValue (payload.field "session_id")
  else none

/-- `normalize_json_payload` for Cursor. -/
def normalizeJsonPayload (event : ProviderOutputEvent) (payload : Fields) (context : Context) :
    Context × NormalizedProviderResult :=
  let usage := extractUsage lib payload (stringValue (payload.field "type")) context
  let read := normalizeEvents lib event payload context
  (read.1, ⟨read.2, usage.toList, [], false, conversationId payload⟩)

end Argmax.Providers.Normalizer.Cursor
