import Argmax.Providers.Normalizer.Cursor

/-!
# The content of an envelope

`extract_content_blocks` in `providers/normalizer/claude.rs`, for the assistant and user rows of
Claude and Grok. Text and thinking are gathered until a block of a tool or of a result comes, and
are then emitted in front of it. A block of a tool may turn into prose, and a list of tasks may come
with either.

What is read off a tool call and the list in a result of Grok are parameters.
-/

namespace Argmax.Providers.Normalizer.Claude

open Argmax.Lib.Text Cursor

/-- `enrich_tool_activity` describes a tool call in fields of its own. -/
structure Library extends Cursor.Library where
  enriched_get : ∀ eventType fields, ∀ key ∉ ["activity", "input", "is_error", "name", "noMatches",
    "status", "toolWrapper"],
    (enrichToolActivity eventType (.object fields)).get key = Fields.field fields key
  grokTodosUpdatedResult : String → Option TodoUpdate

/-! ## Lists of tasks -/

/-- `claude_pending_task_creates`. -/
abbrev PendingTaskCreates := String → Option String

def splitOnce (needle : String) : List Char → Option (List Char × List Char)
  | [] => none
  | c :: text =>
    if needle.toList.isPrefixOf (c :: text) then some ([], (c :: text).drop needle.length)
    else (splitOnce needle text).map fun parts => (c :: parts.1, parts.2)

def parseTaskCreateResult (result : String) : Option (String × String) :=
  (splitOnce "Task #" result.toList).bind fun parts =>
    let rest := ((splitOnce "Task #" parts.2).map Prod.fst).getD parts.2
    (splitOnce " created successfully" rest).bind fun parts =>
      if parts.1.isEmpty || !parts.1.all Char.isDigit then none
      else some (String.ofList parts.1, String.ofList (trim (parts.2.dropWhile (· == ':'))))

def claudeTaskCreate (id subject : String) : TodoUpdate where
  mode := .merge
  items := [{ id := some id, text := if subject.isEmpty then none else some subject,
              status := .pending }]

def claudeTaskUpdate (input : Fields) : Option TodoUpdate :=
  (stringValue (input.field "taskId")).bind fun taskId =>
    ((stringValue (input.field "status")).bind TodoStatus.parse).map fun status =>
      { mode := .merge, items := [{ id := some taskId, text := none, status := status }] }

def todoUpdateFromToolUse (toolName : String) (block : Fields) (creates : PendingTaskCreates) :
    Option TodoUpdate × PendingTaskCreates :=
  match objectValue (block.field "input") with
  | none => (none, creates)
  | some input =>
    if toAsciiLowercase toolName = "taskcreate" then
      match stringValue (block.field "id"), stringValue (input.field "subject") with
      | some id, some subject => (none, Function.update creates id (some subject))
      | _, _ => (none, creates)
    else if toAsciiLowercase toolName = "taskupdate" then (claudeTaskUpdate input, creates)
    else (todosArrayUpdate input, creates)

def toolResultText (block : Fields) : Option String :=
  match block.field "content" with
  | some (.string text) => some text
  | some (.array parts) =>
    let joined := String.join ((parts.filterMap fun part => objectValue (some part)).filterMap
      fun part => stringValue (part.field "text"))
    if joined.isEmpty then none else some joined
  | _ => none

variable (lib : Library)

def todoUpdateFromToolResult (block : Fields) (creates : PendingTaskCreates) :
    Option TodoUpdate × PendingTaskCreates :=
  let result := toolResultText block
  match result.bind lib.grokTodosUpdatedResult, stringValue (block.field "tool_use_id") with
  | some update, _ => (some update, creates)
  | none, none => (none, creates)
  | none, some toolUseId =>
    match creates toolUseId with
    | none => (none, creates)
    | some subject =>
      let update := match result.bind parseTaskCreateResult with
        | some (taskId, parsedSubject) =>
          claudeTaskCreate taskId (if parsedSubject.isEmpty then subject else parsedSubject)
        | none => claudeTaskCreate toolUseId subject
      (some update, Function.update creates toolUseId none)

/-! ## Blocks -/

/-- The content of an envelope. -/
def contentOf (payload : Fields) : Option (List Json) :=
  ((objectValue (payload.field "message")).bind fun message =>
    arrayValue (message.field "content")).or (arrayValue (payload.field "content"))

def parentToolUseId (payload : Fields) : Option String :=
  (payload.field "parent_tool_use_id").bind Json.asStr

def childModelId (payload : Fields) : Option String :=
  (parentToolUseId payload).bind fun _ =>
    (objectValue (payload.field "message")).bind fun message => stringValue (message.field "model")

def stampChild (payload block : Fields) : Fields :=
  insertOptional "agentModelId" ((childModelId payload).map .string)
    (insertOptional "parent_tool_use_id" ((parentToolUseId payload).map .string) block)

def sendUserMessageText (block : Fields) : Option String :=
  if stringValue (block.field "name") ≠ some "SendUserMessage" then none
  else
    (objectValue (block.field "input")).bind fun input =>
      ((["message", "text", "content"].filterMap fun key => stringValue (input.field key)).map
        fun text => String.ofList (trim text.toList)).find? fun text => !text.isEmpty

/-- What a block is. -/
def typeOf (block : Fields) : Option String := stringValue (block.field "type")

def isToolUse (block : Fields) : Bool :=
  typeOf block == some "tool_use" || typeOf block == some "server_tool_use"

def isToolResult (block : Fields) : Bool :=
  typeOf block == some "tool_result" || typeOf block == some "web_search_tool_result"

/-- The prose that a tool is called with. -/
def spokenText (block : Fields) : Option String :=
  if typeOf block = some "tool_use" then sendUserMessageText block else none

def toolName (block : Fields) : String := (stringValue (block.field "name")).getD "tool_use"

variable (event : ProviderOutputEvent) (payload : Fields)

/-- The events of a tool. -/
def toolUseEvents (block : Fields) (creates : PendingTaskCreates) :
    List PersistTimelineEventInput × PendingTaskCreates :=
  match spokenText block with
  | some text =>
    ([Cursor.timelineEvent lib.toLibrary event "message.completed" text (.object (stampChild payload
      (Json.insertField "synthesizedFromTool" (.string "SendUserMessage") block)))], creates)
  | none =>
    let toolBlock := stampChild payload block
    if isTodoTool (toolName block) then
      let todo := todoUpdateFromToolUse (toolName block) block creates
      (Cursor.timelineEvent lib.toLibrary event "command.started" (toolName block)
        (.object (stampTodoSurface toolBlock)) ::
          todo.1.toList.map fun update =>
            todoEvent event update (stringValue (block.field "id")), todo.2)
    else
      ([Cursor.timelineEvent lib.toLibrary event "command.started" (toolName block)
        (.object toolBlock)], creates)

/-- The events of a result. -/
def toolResultEvents (block : Fields) (creates : PendingTaskCreates) :
    List PersistTimelineEventInput × PendingTaskCreates :=
  let resultBlock := stampChild payload block
  let todo := todoUpdateFromToolResult lib block creates
  (Cursor.timelineEvent lib.toLibrary event "command.completed" "tool_result"
      (.object (if todo.1.isSome then stampTodoSurface resultBlock else resultBlock)) ::
    todo.1.toList.map fun update =>
      todoEvent event update (stringValue (block.field "tool_use_id")), todo.2)

/-! ## The loop -/

/-- Gathered prose, with the block that it began in. -/
abbrev Pending := Option (String × Fields)

def pushText (text : String) (block : Fields) : Pending → Pending
  | some (current, first) => some (current ++ text, first)
  | none => some (text, block)

def flushText : Pending → List PersistTimelineEventInput
  | none => []
  | some (text, block) =>
    if text.isEmpty then []
    else
      [Cursor.timelineEvent lib.toLibrary event "message.completed" text
        (.object (stampChild payload block))]

def flushThinking : Pending → List PersistTimelineEventInput
  | none => []
  | some (text, block) =>
    if isBlank text.toList then []
    else
      [Cursor.timelineEvent lib.toLibrary event "message.delta" text
        (.object (stampChild payload (Json.insertField "thinking" (.bool true) block)))]

structure Flattening where
  events : List PersistTimelineEventInput
  pendingText : Pending
  pendingThinking : Pending
  creates : PendingTaskCreates

/-- The thinking goes in front of the text. -/
def Flattening.flush (state : Flattening) : List PersistTimelineEventInput :=
  state.events ++ flushThinking lib event payload state.pendingThinking ++
    flushText lib event payload state.pendingText

/-- One turn of the loop, for a block that is an object. -/
def Flattening.push (state : Flattening) (block : Fields) : Flattening :=
  if typeOf block = some "text" then
    let text := (stringValue (block.field "text")).getD ""
    if text.isEmpty then state
    else { state with pendingText := pushText text block state.pendingText }
  else if isToolUse block then
    let tool := toolUseEvents lib event payload block state.creates
    ⟨state.flush lib event payload ++ tool.1, none, none, tool.2⟩
  else if isToolResult block then
    let result := toolResultEvents lib event payload block state.creates
    ⟨state.flush lib event payload ++ result.1, none, none, result.2⟩
  else if typeOf block = some "thinking" then
    let text := (stringValue (block.field "thinking")).getD ""
    if isBlank text.toList then state
    else { state with pendingThinking := pushText text block state.pendingThinking }
  else state

/-- The blocks that are objects. -/
def blocksOf (content : List Json) : List Fields :=
  content.filterMap fun block => objectValue (some block)

def extractContentBlocks (creates : PendingTaskCreates) :
    Option (List PersistTimelineEventInput × PendingTaskCreates) :=
  (contentOf payload).map fun content =>
    let final := (blocksOf content).foldl (Flattening.push lib event payload)
      ⟨[], none, none, creates⟩
    (final.flush lib event payload, final.creates)

/-! ## What an envelope says -/

/-- What an event shows: its type, its text, and the fields of the block it was made from. -/
structure Row where
  type : String
  message : String
  fields : String → Option Json

/-- The fields that are written over. -/
def stampedKeys : List String :=
  ["activity", "agentModelId", "input", "is_error", "name", "noMatches", "parent_tool_use_id",
    "status", "surface", "synthesizedFromTool", "toolWrapper"]

/-- The other fields of a block. -/
def kept (block : Fields) (key : String) : Option Json :=
  if key ∈ stampedKeys then none else block.field key

def rowOf (event : PersistTimelineEventInput) : Row where
  type := event.type
  message := event.message
  fields key := if key ∈ stampedKeys then none else event.payload.get key

/-- The text of a block of text. -/
def textOf (block : Fields) : String :=
  if typeOf block = some "text" then (stringValue (block.field "text")).getD "" else ""

/-- The thinking of a block that is not blank. -/
def thoughtOf (block : Fields) : String :=
  let text := (stringValue (block.field "thinking")).getD ""
  if typeOf block = some "thinking" ∧ isBlank text.toList = false then text else ""

/-- What the blocks of a stretch say together. -/
def concatenation (saying : Fields → String) (stretch : List Fields) : String :=
  stretch.foldr (fun block rest => saying block ++ rest) ""

/-- The first block of a stretch that says something. -/
def firstSaying (saying : Fields → String) (stretch : List Fields) : Fields :=
  (stretch.find? fun block => !(saying block).isEmpty).getD []

/-- One thought and one message, unless there is nothing to say. -/
def proseRows (stretch : List Fields) : List Row :=
  (if concatenation thoughtOf stretch = "" then []
    else [⟨"message.delta", concatenation thoughtOf stretch,
      kept (Json.insertField "thinking" (.bool true) (firstSaying thoughtOf stretch))⟩]) ++
  (if concatenation textOf stretch = "" then []
    else [⟨"message.completed", concatenation textOf stretch, kept (firstSaying textOf stretch)⟩])

/-- A tool or a result. -/
def boundaryRow (block : Fields) : Row :=
  if isToolUse block then
    match spokenText block with
    | some text => ⟨"message.completed", text, kept block⟩
    | none => ⟨"command.started", toolName block, kept block⟩
  else ⟨"command.completed", "tool_result", kept block⟩

def isBoundary (block : Fields) : Bool := isToolUse block || isToolResult block

/-- The stretch in front of the tools and results, and each of them with the stretch behind it. -/
def stretches : List Fields → List Fields × List (Fields × List Fields)
  | [] => ([], [])
  | block :: blocks =>
    if isBoundary block then ([], (block, (stretches blocks).1) :: (stretches blocks).2)
    else (block :: (stretches blocks).1, (stretches blocks).2)

/-- The rows of a tool or a result and of the stretch behind it. -/
def partRows (part : Fields × List Fields) : List Row := boundaryRow part.1 :: proseRows part.2

def contentRows (blocks : List Fields) : List Row :=
  proseRows (stretches blocks).1 ++ (stretches blocks).2.flatMap partRows

/-- An event that is no list of tasks. -/
def isShown (event : PersistTimelineEventInput) : Bool := event.type != "todo.updated"

/-- Events show some rows, under the id of the parent if there is one. -/
def Shows (events : List PersistTimelineEventInput) (rows : List Row) : Prop :=
  (events.filter isShown).map rowOf = rows ∧
    ∀ parent ∈ parentToolUseId payload, ∀ shown ∈ events.filter isShown,
      shown.payload.get "parent_tool_use_id" = some (.string parent)

/-! ## One event -/

/-- Fields that were made from those of a block. -/
structure MadeFrom (block fields : Fields) : Prop where
  kept_eq : kept fields = kept block
  parent : ∀ parent ∈ parentToolUseId payload,
    Fields.field fields "parent_tool_use_id" = some (.string parent)

section

variable {lib event payload}

theorem kept_insertField {key : String} (h : key ∈ stampedKeys) (value : Json) (block : Fields) :
    kept (Json.insertField key value block) = kept block := by
  funext other
  by_cases hother : other ∈ stampedKeys
  · simp [kept, hother]
  · have hne : other ≠ key := by
      rintro rfl
      exact hother h
    simp [kept, field_insertField_of_ne block hne]

theorem madeFrom_stampChild (block : Fields) :
    MadeFrom payload block (stampChild payload block) := by
  have hparent : ∀ fields : Fields, ∀ parent ∈ parentToolUseId payload,
      Fields.field (insertOptional "parent_tool_use_id"
        ((parentToolUseId payload).map .string) fields) "parent_tool_use_id" =
          some (.string parent) := by
    intro fields parent hparent
    rw [Option.mem_def.mp hparent]
    exact field_insertField_self _ _ _
  have hkept : kept (insertOptional "parent_tool_use_id"
      ((parentToolUseId payload).map .string) block) = kept block := by
    cases parentToolUseId payload with
    | none => rfl
    | some parent => exact kept_insertField (by decide) _ _
  rw [stampChild]
  cases childModelId payload with
  | none => exact ⟨hkept, hparent block⟩
  | some model =>
    refine ⟨(kept_insertField (by decide) _ _).trans hkept, fun parent hmem => ?_⟩
    exact (field_insertField_of_ne _ (by decide) _).trans (hparent block parent hmem)

theorem MadeFrom.stampTodoSurface {block fields : Fields} (h : MadeFrom payload block fields) :
    MadeFrom payload block (stampTodoSurface fields) where
  kept_eq := (kept_insertField (by decide) _ _).trans h.kept_eq
  parent parent hmem :=
    (field_insertField_of_ne _ (by decide) _).trans (h.parent parent hmem)

@[simp] theorem shows_nil : Shows payload [] [] := by simp [Shows]

theorem Shows.append {events events' : List PersistTimelineEventInput} {rows rows' : List Row}
    (h : Shows payload events rows) (h' : Shows payload events' rows') :
    Shows payload (events ++ events') (rows ++ rows') := by
  constructor
  · rw [List.filter_append, List.map_append, h.1, h'.1]
  · intro parent hmem shown hshown
    rw [List.filter_append, List.mem_append] at hshown
    exact hshown.elim (h.2 parent hmem shown) (h'.2 parent hmem shown)

/-- The description of a tool leaves the fields of its block. -/
theorem timelineEvent_get (eventType message : String) (fields : Fields) {key : String}
    (h : key ∉ ["activity", "input", "is_error", "name", "noMatches", "status", "toolWrapper"]) :
    (Cursor.timelineEvent lib.toLibrary event eventType message (.object fields)).payload.get key =
      Fields.field fields key := by
  simp only [Cursor.timelineEvent]
  split
  · exact lib.enriched_get eventType fields key h
  · rfl

theorem shows_timelineEvent {block fields : Fields} (h : MadeFrom payload block fields)
    {eventType : String} (htype : eventType ≠ "todo.updated") (message : String) :
    Shows payload [Cursor.timelineEvent lib.toLibrary event eventType message (.object fields)]
      [⟨eventType, message, kept block⟩] := by
  have hshown : isShown (Cursor.timelineEvent lib.toLibrary event eventType message
      (.object fields)) = true := bne_iff_ne.mpr htype
  rw [Shows, List.filter_cons_of_pos hshown, List.filter_nil]
  constructor
  · have hfields : (fun key => if key ∈ stampedKeys then none else
        (Cursor.timelineEvent lib.toLibrary event eventType message
          (.object fields)).payload.get key) = kept block := by
      rw [← h.kept_eq]
      funext key
      by_cases hkey : key ∈ stampedKeys
      · simp [kept, hkey]
      · rw [kept, if_neg hkey, if_neg hkey, timelineEvent_get]
        exact fun hmem => hkey (by simp [stampedKeys] at hmem ⊢; tauto)
    rw [List.map_singleton, rowOf, hfields]
    rfl
  · intro parent hmem shown hshown
    obtain rfl := List.mem_singleton.mp hshown
    rw [timelineEvent_get _ _ _ (by decide), h.parent parent hmem]

/-- Lists of tasks show nothing. -/
theorem shows_todoEvents (todo : Option TodoUpdate) (toolUseId : Option String) :
    Shows payload (todo.toList.map fun update => todoEvent event update toolUseId) [] := by
  cases todo with
  | none => exact shows_nil
  | some update => simp [Shows, isShown, todoEvent]

/-! ## Prose -/

/-- A block that says something is added. -/
def gather (saying : Fields → String) (pending : Pending) (block : Fields) : Pending :=
  if saying block = "" then pending else pushText (saying block) block pending

theorem foldl_gather_some (saying : Fields → String) (stretch : List Fields) (text : String)
    (first : Fields) :
    stretch.foldl (gather saying) (some (text, first)) =
      some (text ++ concatenation saying stretch, first) := by
  induction stretch generalizing text with
  | nil => simp [concatenation]
  | cons block stretch ih =>
    rw [List.foldl_cons, gather]
    by_cases h : saying block = ""
    · rw [if_pos h, ih]
      simp [concatenation, h]
    · rw [if_neg h, pushText, ih]
      simp [concatenation, String.append_assoc]

theorem foldl_gather_none (saying : Fields → String) (stretch : List Fields) :
    stretch.foldl (gather saying) none =
      if concatenation saying stretch = "" then none
      else some (concatenation saying stretch, firstSaying saying stretch) := by
  induction stretch with
  | nil => rfl
  | cons block stretch ih =>
    rw [List.foldl_cons, gather]
    by_cases h : saying block = ""
    · have hrest : concatenation saying (block :: stretch) = concatenation saying stretch := by
        simp [concatenation, h]
      have hfirst : firstSaying saying (block :: stretch) = firstSaying saying stretch := by
        simp [firstSaying, h]
      rw [if_pos h, ih, hrest, hfirst]
    · rw [if_neg h, pushText, foldl_gather_some]
      simp [concatenation, firstSaying, h]

theorem isBlank_append (text text' : List Char) :
    isBlank (text ++ text') = (isBlank text && isBlank text') := by
  have hall : ∀ text, isBlank text = text.all isWhitespace := by
    intro text
    rw [Bool.eq_iff_iff, isBlank, List.isEmpty_iff, trim_eq_nil, List.all_eq_true]
  simp [hall]

theorem isBlank_thoughtOf {block : Fields} (h : thoughtOf block ≠ "") :
    isBlank (thoughtOf block).toList = false := by
  simp only [thoughtOf] at h ⊢
  split_ifs at h ⊢ with hthought
  · exact hthought.2
  · exact absurd rfl h

/-- Thoughts that are not blank are not blank together. -/
theorem isBlank_concatenation {stretch : List Fields} (h : concatenation thoughtOf stretch ≠ "") :
    isBlank (concatenation thoughtOf stretch).toList = false := by
  induction stretch with
  | nil => exact absurd rfl h
  | cons block stretch ih =>
    have hcons : concatenation thoughtOf (block :: stretch) =
        thoughtOf block ++ concatenation thoughtOf stretch := rfl
    rw [hcons, String.toList_append, isBlank_append]
    by_cases hblock : thoughtOf block = ""
    · rw [hcons, hblock] at h
      rw [ih h, Bool.and_false]
    · rw [isBlank_thoughtOf hblock, Bool.false_and]

def thoughtRows : Pending → List Row
  | none => []
  | some (text, block) =>
    if isBlank text.toList then []
    else [⟨"message.delta", text, kept (Json.insertField "thinking" (.bool true) block)⟩]

def textRows : Pending → List Row
  | none => []
  | some (text, block) => if text.isEmpty then [] else [⟨"message.completed", text, kept block⟩]

theorem proseRows_eq (stretch : List Fields) :
    proseRows stretch = thoughtRows (stretch.foldl (gather thoughtOf) none) ++
      textRows (stretch.foldl (gather textOf) none) := by
  rw [proseRows, foldl_gather_none, foldl_gather_none]
  congr 1
  · by_cases h : concatenation thoughtOf stretch = ""
    · simp [h, thoughtRows]
    · simp [h, thoughtRows, isBlank_concatenation h]
  · by_cases h : concatenation textOf stretch = "" <;> simp [h, textRows]

/-! ## The steps of the loop -/

theorem shows_flush {state : Flattening} {rows : List Row} (h : Shows payload state.events rows) :
    Shows payload (state.flush lib event payload)
      (rows ++ thoughtRows state.pendingThinking ++ textRows state.pendingText) := by
  refine (h.append ?_).append ?_
  · rcases state.pendingThinking with - | ⟨text, block⟩
    · exact shows_nil
    · rw [flushThinking, thoughtRows]
      split_ifs
      · exact shows_nil
      · exact shows_timelineEvent (madeFrom_stampChild _) (by decide) _
  · rcases state.pendingText with - | ⟨text, block⟩
    · exact shows_nil
    · rw [flushText, textRows]
      split_ifs
      · exact shows_nil
      · exact shows_timelineEvent (madeFrom_stampChild _) (by decide) _

theorem push_of_not_boundary {block : Fields} (h : isBoundary block = false) (state : Flattening) :
    state.push lib event payload block =
      { state with
        pendingText := gather textOf state.pendingText block
        pendingThinking := gather thoughtOf state.pendingThinking block } := by
  rw [isBoundary, Bool.or_eq_false_iff] at h
  rw [Flattening.push, h.1, h.2]
  by_cases htext : typeOf block = some "text"
  · simp only [gather, textOf, thoughtOf]
    split_ifs <;> simp_all
  · by_cases hthinking : typeOf block = some "thinking"
    · have hempty : isBlank "".toList = true := rfl
      simp only [gather, textOf, thoughtOf]
      split_ifs <;> simp_all
    · simp [gather, textOf, thoughtOf, htext, hthinking]

theorem shows_toolUseEvents {block : Fields} (h : isToolUse block = true)
    (creates : PendingTaskCreates) :
    Shows payload (toolUseEvents lib event payload block creates).1 [boundaryRow block] := by
  rw [boundaryRow, if_pos h, toolUseEvents]
  cases spokenText block with
  | some text =>
    have hmade := @madeFrom_stampChild payload
      (Json.insertField "synthesizedFromTool" (.string "SendUserMessage") block)
    exact shows_timelineEvent
      ⟨hmade.kept_eq.trans (kept_insertField (by decide) _ _), hmade.parent⟩ (by decide) _
  | none =>
    dsimp only
    split
    · exact (shows_timelineEvent (madeFrom_stampChild block).stampTodoSurface (by decide) _).append
        (shows_todoEvents _ _)
    · exact shows_timelineEvent (madeFrom_stampChild block) (by decide) _

theorem shows_toolResultEvents {block : Fields} (h : isToolUse block = false)
    (creates : PendingTaskCreates) :
    Shows payload (toolResultEvents lib event payload block creates).1 [boundaryRow block] := by
  have hmade := @madeFrom_stampChild payload block
  have hresult : MadeFrom payload block
      (if (todoUpdateFromToolResult lib block creates).1.isSome then
        stampTodoSurface (stampChild payload block) else stampChild payload block) := by
    split
    · exact hmade.stampTodoSurface
    · exact hmade
  rw [boundaryRow, if_neg (by simp [h])]
  exact (shows_timelineEvent hresult (by decide) _).append (shows_todoEvents _ _)

/-- A tool or a result ends a stretch. -/
theorem push_of_boundary {block : Fields} (h : isBoundary block = true) (state : Flattening) :
    ∃ events creates, state.push lib event payload block =
        ⟨state.flush lib event payload ++ events, none, none, creates⟩ ∧
      Shows payload events [boundaryRow block] := by
  have htext : typeOf block ≠ some "text" := by
    intro htext
    simp [isBoundary, isToolUse, isToolResult, htext] at h
  rw [Flattening.push, if_neg htext]
  by_cases huse : isToolUse block = true
  · rw [if_pos huse]
    exact ⟨_, _, rfl, shows_toolUseEvents huse _⟩
  · rw [Bool.not_eq_true] at huse
    rw [isBoundary, huse, Bool.false_or] at h
    rw [huse, if_pos h]
    exact ⟨_, _, rfl, shows_toolResultEvents huse _⟩

/-- **What the loop shows**: what it had emitted, what it held together with the stretch that goes
on, and the tools and results with the stretches behind them. -/
theorem shows_foldl (blocks : List Fields) {state : Flattening} {rows : List Row}
    (h : Shows payload state.events rows) :
    Shows payload
      ((blocks.foldl (Flattening.push lib event payload) state).flush lib event payload)
      (rows ++ thoughtRows ((stretches blocks).1.foldl (gather thoughtOf) state.pendingThinking) ++
        textRows ((stretches blocks).1.foldl (gather textOf) state.pendingText) ++
          (stretches blocks).2.flatMap partRows) := by
  induction blocks generalizing state rows with
  | nil => simpa [stretches] using shows_flush h
  | cons block blocks ih =>
    rw [List.foldl_cons, stretches]
    by_cases hblock : isBoundary block = true
    · obtain ⟨events, creates, hpush, hevents⟩ := @push_of_boundary lib event payload _ hblock state
      have hnext := @ih ⟨state.flush lib event payload ++ events, none, none, creates⟩ _
        ((shows_flush h).append hevents)
      rw [hpush, if_pos hblock]
      simpa [partRows, proseRows_eq] using hnext
    · rw [Bool.not_eq_true] at hblock
      rw [push_of_not_boundary hblock, hblock]
      exact @ih ⟨state.events, gather textOf state.pendingText block,
        gather thoughtOf state.pendingThinking block, state.creates⟩ rows h

end

/-- **An envelope keeps its prose.** Its events show, for each stretch between two tools or
results, its thoughts as at most one delta and its text as at most one message, and each tool and
result once and in its place; all of them carry the id of the parent. -/
theorem extract_content_blocks_conserves (creates : PendingTaskCreates) {content : List Json}
    (h : contentOf payload = some content) :
    ∃ events creates',
      extractContentBlocks lib event payload creates = some (events, creates') ∧
        Shows payload events (contentRows (blocksOf content)) := by
  refine ⟨_, _, by rw [extractContentBlocks, h, Option.map_some], ?_⟩
  have hshows := @shows_foldl lib event payload (blocksOf content) ⟨[], none, none, creates⟩ []
  simpa [contentRows, proseRows_eq] using hshows

/-- A sub-agent that thinks between two phrases and then sends a message. -/
def childContent : List Json :=
  [.object [("text", .string "One "), ("type", .string "text")],
    .object [("thinking", .string "Hm."), ("type", .string "thinking")],
    .object [("text", .string "two."), ("type", .string "text")],
    .object [("input", .object [("message", .string "Done.")]),
      ("name", .string "SendUserMessage"), ("type", .string "tool_use")]]

def childEnvelope : Fields :=
  [("content", .array childContent), ("parent_tool_use_id", .string "task-1")]

/-- No tool is described here. -/
def quietLibrary : Library where
  enrichToolActivity _ payload := payload
  costOf _ _ := 0
  enriched_get _ _ _ _ := rfl
  grokTodosUpdatedResult _ := none

theorem child_envelope_conserved :
    (∃ events creates', extractContentBlocks quietLibrary ⟨"session", .stdout, []⟩ childEnvelope
        (fun _ => none) = some (events, creates') ∧
      Shows childEnvelope events (contentRows (blocksOf childContent))) ∧
    (contentRows (blocksOf childContent)).map (fun row => (row.type, row.message)) =
      [("message.delta", "Hm."), ("message.completed", "One two."),
        ("message.completed", "Done.")] :=
  ⟨extract_content_blocks_conserves quietLibrary _ childEnvelope _ rfl, by rfl⟩

end Argmax.Providers.Normalizer.Claude
