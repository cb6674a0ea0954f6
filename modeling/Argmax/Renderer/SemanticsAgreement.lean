import Argmax.Renderer.CanonicalTimeline

/-!
# Where the two readings of a row agree

A row is decoded with the meaning that the host derives, and without it. The fallback of the
renderer knows fewer keys than the host, and takes a text of blanks for none.

## Main results

* `legacyContext_eq_iff`: when the contexts agree.
* `extractToolName_eq_iff`: when the names of a tool agree.
* `decode_eq_iff`: when the canonical events agree.
* `decode_ne_nicknamed`: a row on which they do not.
-/

namespace Argmax.CanonicalTimeline

open Argmax.Lib Argmax.Providers Argmax.Persistence.Timeline
open Argmax.Renderer (jsTrim)

/-! ## Values -/

section Values

variable {payload : Json} {key word : String}

theorem stringValue_eq : stringValue (payload.get key) = field payload key := rfl

theorem strictTrue_eq : strictTrue payload key = flag payload key := by
  unfold strictTrue flag
  cases payload.get key with
  | none => rfl
  | some value => cases value <;> simp [Json.asBool, beq_eq_decide]

theorem field_eq_some : field payload key = some word ↔
    payload.get key = some (.string word) ∧ word ≠ "" := by
  unfold field nonEmpty
  cases payload.get key with
  | none => simp
  | some value => cases value <;> simp [Json.asStr]

theorem equals_eq (hword : word ≠ "") :
    equals payload key word = decide (field payload key = some word) := by
  simp [equals, field_eq_some, hword, beq_eq_decide]

/-- A value that is no object has no fields. -/
theorem get_of_not_isObject (h : isObject payload = false) : payload.get key = none := by
  cases payload <;> simp_all [isObject, Json.get]

theorem field_objectValue (value : Option Json) :
    stringValue ((objectValue value).bind (Json.get key)) = value.bind (field · key) := by
  cases value with
  | none => rfl
  | some value =>
    cases hobject : isObject value with
    | true => simp [objectValue, Option.filter, hobject, stringValue_eq]
    | false =>
      simp [objectValue, Option.filter, hobject, stringValue, field, nonEmpty,
        get_of_not_isObject hobject]

/-- `nonBlankString` is stricter than the host's `field`. -/
theorem nonBlankString_eq : nonBlankString (payload.get key) =
    (field payload key).filter fun text => !(jsTrim text).isEmpty := by
  unfold nonBlankString field nonEmpty
  cases (payload.get key).bind Json.asStr with
  | none => rfl
  | some text =>
    by_cases hempty : text = ""
    · subst hempty
      rfl
    · simp [Option.filter, hempty]

end Values

/-! ## The context -/

/-- A field is no text of blanks. -/
def NotBlank (payload : Json) (key : String) : Prop :=
  ∀ text, field payload key = some text → jsTrim text ≠ []

theorem nonBlankString_eq_field_iff {payload : Json} {key : String} :
    nonBlankString (payload.get key) = field payload key ↔ NotBlank payload key := by
  rw [nonBlankString_eq, NotBlank]
  cases field payload key with
  | none => simp
  | some text => simp [Option.filter]

/-- The fields that the fallback takes for absent where they are blank. -/
def blankable : List String :=
  ["providerChildSessionId", "providerParentConversationId", "agentRunId", "agentRootToolUseId",
    "agentCodename", "agentModelId", "agentReasoningEffort"]

/-- The keys that only the host reads stand beside those that both read, and no field that
names an agent is blank. -/
structure ContextAgrees (payload : Json) : Prop where
  parent : field payload "parent_tool_use_id" = none → field payload "parentToolUseId" = none
  codename : field payload "agentCodename" = none → field payload "agentNickname" = none
  root : field payload "agentRootToolUseId" = none → NotBlank payload "parentToolUseId"
  notBlank : ∀ key ∈ blankable, NotBlank payload key

theorem firstField_pair (payload : Json) (key other : String) :
    firstField payload [key, other] = (field payload key).or (field payload other) := by
  simp only [firstField, List.findSome?]
  cases field payload key with
  | some text => rfl
  | none => cases field payload other <;> rfl

theorem providerThreadId_eq (payload : Json) :
    providerThreadId payload = Persistence.Timeline.providerThreadId payload := by
  have hitem : (objectValue (payload.get "item")).any (equals · "type" "agent_message") =
      ((payload.get "item").bind (field · "type") == some "agent_message") := by
    rw [← field_objectValue]
    cases objectValue (payload.get "item") with
    | none => rfl
    | some item => simp [equals_eq, stringValue_eq, beq_eq_decide]
  have htype : equals payload "item_type" "agent_message" =
      (field payload "item_type" == some "agent_message") := by
    rw [equals_eq (by decide), beq_eq_decide]
  simp only [providerThreadId, Persistence.Timeline.providerThreadId, hitem, htype]
  split
  · simp only [firstField_pair, field_objectValue, Option.or_assoc]
    cases payload.get "item" <;> rfl
  · rfl

section Blank

variable {payload : Json} {key other : String}

/-- A key that only the host reads after another. -/
theorem nonBlankString_eq_or_iff :
    nonBlankString (payload.get key) = (field payload key).or (field payload other) ↔
      NotBlank payload key ∧ (field payload key = none → field payload other = none) := by
  rw [nonBlankString_eq, NotBlank]
  cases field payload key with
  | none => simp [@eq_comm _ none]
  | some text => simp [Option.filter]

/-- A key that both read after another. -/
theorem nonBlankString_or_eq_iff :
    (nonBlankString (payload.get key)).or (nonBlankString (payload.get other)) =
        (field payload key).or (field payload other) ↔
      NotBlank payload key ∧ (field payload key = none → NotBlank payload other) := by
  rw [nonBlankString_eq, nonBlankString_eq]
  unfold NotBlank
  cases field payload key with
  | none => cases field payload other <;> simp [Option.filter]
  | some text =>
    by_cases hblank : jsTrim text = []
    · cases field payload other with
      | none => simp [Option.filter]
      | some later =>
        -- The fallback takes the other text, which is not blank.
        by_cases hlater : jsTrim later = []
        · simp [hlater]
        · have hne : later ≠ text := by
            rintro rfl
            exact hlater hblank
          simp [hne]
    · simp [hblank]

end Blank

theorem legacyContext_eq_iff (payload : Json) :
    legacyContext payload = context payload ↔ ContextAgrees payload := by
  have hparent : field payload "parent_tool_use_id" =
      (field payload "parent_tool_use_id").or (field payload "parentToolUseId") ↔
        (field payload "parent_tool_use_id" = none → field payload "parentToolUseId" = none) := by
    cases field payload "parent_tool_use_id" <;> simp [@eq_comm _ none]
  simp only [legacyContext, context, TimelineContext.mk.injEq, firstField_pair, providerThreadId_eq,
    stringValue_eq, strictTrue_eq, nonBlankString_eq_field_iff,
    nonBlankString_eq_or_iff, nonBlankString_or_eq_iff, true_and, and_true]
  rw [hparent]
  constructor
  · rintro ⟨hparent, hchild, hconversation, hrun, ⟨hroot, hrootNone⟩, ⟨hcodename, hnickname⟩,
      hmodel, heffort⟩
    refine ⟨hparent, hnickname, hrootNone, ?_⟩
    simp [blankable, hchild, hconversation, hrun, hroot, hcodename, hmodel, heffort]
  · rintro ⟨hparent, hnickname, hroot, hnot⟩
    simp only [blankable, List.forall_mem_cons] at hnot
    obtain ⟨hchild, hconversation, hrun, hroot', hcodename, hmodel, heffort, -⟩ := hnot
    exact ⟨hparent, hchild, hconversation, hrun, ⟨hroot', hroot⟩, ⟨hcodename, hnickname⟩, hmodel,
      heffort⟩

/-! ## Tools -/

section Tools

variable (js : Runtime) (payload : Json)

theorem toLowerCase_mem {words : List String}
    (hwords : ∀ word ∈ words, ∀ c ∈ word.toList, c.toNat < 128 ∧ c.toLower = c ∧ c ≠ 'k')
    (value : Option String) :
    (value.map js.toLowerCase).any words.contains =
      (value.map asciiLowercase).any words.contains := by
  cases value with
  | none => rfl
  | some text =>
    simp only [Option.map_some, Option.any_some, List.contains_eq_mem, decide_eq_decide]
    constructor
    · intro hmem
      have heq := (js.toLowerCase_eq text _ (hwords _ hmem)).mp rfl
      exact heq ▸ hmem
    · intro hmem
      have heq := (js.toLowerCase_eq text _ (hwords _ hmem)).mpr rfl
      exact heq ▸ hmem

/-- The renderer fails a tool on an array of errors as well. -/
theorem detectToolError_eq : detectToolError payload =
    (semanticToolFailed payload || (payload.get "error").any isArray) := by
  have herror : (payload.get "error").any (fun error => isObject error || isArray error) =
      ((payload.get "error").any isObject || (payload.get "error").any isArray) := by
    cases payload.get "error" <;> rfl
  unfold detectToolError semanticToolFailed
  rw [herror, strictTrue_eq, strictTrue_eq]
  have hstatus : ((payload.get "status").bind Json.asStr).any namesFailure =
      (text payload "status").any fun status =>
        let status := (asciiLowercase status).toList
        Text.containsText status "fail".toList || Text.containsText status "error".toList := rfl
  rw [← hstatus]
  ac_rfl

theorem rootToolName_eq : rootToolName payload = Persistence.Timeline.rootToolName payload := rfl

/-- A tool with an array of errors has failed for the host as well, or it was cancelled. -/
def OutcomeAgrees : Prop :=
  (payload.get "error").any isArray = true →
    (flag payload "cancelled" || flag payload "canceled" ||
      isCancelled ((field payload "status").map asciiLowercase) ||
      semanticToolFailed payload) = true

theorem outcome_eq_iff {phase : ToolPhase} {cancelled failed array : Bool} :
    ((if phase = .completed then
        if cancelled = true then some ToolOutcome.cancelled
        else if (failed || array) = true then some .failed else some .succeeded
      else none) =
      if phase ≠ .completed then none
      else if cancelled = true then some .cancelled
      else if failed = true then some .failed else some .succeeded) ↔
    (phase = .completed → array = true → (cancelled || failed) = true) := by
  by_cases hphase : phase = .completed
  · cases cancelled <;> cases failed <;> cases array <;> simp [hphase]
  · simp [hphase]

/-- An empty name stands for none, and the type of a row is no name. -/
def PlainNameAgrees : Prop :=
  rootToolName payload = none →
    (text payload "name" = some "" → text payload "type" = some "") ∧
      (text payload "name" = none → text payload "type" ≠ some "command.started")

/-- The tool that the renderer finds in Cursor's wrapper, whose input may be a text. -/
def legacyWrapped : Option String :=
  wrappedToolName js (text payload "name") (inputRecord js (payload.get "input"))

/-- Both find the same tool in Cursor's wrapper, or none. A tool that only one of them finds has
the name that the other takes from the row. -/
def ToolNameAgrees : Prop :=
  match Persistence.Timeline.wrappedToolName payload, legacyWrapped js payload with
  | none, none => PlainNameAgrees payload
  | some host, some tool => host = tool
  | none, some tool => semanticToolName payload = tool
  | some host, none => host = extractToolName js payload

theorem plainName_eq_iff {root name type : Option String} :
    (root.or (name.or type)).getD "tool" =
        (root.or ((name.filter fun name => name != "").or
          (type.filter fun type => type != "command.started"))).getD "tool" ↔
      (root = none → (name = some "" → type = some "") ∧
        (name = none → type ≠ some "command.started")) := by
  cases root with
  | some root => simp
  | none => cases name with
    | none => cases type with
      | none => simp
      | some type =>
        by_cases htype : type = "command.started"
        · subst htype
          simp [Option.filter]
        · simp [Option.filter, htype]
    | some name =>
      by_cases hname : name = ""
      · subst hname
        cases type with
        | none => simp [Option.filter]
        | some type =>
          by_cases htype : type = "command.started"
          · subst htype
            simp [Option.filter]
          · simp [Option.filter, htype]
      · simp [Option.filter, hname]

theorem toolName_eq_iff :
    semanticToolName payload = extractToolName js payload ↔ ToolNameAgrees js payload := by
  have hlegacy : extractToolName js payload = ((legacyWrapped js payload).or
      ((rootToolName payload).or (((text payload "name").filter fun name => name != "").or
        ((text payload "type").filter fun type => type != "command.started")))).getD "tool" := rfl
  unfold ToolNameAgrees
  cases hhost : Persistence.Timeline.wrappedToolName payload with
  | none => cases htool : legacyWrapped js payload with
    | none =>
      rw [hlegacy, htool, semanticToolName, hhost, Option.none_or, Option.none_or,
        ← rootToolName_eq, plainName_eq_iff]
      rfl
    | some tool => rw [hlegacy, htool, Option.some_or, Option.getD_some]
  | some host =>
    rw [semanticToolName, hhost, Option.some_or, Option.getD_some]
    cases htool : legacyWrapped js payload with
    | none => rfl
    | some tool => rw [hlegacy, htool, Option.some_or, Option.getD_some]

end Tools

/-! ## Rows -/

section Rows

variable (js : Runtime) (isUuid : String → Bool) (row : TimelineEvent)

/-- The row as the host sends it. -/
def sent : RawTimelineEvent := ⟨row, some (derive isUuid row.type row.id row.payload)⟩

/-- The row of an older host. -/
def bare : RawTimelineEvent := ⟨row, none⟩

@[simp] theorem meaning_sent :
    (sent isUuid row).meaning = some (derive isUuid row.type row.id row.payload) := rfl

@[simp] theorem meaning_bare : (bare row).meaning = none := rfl

@[simp] theorem common_sent (payload : Json) :
    common (sent isUuid row) payload = context row.payload := rfl

@[simp] theorem common_bare (payload : Json) : common (bare row) payload = legacyContext payload :=
  rfl

theorem bind_objectValue (value : Option Json) (key : String) :
    (objectValue value).bind (Json.get key) = value.bind (Json.get key) := by
  cases value with
  | none => rfl
  | some value =>
    cases hobject : isObject value with
    | true => simp [objectValue, Option.filter, hobject]
    | false => simp [objectValue, get_of_not_isObject hobject]

theorem join_eq_empty_iff {parts : List String} (hparts : ∀ part ∈ parts, part ≠ "") :
    String.join parts = "" ↔ parts = [] := by
  constructor
  · intro hjoin
    cases parts with
    | nil => rfl
    | cons part parts =>
      rw [String.join_cons, String.append_eq_empty_iff] at hjoin
      exact absurd hjoin.1 (hparts part (by simp))
  · rintro rfl
    rfl

theorem cursorCumulativeText_eq (payload : Json) :
    cursorCumulativeText payload = cumulativeText payload := by
  have htype : equals payload "type" "assistant" =
      decide (field payload "type" = some "assistant") := equals_eq (by decide)
  unfold cursorCumulativeText cumulativeText
  rw [htype, bind_objectValue]
  by_cases hassistant : field payload "type" = some "assistant"
  · simp only [hassistant, decide_true, Bool.not_true, Bool.false_eq_true, if_false]
    congr 1
    funext content
    have hparts : content.filterMap (fun entry =>
          stringValue ((objectValue (some entry)).bind (Json.get "text"))) =
        content.filterMap (field · "text") := by
      congr 1
      funext entry
      rw [bind_objectValue]
      rfl
    rw [hparts]
    have hne : ∀ part ∈ content.filterMap (field · "text"), part ≠ "" := by
      intro part hmem
      obtain ⟨entry, -, hentry⟩ := List.mem_filterMap.mp hmem
      exact (field_eq_some.mp hentry).2
    simp [join_eq_empty_iff hne]
  · simp [hassistant]

theorem decodeMessage_eq {role : MessageRole} {phase : MessagePhase}
    (hrole : role = if row.type = "user.message" then .user else .assistant)
    (hphase : phase = if row.type = "message.delta" then .delta else .completed)
    (hcontext : legacyContext row.payload = context row.payload) :
    decodeMessage (bare row) none =
      decodeMessage (sent isUuid row) (some (deriveMessage role phase row.payload)) := by
  have hdelivery : equals row.payload "delivery" "steer" =
      decide (field row.payload "delivery" = some "steer") := equals_eq (by decide)
  have hstream : (equals row.payload "stream" "stdout" || equals row.payload "stream" "stderr" ||
      equals row.payload "stream" "pty") =
        (field row.payload "stream").any ["stdout", "stderr", "pty"].contains := by
    rw [equals_eq (by decide), equals_eq (by decide), equals_eq (by decide)]
    cases field row.payload "stream" <;> simp [Bool.or_assoc]
  have huser : role = .user ↔ row.type = "user.message" := by
    rw [hrole]
    split <;> simp [*]
  have hdelta : phase = .delta ↔ row.type = "message.delta" := by
    rw [hphase]
    split <;> simp [*]
  have hpayload : (bare row).payload = row.payload ∧ (sent isUuid row).payload = row.payload :=
    ⟨rfl, rfl⟩
  have htype : (bare row).type = row.type := rfl
  simp [decodeMessage, hpayload.1, htype, hcontext, hdelivery, hstream, strictTrue_eq,
    cursorCumulativeText_eq, deriveMessage, ← hrole, ← hphase, huser, hdelta]

theorem decodeTool_eq_iff {phase : ToolPhase} (hphase : toolPhase row.type = phase) :
    decodeTool js (bare row) none =
        decodeTool js (sent isUuid row) (some (deriveTool phase row.id row.payload)) ↔
      ToolNameAgrees js row.payload ∧ (phase = .completed → OutcomeAgrees row.payload) := by
  have hcancelled : ((field row.payload "status").map js.toLowerCase).any
      ["cancelled", "canceled", "interrupted"].contains =
        isCancelled ((field row.payload "status").map asciiLowercase) :=
    toLowerCase_mem js (by simp) _
  have hrunning : ((field row.payload "status").map js.toLowerCase).any
      ["running", "started", "in_progress"].contains =
        isRunning ((field row.payload "status").map asciiLowercase) :=
    toLowerCase_mem js (by simp) _
  have hid : (if phase = .started then (extractToolUseId row.payload).or (some row.id)
      else extractCompletionCorrelationId row.payload) =
        if phase = .started then (firstField row.payload ["id", "call_id"]).or (some row.id)
        else firstField row.payload ["tool_use_id", "id", "call_id"] := by
    have hthree : firstField row.payload ["tool_use_id", "id", "call_id"] =
        (field row.payload "tool_use_id").or (firstField row.payload ["id", "call_id"]) := by
      simp only [firstField, List.findSome?]
      cases field row.payload "tool_use_id" <;> rfl
    rw [hthree, firstField_pair]
    rfl
  have hpayload : (bare row).payload = row.payload ∧ (sent isUuid row).payload = row.payload :=
    ⟨rfl, rfl⟩
  have hrow : (bare row).type = row.type ∧ (bare row).id = row.id := ⟨rfl, rfl⟩
  have hinvocation : (legacyContext row.payload).providerInvocationId =
      (context row.payload).providerInvocationId := rfl
  rw [← toolName_eq_iff]
  simp only [decodeTool, hpayload.1, hpayload.2, hrow.1, hrow.2, common_bare, common_sent,
    hinvocation, Option.map_some, Option.map_none, Option.getD_some, Option.getD_none, hphase,
    stringValue_eq, strictTrue_eq, hcancelled, hrunning, hid, deriveTool, detectToolError_eq,
    CanonicalToolEvent.mk.injEq, true_and, and_true,
    outcome_eq_iff]
  rw [eq_comm]
  rfl

theorem decodeApproval_eq {phase : ApprovalPhase}
    (hphase : phase = if row.type = "approval.requested" then .requested
      else if row.type = "approval.resolved" then .resolved else .blocked) :
    decodeApproval (bare row) none =
      decodeApproval (sent isUuid row) (some (deriveApproval phase row.payload)) := by
  subst hphase
  unfold deriveApproval
  rw [firstField_pair, firstField_pair]
  rfl

theorem decodeAgent_eq {phase : AgentPhase}
    (hphase : phase = if row.type = "agent.started" then .started else .completed) :
    decodeAgent (bare row) none =
      decodeAgent (sent isUuid row) (some ⟨phase, field row.payload "status"⟩) := by
  subst hphase
  rfl

theorem decodeMultitask_eq {phase : MultitaskPhase}
    (hphase : phase = if row.type = "multitask.launched" then .launched else .finished) :
    decodeMultitask (bare row) none =
      decodeMultitask (sent isUuid row) (some (deriveMultitask phase row.payload)) := by
  subst hphase
  unfold deriveMultitask
  rw [← strictTrue_eq]
  rfl

/-- What the host takes for a visualization is one for the fallback. -/
theorem legacyVisualization_eq {visualization : Visualization} {payload : Json}
    (h : deriveVisualization isUuid payload = some visualization) :
    legacyVisualization payload = some visualization := by
  have hread : ∀ {key value : String}, field payload key = some value →
      (payload.get key).bind Json.asStr = some value := by
    intro key value hvalue
    rw [(field_eq_some.mp hvalue).1]
    rfl
  have hformat : ∀ {format : VisualizationFormat},
      visualizationFormat (field payload "format") = some format →
        visualizationFormat ((payload.get "format").bind Json.asStr) = some format := by
    intro format hformat
    cases hfield : field payload "format" with
    | none =>
      rw [hfield] at hformat
      cases hformat
    | some value => rwa [hread hfield, ← hfield]
  have hmode : equals payload "mode" "wide" = decide (field payload "mode" = some "wide") :=
    equals_eq (by decide)
  unfold deriveVisualization at h
  split at h
  · rename_i id title summary format hid htitle hsummary hkind
    split at h
    · rw [← h]
      simp [legacyVisualization, hread hid, hread htitle, hread hsummary, hformat hkind, hmode]
    · cases h
  · cases h

/-- What the fallback makes of a row is never an invalid payload. -/
theorem decodeLegacy_ne : decodeLegacy js (bare row) ≠ .unknown .invalidPayload := by
  unfold decodeLegacy
  split
  case h_1 => split <;> simp
  case h_16 => split <;> simp
  all_goals simp

/-- The two readings of the row's kind agree. -/
def EventAgrees : Prop :=
  match row.type with
  | "command.started" | "command.output" => ToolNameAgrees js row.payload
  | "command.completed" => ToolNameAgrees js row.payload ∧ OutcomeAgrees row.payload
  | "visualization.published" => (deriveVisualization isUuid row.payload).isSome
  | _ => True

theorem event_eq_iff (hcontext : legacyContext row.payload = context row.payload) :
    decodeLegacy js (bare row) =
        decodeMeant js (sent isUuid row) (deriveEvent isUuid row.type row.id row.payload) ↔
      EventAgrees js isUuid row := by
  have hrow : (bare row).type = row.type := rfl
  unfold EventAgrees decodeLegacy deriveEvent
  rw [hrow]
  split
  case h_1 htype =>
    simp only [htype]
    cases hhost : deriveVisualization isUuid row.payload with
    | none => cases hlegacy : legacyVisualization (bare row).payload <;> simp [decodeMeant]
    | some visualization =>
      have hlegacy : legacyVisualization (bare row).payload = some visualization :=
        legacyVisualization_eq isUuid hhost
      simp [decodeMeant, hlegacy]
  case h_2 htype | h_3 htype | h_4 htype =>
    simp only [htype]
    exact iff_of_true (congrArg CanonicalEvent.message
      (decodeMessage_eq isUuid row (by simp [htype]) (by simp [htype]) hcontext)) trivial
  case h_5 htype | h_6 htype | h_7 htype =>
    simp only [htype, decodeMeant, CanonicalEvent.tool.injEq]
    exact (decodeTool_eq_iff js isUuid row (by simp [toolPhase, htype])).trans (by simp)
  case h_8 htype | h_9 htype | h_10 htype =>
    simp only [htype]
    exact iff_of_true (congrArg CanonicalEvent.approval
      (decodeApproval_eq isUuid row (by simp [htype]))) trivial
  case h_11 htype | h_12 htype =>
    simp only [htype]
    exact iff_of_true (congrArg CanonicalEvent.agent
      (decodeAgent_eq isUuid row (by simp [htype]))) trivial
  case h_13 htype | h_14 htype =>
    simp only [htype]
    exact iff_of_true (congrArg CanonicalEvent.multitask
      (decodeMultitask_eq isUuid row (by simp [htype]))) trivial
  case h_15 htype =>
    simp only [htype]
    exact iff_of_true rfl trivial
  case h_16 =>
    -- Both look the name of a lifecycle row up.
    simp only
    cases lifecycleName row.type <;> exact iff_of_true rfl trivial

/-- Where the two readings of a row agree. -/
def Agrees : Prop :=
  isObject row.payload = true →
    if strictTrue row.payload "__argmaxInvalidPayload" then
      -- Neither reads the row, and only the host has its context.
      context row.payload = .empty
    else
      flag row.payload "parseError" = false ∧ ContextAgrees row.payload ∧ EventAgrees js isUuid row

theorem legacyContext_empty : legacyContext (.object []) = .empty := rfl

/-- **Agreement of the host and its clients.** A row decodes to the same canonical event with and
without the meaning that the host derives just where the keys it has are those both read. -/
theorem decode_eq_iff :
    decodeTimelineEvent js (bare row) = decodeTimelineEvent js (sent isUuid row) ↔
      Agrees js isUuid row := by
  have hpayload : (bare row).payload = row.payload ∧ (sent isUuid row).payload = row.payload :=
    ⟨rfl, rfl⟩
  unfold decodeTimelineEvent Agrees
  simp only [hpayload.1, hpayload.2, common_bare, common_sent, meaning_sent]
  cases hobject : isObject row.payload with
  | false =>
    -- The host reads no context from a payload that is no object.
    have hcontext : context row.payload = .empty := by
      cases hvalue : row.payload with
      | object fields =>
        rw [hvalue] at hobject
        cases hobject
      | _ => rfl
    simp [hcontext, legacyContext_empty]
  | true =>
    cases hmarked : strictTrue row.payload "__argmaxInvalidPayload" with
    | true => simp [legacyContext_empty, eq_comm]
    | false =>
      simp only [Bool.not_true, Bool.or_self, Bool.false_eq_true, if_false, forall_const,
        CanonicalTimelineEvent.mk.injEq, derive, hobject, legacyContext_eq_iff]
      cases flag row.payload "parseError" with
      | true =>
        have hne := decodeLegacy_ne js row
        simpa [decodeMeant] using fun _ => hne
      | false =>
        simp only [true_and]
        refine and_congr_right fun hcontext => ?_
        exact event_eq_iff js isUuid row ((legacyContext_eq_iff _).mpr hcontext)

end Rows

/-- A runtime whose texts are ASCII. -/
def asciiRuntime : Runtime := ⟨fun _ => none, asciiLowercase, fun _ _ _ => Iff.rfl⟩

/-- The launch of an agent that has a nickname only. -/
def nicknamed : TimelineEvent :=
  ⟨"event-1", "session-1", "command.started", "Task",
    .object [("agentNickname", .string "Scout"), ("id", .string "tool-1"),
      ("name", .string "Task")], "2026-09-05T10:00:00Z", some 1⟩

theorem decode_ne_nicknamed :
    (decodeTimelineEvent asciiRuntime (sent (fun _ => true) nicknamed)).common.agentCodename =
        some "Scout" ∧
      (decodeTimelineEvent asciiRuntime (bare nicknamed)).common.agentCodename = none ∧
      decodeTimelineEvent asciiRuntime (bare nicknamed) ≠
        decodeTimelineEvent asciiRuntime (sent (fun _ => true) nicknamed) := by
  refine ⟨by decide, by decide, fun h => ?_⟩
  exact absurd (congrArg (·.common.agentCodename) h) (by decide)

end Argmax.CanonicalTimeline
