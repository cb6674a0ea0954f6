import Argmax.Providers.Normalizer.Cursor
import Mathlib.Data.List.Chain

/-!
# The text of a Cursor turn

Texts that extend one another and tool calls, in any order. What is emitted as new is,
joined, the last text, and the answer is what this text has behind the latest tool call. A
text that revises an earlier one begins both anew.
-/

namespace Argmax.Providers.Normalizer.Cursor

open Argmax.Lib.Text Argmax.Providers.Normalizer

/-! ## Turns -/

/-- What a line is to the text of a turn. -/
inductive Piece where
  | text (text : List Char)
  | tool
  deriving DecidableEq

def Piece.isText : Piece → Bool
  | .text _ => true
  | .tool => false

def Piece.said : Piece → Option (List Char)
  | .text words => some words
  | .tool => none

/-- A text with its time, or a tool call. -/
def pieceOf (payload : Fields) : Option Piece :=
  if stringValue (payload.field "type") = some "assistant" ∧ hasTimestamp payload ∧
      itemTypeOf payload ≠ some "agent_message" then
    (extractMessageText payload).map fun text => .text text.toList
  else if stringValue (payload.field "type") = some "tool_call" ∧
      (stringValue (payload.field "subtype") = some "started" ∨
        stringValue (payload.field "subtype") = some "completed") then
    some .tool
  else none

def textsOf (pieces : List Piece) : List (List Char) := pieces.filterMap Piece.said

/-- The text of the turn so far. -/
def lastText (pieces : List Piece) : List Char := (textsOf pieces).getLast?.getD []

/-- Each text extends the one before it. -/
def Cumulative (pieces : List Piece) : Prop := (textsOf pieces).IsChain (· <+: ·)

/-- The text as it was at the latest tool call. -/
def textAtTool (pieces : List Piece) : List Char := lastText (pieces.rdropWhile Piece.isText)

/-- What stands behind the latest tool call, or else the whole text. -/
def answerOf (pieces : List Piece) : Option (List Char) :=
  let answer := trimStart ((lastText pieces).drop (textAtTool pieces).length)
  if !isBlank answer then some answer
  else if !isBlank (lastText pieces) then some (lastText pieces)
  else none

section Append

variable (pieces : List Piece)

@[simp] theorem textsOf_append_text (text : List Char) :
    textsOf (pieces ++ [.text text]) = textsOf pieces ++ [text] := by
  simp [textsOf, Piece.said]

@[simp] theorem textsOf_append_tool : textsOf (pieces ++ [.tool]) = textsOf pieces := by
  simp [textsOf, Piece.said]

@[simp] theorem lastText_append_text (text : List Char) :
    lastText (pieces ++ [.text text]) = text := by
  simp [lastText]

@[simp] theorem lastText_append_tool : lastText (pieces ++ [.tool]) = lastText pieces := by
  simp [lastText]

@[simp] theorem textAtTool_append_text (text : List Char) :
    textAtTool (pieces ++ [.text text]) = textAtTool pieces := by
  rw [textAtTool, List.rdropWhile_concat_pos Piece.isText pieces _ rfl, textAtTool]

@[simp] theorem textAtTool_append_tool : textAtTool (pieces ++ [.tool]) = lastText pieces := by
  rw [textAtTool, List.rdropWhile_concat_neg Piece.isText pieces _ (by simp [Piece.isText]),
    lastText_append_tool]

end Append

variable {text : List Char} {context : Context}

/-- The next text extends the one that the turn has so far. -/
theorem Cumulative.lastText_prefix {before rest : List Piece}
    (h : Cumulative (before ++ .text text :: rest)) : lastText before <+: text := by
  rw [lastText]
  cases hlast : (textsOf before).getLast? with
  | none => simp
  | some last =>
    have ⟨earlier, hearlier⟩ := List.getLast?_eq_some_iff.mp hlast
    have hchain : (earlier ++ last :: text :: textsOf rest).IsChain (· <+: ·) := by
      have htexts : textsOf (before ++ .text text :: rest) =
          earlier ++ last :: text :: textsOf rest := by
        rw [textsOf, List.filterMap_append, ← textsOf, hearlier]
        simp [Piece.said, textsOf]
      rwa [← htexts]
    exact (List.isChain_append_cons_cons.mp hchain).2.1

/-! ## Reading -/

/-- What a line comes with, and its payload. -/
abbrev Line := ProviderOutputEvent × Fields

/-- The lines of a turn, one after another. -/
def readLines (lib : Library) : List Line → Context → Context × List PersistTimelineEventInput
  | [], context => (context, [])
  | line :: lines, context =>
    let first := normalizeJsonPayload lib line.1 line.2 context
    let rest := readLines lib lines first.1
    (rest.1, first.2.events ++ rest.2)

/-- What ends a turn: its result, or the exit of the process. -/
inductive Closing where
  | result (line : Line)
  | exit (event : ProviderOutputEvent)

/-- The result of a turn is a line that says so. -/
def Closing.Proper : Closing → Prop
  | .result line => stringValue (line.2.field "type") = some "result" ∧
      stringValue (line.2.field "subtype") = some "success"
  | .exit _ => True

def close (lib : Library) : Closing → Context → Context × List PersistTimelineEventInput
  | .result line, context =>
    let read := normalizeJsonPayload lib line.1 line.2 context
    (read.1, read.2.events)
  | .exit event, context =>
    let exited := synthesizeMessageCompletedFromExit lib event context
    (exited.1, exited.2.toList)

def closeAll (lib : Library) :
    List Closing → Context → Context × List PersistTimelineEventInput
  | [], context => (context, [])
  | closing :: closings, context =>
    let first := close lib closing context
    let rest := closeAll lib closings first.1
    (rest.1, first.2 ++ rest.2)

/-- The messages of one type. -/
def messagesOf (type : String) (events : List PersistTimelineEventInput) : List String :=
  (events.filter fun event => event.type == type).map (·.message)

def deltas (events : List PersistTimelineEventInput) : List String :=
  messagesOf "message.delta" events

def answers (events : List PersistTimelineEventInput) : List String :=
  messagesOf "message.completed" events

@[simp] theorem messagesOf_append (type : String) (front back : List PersistTimelineEventInput) :
    messagesOf type (front ++ back) = messagesOf type front ++ messagesOf type back := by
  simp [messagesOf]

/-- Events that carry no text of the answer. -/
def Wordless (events : List PersistTimelineEventInput) : Prop :=
  deltas events = [] ∧ answers events = []

theorem wordless_of_types {events : List PersistTimelineEventInput}
    (h : ∀ event ∈ events, event.type ≠ "message.delta" ∧ event.type ≠ "message.completed") :
    Wordless events := by
  constructor
  · simp only [deltas, messagesOf, List.map_eq_nil_iff, List.filter_eq_nil_iff, beq_iff_eq]
    exact fun event hevent => (h event hevent).1
  · simp only [answers, messagesOf, List.map_eq_nil_iff, List.filter_eq_nil_iff, beq_iff_eq]
    exact fun event hevent => (h event hevent).2

/-! ## One line -/

section Lines

variable (lib : Library) (event : ProviderOutputEvent) {payload : Fields} (context : Context)

theorem pieceOf_eq_text (h : pieceOf payload = some (.text text)) :
    stringValue (payload.field "type") = some "assistant" ∧ hasTimestamp payload = true ∧
      itemTypeOf payload ≠ some "agent_message" ∧
      (extractMessageText payload).map String.toList = some text := by
  rw [pieceOf] at h
  split at h
  case isTrue hassistant =>
    have ⟨message, hmessage, htext⟩ := Option.map_eq_some_iff.mp h
    cases htext
    exact ⟨hassistant.1, hassistant.2.1, hassistant.2.2, by simp [hmessage]⟩
  case isFalse => split at h <;> cases h

theorem pieceOf_eq_tool (h : pieceOf payload = some .tool) :
    stringValue (payload.field "type") = some "tool_call" ∧
      (stringValue (payload.field "subtype") = some "started" ∨
        stringValue (payload.field "subtype") = some "completed") := by
  rw [pieceOf] at h
  split at h
  case isTrue =>
    have ⟨_, _, htext⟩ := Option.map_eq_some_iff.mp h
    cases htext
  case isFalse =>
    split at h
    case isTrue htool => exact htool
    case isFalse => cases h

/-- The context behind a text. -/
def Context.withText (context : Context) (text : List Char) : Context :=
  { context with
      cursorAssistantText := some text
      cursorAnswerStart :=
        if context.cursorAssistantText.getD [] <+: text then context.cursorAnswerStart else 0 }

/-- What is new in a text. -/
def Context.newText (context : Context) (text : List Char) : List Char :=
  if context.cursorAssistantText.getD [] <+: text then
    text.drop (context.cursorAssistantText.getD []).length
  else text

theorem normalizeAssistantText_text (htime : hasTimestamp payload = true) :
    normalizeAssistantText (some text) payload (some "assistant") context =
      (context.withText text, some (context.newText text)) := by
  by_cases hextends : context.cursorAssistantText.getD [] <+: text <;>
    simp [normalizeAssistantText, Context.withText, Context.newText, htime, hextends]

theorem events_text (h : pieceOf payload = some (.text text)) :
    normalizeEvents lib event payload context =
      (context.withText text, [timelineEvent lib event "message.delta"
        (String.ofList (context.newText text)) (.object payload)]) := by
  have ⟨htype, htime, hitem, htext⟩ := pieceOf_eq_text h
  have hplan : normalizePlanUpdate event payload (some "assistant") = none := by
    simp [normalizePlanUpdate]
  have htool : normalizeToolCall lib event payload (some "assistant") = none := by
    simp [normalizeToolCall]
  have hmapped : mapProviderType (some "assistant") (itemTypeOf payload) payload =
      some "message.delta" := by
    simp [mapProviderType, hitem, htime]
  have hlifecycle : isLifecycleEvent (some "assistant") (itemTypeOf payload) = false := by
    simp [isLifecycleEvent]
  have hcursor (subtype : Option String) :
      isCursorLifecycleEvent (some "assistant") subtype = false := by
    simp [isCursorLifecycleEvent]
  simp only [normalizeEvents, htype, hlifecycle, hcursor, hplan, htool]
  simp [normalizeTextLine, htype, htext, hmapped, normalizeAssistantText_text context htime]

theorem normalizeToolCall_tool
    (h : stringValue (payload.field "subtype") = some "started" ∨
      stringValue (payload.field "subtype") = some "completed") :
    ∃ tool, normalizeToolCall lib event payload (some "tool_call") = some tool ∧
      tool.type ≠ "message.delta" ∧ tool.type ≠ "message.completed" := by
  rcases h with h | h
  · refine ⟨_, by simp only [normalizeToolCall, h]; rfl, ?_⟩
    simp [timelineEvent]
  · refine ⟨_, by simp only [normalizeToolCall, h]; rfl, ?_⟩
    simp [timelineEvent]

theorem normalizeTodoCall_type {event : ProviderOutputEvent}
    {providerType : Option String} {todo : PersistTimelineEventInput}
    (h : normalizeTodoCall event payload providerType = some todo) :
    todo.type ≠ "message.delta" ∧ todo.type ≠ "message.completed" := by
  have htype : todo.type = "todo.updated" := by
    rw [normalizeTodoCall] at h
    split at h
    case isTrue => cases h
    case isFalse =>
      have ⟨call, _, hcall⟩ := Option.bind_eq_some_iff.mp h
      split at hcall
      case isTrue => cases hcall
      case isFalse =>
        have ⟨args, _, hargs⟩ := Option.bind_eq_some_iff.mp hcall
        have ⟨update, _, hupdate⟩ := Option.map_eq_some_iff.mp hargs
        rw [← hupdate, todoEvent]
  simp [htype]

theorem nativeAgent_type {lib : Library} {event : ProviderOutputEvent}
    {providerType : Option String} {agent : PersistTimelineEventInput}
    (h : agent ∈ nativeAgentLifecycleEvents lib event payload providerType) :
    agent.type ≠ "message.delta" ∧ agent.type ≠ "message.completed" := by
  rw [nativeAgentLifecycleEvents] at h
  split at h
  case isTrue => simp at h
  case isFalse =>
    dsimp only at h
    split at h
    case h_1 =>
      simp only [List.mem_cons, List.not_mem_nil, or_false] at h
      rcases h with rfl | rfl <;> simp [timelineEvent]
    case h_2 => simp at h

theorem events_tool (h : pieceOf payload = some .tool) :
    (normalizeEvents lib event payload context).1 = { context with
        cursorAnswerStart := byteLength (context.cursorAssistantText.getD []) } ∧
      Wordless (normalizeEvents lib event payload context).2 := by
  have ⟨htype, hsubtype⟩ := pieceOf_eq_tool h
  have hplan : normalizePlanUpdate event payload (some "tool_call") = none := by
    simp [normalizePlanUpdate]
  have hlifecycle : isLifecycleEvent (some "tool_call") (itemTypeOf payload) = false := by
    simp [isLifecycleEvent]
  have hcursor (subtype : Option String) :
      isCursorLifecycleEvent (some "tool_call") subtype = false := by
    simp [isCursorLifecycleEvent]
  have ⟨tool, htool, htooltype⟩ := normalizeToolCall_tool lib event hsubtype
  simp only [normalizeEvents, htype, hlifecycle, hcursor, hplan, htool, Bool.false_eq_true,
    if_false, true_and]
  apply wordless_of_types
  simp only [List.mem_cons, List.mem_append, Option.mem_toList]
  rintro written ((rfl | htodo) | hagent)
  · exact htooltype
  · exact normalizeTodoCall_type htodo
  · exact nativeAgent_type hagent

end Lines

/-! ## The lines of a turn -/

theorem getFrom_byteLength (front back : List Char) :
    getFrom (byteLength front) (front ++ back) = some back := by
  induction front with
  | nil => cases back <;> rfl
  | cons c front ih =>
    have hpos := c.utf8Size_pos
    obtain ⟨size, hsize⟩ : ∃ size, byteLength (c :: front) = size + 1 :=
      ⟨byteLength (c :: front) - 1, by rw [byteLength_cons]; omega⟩
    have hrest : size + 1 - c.utf8Size = byteLength front := by
      rw [← hsize, byteLength_cons]
      omega
    have hfits : c.utf8Size ≤ size + 1 := by
      rw [← hsize, byteLength_cons]
      omega
    rw [hsize, List.cons_append, getFrom, if_pos hfits, hrest, ih]

/-- The context holds the text of a turn, and where its latest tool call stands in it. -/
structure Tracks (pieces : List Piece) (context : Context) : Prop where
  text : context.cursorAssistantText.getD [] = lastText pieces
  start : context.cursorAnswerStart = byteLength (textAtTool pieces)
  front : textAtTool pieces <+: lastText pieces
  running : context.cursorTurnCompletedEmitted = false

namespace Tracks

variable {pieces : List Piece} {context : Context}

theorem withText (h : Tracks pieces context) (hextends : lastText pieces <+: text) :
    Tracks (pieces ++ [.text text]) (context.withText text) where
  text := by simp [Context.withText]
  start := by simp [Context.withText, h.text, hextends, h.start]
  front := by simpa using h.front.trans hextends
  running := h.running

theorem withTool (h : Tracks pieces context) : Tracks (pieces ++ [.tool]) { context with
    cursorAnswerStart := byteLength (context.cursorAssistantText.getD []) } where
  text := by simp [h.text]
  start := by simp [h.text]
  front := by simp
  running := h.running

/-- Before the first line. -/
theorem of_none (htext : context.cursorAssistantText = none)
    (hstart : context.cursorAnswerStart = 0)
    (hrunning : context.cursorTurnCompletedEmitted = false) : Tracks [] context where
  text := by simp [htext, lastText, textsOf]
  start := by simp [hstart, textAtTool, lastText, textsOf]
  front := by simp [textAtTool]
  running := hrunning

/-- Behind a text that revises what the context held. -/
theorem of_revision (hrevision : ¬context.cursorAssistantText.getD [] <+: text)
    (hrunning : context.cursorTurnCompletedEmitted = false) :
    Tracks [.text text] (context.withText text) where
  text := by simp [Context.withText, lastText, textsOf, Piece.said]
  start := by
    have htool : textAtTool [.text text] = [] := textAtTool_append_text [] text
    simp [Context.withText, hrevision, htool]
  front := by
    have htool : textAtTool [.text text] = [] := textAtTool_append_text [] text
    simp [htool]
  running := hrunning

/-- The answer is read off the context. -/
theorem takeFinalAnswer_eq (h : Tracks pieces context) :
    (takeFinalAnswer context).2 = answerOf pieces := by
  cases htext : context.cursorAssistantText with
  | none =>
    have hlast : lastText pieces = [] := by simpa [htext] using h.text.symm
    simp [takeFinalAnswer, htext, answerOf, hlast, isBlank, trimStart, trim, trimEnd]
  | some text =>
    have hlast : lastText pieces = text := by simpa [htext] using h.text.symm
    obtain ⟨back, hback⟩ := h.front
    have hrest : getFrom context.cursorAnswerStart text = some back := by
      rw [h.start, ← hlast, ← hback, getFrom_byteLength]
    have hdrop : text.drop (textAtTool pieces).length = back := by
      rw [← hlast, ← hback, List.drop_left]
    simp only [takeFinalAnswer, htext, hrest, answerOf, hlast, hdrop, Option.map_some,
      Option.getD_some]
    split
    · rfl
    · split <;> rfl

end Tracks

section Turns

variable (lib : Library)

theorem deltas_single (event : ProviderOutputEvent) (message : String) (payload : Json) :
    deltas [timelineEvent lib event "message.delta" message payload] = [message] ∧
      answers [timelineEvent lib event "message.delta" message payload] = [] := by
  simp [deltas, answers, messagesOf, timelineEvent]

/-- What a text adds completes what the turn has so far. -/
theorem append_newText (h : context.cursorAssistantText.getD [] <+: text) :
    context.cursorAssistantText.getD [] ++ context.newText text = text := by
  rw [Context.newText, if_pos h]
  exact List.prefix_iff_eq_append.mp h

/-- A line of a turn. -/
theorem line_tracks {line : Line} {before rest : List Piece} {piece : Piece}
    (hpiece : pieceOf line.2 = some piece) (hcumulative : Cumulative (before ++ piece :: rest))
    (htracks : Tracks before context) : let read := normalizeEvents lib line.1 line.2 context
    Tracks (before ++ [piece]) read.1 ∧
      lastText before ++ (String.join (deltas read.2)).toList = lastText (before ++ [piece]) ∧
      answers read.2 = [] := by
  cases piece with
  | text text =>
    have hextends := hcumulative.lastText_prefix
    have ⟨hdelta, hanswer⟩ := deltas_single lib line.1 (String.ofList (context.newText text))
      (.object line.2)
    have hnew : lastText before ++ context.newText text = text := by
      rw [← htracks.text] at hextends ⊢
      exact append_newText hextends
    rw [events_text lib line.1 context hpiece]
    refine ⟨htracks.withText hextends, ?_, hanswer⟩
    rw [hdelta]
    simpa [String.join] using hnew
  | tool =>
    have ⟨hcontext, hdeltas, hanswers⟩ := events_tool lib line.1 context hpiece
    refine ⟨hcontext ▸ htracks.withTool, ?_, hanswers⟩
    rw [hdeltas]
    simp [String.join]

/-- From a context that tracks a turn, the texts that follow extend what was said. -/
theorem readLines_tracks (before : List Piece) {lines : List Line} {pieces : List Piece}
    (hread : lines.map (fun line => pieceOf line.2) = pieces.map some)
    (hcumulative : Cumulative (before ++ pieces)) (htracks : Tracks before context) :
    Tracks (before ++ pieces) (readLines lib lines context).1 ∧
      lastText before ++ (String.join (deltas (readLines lib lines context).2)).toList =
        lastText (before ++ pieces) ∧
      answers (readLines lib lines context).2 = [] := by
  induction lines generalizing before pieces context with
  | nil =>
    have hnil : pieces = [] := by simpa using hread.symm
    subst hnil
    simpa [readLines, deltas, answers, messagesOf] using htracks
  | cons line lines ih =>
    cases pieces with
    | nil => simp at hread
    | cons piece pieces =>
      have ⟨hpiece, hrest⟩ := List.cons.inj hread
      have ⟨hfirst, hdeltas, hanswers⟩ := line_tracks lib hpiece hcumulative htracks
      have hsplit : before ++ piece :: pieces = (before ++ [piece]) ++ pieces := by simp
      rw [hsplit] at hcumulative ⊢
      have ⟨hall, hdeltas', hanswers'⟩ := ih _ hrest hcumulative hfirst
      refine ⟨hall, ?_, ?_⟩
      · rw [← hdeltas', ← hdeltas]
        simp [readLines, normalizeJsonPayload, deltas]
      · rw [answers] at hanswers hanswers' ⊢
        simp [readLines, normalizeJsonPayload, hanswers, hanswers']

/-! ## The end of a turn -/

theorem close_result {line : Line} (h : (Closing.result line).Proper) (context : Context) :
    close lib (.result line) context = normalizeResultSuccess lib line.1 context := by
  have ⟨htype, hsubtype⟩ := h
  have hthinking : normalizeThinkingDelta lib line.1 line.2 (some "result") = none := by
    simp [normalizeThinkingDelta]
  simp [close, normalizeJsonPayload, normalizeEvents, htype, hsubtype, isLifecycleEvent,
    isCursorLifecycleEvent, hthinking]

/-- The text is taken. -/
theorem takeFinalAnswer_text (context : Context) :
    (takeFinalAnswer context).1.cursorAssistantText = none := by
  rw [takeFinalAnswer]
  dsimp only
  split
  · rfl
  · split
    · rfl
    · split <;> rfl

/-- Without a text there is no answer. -/
theorem takeFinalAnswer_none (h : context.cursorAssistantText = none) :
    (takeFinalAnswer context).2 = none := by
  simp [takeFinalAnswer, h]

/-- The answer that a closing gives. -/
theorem answers_close {closing : Closing} (h : closing.Proper)
    (hrunning : context.cursorTurnCompletedEmitted = false) :
    answers (close lib closing context).2 =
      ((takeFinalAnswer context).2.map String.ofList).toList := by
  cases closing with
  | result line =>
    rw [close_result lib h]
    cases hanswer : (takeFinalAnswer context).2 <;>
      simp [normalizeResultSuccess, hanswer, answers, messagesOf, timelineEvent]
  | exit event =>
    cases hanswer : (takeFinalAnswer context).2 <;>
      simp [close, synthesizeMessageCompletedFromExit, hrunning, hanswer, answers, messagesOf,
        timelineEvent]

/-- Behind a closing no text is left. -/
theorem close_text {closing : Closing} (h : closing.Proper)
    (hspent : context.cursorTurnCompletedEmitted = true → context.cursorAssistantText = none) :
    (close lib closing context).1.cursorAssistantText = none := by
  cases closing with
  | result line =>
    rw [close_result lib h]
    exact takeFinalAnswer_text context
  | exit event =>
    by_cases hemitted : context.cursorTurnCompletedEmitted = true
    · simp [close, synthesizeMessageCompletedFromExit, hemitted, hspent hemitted]
    · cases hanswer : (takeFinalAnswer context).2 <;>
        simp [close, synthesizeMessageCompletedFromExit, hemitted, hanswer,
          takeFinalAnswer_text context]

/-- Nothing is answered twice. -/
theorem closeAll_spent {closings : List Closing} (h : ∀ closing ∈ closings, closing.Proper)
    (hspent : context.cursorAssistantText = none) :
    answers (closeAll lib closings context).2 = [] := by
  induction closings generalizing context with
  | nil => rfl
  | cons closing closings ih =>
    have ⟨hclosing, hclosings⟩ := List.forall_mem_cons.mp h
    have hrest := ih hclosings (close_text lib hclosing fun _ => hspent)
    have hfirst : answers (close lib closing context).2 = [] := by
      by_cases hemitted : context.cursorTurnCompletedEmitted = true
      · cases closing with
        | result line =>
          rw [close_result lib hclosing]
          simp [normalizeResultSuccess, takeFinalAnswer_none hspent, answers, messagesOf,
            timelineEvent]
        | exit event =>
          simp [close, synthesizeMessageCompletedFromExit, hemitted, answers, messagesOf]
      · rw [answers_close lib hclosing (by simpa using hemitted), takeFinalAnswer_none hspent]
        rfl
    rw [answers] at hfirst hrest ⊢
    simp [closeAll, hfirst, hrest]

/-- Where a turn begins: nothing is held, or its first text revises what is. -/
def Begins (context : Context) (pieces : List Piece) : Prop :=
  context.cursorAssistantText = none ∧ context.cursorAnswerStart = 0 ∨
    ∃ text rest, pieces = .text text :: rest ∧ ¬context.cursorAssistantText.getD [] <+: text

theorem Begins.tracks {lines : List Line} {pieces : List Piece} (h : Begins context pieces)
    (hread : lines.map (fun line => pieceOf line.2) = pieces.map some)
    (hcumulative : Cumulative pieces) (hrunning : context.cursorTurnCompletedEmitted = false) :
    Tracks pieces (readLines lib lines context).1 ∧
      String.join (deltas (readLines lib lines context).2) = String.ofList (lastText pieces) ∧
      answers (readLines lib lines context).2 = [] := by
  rcases h with ⟨htext, hstart⟩ | ⟨text, rest, rfl, hrevision⟩
  · have ⟨htracks, hdeltas, hanswers⟩ := readLines_tracks lib [] hread hcumulative
      (.of_none htext hstart hrunning)
    exact ⟨htracks, by simpa [lastText, textsOf, String.ext_iff] using hdeltas, hanswers⟩
  · cases lines with
    | nil => simp at hread
    | cons line lines =>
      have ⟨hpiece, hrest⟩ := List.cons.inj hread
      have hevents := events_text lib line.1 context hpiece
      have hnew : context.newText text = text := by rw [Context.newText, if_neg hrevision]
      have ⟨hdelta, hanswer⟩ := deltas_single lib line.1 (String.ofList text) (.object line.2)
      have ⟨htracks, hdeltas, hanswers⟩ := readLines_tracks lib [.text text] hrest
        hcumulative (.of_revision hrevision hrunning)
      have htext : lastText [.text text] = text := by simp [lastText, textsOf, Piece.said]
      rw [deltas] at hdelta hdeltas
      rw [answers] at hanswer hanswers
      refine ⟨?_, ?_, ?_⟩
      · simpa [readLines, normalizeJsonPayload, hevents] using htracks
      · simp only [readLines, normalizeJsonPayload, hevents, hnew, deltas, messagesOf_append,
          hdelta]
        rw [← String.toList_inj]
        simpa [htext] using hdeltas
      · simp only [readLines, normalizeJsonPayload, hevents, hnew, answers, messagesOf_append,
          hanswer, hanswers, List.append_nil]

/-- The texts of a turn come out once, in order, and its answer once. -/
theorem turn_reassembled {lines : List Line} {pieces : List Piece} {context : Context}
    (hread : lines.map (fun line => pieceOf line.2) = pieces.map some)
    (hcumulative : Cumulative pieces) (hbegins : Begins context pieces)
    (hrunning : context.cursorTurnCompletedEmitted = false)
    (closing : Closing) (closings : List Closing)
    (hproper : ∀ other ∈ closing :: closings, other.Proper) :
    let read := readLines lib lines context
    String.join (deltas read.2) = String.ofList (lastText pieces) ∧ answers read.2 = [] ∧
      answers (closeAll lib (closing :: closings) read.1).2 =
        ((answerOf pieces).map String.ofList).toList := by
  have ⟨htracks, hdeltas, hanswers⟩ := hbegins.tracks lib hread hcumulative hrunning
  have ⟨hclosing, hclosings⟩ := List.forall_mem_cons.mp hproper
  have hspent : (readLines lib lines context).1.cursorTurnCompletedEmitted = true →
      (readLines lib lines context).1.cursorAssistantText = none := by
    simp [htracks.running]
  have hrest := closeAll_spent lib hclosings (close_text lib hclosing hspent)
  have hfirst := answers_close lib hclosing htracks.running
  rw [htracks.takeFinalAnswer_eq] at hfirst
  refine ⟨hdeltas, hanswers, ?_⟩
  rw [answers] at hfirst hrest ⊢
  simp [closeAll, hfirst, hrest]

end Turns

/-! ## Two turns -/

section TwoTurns

def plainLibrary : Library := ⟨fun _ payload => payload, fun _ _ => 0⟩

def newContext : Context := ⟨none, none, 0, false⟩

def plainEvent : ProviderOutputEvent := ⟨"s1", .stdout, []⟩

/-- A text with its time. -/
def assistantLine (text : String) : Line :=
  (plainEvent, [("message", .string text), ("timestamp_ms", .number (.posInt 1)),
    ("type", .string "assistant")])

def toolLine : Line :=
  (plainEvent, [("subtype", .string "started"), ("type", .string "tool_call")])

def resultLine : Line :=
  (plainEvent, [("subtype", .string "success"), ("type", .string "result")])

theorem turn_reassembled_once :
    let read := readLines plainLibrary [assistantLine "On it.", toolLine, assistantLine "On it. Ok"]
      newContext
    String.join (deltas read.2) = "On it. Ok" ∧ answers read.2 = [] ∧
      answers (closeAll plainLibrary [.result resultLine, .exit plainEvent] read.1).2 = ["Ok"] := by
  have hchain : Cumulative [.text "On it.".toList, .tool, .text "On it. Ok".toList] :=
    .cons_cons (by decide) (.singleton _)
  exact turn_reassembled plainLibrary (by rfl) hchain (.inl ⟨rfl, rfl⟩) rfl
    (.result resultLine) [.exit plainEvent]
    (by simp [Closing.Proper, resultLine, Fields.field, stringValue, Json.asStr])

/-- What stands behind the last tool call that has more than white space behind it. -/
def behindSpokenTool (pieces : List Piece) : List Char :=
  let whole := lastText pieces
  let behind := (pieces.inits.filter fun front => front.getLast? = some .tool).map
    fun front => whole.drop (lastText front).length
  ((behind.filter fun rest => !isBlank rest).getLast?).getD whole

/-- The turn ends on a second tool call: the answer is the whole text again. -/
theorem whole_text_answered : ¬∀ (lib : Library) (lines : List Line) (pieces : List Piece),
    lines.map (fun line => pieceOf line.2) = pieces.map some → Cumulative pieces →
      answers (closeAll lib [.result resultLine] (readLines lib lines newContext).1).2 =
        [String.ofList (trimStart (behindSpokenTool pieces))] := by
  intro h
  have hchain : Cumulative [.text "A".toList, .tool, .text "A B".toList, .tool] :=
    .cons_cons (by decide) (.singleton _)
  have hanswer := h plainLibrary [assistantLine "A", toolLine, assistantLine "A B", toolLine]
    [.text "A".toList, .tool, .text "A B".toList, .tool] (by rfl) hchain
  exact absurd hanswer (by decide)

end TwoTurns

end Argmax.Providers.Normalizer.Cursor
