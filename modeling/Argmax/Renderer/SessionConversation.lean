import Argmax.Renderer.CanonicalTimeline
import Argmax.Renderer.Snapshot

/-!
# Rows of a conversation

`lib/sessionConversationModel.ts`: the order of rows, the latest `/clear`, and the join of the
starts of tools with their completions. An array is sorted by a stable sort, which is what the
language promises where the comparison is an order.
-/

namespace Argmax.Renderer.SessionConversation

open Argmax.CanonicalTimeline Argmax.Persistence.Timeline

/-! ## The order of rows -/

section Order

variable (collation : Collation)

def localeCompare (left right : String) : Ordering :=
  if collation.le left right then if collation.le right left then .eq else .lt else .gt

/-- By cursor where both rows have one and they differ, else by the clock. -/
def compareEventOrder (left right : RawTimelineEvent) : Ordering :=
  match left.rowCursor, right.rowCursor with
  | some l, some r =>
    if l ≠ r then compare l r else localeCompare collation left.createdAt right.createdAt
  | _, _ => localeCompare collation left.createdAt right.createdAt

def eventIsAfter (left right : RawTimelineEvent) : Bool :=
  compareEventOrder collation left right == .gt

def oldestFirst (events : List RawTimelineEvent) : List RawTimelineEvent :=
  events.reverse.mergeSort fun left right => !eventIsAfter collation left right

end Order

/-! ## Clears -/

section Clear

variable (js : Runtime) (collation : Collation)

/-- A row of `/clear`. -/
def isClear (event : RawTimelineEvent) : Bool :=
  match (decodeTimelineEvent js event).event with
  | .lifecycle (.plain .cleared) => true
  | _ => false

def latestClearEvent (events : List RawTimelineEvent) : Option RawTimelineEvent :=
  events.foldl (fun latest event =>
    if !isClear js event then latest
    else
      match latest with
      | none => some event
      | some held => if eventIsAfter collation event held then some event else some held) none

def eventsAfterLatestClear (events : List RawTimelineEvent) : List RawTimelineEvent :=
  match latestClearEvent js collation events with
  | none => events
  | some clear => events.filter fun event => eventIsAfter collation event clear

end Clear

/-! ## Tools -/

structure StartedTool where
  event : RawTimelineEvent
  toolUseId : String
  invocationId : Option String
  completion : Option RawTimelineEvent

/-- The tools seen so far. The starts that wait for a completion are referred to by their places. -/
structure Correlation where
  started : List StartedTool
  pendingByToolUseId : String → Option (List ℕ)

/-- The last of the waiting starts that is of the invocation. -/
def findJoinIndex (started : List StartedTool) (pending : List ℕ) (invocationId : Option String) :
    Option ℕ :=
  (pending.zipIdx.reverse.find? fun entry =>
    (started[entry.1]?.map (·.invocationId)) == some invocationId).map Prod.snd

section Tools

variable (js : Runtime) (collation : Collation)

/-- The tool row that an event is, unless it is superseded. -/
def toolRow (event : RawTimelineEvent) : Option CanonicalToolEvent :=
  let canonical := decodeTimelineEvent js event
  if canonical.common.traceSuperseded then none
  else
    match canonical.event with
    | .tool tool => some tool
    | _ => none

/-- The start that a row is. -/
def startOf (event : RawTimelineEvent) : Option StartedTool :=
  (toolRow js event).bind fun tool =>
    if tool.phase = .started then
      some ⟨event, tool.toolUseId.getD event.id, tool.invocationId, none⟩
    else none

/-- The tool and the invocation that a row completes. An empty id is none. -/
def completionOf (event : RawTimelineEvent) : Option (String × Option String) :=
  (toolRow js event).bind fun tool =>
    if tool.phase = .completed then
      (tool.toolUseId.filter (· != "")).map fun toolUseId => (toolUseId, tool.invocationId)
    else none

/-- A start waits for its completion. -/
def Correlation.push (correlation : Correlation) (start : StartedTool) : Correlation where
  started := correlation.started ++ [start]
  pendingByToolUseId :=
    Function.update correlation.pendingByToolUseId start.toolUseId
      (some ((correlation.pendingByToolUseId start.toolUseId).getD [] ++
        [correlation.started.length]))

/-- A completion goes to the start that it is joined with. -/
def Correlation.join (correlation : Correlation) (event : RawTimelineEvent) (toolUseId : String)
    (invocationId : Option String) : Correlation :=
  match correlation.pendingByToolUseId toolUseId with
  | none => correlation
  | some pending =>
    match findJoinIndex correlation.started pending invocationId with
    | none => correlation
    | some index =>
      match pending[index]? with
      | none => correlation
      | some place =>
        { started := correlation.started.modify place fun start =>
            { start with completion := some event }
          pendingByToolUseId := Function.update correlation.pendingByToolUseId toolUseId
            (some (pending.eraseIdx index)) }

/-- One turn of the sweep. -/
def Correlation.sweep (correlation : Correlation) (event : RawTimelineEvent) : Correlation :=
  match startOf js event with
  | some start => correlation.push start
  | none =>
    match completionOf js event with
    | some (toolUseId, invocationId) => correlation.join event toolUseId invocationId
    | none => correlation

def correlateToolEvents (events : List RawTimelineEvent) : List StartedTool :=
  ((oldestFirst collation events).foldl (Correlation.sweep js) ⟨[], fun _ => none⟩).started

end Tools

end Argmax.Renderer.SessionConversation
