import Argmax.Lib.Paging
import Argmax.Lib.Text
import Argmax.Providers.DashboardDelta
import Mathlib.Data.String.Basic

/-!
# What a transcript page sheds

`remote/transcript_trim.rs` and the reads of `persistence/events.rs` that it slims. A
page loses payload weight and the streamed deltas that a completed answer on the same
page supersedes, and is then cut to a budget of bytes.

A session's rows are those of its events and raw outputs, each kind in ascending order
of the rowid. How many bytes a row takes as text is a parameter.
-/

namespace Argmax.Remote.TranscriptTrim

open Argmax.Lib Argmax.Lib.Paging Argmax.Providers

/-! ## Payload weight -/

/-- `Map::remove`. -/
def removeField (key : String) (fields : List (String × Json)) : List (String × Json) :=
  fields.filter fun field => field.1 != key

def isObject : Json → Bool
  | .object _ => true
  | _ => false

def isInlineImageBlock (block : Json) : Bool :=
  ((block.get "source").bind (Json.get "data")).bind Json.asStr |>.isSome

def omittedImage : Json := .object [("omitted", .bool true), ("type", .string "image")]

/-- `content` with its inline images left out. -/
def slimContent : Json → Json
  | .array blocks => .array (blocks.map fun block =>
      if isInlineImageBlock block then omittedImage else block)
  | value => value

def trimPayload (event : TimelineEvent) : TimelineEvent :=
  match event.payload with
  | .object fields =>
    let fields :=
      if ((Json.object fields).get "raw").any isObject then removeField "raw" fields else fields
    let fields :=
      if event.type = "command.completed" then
        (removeField "aggregated_output" fields).map fun field =>
          if field.1 = "content" then (field.1, slimContent field.2) else field
      else fields
    { event with payload := .object fields }
  | _ => event

/-! ## Superseded deltas -/

def nonBlank (value : Option Json) : Option String :=
  (value.bind Json.asStr).filter fun text => !(Text.trim text.toList).isEmpty

def providerThreadId (payload : Json) : Option String :=
  let item := payload.get "item"
  let isAgentMessage :=
    (payload.get "item_type").bind Json.asStr == some "agent_message" ||
      (item.bind (Json.get "type")).bind Json.asStr == some "agent_message"
  if isAgentMessage then
    (nonBlank (payload.get "thread_id")).or
      ((nonBlank (payload.get "sender_thread_id")).or
        ((nonBlank (item.bind (Json.get "thread_id"))).or
          (nonBlank (item.bind (Json.get "sender_thread_id")))))
  else none

def isSubAgentProse (event : TimelineEvent) : Bool :=
  ["message.delta", "message.completed"].contains event.type &&
    ((nonBlank (event.payload.get "parent_tool_use_id")).isSome ||
      (providerThreadId event.payload).isSome)

inductive TurnBoundary where
  | completed (completedText : String)
  | tool (completedText : String)
  | user

/-- `advance_turn_boundary`: the boundary an event makes, or none where the previous one
stays. -/
def advanceTurnBoundary (previous : Option TurnBoundary) (event : TimelineEvent) :
    Option TurnBoundary :=
  match event.type with
  | "message.completed" => some (.completed event.message)
  | "command.started" =>
    if (nonBlank (event.payload.get "parent_tool_use_id")).isSome then none
    else
      match previous with
      | some (.completed completedText) => some (.tool completedText)
      | _ => none
  | "user.message" =>
    if (event.payload.get "delivery").bind Json.asStr = some "steer" then none else some .user
  | _ => none

def isSupersededAnswerDelta (event : TimelineEvent) (boundary : Option TurnBoundary) : Bool :=
  if event.payload.get "thinking" = some (.bool true) then false
  else
    match boundary with
    | some (.completed _) => true
    | some (.tool completedText) =>
      let delta := Text.trim event.message.toList
      decide (3 ≤ Text.byteLength delta) && delta.isPrefixOf (Text.trim completedText.toList)
    | _ => false

/-- The state of the sweep. The map of the boundaries is a function of the session. -/
structure Sweep where
  nextBoundary : String → Option TurnBoundary
  superseded : List ℕ

/-- One event of the sweep, with its place on the page. -/
def Sweep.visit (row : TimelineEvent × ℕ) (sweep : Sweep) : Sweep :=
  let (event, index) := row
  let boundary := sweep.nextBoundary event.sessionId
  if !isObject event.payload || isSubAgentProse event then sweep
  else if event.type = "message.delta" then
    if isSupersededAnswerDelta event boundary then
      { sweep with superseded := index :: sweep.superseded }
    else sweep
  else
    match advanceTurnBoundary boundary event with
    | some advanced =>
      { sweep with
        nextBoundary := fun session =>
          if session = event.sessionId then some advanced else sweep.nextBoundary session }
    | none => sweep

/-- The order of the sweep: by cursor, by time, by place. -/
def sweepOrder (left right : TimelineEvent × ℕ) : Bool :=
  ((compare left.1.rowCursor right.1.rowCursor).then
    ((compare left.1.createdAt right.1.createdAt).then (compare left.2 right.2))).isLE

/-- The rows in the order of the sweep, with their places. -/
def ascending (events : List TimelineEvent) : List (TimelineEvent × ℕ) :=
  events.zipIdx.mergeSort sweepOrder

def dropSupersededDeltas (events : List TimelineEvent) : List TimelineEvent :=
  let swept := (ascending events).foldr Sweep.visit ⟨fun _ => none, []⟩
  (events.zipIdx.filter fun row => !swept.superseded.contains row.2).map (·.1)

/-! ## Pages -/

structure SessionEventsSinceResult where
  events : List TimelineEvent
  rawOutputs : List RawProviderOutput
  eventCursor : ℤ
  rawOutputCursor : ℤ
  changeCursor : Option ℤ
  deletedEventIds : List String
  deletedRawOutputIds : List String
  resetRequired : Bool
  hasMore : Bool
  deriving DecidableEq

def trimForRemote (result : SessionEventsSinceResult) : SessionEventsSinceResult :=
  { result with events := dropSupersededDeltas (result.events.map trimPayload) }

def maxRowCursor {R : Type*} (rowCursor : R → Option ℤ) (rows : List R) (fallback : ℤ) : ℤ :=
  (rows.filterMap rowCursor).max?.getD fallback

/-- How many bytes a row takes as JSON. -/
structure RowSizes where
  event : TimelineEvent → ℕ
  rawOutput : RawProviderOutput → ℕ

/-- How many rows go into a budget of which some is spent, and what is spent then. The
first row of a page goes in any case. -/
def keepWithin {R : Type*} (size : R → ℕ) (budget kept spent : ℕ) : List R → ℕ × ℕ
  | [] => (0, spent)
  | row :: rows =>
    if 0 < kept ∧ budget < spent + size row then (0, spent)
    else
      let (count, total) := keepWithin size budget (kept + 1) (spent + size row) rows
      (count + 1, total)

section Budget

variable (sizes : RowSizes)

def fitToBudget (result : SessionEventsSinceResult) (budget : ℕ) : SessionEventsSinceResult :=
  let (keptEvents, spent) := keepWithin sizes.event budget 0 0 result.events
  let eventsCut := keptEvents < result.events.length
  let keptOutputs :=
    if eventsCut then 0
    else (keepWithin sizes.rawOutput budget keptEvents spent result.rawOutputs).1
  let outputsCut := keptOutputs < result.rawOutputs.length
  if ¬eventsCut ∧ ¬outputsCut then result
  else
    let result :=
      if eventsCut then
        { result with
          events := result.events.take keptEvents
          eventCursor := maxRowCursor TimelineEvent.rowCursor (result.events.take keptEvents)
            result.eventCursor }
      else result
    let result :=
      match result.rawOutputs[keptOutputs]?.bind RawProviderOutput.rowCursor with
      | some firstOwed =>
        { result with
          rawOutputs := result.rawOutputs.take keptOutputs
          rawOutputCursor := maxRowCursor RawProviderOutput.rowCursor
            (result.rawOutputs.take keptOutputs) (firstOwed - 1) }
      | none => result
    { result with changeCursor := none, hasMore := true }

end Budget

/-! ## Reads -/

/-- The place of a row. -/
def eventPlace (event : TimelineEvent) : ℤ := event.rowCursor.getD 0

/-- The place of a raw output. -/
def outputPlace (output : RawProviderOutput) : ℤ := output.rowCursor.getD 0

/-- The rows of one session, each with its rowid. -/
structure Transcript where
  events : List TimelineEvent
  rawOutputs : List RawProviderOutput
  placed : ∀ event ∈ events, event.rowCursor.isSome
  outputsPlaced : ∀ output ∈ rawOutputs, output.rowCursor.isSome
  ordered : Ascending eventPlace events
  outputsOrdered : Ascending outputPlace rawOutputs

def sessionEventPageLimit : ℕ := 500
def sessionTailDurableLimit : ℕ := 2000
def sessionTailOpenRunLimit : ℕ := 5000
def sessionRawOutputPageLimit : ℕ := 100

/-- `ORDER BY rowid DESC LIMIT n`. -/
def newest {R : Type*} (n : ℕ) (rows : List R) : List R := rows.reverse.take n

/-- `list_event_rows` without a cursor: the rows after the floor of the run the newest
page lands in, and the newest durable ones. -/
def eventTail (events : List TimelineEvent) : List TimelineEvent :=
  let durable := events.filter fun event => event.type != "message.delta"
  let pageStart := ((newest sessionEventPageLimit events).map eventPlace).min?
  let runFloor :=
    max
      ((pageStart.bind fun start =>
        ((durable.map eventPlace).filter fun place => decide (place < start)).max?).getD 0)
      ((events.reverse[sessionTailOpenRunLimit]?.map eventPlace).getD 0)
  let newestDurable := (newest sessionTailDurableLimit durable).map eventPlace
  events.filter fun event =>
    decide (runFloor < eventPlace event) || newestDurable.contains (eventPlace event)

def listAuthoritativeTail (transcript : Transcript) (head : ℤ) : SessionEventsSinceResult :=
  let events := eventTail transcript.events
  let rawOutputs := (newest sessionRawOutputPageLimit transcript.rawOutputs).reverse
  ⟨events, rawOutputs, maxRowCursor TimelineEvent.rowCursor events 0,
    maxRowCursor RawProviderOutput.rowCursor rawOutputs 0, some head, [], [], true, false⟩

/-- `list_session_events_since`, with both cursors. `list_event_rows` and
`list_raw_output_rows` read the rows after them. -/
def listSessionEventsSince (transcript : Transcript) (head eventCursor rawOutputCursor : ℤ) :
    SessionEventsSinceResult :=
  let events := rowsAfter eventPlace sessionEventPageLimit transcript.events eventCursor
  let rawOutputs :=
    rowsAfter outputPlace sessionRawOutputPageLimit transcript.rawOutputs rawOutputCursor
  let hasMore := decide (sessionEventPageLimit ≤ events.length) ||
    decide (sessionRawOutputPageLimit ≤ rawOutputs.length)
  ⟨events, rawOutputs, maxRowCursor TimelineEvent.rowCursor events eventCursor,
    maxRowCursor RawProviderOutput.rowCursor rawOutputs rawOutputCursor,
    if hasMore then none else some head, [], [], false, hasMore⟩

/-! ## The client's loop -/

section Backfill

variable (sizes : RowSizes) (budget : ℕ) (transcript : Transcript) (head : ℤ)

/-- The page of a cursorless request. -/
def firstPage : SessionEventsSinceResult :=
  fitToBudget sizes (trimForRemote (listAuthoritativeTail transcript head)) budget

/-- The page after another one. -/
def nextPage (page : SessionEventsSinceResult) : SessionEventsSinceResult :=
  fitToBudget sizes
    (trimForRemote
      (listSessionEventsSince transcript head page.eventCursor page.rawOutputCursor)) budget

/-- The pages from one on, if it takes no more than so many requests. -/
def pagesFrom : ℕ → SessionEventsSinceResult → Option (List SessionEventsSinceResult)
  | fuel, page =>
    if page.hasMore then
      match fuel with
      | 0 => none
      | fuel + 1 => (pagesFrom fuel (nextPage sizes budget transcript head page)).map (page :: ·)
    else some [page]

/-- A backfill: pages until one has no more. -/
def backfill (fuel : ℕ) : Option (List SessionEventsSinceResult) :=
  pagesFrom sizes budget transcript head fuel (firstPage sizes budget transcript head)

end Backfill

end Argmax.Remote.TranscriptTrim
