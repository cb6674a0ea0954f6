import Argmax.Json
import Argmax.Lib.Table
import Argmax.Lib.Text
import Mathlib.Data.List.MinMax

/-!
# The events of the sessions

`persistence/events.rs` and the parts of `providers/follow_up.rs` that read it. A
session's transcript is its rows of `events`. A row's place is its rowid, and a
new row takes the next one.

A *visible* event is what the person and the agent said since the last clear.
The conditions are the SQL of the source, three-valued where a missing field
makes them so.
-/

namespace Argmax.Persistence

open Argmax.Lib Argmax.Lib.Text

/-- A row of `events`. -/
structure EventRow where
  rowid : ℕ
  id : String
  sessionId : String
  type : String
  message : String
  payload : Json
  deriving DecidableEq

/-- The table `events`, keyed by event id. -/
abbrev EventTable := Table EventRow.id

/-- The rowid of the next row. -/
def nextRowid (events : EventTable) : ℕ :=
  events.rows.foldr (fun event newest => max event.rowid newest) 0 + 1

theorem le_foldr_rowid {rows : List EventRow} {row : EventRow} (h : row ∈ rows) :
    row.rowid ≤ rows.foldr (fun event newest => max event.rowid newest) 0 := by
  induction rows with
  | nil => cases h
  | cons first rest ih =>
    rcases List.mem_cons.mp h with rfl | h
    · exact Nat.le_max_left _ _
    · exact (ih h).trans (Nat.le_max_right _ _)

variable {events : EventTable} {sessionId : String}

theorem rowid_lt_nextRowid {row : EventRow} (h : row ∈ events) : row.rowid < nextRowid events :=
  Nat.lt_succ_of_le (le_foldr_rowid h)

/-- `persist_timeline_event`: a new row at the end, unless its id is taken. -/
def persistTimelineEvent (events : EventTable) (id sessionId type message : String)
    (payload : Json) : Option EventTable :=
  events.insert? ⟨nextRowid events, id, sessionId, type, message, payload⟩

def eventRowid (events : EventTable) (eventId : String) : Option ℕ :=
  (events.find? eventId).map (·.rowid)

theorem eventRowid_of_mem {event : EventRow} (h : event ∈ events) :
    eventRowid events event.id = some event.rowid := by
  rw [eventRowid, Table.find?_of_mem h, Option.map_some]

/-- A known event keeps its place when rows are added. -/
theorem eventRowid_of_subset {events' : EventTable} (h : ∀ event ∈ events, event ∈ events')
    {eventId : String} {rowid : ℕ} (hrow : eventRowid events eventId = some rowid) :
    eventRowid events' eventId = some rowid := by
  obtain ⟨event, hfind, rfl⟩ := Option.map_eq_some_iff.mp hrow
  obtain ⟨hmem, rfl⟩ := Table.find?_eq_some.mp hfind
  exact eventRowid_of_mem (h event hmem)

theorem mem_persistTimelineEvent {events' : EventTable} {id type message : String} {payload : Json}
    (h : persistTimelineEvent events id sessionId type message payload = some events') :
    ∀ event ∈ events, event ∈ events' :=
  fun _ hevent => (Table.mem_insert? h).mpr (.inl hevent)

/-! ## Three-valued conditions -/

/-- A condition of SQL: `none` is `NULL`. -/
abbrev SqlBool := Option Bool

namespace SqlBool

def and : SqlBool → SqlBool → SqlBool
  | some false, _ | _, some false => some false
  | some true, some true => some true
  | _, _ => none

def or : SqlBool → SqlBool → SqlBool
  | some true, _ | _, some true => some true
  | some false, some false => some false
  | _, _ => none

def not : SqlBool → SqlBool := Option.map (!·)

/-- A row is selected when its condition is true, neither false nor `NULL`. -/
def holds (condition : SqlBool) : Bool := condition == some true

end SqlBool

/-- `json_extract`: the value at a path of fields. A missing value and a JSON `null`
are both `NULL`. -/
def jsonExtract (payload : Json) : List String → Option Json
  | [] => if payload = .null then none else some payload
  | field :: path => (payload.get field).bind fun value => jsonExtract value path

/-- The row belongs to a child agent: child prose, an imported trace row, or a live
message of another thread. -/
def notChildAgent (payload : Json) : Bool :=
  let extract := jsonExtract payload
  let isAgentMessage := fun path =>
    (extract path).map fun value => decide (value = .string "agent_message")
  let present := fun path => some (extract path).isSome
  (extract ["parent_tool_use_id"]).isNone && (extract ["traceImported"]).isNone &&
    (SqlBool.not
      (SqlBool.and
        (SqlBool.or (isAgentMessage ["item_type"]) (isAgentMessage ["item", "type"]))
        (SqlBool.or (present ["thread_id"])
          (SqlBool.or (present ["sender_thread_id"])
            (SqlBool.or (present ["item", "thread_id"])
              (present ["item", "sender_thread_id"])))))).holds

/-! ## Visible events -/

/-- The rowid of a session's last clear, zero without one. -/
def lastCleared (events : EventTable) (sessionId : String) : ℕ :=
  (events.rows.filter fun event =>
    event.sessionId == sessionId && event.type == "session.cleared").foldr
      (fun event newest => max event.rowid newest) 0

/-- The condition `ELIGIBLE_EVENTS` for rows in `(after, upto]`. SQLite's `trim`
removes spaces only. -/
def eligible (events : EventTable) (sessionId : String) (after upto : ℕ)
    (event : EventRow) : Bool :=
  event.sessionId == sessionId &&
    ["user.message", "message.completed", "error"].contains event.type &&
    event.message.toList.any (· != ' ') &&
    decide (lastCleared events sessionId < event.rowid) &&
    decide (after < event.rowid) && decide (event.rowid ≤ upto) &&
    notChildAgent event.payload

/-- No bound from above: the largest rowid. -/
def maxRowid : ℕ := 2 ^ 63 - 1

/-- The eligible rows, newest first. -/
def eligibleNewestFirst (events : EventTable) (sessionId : String) (after upto : ℕ) :
    List EventRow :=
  (events.rows.filter (eligible events sessionId after upto)).mergeSort
    fun a b => decide (b.rowid ≤ a.rowid)

def isVisibleEvent (events : EventTable) (sessionId eventId : String) : Bool :=
  events.rows.any fun event => eligible events sessionId 0 maxRowid event && event.id == eventId

def newestVisibleEvent (events : EventTable) (sessionId : String) : Option (ℕ × String) :=
  (eligibleNewestFirst events sessionId 0 maxRowid).head?.map fun event =>
    (event.rowid, event.id)

/-- `clamp_context_text`: a text of more than four thousand bytes is cut at the last
character that starts by then. -/
def clampContextText (text : List Char) : List Char :=
  if byteLength text ≤ 4000 then text
  else
    let starts := (List.range text.length).filter fun i =>
      byteLength (text.take i) ≤ 4000
    trimEnd (text.take (starts.foldr max 0)) ++ "...".toList

/-- One line of carried context. -/
def contextLine (event : EventRow) : Option String :=
  let speaker :=
    match event.type with
    | "user.message" => some "User"
    | "message.completed" => some "Assistant"
    | "error" => some "System"
    | _ => none
  let text := trim event.message.toList
  speaker.bind fun speaker =>
    if text.isEmpty then none
    else some (speaker ++ ": " ++ String.ofList (clampContextText text))

/-- `visible_messages_after`: the newest messages of `(after, upto]` with their rows,
oldest first, and how many the range holds. -/
def visibleMessagesAfter (events : EventTable) (sessionId : String) (after upto limit : ℕ) :
    List (EventRow × String) × ℕ :=
  let rows := eligibleNewestFirst events sessionId after upto
  (((rows.take limit).filterMap fun event =>
    (contextLine event).map fun line => (event, line)).reverse, rows.length)

theorem mem_eligibleNewestFirst {after upto : ℕ} {event : EventRow} :
    event ∈ eligibleNewestFirst events sessionId after upto ↔
      event ∈ events ∧ eligible events sessionId after upto event = true := by
  rw [eligibleNewestFirst, List.mem_mergeSort, List.mem_filter, Table.mem_def]

/-- The place `newest_visible_event` reports is that of the event it names. -/
theorem newestVisibleEvent_eq_some {eventId : String} {rowid : ℕ}
    (h : newestVisibleEvent events sessionId = some (rowid, eventId)) :
    eventRowid events eventId = some rowid := by
  obtain ⟨event, hhead, heq⟩ := Option.map_eq_some_iff.mp h
  obtain ⟨rfl, rfl⟩ := Prod.mk.inj heq
  exact eventRowid_of_mem (mem_eligibleNewestFirst.mp (List.mem_of_head? hhead)).1

/-- The carried messages are visible rows of the range. -/
theorem mem_visibleMessagesAfter {after upto limit : ℕ} {event : EventRow} {line : String}
    (h : (event, line) ∈ (visibleMessagesAfter events sessionId after upto limit).1) :
    event ∈ events ∧ after < event.rowid ∧ event.rowid ≤ upto := by
  simp only [visibleMessagesAfter, List.mem_reverse, List.mem_filterMap] at h
  obtain ⟨event', hmem, hline⟩ := h
  obtain ⟨line', -, heq⟩ := Option.map_eq_some_iff.mp hline
  obtain ⟨rfl, rfl⟩ := Prod.mk.inj heq
  obtain ⟨hevent, helig⟩ := mem_eligibleNewestFirst.mp (List.mem_of_mem_take hmem)
  simp only [eligible, Bool.and_eq_true, decide_eq_true_eq] at helig
  exact ⟨hevent, helig.1.1.2, helig.1.2⟩

end Argmax.Persistence
