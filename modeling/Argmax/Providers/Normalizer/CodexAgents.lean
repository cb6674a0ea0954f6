import Argmax.Providers.Normalizer
import Argmax.Providers.Normalizer.Values

/-!
# The runs of Codex agents

`providers/normalizer/codex.rs`: Codex reports its child agents through collab items. An
item that delivers input to an idle child opens a run, and one that reports a terminal state
or closes the child ends the run that is open. The map of open runs is all that is
remembered between items.
-/

namespace Argmax.Providers.Normalizer

open Argmax.Lib.Text

/-- `codex_active_agent_runs`: the open run of each child. -/
abbrev AgentRuns := String → Option String

def isTerminalAgentStatus (status : String) : Bool :=
  ["completed", "success", "failed", "error", "errored", "cancelled", "canceled"].contains
    (toAsciiLowercase status)

/-- The spelling of a status in an event. -/
def normalizedStatus (status : String) : String :=
  if toAsciiLowercase status = "errored" then "error" else toAsciiLowercase status

def codexAgentLifecycleEvent (event : ProviderOutputEvent) (item : Fields)
    (eventType message parentConversationId childId runId : String) (status : Option String) :
    PersistTimelineEventInput :=
  let payload := Json.insertField "providerParentConversationId" (.string parentConversationId) item
  let payload := Json.insertField "providerChildSessionId" (.string childId) payload
  let payload := Json.insertField "agentRunId" (.string runId) payload
  let payload :=
    match status with
    | some status => Json.insertField "status" (.string (normalizedStatus status)) payload
    | none => payload
  ⟨event.sessionId, eventType, message, .object payload⟩

/-- A collab item that gets as far as its receivers. -/
structure Collab where
  event : ProviderOutputEvent
  item : Fields
  toolName : String
  parentConversationId : String
  runId : String

namespace Collab

variable (collab : Collab)

def opensRun : Bool := collab.toolName == "spawn_agent" || collab.toolName == "send_input"

def deliverySucceeded : Bool := stringValue (collab.item.field "status") == some "completed"

def closed : Bool := collab.toolName == "close_agent" && collab.deliverySucceeded

/-- The state that the item reports for a child. -/
def state (childId : String) : Option Fields :=
  (objectValue (collab.item.field "agents_states")).bind fun states =>
    objectValue (states.field childId)

def status (childId : String) : Option String :=
  (collab.state childId).bind fun state => stringValue (state.field "status")

/-- The status with which the run of a child may end. -/
def endStatus (childId : String) : Option String :=
  if collab.closed && !(collab.status childId).any isTerminalAgentStatus then some "cancelled"
  else collab.status childId

/-- The message with which the run of a child ends. -/
def endMessage (childId : String) : String :=
  (((collab.state childId).bind fun state => stringValue (state.field "message")).filter
    fun message => !(trim message.toList).isEmpty).getD
      (if collab.closed then "Agent stopped" else "Agent completed")

/-- The receivers of the item, in its order. -/
def receiverIds : List String :=
  ((arrayValue (collab.item.field "receiver_thread_ids")).getD []).filterMap fun id =>
    id.asStr.filter fun s => !s.isEmpty

def startedEvent (childId : String) : PersistTimelineEventInput :=
  codexAgentLifecycleEvent collab.event collab.item "agent.started" "Agent started"
    collab.parentConversationId childId collab.runId (collab.status childId)

def completedEvent (childId activeRunId : String) : PersistTimelineEventInput :=
  codexAgentLifecycleEvent collab.event collab.item "agent.completed" (collab.endMessage childId)
    collab.parentConversationId childId activeRunId (collab.endStatus childId)

/-- The run of a child that the item opens. -/
def openRun (runs : AgentRuns) (childId : String) : AgentRuns × List PersistTimelineEventInput :=
  if collab.opensRun && (runs childId).isNone then
    (Function.update runs childId (some collab.runId), [collab.startedEvent childId])
  else (runs, [])

/-- The run of a child that the item ends. -/
def closeRun (runs : AgentRuns) (childId : String) : AgentRuns × List PersistTimelineEventInput :=
  if (collab.endStatus childId).any isTerminalAgentStatus then
    match runs childId with
    | some activeRunId =>
      (Function.update runs childId none, [collab.completedEvent childId activeRunId])
    | none => (runs, [])
  else (runs, [])

/-- The body of the loop. -/
def receiver (runs : AgentRuns) (childId : String) : AgentRuns × List PersistTimelineEventInput :=
  let opened := collab.openRun runs childId
  let closed := collab.closeRun opened.1 childId
  (closed.1, opened.2 ++ closed.2)

/-- The loop over the receivers. -/
def receivers : AgentRuns → List String → AgentRuns × List PersistTimelineEventInput
  | runs, [] => (runs, [])
  | runs, childId :: childIds =>
    let first := collab.receiver runs childId
    let rest := receivers first.1 childIds
    (rest.1, first.2 ++ rest.2)

end Collab

/-- A line of Codex output, as far as it was read. -/
structure ItemLine where
  event : ProviderOutputEvent
  providerType : Option String
  item : Option Fields
  itemType : Option String

/-- The fields that a collab item must have. -/
def ItemLine.collab? (line : ItemLine) : Option Collab := do
  if line.providerType ≠ some "item.completed" ∨ line.itemType ≠ some "collab_tool_call" then none
  else
    let item ← line.item
    let toolName ← stringValue (item.field "tool")
    let parentConversationId ← stringValue (item.field "sender_thread_id")
    let runId ← stringValue (item.field "id")
    some ⟨line.event, item, toolName, parentConversationId, runId⟩

def normalizeNativeAgentLifecycleEvents (line : ItemLine) (runs : AgentRuns) :
    AgentRuns × List PersistTimelineEventInput :=
  match line.collab? with
  | none => (runs, [])
  | some collab =>
    if collab.opensRun && !collab.deliverySucceeded then (runs, [])
    else collab.receivers runs collab.receiverIds

/-- Line after line, with one context. -/
def normalizeLines : AgentRuns → List ItemLine → AgentRuns × List PersistTimelineEventInput
  | runs, [] => (runs, [])
  | runs, line :: lines =>
    let first := normalizeNativeAgentLifecycleEvents line runs
    let rest := normalizeLines first.1 lines
    (rest.1, first.2 ++ rest.2)

/-! ## Alternation -/

/-- The child that an event is about. -/
def childOf (event : PersistTimelineEventInput) : Option String :=
  (event.payload.get "providerChildSessionId").bind Json.asStr

/-- The run that an event is about. -/
def runOf (event : PersistTimelineEventInput) : Option String :=
  (event.payload.get "agentRunId").bind Json.asStr

/-- The lifecycle events of a child. -/
def eventsOf (childId : String) (events : List PersistTimelineEventInput) :
    List PersistTimelineEventInput :=
  events.filter fun event => childOf event == some childId

/-- From an open run, or from none, the events start and complete runs in turn and leave
this run open, or none. A run is completed under the id with which it was started. -/
inductive Alternates : Option String → List PersistTimelineEventInput → Option String → Prop
  | done (run : Option String) : Alternates run [] run
  | started {event : PersistTimelineEventInput} {events : List PersistTimelineEventInput}
      {run : String} {last : Option String} (htype : event.type = "agent.started")
      (hrun : runOf event = some run) (h : Alternates (some run) events last) :
      Alternates none (event :: events) last
  | completed {event : PersistTimelineEventInput} {events : List PersistTimelineEventInput}
      {run : String} {last : Option String} (htype : event.type = "agent.completed")
      (hrun : runOf event = some run) (h : Alternates none events last) :
      Alternates (some run) (event :: events) last

theorem Alternates.append {first mid last : Option String}
    {events events' : List PersistTimelineEventInput} (h : Alternates first events mid)
    (h' : Alternates mid events' last) : Alternates first (events ++ events') last := by
  induction h with
  | done => exact h'
  | started htype hrun _ ih => exact .started htype hrun (ih h')
  | completed htype hrun _ ih => exact .completed htype hrun (ih h')

@[simp] theorem childOf_codexAgentLifecycleEvent (event : ProviderOutputEvent) (item : Fields)
    (eventType message parent childId runId : String) (status : Option String) :
    childOf (codexAgentLifecycleEvent event item eventType message parent childId runId status) =
      some childId := by
  have hrun : "providerChildSessionId" ≠ "agentRunId" := by decide
  have hstatus : "providerChildSessionId" ≠ "status" := by decide
  cases status with
  | none =>
    change (Fields.field _ _).bind Json.asStr = _
    rw [field_insertField_of_ne _ hrun, field_insertField_self]
    rfl
  | some status =>
    change (Fields.field _ _).bind Json.asStr = _
    rw [field_insertField_of_ne _ hstatus, field_insertField_of_ne _ hrun, field_insertField_self]
    rfl

@[simp] theorem runOf_codexAgentLifecycleEvent (event : ProviderOutputEvent) (item : Fields)
    (eventType message parent childId runId : String) (status : Option String) :
    runOf (codexAgentLifecycleEvent event item eventType message parent childId runId status) =
      some runId := by
  have hstatus : "agentRunId" ≠ "status" := by decide
  cases status with
  | none =>
    change (Fields.field _ _).bind Json.asStr = _
    rw [field_insertField_self]
    rfl
  | some status =>
    change (Fields.field _ _).bind Json.asStr = _
    rw [field_insertField_of_ne _ hstatus, field_insertField_self]
    rfl

theorem eventsOf_append (childId : String) (events events' : List PersistTimelineEventInput) :
    eventsOf childId (events ++ events') = eventsOf childId events ++ eventsOf childId events' :=
  List.filter_append ..

/-- Events that take the open runs `runs` to `runs'`. -/
def Follows (runs : AgentRuns) (events : List PersistTimelineEventInput) (runs' : AgentRuns) :
    Prop :=
  ∀ childId, Alternates (runs childId) (eventsOf childId events) (runs' childId)

theorem Follows.refl (runs : AgentRuns) : Follows runs [] runs := fun _ => .done _

theorem Follows.append {runs mid runs' : AgentRuns} {events events' : List PersistTimelineEventInput}
    (h : Follows runs events mid) (h' : Follows mid events' runs') :
    Follows runs (events ++ events') runs' := by
  intro childId
  rw [eventsOf_append]
  exact (h childId).append (h' childId)

/-- One event about a child changes the run of that child only. -/
theorem follows_update {runs : AgentRuns} {childId : String} {event : PersistTimelineEventInput}
    {run : Option String} (hchild : childOf event = some childId)
    (h : Alternates (runs childId) [event] run) :
    Follows runs [event] (Function.update runs childId run) := by
  intro other
  by_cases hother : other = childId
  · subst hother
    simpa [eventsOf, hchild] using h
  · simpa [eventsOf, hchild, Ne.symm hother, Function.update_of_ne hother] using .done _

namespace Collab

variable (collab : Collab)

/-- An idle child is started. -/
theorem openRun_follows (runs : AgentRuns) (childId : String) :
    Follows runs (collab.openRun runs childId).2 (collab.openRun runs childId).1 := by
  rw [openRun]
  split
  case isTrue hopens =>
    have hidle : runs childId = none := by
      rw [← Option.isNone_iff_eq_none]
      exact (Bool.and_eq_true_iff.mp hopens).2
    apply follows_update
    · simp [startedEvent]
    · rw [hidle]
      exact .started rfl (by simp [startedEvent]) (.done _)
  case isFalse => exact .refl runs

/-- An open run is completed under its id. -/
theorem closeRun_follows (runs : AgentRuns) (childId : String) :
    Follows runs (collab.closeRun runs childId).2 (collab.closeRun runs childId).1 := by
  rw [closeRun]
  split
  case isTrue =>
    split
    case h_1 activeRunId hactive =>
      apply follows_update
      · simp [completedEvent]
      · rw [hactive]
        exact .completed rfl (by simp [completedEvent]) (.done _)
    case h_2 => exact .refl runs
  case isFalse => exact .refl runs

theorem receivers_follows (runs : AgentRuns) (childIds : List String) :
    Follows runs (collab.receivers runs childIds).2 (collab.receivers runs childIds).1 := by
  induction childIds generalizing runs with
  | nil => exact .refl runs
  | cons childId childIds ih =>
    have hfirst : Follows runs (collab.receiver runs childId).2 (collab.receiver runs childId).1 :=
      (collab.openRun_follows runs childId).append (collab.closeRun_follows _ childId)
    exact hfirst.append (ih _)

end Collab

/-- What one item does to the runs, from any open runs. -/
theorem normalizeNativeAgentLifecycleEvents_follows (line : ItemLine) (runs : AgentRuns) :
    Follows runs (normalizeNativeAgentLifecycleEvents line runs).2
      (normalizeNativeAgentLifecycleEvents line runs).1 := by
  rw [normalizeNativeAgentLifecycleEvents]
  split
  case h_1 => exact .refl runs
  case h_2 collab _ =>
    split
    · exact .refl runs
    · exact collab.receivers_follows runs collab.receiverIds

theorem normalizeLines_follows (runs : AgentRuns) (lines : List ItemLine) :
    Follows runs (normalizeLines runs lines).2 (normalizeLines runs lines).1 := by
  induction lines generalizing runs with
  | nil => exact .refl runs
  | cons line lines ih =>
    exact (normalizeNativeAgentLifecycleEvents_follows line runs).append (ih _)

/-- **The runs of a child alternate** over any lines, and what is remembered at the end is
the run that was started and not completed. -/
theorem native_agent_runs_alternate (lines : List ItemLine) (childId : String) :
    Alternates none (eventsOf childId (normalizeLines (fun _ => none) lines).2)
      ((normalizeLines (fun _ => none) lines).1 childId) :=
  normalizeLines_follows (fun _ => none) lines childId

end Argmax.Providers.Normalizer
