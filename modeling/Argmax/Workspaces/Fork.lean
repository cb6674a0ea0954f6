import Argmax.Persistence.ForkMerges
import Argmax.Providers.Continuity

/-!
# Forking a chat at a finished turn

`workspaces/orchestration/fork.rs`. A fork opens with copies of the events of its source up
to the end of one turn. Which turn is settled before its checkout is made, and the source may
go on meanwhile; the rest is one transaction.

The checkout itself, the delta that is published and the artifacts of visualizations are not
part of the model. A copy is stored as it is: the enrichment of agent rows asks for the live
conversation of the fork, and there is none yet.
-/

namespace Argmax.Workspaces.Fork

open Argmax.Persistence Argmax.Persistence.Continuity Argmax.Providers.Continuity

/-! ## Sessions -/

/-- A row of `sessions`, with the bindings and turns that hang on it and the path of its
workspace. -/
structure Session where
  id : String
  provider : String
  state : String
  providerConversationId : Option String
  resumeFork : Bool
  bindings : Lib.Table ProviderBinding.key
  turns : Lib.Table BindingTurn.key
  nextBindingId : ℕ
  workspacePath : String

/-- The tables as `persistence/continuity.rs` sees them. -/
def Session.tables (session : Session) (events : EventTable)
    (configIdentity : String → String) : SessionTables where
  sessionId := session.id
  events := events
  provider := session.provider
  providerConversationId := session.providerConversationId
  bindings := session.bindings
  turns := session.turns
  nextBindingId := session.nextBindingId
  workspacePath := session.workspacePath
  configIdentity := configIdentity

/-- What a statement has made of the tables. -/
def Session.withTables (session : Session) (db : SessionTables) : Session :=
  { session with
    provider := db.provider
    providerConversationId := db.providerConversationId
    bindings := db.bindings
    turns := db.turns
    nextBindingId := db.nextBindingId }

/-- `update_session_provider_conversation_id`: the id spends the fork flag. -/
def Session.updateConversationId (session : Session) (configIdentity : String → String)
    (conversationId now : String) : Session :=
  { session.withTables ((session.tables .empty configIdentity).updateSessionProviderConversationId
      conversationId now) with resumeFork := false }

/-- `set_session_resume_fork`. -/
def Session.setResumeFork (session : Session) (now : String) : Session :=
  { session.withTables ((session.tables .empty fun _ => "").invalidateSessionBindings
      "fork-source" now) with resumeFork := true }

def activeStates : List String := ["running", "waiting", "blocked"]

/-- `fork_error`: the hint stays with the log. -/
def forkError (message : String) : ArgmaxError := .service "WORKSPACE_INVALID" message

/-! ## The selected turn -/

/-- The slice of the source timeline a fork copies. -/
structure ForkSelection where
  boundaryEventId : Option String
  lastRowid : ℕ
  lastEventId : Option String
  isLatest : Bool
  deriving DecidableEq

/-- `ORDER BY rowid LIMIT 1`. -/
def oldest (events : EventTable) (p : EventRow → Bool) : Option EventRow :=
  (events.rows.filter p).argmin (·.rowid)

/-- A message that was sent into a running turn. -/
def steered (event : EventRow) : Bool :=
  (event.payload.get "delivery").bind Json.asStr == some "steer"

/-- A message that belongs to a child agent. -/
def childRow (event : EventRow) : Bool :=
  (event.payload.get "parent_tool_use_id").any (· != .null)

/-- A message that began a turn after a place. -/
def beginsTurnAfter (sessionId : String) (rowid : ℕ) (event : EventRow) : Bool :=
  event.sessionId == sessionId && event.type == "user.message" && decide (rowid < event.rowid) &&
    jsonExtract event.payload ["delivery"] != some (.string "steer") &&
    (jsonExtract event.payload ["parent_tool_use_id"]).isNone

def selectForkRange (events : EventTable) (source : Session) (boundaryEventId : Option String) :
    ArgmaxResult ForkSelection :=
  let sourceActive := activeStates.contains source.state
  match boundaryEventId with
  | none =>
    if sourceActive then
      .error (forkError
        "This chat is still working; forking mid-turn would copy a partial transcript.")
    else
      let last := newest events fun event => event.sessionId == source.id
      .ok
        { boundaryEventId := (latestTurnStarter (source.tables events fun _ => "")).map (·.id)
          lastRowid := (last.map (·.rowid)).getD 0
          lastEventId := last.map (·.id)
          isLatest := true }
  | some boundaryEventId =>
    match (events.find? boundaryEventId).filter fun event => event.sessionId == source.id with
    | none => .error (forkError "That turn is not in this chat.")
    | some boundary =>
      if boundary.type != "user.message" || steered boundary || childRow boundary then
        .error (forkError "A fork starts from a message that began a turn.")
      else if boundary.rowid < lastCleared events source.id then
        .error (forkError "That turn was cleared from this chat.")
      else
        let nextTurn := oldest events (beginsTurnAfter source.id boundary.rowid)
        if nextTurn.isNone && sourceActive then .error (forkError "That turn is still working.")
        else
          let nextRowid := (nextTurn.map (·.rowid)).getD maxRowid
          match newest events fun event =>
              event.sessionId == source.id && decide (event.rowid < nextRowid) with
          | none => .error (.service "SQLITE" "Query returned no rows")
          | some last =>
            .ok
              { boundaryEventId := some boundaryEventId
                lastRowid := last.rowid
                lastEventId := some last.id
                isLatest := nextTurn.isNone }

/-! ## The native plan -/

inductive ForkWorkspaceMode where
  | shared
  | isolated
  deriving DecidableEq

/-- `move_carries_conversation` of a known provider. -/
def moveCarriesConversation : String → Option Bool
  | "claude" | "codex" => some true
  | "cursor" | "opencode" | "grok" => some false
  | _ => none

def nativePlan (events : EventTable) (source : Session) (selection : ForkSelection)
    (workspace : ForkWorkspaceMode) : NativeMode × Option String :=
  match source.providerConversationId with
  | none => (.none, none)
  | some conversation =>
    if source.resumeFork || activeStates.contains source.state then (.none, none)
    else
      let recorded :=
        if source.provider = "codex" then
          selection.boundaryEventId.bind fun eventId =>
            (source.tables events fun _ => "").bindingTurn "codex" conversation eventId
        else none
      match recorded with
      | some turn => (.codexLastTurn, some turn)
      | none =>
        let carries := (moveCarriesConversation source.provider).any fun carriesMove =>
          source.provider != "cursor" && (workspace == .shared || carriesMove)
        if selection.isLatest && carries then (.resumeFork, none) else (.none, none)

/-! ## The transaction -/

/-- `persist_copied_event`: the payload names the event it was copied from. -/
def copiedPayload (event : EventRow) : Json :=
  match event.payload with
  | .object fields =>
    if (Json.object fields).get "_argmaxOriginalEventId" |>.isSome then .object fields
    else .object (Json.insertField "_argmaxOriginalEventId" (.string event.id) fields)
  | payload => payload

/-- Copy rows into another session, under the ids that are drawn. -/
def copyEvents (sessionId : String) (draw : String → String) :
    EventTable → List EventRow → Option EventTable
  | events, [] => some events
  | events, event :: rest =>
    (persistTimelineEvent events (draw event.id) sessionId event.type event.message
      (copiedPayload event)).bind fun events => copyEvents sessionId draw events rest

def listAllSessionEvents (events : EventTable) (sessionId : String) : List EventRow :=
  (events.rows.filter fun event => event.sessionId == sessionId).mergeSort
    fun a b => decide (a.rowid ≤ b.rowid)

/-- What a fork draws and is asked for. -/
structure ForkInput where
  workspace : ForkWorkspaceMode
  sessionId : String
  forkId : String
  workspacePath : String
  draw : String → String
  now : String

/-- The session of the fork. Only a fork of the latest state carries the id of the source's
conversation. -/
def forkedSession (source : Session) (mode : NativeMode) (configIdentity : String → String)
    (input : ForkInput) : Session :=
  let session : Session :=
    { id := input.sessionId
      provider := source.provider
      state := "complete"
      providerConversationId := none
      resumeFork := false
      bindings := .empty
      turns := .empty
      nextBindingId := 0
      workspacePath := input.workspacePath }
  match source.providerConversationId with
  | some conversationId =>
    if mode = .resumeFork then
      (session.updateConversationId configIdentity conversationId input.now).setResumeFork input.now
    else session
  | none => session

/-- The transaction of `persist_fork`. It fails on an id that is taken. -/
def persistFork (events : EventTable) (source : Session) (selection : ForkSelection)
    (configIdentity : String → String) (input : ForkInput) :
    Option (EventTable × Session × SessionFork) :=
  let (mode, turn) := nativePlan events source selection input.workspace
  let session := forkedSession source mode configIdentity input
  if input.sessionId == source.id ||
      events.rows.any fun event => event.sessionId == input.sessionId then none
  else
    (copyEvents session.id input.draw events
      ((listAllSessionEvents events source.id).takeWhile fun event =>
        event.rowid ≤ selection.lastRowid)).map fun copied =>
      (copied, session,
        { id := input.forkId
          sourceSessionId := some source.id
          childSessionId := session.id
          boundaryEventId := selection.boundaryEventId
          childBaseEventId := (newestVisibleEvent copied session.id).map (·.2)
          sourceLastEventId := selection.lastEventId
          nativeMode := mode
          nativeProvider := if mode ≠ .none then some source.provider else none
          nativeConversationId :=
            if mode = .codexLastTurn then source.providerConversationId else none
          nativeTurnId := turn })

end Argmax.Workspaces.Fork
