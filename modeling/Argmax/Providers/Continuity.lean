import Argmax.Lib.Transition
import Argmax.Persistence.Continuity

/-!
# Native provider continuity

`providers/continuity.rs` and the sends of `providers/session_service.rs` that use it. A
follow-up resumes the conversation the session holds with its provider. A return to a provider
rejoins the conversation that was parked there and retells what the provider missed. Whatever
it is told counts as told once the provider shows output.

The model is one session without forks. What a provider's conversation holds is not known to
the program. It is kept beside the state, and a launch is taken to be admitted when it shows
output. A provider that continues a conversation under a new id keeps its history.
-/

namespace Argmax.Providers.Continuity

open Argmax.Lib Argmax.Persistence Argmax.Persistence.Continuity

/-! ## Launch decisions -/

structure LaunchPlan where
  resumeConversationId : Option String
  sinceEventId : Option String
  freshNativeId : Option String
  needsFallbackPrompt : Bool

def restoreParkedBinding (db : SessionTables) (provider now : String) : SessionTables :=
  match db.findParked provider with
  | none => db
  | some binding =>
    let usable := binding.workingDir == db.workspacePath &&
      (binding.configIdentity == "" || binding.configIdentity == db.configIdentity provider)
    match binding.deliveredThroughEventId.filter fun id =>
        usable && (eventRowid db.events id).isSome with
    | none => db.invalidateBinding provider binding.conversationId "incompatible" now
    | some boundary =>
      (db.updateSessionProviderConversationId binding.conversationId now).setPendingSince provider
        binding.conversationId boundary now

def owedSince (db : SessionTables) (provider : String) : Option String :=
  db.providerConversationId.bind fun conversationId =>
    (db.findBinding provider conversationId).bind (·.pendingSinceEventId)

/-- `plan_launch` of a session that is no fork. `freshId` is the uuid it draws. -/
def planLaunch (db : SessionTables) (provider : String) (switchedProvider : Bool)
    (freshId now : String) : SessionTables × LaunchPlan :=
  let db := if switchedProvider then restoreParkedBinding db provider now else db
  let since := owedSince db provider
  (db,
    { resumeConversationId := db.providerConversationId
      sinceEventId := since
      freshNativeId :=
        if db.providerConversationId.isNone && provider == "claude" then some freshId else none
      needsFallbackPrompt := since.isSome })

def noteProviderOutput (db : SessionTables) (eventTypes : List String) : SessionTables :=
  if eventTypes.any isOutput then db.clearPendingSince else db

def recordResumeRejected (db : SessionTables) (rejectedConversationId now : String) : SessionTables :=
  (db.invalidateBinding db.provider rejectedConversationId "resume-rejected" now).forgetActivePointer

def latestTurnStarter (db : SessionTables) : Option EventRow :=
  newest db.events fun event =>
    event.sessionId == db.sessionId && event.type == "user.message" &&
      jsonExtract event.payload ["delivery"] != some (.string "steer")

/-- `observe_provider_line`, of a line that names a turn. -/
def observeProviderLine (db : SessionTables) (threadId turnId : String) : SessionTables :=
  if db.provider ≠ "codex" then db
  else
    match latestTurnStarter db with
    | none => db
    | some prompt => db.recordBindingTurn "codex" threadId prompt.id turnId

/-! ## Prompts -/

/-- A visible message of the session. -/
def visible (db : SessionTables) (event : EventRow) : Bool :=
  eligible db.events db.sessionId 0 maxRowid event

/-- `compose_follow_up_prompt_since`: the rows the prompt is made from, before its caps. -/
def promptRows (db : SessionTables) (nativeResume : Bool) (sinceEventId : Option String) :
    Option (List EventRow) :=
  if nativeResume then
    match sinceEventId with
    | none => some []
    | some since =>
      (eventRowid db.events since).map fun rowid =>
        eligibleNewestFirst db.events db.sessionId rowid maxRowid
  else some (eligibleNewestFirst db.events db.sessionId 0 maxRowid)

/-- An event that is to be stored. -/
structure NewEvent where
  id : String
  type : String
  message : String
  payload : Json

/-- `persist_timeline_event`. -/
def persist (db : SessionTables) (event : NewEvent) : Option (EventRow × SessionTables) :=
  (persistTimelineEvent db.events event.id db.sessionId event.type event.message
    event.payload).map fun events =>
      (⟨nextRowid db.events, event.id, db.sessionId, event.type, event.message, event.payload⟩,
        { db with events := events })

/-! ## Runs -/

structure Launch where
  /-- The message of the person. -/
  prompt : EventRow
  resumeConversationId : Option String
  sinceEventId : Option String
  /-- The rows the prompt retells. -/
  retold : List EventRow
  /-- `fresh_fallback_prompt`: the rows the prompt of the fresh retry retells. -/
  freshFallback : Option (List EventRow)
  /-- What the resumed conversation held. The program does not know this nor what follows. -/
  held : List EventRow
  /-- The last conversation id the provider reported. -/
  reported : Option String
  /-- The provider showed output. -/
  admitted : Bool
  /-- What the provider showed. -/
  shown : List EventRow

namespace Launch

/-- The conversation that runs. -/
def conversation (launch : Launch) : Option String :=
  launch.reported.or launch.resumeConversationId

/-- What the conversation that runs holds. -/
def history (launch : Launch) : List EventRow :=
  launch.held ++ if launch.admitted then launch.retold ++ launch.prompt :: launch.shown else []

end Launch

structure State where
  db : SessionTables
  launch : Option Launch
  /-- What the conversations hold. The program does not keep this nor what follows. -/
  memory : List ((String × String) × EventRow)
  /-- The conversations there were. -/
  conversations : List (String × String)
  /-- The errors that were stored when a provider that had answered went away. -/
  lateErrors : List EventRow

def State.start (sessionId provider workspacePath : String) (configIdentity : String → String) :
    State :=
  { db :=
      { sessionId := sessionId
        events := .empty
        provider := provider
        providerConversationId := none
        bindings := .empty
        turns := .empty
        nextBindingId := 0
        workspacePath := workspacePath
        configIdentity := configIdentity }
    launch := none
    memory := []
    conversations := []
    lateErrors := [] }

/-- The conversation that runs holds what its launch told it. -/
def State.learn (s : State) (launch : Launch) : State :=
  { s with
    launch := some launch
    memory := match launch.conversation with
      | none => s.memory
      | some id => (launch.history.map fun event => ((s.db.provider, id), event)) ++ s.memory }

/-- A follow-up, with the ids and times it draws. -/
structure SendInput where
  provider : String
  message : String
  payload : Json
  /-- `agent_references` is not empty. -/
  references : Bool
  userEventId : String
  switchEventId : String
  freshId : String
  now : String

/-- The switch of a send to another provider. -/
def switchProvider (db : SessionTables) (input : SendInput) : Option SessionTables :=
  (persist (db.updateSessionProvider input.provider input.now)
    ⟨input.switchEventId, "session.provider-changed", "Switched provider to " ++ input.provider ++ ".",
      .null⟩).map (·.2)

/-- `send_input`, of a session that is idle. A session that runs queues the message. -/
def send (s : State) (input : SendInput) : State :=
  if s.launch.isSome then s
  else
    let switched := input.provider != s.db.provider
    match if switched then switchProvider s.db input else some s.db with
    | none => s
    | some db =>
      let (db, plan) := planLaunch db input.provider switched input.freshId input.now
      match promptRows db plan.resumeConversationId.isSome plan.sinceEventId,
          persist db ⟨input.userEventId, "user.message", input.message, input.payload⟩ with
      | some retold, some (prompt, stored) =>
        { s with
          db := stored
          launch := some
            { prompt := prompt
              resumeConversationId := plan.resumeConversationId
              sinceEventId := plan.sinceEventId
              retold := retold
              freshFallback :=
                if plan.needsFallbackPrompt && !input.references then promptRows db false none
                else none
              held := (s.memory.filter fun entry =>
                some entry.1 = plan.resumeConversationId.map fun id => (input.provider, id)).map
                  (·.2)
              reported := none
              admitted := false
              shown := [] } }
      | _, _ => { s with db := db }

/-- Store the events of a provider. -/
def persistAll (db : SessionTables) : List NewEvent → Option (List EventRow × SessionTables)
  | [] => some ([], db)
  | event :: events => do
    let (row, db) ← persist db event
    let (rows, db) ← persistAll db events
    pure (row :: rows, db)

/-- A batch of output. Only a batch that is stored as it arrives is noted. -/
def output (s : State) (events : List NewEvent) (noted : Bool) : State :=
  match s.launch, persistAll s.db events with
  | some launch, some (rows, db) =>
    let types := events.map (·.type)
    let db := if noted then noteProviderOutput db types else db
    { s with db := db }.learn
      { launch with
        admitted := launch.admitted || types.any isOutput
        shown := launch.shown ++ rows }
  | _, _ => s

/-- The provider reports the id of its conversation. -/
def report (s : State) (conversationId now : String) : State :=
  match s.launch with
  | none => s
  | some launch =>
    { s with
      db := s.db.updateSessionProviderConversationId conversationId now
      conversations := (s.db.provider, conversationId) :: s.conversations }.learn
        { launch with reported := some conversationId }

/-- The provider refuses the resume, and the launch runs once more as a fresh one. -/
def reject (s : State) (now : String) : State :=
  match s.launch with
  | none => s
  | some launch =>
    match launch.resumeConversationId, launch.freshFallback with
    | some rejected, some fallback =>
      { s with
        db := recordResumeRejected s.db rejected now
        launch := some
          { launch with
            resumeConversationId := none
            sinceEventId := none
            retold := fallback
            freshFallback := none
            held := [] } }
    | _, _ => s

/-- How a launch ends. -/
inductive Ending where
  | completed
  | cancelled
  | failed (message : String)

def Ending.event (ending : Ending) (eventId : String) : NewEvent :=
  match ending with
  | .completed => ⟨eventId, "session.completed", "", .null⟩
  | .cancelled => ⟨eventId, "session.cancelled", "", .null⟩
  | .failed message => ⟨eventId, "error", message, .null⟩

/-- The launch is over. -/
def finish (s : State) (ending : Ending) (eventId : String) : State :=
  match s.launch, persist s.db (ending.event eventId) with
  | some launch, some (row, db) =>
    { s with
      db := db
      launch := none
      lateErrors :=
        if launch.admitted && row.type == "error" then row :: s.lateErrors else s.lateErrors }
  | _, _ => s

/-- A lifecycle marker. -/
def mark (s : State) (event : NewEvent) : State :=
  match persist s.db event with
  | some (_, db) => { s with db := db }
  | none => s

/-- `/clear`. -/
def clear (s : State) (eventId now : String) : State :=
  match persist s.db ⟨eventId, "session.cleared", "", .null⟩ with
  | some (_, db) =>
    { s with
      db := { db with
        providerConversationId := none
        bindings := db.bindings.update
          (fun binding => if binding.state ≠ .invalid then
            { binding with state := .invalid, invalidReason := some "cleared", updatedAt := now }
            else binding)
          fun binding => by split <;> rfl } }
  | none => s

inductive Act where
  | send (input : SendInput)
  | report (conversationId now : String)
  | output (events : List NewEvent) (noted : Bool)
  | reject (now : String)
  | finish (ending : Ending) (eventId : String)
  | mark (event : NewEvent)
  | turnStarted (threadId turnId : String)
  | clear (eventId now : String)
  /-- The checkout or the environment changes. -/
  | reconfigure (workspacePath : String) (configIdentity : String → String)

/-- A conversation that was not there has an id of its own. -/
def State.reportable (s : State) (conversationId : String) : Bool :=
  s.launch.any fun launch => launch.conversation == some conversationId ||
    !s.conversations.contains (s.db.provider, conversationId)

def step (s : State) : Act → State
  | .send input => send s input
  | .report conversationId now => if s.reportable conversationId then report s conversationId now else s
  | .output events noted =>
    -- Live output has no messages of the person.
    if events.any fun event => event.type == "user.message" then s else output s events noted
  | .reject now =>
    -- A refusal comes before everything else.
    if s.launch.any fun launch => launch.reported.isNone && launch.shown.isEmpty then reject s now
    else s
  | .finish ending eventId => finish s ending eventId
  | .mark event => if "session.".toList.isPrefixOf event.type.toList then mark s event else s
  | .turnStarted threadId turnId => { s with db := observeProviderLine s.db threadId turnId }
  | .clear eventId now => if s.launch.isNone then clear s eventId now else s
  | .reconfigure workspacePath configIdentity =>
    { s with db := { s.db with workspacePath := workspacePath, configIdentity := configIdentity } }

end Argmax.Providers.Continuity
