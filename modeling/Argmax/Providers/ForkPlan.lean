import Argmax.Providers.FollowUpPrompt
import Argmax.Workspaces.Fork

/-!
# The first turn of a fork

`providers/continuity.rs` for a session that is a fork, with the sends of
`providers/session_service.rs` that use it. The first message of a fork decides whether the
provider forks the source's conversation, or the fork starts afresh from the copied events.

Beside the fork go its source, which takes turns or is deleted, and the other chats. Prompts
are the composed texts, before native agent references and multitask results are put around
them.
-/

namespace Argmax.Providers.ForkPlan

open Argmax.Lib Argmax.Persistence Argmax.Persistence.Continuity Argmax.Providers.Continuity
  Argmax.Providers.FollowUp Argmax.Workspaces.Fork

/-! ## The state -/

structure LaunchPlan where
  resumeConversationId : Option String
  resumeFork : Bool
  sinceEventId : Option String
  freshNativeId : Option String
  forkLastTurnId : Option String
  needsFallbackPrompt : Bool

/-- `ProviderLaunchInput`, with the fields of its `continuity`. -/
structure Launch where
  provider : String
  prompt : String
  resumeConversationId : Option String
  resumeFork : Bool
  freshNativeId : Option String
  forkLastTurnId : Option String
  freshFallbackPrompt : Option String

/-- What a fork was made from. The program does not keep this. -/
structure ForkPoint where
  /-- All events when the fork was made. -/
  events : EventTable
  source : Session
  selection : ForkSelection
  /-- The events of the fork when it was made. -/
  copies : List EventRow

structure State where
  events : EventTable
  source : Option Session
  child : Session
  fork : SessionFork
  configIdentity : String → String
  launch : Option Launch
  point : ForkPoint
  /-- The conversations the provider has reported to the fork. The program does not keep
  this. -/
  own : List String

namespace State

variable (s : State)

/-- The tables of the fork. -/
def tables : SessionTables := s.child.tables s.events s.configIdentity

/-- The tables of the fork after a statement that adds no events. -/
def withTables (db : SessionTables) : State := { s with child := s.child.withTables db }

end State

/-! ## The first turn -/

/-- `child_untouched`: nothing of its own after the copied events. -/
def childUntouched (s : State) : Bool :=
  let floor :=
    match s.fork.childBaseEventId with
    | some eventId => (eventRowid s.events eventId).getD 0
    | none => 0
  !s.events.rows.any fun event =>
    event.sessionId == s.fork.childSessionId && event.type == "user.message" &&
      decide (floor < event.rowid)

/-- `source_is_active`: a session that is gone counts as active. -/
def sourceIsActive (s : State) : Bool :=
  match s.source with
  | some source => activeStates.contains source.state
  | none => true

/-- `source_at_boundary`: the source has taken no turn past the fork boundary. -/
def sourceAtBoundary (s : State) : Bool :=
  match s.fork.sourceSessionId with
  | none => false
  | some sourceSessionId =>
    match s.fork.sourceLastEventId with
    | none => true
    | some last =>
      match eventRowid s.events last with
      | none => false
      | some floor =>
        !s.events.rows.any fun event =>
          event.sessionId == sourceSessionId && event.type == "user.message" &&
            decide (floor < event.rowid)

def dropNativePlan (s : State) (plan : LaunchPlan) : State × LaunchPlan :=
  if plan.resumeFork then
    ({ s with
        child := { s.child with providerConversationId := none, resumeFork := false }
        fork := s.fork.clearForkNativePlan },
      { plan with resumeConversationId := none, resumeFork := false })
  else ({ s with fork := s.fork.clearForkNativePlan }, plan)

/-- The binding under which the source holds the conversation is still good. -/
def bindingUsable (s : State) (threadId : String) : Bool :=
  match s.source with
  | some source =>
    (source.bindings.find? ("codex", threadId)).any fun binding =>
      binding.state != .invalid &&
        (binding.configIdentity == "" || binding.configIdentity == s.configIdentity "codex")
  | none => false

def planForkFirstTurn (s : State) (provider : String) (plan : LaunchPlan) : State × LaunchPlan :=
  if s.fork.nativeMode = .none || !childUntouched s then (s, plan)
  else
    match s.fork.sourceSessionId with
    | none => dropNativePlan s plan
    | some _ =>
      let sameProvider := s.fork.nativeProvider == some provider
      let sourceIdle := !sourceIsActive s
      match s.fork.nativeMode with
      | .resumeFork =>
        if plan.resumeFork && !(sameProvider && sourceIdle && sourceAtBoundary s) then
          dropNativePlan s plan
        else if plan.resumeFork then (s, { plan with needsFallbackPrompt := true })
        else (s, plan)
      | .codexLastTurn =>
        match s.fork.nativeConversationId, s.fork.nativeTurnId with
        | some threadId, some turnId =>
          if sameProvider && sourceIdle && s.child.providerConversationId.isNone &&
              bindingUsable s threadId then
            (s,
              { plan with
                resumeConversationId := some threadId
                resumeFork := true
                forkLastTurnId := some turnId
                needsFallbackPrompt := true })
          else (s, plan)
        | _, _ => (s, plan)
      | .none => (s, plan)

/-- `restore_parked_binding`, right after a switch: the pointer is set if a conversation is
rejoined. -/
def restoreParked (s : State) (provider now : String) : State :=
  let db := restoreParkedBinding s.tables provider now
  let s := s.withTables db
  if db.providerConversationId.isSome then
    { s with child := { s.child with resumeFork := false } }
  else s

def planLaunch (s : State) (provider : String) (switchedProvider : Bool) (freshId now : String) :
    State × LaunchPlan :=
  let s := if switchedProvider then restoreParked s provider now else s
  let since := owedSince s.tables provider
  let plan : LaunchPlan :=
    { resumeConversationId := s.child.providerConversationId
      resumeFork := s.child.providerConversationId.isSome && s.child.resumeFork
      sinceEventId := since
      freshNativeId := none
      forkLastTurnId := none
      needsFallbackPrompt := since.isSome }
  let (s, plan) := planForkFirstTurn s provider plan
  (s,
    { plan with
      freshNativeId :=
        if plan.resumeConversationId.isNone && provider == "claude" then some freshId else none })

/-- `fresh_retry_input`. `freshId` is the uuid it draws. -/
def freshRetryInput (launch : Launch) (freshId : String) : Option Launch :=
  match launch.freshFallbackPrompt, launch.resumeConversationId with
  | some fallback, some _ =>
    some
      { launch with
        prompt := fallback
        resumeConversationId := none
        resumeFork := false
        freshNativeId := if launch.provider = "claude" then some freshId else none
        forkLastTurnId := none
        freshFallbackPrompt := none }
  | _, _ => none

/-! ## Sends -/

/-- A follow-up, with the ids and times it draws. -/
structure SendInput where
  /-- The provider that is asked for. -/
  provider : Option String
  message : String
  payload : Json
  /-- `agent_references` is not empty. -/
  references : Bool
  /-- What the raw output of a Cursor session tells of its conversation. -/
  inferred : Option String
  userEventId : String
  switchEventId : String
  freshId : String
  now : String

/-- Store an event of a session. -/
def persistEvent (s : State) (sessionId : String) (event : NewEvent) : Option State :=
  (persistTimelineEvent s.events event.id sessionId event.type event.message
    event.payload).map fun events => { s with events := events }

/-- The provider asked for, if it is another one. -/
def SendInput.switched (s : State) (input : SendInput) : Option String :=
  input.provider.filter fun requested => requested != s.child.provider

/-- `update_session_provider`. -/
def updateProvider (s : State) (provider now : String) : State :=
  s.withTables (s.tables.updateSessionProvider provider now)

/-- A conversation of the fork's own is known, and spends the fork flag. -/
def adopt (s : State) (conversationId now : String) : State :=
  { s with
    child := s.child.updateConversationId s.configIdentity conversationId now
    own := conversationId :: s.own }

/-- `infer_cursor_provider_conversation_id`, where it may be asked. -/
def inferCursor (s : State) (input : SendInput) : State :=
  if (input.switched s).isNone && s.child.provider == "cursor" &&
      s.child.providerConversationId.isNone &&
      !s.child.bindings.rows.any fun binding => binding.provider == "cursor" then
    match input.inferred with
    | some conversationId => adopt s conversationId input.now
    | none => s
  else s

/-- A send up to its plan. The first component is the state that remains where the send
fails. -/
def prepare (s : State) (input : SendInput) : State × Option LaunchPlan :=
  match input.switched s with
  | some provider =>
    let s := updateProvider s provider input.now
    match persistEvent s s.child.id
        ⟨input.switchEventId, "session.provider-changed",
          "Switched provider to " ++ provider ++ ".", .null⟩ with
    | none => (s, none)
    | some s =>
      let (s, plan) := planLaunch s provider true input.freshId input.now
      (s, some plan)
  | none =>
    let s := inferCursor s input
    let (s, plan) := planLaunch s s.child.provider false input.freshId input.now
    (s, some plan)

section Sends

-- The text SQLite gives a JSON array or object.
variable (jsonText : Json → String)

/-- The prompts of a launch: the one it starts with, and that of its retry. -/
def composePrompts (s : State) (input : SendInput) (plan : LaunchPlan) :
    ArgmaxResult (String × Option String) := do
  let prompt ← composeFollowUpPromptSince jsonText s.events s.child.id input.message
    plan.resumeConversationId.isSome plan.sinceEventId
  if plan.needsFallbackPrompt && !input.references then
    let fallback ← composeFollowUpPromptSince jsonText s.events s.child.id input.message false none
    pure (prompt, some fallback)
  else pure (prompt, none)

/-- `send_input`, of a session that is idle. A session that runs queues the message. -/
def send (s : State) (input : SendInput) : State :=
  if s.launch.isSome then s
  else
    match prepare s input with
    | (s, none) => s
    | (s, some plan) =>
      match composePrompts jsonText s input plan with
      | .error _ => s
      | .ok (prompt, fallback) =>
        match persistEvent s s.child.id
            ⟨input.userEventId, "user.message", input.message, input.payload⟩ with
        | none => s
        | some s =>
          { s with
            child := { s.child with state := "running" }
            launch := some
              { provider := s.child.provider
                prompt := prompt
                resumeConversationId := plan.resumeConversationId
                resumeFork := plan.resumeFork
                freshNativeId := plan.freshNativeId
                forkLastTurnId := plan.forkLastTurnId
                freshFallbackPrompt := fallback } }

end Sends

/-! ## Runs -/

/-- The provider reports the id of its conversation. -/
def report (s : State) (conversationId now : String) : State :=
  if s.launch.isSome then adopt s conversationId now else s

/-- A batch of output of the fork. -/
def output (s : State) (events : List NewEvent) : State :=
  match s.launch, persistAll s.tables events with
  | some _, some (_, db) =>
    let types := events.map fun event => event.type
    { s with events := db.events }.withTables (noteProviderOutput db types)
  | _, _ => s

/-- The provider refuses the resume before it admits the turn: `record_resume_rejected`, and
the launch runs once more, or ends. -/
def reject (s : State) (freshId now : String) : State :=
  match s.launch with
  | none => s
  | some launch =>
    match freshRetryInput launch freshId, launch.resumeConversationId with
    | some retry, some rejected =>
      let s := s.withTables (s.tables.invalidateBinding retry.provider rejected "resume-rejected"
        now)
      { s with
        child := { s.child with providerConversationId := none, resumeFork := false }
        fork := s.fork.clearForkNativePlan
        launch := some retry }
    | _, _ => { s with launch := none }

/-- `/clear` of the fork: the marker, and `clear_session_conversation`. -/
def clear (s : State) (eventId now : String) : State :=
  match persistEvent s s.child.id ⟨eventId, "session.cleared", "", .null⟩ with
  | none => s
  | some s =>
    let s := s.withTables (s.tables.invalidateSessionBindings "cleared" now)
    { s with
      child := { s.child with providerConversationId := none, resumeFork := false }
      fork := s.fork.clearForkNativePlan }

/-- The source chat is deleted, with its events. -/
def deleteSource (s : State) : State :=
  match s.source with
  | none => s
  | some source =>
    { s with
      events := s.events.delete fun event => event.sessionId == source.id
      source := none
      fork := { s.fork with sourceSessionId := none } }

inductive Act where
  | send (input : SendInput)
  | report (conversationId now : String)
  | output (events : List NewEvent)
  | reject (freshId now : String)
  | finish (state : String)
  | turnStarted (threadId turnId : String)
  | clear (eventId now : String)
  /-- Any other event of any chat: guidance, lifecycle markers, the turns of the source. -/
  | event (sessionId : String) (event : NewEvent)
  /-- Any other change of the source's row, bindings and turns. -/
  | sourceChanges (source : Session)
  | deleteSource
  | reconfigure (workspacePath : String) (configIdentity : String → String)

def step (jsonText : Json → String) (s : State) : Act → State
  | .send input => send jsonText s input
  | .report conversationId now => report s conversationId now
  | .output events => output s events
  | .reject freshId now => reject s freshId now
  | .finish state => { s with launch := none, child := { s.child with state := state } }
  | .turnStarted threadId turnId => s.withTables (observeProviderLine s.tables threadId turnId)
  | .clear eventId now => if s.launch.isNone then clear s eventId now else s
  | .event sessionId event => (persistEvent s sessionId event).getD s
  | .sourceChanges source =>
    { s with source := s.source.map fun old => { source with id := old.id } }
  | .deleteSource => deleteSource s
  | .reconfigure workspacePath configIdentity =>
    { s with
      child := { s.child with workspacePath := workspacePath }
      configIdentity := configIdentity }

/-- The state of a fork that has just been made. -/
def forked (events : EventTable) (source : Session) (selection : ForkSelection)
    (configIdentity : String → String) (input : ForkInput) : Option State :=
  (persistFork events source selection configIdentity input).map fun (copied, session, fork) =>
    { events := copied
      source := some source
      child := session
      fork := fork
      configIdentity := configIdentity
      launch := none
      point := ⟨events, source, selection,
        copied.rows.filter fun event => event.sessionId == session.id⟩
      own := [] }

end Argmax.Providers.ForkPlan
