import Argmax.Persistence.Events

/-!
# Names for native agents

`persistence/events.rs`: an event about a native agent is stored with the name of the agent.
An agent that started before keeps the name it has, another one takes a name that no agent
of the conversation has yet. Names are looked up among the events behind the last clear or
change of provider, so they start over there; and when every name is taken, a new agent
gets one that another agent has.

The printer of JSON values is a parameter.
-/

namespace Argmax.Persistence.AgentCodenames

open Argmax.Lib Argmax.Lib.Text

/-! ## Rows -/

/-- What the model takes from other libraries: `serde_json::to_string`. -/
structure Library where
  toString : Json → String

/-- The columns of `sessions` that are read. -/
structure SessionRow where
  provider : String
  providerConversationId : Option String
  resumeFork : Bool

structure State where
  events : EventTable
  sessions : String → Option SessionRow

structure PersistTimelineEventInput where
  id : String
  sessionId : String
  type : String
  message : String
  payload : Json

variable (lib : Library)

/-- A value that SQL sees as text: a string, or the text of an array or an object. -/
def asText : Json → Option String
  | .string s => some s
  | .array items => some (lib.toString (.array items))
  | .object fields => some (lib.toString (.object fields))
  | _ => none

/-- A field of a stored payload, where it is text. -/
def textAt (payload : Json) (field : String) : Option String :=
  (jsonExtract payload [field]).bind (asText lib)

/-- A column that may be `NULL`, read as text; `none` is the error for another value. -/
def optionalTextAt (payload : Json) (field : String) : Option (Option String) :=
  match jsonExtract payload [field] with
  | none => some none
  | some value => (asText lib value).map some

/-- `AGENT_TURN_BOUNDARY`, zero without one. -/
def agentTurnBoundary (events : EventTable) (sessionId : String) : ℕ :=
  (events.rows.filter fun event => event.sessionId == sessionId &&
    ["session.cleared", "session.provider-changed"].contains event.type).foldr
      (fun event newest => max event.rowid newest) 0

/-- The row is a start in a session's current segment, under this parent conversation. -/
def isStart (events : EventTable) (sessionId parentConversationId : String) (event : EventRow) :
    Bool :=
  event.sessionId == sessionId && event.type == "agent.started" &&
    textAt lib event.payload "providerParentConversationId" == some parentConversationId &&
    decide (agentTurnBoundary events sessionId < event.rowid)

/-! ## Names -/

/-- The catalog of `agentCodenames.json`. -/
def agentCodenames : List String :=
  ["Turing", "Einstein", "Curie", "Newton", "Noether", "Lovelace", "Feynman", "Euler", "Gauss",
   "Hopper", "Shannon", "Dirac", "Bohr", "Maxwell", "Faraday", "Planck", "Ramanujan", "Hilbert",
   "Dijkstra", "Knuth", "Galileo", "Kepler", "Fermi", "Heisenberg", "Schrödinger", "Riemann",
   "Cantor", "Meitner", "Hamming", "Neumann", "Babbage", "Boole", "Gödel", "Church", "Kleene",
   "Lamport", "Liskov", "Hamilton", "Erdős", "Galois", "Abel", "Fourier", "Laplace", "Lagrange",
   "Bayes", "Fermat", "Pascal", "Leibniz", "Poincaré", "Kolmogorov", "Markov", "Pauli",
   "Rutherford", "Tesla", "Hertz", "Kelvin", "Joule", "Hubble", "Franklin", "Hypatia",
   "Archimedes", "Euclid", "Pythagoras", "Fibonacci", "Khwarizmi", "Descartes", "Bernoulli",
   "Cauchy", "Banach", "Conway", "Germain", "Kovalevskaya", "Mirzakhani", "Mandelbrot",
   "Boltzmann", "Lorentz", "Hawking", "Copernicus", "Ampère", "Ohm", "Ångström", "Bose",
   "Chandrasekhar", "Wu", "Rubin", "Landau", "Higgs", "McCarthy", "Backus", "Ritchie", "Thompson",
   "Zuse", "Wirth", "Hoare", "Karp", "Engelbart", "Cerf", "Rivest", "Codd", "Huffman"]

def agentCodenameHeadlineCount : ℕ := 10

/-- `encode_utf16`. -/
def encodeUtf16 (text : String) : List UInt32 :=
  text.toList.flatMap fun c =>
    if c.toNat < 0x10000 then [c.val]
    else
      let rest := c.val - 0x10000
      [0xD800 + rest / 0x400, 0xDC00 + rest % 0x400]

/-- The hash of a tool use id. -/
def codenameHash (rootToolUseId : String) : UInt32 :=
  (encodeUtf16 rootToolUseId).foldl (fun hash unit => (hash ^^^ unit) * 0x01000193) 0x811c9dc5

/-- The names that are taken in the conversation. -/
def takenCodenames (events : EventTable) (sessionId parentConversationId : String) :
    Option (List String) :=
  (((events.rows.filter (isStart lib events sessionId parentConversationId)).filterMap fun event =>
    jsonExtract event.payload ["agentCodename"]).mapM (asText lib)).map List.dedup

/-- The first name from a place on that is not taken, around the catalog. -/
def probeCodename (codenames taken : List String) (start : ℕ) : Option String :=
  ((List.range codenames.length).filterMap fun step =>
    codenames[(start + step) % codenames.length]?).find? fun name => !taken.contains name

/-- The name for a new agent, by the names that are taken. -/
def chooseCodename (codenames taken : List String) (rootToolUseId : String) : Option String :=
  if codenames.length ≤ taken.length then
    codenames[(codenameHash rootToolUseId).toNat % codenames.length]?
  else
    let modulus :=
      if taken.isEmpty then min agentCodenameHeadlineCount codenames.length else codenames.length
    probeCodename codenames taken ((codenameHash rootToolUseId).toNat % modulus)

/-- `assign_native_agent_codename`; the outer `none` is an error of the store. -/
def assignNativeAgentCodename (events : EventTable)
    (sessionId parentConversationId rootToolUseId : String) : Option (Option String) :=
  if agentCodenames.isEmpty then some none
  else
    (takenCodenames lib events sessionId parentConversationId).map fun taken =>
      chooseCodename agentCodenames taken rootToolUseId

/-! ## Payloads -/

def currentNativeAgentParentConversationId (state : State) (sessionId : String) : Option String :=
  (state.sessions sessionId).bind fun session =>
    if session.resumeFork ||
        !(["claude", "codex", "cursor", "opencode"].contains session.provider) then none
    else session.providerConversationId.filter fun id => !id.isEmpty

/-- The starts of a child. -/
def childStarts (events : EventTable) (sessionId parentConversationId childId : String) :
    List EventRow :=
  events.rows.filter fun event => isStart lib events sessionId parentConversationId event &&
    textAt lib event.payload "providerChildSessionId" == some childId

/-- The first start of a child. -/
def firstStart (events : EventTable) (sessionId parentConversationId childId : String) :
    Option EventRow :=
  ((childStarts lib events sessionId parentConversationId childId).mergeSort
    fun a b => decide (a.rowid ≤ b.rowid)).head?

/-- The run and the name of a child that started before; the outer `none` is an error. -/
def existingIdentity (events : EventTable) (sessionId parentConversationId childId : String) :
    Option (Option (String × Option String)) :=
  match firstStart lib events sessionId parentConversationId childId with
  | none => some none
  | some event =>
    match textAt lib event.payload "agentRunId", optionalTextAt lib event.payload "agentCodename" with
    | some root, some codename => some (some (root, codename))
    | _, _ => none

/-- The fields that name an agent. -/
def withIdentity (fields : List (String × Json)) (rootToolUseId : String)
    (codename : Option String) : Json :=
  let enriched :=
    if rootToolUseId.isEmpty then fields
    else Json.insertField "agentRootToolUseId" (.string rootToolUseId) fields
  match codename with
  | some codename => .object (Json.insertField "agentCodename" (.string codename) enriched)
  | none => .object enriched

/-- The newest start that a child's row belongs to. -/
def invocationStart (events : EventTable)
    (sessionId invocationId rootToolUseId parentConversationId : String) : Option EventRow :=
  ((events.rows.filter fun event => isStart lib events sessionId parentConversationId event &&
    textAt lib event.payload "providerInvocationId" == some invocationId &&
    textAt lib event.payload "agentRootToolUseId" == some rootToolUseId).mergeSort
      fun a b => decide (b.rowid ≤ a.rowid)).head?

def hasExplicitNativeIdentity (payload : Json) (parentConversationId : String) : Bool :=
  (payload.get "providerParentConversationId").bind Json.asStr == some parentConversationId &&
    ["providerChildSessionId", "agentRunId", "agentRootToolUseId"].all fun key =>
      ((payload.get key).bind Json.asStr).any fun value => !value.isEmpty

def enrichNativeAgentChildRow (state : State) (input : PersistTimelineEventInput) : Option Json :=
  match input.payload with
  | .object fields =>
    match (input.payload.get "parent_tool_use_id").bind Json.asStr,
        (input.payload.get "providerInvocationId").bind Json.asStr,
        currentNativeAgentParentConversationId state input.sessionId with
    | some rootToolUseId, some invocationId, some parentConversationId =>
      if hasExplicitNativeIdentity input.payload parentConversationId then some input.payload
      else
        match invocationStart lib state.events input.sessionId invocationId rootToolUseId
            parentConversationId with
        | none => some input.payload
        | some start => do
          let childId ← textAt lib start.payload "providerChildSessionId"
          let parentId ← textAt lib start.payload "providerParentConversationId"
          let runId ← textAt lib start.payload "agentRunId"
          let codename ← optionalTextAt lib start.payload "agentCodename"
          let rootId ← textAt lib start.payload "agentRootToolUseId"
          let enriched := Json.insertField "providerChildSessionId" (.string childId) fields
          let enriched := Json.insertField "providerParentConversationId" (.string parentId) enriched
          let enriched := Json.insertField "agentRunId" (.string runId) enriched
          let enriched := Json.insertField "agentRootToolUseId" (.string rootId) enriched
          match codename with
          | some codename =>
            some (.object (Json.insertField "agentCodename" (.string codename) enriched))
          | none => some (.object enriched)
    | _, _, _ => some input.payload
  | _ => some input.payload

/-- An event about the life of an agent. -/
def isAgentEvent (type : String) : Bool := type == "agent.started" || type == "agent.completed"

/-- The name of an agent: the one that it has, or a new one. -/
def agentCodename (events : EventTable) (sessionId parentConversationId rootToolUseId : String)
    (known : Option String) : Option (Option String) :=
  match known with
  | some codename => some (some codename)
  | none => assignNativeAgentCodename lib events sessionId parentConversationId rootToolUseId

/-- The payload of an event about an agent of the current conversation. -/
def enrichAgent (events : EventTable) (sessionId parentConversationId childId runId : String)
    (fields : List (String × Json)) : Option Json := do
  let identity ← existingIdentity lib events sessionId parentConversationId childId
  let rootToolUseId := (identity.map (·.1)).getD runId
  let codename ← agentCodename lib events sessionId parentConversationId rootToolUseId
    (identity.bind (·.2))
  some (withIdentity fields rootToolUseId codename)

/-- `enrich_native_agent_event`; `none` is an error of the store. -/
def enrichNativeAgentEvent (state : State) (input : PersistTimelineEventInput) : Option Json :=
  if !isAgentEvent input.type then enrichNativeAgentChildRow lib state input
  else
    match input.payload with
    | .object fields =>
      match (input.payload.get "providerParentConversationId").bind Json.asStr,
          (input.payload.get "providerChildSessionId").bind Json.asStr with
      | some parentConversationId, some childId =>
        if currentNativeAgentParentConversationId state input.sessionId ≠
            some parentConversationId then some input.payload
        else
          enrichAgent lib state.events input.sessionId parentConversationId childId
            (((input.payload.get "agentRunId").bind Json.asStr).getD "") fields
      | _, _ => some input.payload
    | _ => some input.payload

/-- `persist_timeline_event`, `persist_timeline_event_if_absent`: an error, or an id that is
taken, leaves the events as they were. -/
def persistEvent (state : State) (input : PersistTimelineEventInput) : State :=
  match enrichNativeAgentEvent lib state input with
  | none => state
  | some payload =>
    { state with
      events := (persistTimelineEvent state.events input.id input.sessionId input.type input.message
        payload).getD state.events }

inductive Action
  | persist (input : PersistTimelineEventInput)
  /-- Any other writer of a session's row. -/
  | setSession (sessionId : String) (session : Option SessionRow)

/-- One statement after another. -/
def step (state : State) : Action → State
  | .persist input => persistEvent lib state input
  | .setSession sessionId session =>
    { state with sessions := Function.update state.sessions sessionId session }

end Argmax.Persistence.AgentCodenames
