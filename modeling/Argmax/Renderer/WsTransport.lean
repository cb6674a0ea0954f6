import Argmax.Lib.Transition
import Argmax.Renderer.RemoteOperations

/-!
# The WebSocket transport

`renderer/lib/wsTransport.ts`. A page sends its requests over one socket. A request waits in
`queued` until the socket is authenticated and in `inFlight` until it is answered. When the
socket closes, the actions in flight go back to the queue under the identity they were sent
with, and everything else in flight fails.

The browser reports nothing of a socket after it reported its close, and the host
authenticates a socket once and answers `REMOTE_OPERATION_PENDING` only to a request with an
identity (`remote/ws.rs`, `remote/operations.rs`). `throwing` names the request, if any,
at which `send` throws.
-/

namespace Argmax.Renderer.WsTransport

open Argmax.Lib Argmax.Renderer.RemoteOperations

def remoteConnectionLostMessage : String := "Argmax remote connection lost"

def remoteOutcomeUnknownMessage : String :=
  "The connection was lost before this action's outcome was confirmed. Check the chat or " ++
    "workspace. Retrying the same action will recover its outcome without running it twice."

def updateHostMessage : String := "Update the Argmax host before sending remote actions."

/-- Ceiling on the offline queue. -/
def maxQueuedRequests : ℕ := 64

def canFetchTranscript (channel : String) : Bool :=
  channel = "session:events-since" || channel = "session:agent-events" ||
    channel = "visualization:read" || channel = "visualization:export"

theorem mem_readChannels_of_canFetchTranscript {channel : String}
    (h : canFetchTranscript channel) : channel ∈ readChannels := by
  simp only [canFetchTranscript, Bool.or_eq_true, decide_eq_true_eq] at h
  rcases h with ((rfl | rfl) | rfl) | rfl <;> decide

/-! ## Requests -/

structure PendingRequest where
  id : ℕ
  request : Request
  operation : Option RemoteOperation
  queueTimer : Option ℕ
  retryTimer : Option ℕ
  sent : Bool
  fallbackAttempted : Bool
  deriving DecidableEq

inductive Timer where
  | expireQueued (id : ℕ)
  | retry (id : ℕ)

structure Failure where
  code : Option String
  subCode : Option String
  message : String

/-- How a promise ends. -/
inductive Settlement where
  | resolved
  | rejected (message : String)
  | failed (failure : Option Failure)

/-- A frame of type `response`. -/
structure ResponseFrame where
  id : ℕ
  /-- The frame has an `error`, which need not be an object. -/
  hasError : Bool
  failure : Option Failure
  operationSettled : Bool

namespace ResponseFrame

def pending (frame : ResponseFrame) : Bool :=
  frame.failure.any fun f => f.subCode = some "REMOTE_OPERATION_PENDING"

def tooLarge (frame : ResponseFrame) : Bool :=
  frame.failure.any fun f =>
    f.code = some "SERVICE_ERROR" && f.subCode = some "REMOTE_RESPONSE_TOO_LARGE"

def outcomeUnknown (frame : ResponseFrame) : Bool :=
  frame.failure.any fun f => f.subCode = some "REMOTE_OUTCOME_UNKNOWN"

def settlement (frame : ResponseFrame) : Settlement :=
  if frame.hasError then .failed frame.failure else .resolved

end ResponseFrame

/-- A request that went out. -/
structure Send where
  id : ℕ
  request : Request
  operation : Option RemoteOperation
  deriving DecidableEq

/-! ## The state -/

structure State where
  storage : Storage
  operationOwner : ℕ
  queued : List PendingRequest
  inFlight : Table PendingRequest.id
  /-- The socket, by the generation it was opened in. -/
  socket : Option ℕ
  generation : ℕ
  authed : Bool
  operationReplay : Bool
  nextRequestId : ℕ
  timers : List (ℕ × Timer)
  nextTimer : ℕ
  /-- The transcripts that are being fetched, with the generation they started in. -/
  fetches : List (ℕ × ℕ)
  /-- The promises that ended. The program does not keep this nor what follows. -/
  settled : List (ℕ × Settlement)
  /-- What this page sent, last first. -/
  sends : List Send
  /-- What the pages before this one sent. -/
  earlierSends : List Send
  /-- The actions the host reported the outcome of. -/
  known : List RemoteOperation
  /-- The sent actions that were not offered to a host that cannot replay them. -/
  refused : List RemoteOperation
  /-- The actions that the user gave up for new ones. -/
  givenUp : List RemoteOperation

namespace State

def setTimeout (s : State) (timer : Timer) : State :=
  { s with timers := (s.nextTimer, timer) :: s.timers, nextTimer := s.nextTimer + 1 }

def clearTimeout (s : State) (handle : Option ℕ) : State :=
  { s with timers := s.timers.filter fun t => some t.1 ≠ handle }

/-- End the promise of a request. -/
def settle (s : State) (id : ℕ) (how : Settlement) : State :=
  { s with settled := (id, how) :: s.settled }

/-- Change a request where it is. -/
def modify (s : State) (id : ℕ) (f : PendingRequest → PendingRequest)
    (hf : ∀ r, (f r).id = r.id) : State :=
  { s with
    queued := s.queued.map fun r => if r.id = id then f r else r
    inFlight := s.inFlight.update (fun r => if r.id = id then f r else r)
      fun r => by split <;> simp [hf] }

def dropInFlight (s : State) (id : ℕ) : State :=
  { s with inFlight := s.inFlight.delete fun r => r.id = id }

/-- Forget the identity of a request. -/
def settleOperation (s : State) : Option RemoteOperation → State
  | none => s
  | some operation => { s with storage := settleRemoteOperation s.storage operation }

def markUncertain (s : State) (hostInterrupted : Bool) : Option RemoteOperation → State
  | none => s
  | some operation =>
    { s with storage := markRemoteOperationUncertain s.storage operation hostInterrupted }

end State

/-! ## The queue -/

/-- Fail a request that is no longer in the queue. -/
def failQueued (s : State) (r : PendingRequest) : State :=
  let s := (s.clearTimeout r.queueTimer).clearTimeout r.retryTimer
  let s := if r.sent then s.markUncertain false r.operation else s.settleOperation r.operation
  s.settle r.id (.rejected (if r.operation.isSome && r.sent then remoteOutcomeUnknownMessage
    else remoteConnectionLostMessage))

def expireQueued (s : State) (id : ℕ) : State :=
  match (s.queued ++ s.inFlight.rows).find? fun r => r.id = id with
  | none => s
  | some r =>
    failQueued { s.dropInFlight id with queued := s.queued.filter fun r => r.id ≠ id } r

/-- The end of the loop of `flushQueue`. -/
def transmit (s : State) (r : PendingRequest) : State :=
  { s with
    inFlight := s.inFlight.put { r with sent := true }
    sends := ⟨r.id, r.request, r.operation⟩ :: s.sends }

/-- Refuse to offer an action to a host that cannot replay it. -/
def refuse (s : State) (r : PendingRequest) (operation : RemoteOperation) : State :=
  let s := if r.sent then { s with refused := operation :: s.refused }
    else s.settleOperation (some operation)
  s.settle r.id (.rejected updateHostMessage)

/-- One round of the loop of `flushQueue`, and whether the loop goes on. -/
def sendNext (throwing : Option ℕ) (s : State) (r : PendingRequest) : State × Bool :=
  let s := s.clearTimeout r.queueTimer
  let r := { r with queueTimer := none }
  match r.operation with
  | none => (transmit s r, throwing ≠ some r.id)
  | some operation =>
    if !s.operationReplay then (refuse s r operation, true)
    else
      match markRemoteOperationSent s.storage operation with
      | .error message => (s.settle r.id (.rejected message), true)
      | .ok storage => (transmit { s with storage := storage } r, throwing ≠ some r.id)

def flushLoop (throwing : Option ℕ) : List PendingRequest → State → State
  | [], s => s
  | r :: rest, s =>
    let next := sendNext throwing { s with queued := rest } r
    if next.2 then flushLoop throwing rest next.1 else next.1

def flushQueue (throwing : Option ℕ) (s : State) : State :=
  if s.authed && s.socket.isSome then flushLoop throwing s.queued s else s

/-- The loop of `invoke` over a queue that is too long. -/
def dropOldest : List PendingRequest → State → State
  | [], s => s
  | r :: rest, s =>
    if rest.length + 1 > maxQueuedRequests then
      dropOldest rest (failQueued { s with queued := rest } r)
    else s

/-! ## Answers and closes -/

def settleResponse (s : State) (frame : ResponseFrame) : State :=
  match s.inFlight.find? frame.id with
  | none => s
  | some r =>
    if frame.pending then
      (s.modify r.id (fun r => { r with retryTimer := some s.nextTimer }) fun _ => rfl).setTimeout
        (.retry r.id)
    else if frame.tooLarge && canFetchTranscript r.request.channel && !r.fallbackAttempted then
      { s.modify r.id (fun r => { r with fallbackAttempted := true }) fun _ => rfl with
        fetches := (r.id, s.generation) :: s.fetches }
    else
      let s := ((s.dropInFlight r.id).clearTimeout r.queueTimer).clearTimeout r.retryTimer
      let s := if frame.operationSettled then
          { s.settleOperation r.operation with known := r.operation.toList ++ s.known }
        else s.markUncertain frame.outcomeUnknown r.operation
      s.settle r.id frame.settlement

/-- The end of `fetchTranscript`. -/
def fetchedTranscript (s : State) (id startedGeneration : ℕ) (how : Settlement) : State :=
  if (s.inFlight.find? id).isNone ∨ s.generation ≠ startedGeneration then s
  else (s.dropInFlight id).settle id how

/-- The timer that a pending answer started. -/
def retry (throwing : Option ℕ) (s : State) (id : ℕ) : State :=
  let s := s.modify id (fun r => { r with retryTimer := none }) fun _ => rfl
  match s.inFlight.find? id with
  | none => s
  | some r => flushQueue throwing { s.dropInFlight id with queued := s.queued ++ [r] }

/-- What a close does to a request in flight. -/
def closeOne (s : State) (r : PendingRequest) : State :=
  let s := s.dropInFlight r.id
  if r.operation.isSome && s.operationReplay then
    let s := s.clearTimeout r.retryTimer
    let r := { r with retryTimer := none }
    if r.queueTimer.isNone then
      let r := { r with queueTimer := some s.nextTimer }
      { s.setTimeout (.expireQueued r.id) with queued := s.queued ++ [r] }
    else { s with queued := s.queued ++ [r] }
  else s.settle r.id (.rejected remoteConnectionLostMessage)

/-- The map of the requests in flight is emptied as the loop goes. -/
def handleClose (s : State) : State :=
  s.inFlight.rows.foldl closeOne { s with authed := false, socket := none }

def openSocket (s : State) : State :=
  { s with generation := s.generation + 1, socket := some (s.generation + 1) }

/-- The page comes to the foreground, or the network returns. -/
def handleWake (s : State) : State :=
  if s.socket.isSome && s.authed then s
  else if s.socket.isSome then
    openSocket { s with generation := s.generation + 1, socket := none }
  else openSocket s

def invoke (s : State) (request : Request) (confirm : Bool) (throwing : Option ℕ) : State :=
  let id := s.nextRequestId
  let prepared := prepareRemoteOperation s.storage request s.operationOwner confirm
  let givenUp := (renewed s.storage request s.operationOwner confirm).toList ++ s.givenUp
  let s := { s with nextRequestId := id + 1, storage := prepared.2, givenUp := givenUp }
  match prepared.1 with
  | .error message => s.settle id (.rejected message)
  | .ok operation =>
    let r : PendingRequest :=
      { id := id
        request := request
        operation := operation
        queueTimer := some s.nextTimer
        retryTimer := none
        sent := operation.any (remoteOperationWasSent s.storage)
        fallbackAttempted := false }
    let s := { s.setTimeout (.expireQueued id) with queued := s.queued ++ [r] }
    flushQueue throwing (dropOldest s.queued s)

/-! ## Runs -/

/-- `createWsTransport` on a page that loads. -/
def createWsTransport (storage : Storage) (earlierSends : List Send)
    (known refused givenUp : List RemoteOperation) : State :=
  openSocket
    { storage := storage.draw
      operationOwner := storage.nextUuid
      queued := []
      inFlight := .empty
      socket := none
      generation := 0
      authed := false
      operationReplay := false
      nextRequestId := 1
      timers := []
      nextTimer := 0
      fetches := []
      settled := []
      sends := []
      earlierSends := earlierSends
      known := known
      refused := refused
      givenUp := givenUp }

def State.start : State := createWsTransport .empty [] [] [] []

inductive Act where
  /-- The page asks for something. `confirm` is what the user answers if asked. -/
  | invoke (request : Request) (confirm : Bool) (throwing : Option ℕ)
  /-- The time for a reconnect has come. -/
  | reconnect
  | wake
  | authOk (mine : ℕ) (operationReplay : Bool) (throwing : Option ℕ)
  | response (mine : ℕ) (frame : ResponseFrame)
  | close (mine : ℕ)
  /-- No pong came before the deadline. -/
  | dropSilentSocket
  /-- A timer is due. -/
  | timeout (handle : ℕ) (throwing : Option ℕ)
  | fetched (id startedGeneration : ℕ) (how : Settlement)
  /-- The page loads again. -/
  | reload

/-- The socket of a generation is open and its messages are heard. -/
def State.hears (s : State) (mine : ℕ) : Bool :=
  s.socket = some mine && mine = s.generation

/-- The host says that an action runs only of a request that carries one. -/
def State.hostSends (s : State) (frame : ResponseFrame) : Bool :=
  !frame.pending || (s.inFlight.find? frame.id).all fun r => r.operation.isSome

def step (s : State) : Act → State
  | .invoke request confirm throwing => invoke s request confirm throwing
  | .reconnect => if s.socket.isNone then openSocket s else s
  | .wake => handleWake s
  | .authOk mine operationReplay throwing =>
    if s.hears mine && !s.authed then
      flushQueue throwing { s with authed := true, operationReplay := operationReplay }
    else s
  | .response mine frame =>
    if s.hears mine && s.hostSends frame then settleResponse s frame else s
  | .close mine => if s.hears mine then handleClose s else s
  | .dropSilentSocket =>
    if s.authed && s.socket.isSome then
      handleClose { s with generation := s.generation + 1 }
    else s
  | .timeout handle throwing =>
    match s.timers.find? fun t => t.1 = handle with
    | none => s
    | some (_, timer) =>
      let s := s.clearTimeout (some handle)
      match timer with
      | .expireQueued id => expireQueued s id
      | .retry id => retry throwing s id
  | .fetched id startedGeneration how =>
    if (id, startedGeneration) ∈ s.fetches then
      fetchedTranscript { s with fetches := s.fetches.erase (id, startedGeneration) } id
        startedGeneration how
    else s
  | .reload => createWsTransport s.storage (s.sends ++ s.earlierSends) s.known s.refused s.givenUp

end Argmax.Renderer.WsTransport
