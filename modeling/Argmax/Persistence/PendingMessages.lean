import Argmax.Application.Validation
import Argmax.Lib.Table
import Argmax.Lib.Transition
import Mathlib.Data.List.Sort

/-!
# The pending-message journal

`persistence/pending_messages.rs`. A follow-up that waits for its session is a
row of `pending_messages` until a durable turn carries it. The rows of a session
are rewritten as a whole whenever the visible queue changes, moved one at a time
while they are sent, and reread once after a restart.

Every operation is one transaction: it either takes effect or returns an error
and leaves the journal alone. The columns that hold serialised values are
modelled by the values, and `updated_at`, which nothing reads, is left out.
-/

namespace Argmax.Persistence.PendingMessages

open Argmax.Lib

/-! ## The rows -/

/-- The delivery state of a row. -/
inductive DeliveryState where
  | pending
  | recovered
  | launching
  | deliveryUnknown
  deriving DecidableEq

/-- What startup recovery says about a message. -/
inductive RecoveryStatus where
  | unsent
  | deliveryUnknown
  deriving DecidableEq

/-- Which session wrote a message, and the inbox row it delivers. -/
structure MessageOrigin where
  sessionId : String
  label : String
  kind : String
  messageId : Option String
  deriving DecidableEq

structure ComposerAttachment where
  filePath : String
  mimeType : String
  sizeBytes : ℕ
  deriving DecidableEq

structure AgentReference where
  name : String
  providerChildSessionId : String
  providerParentConversationId : String
  deriving DecidableEq

/-- A queued follow-up as the memory of the process holds it. -/
structure PendingMessage where
  id : String
  sessionId : String
  content : String
  agentMode : String
  provider : Option ProviderId
  modelLabel : Option String
  modelId : Option String
  reasoningEffort : Option String
  fastMode : Bool
  attachments : List ComposerAttachment
  agentReferences : List AgentReference
  origin : Option MessageOrigin
  recoveryStatus : Option RecoveryStatus
  queuedAt : String
  person : Bool
  deriving DecidableEq

/-- A row of `pending_messages`: the columns of the message, its slot in the
session's queue and its delivery state. -/
structure PendingRow where
  message : PendingMessage
  position : ℕ
  deliveryState : DeliveryState

namespace PendingRow

def id (row : PendingRow) : String := row.message.id

def sessionId (row : PendingRow) : String := row.message.sessionId

/-- The pair the table keeps unique besides the id. -/
def slot (row : PendingRow) : String × ℕ := (row.sessionId, row.position)

/-- The inbox row the message delivers. -/
def originMessageId (row : PendingRow) : Option String :=
  row.message.origin.bind (·.messageId)

/-- The row in another delivery state. -/
def withState (row : PendingRow) (state : DeliveryState) : PendingRow :=
  { row with deliveryState := state }

@[simp] theorem id_withState (row : PendingRow) (state : DeliveryState) :
    (row.withState state).id = row.id := rfl

@[simp] theorem message_withState (row : PendingRow) (state : DeliveryState) :
    (row.withState state).message = row.message := rfl

@[simp] theorem deliveryState_withState (row : PendingRow) (state : DeliveryState) :
    (row.withState state).deliveryState = state := rfl

@[simp] theorem slot_withState (row : PendingRow) (state : DeliveryState) :
    (row.withState state).slot = row.slot := rfl

end PendingRow

/-- The table `pending_messages`, keyed by message id. -/
abbrev Journal := Table PendingRow.id

/-- The state of a row that stores a message with this recovery status. -/
def stateOf : Option RecoveryStatus → DeliveryState
  | some .unsent => .recovered
  | some .deliveryUnknown => .deliveryUnknown
  | none => .pending

/-- `row_to_pending_message`: the message a row reads back as. Old rows may hold the
mode `plan`, and every row reads as `auto`. -/
def rowToPendingMessage (row : PendingRow) : PendingMessage :=
  { row.message with
    agentMode := "auto"
    recoveryStatus :=
      match row.deliveryState with
      | .recovered => some .unsent
      | .deliveryUnknown | .launching => some .deliveryUnknown
      | .pending => none }

/-! ## The operations -/

/-- The row is one of this session's that has left the visible queue. -/
def isLaunchingOf (sessionId : String) (row : PendingRow) : Bool :=
  row.sessionId == sessionId && row.deliveryState == .launching

/-- The slots held by the session's launching rows, in ascending order. -/
def launchingPositions (journal : Journal) (sessionId : String) : List ℕ :=
  ((journal.rows.filter (isLaunchingOf sessionId)).map (·.position)).insertionSort (· ≤ ·)

/-- The first position from `position` on that no launching row holds. -/
def skipLaunching (launching : List ℕ) (position : ℕ) : ℕ :=
  if position ∈ launching then skipLaunching (launching.erase position) (position + 1)
  else position
  termination_by launching.length
  decreasing_by
    rename_i h
    have := List.length_erase_of_mem h
    have := List.length_pos_of_mem h
    omega

/-- `insert_message`: fails when the id or the session's slot is taken. -/
def insertMessage (journal : Journal) (message : PendingMessage) (position : ℕ) : Option Journal :=
  let row : PendingRow := ⟨message, position, stateOf message.recoveryStatus⟩
  if journal.rows.any (fun other => other.slot == row.slot) then none
  else journal.insert? row

/-- The loop of `replace_session_queue`, from a position on. -/
def insertMessages (launching : List ℕ) :
    Journal → ℕ → List PendingMessage → Option Journal
  | journal, _, [] => some journal
  | journal, position, message :: messages =>
    let free := skipLaunching launching position
    match insertMessage journal message free with
    | some journal => insertMessages launching journal (free + 1) messages
    | none => none

/-- `replace_session_queue`: the visible rows of the session become exactly the given
messages, and its launching rows keep their slots. -/
def replaceSessionQueue (journal : Journal) (sessionId : String)
    (messages : List PendingMessage) : Option Journal :=
  let launching := launchingPositions journal sessionId
  let kept := journal.delete fun row =>
    row.sessionId == sessionId && row.deliveryState != .launching
  insertMessages launching kept 0 messages

/-- The condition of the single-message statements. -/
def selects (sessionId messageId : String) (guard : DeliveryState → Bool)
    (row : PendingRow) : Bool :=
  row.sessionId == sessionId && row.id == messageId && guard row.deliveryState

/-- A row after a statement that sets the state of the rows a condition selects. -/
def moved (hit : PendingRow → Bool) (state : DeliveryState) (row : PendingRow) : PendingRow :=
  if hit row then row.withState state else row

@[simp] theorem message_moved (hit : PendingRow → Bool) (state : DeliveryState)
    (row : PendingRow) : (moved hit state row).message = row.message := by
  unfold moved; split <;> rfl

@[simp] theorem id_moved (hit : PendingRow → Bool) (state : DeliveryState)
    (row : PendingRow) : (moved hit state row).id = row.id := by
  unfold moved; split <;> rfl

@[simp] theorem slot_moved (hit : PendingRow → Bool) (state : DeliveryState)
    (row : PendingRow) : (moved hit state row).slot = row.slot := by
  unfold moved; split <;> rfl

/-- Set the state of one message of a session, when the guard admits the state it is
in. The flag says whether a row changed. -/
def setState (journal : Journal) (sessionId messageId : String)
    (guard : DeliveryState → Bool) (state : DeliveryState) : Bool × Journal :=
  let hit := selects sessionId messageId guard
  (journal.rows.any hit, journal.update (moved hit state) (id_moved hit state))

def markMessageLaunching (journal : Journal) (sessionId messageId : String) :
    ArgmaxResult Journal :=
  match setState journal sessionId messageId (· != .launching) .launching with
  | (true, journal) => .ok journal
  | (false, _) =>
    .error (.service "PENDING_MESSAGE_NOT_CLAIMABLE"
      "Pending follow-up no longer exists or is already being sent.")

def restoreLaunchingMessage (journal : Journal) (sessionId messageId : String)
    (recoveryStatus : Option RecoveryStatus) : ArgmaxResult Journal :=
  match setState journal sessionId messageId (· == .launching) (stateOf recoveryStatus) with
  | (true, journal) => .ok journal
  | (false, _) =>
    .error (.service "PENDING_MESSAGE_NOT_LAUNCHING"
      "Pending follow-up launch could not be restored.")

/-- `delete_message`: the cleanup of a confirmed delivery. -/
def deleteMessage (journal : Journal) (sessionId messageId : String) : Journal :=
  journal.delete fun row => row.sessionId == sessionId && row.id == messageId

/-- The visible messages of a session whose inbox rows the agent has collected. -/
def collectedMessages (journal : Journal) (sessionId : String) (collected : List String) :
    List String :=
  (journal.rows.filter fun row =>
    row.sessionId == sessionId && row.deliveryState != .launching &&
      row.originMessageId.any fun messageId => collected.contains messageId).map (·.id)

def deleteMessagesForCollectedOrigins (journal : Journal) (sessionId : String)
    (collected : List String) : Journal :=
  (collectedMessages journal sessionId collected).foldl
    (fun journal messageId => deleteMessage journal sessionId messageId) journal

/-- Recovery removes a message that is not ambiguous and whose inbox row was handed
over. -/
def recoveredAsDelivered (delivered : String → Bool) (row : PendingRow) : Bool :=
  (rowToPendingMessage row).recoveryStatus != some .deliveryUnknown &&
    row.originMessageId.any delivered

/-- The state recovery leaves a row in. -/
def recoveredState : DeliveryState → DeliveryState
  | .launching | .deliveryUnknown => .deliveryUnknown
  | .pending | .recovered => .recovered

/-- `recover_pending_messages`, on the table. -/
def recoverPendingMessages (delivered : String → Bool) (journal : Journal) : Journal :=
  let remaining := (journal.rows.filter (recoveredAsDelivered delivered)).foldl
    (fun journal row => deleteMessage journal row.sessionId row.id) journal
  remaining.update (fun row => row.withState (recoveredState row.deliveryState))
    (fun row => row.id_withState _)

/-- `list_session_pending_messages`: the visible queue of a session, in order. -/
def listSessionPendingMessages (journal : Journal) (sessionId : String) : List PendingMessage :=
  (((journal.rows.filter fun row =>
    row.sessionId == sessionId && row.deliveryState != .launching).insertionSort
      fun a b => a.position ≤ b.position)).map rowToPendingMessage

/-! ## Runs -/

/-- The journal, and the inbox rows that were handed over. -/
structure State where
  journal : Journal
  delivered : List String

/-- One step. A transaction the database refuses changes nothing and is the step
`refused`. -/
inductive Action where
  | replace (sessionId : String) (messages : List PendingMessage)
  | markLaunching (sessionId messageId : String)
  | restoreLaunching (sessionId messageId : String) (recoveryStatus : Option RecoveryStatus)
  | confirmDelivery (sessionId messageId : String)
  | collect (sessionId : String) (messageIds : List String)
  | deliverInbox (messageId : String)
  | restart
  | refused

/-- The journal after an operation that may have failed. -/
def kept (journal : Journal) : ArgmaxResult Journal → Journal
  | .ok journal => journal
  | .error _ => journal

def step (s : State) : Action → State
  | .replace sessionId messages =>
    { s with journal := (replaceSessionQueue s.journal sessionId messages).getD s.journal }
  | .markLaunching sessionId messageId =>
    { s with journal := kept s.journal (markMessageLaunching s.journal sessionId messageId) }
  | .restoreLaunching sessionId messageId recoveryStatus =>
    { s with
      journal := kept s.journal
        (restoreLaunchingMessage s.journal sessionId messageId recoveryStatus) }
  | .confirmDelivery sessionId messageId =>
    { s with journal := deleteMessage s.journal sessionId messageId }
  | .collect sessionId messageIds =>
    { s with journal := deleteMessagesForCollectedOrigins s.journal sessionId messageIds }
  | .deliverInbox messageId => { s with delivered := messageId :: s.delivered }
  | .restart =>
    { s with journal := recoverPendingMessages (s.delivered.contains ·) s.journal }
  | .refused => s

/-- A store without messages. -/
def init : State := ⟨.empty, []⟩

end Argmax.Persistence.PendingMessages
