import Argmax.Persistence.PendingConservation

/-!
# The follow-up queue of a session

`providers/session_service.rs`. A session's queue is in memory and in the journal of pending
messages. Each operation holds the writer connection and then the lock of the queues until both
are written, so that each is one step here. A message that is being sent has left the memory and
is a launching row of the journal.

The session is fixed. What an operation publishes is left out.
-/

namespace Argmax.FollowUps

open Argmax.Lib Argmax.Persistence.PendingMessages

/-! ## Operations -/

def maxPendingQueue : ℕ := 64

structure FollowUpQueue where
  /-- The session's entry of `queues`. -/
  memory : List PendingMessage
  journal : Journal

namespace FollowUpQueue

def empty : FollowUpQueue := ⟨[], .empty⟩

end FollowUpQueue

variable (sessionId : String)

/-- The end of `enqueue_pending_message`. -/
def enqueue (queue : FollowUpQueue) (message : PendingMessage) : ArgmaxResult FollowUpQueue :=
  if maxPendingQueue ≤ queue.memory.length then
    .error (.serviceError "PENDING_QUEUE_FULL" s!"Pending follow-up queue is full ({64}).")
  else
    match replaceSessionQueue queue.journal sessionId (queue.memory ++ [message]) with
    | some journal => .ok ⟨queue.memory ++ [message], journal⟩
    | none => .error (.serviceError "SQLITE" "database error")

/-- The claim of a queued message: by the drain, by Send now or for a multitask. -/
def claim (queue : FollowUpQueue) (messageId : String) :
    ArgmaxResult (PendingMessage × FollowUpQueue) :=
  match queue.memory.find? (·.id == messageId) with
  | none =>
    .error (.serviceError "QUEUED_MESSAGE_NOT_FOUND" "Queued follow-up no longer exists.")
  | some message => do
    let journal ← markMessageLaunching queue.journal sessionId messageId
    pure (message, ⟨queue.memory.eraseP (·.id == messageId), journal⟩)

/-- The message that `pop_next_undelivered` claims: messages that wait for a person do not
block those behind them. -/
def nextToDrain (queue : FollowUpQueue) : Option PendingMessage :=
  queue.memory.find? (·.recoveryStatus.isNone)

/-- A claimed message goes back to its slot, and the memory is read again. -/
def restore (queue : FollowUpQueue) (messageId : String)
    (recoveryStatus : Option RecoveryStatus) : ArgmaxResult FollowUpQueue := do
  let journal ← restoreLaunchingMessage queue.journal sessionId messageId recoveryStatus
  pure ⟨listSessionPendingMessages journal sessionId, journal⟩

/-- A claimed message was sent, or its inbox row was collected. -/
def finish (queue : FollowUpQueue) (messageId : String) : FollowUpQueue :=
  { queue with journal := deleteMessage queue.journal sessionId messageId }

/-- `cancel_queued_message`. -/
def cancelQueued (queue : FollowUpQueue) (messageId : String) : ArgmaxResult FollowUpQueue :=
  let updated := queue.memory.filter (·.id != messageId)
  if updated.length = queue.memory.length then
    .error (.serviceError "QUEUED_MESSAGE_NOT_CANCELLABLE"
      ("This follow-up has already left the queue. " ++
        "Check the chat before sending another copy."))
  else
    match replaceSessionQueue queue.journal sessionId updated with
    | some journal => .ok ⟨updated, journal⟩
    | none => .error (.serviceError "SQLITE" "database error")

/-- `reconcile_collected_messages`. -/
def collect (queue : FollowUpQueue) (collected : List String) : FollowUpQueue :=
  let removed := collectedMessages queue.journal sessionId collected
  { memory := queue.memory.filter fun message => !removed.contains message.id
    journal := deleteMessagesForCollectedOrigins queue.journal sessionId collected }

def clearQueue (queue : FollowUpQueue) : FollowUpQueue :=
  { memory := [], journal := queue.journal.delete fun row => row.sessionId == sessionId }

/-- A row after `pause_queue_with_connection`. -/
def pausedRow (row : PendingRow) : PendingRow :=
  moved (fun row => row.sessionId == sessionId && row.deliveryState == .pending) .recovered row

@[simp] theorem id_pausedRow (row : PendingRow) : (pausedRow sessionId row).id = row.id :=
  id_moved _ _ row

@[simp] theorem sessionId_pausedRow (row : PendingRow) :
    (pausedRow sessionId row).sessionId = row.sessionId := by
  simp [pausedRow, PendingRow.sessionId]

def pausedMessage (message : PendingMessage) : PendingMessage :=
  { message with recoveryStatus := message.recoveryStatus <|> some .unsent }

/-- `pause_queue_with_connection`. -/
def pauseQueue (queue : FollowUpQueue) : FollowUpQueue :=
  { memory := queue.memory.map pausedMessage
    journal := queue.journal.update (pausedRow sessionId) (id_pausedRow sessionId) }

/-- What startup makes of the journal that the last launch left. -/
def recoverQueue (delivered : String → Bool) (queue : FollowUpQueue) : FollowUpQueue :=
  let journal := recoverPendingMessages delivered queue.journal
  ⟨listSessionPendingMessages journal sessionId, journal⟩

/-- An operation that adds no message. -/
inductive QueueWrite where
  | claim (messageId : String)
  | restore (messageId : String) (recoveryStatus : Option RecoveryStatus)
  | finish (messageId : String)
  | cancel (messageId : String)
  | collect (collected : List String)
  | clear
  | pause

def FollowUpQueue.write (queue : FollowUpQueue) : QueueWrite → ArgmaxResult FollowUpQueue
  | .claim messageId => (·.2) <$> FollowUps.claim sessionId queue messageId
  | .restore messageId recoveryStatus => FollowUps.restore sessionId queue messageId recoveryStatus
  | .finish messageId => .ok (FollowUps.finish sessionId queue messageId)
  | .cancel messageId => cancelQueued sessionId queue messageId
  | .collect collected => .ok (FollowUps.collect sessionId queue collected)
  | .clear => .ok (clearQueue sessionId queue)
  | .pause => .ok (pauseQueue sessionId queue)

/-! ## A queue without messages -/

/-- No follow-up of the session is queued, and none is being sent. -/
structure FollowUpQueue.IsEmpty (queue : FollowUpQueue) : Prop where
  memory : queue.memory = []
  journal : ∀ row ∈ queue.journal, row.sessionId ≠ sessionId

variable {sessionId} {queue : FollowUpQueue}

theorem mem_listSessionPendingMessages {journal : Journal} {message : PendingMessage} :
    message ∈ listSessionPendingMessages journal sessionId ↔
      ∃ row ∈ journal, row.sessionId = sessionId ∧ row.deliveryState ≠ .launching ∧
        rowToPendingMessage row = message := by
  simp [listSessionPendingMessages, Table.mem_def, and_assoc]

theorem listSessionPendingMessages_eq_nil {journal : Journal}
    (h : ∀ row ∈ journal, row.sessionId ≠ sessionId) :
    listSessionPendingMessages journal sessionId = [] := by
  rw [List.eq_nil_iff_forall_not_mem]
  intro message hmessage
  obtain ⟨row, hrow, hsession, -⟩ := mem_listSessionPendingMessages.mp hmessage
  exact h row hrow hsession

/-- A message that was restored was being sent. -/
theorem launching_of_restored {journal journal' : Journal} {messageId : String}
    {recoveryStatus : Option RecoveryStatus}
    (h : restoreLaunchingMessage journal sessionId messageId recoveryStatus = .ok journal') :
    ∃ row ∈ journal, row.sessionId = sessionId := by
  simp only [restoreLaunchingMessage] at h
  split at h
  · rename_i hany
    obtain ⟨row, hrow, hselects⟩ := List.any_eq_true.mp (Prod.ext_iff.mp hany).1
    simp only [selects, Bool.and_eq_true, beq_iff_eq] at hselects
    exact ⟨row, hrow, hselects.1.1⟩
  · cases h

namespace FollowUpQueue.IsEmpty

/-- Nothing but a new message ends that the queue is empty. -/
theorem write (h : queue.IsEmpty sessionId) {w : QueueWrite} {after : FollowUpQueue}
    (hw : queue.write sessionId w = .ok after) : after.IsEmpty sessionId := by
  cases w with
  | claim messageId => simp [FollowUpQueue.write, FollowUps.claim, h.memory, Functor.map,
      Except.map] at hw
  | restore messageId recoveryStatus =>
    obtain ⟨journal, hjournal, -⟩ := ArgmaxResult.bind_eq_ok.mp hw
    obtain ⟨row, hrow, hsession⟩ := launching_of_restored hjournal
    exact absurd hsession (h.journal row hrow)
  | finish messageId =>
    simp only [FollowUpQueue.write, Except.ok.injEq] at hw
    subst hw
    exact ⟨h.memory, fun row hrow => h.journal row (mem_deleteMessage.mp hrow).1⟩
  | cancel messageId => simp [FollowUpQueue.write, cancelQueued, h.memory] at hw
  | collect collected =>
    simp only [FollowUpQueue.write, Except.ok.injEq] at hw
    subst hw
    exact ⟨by simp [FollowUps.collect, h.memory],
      fun row hrow => h.journal row (mem_deleteMessagesForCollectedOrigins.mp hrow).1⟩
  | clear =>
    simp only [FollowUpQueue.write, Except.ok.injEq] at hw
    subst hw
    exact ⟨rfl, fun row hrow => h.journal row (Table.mem_delete.mp hrow).1⟩
  | pause =>
    simp only [FollowUpQueue.write, Except.ok.injEq] at hw
    subst hw
    refine ⟨by simp [pauseQueue, h.memory], fun row hrow => ?_⟩
    simp only [pauseQueue, Table.mem_update] at hrow
    obtain ⟨before, hbefore, rfl⟩ := hrow
    simpa using h.journal before hbefore

theorem recover (h : queue.IsEmpty sessionId) (delivered : String → Bool) :
    (recoverQueue sessionId delivered queue).IsEmpty sessionId := by
  have hjournal : ∀ row ∈ recoverPendingMessages delivered queue.journal,
      row.sessionId ≠ sessionId := by
    intro row hrow
    obtain ⟨before, hbefore, -, rfl⟩ := mem_recoverPendingMessages.mp hrow
    exact h.journal before hbefore
  exact ⟨listSessionPendingMessages_eq_nil hjournal, hjournal⟩

end FollowUpQueue.IsEmpty

end Argmax.FollowUps
