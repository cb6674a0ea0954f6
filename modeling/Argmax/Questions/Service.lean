import Argmax.Lib.Transition
import Argmax.Questions.Cards

/-!
# The question service

`questions/service.rs`. A blocking question of a provider is a card in the transcript and a
responder in memory. The answer goes to the responder when the completion of the card is
committed. A question that does not block is a card that is complete from the start.

An operation holds the lock on the responders and the connection from start to end, so
operations happen one after another. Any call of the store can fail. The id of a request is
its number among those that were made.
-/

namespace Argmax.Questions

open Argmax.Lib Argmax.Lib.Text Argmax.Persistence Argmax.Providers

/-! ## Requests -/

structure QuestionDefinition where
  id : String
  isSecret : Bool
  deriving DecidableEq

structure ParsedRequest where
  provider : String
  isBlocking : Bool
  itemId : String
  threadId : String
  turnId : String
  normalizedQuestions : List Json
  questions : List QuestionDefinition

/-- A question that a provider waits for. -/
structure PendingQuestion where
  sessionId : String
  invocationId : String
  requestId : ℕ
  providerRequestId : String
  itemId : String
  provider : String
  questions : List QuestionDefinition
  /-- The receiver was dropped. -/
  isClosed : Bool
  deriving DecidableEq

/-- The key of the map of responders. -/
def PendingQuestion.key (question : PendingQuestion) : String × ℕ :=
  (question.sessionId, question.requestId)

/-- The answers to a request, by question. -/
abbrev Answers := Table (Prod.fst : String × List String → String)

def maxTextBytes : ℕ := 8 * 1024

def invalidAnswer (message : String) : ArgmaxError := .service "QUESTION_ANSWER_INVALID" message

/-- An answer that `validate_answers` refuses. -/
def isInvalid (answer : String) : Bool :=
  (trim answer.toList).isEmpty || byteLength answer.toList > maxTextBytes ||
    answer.toList.contains '\x00'

/-- The body of the loop of `validate_answers`. -/
def validateAnswer (answers : Answers) (question : QuestionDefinition) : ArgmaxResult Unit :=
  match answers.find? question.id with
  | none => .error (invalidAnswer ("Question " ++ question.id ++ " has no answer"))
  | some (_, values) =>
    if values.isEmpty || values.any isInvalid then
      .error (invalidAnswer ("Question " ++ question.id ++ " has an invalid answer"))
    else if question.isSecret ∧ values.length ≠ 1 then
      .error (invalidAnswer "Secret questions require exactly one answer")
    else .ok ()

def validateAnswers (questions : List QuestionDefinition) (answers : Answers) (dismissed : Bool) :
    ArgmaxResult Unit :=
  if dismissed then
    if answers.rows.isEmpty then .ok ()
    else .error (invalidAnswer "Dismissed questions cannot include answers")
  else if answers.rows.length ≠ questions.length then
    .error (invalidAnswer "Every question requires an answer")
  else do
    questions.forM (validateAnswer answers)
    if answers.rows.any fun answer => !questions.any fun question => question.id == answer.1 then
      .error (invalidAnswer "Answers contain an unknown question id")
    else .ok ()

/-! ## Events -/

/-- An event of a question. -/
def questionEvent (sessionId type : String) (payload : Json) : PersistTimelineEventInput :=
  ⟨sessionId, type, "AskUserQuestion", payload⟩

def questionStartedPayload (request : ParsedRequest) (invocationId : String) (requestId : ℕ)
    (providerRequestId : String) : Json :=
  .object [("id", .string request.itemId), ("type", .string "AskUserQuestion"),
    ("name", .string "AskUserQuestion"), ("status", .string "running"),
    ("provider", .string request.provider), ("requestId", .string requestId.repr),
    ("providerRequestId", .string providerRequestId),
    ("providerInvocationId", .string invocationId), ("threadId", .string request.threadId),
    ("turnId", .string request.turnId),
    ("input", .object [("delivery", .string "blocking"), ("requestId", .string requestId.repr),
      ("questions", .array request.normalizedQuestions)])]

def asyncQuestionStartedPayload (request : ParsedRequest) (invocationId : String)
    (providerRequestId : String) : Json :=
  .object [("id", .string request.itemId), ("type", .string "AskUserQuestion"),
    ("name", .string "AskUserQuestion"), ("status", .string "running"),
    ("provider", .string request.provider), ("providerRequestId", .string providerRequestId),
    ("providerInvocationId", .string invocationId), ("threadId", .string request.threadId),
    ("turnId", .string request.turnId),
    ("input", .object [("delivery", .string "async"),
      ("questions", .array request.normalizedQuestions)])]

def asyncQuestionCompletedPayload (request : ParsedRequest) (invocationId : String)
    (providerRequestId : String) : Json :=
  .object [("id", .string request.itemId), ("type", .string "AskUserQuestion"),
    ("name", .string "AskUserQuestion"), ("status", .string "completed"),
    ("provider", .string request.provider), ("providerRequestId", .string providerRequestId),
    ("providerInvocationId", .string invocationId)]

def questionCompletedPayload (question : PendingQuestion) (status : String) : Json :=
  .object [("id", .string question.itemId), ("type", .string "AskUserQuestion"),
    ("name", .string "AskUserQuestion"), ("status", .string status),
    ("provider", .string question.provider), ("requestId", .string question.requestId.repr),
    ("providerRequestId", .string question.providerRequestId),
    ("providerInvocationId", .string question.invocationId)]

/-- The payload with which `cancel_session_pending` closes a card. -/
def cancelledPayload (payload : Json) : Json :=
  let field := fun key => (payload.get key).getD .null
  .object [("id", field "id"), ("type", .string "AskUserQuestion"),
    ("name", .string "AskUserQuestion"), ("status", .string "cancelled"),
    ("provider", (payload.get "provider").getD (.string "codex")),
    ("requestId", field "requestId"), ("providerRequestId", field "providerRequestId"),
    ("providerInvocationId", field "providerInvocationId")]

/-! ## Operations -/

structure State where
  db : Database
  pending : Table PendingQuestion.key
  /-- How many ids of requests were made. -/
  requestIds : ℕ
  /-- What the providers were answered, latest first. The program does not keep this. -/
  answered : List ((String × ℕ) × Json)
  deriving DecidableEq

/-- Nobody has asked for anything. -/
def State.start (sessions : Table SessionRow.id) (workspaces : Table WorkspaceRow.id) : State where
  db := ⟨sessions, workspaces, .empty, 0, [], []⟩
  pending := .empty
  requestIds := 0
  answered := []

/-- A call of the store. -/
inductive Call where
  /-- The transaction is opened, and what comes first is read. -/
  | read
  /-- What is left, up to the commit. -/
  | commit
  deriving DecidableEq

section

variable (hasOutstandingCardAsk : List PersistTimelineEventInput → String → Bool)

/-- What both registrations check. -/
def checkRequest (db : Database) (sessionId invocationId requestId : String) :
    ArgmaxResult Unit := do
  let current ← db.findSessionById sessionId
  if !current.state.isLive then
    .error (.service "QUESTION_CANCELLED" "The provider turn has ended")
  else if hasDurableRequest db.events sessionId invocationId requestId then
    .error (.service "QUESTION_DUPLICATE" "This provider question was already received")
  else .ok ()

def registerNative (fault : Option Call) (s : State) (sessionId invocationId requestId : String)
    (parsed : ParsedRequest) : ArgmaxResult State := do
  attempt fault .read
  checkRequest s.db sessionId invocationId requestId
  let started := questionEvent sessionId "command.started"
    (questionStartedPayload parsed invocationId s.requestIds requestId)
  let db := { s.db with events := s.db.events ++ [started] }
  let input := SessionStateInput.transition .waiting
  let (_, db) ← db.updateSessionState hasOutstandingCardAsk sessionId
    (if db.listApprovalsForSession sessionId "pending" = [] then input.withBlockingQuestion
      else input.withPendingApproval)
  attempt fault .commit
  return { s with
    db := db
    pending := s.pending.put ⟨sessionId, invocationId, s.requestIds, requestId, parsed.itemId,
      parsed.provider, parsed.questions, false⟩
    requestIds := s.requestIds + 1 }

def recordAsync (fault : Option Call) (s : State) (sessionId invocationId requestId : String)
    (parsed : ParsedRequest) : ArgmaxResult State := do
  attempt fault .read
  checkRequest s.db sessionId invocationId requestId
  let started := questionEvent sessionId "command.started"
    (asyncQuestionStartedPayload parsed invocationId requestId)
  let completed := questionEvent sessionId "command.completed"
    (asyncQuestionCompletedPayload parsed invocationId requestId)
  attempt fault .commit
  return { s with db := { s.db with events := s.db.events ++ [started, completed] } }

/-- `request_native`, up to its wait for an answer. -/
def requestNative (fault : Option Call) (s : State) (sessionId invocationId requestId : String)
    (parsed : ParsedRequest) : ArgmaxResult State :=
  if parsed.isBlocking then
    registerNative hasOutstandingCardAsk fault s sessionId invocationId requestId parsed
  else recordAsync fault s sessionId invocationId requestId parsed

/-- What the provider is sent. -/
def response (answers : Answers) (dismissed : Bool) : Json :=
  .object [("answers", .object (if dismissed then [] else answers.rows.map fun answer =>
    (answer.1, .object [("answers", .array (answer.2.map .string))])))]

/-- The session takes its turn up again: it waits, and nothing else of it is seen to be
pending. Of other questions, only those in memory are seen. -/
def Resumes (s : State) (question : PendingQuestion) (current : SessionRow) : Prop :=
  current.state = .waiting ∧
    (∀ other ∈ s.pending.rows, other.key = question.key ∨ other.sessionId ≠ question.sessionId) ∧
    s.db.listApprovalsForSession question.sessionId "pending" = []

instance (s : State) (question : PendingQuestion) (current : SessionRow) :
    Decidable (Resumes s question current) :=
  inferInstanceAs (Decidable (_ ∧ _ ∧ _))

/-- The transaction of `resolve`. -/
def resolveCard (fault : Option Call) (s : State) (question : PendingQuestion) (dismissed : Bool) :
    ArgmaxResult Database := do
  attempt fault .read
  let current ← s.db.findSessionById question.sessionId
  if !current.state.isLive then
    .error (.service "QUESTION_CANCELLED" "The provider turn has ended")
  else
    let completed := questionEvent question.sessionId "command.completed"
      (questionCompletedPayload question (if dismissed then "dismissed" else "completed"))
    let db := { s.db with events := s.db.events ++ [completed] }
    let db ← if Resumes s question current then
        (·.2) <$> db.updateSessionState hasOutstandingCardAsk question.sessionId
          (.transition .running)
      else pure db
    attempt fault .commit
    return db

def resolve (fault : Option Call) (s : State) (sessionId : String) (requestId : ℕ)
    (answers : Answers) (dismissed : Bool) : ArgmaxResult State :=
  match s.pending.find? (sessionId, requestId) with
  | none => .error (.service "QUESTION_NOT_PENDING"
      "This question is no longer waiting for an answer")
  | some question =>
    if question.isClosed then .error (.service "QUESTION_CANCELLED"
      "This question is no longer connected to a running provider")
    else do
      validateAnswers question.questions answers dismissed
      let db ← resolveCard hasOutstandingCardAsk fault s question dismissed
      return { s with
        db := db
        pending := s.pending.delete fun other => other.key == question.key
        answered := (question.key, response answers dismissed) :: s.answered }

/-- The transaction of `cancel_session_pending`. -/
def closeCards (fault : Option Call) (db : Database) (sessionId : String) :
    ArgmaxResult Database := do
  attempt fault .read
  let durable := listDurablePending db.events sessionId
  if durable = [] then return db
  else
    let events := durable.map fun payload =>
      questionEvent sessionId "command.completed" (cancelledPayload payload)
    let db := { db with events := db.events ++ events }
    let current ← db.findSessionById sessionId
    let (_, db) ← db.updateSessionState hasOutstandingCardAsk sessionId (.transition current.state)
    attempt fault .commit
    return db

/-- `cancel_session_pending`. The responders go before anything is read. -/
def cancelSessionPending (fault : Option Call) (s : State) (sessionId : String) :
    ArgmaxResult Unit × State :=
  let s := { s with pending := s.pending.delete fun question => question.sessionId == sessionId }
  match closeCards hasOutstandingCardAsk fault s.db sessionId with
  | .error error => (.error error, s)
  | .ok db => (.ok (), { s with db := db })

end

/-! ## Runs -/

inductive Act where
  | requestNative (fault : Option Call) (sessionId invocationId requestId : String)
      (parsed : ParsedRequest)
  | resolve (fault : Option Call) (sessionId : String) (requestId : ℕ) (answers : Answers)
      (dismissed : Bool)
  | cancelSessionPending (fault : Option Call) (sessionId : String)
  /-- A provider stops waiting. -/
  | hangUp (sessionId : String) (requestId : ℕ)
  /-- The process ends and starts again. -/
  | restart
  /-- Other code leaves these rows, and adds these events. -/
  | write (sessions : Table SessionRow.id) (workspaces : Table WorkspaceRow.id)
      (approvals : Table ApprovalRequest.id) (events : List PersistTimelineEventInput)

/-- An event of other code: a request id on a call is what this service writes. -/
def isForeign (event : PersistTimelineEventInput) : Bool :=
  !(["command.started", "command.completed"].contains event.type) ||
    (jsonExtract event.payload ["providerRequestId"]).isNone

def hungUp (sessionId : String) (requestId : ℕ) (question : PendingQuestion) : PendingQuestion :=
  if question.key = (sessionId, requestId) then { question with isClosed := true } else question

theorem key_hungUp (sessionId : String) (requestId : ℕ) (question : PendingQuestion) :
    (hungUp sessionId requestId question).key = question.key := by
  rw [hungUp]
  split <;> rfl

/-- The result of an operation that changes nothing when it fails. -/
def committed (s : State) : ArgmaxResult State → ArgmaxResult Unit × State
  | .ok s => (.ok (), s)
  | .error error => (.error error, s)

section

variable (hasOutstandingCardAsk : List PersistTimelineEventInput → String → Bool)

/-- What an act comes to. -/
def perform (s : State) : Act → ArgmaxResult Unit × State
  | .requestNative fault sessionId invocationId requestId parsed =>
    committed s
      (requestNative hasOutstandingCardAsk fault s sessionId invocationId requestId parsed)
  | .resolve fault sessionId requestId answers dismissed =>
    committed s (resolve hasOutstandingCardAsk fault s sessionId requestId answers dismissed)
  | .cancelSessionPending fault sessionId =>
    cancelSessionPending hasOutstandingCardAsk fault s sessionId
  | .hangUp sessionId requestId =>
    (.ok (), { s with
      pending := s.pending.update (hungUp sessionId requestId) (key_hungUp sessionId requestId) })
  | .restart => (.ok (), { s with pending := .empty })
  | .write sessions workspaces approvals events =>
    (.ok (), { s with
      db := { s.db with
        sessions := sessions
        workspaces := workspaces
        approvals := approvals
        events := s.db.events ++ events.filter isForeign } })

def step (s : State) (act : Act) : State := (perform hasOutstandingCardAsk s act).2

end

end Argmax.Questions
