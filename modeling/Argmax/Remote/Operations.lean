import Argmax.Error
import Argmax.Lib.Table
import Argmax.Lib.Transition
import Mathlib.Data.List.Count

/-!
# Durable admission of remote mutations

`remote/operations.rs`. A remote client names each mutation with an operation
identity. The host journals the identity before it runs the action and the
outcome after it, so that a replay finds either the outcome or the fact that the
action was started.

The three statements of one `execute` call (admission, the action, the save of
its outcome) are separate steps here, so that other calls, dropped futures and
process restarts can fall between any two of them. The log of a host is a ghost:
no step reads it.
-/

namespace Argmax.Remote

open Argmax.Lib

/-! ## The journal -/

/-- The identity a client gives an operation: two UUIDs. -/
structure OperationId where
  clientId : BitVec 128
  operationId : BitVec 128
  deriving DecidableEq

/-- A row of `remote_operations`. -/
structure Operation where
  identity : OperationId
  requestDigest : String
  runId : String
  outcomeJson : Option String

/-- The table `remote_operations`, keyed by client and operation. -/
abbrev Journal := Table Operation.identity

/-- The library functions the journal rests on: `Value::to_string`,
`serde_json::from_str` with the text of its error, and the SHA-256 digest of a
text in hexadecimal. -/
structure Codec where
  print : Json → String
  parse : String → Except String Json
  sha256Hex : String → String

/-- The answer of the journal to a call. -/
inductive Admission where
  | execute
  | pending
  | complete (result : Json)

/-- Prompts and file contents stay out of the journal: a request is known by the
digest of its channel and input. -/
def requestDigest (codec : Codec) (channel : String) (input : Json) : String :=
  codec.sha256Hex (codec.print (.array [.string channel, input]))

def operationMismatch : ArgmaxError :=
  .service "REMOTE_OPERATION_MISMATCH" "This operation ID belongs to a different request"

def unknownOutcome : ArgmaxError :=
  .service "REMOTE_OUTCOME_UNKNOWN"
    ("The host stopped before recording this action's outcome. Check the chat or " ++
      "workspace before taking further action. Retrying this request will not " ++
      "execute it again.")

def operationPending : ArgmaxError :=
  .service "REMOTE_OPERATION_PENDING" "The original action is still running"

def decodeOutcome (codec : Codec) (raw : String) : ArgmaxResult Json :=
  match codec.parse raw with
  | .ok value => .ok value
  | .error error =>
    .error (.service "REMOTE_OPERATION_CORRUPT" ("Cannot read remote operation outcome: " ++ error))

/-- Insert the operation, or read the row that already holds its identity. -/
def admitOperation (codec : Codec) (journal : Journal) (identity : OperationId) (channel : String)
    (input : Json) (runId : String) : Journal × ArgmaxResult Admission :=
  let digest := requestDigest codec channel input
  match journal.find? identity with
  | none => (journal.insertOrIgnore ⟨identity, digest, runId, none⟩, .ok .execute)
  | some stored =>
    (journal,
      if stored.requestDigest ≠ digest then .error operationMismatch
      else
        match stored.outcomeJson with
        | some outcome => (decodeOutcome codec outcome).map .complete
        | none => if stored.runId ≠ runId then .error unknownOutcome else .ok .pending)

/-- The envelope an action's result is stored and sent in. -/
def outcome : ArgmaxResult Json → Json
  | .ok value => .object [("ok", value)]
  | .error error => .object [("error", error.toJson)]

/-- The statement that saves an outcome. -/
def saveOutcome (journal : Journal) (identity : OperationId) (text : String) : Journal :=
  journal.update
    (fun op => if op.identity = identity then { op with outcomeJson := some text } else op)
    (by intro op; by_cases h : op.identity = identity <;> simp [h])

/-! ## The host -/

/-- Where an `execute` call stands. A pending call polls the journal at most
twenty times. -/
inductive Phase where
  | running (identity : OperationId) (digest : String)
  | saving (identity : OperationId) (digest : String) (result : Json)
  | polling (identity : OperationId) (digest : String) (left : ℕ)
  | done

/-- What an observer sees: an action was started, or a call was answered, by the
call that ran the action or by another. -/
inductive Entry where
  | started (identity : OperationId) (digest : String)
  | replied (identity : OperationId) (digest : String) (executed : Bool)
      (reply : ArgmaxResult Json)

/-- A host: its journal, the identifier of its process, the calls in flight in
the order they arrived, and what was observed so far. -/
structure Host where
  journal : Journal
  runId : String
  tasks : List Phase
  log : List Entry

/-- One step: a call arrives, or the call `task` moves on. The faults are those
of the store, of a future that is dropped, and of a process that stops. -/
inductive Action where
  | call (identity : OperationId) (channel : String) (input : Json)
  | callFails (identity : OperationId) (channel : String) (input : Json) (error : ArgmaxError)
  | actionReturns (task : ℕ) (result : ArgmaxResult Json)
  | save (task : ℕ)
  | saveFails (task : ℕ)
  | poll (task : ℕ)
  | pollFails (task : ℕ) (error : ArgmaxError)
  | drop (task : ℕ)
  | restart (runId : String)

namespace Host

/-- A fresh store and the first process. -/
def init (runId : String) : Host := ⟨.empty, runId, [], []⟩

/-- Record an observation. -/
def observe (s : Host) (entry : Entry) : Host := { s with log := s.log ++ [entry] }

/-- Answer a call that did not run the action. -/
def answer (s : Host) (identity : OperationId) (digest : String) (reply : ArgmaxResult Json) :
    Host :=
  s.observe (.replied identity digest false reply)

/-- Move a call to another phase. -/
def setTask (s : Host) (task : ℕ) (phase : Phase) : Host :=
  { s with tasks := s.tasks.set task phase }

/-- How often the action of an operation was started. -/
def starts (s : Host) (identity : OperationId) : ℕ :=
  s.log.countP fun
    | .started started _ => decide (started = identity)
    | .replied .. => false

end Host

/-- The arrival of a call, up to its first await. -/
def call (codec : Codec) (s : Host) (identity : OperationId) (channel : String)
    (input : Json) : Host :=
  let digest := requestDigest codec channel input
  let (journal, admission) := admitOperation codec s.journal identity channel input s.runId
  match admission with
  | .ok .execute =>
    { s with
      journal := journal
      tasks := s.tasks ++ [.running identity digest]
      log := s.log ++ [.started identity digest] }
  | .ok .pending => { s with tasks := s.tasks ++ [.polling identity digest 20] }
  | .ok (.complete result) => s.answer identity digest (.ok result)
  | .error error => s.answer identity digest (.error error)

/-- One read of the journal by a pending call. -/
def poll (codec : Codec) (s : Host) (task : ℕ) (identity : OperationId) (digest : String)
    (left : ℕ) : Host :=
  match (s.journal.find? identity).bind (·.outcomeJson) with
  | some saved => (s.setTask task .done).answer identity digest (decodeOutcome codec saved)
  | none =>
    if left ≤ 1 then (s.setTask task .done).answer identity digest (.error operationPending)
    else s.setTask task (.polling identity digest (left - 1))

/-- One step of the host. An event that does not fit the phase of its call does
not happen. -/
def step (codec : Codec) (s : Host) : Action → Host
  | .call identity channel input => call codec s identity channel input
  | .callFails identity channel input error =>
    s.answer identity (requestDigest codec channel input) (.error error)
  | .actionReturns task result =>
    match s.tasks[task]? with
    | some (.running identity digest) =>
      s.setTask task (.saving identity digest (outcome result))
    | _ => s
  | .save task =>
    match s.tasks[task]? with
    | some (.saving identity digest result) =>
      ({ s with journal := saveOutcome s.journal identity (codec.print result) }.setTask task
        .done).observe (.replied identity digest true (.ok result))
    | _ => s
  | .saveFails task =>
    match s.tasks[task]? with
    | some (.saving identity digest _) =>
      (s.setTask task .done).observe (.replied identity digest true (.error unknownOutcome))
    | _ => s
  | .poll task =>
    match s.tasks[task]? with
    | some (.polling identity digest left) => poll codec s task identity digest left
    | _ => s
  | .pollFails task error =>
    match s.tasks[task]? with
    | some (.polling identity digest _) =>
      (s.setTask task .done).answer identity digest (.error error)
    | _ => s
  | .drop task => s.setTask task .done
  | .restart runId => { s with runId := runId, tasks := [] }

/-- The one rule of a run: a process draws a run identifier no operation in the
journal carries. The identifier is a random UUID. -/
def freshRun (s : Host) : Action → Prop
  | .restart runId => ∀ op ∈ s.journal.rows, op.runId ≠ runId
  | _ => True

instance (s : Host) (a : Action) : Decidable (freshRun s a) := by
  cases a <;> unfold freshRun <;> infer_instance

/-! ## What the pieces compute -/

theorem admit_of_free {codec : Codec} {journal : Journal} {identity : OperationId}
    (h : journal.find? identity = none) (channel : String) (input : Json) (runId : String) :
    admitOperation codec journal identity channel input runId =
      (journal.push ⟨identity, requestDigest codec channel input, runId, none⟩ h,
        .ok .execute) := by
  have hpush := Table.insertOrIgnore_of_free
    (r := (⟨identity, requestDigest codec channel input, runId, none⟩ : Operation)) h
  simp [admitOperation, h, hpush]

/-- **A taken identity never executes.** The call is answered from the row or waits
for it, and the journal stays as it was. -/
theorem admit_of_taken {codec : Codec} {journal : Journal} {stored : Operation}
    (h : stored ∈ journal) (channel : String) (input : Json) (runId : String) :
    admitOperation codec journal stored.identity channel input runId =
      (journal,
        if stored.requestDigest ≠ requestDigest codec channel input then
          .error operationMismatch
        else
          match stored.outcomeJson with
          | some outcome => (decodeOutcome codec outcome).map .complete
          | none =>
            if stored.runId ≠ runId then .error unknownOutcome else .ok .pending) := by
  simp only [admitOperation, Table.find?_of_mem h]

theorem decodeOutcome_eq_ok {codec : Codec} {raw : String} {v : Json} :
    decodeOutcome codec raw = .ok v ↔ codec.parse raw = .ok v := by
  cases h : codec.parse raw <;> simp [decodeOutcome, h]

@[simp] theorem mem_saveOutcome {journal : Journal} {identity : OperationId} {text : String}
    {op : Operation} :
    op ∈ saveOutcome journal identity text ↔
      ∃ old ∈ journal,
        (if old.identity = identity then { old with outcomeJson := some text } else old) = op :=
  Table.mem_update

/-- Saving an outcome leaves the other operations alone. -/
theorem mem_saveOutcome_of_ne {journal : Journal} {identity : OperationId} {text : String}
    {op : Operation} (hop : op ∈ journal) (h : op.identity ≠ identity) :
    op ∈ saveOutcome journal identity text :=
  mem_saveOutcome.mpr ⟨op, hop, by simp [h]⟩

namespace Host

end Host

end Argmax.Remote
