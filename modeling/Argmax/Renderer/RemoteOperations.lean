import Argmax.Lib.Table

/-!
# The registry of unresolved actions

`renderer/lib/remoteOperations.ts`. An action sent to the host over a socket may have happened
although nobody answered. The page therefore writes down the identity of every action before
it is sent, and offers the host the same identity when the action is asked for again. The
entries survive a reload of the page in the session storage.

A uuid is a number that was not drawn before. A request is a channel and the text of its
input, of which the source keeps the JSON of the pair.
-/

namespace Argmax.Renderer.RemoteOperations

open Argmax.Lib

/-- `remoteReadChannels.json`. -/
def readChannels : List String :=
  ["activity:summary", "approvals:pending", "arc:get", "arc:list", "arc:timeline",
    "checkpoints:list", "checkpoints:preview-rewind", "cloud:prepare", "dashboard:changes",
    "dashboard:list", "goal:get", "goal:list", "health:ping", "learnings:list",
    "projects:get-folder-context", "projects:get-folders", "projects:list",
    "projects:list-branches", "projects:list-checkouts", "providers:discover",
    "prs:list-for-session", "remote:push-capability", "review:list-changed-files",
    "review:load-diff", "session:agent-events", "session:cost-summary", "session:events-since",
    "session:fork-lineage", "session:fork-merge-preview", "session:search", "settings:routing",
    "skills:list", "sources:list", "system:debug-snapshot", "system:list-detected-ides",
    "system:performance-capture", "system:performance-start", "system:performance-status",
    "system:performance-stop", "usage:remaining", "usage:router-cost", "usage:summary",
    "visualization:export", "visualization:read", "workspace:grep-content",
    "workspace:list-files", "workspace:read-external-file", "workspace:read-file",
    "workspace:stat-external-file", "workspace:stat-file", "workspace:status"]

structure RemoteOperation where
  clientId : ℕ
  operationId : ℕ
  deriving DecidableEq

structure Request where
  channel : String
  input : String
  deriving DecidableEq

structure UnresolvedOperation where
  request : Request
  identity : RemoteOperation
  sent : Bool
  owner : ℕ
  uncertain : Bool
  hostInterrupted : Bool

/-- Entries are found by this part of their identity. -/
def UnresolvedOperation.operationId (entry : UnresolvedOperation) : ℕ :=
  entry.identity.operationId

/-- What the browser keeps of the actions. Every identity in it was drawn. -/
structure Storage where
  clientId : Option ℕ
  unresolved : Table UnresolvedOperation.operationId
  /-- The uuids below this one are taken. -/
  nextUuid : ℕ
  drawn : ∀ entry ∈ unresolved, entry.operationId < nextUuid

namespace Storage

def empty : Storage := ⟨none, .empty, 0, by simp⟩

/-- `uuidV4`. -/
def draw (s : Storage) : Storage :=
  { s with nextUuid := s.nextUuid + 1, drawn := fun e he => by have := s.drawn e he; omega }

/-- The entry of an identity. -/
def entry (s : Storage) (operation : RemoteOperation) : Option UnresolvedOperation :=
  s.unresolved.find? operation.operationId

/-- Rewrite the entry of an identity. -/
def modify (s : Storage) (operation : RemoteOperation)
    (f : UnresolvedOperation → UnresolvedOperation)
    (hf : ∀ e, (f e).operationId = e.operationId) : Storage where
  clientId := s.clientId
  unresolved := s.unresolved.update
    (fun e => if e.operationId = operation.operationId then f e else e)
    (fun e => by split <;> simp [hf])
  nextUuid := s.nextUuid
  drawn := by
    simp only [Table.mem_update]
    rintro _ ⟨e, he, rfl⟩
    split
    · rw [hf]
      exact s.drawn e he
    · exact s.drawn e he

/-- Another owner waits for the action. -/
def takeOver (s : Storage) (operation : RemoteOperation) (owner : ℕ) : Storage :=
  s.modify operation (fun e => { e with owner := owner, uncertain := false }) fun _ => rfl

/-- Forget the entry of an identity. -/
def remove (s : Storage) (operation : RemoteOperation) : Storage where
  clientId := s.clientId
  unresolved := s.unresolved.delete fun e => e.operationId = operation.operationId
  nextUuid := s.nextUuid
  drawn e he := s.drawn e (Table.mem_delete.mp he).1

/-- Write a new identity down. -/
def register (s : Storage) (request : Request) (owner : ℕ) : RemoteOperation × Storage :=
  let clientId := s.clientId.getD s.nextUuid
  let s := if s.clientId.isNone then s.draw else s
  let identity : RemoteOperation := ⟨clientId, s.nextUuid⟩
  have hfree : s.unresolved.find? s.nextUuid = none :=
    Table.find?_eq_none.mpr fun e he => Nat.ne_of_lt (s.drawn e he)
  (identity,
    { clientId := some clientId
      unresolved := s.unresolved.push ⟨request, identity, false, owner, false, false⟩ hfree
      nextUuid := s.nextUuid + 1
      drawn := by
        intro e he
        rcases Table.mem_push.mp he with he | rfl
        · have := s.drawn e he
          omega
        · exact Nat.lt_succ_self _ })

end Storage

/-- The first entry of the action that nobody waits for. -/
def reusable (s : Storage) (request : Request) (owner : ℕ) : Option UnresolvedOperation :=
  s.unresolved.rows.find? fun e => e.request = request && (e.uncertain || e.owner ≠ owner)

def unconfirmedMessage : String := "Action left unconfirmed. Nothing new was sent."

/-- `confirm` is what the user answers when the host stopped during the action. -/
def prepareRemoteOperation (s : Storage) (request : Request) (owner : ℕ) (confirm : Bool) :
    Except String (Option RemoteOperation) × Storage :=
  if request.channel ∈ readChannels then (.ok none, s)
  else
    match reusable s request owner with
    | some existing =>
      if existing.hostInterrupted then
        if confirm then
          let (identity, s) := (s.remove existing.identity).register request owner
          (.ok (some identity), s)
        else (.error unconfirmedMessage, s)
      else
        (.ok (some existing.identity), s.takeOver existing.identity owner)
    | none =>
      let (identity, s) := s.register request owner
      (.ok (some identity), s)

/-- The action that the user gives up for a new one. -/
def renewed (s : Storage) (request : Request) (owner : ℕ) (confirm : Bool) :
    Option RemoteOperation :=
  if request.channel ∈ readChannels then none
  else ((reusable s request owner).filter fun e => e.hostInterrupted && confirm).map (·.identity)

def settleRemoteOperation (s : Storage) (operation : RemoteOperation) : Storage :=
  s.remove operation

def remoteOperationWasSent (s : Storage) (operation : RemoteOperation) : Bool :=
  (s.entry operation).any (·.sent)

def identityLostMessage : String :=
  "Remote action identity was lost before sending. Reload before trying again."

def markRemoteOperationSent (s : Storage) (operation : RemoteOperation) : Except String Storage :=
  if (s.entry operation).isNone then .error identityLostMessage
  else .ok (s.modify operation (fun e => { e with sent := true }) fun _ => rfl)

def markRemoteOperationUncertain (s : Storage) (operation : RemoteOperation)
    (hostInterrupted : Bool) : Storage :=
  s.modify operation
    (fun e => { e with uncertain := true, hostInterrupted := e.hostInterrupted || hostInterrupted })
    fun _ => rfl

variable {operation operation' : RemoteOperation} {e : UnresolvedOperation}

/-! ## What the operations leave in the registry -/

namespace Storage

variable {s : Storage}

theorem entry_eq_some :
    s.entry operation = some e ↔ e ∈ s.unresolved ∧ e.operationId = operation.operationId :=
  Table.find?_eq_some

theorem entry_of_mem (he : e ∈ s.unresolved) : s.entry e.identity = some e :=
  Table.find?_of_mem he

theorem entry_modify (f : UnresolvedOperation → UnresolvedOperation)
    (hf : ∀ e, (f e).operationId = e.operationId) :
    (s.modify operation f hf).entry operation' =
      (s.entry operation').map fun e =>
        if operation'.operationId = operation.operationId then f e else e := by
  ext e'
  simp only [entry, modify, Table.find?_update, Option.map_eq_some_iff]
  constructor <;> rintro ⟨e, he, rfl⟩ <;> refine ⟨e, he, ?_⟩ <;> rw [Table.key_of_find? he]

theorem entry_takeOver {owner : ℕ} :
    (s.takeOver operation owner).entry operation' =
      (s.entry operation').map fun e =>
        if operation'.operationId = operation.operationId then
          { e with owner := owner, uncertain := false }
        else e :=
  entry_modify (fun e => { e with owner := owner, uncertain := false }) fun _ => rfl

theorem entry_remove :
    (s.remove operation).entry operation' =
      if operation'.operationId = operation.operationId then none else s.entry operation' := by
  ext e
  simp only [entry_eq_some, remove, Table.mem_delete, decide_eq_false_iff_not]
  split <;> rename_i h
  · simp only [reduceCtorEq, iff_false]
    rintro ⟨⟨-, hne⟩, he⟩
    exact hne (he.trans h)
  · rw [entry_eq_some]
    constructor
    · rintro ⟨⟨he, -⟩, hid⟩
      exact ⟨he, hid⟩
    · rintro ⟨he, hid⟩
      exact ⟨⟨he, fun h' => h (hid.symm.trans h')⟩, hid⟩

theorem register_operationId_ge (request : Request) (owner : ℕ) :
    s.nextUuid ≤ (s.register request owner).1.operationId := by
  simp only [register]
  split <;> simp [draw]

theorem register_operationId_lt (request : Request) (owner : ℕ) :
    (s.register request owner).1.operationId < (s.register request owner).2.nextUuid := by
  simp [register]

theorem entry_register {request : Request} {owner : ℕ} :
    (s.register request owner).2.entry operation =
      if operation.operationId = (s.register request owner).1.operationId
      then some ⟨request, (s.register request owner).1, false, owner, false, false⟩
      else s.entry operation := by
  have hsame : (if s.clientId.isNone then s.draw else s).unresolved = s.unresolved := by
    split <;> rfl
  simp only [register, entry, Table.find?_push, hsame]
  simp only [UnresolvedOperation.operationId, eq_comm]

end Storage

theorem entry_settleRemoteOperation {s : Storage} :
    (settleRemoteOperation s operation).entry operation' =
      if operation'.operationId = operation.operationId then none else s.entry operation' :=
  Storage.entry_remove

theorem entry_markRemoteOperationUncertain {s : Storage} {hostInterrupted : Bool} :
    (markRemoteOperationUncertain s operation hostInterrupted).entry operation' =
      (s.entry operation').map fun e =>
        if operation'.operationId = operation.operationId then
          { e with
            uncertain := true, hostInterrupted := e.hostInterrupted || hostInterrupted }
        else e :=
  Storage.entry_modify (fun e =>
    { e with uncertain := true, hostInterrupted := e.hostInterrupted || hostInterrupted })
    fun _ => rfl

/-- An action whose entry is there can be sent. -/
theorem markRemoteOperationSent_of_entry {s : Storage} (he : s.entry operation = some e) :
    ∃ s', markRemoteOperationSent s operation = .ok s' ∧ s'.nextUuid = s.nextUuid ∧
      ∀ operation', s'.entry operation' = (s.entry operation').map fun e =>
        if operation'.operationId = operation.operationId then { e with sent := true } else e := by
  exact ⟨_, if_neg (by simp [he]), rfl,
    fun _ => Storage.entry_modify (fun e => { e with sent := true }) fun _ => rfl⟩

section Prepare

variable {s s' : Storage} {request : Request} {owner : ℕ} {confirm : Bool}

theorem reusable_eq_some (h : reusable s request owner = some e) :
    e ∈ s.unresolved ∧ e.request = request ∧ (e.uncertain = true ∨ e.owner ≠ owner) := by
  refine ⟨List.mem_of_find?_eq_some h, ?_⟩
  simpa using List.find?_some h

/-- A read has no identity and leaves the registry. -/
theorem prepare_none (h : prepareRemoteOperation s request owner confirm = (.ok none, s')) :
    s' = s ∧ renewed s request owner confirm = none := by
  unfold prepareRemoteOperation at h
  split at h
  · rename_i hread
    cases h
    exact ⟨rfl, by simp [renewed, hread]⟩
  · split at h
    · split at h
      · split at h <;> cases h
      · cases h
    · cases h

theorem prepare_error {message : String}
    (h : prepareRemoteOperation s request owner confirm = (.error message, s')) :
    s' = s ∧ renewed s request owner confirm = none := by
  unfold prepareRemoteOperation at h
  split at h
  · cases h
  · split at h
    · rename_i e he
      split at h
      · split at h
        · cases h
        · rename_i hconfirm
          cases h
          exact ⟨rfl, by simp [renewed, hconfirm]⟩
      · cases h
    · cases h

/-- An action takes over the first entry that nobody waits for, or it is written down under a
new identity, then perhaps in the place of an entry that the user gives up. -/
theorem prepare_some
    (h : prepareRemoteOperation s request owner confirm = (.ok (some operation), s')) :
    request.channel ∉ readChannels ∧
      ((∃ e, reusable s request owner = some e ∧ e.identity = operation ∧
          renewed s request owner confirm = none ∧
          s' = s.takeOver operation owner) ∨
        (∃ e, reusable s request owner = some e ∧
          renewed s request owner confirm = some e.identity ∧
          (operation, s') = (s.remove e.identity).register request owner) ∨
        (renewed s request owner confirm = none ∧ (operation, s') = s.register request owner)) := by
  unfold prepareRemoteOperation at h
  split at h
  · cases h
  · rename_i hread
    refine ⟨hread, ?_⟩
    split at h
    · rename_i e he
      split at h
      · rename_i hint
        split at h
        · rename_i hconfirm
          cases h
          exact .inr (.inl ⟨e, he, by simp [renewed, hread, he, hint, hconfirm], rfl⟩)
        · cases h
      · rename_i hint
        cases h
        exact .inl ⟨e, he, rfl, by simp [renewed, he, hint], rfl⟩
    · rename_i he
      cases h
      exact .inr (.inr ⟨by simp [renewed, he], rfl⟩)

/-- **A kept action is not run again.** While some entry of the action waits to be asked for,
asking for the action gives the first such entry, unless the host stopped during it. -/
theorem prepare_of_reusable (hread : request.channel ∉ readChannels)
    (he : reusable s request owner = some e) (hint : e.hostInterrupted = false) :
    (prepareRemoteOperation s request owner confirm).1 = .ok (some e.identity) := by
  simp [prepareRemoteOperation, hread, he, hint]

theorem exists_reusable (he : e ∈ s.unresolved) (hfree : e.uncertain = true ∨ e.owner ≠ owner) :
    ∃ e', reusable s e.request owner = some e' := by
  rw [← Option.isSome_iff_exists, reusable, List.find?_isSome]
  exact ⟨e, he, by simpa using hfree⟩

end Prepare

end Argmax.Renderer.RemoteOperations
