import Argmax.Persistence.Events
import Mathlib.Data.String.Basic

/-!
# Provider bindings

`persistence/continuity.rs` and the writes of `persistence/sessions.rs` that keep it. A session
holds at most one live conversation with its provider. A switch of the provider parks the
conversation with the newest event it had seen, and a return rejoins it.

The tables are those of one session. Its events are rows of the table of all events.
-/

namespace Argmax.Persistence.Continuity

open Argmax.Lib

inductive BindingState where
  | active
  | parked
  | invalid
  deriving DecidableEq

structure ProviderBinding where
  id : ℕ
  provider : String
  conversationId : String
  workingDir : String
  configIdentity : String
  deliveredThroughEventId : Option String
  pendingSinceEventId : Option String
  state : BindingState
  invalidReason : Option String
  updatedAt : String

/-- `UNIQUE (session_id, provider, conversation_id)`. -/
def ProviderBinding.key (binding : ProviderBinding) : String × String :=
  (binding.provider, binding.conversationId)

/-- A row of `provider_binding_turns`. -/
structure BindingTurn where
  bindingId : ℕ
  userEventId : String
  providerTurnId : String

def BindingTurn.key (turn : BindingTurn) : ℕ × String := (turn.bindingId, turn.userEventId)

/-- The rows of a session, with the workspace and the configuration a launch meets. -/
structure SessionTables where
  sessionId : String
  events : EventTable
  provider : String
  providerConversationId : Option String
  bindings : Table ProviderBinding.key
  turns : Table BindingTurn.key
  /-- How many bindings were made. -/
  nextBindingId : ℕ
  workspacePath : String
  /-- `config_identity`: the environment of the process, hashed. -/
  configIdentity : String → String

/-! ## The newest event -/

/-- `ORDER BY rowid DESC LIMIT 1`. -/
def newest (events : EventTable) (p : EventRow → Bool) : Option EventRow :=
  (events.rows.filter p).argmax (·.rowid)

theorem newest_eq_some {events : EventTable} {p : EventRow → Bool} {event : EventRow}
    (h : newest events p = some event) :
    event ∈ events ∧ p event = true ∧
      ∀ other ∈ events, p other = true → other.rowid ≤ event.rowid := by
  have hmem : event ∈ events.rows.filter p := List.argmax_mem h
  obtain ⟨hin, hp⟩ := List.mem_filter.mp hmem
  exact ⟨hin, hp, fun other ho hpo => List.le_of_mem_argmax (List.mem_filter.mpr ⟨ho, hpo⟩) h⟩

theorem newest_eq_none {events : EventTable} {p : EventRow → Bool} :
    newest events p = none ↔ ∀ event ∈ events, p event = false := by
  rw [newest]
  simp [Table.mem_def]

namespace SessionTables

variable (db : SessionTables)

def newestEventId : Option String :=
  (newest db.events fun event => event.sessionId == db.sessionId).map (·.id)

/-- The newest prompt. -/
def newestPrompt : Option EventRow :=
  newest db.events fun event => event.sessionId == db.sessionId && event.type == "user.message"

end SessionTables

/-- Anything the provider produced: not the person's own message, an error, or a lifecycle
marker. -/
def isOutput (type : String) : Bool :=
  type != "user.message" && type != "error" && !("session.".toList.isPrefixOf type.toList)

/-- The provider showed output after the newest prompt, or there is none. -/
def SessionTables.answered (db : SessionTables) : Bool :=
  db.newestPrompt.all fun prompt => db.events.rows.any fun event =>
    event.sessionId == db.sessionId && decide (prompt.rowid < event.rowid) && isOutput event.type

def SessionTables.deliveredBoundary (db : SessionTables) : Option String :=
  match db.newestPrompt with
  | some prompt =>
    if db.answered then db.newestEventId
    else
      (newest db.events fun event =>
        event.sessionId == db.sessionId && decide (event.rowid < prompt.rowid)).map (·.id)
  | none => db.newestEventId

/-! ## Statements -/

/-- The row that `bind_active` writes, over the one that is there. -/
def SessionTables.boundRow (db : SessionTables) (conversationId now : String) :
    Option ProviderBinding → ProviderBinding
  | some existing =>
    { existing with
      workingDir := db.workspacePath
      configIdentity := db.configIdentity db.provider
      state := .active
      invalidReason := none
      updatedAt := now }
  | none =>
    { id := db.nextBindingId
      provider := db.provider
      conversationId := conversationId
      workingDir := db.workspacePath
      configIdentity := db.configIdentity db.provider
      deliveredThroughEventId := none
      pendingSinceEventId := none
      state := .active
      invalidReason := none
      updatedAt := now }

def SessionTables.bindActive (db : SessionTables) (conversationId now : String) : SessionTables :=
  let superseded := fun binding : ProviderBinding =>
    binding.provider == db.provider && binding.conversationId != conversationId
  let gone := (db.bindings.rows.filter superseded).map (·.id)
  let bindings := db.bindings.delete superseded
  { db with
    bindings :=
      bindings.put (db.boundRow conversationId now (bindings.find? (db.provider, conversationId)))
    turns := db.turns.delete fun turn => gone.contains turn.bindingId
    nextBindingId := db.nextBindingId + 1 }

/-- What a switch makes of a binding. -/
def ProviderBinding.park (binding : ProviderBinding) (boundary : Option String) (now : String) :
    ProviderBinding :=
  if binding.state = .active then
    { binding with
      state := .parked
      deliveredThroughEventId := binding.pendingSinceEventId.or boundary
      pendingSinceEventId := none
      updatedAt := now }
  else binding

@[simp] theorem ProviderBinding.key_park (binding : ProviderBinding) (boundary : Option String)
    (now : String) : (binding.park boundary now).key = binding.key := by
  unfold park
  split <;> rfl

def SessionTables.parkActive (db : SessionTables) (now : String) : SessionTables :=
  { db with
    bindings := db.bindings.update (fun binding => binding.park db.deliveredBoundary now)
      fun binding => binding.key_park db.deliveredBoundary now }

def SessionTables.findParked (db : SessionTables) (provider : String) : Option ProviderBinding :=
  (db.bindings.rows.filter fun binding =>
    binding.provider == provider && binding.state == .parked).argmax (·.updatedAt)

def SessionTables.findBinding (db : SessionTables) (provider conversationId : String) :
    Option ProviderBinding :=
  db.bindings.find? (provider, conversationId)

/-- Rewrite the row of a conversation. -/
def SessionTables.updateBinding (db : SessionTables) (provider conversationId : String)
    (f : ProviderBinding → ProviderBinding) (hf : ∀ binding, (f binding).key = binding.key) :
    SessionTables :=
  { db with
    bindings := db.bindings.update
      (fun binding => if binding.key = (provider, conversationId) then f binding else binding)
      fun binding => by split <;> simp [hf] }

/-- `set_pending_since`, of one row. -/
def ProviderBinding.owe (eventId now : String) (binding : ProviderBinding) : ProviderBinding :=
  { binding with pendingSinceEventId := some eventId, updatedAt := now }

@[simp] theorem ProviderBinding.key_owe (eventId now : String) (binding : ProviderBinding) :
    (binding.owe eventId now).key = binding.key := rfl

def SessionTables.setPendingSince (db : SessionTables) (provider conversationId eventId now : String) :
    SessionTables :=
  db.updateBinding provider conversationId (ProviderBinding.owe eventId now)
    (ProviderBinding.key_owe eventId now)

/-- `clear_pending_since`, of one row. -/
def ProviderBinding.settle (binding : ProviderBinding) : ProviderBinding :=
  if binding.state = .active then { binding with pendingSinceEventId := none } else binding

@[simp] theorem ProviderBinding.key_settle (binding : ProviderBinding) :
    binding.settle.key = binding.key := by
  unfold settle
  split <;> rfl

@[simp] theorem ProviderBinding.state_settle (binding : ProviderBinding) :
    binding.settle.state = binding.state := by
  unfold settle
  split <;> rfl

def SessionTables.clearPendingSince (db : SessionTables) : SessionTables :=
  { db with bindings := db.bindings.update ProviderBinding.settle ProviderBinding.key_settle }

/-- `invalidate_binding`, of one row. -/
def ProviderBinding.invalidate (reason now : String) (binding : ProviderBinding) :
    ProviderBinding :=
  { binding with state := .invalid, invalidReason := some reason, updatedAt := now }

@[simp] theorem ProviderBinding.key_invalidate (reason now : String) (binding : ProviderBinding) :
    (binding.invalidate reason now).key = binding.key := rfl

def SessionTables.invalidateBinding (db : SessionTables) (provider conversationId reason now : String) :
    SessionTables :=
  db.updateBinding provider conversationId (ProviderBinding.invalidate reason now)
    (ProviderBinding.key_invalidate reason now)

/-- `invalidate_session_bindings`, of one row. -/
def ProviderBinding.distrust (reason now : String) (binding : ProviderBinding) : ProviderBinding :=
  if binding.state ≠ .invalid then binding.invalidate reason now else binding

@[simp] theorem ProviderBinding.key_distrust (reason now : String) (binding : ProviderBinding) :
    (binding.distrust reason now).key = binding.key := by
  rw [distrust]
  split <;> rfl

@[simp] theorem ProviderBinding.state_distrust (reason now : String) (binding : ProviderBinding) :
    (binding.distrust reason now).state = .invalid := by
  rw [distrust]
  split
  · rfl
  · simp_all

def SessionTables.invalidateSessionBindings (db : SessionTables) (reason now : String) :
    SessionTables :=
  { db with
    bindings := db.bindings.update (ProviderBinding.distrust reason now)
      (ProviderBinding.key_distrust reason now) }

def SessionTables.bindingTurn (db : SessionTables) (provider conversationId userEventId : String) :
    Option String :=
  (db.bindings.find? (provider, conversationId)).bind fun binding =>
    (db.turns.find? (binding.id, userEventId)).map (·.providerTurnId)

def SessionTables.forgetActivePointer (db : SessionTables) : SessionTables :=
  { db with providerConversationId := none }

def SessionTables.recordBindingTurn (db : SessionTables) (provider conversationId userEventId
    providerTurnId : String) : SessionTables :=
  match db.findBinding provider conversationId with
  | none => db
  | some binding => { db with turns := db.turns.put ⟨binding.id, userEventId, providerTurnId⟩ }

def SessionTables.updateSessionProvider (db : SessionTables) (provider now : String) : SessionTables :=
  { db.parkActive now with provider := provider, providerConversationId := none }

def SessionTables.updateSessionProviderConversationId (db : SessionTables) (conversationId now : String) :
    SessionTables :=
  { db with providerConversationId := some conversationId }.bindActive conversationId now

variable {provider : String}

/-! ## What the statements leave -/

namespace SessionTables

variable {db : SessionTables} {binding : ProviderBinding} {conversationId now : String}

theorem key_boundRow {existing : Option ProviderBinding}
    (h : ∀ before ∈ existing, before.key = (db.provider, conversationId)) :
    (db.boundRow conversationId now existing).key = (db.provider, conversationId) := by
  cases existing with
  | none => rfl
  | some before => exact h before rfl

theorem state_boundRow {existing : Option ProviderBinding} :
    (db.boundRow conversationId now existing).state = .active := by
  cases existing <;> rfl

theorem pendingSince_boundRow {existing : Option ProviderBinding} :
    (db.boundRow conversationId now existing).pendingSinceEventId =
      existing.bind (·.pendingSinceEventId) := by
  cases existing <;> rfl

/-- `bind_active` leaves one row of the provider. -/
theorem mem_bindActive : binding ∈ (db.bindActive conversationId now).bindings ↔
    binding = db.boundRow conversationId now (db.findBinding db.provider conversationId) ∨
      (binding ∈ db.bindings ∧ binding.provider ≠ db.provider) := by
  have hfind : (db.bindings.delete fun binding => binding.provider == db.provider &&
      binding.conversationId != conversationId).find? (db.provider, conversationId) =
        db.findBinding db.provider conversationId := by
    rw [Table.find?_delete, findBinding]
    cases hexisting : db.bindings.find? (db.provider, conversationId) with
    | none => rfl
    | some existing =>
      have hid : existing.conversationId = conversationId :=
        congrArg Prod.snd (Table.key_of_find? hexisting)
      simp [hid]
  have hkey : (db.boundRow conversationId now (db.findBinding db.provider conversationId)).key =
      (db.provider, conversationId) :=
    key_boundRow fun before hbefore => Table.key_of_find? hbefore
  simp only [bindActive, hfind, Table.mem_put, Table.mem_delete, hkey]
  refine or_congr_right ⟨?_, ?_⟩
  · rintro ⟨⟨hmem, hkept⟩, hne⟩
    refine ⟨hmem, fun hprovider => hne ?_⟩
    simp only [hprovider, beq_self_eq_true, Bool.true_and, bne_eq_false_iff_eq] at hkept
    rw [ProviderBinding.key, hprovider, hkept]
  · rintro ⟨hmem, hne⟩
    exact ⟨⟨hmem, by simp [hne]⟩, fun heq => hne (congrArg Prod.fst heq)⟩

theorem mem_parkActive : binding ∈ (db.parkActive now).bindings ↔
    ∃ before ∈ db.bindings, before.park db.deliveredBoundary now = binding := by
  simp only [parkActive, Table.mem_update]

theorem findParked_eq_some (h : db.findParked provider = some binding) :
    binding ∈ db.bindings ∧ binding.provider = provider ∧ binding.state = .parked := by
  have hmem := List.argmax_mem h
  simpa [Table.mem_def] using List.mem_filter.mp hmem

theorem findParked_eq_none (h : db.findParked provider = none) (hmem : binding ∈ db.bindings)
    (hparked : binding.state = .parked) : binding.provider ≠ provider := by
  rw [findParked, List.argmax_eq_none, List.filter_eq_nil_iff] at h
  intro heq
  exact h binding hmem (by simp [heq, hparked])

theorem mem_updateBinding (f : ProviderBinding → ProviderBinding)
    (hf : ∀ binding, (f binding).key = binding.key) :
    binding ∈ (db.updateBinding provider conversationId f hf).bindings ↔
      ∃ before ∈ db.bindings,
        (if before.key = (provider, conversationId) then f before else before) = binding := by
  simp only [updateBinding, Table.mem_update]

theorem of_mem_invalidateBinding {reason : String}
    (h : binding ∈ (db.invalidateBinding provider conversationId reason now).bindings) :
    ∃ before ∈ db.bindings, binding.key = before.key ∧
      (before.key = (provider, conversationId) ∧ binding.state = .invalid ∨
        before.key ≠ (provider, conversationId) ∧ binding = before) := by
  obtain ⟨before, hmem, rfl⟩ := (mem_updateBinding _ (ProviderBinding.key_invalidate reason now)).mp h
  refine ⟨before, hmem, ?_⟩
  split
  case isTrue heq => exact ⟨rfl, .inl ⟨heq, rfl⟩⟩
  case isFalse hne => exact ⟨rfl, .inr ⟨hne, rfl⟩⟩

theorem mem_invalidateBinding_of_mem {reason : String} (h : binding ∈ db.bindings) :
    ∃ after ∈ (db.invalidateBinding provider conversationId reason now).bindings,
      after.key = binding.key ∧ after.pendingSinceEventId = binding.pendingSinceEventId ∧
        (binding.key ≠ (provider, conversationId) → after = binding) := by
  refine ⟨_, (mem_updateBinding _ (ProviderBinding.key_invalidate reason now)).mpr
    ⟨binding, h, rfl⟩, ?_⟩
  split
  case isTrue heq => exact ⟨rfl, rfl, fun hne => absurd heq hne⟩
  case isFalse hne => exact ⟨rfl, rfl, fun _ => rfl⟩

theorem mem_clearPendingSince : binding ∈ db.clearPendingSince.bindings ↔
    ∃ before ∈ db.bindings, before.settle = binding := by
  simp only [clearPendingSince, Table.mem_update]

theorem findBinding_eq_some :
    db.findBinding provider conversationId = some binding ↔
      binding ∈ db.bindings ∧ binding.key = (provider, conversationId) :=
  Table.find?_eq_some

end SessionTables

end Argmax.Persistence.Continuity
