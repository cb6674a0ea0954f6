import Argmax.Lib.Text
import Argmax.Lib.Transaction
import Argmax.Persistence.PendingConservation

/-!
# Replacement of a queue

`replace_session_queue` and `list_session_pending_messages` of
`persistence/pending_messages.rs`, with the statements of the transaction, any of which the
store may fail, and with the columns that a message is written to and read from.

The texts of the JSON columns are modelled by their values. A record is read from an object: that
`serde` reads one from an array as well is left out, since no column is written so.
-/

namespace Argmax.Persistence.PendingMessages

open Argmax.Lib

/-! ## Columns -/

def attachmentByteCap : ℕ := 10 * 1024 * 1024

/-- `AttachmentMimeType`. -/
def mimeTypes : List String := ["image/png", "image/jpeg", "image/gif", "image/webp"]

/-- `validate_attachment_path`. -/
def isAttachmentPath (path : String) : Bool :=
  let text := path.toList
  text.head? == some '/' && !text.contains '\x00' && decide (Text.byteLength text ≤ 2048)

/-- What the fields of `ComposerAttachmentInput` check when they are read. -/
def ComposerAttachment.isValid (attachment : ComposerAttachment) : Bool :=
  isAttachmentPath attachment.filePath && mimeTypes.contains attachment.mimeType &&
    decide (0 < attachment.sizeBytes) && decide (attachment.sizeBytes ≤ attachmentByteCap)

/-- What the fields of `AgentReference` check when they are read. -/
def AgentReference.isValid (reference : AgentReference) : Bool :=
  reference.name != "" && reference.providerChildSessionId != "" &&
    reference.providerParentConversationId != ""

/-- A message as the program can hold it: whatever it carries passed its checks. -/
def PendingMessage.isValid (message : PendingMessage) : Bool :=
  message.attachments.all (·.isValid) && message.agentReferences.all (·.isValid)

/-- `Value::as_u64`. -/
def asU64 : Json → Option ℕ
  | .number (.posInt n) => some n
  | _ => none

/-- No field is given twice, and with `deny_unknown_fields` every field is a known one. -/
def isRecord (known : List String) (value : Json) : Bool :=
  match value with
  | .object fields => decide (fields.map (·.1)).Nodup && fields.all fun field =>
      known.contains field.1
  | _ => false

def attachmentJson (attachment : ComposerAttachment) : Json :=
  .object [("filePath", .string attachment.filePath), ("mimeType", .string attachment.mimeType),
    ("sizeBytes", .number (.posInt attachment.sizeBytes))]

def parseAttachment (value : Json) : Option ComposerAttachment :=
  if isRecord ["filePath", "mimeType", "sizeBytes"] value then do
    let filePath ← (value.get "filePath").bind Json.asStr
    let mimeType ← (value.get "mimeType").bind Json.asStr
    let sizeBytes ← (value.get "sizeBytes").bind asU64
    let attachment : ComposerAttachment := ⟨filePath, mimeType, sizeBytes⟩
    if attachment.isValid then some attachment else none
  else none

def agentReferenceJson (reference : AgentReference) : Json :=
  .object [("name", .string reference.name),
    ("providerChildSessionId", .string reference.providerChildSessionId),
    ("providerParentConversationId", .string reference.providerParentConversationId)]

def parseAgentReference (value : Json) : Option AgentReference :=
  if isRecord ["name", "providerChildSessionId", "providerParentConversationId"] value then do
    let name ← (value.get "name").bind Json.asStr
    let child ← (value.get "providerChildSessionId").bind Json.asStr
    let parent ← (value.get "providerParentConversationId").bind Json.asStr
    let reference : AgentReference := ⟨name, child, parent⟩
    if reference.isValid then some reference else none
  else none

/-- The message id is left out when there is none. -/
def originJson (origin : MessageOrigin) : Json :=
  .object ([("sessionId", .string origin.sessionId), ("label", .string origin.label),
    ("kind", .string origin.kind)] ++
      (origin.messageId.map fun messageId => ("messageId", .string messageId)).toList)

/-- Unknown fields are let through, and a missing message id is none. -/
def parseOrigin (value : Json) : Option MessageOrigin := do
  let sessionId ← (value.get "sessionId").bind Json.asStr
  let label ← (value.get "label").bind Json.asStr
  let kind ← (value.get "kind").bind Json.asStr
  match value.get "messageId" with
  | none | some .null => some ⟨sessionId, label, kind, none⟩
  | some (.string messageId) => some ⟨sessionId, label, kind, some messageId⟩
  | some _ => none

/-- `ProviderId::as_str`. -/
def providerText : ProviderId → String
  | .claude => "claude"
  | .codex => "codex"
  | .cursor => "cursor"
  | .opencode => "opencode"
  | .grok => "grok"

/-- The columns of a row, as the insert binds them. -/
structure Columns where
  id : String
  sessionId : String
  position : ℕ
  content : String
  agentMode : String
  provider : Option String
  modelLabel : Option String
  modelId : Option String
  reasoningEffort : Option String
  fastMode : ℤ
  attachmentsJson : List Json
  agentReferencesJson : List Json
  originJson : Option Json
  queuedAt : String
  deliveryState : DeliveryState
  promptAuthor : Option String

/-- What `insert_message` binds. -/
def columns (row : PendingRow) : Columns where
  id := row.message.id
  sessionId := row.message.sessionId
  position := row.position
  content := row.message.content
  agentMode := row.message.agentMode
  provider := row.message.provider.map providerText
  modelLabel := row.message.modelLabel
  modelId := row.message.modelId
  reasoningEffort := row.message.reasoningEffort
  fastMode := if row.message.fastMode then 1 else 0
  attachmentsJson := row.message.attachments.map attachmentJson
  agentReferencesJson := row.message.agentReferences.map agentReferenceJson
  originJson := row.message.origin.map originJson
  queuedAt := row.message.queuedAt
  deliveryState := row.deliveryState
  promptAuthor := if row.message.person then some "person" else none

/-- An optional column whose value has to be readable. -/
def readOptional {α β : Type} (read : α → Option β) : Option α → Option (Option β)
  | none => some none
  | some value => (read value).map some

/-- `row_to_pending_message`, from the columns. -/
def readMessage (row : Columns) : Option PendingMessage := do
  let provider ← readOptional (fun value => (parseProvider value).toOption) row.provider
  let attachments ← row.attachmentsJson.mapM parseAttachment
  let agentReferences ← row.agentReferencesJson.mapM parseAgentReference
  let origin ← readOptional parseOrigin row.originJson
  some
    { id := row.id
      sessionId := row.sessionId
      content := row.content
      agentMode := "auto"
      provider := provider
      modelLabel := row.modelLabel
      modelId := row.modelId
      reasoningEffort := row.reasoningEffort
      fastMode := row.fastMode != 0
      attachments := attachments
      agentReferences := agentReferences
      origin := origin
      recoveryStatus :=
        match row.deliveryState with
        | .recovered => some .unsent
        | .deliveryUnknown | .launching => some .deliveryUnknown
        | .pending => none
      queuedAt := row.queuedAt
      person := row.promptAuthor == some "person" }

/-! ## Reading back -/

theorem mapM_map_eq_some {α β : Type} {write : α → β} {read : β → Option α} {values : List α}
    (h : ∀ value ∈ values, read (write value) = some value) :
    (values.map write).mapM read = some values := by
  induction values with
  | nil => rfl
  | cons value values ih =>
    rw [List.forall_mem_cons] at h
    simp [h.1, ih h.2]

theorem readOptional_map {α β : Type} {write : α → β} {read : β → Option α} {value : Option α}
    (h : ∀ v, value = some v → read (write v) = some v) :
    readOptional read (value.map write) = some value := by
  cases value with
  | none => rfl
  | some v => simp [readOptional, h v rfl]

theorem parseAttachment_attachmentJson {attachment : ComposerAttachment}
    (h : attachment.isValid = true) :
    parseAttachment (attachmentJson attachment) = some attachment := by
  simp [parseAttachment, attachmentJson, isRecord, Json.get, Json.asStr, asU64, h]

theorem parseAgentReference_agentReferenceJson {reference : AgentReference}
    (h : reference.isValid = true) :
    parseAgentReference (agentReferenceJson reference) = some reference := by
  simp [parseAgentReference, agentReferenceJson, isRecord, Json.get, Json.asStr, h]

theorem parseOrigin_originJson (origin : MessageOrigin) :
    parseOrigin (originJson origin) = some origin := by
  obtain ⟨sessionId, label, kind, messageId⟩ := origin
  cases messageId <;> simp [parseOrigin, originJson, Json.get, Json.asStr]

theorem parseProvider_providerText (provider : ProviderId) :
    (parseProvider (providerText provider)).toOption = some provider := by
  cases provider <;> rfl

/-- What is written of a valid message reads back as the row does. -/
theorem readMessage_columns {row : PendingRow} (h : row.message.isValid = true) :
    readMessage (columns row) = some (rowToPendingMessage row) := by
  simp only [PendingMessage.isValid, Bool.and_eq_true, List.all_eq_true] at h
  have hprovider : readOptional (fun value => (parseProvider value).toOption)
      (row.message.provider.map providerText) = some row.message.provider :=
    readOptional_map fun provider _ => parseProvider_providerText provider
  have hattachments : (row.message.attachments.map attachmentJson).mapM parseAttachment =
      some row.message.attachments :=
    mapM_map_eq_some fun attachment hattachment =>
      parseAttachment_attachmentJson (h.1 attachment hattachment)
  have hreferences : (row.message.agentReferences.map agentReferenceJson).mapM
      parseAgentReference = some row.message.agentReferences :=
    mapM_map_eq_some fun reference hreference =>
      parseAgentReference_agentReferenceJson (h.2 reference hreference)
  have horigin : readOptional parseOrigin (row.message.origin.map originJson) =
      some row.message.origin :=
    readOptional_map fun origin _ => parseOrigin_originJson origin
  simp only [readMessage, columns, hprovider, hattachments, hreferences, horigin]
  cases hfast : row.message.fastMode <;> cases hperson : row.message.person <;>
    cases hstate : row.deliveryState <;> simp [rowToPendingMessage, hfast, hperson, hstate]

/-! ## The transaction -/

/-- A round of the loop, with the positions that it skips and the one that it has come to. -/
def insertWrite (message : PendingMessage) (journal : Journal) (kept : List ℕ × ℕ) :
    ArgmaxResult (Journal × List ℕ × ℕ) :=
  let free := skipLaunching kept.1 kept.2
  match insertMessage journal message free with
  | some journal => .ok (journal, kept.1, free + 1)
  | none => .error (.serviceError "SQLITE" "UNIQUE constraint failed")

/-- The statements of `replace_session_queue`. -/
def replaceWrites (sessionId : String) (messages : List PendingMessage) :
    List (Journal → List ℕ × ℕ → ArgmaxResult (Journal × List ℕ × ℕ)) :=
  (fun journal _ => .ok (journal, launchingPositions journal sessionId, 0)) ::
  (fun journal kept =>
    .ok (journal.delete fun row =>
      row.sessionId == sessionId && row.deliveryState != .launching, kept)) ::
  messages.map insertWrite

/-- `replace_session_queue`. A fault is an error of the store: at the begin, at a statement or at
the commit. -/
def replace (fault : ℕ → Option ArgmaxError) (journal : Journal) (sessionId : String)
    (messages : List PendingMessage) :
    ArgmaxResult (List ℕ × ℕ) × Connection Journal :=
  transact fault (replaceWrites sessionId messages) (.idle journal) ([], 0)

/-- `list_session_pending_messages`: a row that cannot be read fails the list. -/
def readSessionPendingMessages (journal : Journal) (sessionId : String) :
    Option (List PendingMessage) :=
  ((journal.rows.filter fun row =>
    row.sessionId == sessionId && row.deliveryState != .launching).insertionSort
      fun a b => a.position ≤ b.position).mapM fun row => readMessage (columns row)

/-- The message as it is read: every stored mode reads as `auto`. -/
def inAutoMode (message : PendingMessage) : PendingMessage := { message with agentMode := "auto" }

/-- What a replacement comes to. -/
structure RoundTrip (fault : ℕ → Option ArgmaxError) (journal : Journal) (sessionId : String)
    (messages : List PendingMessage) (result : ArgmaxResult (List ℕ × ℕ))
    (conn : Connection Journal) : Prop where
  /-- The session's messages read back, in the order in which they were given. -/
  listed : ∀ kept, result = .ok kept → readSessionPendingMessages conn.committed sessionId =
    some ((messages.filter fun message => message.sessionId == sessionId).map inAutoMode)
  launching : ∀ row, row.sessionId = sessionId → row.deliveryState = .launching →
    (row ∈ conn.committed ↔ row ∈ journal)
  failed : ∀ error, result = .error error → conn = .idle journal
  /-- No slot is in the way of the session's own messages. -/
  stored : (∀ point, fault point = none) → (∀ message ∈ messages, message.sessionId = sessionId) →
    (messages.map (·.id)).Nodup →
    (∀ message ∈ messages, ∀ row ∈ journal,
      (row.sessionId = sessionId → row.deliveryState = .launching) → row.id ≠ message.id) →
    ∃ kept, result = .ok kept

/-! ## The loop -/

/-- What the rows of the loop have: the message, and a free position after the last one. -/
inductive Placed (launching : List ℕ) : ℕ → List PendingMessage → List PendingRow → Prop
  | nil (position : ℕ) : Placed launching position [] []
  | cons {position : ℕ} {messages : List PendingMessage} {rows : List PendingRow}
      (message : PendingMessage) (free : ℕ) (hle : position ≤ free)
      (rest : Placed launching (free + 1) messages rows) :
      Placed launching position (message :: messages)
        (⟨message, free, stateOf message.recoveryStatus⟩ :: rows)

theorem le_skipLaunching (launching : List ℕ) (position : ℕ) :
    position ≤ skipLaunching launching position := by
  fun_induction skipLaunching launching position with
  | case1 launching position hmem ih => omega
  | case2 launching position hmem => exact Nat.le_refl _

variable {launching : List ℕ} {journal journal' : Journal} {position : ℕ}
  {messages : List PendingMessage} {sessionId : String}

/-- The loop appends a placed row for every message. -/
theorem insertMessages_rows (h : insertMessages launching journal position messages = some journal') :
    ∃ rows, journal'.rows = journal.rows ++ rows ∧ Placed launching position messages rows := by
  induction messages generalizing journal position with
  | nil =>
    cases h
    exact ⟨[], by simp, .nil _⟩
  | cons message messages ih =>
    simp only [insertMessages] at h
    split at h
    · rename_i inserted hinsert
      obtain ⟨rows, hrows, hplaced⟩ := ih h
      have hpush : inserted.rows = journal.rows ++
          [⟨message, skipLaunching launching position, stateOf message.recoveryStatus⟩] := by
        simp only [insertMessage] at hinsert
        split at hinsert
        · cases hinsert
        · obtain ⟨hfree, rfl⟩ := Table.insert?_eq_some.mp hinsert
          rfl
      exact ⟨_ :: rows, by rw [hrows, hpush, List.append_assoc]; rfl,
        .cons message _ (le_skipLaunching launching position) hplaced⟩
    · cases h

namespace Placed

variable {launching : List ℕ} {position : ℕ} {messages : List PendingMessage}
  {rows : List PendingRow}

section

variable (h : Placed launching position messages rows)
include h

theorem le_position : ∀ row ∈ rows, position ≤ row.position := by
  induction h with
  | nil => simp
  | cons message free hle rest ih =>
    rw [List.forall_mem_cons]
    exact ⟨hle, fun row hrow => by have := ih row hrow; omega⟩

/-- The rows stand in the order of their positions. -/
theorem pairwise : rows.Pairwise fun a b => a.position ≤ b.position := by
  induction h with
  | nil => exact .nil
  | cons message free hle rest ih =>
    refine .cons (fun row hrow => ?_) ih
    have := rest.le_position row hrow
    simp only
    omega

/-- No row of the loop is launching. -/
theorem not_launching : ∀ row ∈ rows, row.deliveryState ≠ .launching := by
  induction h with
  | nil => simp
  | cons message free hle rest ih =>
    rw [List.forall_mem_cons]
    refine ⟨?_, ih⟩
    cases hstatus : message.recoveryStatus with
    | none => simp [stateOf]
    | some status => cases status <;> simp [stateOf]

/-- The rows read back as their messages. -/
theorem read
    (hvalid : ∀ message ∈ messages, message.isValid = true) (sessionId : String) :
    (rows.filter fun row => row.sessionId == sessionId && row.deliveryState != .launching).mapM
        (fun row => readMessage (columns row)) =
      some ((messages.filter fun message => message.sessionId == sessionId).map inAutoMode) := by
  induction h with
  | nil => rfl
  | @cons position messages rows message free hle rest ih =>
    rw [List.forall_mem_cons] at hvalid
    have hread : readMessage (columns ⟨message, free, stateOf message.recoveryStatus⟩) =
        some (inAutoMode message) := by
      rw [readMessage_columns hvalid.1]
      cases hstatus : message.recoveryStatus with
      | none => simp [rowToPendingMessage, inAutoMode, stateOf, hstatus]
      | some status => cases status <;> simp [rowToPendingMessage, inAutoMode, stateOf, hstatus]
    have hstate : stateOf message.recoveryStatus ≠ .launching :=
      (Placed.cons message free hle rest).not_launching _ List.mem_cons_self
    by_cases hsession : message.sessionId = sessionId
    · have hih := ih hvalid.2
      simp only [PendingRow.sessionId] at hih
      simp [PendingRow.sessionId, hsession, hstate, hread, hih]
    · simpa [PendingRow.sessionId, hsession] using ih hvalid.2

end

end Placed

/-! ## The round trip -/

theorem writeAll_inserts :
    (∃ kept, writeAll (messages.map insertWrite) (journal, launching, position) =
      .ok (journal', kept)) ↔
      insertMessages launching journal position messages = some journal' := by
  induction messages generalizing journal position with
  | nil => simp [insertMessages]
  | cons message messages ih =>
    simp only [List.map_cons, writeAll_cons_ok, insertMessages, insertWrite]
    cases hinsert : insertMessage journal message (skipLaunching launching position) with
    | none => simp
    | some inserted => simp [← ih]

/-- What the statements come to is what `replaceSessionQueue` gives. -/
theorem writeAll_replaceWrites :
    (∃ kept, writeAll (replaceWrites sessionId messages) (journal, [], 0) =
      .ok (journal', kept)) ↔ replaceSessionQueue journal sessionId messages = some journal' := by
  exact writeAll_inserts

/-- A replacement that commits stores exactly the messages, in their order, and keeps the rows
that are not visible in the session. -/
theorem replaceSessionQueue_rows
    (h : replaceSessionQueue journal sessionId messages = some journal') :
    ∃ rows, Placed (launchingPositions journal sessionId) 0 messages rows ∧
      journal'.rows = (journal.rows.filter fun row =>
        !(row.sessionId == sessionId && row.deliveryState != .launching)) ++ rows := by
  obtain ⟨rows, hrows, hplaced⟩ := insertMessages_rows h
  exact ⟨rows, hplaced, hrows⟩

theorem readSessionPendingMessages_replaced (hvalid : ∀ message ∈ messages, message.isValid = true)
    (h : replaceSessionQueue journal sessionId messages = some journal') :
    readSessionPendingMessages journal' sessionId =
      some ((messages.filter fun message => message.sessionId == sessionId).map inAutoMode) := by
  obtain ⟨rows, hplaced, hrows⟩ := replaceSessionQueue_rows h
  have hkept : ((journal.rows.filter fun row =>
      !(row.sessionId == sessionId && row.deliveryState != .launching)).filter fun row =>
        row.sessionId == sessionId && row.deliveryState != .launching) = [] := by
    simp [List.filter_filter]
  have hsorted : ((rows.filter fun row =>
      row.sessionId == sessionId && row.deliveryState != .launching).insertionSort
        fun a b => a.position ≤ b.position) = rows.filter fun row =>
          row.sessionId == sessionId && row.deliveryState != .launching :=
    (hplaced.pairwise.filter _).insertionSort_eq
  rw [readSessionPendingMessages, hrows, List.filter_append, hkept, List.nil_append, hsorted]
  exact hplaced.read hvalid sessionId

/-- A launching row of the session is there afterwards when it was there before. -/
theorem mem_replaced_of_launching
    (h : replaceSessionQueue journal sessionId messages = some journal') {row : PendingRow}
    (hstate : row.deliveryState = .launching) : row ∈ journal' ↔ row ∈ journal := by
  obtain ⟨rows, hplaced, hrows⟩ := replaceSessionQueue_rows h
  have hnew : row ∉ rows := fun hmem => hplaced.not_launching row hmem hstate
  simp [Table.mem_def, hrows, hnew, hstate]

theorem skipLaunching_not_mem : skipLaunching launching position ∉ launching := by
  fun_induction skipLaunching launching position with
  | case1 launching position hmem ih =>
    intro hskip
    have hle := le_skipLaunching (launching.erase position) (position + 1)
    exact ih ((List.mem_erase_of_ne (by omega)).mpr hskip)
  | case2 launching position hmem => exact hmem

theorem insertMessage_of_free {message : PendingMessage} (hkey : journal.find? message.id = none)
    (hslot : ∀ row ∈ journal, row.slot ≠ (message.sessionId, position)) :
    insertMessage journal message position =
      some (journal.push ⟨message, position, stateOf message.recoveryStatus⟩ hkey) := by
  have hany : ¬ journal.rows.any (fun other => other.slot ==
      (⟨message, position, stateOf message.recoveryStatus⟩ : PendingRow).slot) = true := by
    rw [List.any_eq_true]
    rintro ⟨row, hrow, heq⟩
    exact hslot row hrow (eq_of_beq heq)
  simp only [insertMessage, hany]
  exact Table.insert?_eq_some.mpr ⟨hkey, rfl⟩

/-- The loop comes to its end when every message is the session's and its id is free. -/
theorem insertMessages_isSome (hsession : ∀ message ∈ messages, message.sessionId = sessionId)
    (hnodup : (messages.map (·.id)).Nodup)
    (hfree : ∀ message ∈ messages, ∀ row ∈ journal, row.id ≠ message.id)
    (hslots : ∀ row ∈ journal, row.sessionId = sessionId →
      row.position ∈ launching ∨ row.position < position) :
    ∃ journal', insertMessages launching journal position messages = some journal' := by
  induction messages generalizing journal position with
  | nil => exact ⟨journal, rfl⟩
  | cons message messages ih =>
    rw [List.forall_mem_cons] at hsession hfree
    simp only [List.map_cons, List.nodup_cons] at hnodup
    have hle := le_skipLaunching launching position
    have hslot : ∀ row ∈ journal,
        row.slot ≠ (message.sessionId, skipLaunching launching position) := by
      intro row hrow heq
      simp only [PendingRow.slot, Prod.mk.injEq, hsession.1] at heq
      obtain hmem | hlt := hslots row hrow heq.1
      · exact skipLaunching_not_mem (heq.2 ▸ hmem)
      · omega
    have hkey : journal.find? message.id = none := Table.find?_eq_none.mpr hfree.1
    simp only [insertMessages, insertMessage_of_free hkey hslot]
    refine ih hsession.2 hnodup.2 (fun other hother row hrow => ?_) fun row hrow hsame => ?_
    · obtain hrow | rfl := Table.mem_push.mp hrow
      · exact hfree.2 other hother row hrow
      · rintro (heq : message.id = other.id)
        exact hnodup.1 (List.mem_map.mpr ⟨other, hother, heq.symm⟩)
    · obtain hrow | rfl := Table.mem_push.mp hrow
      · exact (hslots row hrow hsame).imp_right (by omega)
      · exact .inr (by simp)

/-- **A replaced queue reads back**, whatever the store fails. -/
theorem replace_round_trip (fault : ℕ → Option ArgmaxError) (journal : Journal)
    (sessionId : String) (messages : List PendingMessage)
    (hvalid : ∀ message ∈ messages, message.isValid = true) :
    RoundTrip fault journal sessionId messages (replace fault journal sessionId messages).1
      (replace fault journal sessionId messages).2 := by
  refine ⟨fun kept hok => ?_, fun row _ hstate => ?_, fun error herror => transact_error herror,
    fun hfault hsession hnodup hfree => ?_⟩
  · obtain ⟨journal', hall, hconn⟩ := transact_ok hok
    rw [replace, hconn]
    exact readSessionPendingMessages_replaced hvalid (writeAll_replaceWrites.mp ⟨_, hall⟩)
  · cases hresult : (replace fault journal sessionId messages).1 with
    | error error =>
      have hconn : (replace fault journal sessionId messages).2 = .idle journal :=
        transact_error hresult
      rw [hconn]
      rfl
    | ok kept =>
      obtain ⟨journal', hall, hconn⟩ := transact_ok hresult
      rw [replace, hconn]
      exact mem_replaced_of_launching (writeAll_replaceWrites.mp ⟨_, hall⟩) hstate
  · obtain ⟨journal', hreplaced⟩ : ∃ journal',
        replaceSessionQueue journal sessionId messages = some journal' := by
      refine insertMessages_isSome hsession hnodup (fun message hmessage row hrow => ?_)
        fun row hrow hsame => .inl ?_
      · obtain ⟨hrow, hstays⟩ := mem_replace_kept.mp hrow
        exact hfree message hmessage row hrow hstays
      · obtain ⟨hrow, hstays⟩ := mem_replace_kept.mp hrow
        rw [launchingPositions, List.mem_insertionSort]
        exact List.mem_map_of_mem (List.mem_filter.mpr
          ⟨hrow, by simp [isLaunchingOf, hsame, hstays hsame]⟩)
    obtain ⟨kept, hall⟩ := writeAll_replaceWrites.mpr hreplaced
    exact ⟨kept, transact_of_faultless hfault hall⟩

/-- A follow-up with an image. -/
def followUp (id agentMode : String) : PendingMessage where
  id := id
  sessionId := "session"
  content := "next"
  agentMode := agentMode
  provider := some .claude
  modelLabel := none
  modelId := none
  reasoningEffort := none
  fastMode := true
  attachments := [⟨"/image.png", "image/png", 3⟩]
  agentReferences := []
  origin := none
  recoveryStatus := none
  queuedAt := "2026-01-01T00:00:00.000Z"
  person := true

/-- A queue whose first slot is held by a row that is being sent. -/
def sendingQueue : Journal := Table.empty.put ⟨followUp "first" "auto", 0, .launching⟩

theorem replace_round_trip_sending :
    (replace (fun _ => none) sendingQueue "session" [followUp "second" "auto"]).1.isOk = true ∧
      RoundTrip (fun _ => none) sendingQueue "session" [followUp "second" "auto"]
        (replace (fun _ => none) sendingQueue "session" [followUp "second" "auto"]).1
        (replace (fun _ => none) sendingQueue "session" [followUp "second" "auto"]).2 :=
  ⟨by decide +kernel,
    replace_round_trip (fun _ => none) sendingQueue "session" [followUp "second" "auto"]
      (by decide)⟩

/-- A follow-up in another mode is not given back as it was. -/
theorem replaced_mode_lost :
    (replace (fun _ => none) .empty "session" [followUp "first" "plan"]).1.isOk = true ∧
      readSessionPendingMessages
        (replace (fun _ => none) .empty "session" [followUp "first" "plan"]).2.committed
          "session" = some [followUp "first" "auto"] ∧
      [followUp "first" "auto"] ≠ [followUp "first" "plan"] := by
  decide

end Argmax.Persistence.PendingMessages
