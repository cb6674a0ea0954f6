import Argmax.Persistence.PendingMessages

/-!
# Conservation of the pending queue

Whatever operations interleave, a stored message stays stored until one of four
steps removes it: a replacement of its visible queue that omits it, the cleanup
of its confirmed delivery, the collection of its inbox row, or a recovery that
finds that row handed over. A row that is being launched is removed only by the
cleanup of its delivery.
-/

namespace Argmax.Persistence.PendingMessages

open Argmax.Lib

/-! ## What each operation leaves -/

/-- No two rows of a session hold one position. -/
def SlotsDistinct (journal : Journal) : Prop :=
  ∀ row ∈ journal, ∀ row' ∈ journal, row.slot = row'.slot → row = row'

variable {journal journal' : Journal} {sessionId messageId : String} {row : PendingRow}

theorem insertMessage_eq_some {message : PendingMessage} {position : ℕ}
    (h : insertMessage journal message position = some journal') :
    (∀ row, row ∈ journal' ↔
      row ∈ journal ∨ row = ⟨message, position, stateOf message.recoveryStatus⟩) ∧
    ∀ row ∈ journal, row.slot ≠ (message.sessionId, position) := by
  simp only [insertMessage] at h
  split at h
  · cases h
  · rename_i hslot
    refine ⟨fun row => Table.mem_insert? h, fun row hrow heq => hslot ?_⟩
    rw [List.any_eq_true]
    exact ⟨row, hrow, by simpa [PendingRow.slot, PendingRow.sessionId] using heq⟩

/-- An insert that succeeds keeps the slots distinct. -/
theorem SlotsDistinct.insertMessage {message : PendingMessage} {position : ℕ}
    (hd : SlotsDistinct journal) (h : insertMessage journal message position = some journal') :
    SlotsDistinct journal' := by
  obtain ⟨hmem, hfree⟩ := insertMessage_eq_some h
  intro row hrow row' hrow' heq
  rcases (hmem row).mp hrow with hold | hnew
  · rcases (hmem row').mp hrow' with hold' | hnew'
    · exact hd row hold row' hold' heq
    · exact absurd (heq.trans (by rw [hnew']; rfl)) (hfree row hold)
  · rcases (hmem row').mp hrow' with hold' | hnew'
    · exact absurd (heq.symm.trans (by rw [hnew]; rfl)) (hfree row' hold')
    · rw [hnew, hnew']

/-- The loop of the replacement keeps every row it starts from, stores every message
it is given, and keeps the slots distinct. -/
theorem insertMessages_spec {launching : List ℕ} {position : ℕ} {messages : List PendingMessage}
    (h : insertMessages launching journal position messages = some journal') :
    (∀ row ∈ journal, row ∈ journal') ∧
    (∀ message ∈ messages, ∃ row ∈ journal', row.message = message) ∧
    (SlotsDistinct journal → SlotsDistinct journal') := by
  induction messages generalizing journal position with
  | nil =>
    cases h
    exact ⟨fun _ hrow => hrow, by simp, id⟩
  | cons message messages ih =>
    simp only [insertMessages] at h
    split at h
    · rename_i inserted hinsert
      obtain ⟨hmem, -⟩ := insertMessage_eq_some hinsert
      obtain ⟨hkept, hstored, hdistinct⟩ := ih h
      refine ⟨fun row hrow => hkept row ((hmem row).mpr (.inl hrow)), ?_,
        fun hd => hdistinct (hd.insertMessage hinsert)⟩
      rw [List.forall_mem_cons]
      exact ⟨⟨_, hkept _ ((hmem _).mpr (.inr rfl)), rfl⟩, hstored⟩
    · cases h

/-- Removing rows keeps the slots of the others distinct. -/
theorem SlotsDistinct.delete {journal : Journal} (hd : SlotsDistinct journal)
    (p : PendingRow → Bool) : SlotsDistinct (journal.delete p) :=
  fun row hrow row' hrow' =>
    hd row (Table.mem_delete.mp hrow).1 row' (Table.mem_delete.mp hrow').1

/-- So does rewriting delivery states. -/
theorem SlotsDistinct.update (hd : SlotsDistinct journal) {f : PendingRow → PendingRow}
    (hf : ∀ row, (f row).id = row.id) (hslot : ∀ row, (f row).slot = row.slot) :
    SlotsDistinct (journal.update f hf) := by
  intro row hrow row' hrow' heq
  obtain ⟨old, hold, rfl⟩ := Table.mem_update.mp hrow
  obtain ⟨old', hold', rfl⟩ := Table.mem_update.mp hrow'
  rw [hslot, hslot] at heq
  rw [hd old hold old' hold' heq]

theorem mem_replace_kept :
    (row ∈ journal.delete fun row =>
      row.sessionId == sessionId && row.deliveryState != .launching) ↔
    row ∈ journal ∧ (row.sessionId = sessionId → row.deliveryState = .launching) := by
  by_cases hs : row.sessionId = sessionId <;> simp [hs]

/-- **A replacement that commits** keeps the launching rows and the other sessions'
rows, and stores every message it is given. -/
theorem replaceSessionQueue_spec {messages : List PendingMessage}
    (h : replaceSessionQueue journal sessionId messages = some journal') :
    (∀ row ∈ journal, (row.sessionId = sessionId → row.deliveryState = .launching) →
      row ∈ journal') ∧
    (∀ message ∈ messages, ∃ row ∈ journal', row.message = message) ∧
    (SlotsDistinct journal → SlotsDistinct journal') := by
  obtain ⟨hkept, hstored, hdistinct⟩ := insertMessages_spec h
  refine ⟨?_, hstored, fun hd => hdistinct (hd.delete _)⟩
  exact fun row hrow hl => hkept row (mem_replace_kept.mpr ⟨hrow, hl⟩)

/-- Moving one message keeps every message and every slot. -/
theorem setState_spec (journal : Journal) (sessionId messageId : String)
    (guard : DeliveryState → Bool) (state : DeliveryState) :
    (∀ row ∈ journal, ∃ row' ∈ (setState journal sessionId messageId guard state).2,
      row'.message = row.message) ∧
    (SlotsDistinct journal →
      SlotsDistinct (setState journal sessionId messageId guard state).2) := by
  constructor
  · intro row hrow
    exact ⟨_, Table.mem_update_of_mem (id_moved _ state) hrow, message_moved _ state row⟩
  · intro hd
    exact hd.update (id_moved _ state) (slot_moved _ state)

/-- An operation that moves one message, or fails. -/
theorem kept_setState {guard : DeliveryState → Bool} {state : DeliveryState}
    {result : ArgmaxResult Journal}
    (h : ∀ journal', result = .ok journal' →
      journal' = (setState journal sessionId messageId guard state).2) :
    (∀ row ∈ journal, ∃ row' ∈ kept journal result, row'.message = row.message) ∧
    (SlotsDistinct journal → SlotsDistinct (kept journal result)) := by
  cases result with
  | error error => exact ⟨fun row hrow => ⟨row, hrow, rfl⟩, id⟩
  | ok journal' =>
    rw [h journal' rfl]
    exact setState_spec journal sessionId messageId guard state

theorem markMessageLaunching_ok
    (h : markMessageLaunching journal sessionId messageId = .ok journal') :
    journal' = (setState journal sessionId messageId (· != .launching) .launching).2 := by
  simp only [markMessageLaunching] at h
  split at h
  · rename_i heq
    cases h
    rw [heq]
  · cases h

theorem restoreLaunchingMessage_ok {recoveryStatus : Option RecoveryStatus}
    (h : restoreLaunchingMessage journal sessionId messageId recoveryStatus = .ok journal') :
    journal' =
      (setState journal sessionId messageId (· == .launching) (stateOf recoveryStatus)).2 := by
  simp only [restoreLaunchingMessage] at h
  split at h
  · rename_i heq
    cases h
    rw [heq]
  · cases h

theorem mem_deleteMessage :
    row ∈ deleteMessage journal sessionId messageId ↔
      row ∈ journal ∧ ¬ (row.sessionId = sessionId ∧ row.id = messageId) := by
  simp [deleteMessage]

theorem mem_collectedMessages (hrow : row ∈ journal) {collected : List String}
    (h : row.id ∈ collectedMessages journal sessionId collected) :
    row.sessionId = sessionId ∧ row.deliveryState ≠ .launching ∧
      ∃ messageId, row.originMessageId = some messageId ∧ messageId ∈ collected := by
  obtain ⟨row', hrow', hid⟩ := List.mem_map.mp h
  obtain ⟨hmem, hp⟩ := List.mem_filter.mp hrow'
  obtain rfl : row' = row := Table.eq_of_key hmem hrow hid
  simpa [Option.any_eq_true, and_assoc] using hp

theorem mem_deleteMessagesForCollectedOrigins {collected : List String} :
    row ∈ deleteMessagesForCollectedOrigins journal sessionId collected ↔
      row ∈ journal ∧
        ¬ (row.sessionId = sessionId ∧ row.id ∈ collectedMessages journal sessionId collected) := by
  unfold deleteMessagesForCollectedOrigins deleteMessage
  rw [Table.mem_foldl_delete fun messageId (row : PendingRow) =>
    row.sessionId == sessionId && row.id == messageId]
  refine and_congr_right fun _ => ?_
  by_cases hs : row.sessionId = sessionId
  · simp only [hs, beq_self_eq_true, Bool.true_and, beq_eq_false_iff_ne, true_and]
    exact ⟨fun h hid => h _ hid rfl, fun h messageId hid heq => h (heq ▸ hid)⟩
  · simp [hs]

/-- **What recovery leaves**: every row but those handed over, each in its recovered
state. -/
theorem mem_recoverPendingMessages {delivered : String → Bool} :
    row ∈ recoverPendingMessages delivered journal ↔
      ∃ old ∈ journal, recoveredAsDelivered delivered old = false ∧
        old.withState (recoveredState old.deliveryState) = row := by
  simp only [recoverPendingMessages, deleteMessage, Table.mem_update]
  refine exists_congr fun old => ?_
  rw [Table.mem_foldl_delete fun (gone row : PendingRow) =>
    row.sessionId == gone.sessionId && row.id == gone.id]
  rw [and_assoc]
  refine and_congr_right fun hold => and_congr_left fun _ => ?_
  constructor
  · intro h
    by_contra hd
    rw [Bool.not_eq_false] at hd
    have := h old (List.mem_filter.mpr ⟨hold, hd⟩)
    simp at this
  · intro hd gone hgone
    obtain ⟨hmem, hp⟩ := List.mem_filter.mp hgone
    by_contra hsame
    simp only [Bool.not_eq_false, Bool.and_eq_true, beq_iff_eq] at hsame
    obtain rfl : old = gone := Table.eq_of_key hold hmem hsame.2
    rw [hd] at hp
    cases hp

/-! ## What happens to a message -/

/-- Where a message stands. -/
inductive Fate where
  | queued
  | launching
  | deliveryUnknown
  | gone

/-- The fate a delivery state stands for. -/
def DeliveryState.fate : DeliveryState → Fate
  | .pending | .recovered => .queued
  | .launching => .launching
  | .deliveryUnknown => .deliveryUnknown

/-- The fate of the message with an id. -/
def fate (journal : Journal) (messageId : String) : Fate :=
  match journal.find? messageId with
  | some row => row.deliveryState.fate
  | none => .gone

theorem fate_of_mem (h : row ∈ journal) : fate journal row.id = row.deliveryState.fate := by
  rw [fate, Table.find?_of_mem h]

/-- A message is gone exactly when no row stores it. -/
theorem fate_eq_gone : fate journal messageId = .gone ↔ ∀ row ∈ journal, row.id ≠ messageId := by
  rw [← Table.find?_eq_none, fate]
  cases journal.find? messageId with
  | none => simp
  | some row => cases h : row.deliveryState <;> simp [h, DeliveryState.fate]

/-- The steps that remove a stored message. -/
inductive Removes (s : State) (row : PendingRow) : Action → Prop
  /-- A replacement of the visible queue omits the message. -/
  | omitted (messages : List PendingMessage) (visible : row.deliveryState ≠ .launching)
      (absent : ∀ message ∈ messages, message.id ≠ row.id) :
      Removes s row (.replace row.sessionId messages)
  /-- Its delivery is confirmed. -/
  | confirmed : Removes s row (.confirmDelivery row.sessionId row.id)
  /-- The agent has collected its inbox row. -/
  | collected (messageIds : List String) (visible : row.deliveryState ≠ .launching)
      (messageId : String) (origin : row.originMessageId = some messageId)
      (listed : messageId ∈ messageIds) :
      Removes s row (.collect row.sessionId messageIds)
  /-- Recovery finds its inbox row handed over, and nothing ambiguous about it. -/
  | recovered (unambiguous : row.deliveryState = .pending ∨ row.deliveryState = .recovered)
      (messageId : String) (origin : row.originMessageId = some messageId)
      (handed : messageId ∈ s.delivered) :
      Removes s row .restart

theorem recoveredAsDelivered_iff {delivered : String → Bool} :
    recoveredAsDelivered delivered row = true ↔
      (row.deliveryState = .pending ∨ row.deliveryState = .recovered) ∧
        ∃ messageId, row.originMessageId = some messageId ∧ delivered messageId = true := by
  cases h : row.deliveryState <;>
    simp [recoveredAsDelivered, rowToPendingMessage, h, Option.any_eq_true]

/-- An operation that keeps every message keeps this one. -/
theorem fate_ne_gone_of_kept (h : ∀ row ∈ journal, ∃ row' ∈ journal', row'.message = row.message)
    (hrow : row ∈ journal) : fate journal' row.id ≠ .gone := by
  intro hgone
  obtain ⟨row', hrow', hmessage⟩ := h row hrow
  exact fate_eq_gone.mp hgone row' hrow' (by rw [PendingRow.id, hmessage, PendingRow.id])

/-- **The step lemma.** A stored message that a step removes is removed by one of the
four ways. -/
theorem removes_of_gone {s : State} (hrow : row ∈ s.journal) {a : Action}
    (hgone : fate (step s a).journal row.id = .gone) : Removes s row a := by
  have hstays : ¬ row ∈ (step s a).journal := fun h => fate_eq_gone.mp hgone row h rfl
  cases a with
  | replace sessionId messages =>
    cases hreplace : replaceSessionQueue s.journal sessionId messages with
    | none =>
      exact absurd hrow (by simpa [step, hreplace] using hstays)
    | some journal' =>
      simp only [step, hreplace] at hgone hstays
      obtain ⟨hkept, hstored, -⟩ := replaceSessionQueue_spec hreplace
      have hvisible : ¬ (row.sessionId = sessionId → row.deliveryState = .launching) :=
        fun h => hstays (hkept row hrow h)
      rw [Classical.not_imp] at hvisible
      obtain ⟨rfl, hstate⟩ := hvisible
      refine .omitted messages hstate fun message hmessage hid => ?_
      obtain ⟨row', hrow', heq⟩ := hstored message hmessage
      exact fate_eq_gone.mp hgone row' hrow' (by rw [PendingRow.id, heq, hid])
  | markLaunching sessionId messageId =>
    exact absurd hgone
      (fate_ne_gone_of_kept (kept_setState fun _ => markMessageLaunching_ok).1 hrow)
  | restoreLaunching sessionId messageId recoveryStatus =>
    exact absurd hgone
      (fate_ne_gone_of_kept (kept_setState fun _ => restoreLaunchingMessage_ok).1 hrow)
  | confirmDelivery sessionId messageId =>
    simp only [step, mem_deleteMessage, hrow, true_and, not_not] at hstays
    obtain ⟨rfl, rfl⟩ := hstays
    exact .confirmed
  | collect sessionId messageIds =>
    simp only [step, mem_deleteMessagesForCollectedOrigins, hrow, true_and, not_not] at hstays
    obtain ⟨rfl, hcollected⟩ := hstays
    obtain ⟨-, hvisible, messageId, horigin, hlisted⟩ :=
      mem_collectedMessages hrow hcollected
    exact .collected messageIds hvisible messageId horigin hlisted
  | deliverInbox messageId => exact absurd hrow hstays
  | restart =>
    have hdelivered : recoveredAsDelivered (s.delivered.contains ·) row = true := by
      by_contra h
      rw [Bool.not_eq_true] at h
      exact fate_eq_gone.mp hgone _ (mem_recoverPendingMessages.mpr ⟨row, hrow, h, rfl⟩) rfl
    obtain ⟨hstate, messageId, horigin, hhanded⟩ := recoveredAsDelivered_iff.mp hdelivered
    exact .recovered hstate messageId horigin (by simpa using hhanded)
  | refused => exact absurd hrow hstays

/-! ## Runs -/

/-- Every step keeps the slots distinct. -/
theorem slotsDistinct_step {s : State} (hd : SlotsDistinct s.journal) (a : Action) :
    SlotsDistinct (step s a).journal := by
  cases a with
  | replace sessionId messages =>
    cases hreplace : replaceSessionQueue s.journal sessionId messages with
    | none => simpa [step, hreplace] using hd
    | some journal' =>
      simpa [step, hreplace] using (replaceSessionQueue_spec hreplace).2.2 hd
  | markLaunching sessionId messageId =>
    exact (kept_setState fun _ => markMessageLaunching_ok).2 hd
  | restoreLaunching sessionId messageId recoveryStatus =>
    exact (kept_setState fun _ => restoreLaunchingMessage_ok).2 hd
  | confirmDelivery sessionId messageId => exact hd.delete _
  | collect sessionId messageIds =>
    intro row hrow row' hrow'
    exact hd row (mem_deleteMessagesForCollectedOrigins.mp hrow).1 row'
      (mem_deleteMessagesForCollectedOrigins.mp hrow').1
  | deliverInbox messageId => exact hd
  | restart =>
    intro row hrow row' hrow' heq
    obtain ⟨old, hold, -, rfl⟩ := mem_recoverPendingMessages.mp hrow
    obtain ⟨old', hold', -, rfl⟩ := mem_recoverPendingMessages.mp hrow'
    rw [hd old hold old' hold' (by simpa using heq)]
  | refused => exact hd

/-- What conservation means in a state of the journal. -/
structure Conserved (s : State) : Prop where
  /-- A message is stored at most once, so it has one fate. -/
  stored_once : ∀ messageId, (s.journal.rows.filter fun row => row.id = messageId).length ≤ 1
  /-- Two rows of one session hold different positions. -/
  positions : ∀ row ∈ s.journal, ∀ row' ∈ s.journal,
    row.sessionId = row'.sessionId → row.position = row'.position → row = row'
  /-- A message goes only by a step that removes it. -/
  removed : ∀ row ∈ s.journal, ∀ a, fate (step s a).journal row.id = .gone → Removes s row a
  /-- A launching row survives every replacement as it is. -/
  launching : ∀ row ∈ s.journal, row.deliveryState = .launching →
    ∀ sessionId messages, row ∈ (step s (.replace sessionId messages)).journal
  /-- Recovery turns exactly the ambiguous messages into delivery-unknown. -/
  recovery : ∀ messageId,
    fate (step s .restart).journal messageId = .deliveryUnknown ↔
      fate s.journal messageId = .launching ∨ fate s.journal messageId = .deliveryUnknown

/-- No table of distinct keys has two rows of one id. -/
theorem length_filter_id_le (journal : Journal) (messageId : String) :
    (journal.rows.filter fun row => row.id = messageId).length ≤ 1 := by
  have hcount := List.nodup_iff_count_le_one.mp journal.unique messageId
  rw [List.count_eq_countP, List.countP_map, List.countP_eq_length_filter] at hcount
  congr 1

theorem fate_restart (s : State) (messageId : String) :
    fate (step s .restart).journal messageId = .deliveryUnknown ↔
      fate s.journal messageId = .launching ∨ fate s.journal messageId = .deliveryUnknown := by
  have hstored : ∀ row ∈ s.journal,
      (row.deliveryState = .launching ∨ row.deliveryState = .deliveryUnknown) →
        row.withState .deliveryUnknown ∈ (step s .restart).journal := by
    intro row hrow hstate
    refine mem_recoverPendingMessages.mpr ⟨row, hrow, ?_, ?_⟩
    · by_contra h
      rw [Bool.not_eq_false, recoveredAsDelivered_iff] at h
      rcases hstate with hstate | hstate <;> simp [hstate] at h
    · rcases hstate with hstate | hstate <;> rw [hstate] <;> rfl
  constructor
  · intro h
    unfold fate at h
    split at h
    · rename_i row hfind
      obtain ⟨hrow, rfl⟩ := Table.find?_eq_some.mp hfind
      obtain ⟨old, hold, -, rfl⟩ := mem_recoverPendingMessages.mp hrow
      rw [PendingRow.id_withState, fate_of_mem hold]
      cases hstate : old.deliveryState <;>
        simp [hstate, recoveredState, DeliveryState.fate] at h ⊢
    · cases h
  · intro h
    cases hfind : s.journal.find? messageId with
    | none => simp [fate, hfind] at h
    | some row =>
      obtain ⟨hrow, rfl⟩ := Table.find?_eq_some.mp hfind
      rw [fate_of_mem hrow] at h
      have hstate : row.deliveryState = .launching ∨ row.deliveryState = .deliveryUnknown := by
        cases hstate : row.deliveryState <;> simp [hstate, DeliveryState.fate] at h ⊢
      have hafter := fate_of_mem (hstored row hrow hstate)
      rwa [PendingRow.id_withState, PendingRow.deliveryState_withState] at hafter

/-- Distinct slots are all that conservation needs of a state. -/
theorem SlotsDistinct.conserved {s : State} (hd : SlotsDistinct s.journal) : Conserved s where
  stored_once := length_filter_id_le s.journal
  positions row hrow row' hrow' hsession hposition :=
    hd row hrow row' hrow' (by rw [PendingRow.slot, PendingRow.slot, hsession, hposition])
  removed row hrow a hgone := removes_of_gone hrow hgone
  launching row hrow hstate sessionId messages := by
    cases hreplace : replaceSessionQueue s.journal sessionId messages with
    | none => simpa [step, hreplace] using hrow
    | some journal' =>
      simpa [step, hreplace] using (replaceSessionQueue_spec hreplace).1 row hrow fun _ => hstate
  recovery := fate_restart s

/-- **Conservation of the pending queue**, in every state of every run. -/
theorem pending_queue_conserved (as : List Action) : Conserved (run step init as) := by
  have hinit : SlotsDistinct init.journal := by
    intro row hrow
    exact absurd hrow (Table.not_mem_empty row)
  have hrun : SlotsDistinct (run step init as).journal :=
    run_invariant (I := fun s : State => SlotsDistinct s.journal)
      (fun _ a hd => slotsDistinct_step hd a) hinit as
  exact hrun.conserved

end Argmax.Persistence.PendingMessages
