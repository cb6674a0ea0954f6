import Argmax.Providers.FlushAtomicity

/-!
# What is queued is written once

A flush that fails leaves the database and the buffer. A flush that succeeds writes what was
queued since the last one that did, in the order of the queue, and leaves nothing behind.
-/

namespace Argmax.FlushAtomicity

open Argmax.Lib Argmax.Providers Argmax.Persistence
open Argmax.ApprovalFlush (FlushDelta permissionRequest identity isRepeated persistPendingApproval
  transitionSessionAttention restored batchOf)

/-! ## What is left out -/

/-- The request of an event was recorded: by an event queued before it, by a row, or, when
it is a blocked one, by a permission event. -/
def Recorded (sessionId : String) (before after : Store)
    (earlier : List PersistTimelineEventInput) (event : PersistTimelineEventInput) : Prop :=
  ∃ request, permissionRequest sessionId event = some request ∧
    ((∃ other ∈ earlier, (permissionRequest sessionId other).map identity =
        some (identity request)) ∨
      before.db.Holds request ∨
      (event.type = "permission.blocked" ∧
        after.db.hasProviderPermissionEvent sessionId request.provider
          request.providerInvocationId request.providerRequestId))

/-- The message of a usage record was billed: by a row, or by a record queued before it. -/
def Billed (sessionId : String) (before : Store) (earlier : List NormalizedUsage)
    (usage : NormalizedUsage) : Prop :=
  ∃ eventId, usage.eventId = some eventId ∧
    ((∃ row ∈ before.usageEvents, row.sessionId = sessionId ∧ row.eventId = some eventId) ∨
      ∃ other ∈ earlier, other.eventId = some eventId)

/-- An event and its row, whose payload may say more. -/
def RowOf (event row : PersistTimelineEventInput) : Prop :=
  ∃ payload, row = { event with payload := payload }

/-- No message of a session is billed twice. -/
def OncePerMessage (rows : List UsageEventRow) : Prop :=
  rows.Pairwise fun row other =>
    row.sessionId = other.sessionId → row.eventId.isSome → row.eventId ≠ other.eventId

/-- What a flush leaves of a batch. -/
structure Persisted (sessionId : String) (before after : Store) (queued : Batch) : Prop where
  rawOutputs : after.db.rawOutputs = before.db.rawOutputs ++ queued.rawOutputs
  events : ∃ kept rows, after.db.events = before.db.events ++ rows ∧
    List.Forall₂ RowOf kept rows ∧ Kept (Recorded sessionId before after) [] queued.events kept
  usages : ∃ kept, after.usageEvents =
      before.usageEvents ++ kept.map (usageEventRow sessionId) ∧
    Kept (Billed sessionId before) [] queued.usages kept
  once : OncePerMessage before.usageEvents → OncePerMessage after.usageEvents

/-! ## Raw outputs -/

variable {now after : Store × Progress} {s : State}

theorem writeAll_rawOutputs {outputs : List PersistRawOutputInput}
    (h : writeAll (outputs.map persistRawOutput) now = .ok after) :
    after.1 = { now.1 with
      db := { now.1.db with rawOutputs := now.1.db.rawOutputs ++ outputs } } ∧
    after.2.seen = now.2.seen := by
  induction outputs generalizing now with
  | nil =>
    obtain rfl := Except.ok.inj h
    simp
  | cons output outputs ih =>
    obtain ⟨next, hnext, hrest⟩ := writeAll_cons_ok.mp h
    obtain rfl := Except.ok.inj hnext
    simpa using ih hrest

/-! ## Events -/

section

variable {hasOutstandingCardAsk : List PersistTimelineEventInput → String → Bool}
  {enrichNativeAgentEvent : Database → PersistTimelineEventInput → ArgmaxResult Json}
  {addCost : BitVec 64 → BitVec 64 → BitVec 64} {sessionId : String}

/-- The identities of the requests of some events. -/
def identities (sessionId : String) (events : List PersistTimelineEventInput) : List String :=
  events.filterMap fun event => (permissionRequest sessionId event).map identity

theorem persistTimelineEvent_ok {event : PersistTimelineEventInput} {store : Store}
    {progress : Progress}
    (h : persistTimelineEvent enrichNativeAgentEvent event store progress = .ok after) :
    ∃ row, RowOf event row ∧ after.1 = { store with
      db := { store.db with events := store.db.events ++ [row] } } ∧
      after.2.seen = progress.seen := by
  obtain ⟨payload, -, h⟩ := ArgmaxResult.bind_eq_ok.mp h
  obtain rfl := Except.ok.inj h
  exact ⟨_, ⟨payload, rfl⟩, rfl, rfl⟩

/-- The loop adds rows to the events, and touches nothing else. -/
theorem writeEvent_ok {event : PersistTimelineEventInput}
    (h : writeEvent enrichNativeAgentEvent sessionId event now.1 now.2 = .ok after) :
    (∀ key, key ∈ after.2.seen ↔ key ∈ now.2.seen ∨ key ∈ identities sessionId [event]) ∧
    ((∃ row, RowOf event row ∧ after.1 = { now.1 with
        db := { now.1.db with events := now.1.db.events ++ [row] } }) ∨
      after.1 = now.1 ∧ ∃ request, permissionRequest sessionId event = some request ∧
        isRepeated now.1.db now.2.seen sessionId event.type request = true) := by
  rw [writeEvent] at h
  cases hrequest : permissionRequest sessionId event with
  | none =>
    simp only [hrequest] at h
    obtain ⟨row, hrow, hstore, hseen⟩ := persistTimelineEvent_ok h
    exact ⟨by simp [hseen, identities, hrequest], .inl ⟨row, hrow, hstore⟩⟩
  | some request =>
    simp only [hrequest] at h
    split at h
    · rename_i hrepeated
      obtain rfl := Except.ok.inj h
      exact ⟨by simp [identities, hrequest, or_comm], .inr ⟨rfl, request, rfl, hrepeated⟩⟩
    · obtain ⟨row, hrow, hstore, hseen⟩ := persistTimelineEvent_ok h
      exact ⟨by simp [hseen, identities, hrequest, or_comm], .inl ⟨row, hrow, hstore⟩⟩

/-- A permission event stays recorded as rows are added. -/
theorem hasProviderPermissionEvent_append {db : Database} {provider invocationId requestId : String}
    (rows : List PersistTimelineEventInput)
    (h : db.hasProviderPermissionEvent sessionId provider invocationId requestId) :
    { db with events := db.events ++ rows }.hasProviderPermissionEvent sessionId provider
      invocationId requestId := by
  rw [Database.hasProviderPermissionEvent] at h ⊢
  rw [List.any_append, h, Bool.true_or]

/-- The loop over the events, after those of `earlier`. -/
theorem writeAll_events {events : List PersistTimelineEventInput}
    (earlier : List PersistTimelineEventInput) (before : Store)
    (hseen : ∀ key, key ∈ now.2.seen ↔ key ∈ identities sessionId earlier)
    (happrovals : now.1.db.approvals = before.db.approvals)
    (h : writeAll (events.map (writeEvent enrichNativeAgentEvent sessionId)) now = .ok after) :
    ∃ kept rows, after.1 = { now.1 with
        db := { now.1.db with events := now.1.db.events ++ rows } } ∧
      List.Forall₂ RowOf kept rows ∧
      Kept (Recorded sessionId before after.1) earlier events kept := by
  induction events generalizing earlier now with
  | nil =>
    obtain rfl := Except.ok.inj h
    exact ⟨[], [], by simp, .nil, .nil _⟩
  | cons event events ih =>
    obtain ⟨next, hnext, hrest⟩ := writeAll_cons_ok.mp h
    obtain ⟨hkeys, hwrite⟩ := writeEvent_ok hnext
    have hseen' : ∀ key, key ∈ next.2.seen ↔ key ∈ identities sessionId (earlier ++ [event]) := by
      intro key
      rw [hkeys key, hseen key]
      simp [identities]
    rcases hwrite with ⟨row, hrow, hstore⟩ | ⟨hstore, request, hrequest, hrepeated⟩
    · obtain ⟨kept, rows, hafter, hrows, hkept⟩ := ih _ hseen' (by simpa [hstore]) hrest
      exact ⟨event :: kept, row :: rows, by simp [hafter, hstore], .cons hrow hrows,
        .keep event hkept⟩
    · obtain ⟨kept, rows, hafter, hrows, hkept⟩ := ih _ hseen' (by simpa [hstore]) hrest
      rw [hstore] at hafter
      refine ⟨kept, rows, hafter, hrows, .leave event ⟨request, hrequest, ?_⟩ hkept⟩
      simp only [isRepeated, Bool.or_eq_true, Bool.and_eq_true, beq_iff_eq] at hrepeated
      rcases hrepeated with (hmem | hfound) | ⟨htype, hblocked⟩
      · have hmem := (hseen _).mp (by simpa using hmem)
        simp only [identities, List.mem_filterMap] at hmem
        exact .inl hmem
      · refine .inr (.inl ?_)
        rw [ApprovalFlush.permissionRequest_sessionId hrequest] at hfound
        have hholds := Database.findApprovalByProviderRequest_isSome.mp hfound
        rwa [Database.Holds, happrovals] at hholds
      · rw [hafter]
        exact .inr (.inr ⟨htype, hasProviderPermissionEvent_append rows hblocked⟩)

/-! ## Usage -/

theorem isBilled_eq_true {rows : List UsageEventRow} {usage : NormalizedUsage} :
    isBilled rows sessionId usage = true ↔ ∃ eventId, usage.eventId = some eventId ∧
      ∃ row ∈ rows, row.sessionId = sessionId ∧ row.eventId = some eventId := by
  rw [isBilled]
  cases usage.eventId <;> simp

theorem insertUsageEvent_ok {usage : NormalizedUsage} {store : Store} {progress : Progress}
    (h : insertUsageEvent addCost sessionId usage store progress = .ok after) :
    after.1.db = store.db ∧
      if isBilled store.usageEvents sessionId usage then after.1.usageEvents = store.usageEvents
      else after.1.usageEvents = store.usageEvents ++ [usageEventRow sessionId usage] := by
  rw [insertUsageEvent] at h
  split at h
  · rename_i hbilled
    obtain rfl := Except.ok.inj h
    simp [hbilled]
  · rename_i hbilled
    obtain ⟨session, -, h⟩ := ArgmaxResult.bind_eq_ok.mp h
    obtain rfl := Except.ok.inj h
    simp [hbilled]

/-- A record whose message has no row makes a row that doubles none. -/
theorem oncePerMessage_append {rows : List UsageEventRow} {usage : NormalizedUsage}
    (h : OncePerMessage rows) (hnew : ¬ isBilled rows sessionId usage) :
    OncePerMessage (rows ++ [usageEventRow sessionId usage]) := by
  refine List.pairwise_append.mpr ⟨h, List.pairwise_singleton _ _, ?_⟩
  intro row hrow other hother hsession hsome heq
  obtain rfl := List.mem_singleton.mp hother
  obtain ⟨eventId, heventId⟩ := Option.isSome_iff_exists.mp hsome
  exact hnew (isBilled_eq_true.mpr
    ⟨eventId, heq.symm.trans heventId, row, hrow, hsession, heventId⟩)

/-- The loop over the usage records, after those of `earlier`. -/
theorem writeAll_usages {usages : List NormalizedUsage} (earlier : List NormalizedUsage)
    (before : Store)
    (hrows : ∀ row ∈ now.1.usageEvents, row ∈ before.usageEvents ∨
      ∃ usage ∈ earlier, row = usageEventRow sessionId usage)
    (h : writeAll (usages.map (insertUsageEvent addCost sessionId)) now = .ok after) :
    after.1.db = now.1.db ∧
      (∃ kept, after.1.usageEvents = now.1.usageEvents ++ kept.map (usageEventRow sessionId) ∧
        Kept (Billed sessionId before) earlier usages kept) ∧
      (OncePerMessage now.1.usageEvents → OncePerMessage after.1.usageEvents) := by
  induction usages generalizing earlier now with
  | nil =>
    obtain rfl := Except.ok.inj h
    exact ⟨rfl, ⟨[], by simp, .nil _⟩, id⟩
  | cons usage usages ih =>
    obtain ⟨next, hnext, hrest⟩ := writeAll_cons_ok.mp h
    obtain ⟨hdb, hwrite⟩ := insertUsageEvent_ok hnext
    by_cases hbilled : isBilled now.1.usageEvents sessionId usage = true
    · rw [if_pos hbilled] at hwrite
      have hrows' : ∀ row ∈ next.1.usageEvents, row ∈ before.usageEvents ∨
          ∃ other ∈ earlier ++ [usage], row = usageEventRow sessionId other := by
        intro row hrow
        rcases hrows row (hwrite ▸ hrow) with hold | ⟨other, hother, heq⟩
        · exact .inl hold
        · exact .inr ⟨other, List.mem_append_left _ hother, heq⟩
      obtain ⟨hdb', ⟨kept, hkept, hreason⟩, honce⟩ := ih _ hrows' hrest
      rw [hwrite] at hkept honce
      refine ⟨hdb'.trans hdb, ⟨kept, hkept, .leave usage ?_ hreason⟩, honce⟩
      obtain ⟨eventId, heventId, row, hrow, hsession, hid⟩ := isBilled_eq_true.mp hbilled
      rcases hrows row hrow with hold | ⟨other, hother, rfl⟩
      · exact ⟨eventId, heventId, .inl ⟨row, hold, hsession, hid⟩⟩
      · exact ⟨eventId, heventId, .inr ⟨other, hother, hid⟩⟩
    · rw [if_neg hbilled] at hwrite
      have hrows' : ∀ row ∈ next.1.usageEvents, row ∈ before.usageEvents ∨
          ∃ other ∈ earlier ++ [usage], row = usageEventRow sessionId other := by
        intro row hrow
        rcases List.mem_append.mp (hwrite ▸ hrow) with hnow | hlast
        · rcases hrows row hnow with hold | ⟨other, hother, heq⟩
          · exact .inl hold
          · exact .inr ⟨other, List.mem_append_left _ hother, heq⟩
        · exact .inr ⟨usage, by simp, List.mem_singleton.mp hlast⟩
      obtain ⟨hdb', ⟨kept, hkept, hreason⟩, honce⟩ := ih _ hrows' hrest
      rw [hwrite] at hkept honce
      exact ⟨hdb'.trans hdb, ⟨usage :: kept, by simp [hkept], .keep usage hreason⟩,
        fun h => honce (oncePerMessage_append h hbilled)⟩

/-! ## Approvals and attention -/

/-- The tables of what was queued as output stay. -/
structure KeepsOutput (before after : Store) : Prop where
  events : after.db.events = before.db.events
  rawOutputs : after.db.rawOutputs = before.db.rawOutputs
  usageEvents : after.usageEvents = before.usageEvents

theorem KeepsOutput.trans {before now after : Store} (h : KeepsOutput before now)
    (h' : KeepsOutput now after) : KeepsOutput before after :=
  ⟨h'.events.trans h.events, h'.rawOutputs.trans h.rawOutputs, h'.usageEvents.trans h.usageEvents⟩

theorem transitionSessionAttention_output {db : Database} {state : SessionState}
    {pendingApproval : Bool} {delta : FlushDelta} {after : Database × FlushDelta}
    (h : transitionSessionAttention hasOutstandingCardAsk db sessionId state pendingApproval delta =
      .ok after) :
    after.1.events = db.events ∧ after.1.rawOutputs = db.rawOutputs := by
  obtain ⟨current, -, h⟩ := ArgmaxResult.bind_eq_ok.mp h
  split at h
  · obtain rfl := Except.ok.inj h
    exact ⟨rfl, rfl⟩
  obtain ⟨⟨session, written⟩, hsession, h⟩ := ArgmaxResult.bind_eq_ok.mp h
  obtain ⟨_, -, hwritten⟩ := ArgmaxResult.bind_eq_ok.mp hsession
  obtain ⟨-, rfl⟩ := Prod.mk.inj (Except.ok.inj hwritten)
  obtain ⟨workspace, -, h⟩ := ArgmaxResult.bind_eq_ok.mp h
  split at h
  · obtain rfl := Except.ok.inj h
    exact ⟨rfl, rfl⟩
  obtain ⟨⟨moved, final⟩, hmoved, h⟩ := ArgmaxResult.bind_eq_ok.mp h
  obtain ⟨_, -, hfinal⟩ := ArgmaxResult.bind_eq_ok.mp hmoved
  obtain ⟨-, rfl⟩ := Prod.mk.inj (Except.ok.inj hfinal)
  obtain rfl := Except.ok.inj h
  exact ⟨rfl, rfl⟩

theorem persistPendingApproval_output {now after : Database × FlushDelta}
    {approval : PersistApprovalInput}
    (h : persistPendingApproval hasOutstandingCardAsk now approval = .ok after) :
    after.1.events = now.1.events ∧ after.1.rawOutputs = now.1.rawOutputs := by
  simp only [persistPendingApproval] at h
  split at h
  · obtain rfl := Except.ok.inj h
    exact ⟨rfl, rfl⟩
  obtain ⟨⟨row, written⟩, hrow, h⟩ := ArgmaxResult.bind_eq_ok.mp h
  obtain ⟨-, -, hfree, rfl⟩ := Database.persistApproval_eq_ok hrow
  split at h
  · obtain rfl := Except.ok.inj h
    exact ⟨rfl, rfl⟩
  obtain ⟨⟨moved, told⟩, hmoves, h⟩ := ArgmaxResult.bind_eq_ok.mp h
  have houtput := transitionSessionAttention_output hmoves
  obtain rfl := Except.ok.inj h
  exact houtput

theorem writeAll_approvals {approvals : List PersistApprovalInput}
    (h : writeAll (approvals.map (writeApproval hasOutstandingCardAsk)) now = .ok after) :
    KeepsOutput now.1 after.1 := by
  induction approvals generalizing now with
  | nil =>
    obtain rfl := Except.ok.inj h
    exact ⟨rfl, rfl, rfl⟩
  | cons approval approvals ih =>
    obtain ⟨next, hnext, hrest⟩ := writeAll_cons_ok.mp h
    obtain ⟨⟨db, delta⟩, hwritten, hnext⟩ := ArgmaxResult.bind_eq_ok.mp hnext
    obtain rfl := Except.ok.inj hnext
    obtain ⟨hevents, hraw⟩ := persistPendingApproval_output hwritten
    have hkeeps : KeepsOutput now.1 { now.1 with db := db } := ⟨hevents, hraw, rfl⟩
    exact hkeeps.trans (ih hrest)

theorem writeAll_blocked {permissionBlocked : Bool}
    (h : writeAll (if permissionBlocked then [writeBlocked hasOutstandingCardAsk sessionId] else [])
      now = .ok after) : KeepsOutput now.1 after.1 := by
  cases permissionBlocked with
  | false =>
    obtain rfl := Except.ok.inj h
    exact ⟨rfl, rfl, rfl⟩
  | true =>
    obtain ⟨next, hnext, hrest⟩ := writeAll_cons_ok.mp h
    obtain rfl := Except.ok.inj hrest
    obtain ⟨⟨db, delta⟩, hwritten, hnext⟩ := ArgmaxResult.bind_eq_ok.mp hnext
    obtain rfl := Except.ok.inj hnext
    obtain ⟨hevents, hraw⟩ := transitionSessionAttention_output hwritten
    exact ⟨hevents, hraw, rfl⟩

/-! ## The transaction -/

/-- **What the writes of a batch come to.** -/
theorem writeAll_batchWrites {batch : Batch} {before : Store}
    (h : writeAll (batchWrites hasOutstandingCardAsk enrichNativeAgentEvent addCost sessionId batch)
      (before, .start) = .ok after) : Persisted sessionId before after.1 batch := by
  obtain ⟨written, hraw, h⟩ := writeAll_append_ok.mp h
  obtain ⟨recorded, hevents, h⟩ := writeAll_append_ok.mp h
  obtain ⟨charged, husages, h⟩ := writeAll_append_ok.mp h
  obtain ⟨asked, happrovals, hblocked⟩ := writeAll_append_ok.mp h
  obtain ⟨hstore, hseen⟩ := writeAll_rawOutputs hraw
  obtain ⟨kept, rows, hrecorded, hrows, hkept⟩ := writeAll_events [] before
    (by simp [hseen, identities, Progress.start]) (by rw [hstore]) hevents
  rw [hstore] at hrecorded
  obtain ⟨hdb, ⟨billed, hbilled, hreason⟩, honce⟩ := writeAll_usages [] before
    (by simp [hrecorded]) husages
  rw [hrecorded] at hbilled honce
  obtain ⟨heq, hrawEq, husageEq⟩ :=
    (writeAll_approvals happrovals).trans (writeAll_blocked hblocked)
  rw [hdb, hrecorded] at heq hrawEq
  refine ⟨hrawEq, ⟨kept, rows, heq, hrows, ?_⟩, ⟨billed, husageEq.trans hbilled, hreason⟩,
    fun h => husageEq ▸ honce h⟩
  exact hkept.imp fun earlier event ⟨request, hrequest, hreason⟩ =>
    ⟨request, hrequest, hreason.imp id (.imp id fun ⟨htype, hblocked⟩ => ⟨htype, by
      simpa [Database.hasProviderPermissionEvent, heq, hrecorded] using hblocked⟩)⟩

/-! ## Both outcomes -/

/-- The pending events stand in the order of their numbers, and the buffer holds what was
queued since the last flush. -/
structure Inv (s : State) : Prop where
  ascending : s.buffer.pendingEvents.Pairwise fun a b => a.sequence < b.sequence
  bounded : ∀ pending ∈ s.buffer.pendingEvents, pending.sequence ≤ s.buffer.sequence
  queued : s.queued = ⟨s.buffer.pendingEvents.map (·.event), s.buffer.pendingRawOutputs,
    s.buffer.pendingUsages, s.buffer.pendingApprovals, s.buffer.permissionBlocked⟩

theorem Inv.sorted (h : Inv s) :
    s.buffer.pendingEvents.mergeSort (fun a b => decide (a.sequence ≤ b.sequence)) =
      s.buffer.pendingEvents :=
  List.mergeSort_of_pairwise (h.ascending.imp fun hlt => by simpa using Nat.le_of_lt hlt)

/-- **What an error puts back is what was there.** -/
theorem Inv.restored_eq (h : Inv s) : restored s.buffer = s.buffer := by
  rw [restored, h.sorted]

theorem Inv.taken (h : Inv s) (hempty : ¬ s.buffer.isEmpty) :
    Providers.flushSessionBuffer s.buffer =
      (s.queued, { SessionFlushBuffer.new with sequence := s.buffer.sequence }) := by
  rw [Providers.flushSessionBuffer, if_neg hempty, h.sorted, h.queued]

/-- A buffer that holds nothing. -/
theorem Inv.of_isEmpty (h : Inv s) (hempty : s.buffer.isEmpty) :
    s.queued = .empty ∧
      s.buffer = { SessionFlushBuffer.new with sequence := s.buffer.sequence } := by
  have hqueued := h.queued
  obtain ⟨store, ⟨sequence, events, raw, usages, approvals, blocked⟩, queued⟩ := s
  simp only [SessionFlushBuffer.isEmpty, Bool.and_eq_true, List.isEmpty_iff,
    Bool.not_eq_true'] at hempty
  obtain ⟨⟨⟨⟨rfl, rfl⟩, rfl⟩, rfl⟩, rfl⟩ := hempty
  exact ⟨hqueued, rfl⟩

theorem persisted_empty (sessionId : String) (store : Store) :
    Persisted sessionId store store .empty :=
  ⟨by simp [Batch.empty], ⟨[], [], by simp, .nil, .nil _⟩, ⟨[], by simp, .nil _⟩, id⟩

/-- A flush that fails leaves the database and the buffer. -/
theorem flushOf_error (hinv : Inv s) {fault : ℕ → Option ArgmaxError} {error : ArgmaxError}
    (h : (flushOf hasOutstandingCardAsk enrichNativeAgentEvent addCost sessionId s fault).1 =
      .error error) :
    (flushOf hasOutstandingCardAsk enrichNativeAgentEvent addCost sessionId s fault).2 =
      (.idle s.store, s.buffer) := by
  rw [flushOf, flushSessionBuffer] at h ⊢
  split at h
  · simp at h
  rename_i hempty
  rw [if_neg hempty]
  simp only [hinv.taken hempty] at h ⊢
  cases hrun : transact fault (batchWrites hasOutstandingCardAsk enrichNativeAgentEvent addCost
      sessionId s.queued) (.idle s.store) .start with
  | mk result conn =>
    rw [hrun] at h
    cases result with
    | ok progress => simp at h
    | error failure =>
      have hconn := transact_error (congrArg Prod.fst hrun)
      rw [hrun] at hconn
      exact Prod.ext hconn hinv.restored_eq

/-- A flush that succeeds writes what was queued, and nothing stays behind. -/
theorem flushOf_ok (hinv : Inv s) {fault : ℕ → Option ArgmaxError} {delta : FlushDelta}
    (h : (flushOf hasOutstandingCardAsk enrichNativeAgentEvent addCost sessionId s fault).1 =
      .ok delta) :
    ∃ after, (flushOf hasOutstandingCardAsk enrichNativeAgentEvent addCost sessionId s fault).2 =
        (.idle after, { SessionFlushBuffer.new with sequence := s.buffer.sequence }) ∧
      Persisted sessionId s.store after s.queued := by
  by_cases hempty : s.buffer.isEmpty = true
  · obtain ⟨hqueued, hbuffer⟩ := hinv.of_isEmpty hempty
    refine ⟨s.store, ?_, hqueued ▸ persisted_empty sessionId s.store⟩
    rw [flushOf, flushSessionBuffer, if_pos hempty, ← hbuffer]
  · rw [flushOf, flushSessionBuffer, if_neg hempty] at h ⊢
    simp only [hinv.taken hempty] at h ⊢
    cases hrun : transact fault (batchWrites hasOutstandingCardAsk enrichNativeAgentEvent addCost
        sessionId s.queued) (.idle s.store) .start with
    | mk result conn =>
      rw [hrun] at h
      cases result with
      | error failure => simp at h
      | ok progress =>
        obtain ⟨after, hall, hconn⟩ := transact_ok (congrArg Prod.fst hrun)
        rw [hrun] at hconn
        exact ⟨after, Prod.ext hconn rfl, writeAll_batchWrites hall⟩

/-! ## Runs -/

theorem inv_start (store : Store) : Inv (.start store) :=
  ⟨.nil, by simp [State.start, SessionFlushBuffer.new], rfl⟩

/-- A queue that is given no event. -/
theorem Inv.of_events {s' : State} (h : Inv s)
    (hevents : s'.buffer.pendingEvents = s.buffer.pendingEvents)
    (hsequence : s'.buffer.sequence = s.buffer.sequence)
    (hqueued : s'.queued = ⟨s'.buffer.pendingEvents.map (·.event), s'.buffer.pendingRawOutputs,
      s'.buffer.pendingUsages, s'.buffer.pendingApprovals, s'.buffer.permissionBlocked⟩) : Inv s' :=
  ⟨hevents ▸ h.ascending, hevents ▸ hsequence ▸ h.bounded, hqueued⟩

theorem inv_queueTimelineEvent (h : Inv s) (event : PersistTimelineEventInput) :
    Inv { s with
      buffer := s.buffer.queueTimelineEvent event
      queued := { s.queued with events := s.queued.events ++ [event] } } where
  ascending := by
    refine List.pairwise_append.mpr ⟨h.ascending, List.pairwise_singleton _ _, ?_⟩
    intro pending hpending last hlast
    obtain rfl := List.mem_singleton.mp hlast
    exact Nat.lt_succ_of_le (h.bounded pending hpending)
  bounded pending hpending := by
    rcases List.mem_append.mp hpending with hold | hlast
    · exact (h.bounded pending hold).trans (Nat.le_succ _)
    · obtain rfl := List.mem_singleton.mp hlast
      exact le_rfl
  queued := by simp [h.queued, SessionFlushBuffer.queueTimelineEvent]

theorem inv_flush (h : Inv s) (fault : ℕ → Option ArgmaxError) :
    Inv (step hasOutstandingCardAsk enrichNativeAgentEvent addCost sessionId s (.flush fault)) := by
  rcases hflush : flushOf hasOutstandingCardAsk enrichNativeAgentEvent addCost sessionId s fault
    with ⟨result, rest⟩
  have hresult : (flushOf hasOutstandingCardAsk enrichNativeAgentEvent addCost sessionId s
      fault).1 = result := by rw [hflush]
  simp only [step, hflush]
  cases result with
  | error error =>
    have heq := flushOf_error h hresult
    rw [hflush] at heq
    cases heq
    exact ⟨h.ascending, h.bounded, h.queued⟩
  | ok delta =>
    obtain ⟨after, heq, -⟩ := flushOf_ok h hresult
    rw [hflush] at heq
    cases heq
    exact ⟨.nil, by simp [SessionFlushBuffer.new], rfl⟩

theorem inv_step (s : State) (act : Act) (h : Inv s) :
    Inv (step hasOutstandingCardAsk enrichNativeAgentEvent addCost sessionId s act) := by
  cases act with
  | queueTimelineEvent event => exact inv_queueTimelineEvent h event
  | queueRawOutput output =>
    exact h.of_events rfl rfl (by simp [step, h.queued, SessionFlushBuffer.queueRawOutput])
  | queueUsage usage =>
    exact h.of_events rfl rfl (by simp [step, h.queued, SessionFlushBuffer.queueUsage])
  | queueApproval approval providerInvocationId =>
    exact h.of_events rfl rfl (by
      simp [step, h.queued, SessionFlushBuffer.queueApprovalForInvocation, approvalInput])
  | markPermissionBlocked => exact h.of_events rfl rfl (by simp [step, h.queued])
  | flush fault => exact inv_flush h fault
  | write store => exact ⟨h.ascending, h.bounded, h.queued⟩

end

/-- **A flush happens at once or not at all.** After every run of queueing, of flushes that
fail anywhere or succeed, and of other writes: a flush that fails leaves the database and the
buffer as they were, and one that succeeds empties the buffer and writes, once and in the
order of the queue, all the raw outputs queued since the last flush that succeeded, the
events but for permission requests that are recorded, and the usage records but for those of
a message that is billed. -/
theorem flush_atomic
    (hasOutstandingCardAsk : List PersistTimelineEventInput → String → Bool)
    (enrichNativeAgentEvent : Database → PersistTimelineEventInput → ArgmaxResult Json)
    (addCost : BitVec 64 → BitVec 64 → BitVec 64) (sessionId : String) (store : Store)
    (acts : List Act) (fault : ℕ → Option ArgmaxError) :
    let s := run (step hasOutstandingCardAsk enrichNativeAgentEvent addCost sessionId)
      (.start store) acts
    let flushed := flushOf hasOutstandingCardAsk enrichNativeAgentEvent addCost sessionId s fault
    (∀ error, flushed.1 = .error error → flushed.2 = (.idle s.store, s.buffer)) ∧
      ∀ delta, flushed.1 = .ok delta → ∃ after,
        flushed.2 = (.idle after, { SessionFlushBuffer.new with sequence := s.buffer.sequence }) ∧
        Persisted sessionId s.store after s.queued := by
  have hinv : Inv (run (step hasOutstandingCardAsk enrichNativeAgentEvent addCost sessionId)
      (.start store) acts) := run_invariant inv_step (inv_start store) acts
  exact ⟨fun error h => flushOf_error hinv h, fun delta h => flushOf_ok hinv h⟩

/-! ## What is left out is left out on purpose -/

/-- A record of the message `msg`, which used so many tokens. -/
def usageOf (outputTokens : ℕ) : NormalizedUsage :=
  ⟨"m", ⟨10, outputTokens, 0, 0⟩, 0, some "msg", none, none⟩

/-- A blocked request, told in so many words. -/
def blockedOf (message : String) : PersistTimelineEventInput :=
  ⟨"s", "permission.blocked", message, .object [("provider", .string "claude"),
    ("providerInvocationId", .string "i"), ("providerRequestId", .string "r")]⟩

/-- A session with a blocked request. -/
def oneSession : Store where
  db := ⟨⟨[⟨"s", "w", .running, .normal⟩], by simp⟩, .empty, .empty, 0, [blockedOf "a"], []⟩
  usageEvents := []
  usage := fun _ => ⟨0, 0, 0, 0, 0, none, none, none⟩

/-- Of two records of one message only the first is written, and a request that was blocked
is not written again. -/
theorem repeats_left_out :
    let s := run (step (fun _ _ => false) (fun _ event => .ok event.payload) (· + ·) "s")
      (.start oneSession) [.queueUsage (usageOf 1), .queueUsage (usageOf 7),
        .queueTimelineEvent (blockedOf "b")]
    let flushed := flushOf (fun _ _ => false) (fun _ event => .ok event.payload) (· + ·) "s" s
      fun _ => none
    (s.queued.usages = [usageOf 1, usageOf 7] ∧ s.queued.events = [blockedOf "b"]) ∧
      flushed.1 = .ok .empty ∧
      flushed.2.1.committed.usageEvents = [usageEventRow "s" (usageOf 1)] ∧
      flushed.2.1.committed.db.events = [blockedOf "a"] := by
  decide +kernel

end Argmax.FlushAtomicity
