import Argmax.Providers.ApprovalFlush

/-!
# A permission is asked for once

Every identity has at most one row, whatever is flushed, replayed, resolved, cancelled or
put back after an error. A flush that carries a request again does what it would do
without it, and a row that is decided is never touched.
-/

namespace Argmax.ApprovalFlush

open Argmax.Lib Argmax.Providers Argmax.Persistence

variable {hasOutstandingCardAsk : List PersistTimelineEventInput → String → Bool}

/-! ## Attention -/

/-- A transition writes the state of a session and of its workspace, nothing else. -/
structure Moves (state : SessionState) (before after : Database × FlushDelta) : Prop where
  approvals : after.1.approvals = before.1.approvals
  shown : after.2.approvals = before.2.approvals
  events : after.2.events = before.2.events
  sessions : ∀ session ∈ after.1.sessions, session.state = state ∨ session ∈ before.1.sessions
  told : ∀ session ∈ after.2.sessions, session.state = state ∨ session ∈ before.2.sessions

theorem Moves.refl (state : SessionState) (now : Database × FlushDelta) : Moves state now now :=
  ⟨rfl, rfl, rfl, fun _ => .inr, fun _ => .inr⟩

variable {db : Database} {sessionId : String} {after now : Database × FlushDelta}
  {request : ProviderRequest}

theorem transitionSessionAttention_moves {state : SessionState} {pendingApproval : Bool}
    {delta : FlushDelta}
    (h : transitionSessionAttention hasOutstandingCardAsk db sessionId state pendingApproval delta =
      .ok after) : Moves state (db, delta) after := by
  obtain ⟨currentSession, -, h⟩ := ArgmaxResult.bind_eq_ok.mp h
  split at h
  · obtain rfl := Except.ok.inj h
    exact .refl _ _
  obtain ⟨⟨session, updated⟩, hsession, h⟩ := ArgmaxResult.bind_eq_ok.mp h
  obtain ⟨workspace, -, h⟩ := ArgmaxResult.bind_eq_ok.mp h
  obtain ⟨happrovals, hstate, hsessions⟩ := Database.updateSessionState_eq_ok hsession
  have hinput : (if pendingApproval then (SessionStateInput.transition state).withPendingApproval
      else SessionStateInput.transition state).state = state := by
    split <;> rfl
  rw [hinput] at hstate hsessions
  have htold : ∀ told ∈ delta.sessions ++ [session], told.state = state ∨ told ∈ delta.sessions := by
    simp only [List.mem_append, List.mem_singleton]
    rintro told (htold | rfl)
    · exact .inr htold
    · exact .inl hstate
  split at h
  · obtain rfl := Except.ok.inj h
    exact ⟨happrovals, rfl, rfl, hsessions, htold⟩
  obtain ⟨⟨workspace', moved⟩, hworkspace, h⟩ := ArgmaxResult.bind_eq_ok.mp h
  obtain ⟨happrovals', hsessions'⟩ := Database.updateWorkspaceState_eq_ok hworkspace
  obtain rfl := Except.ok.inj h
  exact ⟨happrovals'.trans happrovals, rfl, rfl, hsessions' ▸ hsessions, htold⟩

/-! ## Approvals -/

/-- What the approvals of a flush do: rows are added whose identities had no row, and only
they are shown. -/
structure Grows (before after : Database × FlushDelta) : Prop where
  kept : ∀ row ∈ before.1.approvals, row ∈ after.1.approvals
  nodup : before.1.requests.Nodup → after.1.requests.Nodup
  shown : ∀ row ∈ after.2.approvals, row ∈ before.2.approvals ∨
    ∀ request, row.request = some request → ¬ before.1.Holds request
  events : after.2.events = before.2.events

namespace Grows

variable {before now after : Database × FlushDelta}

theorem holds (h : Grows before after) (hrequest : before.1.Holds request) :
    after.1.Holds request := by
  obtain ⟨row, hrow, heq⟩ := hrequest
  exact ⟨row, h.kept row hrow, heq⟩

theorem refl (now : Database × FlushDelta) : Grows now now :=
  ⟨fun _ => id, id, fun _ => .inl, rfl⟩

theorem trans (h : Grows before now) (h' : Grows now after) : Grows before after where
  kept row hrow := h'.kept row (h.kept row hrow)
  nodup hnodup := h'.nodup (h.nodup hnodup)
  shown row hrow := by
    rcases h'.shown row hrow with hnow | hnew
    · exact h.shown row hnow
    · exact .inr fun request hrequest hholds => hnew request hrequest (h.holds hholds)
  events := h'.events.trans h.events

theorem of_moves {state : SessionState} (h : Moves state before after) : Grows before after where
  kept row hrow := h.approvals ▸ hrow
  nodup hnodup := by rwa [Database.requests, h.approvals]
  shown row hrow := .inl (h.shown ▸ hrow)
  events := h.events

theorem of_push {row : ApprovalRequest} (hfree : before.1.approvals.find? row.id = none)
    (hnew : ∀ request, row.request = some request → ¬ before.1.Holds request)
    (hpush : after.1.approvals = before.1.approvals.push row hfree)
    (hshown : ∀ shown ∈ after.2.approvals, shown ∈ before.2.approvals ∨ shown = row)
    (hevents : after.2.events = before.2.events) : Grows before after where
  kept other hother := hpush ▸ Table.mem_push_of_mem hfree hother
  nodup := Database.nodup_requests_push hfree hnew hpush
  shown shown h := by
    rcases hshown shown h with hbefore | rfl
    · exact .inl hbefore
    · exact .inr hnew
  events := hevents

end Grows

/-- A request whose identity has a row is found. -/
theorem findExisting_isSome {approval : PersistApprovalInput}
    (hrequest : requestOfInput approval = some request) :
    (findExisting db approval).isSome ↔ db.Holds request := by
  obtain ⟨hsession, hprovider, hinvocation, hid⟩ := requestOf_eq_some.mp hrequest
  rw [findExisting, hinvocation, hid, hsession, hprovider]
  exact Database.findApprovalByProviderRequest_isSome

/-- **A replay in a flush is passed over.** -/
theorem persistPendingApproval_replay {approval : PersistApprovalInput}
    (hrequest : requestOfInput approval = some request) (h : now.1.Holds request) :
    persistPendingApproval hasOutstandingCardAsk now approval = .ok now := by
  simp [persistPendingApproval, (findExisting_isSome hrequest).mpr h]

theorem persistPendingApproval_grows {approval : PersistApprovalInput}
    (h : persistPendingApproval hasOutstandingCardAsk now approval = .ok after) :
    Grows now after := by
  obtain ⟨db, delta⟩ := now
  simp only [persistPendingApproval] at h
  split at h
  · obtain rfl := Except.ok.inj h
    exact .refl _
  obtain ⟨⟨row, written⟩, hrow, h⟩ := ArgmaxResult.bind_eq_ok.mp h
  obtain ⟨-, hnew, hfree, rfl⟩ := Database.persistApproval_eq_ok hrow
  split at h
  · obtain rfl := Except.ok.inj h
    exact .of_push hfree hnew rfl (fun _ => .inl) rfl
  obtain ⟨⟨moved, told⟩, hmoves, h⟩ := ArgmaxResult.bind_eq_ok.mp h
  have hmoves := transitionSessionAttention_moves hmoves
  obtain rfl := Except.ok.inj h
  have htold : told.approvals = delta.approvals := hmoves.shown
  refine .of_push hfree hnew hmoves.approvals ?_ hmoves.events
  simp [htold]

/-- The loop over the pending approvals. -/
theorem foldlM_persistPendingApproval_grows {approvals : List PersistApprovalInput}
    (h : approvals.foldlM (persistPendingApproval hasOutstandingCardAsk) now = .ok after) :
    Grows now after := by
  induction approvals generalizing now with
  | nil =>
    obtain rfl := Except.ok.inj h
    exact .refl _
  | cons approval approvals ih =>
    obtain ⟨next, hnext, h⟩ := ArgmaxResult.bind_eq_ok.mp h
    exact (persistPendingApproval_grows hnext).trans (ih h)

/-- **The loop does what it would do without the replays.** -/
theorem foldlM_persistPendingApproval_filter {approvals : List PersistApprovalInput}
    (h : now.1.Holds request) :
    approvals.foldlM (persistPendingApproval hasOutstandingCardAsk) now =
      (approvals.filter fun approval => requestOfInput approval ≠ some request).foldlM
        (persistPendingApproval hasOutstandingCardAsk) now := by
  induction approvals generalizing now with
  | nil => rfl
  | cons approval approvals ih =>
    by_cases hrequest : requestOfInput approval = some request
    · rw [List.foldlM_cons, persistPendingApproval_replay hrequest h, List.filter_cons_of_neg
        (by simpa using hrequest)]
      exact ih h
    · rw [List.filter_cons_of_pos (by simpa using hrequest), List.foldlM_cons, List.foldlM_cons]
      cases hnext : persistPendingApproval hasOutstandingCardAsk now approval with
      | error error => rfl
      | ok next => exact ih ((persistPendingApproval_grows hnext).holds h)

/-! ## Events -/

/-- What the pending events of a flush do: no approval and no session is written, and no
event is shown that asks for what has a row. -/
structure Records (sessionId : String) (before after : Database × List String × FlushDelta) :
    Prop where
  approvals : after.1.approvals = before.1.approvals
  sessions : after.1.sessions = before.1.sessions
  shown : after.2.2.approvals = before.2.2.approvals
  told : after.2.2.sessions = before.2.2.sessions
  events : ∀ event ∈ after.2.2.events, event ∈ before.2.2.events ∨
    ∀ request, permissionRequest sessionId event = some request → ¬ before.1.Holds request

namespace Records

variable {sessionId : String} {before now after : Database × List String × FlushDelta}

theorem refl (now : Database × List String × FlushDelta) : Records sessionId now now :=
  ⟨rfl, rfl, rfl, rfl, fun _ => .inl⟩

theorem trans (h : Records sessionId before now) (h' : Records sessionId now after) :
    Records sessionId before after where
  approvals := h'.approvals.trans h.approvals
  sessions := h'.sessions.trans h.sessions
  shown := h'.shown.trans h.shown
  told := h'.told.trans h.told
  events event hevent := by
    rcases h'.events event hevent with hnow | hnew
    · exact h.events event hnow
    · refine .inr fun request hrequest hholds => hnew request hrequest ?_
      rwa [Database.Holds, h.approvals]

end Records

theorem permissionRequest_sessionId {event : PersistTimelineEventInput}
    (h : permissionRequest sessionId event = some request) : sessionId = request.sessionId := by
  rw [permissionRequest] at h
  split at h
  · exact (requestOf_eq_some.mp h).1
  · simp at h

theorem persistEvent_records (sessionId : String) (now : Database × List String × FlushDelta)
    (event : PersistTimelineEventInput) : Records sessionId now (persistEvent sessionId now event) := by
  obtain ⟨db, seen, delta⟩ := now
  have hshown : (∀ request, permissionRequest sessionId event = some request → ¬ db.Holds request) →
      ∀ shown ∈ delta.events ++ [event], shown ∈ delta.events ∨
        ∀ request, permissionRequest sessionId shown = some request → ¬ db.Holds request := by
    intro hnew shown hmem
    rcases List.mem_append.mp hmem with hold | hlast
    · exact .inl hold
    · exact .inr (List.mem_singleton.mp hlast ▸ hnew)
  rw [persistEvent]
  cases hrequest : permissionRequest sessionId event with
  | none => exact ⟨rfl, rfl, rfl, rfl, hshown (by simp [hrequest])⟩
  | some request =>
    dsimp only
    split
    · exact ⟨rfl, rfl, rfl, rfl, fun _ => .inl⟩
    · rename_i hrepeated
      refine ⟨rfl, rfl, rfl, rfl, hshown ?_⟩
      rintro request' heq hholds
      obtain rfl := Option.some.inj (hrequest.symm.trans heq)
      rw [isRepeated, permissionRequest_sessionId hrequest,
        (Database.findApprovalByProviderRequest_isSome).mpr hholds] at hrepeated
      simp at hrepeated

/-- The events and the output of a batch. -/
theorem persistOutput_records (db : Database) (sessionId : String) (batch : Batch) :
    let written := persistOutput db sessionId batch
    written.1.approvals = db.approvals ∧ written.1.sessions = db.sessions ∧
      written.2.approvals = [] ∧ written.2.sessions = [] ∧
      ∀ event ∈ written.2.events,
        ∀ request, permissionRequest sessionId event = some request → ¬ db.Holds request := by
  have h := run_relates Records.refl Records.trans (persistEvent_records sessionId)
    ({ db with rawOutputs := db.rawOutputs ++ batch.rawOutputs }, [],
      { FlushDelta.empty with rawOutputs := batch.rawOutputs }) batch.events
  refine ⟨h.approvals, h.sessions, h.shown, h.told, fun event hevent => ?_⟩
  rcases h.events event hevent with hnil | hnew
  · simp [FlushDelta.empty] at hnil
  · exact hnew

/-! ## Flushes -/

/-- What a buffer holds for the transaction, in the order of the sequence numbers. -/
def batchOf (buffer : SessionFlushBuffer) : Batch where
  events := (buffer.pendingEvents.mergeSort fun a b => decide (a.sequence ≤ b.sequence)).map (·.event)
  rawOutputs := buffer.pendingRawOutputs
  usages := buffer.pendingUsages
  approvals := buffer.pendingApprovals
  permissionBlocked := buffer.permissionBlocked

/-- An empty buffer makes no difference. -/
theorem flush_fst (db : Database) (sessionId : String) (buffer : SessionFlushBuffer) :
    (flush hasOutstandingCardAsk db sessionId buffer).1 =
      persistBatch hasOutstandingCardAsk db sessionId (batchOf buffer) := by
  rw [flush]
  split
  · rename_i hempty
    simp only [SessionFlushBuffer.isEmpty, Bool.and_eq_true, List.isEmpty_iff,
      Bool.not_eq_true'] at hempty
    obtain ⟨⟨⟨⟨hevents, hraw⟩, husages⟩, happrovals⟩, hblocked⟩ := hempty
    simp [persistBatch, persistOutput, batchOf, hevents, hraw, happrovals, hblocked,
      FlushDelta.empty]
  · rename_i hempty
    have hbatch : flushSessionBuffer buffer =
        (batchOf buffer, { SessionFlushBuffer.new with sequence := buffer.sequence }) := by
      rw [flushSessionBuffer, if_neg hempty]
      rfl
    rw [hbatch]
    dsimp only
    cases persistBatch hasOutstandingCardAsk db sessionId (batchOf buffer) <;> rfl

theorem persistBatch_grows {batch : Batch}
    (h : persistBatch hasOutstandingCardAsk db sessionId batch = .ok after) :
    Grows (persistOutput db sessionId batch) after := by
  obtain ⟨⟨written, delta⟩, hnow, h⟩ := ArgmaxResult.bind_eq_ok.mp h
  have hgrows := foldlM_persistPendingApproval_grows hnow
  dsimp only at h
  split at h
  · exact hgrows.trans (.of_moves (transitionSessionAttention_moves h))
  · obtain rfl := Except.ok.inj h
    exact hgrows

/-- A flush keeps the rows, and shows neither a row nor an event for what had a row. -/
theorem flush_grows {buffer : SessionFlushBuffer}
    (h : (flush hasOutstandingCardAsk db sessionId buffer).1 = .ok after) :
    (∀ row ∈ db.approvals, row ∈ after.1.approvals) ∧
      (db.requests.Nodup → after.1.requests.Nodup) ∧
      (∀ row ∈ after.2.approvals, ∀ request, row.request = some request → ¬ db.Holds request) ∧
      ∀ event ∈ after.2.events,
        ∀ request, permissionRequest sessionId event = some request → ¬ db.Holds request := by
  rw [flush_fst] at h
  have hgrows := persistBatch_grows h
  obtain ⟨happrovals, -, hshown, -, hevents⟩ :=
    persistOutput_records db sessionId (batchOf buffer)
  refine ⟨fun row hrow => hgrows.kept row (happrovals ▸ hrow), fun hnodup => hgrows.nodup ?_,
    fun row hrow => ?_, hgrows.events ▸ hevents⟩
  · rwa [Database.requests, happrovals]
  · rcases hgrows.shown row hrow with hmem | hnew
    · simp [hshown] at hmem
    · simpa [Database.Holds, happrovals] using hnew

/-- The buffer without the approvals that a request asks for. -/
def withoutRequest (request : ProviderRequest) (buffer : SessionFlushBuffer) : SessionFlushBuffer :=
  { buffer with
    pendingApprovals := buffer.pendingApprovals.filter fun approval =>
      requestOfInput approval ≠ some request }

/-- **A flush of replays is the flush without them.** -/
theorem flush_withoutRequest (h : db.Holds request) (sessionId : String)
    (buffer : SessionFlushBuffer) :
    (flush hasOutstandingCardAsk db sessionId buffer).1 =
      (flush hasOutstandingCardAsk db sessionId (withoutRequest request buffer)).1 := by
  rw [flush_fst, flush_fst, persistBatch]
  have hholds : (persistOutput db sessionId (batchOf buffer)).1.Holds request := by
    rwa [Database.Holds, (persistOutput_records db sessionId (batchOf buffer)).1]
  rw [foldlM_persistPendingApproval_filter hholds]
  rfl

/-- A flush that asks for nothing shows no approval and makes no session wait. -/
theorem flush_of_noApprovals {buffer : SessionFlushBuffer} (hnone : buffer.pendingApprovals = [])
    (h : (flush hasOutstandingCardAsk db sessionId buffer).1 = .ok after) :
    after.2.approvals = [] ∧ (∀ session ∈ after.2.sessions, session.state ≠ .waiting) ∧
      ∀ session ∈ after.1.sessions, session.state = .waiting → session ∈ db.sessions := by
  obtain ⟨-, hsessions, hshown, htold, -⟩ := persistOutput_records db sessionId (batchOf buffer)
  rw [flush_fst, persistBatch, show (batchOf buffer).approvals = [] from hnone] at h
  obtain ⟨written, hwritten, h⟩ := ArgmaxResult.bind_eq_ok.mp h
  obtain rfl := Except.ok.inj hwritten
  have hmoves : Moves .blocked (persistOutput db sessionId (batchOf buffer)) after := by
    dsimp only at h
    split at h
    · exact transitionSessionAttention_moves h
    · obtain rfl := Except.ok.inj h
      exact .refl _ _
  refine ⟨hmoves.shown.trans hshown, fun session hsession hwaiting => ?_,
    fun session hsession hwaiting => ?_⟩
  · rcases hmoves.told session hsession with hblocked | hbefore
    · simp [hwaiting] at hblocked
    · simp [htold] at hbefore
  · rcases hmoves.sessions session hsession with hblocked | hbefore
    · simp [hwaiting] at hblocked
    · exact hsessions ▸ hbefore

/-! ## Native requests -/

/-- A native request that was received before is refused. -/
theorem registerNative_of_holds {native : NativeRequest} (h : db.Holds native.request) :
    ∃ error, registerNative hasOutstandingCardAsk db native = .error error := by
  rw [registerNative]
  cases db.findSessionById native.request.sessionId with
  | error error => exact ⟨error, rfl⟩
  | ok session =>
    cases hlive : session.state == .running || session.state == .waiting with
    | false => exact ⟨_, by simp [bind, Except.bind, hlive]; rfl⟩
    | true =>
      have hfound := Database.findApprovalByProviderRequest_isSome.mpr h
      exact ⟨_, by simp [bind, Except.bind, hlive, hfound]; rfl⟩

/-- A native request that is taken is new. -/
theorem registerNative_eq_ok {native : NativeRequest}
    (h : registerNative hasOutstandingCardAsk db native = .ok after) :
    (∀ row ∈ db.approvals, row ∈ after.1.approvals) ∧
      (db.requests.Nodup → after.1.requests.Nodup) := by
  obtain ⟨session, -, h⟩ := ArgmaxResult.bind_eq_ok.mp h
  split at h
  · simp at h
  split at h
  · simp at h
  obtain ⟨⟨approval, written⟩, happroval, h⟩ := ArgmaxResult.bind_eq_ok.mp h
  obtain ⟨-, hnew, hfree, rfl⟩ := Database.persistApproval_eq_ok happroval
  obtain ⟨⟨session', updated⟩, hsession, h⟩ := ArgmaxResult.bind_eq_ok.mp h
  obtain ⟨happrovals, -, -⟩ := Database.updateSessionState_eq_ok hsession
  obtain rfl := Except.ok.inj h
  exact ⟨fun row hrow => happrovals ▸ Table.mem_push_of_mem hfree hrow,
    Database.nodup_requests_push hfree hnew happrovals⟩

/-! ## Runs -/

/-- What holds before a transaction and after each success holds after it. -/
theorem committed_of {α : Type} {P : Database → Prop} {result : ArgmaxResult α}
    {after : α → Database} (hbefore : P db)
    (hafter : ∀ written, result = .ok written → P (after written)) :
    P (committed db result after) := by
  cases result with
  | ok written => exact hafter written rfl
  | error error => exact hbefore

theorem step_nodup {s : State} (h : s.db.requests.Nodup) (act : Act) :
    (step hasOutstandingCardAsk s act).db.requests.Nodup := by
  cases act with
  | output | ingest | launch | flushFails => exact h
  | flush sessionId =>
    exact committed_of (P := fun db => db.requests.Nodup) h fun _ hflush =>
      (flush_grows hflush).2.1 h
  | registerNative native =>
    exact committed_of (P := fun db => db.requests.Nodup) h fun _ hnative =>
      (registerNative_eq_ok hnative).2 h
  | resolve approvalId status =>
    refine committed_of (P := fun db => db.requests.Nodup) h fun written hresolve => ?_
    rw [Database.resolveApproval_eq_ok hresolve, Database.requests_setStatus]
    exact h
  | cancelNativeRequest sessionId invocationId requestId =>
    rwa [step, Database.cancelNativeRequest, Database.requests_setStatus]
  | cancelSessionPending sessionId =>
    rwa [step, Database.cancelSessionPending, Database.requests_setStatus]
  | cancelWorkspacePending workspaceId =>
    rwa [step, Database.cancelWorkspacePending, Database.requests_setStatus]
  | write sessions workspaces events =>
    exact h.sublist (List.filter_sublist.filterMap _)

/-- The act leaves the session there. -/
def Act.keeps (sessionId : String) : Act → Prop
  | .write sessions _ _ => (sessions.find? sessionId).isSome
  | _ => True

/-- **What is decided is not touched.** -/
theorem step_keeps_decided {s : State} {row : ApprovalRequest} (hrow : row ∈ s.db.approvals)
    (hstatus : row.status ≠ "pending") {act : Act} (hact : act.keeps row.sessionId) :
    row ∈ (step hasOutstandingCardAsk s act).db.approvals := by
  cases act with
  | output | ingest | launch | flushFails => exact hrow
  | flush sessionId =>
    exact committed_of (P := fun db => row ∈ db.approvals) hrow fun _ hflush =>
      (flush_grows hflush).1 row hrow
  | registerNative native =>
    exact committed_of (P := fun db => row ∈ db.approvals) hrow fun _ hnative =>
      (registerNative_eq_ok hnative).1 row hrow
  | resolve approvalId status =>
    refine committed_of (P := fun db => row ∈ db.approvals) hrow fun written hresolve => ?_
    rw [Database.resolveApproval_eq_ok hresolve]
    exact Database.mem_setStatus hrow hstatus _ _
  | cancelNativeRequest | cancelSessionPending | cancelWorkspacePending =>
    exact Database.mem_setStatus hrow hstatus _ _
  | write sessions workspaces events =>
    refine Table.mem_delete.mpr ⟨hrow, ?_⟩
    simpa [Act.keeps, Option.isSome_iff_ne_none] using hact

theorem run_keeps_decided {s : State} {row : ApprovalRequest} (hrow : row ∈ s.db.approvals)
    (hstatus : row.status ≠ "pending") {acts : List Act}
    (hacts : ∀ act ∈ acts, act.keeps row.sessionId) :
    row ∈ (run (step hasOutstandingCardAsk) s acts).db.approvals := by
  induction acts generalizing s with
  | nil => exact hrow
  | cons act acts ih =>
    obtain ⟨hact, hacts⟩ := List.forall_mem_cons.mp hacts
    exact ih (step_keeps_decided hrow hstatus hact) hacts

/-- What a flush that carries a request again makes of it: nothing. -/
structure NoOp (hasOutstandingCardAsk : List PersistTimelineEventInput → String → Bool)
    (db : Database) (request : ProviderRequest) : Prop where
  /-- The flush is the one without the replays. -/
  same : ∀ sessionId buffer,
    (flush hasOutstandingCardAsk db sessionId buffer).1 =
      (flush hasOutstandingCardAsk db sessionId (withoutRequest request buffer)).1
  /-- Nothing is shown for the request. -/
  quiet : ∀ sessionId buffer after,
    (flush hasOutstandingCardAsk db sessionId buffer).1 = .ok after →
      (∀ row ∈ after.2.approvals, row.request ≠ some request) ∧
        ∀ event ∈ after.2.events, permissionRequest sessionId event ≠ some request
  /-- With nothing else in it, it makes no session wait. -/
  still : ∀ sessionId buffer after,
    (∀ approval ∈ buffer.pendingApprovals, requestOfInput approval = some request) →
      (flush hasOutstandingCardAsk db sessionId buffer).1 = .ok after →
        after.2.approvals = [] ∧ (∀ session ∈ after.2.sessions, session.state ≠ .waiting) ∧
          ∀ session ∈ after.1.sessions, session.state = .waiting → session ∈ db.sessions
  /-- On the native transport it is refused. -/
  native : ∀ native : NativeRequest, native.request = request →
    ∃ error, registerNative hasOutstandingCardAsk db native = .error error

theorem noOp_of_holds (h : db.Holds request) : NoOp hasOutstandingCardAsk db request where
  same := flush_withoutRequest h
  quiet sessionId buffer after hflush := by
    obtain ⟨-, -, hshown, hevents⟩ := flush_grows hflush
    exact ⟨fun row hrow heq => hshown row hrow request heq h,
      fun event hevent heq => hevents event hevent request heq h⟩
  still sessionId buffer after hreplays hflush := by
    rw [flush_withoutRequest h] at hflush
    refine flush_of_noApprovals ?_ hflush
    simpa [withoutRequest] using hreplays
  native native heq := registerNative_of_holds (heq ▸ h)

/-- **A permission is asked for once.** In every state that is reached, no two rows have the
same identity. A replay of what a row asks for is a no-op in every flush, and a row that is
decided stays as it is while its session is there. -/
theorem approvals_idempotent
    (hasOutstandingCardAsk : List PersistTimelineEventInput → String → Bool)
    (sessions : Table SessionRow.id) (workspaces : Table WorkspaceRow.id)
    (events : List PersistTimelineEventInput) (acts : List Act) :
    let s := run (step hasOutstandingCardAsk) (.start sessions workspaces events) acts
    s.db.requests.Nodup ∧
      ∀ row ∈ s.db.approvals, ∀ request, row.request = some request →
        NoOp hasOutstandingCardAsk s.db request ∧
          (row.status ≠ "pending" → ∀ more : List Act, (∀ act ∈ more, act.keeps row.sessionId) →
            row ∈ (run (step hasOutstandingCardAsk) s more).db.approvals) := by
  have hstart : (State.start sessions workspaces events).db.requests.Nodup := List.nodup_nil
  refine ⟨run_invariant (I := fun s : State => s.db.requests.Nodup)
    (fun _ act h => step_nodup h act) hstart acts, fun row hrow request hrequest => ⟨?_, ?_⟩⟩
  · exact noOp_of_holds ⟨row, hrow, hrequest⟩
  · exact fun hstatus more hmore => run_keeps_decided hrow hstatus hmore

section Granted

/-- One running session. -/
def oneSession : Table SessionRow.id := Table.empty.put ⟨"s1", "w1", .running, .normal⟩

def oneWorkspace : Table WorkspaceRow.id := Table.empty.put ⟨"w1", "running"⟩

/-- A request is flushed and granted. -/
def granted : List Act :=
  [.ingest "s1" "invocation-1"
    { NormalizedProviderResult.empty with
      approvals := [⟨"s1", "rm -rf /tmp/build", "/tmp/w1", "codex", "high", some "50"⟩] },
    .flush "s1", .resolve 0 .approved]

def grantedRow : ApprovalRequest :=
  { id := 0
    sessionId := "s1"
    command := "rm -rf /tmp/build"
    cwd := "/tmp/w1"
    provider := "codex"
    providerInvocationId := some "invocation-1"
    providerRequestId := some "50"
    riskLevel := "high"
    status := "approved" }

/-- The request comes again after it was granted. -/
theorem approvals_idempotent_granted :
    let s := run (step fun _ _ => false) (.start oneSession oneWorkspace []) granted
    NoOp (fun _ _ => false) s.db ⟨"s1", "codex", "invocation-1", "50"⟩ ∧
      grantedRow ∈ (run (step fun _ _ => false) s (granted ++ granted)).db.approvals := by
  have h := (approvals_idempotent (fun _ _ => false) oneSession oneWorkspace [] granted).2
    grantedRow (by decide +kernel) ⟨"s1", "codex", "invocation-1", "50"⟩ rfl
  exact ⟨h.1, h.2 (by decide) (granted ++ granted) (by simp [granted, Act.keeps])⟩

end Granted

end Argmax.ApprovalFlush
