import Argmax.Approvals.Service

/-!
# The life of an approval

A decision is final, a provider is told the one that is stored for its request, and a
session runs again only when nothing of it is pending. An operation that fails changes
nothing, except that a cancellation may drop responders before its writes, and may fail
after them. `Harmless` says when neither happens.
-/

namespace Argmax.Approvals

open Argmax.Lib Argmax.Persistence Argmax.Providers Argmax.Questions
open Argmax.ApprovalFlush (NativeRequest ResolveStatus)

/-! ## What decisions do to the rows -/

/-- The status of an answer. -/
def decision (approved : Bool) : ResolveStatus := if approved then .approved else .rejected

/-- Rows among `selected` that were pending have a status now, and nothing else changed. -/
structure Decides (db db' : Database) (selected : ℕ → Prop) (status : String) : Prop where
  rows : ∀ row' ∈ db'.approvals, row' ∈ db.approvals ∨
    selected row'.id ∧ ∃ row ∈ db.approvals, row.status = "pending" ∧
      row' = { row with status := status }
  ids : db'.approvalIds = db.approvalIds
  sessionIds : db'.sessions.rows.map (·.id) = db.sessions.rows.map (·.id)

variable {row : ApprovalRequest} {db db' : Database} {sessionId : String} {fault : Option Call}
  {approvalId : ℕ} {status : ResolveStatus} {s s' : State}

namespace Decides

variable {db db' db'' : Database} {selected selected' : ℕ → Prop} {status : String}

theorem refl (db : Database) (selected : ℕ → Prop) (status : String) :
    Decides db db selected status := ⟨fun _ h => .inl h, rfl, rfl⟩

theorem mono (h : Decides db db' selected status) (himp : ∀ id, selected id → selected' id) :
    Decides db db' selected' status :=
  ⟨fun row' hr => (h.rows row' hr).imp_right fun hs => ⟨himp _ hs.1, hs.2⟩, h.ids, h.sessionIds⟩

/-- One decision after another. -/
theorem trans (h : Decides db db' selected status) (h' : Decides db' db'' selected status)
    (hstatus : status ≠ "pending") : Decides db db'' selected status := by
  refine ⟨fun row' hr => ?_, h'.ids.trans h.ids, h'.sessionIds.trans h.sessionIds⟩
  rcases h'.rows row' hr with hold | ⟨hsel, row, hrow, hpending, rfl⟩
  · exact h.rows row' hold
  · rcases h.rows row hrow with hold | ⟨-, row, -, -, rfl⟩
    · exact .inr ⟨hsel, row, hold, hpending, rfl⟩
    · exact absurd hpending hstatus

/-- What was decided before stays. -/
theorem final (h : Decides db db' selected status) {row' : ApprovalRequest}
    (hrow : row ∈ db.approvals) (hstatus : row.status ≠ "pending") (hrow' : row' ∈ db'.approvals)
    (hid : row'.id = row.id) : row' = row := by
  rcases h.rows row' hrow' with hold | ⟨-, other, hother, hpending, rfl⟩
  · exact Table.eq_of_key hold hrow hid
  · rw [Table.eq_of_key hother hrow hid] at hpending
    exact absurd hpending hstatus

end Decides

theorem decides_setStatus (db : Database) (selected : ApprovalRequest → Bool) (status : String) :
    Decides db (db.setStatus selected status)
      (fun id => ∃ row ∈ db.approvals, row.id = id ∧ selected row = true ∧ row.status = "pending")
      status := by
  refine ⟨fun row' hr => ?_, rfl, rfl⟩
  simp only [Database.setStatus, Table.mem_update] at hr
  obtain ⟨row, hrow, rfl⟩ := hr
  split
  · rename_i h
    simp only [Bool.and_eq_true, beq_iff_eq] at h
    exact .inr ⟨⟨row, hrow, rfl, h⟩, row, hrow, h.2, rfl⟩
  · exact .inl hrow

/-- The rows of an id, whatever their status. -/
theorem decides_setStatus_id (db : Database) (approvalId : ℕ) (status : String) :
    Decides db (db.setStatus (fun row => row.id == approvalId) status) (· = approvalId) status := by
  refine (decides_setStatus db _ status).mono ?_
  rintro id ⟨row, -, rfl, hid, -⟩
  exact beq_iff_eq.mp hid

section

variable {hasOutstandingCardAsk : List PersistTimelineEventInput → String → Bool}

/-- A change of a session's state decides nothing. -/
theorem decides_updateSessionState {input : SessionStateInput} {session : SessionRow}
    (h : db.updateSessionState hasOutstandingCardAsk sessionId input = .ok (session, db'))
    (selected : ℕ → Prop) (status : String) : Decides db db' selected status := by
  obtain ⟨happrovals, -, hids⟩ := Database.updateSessionState_keeps h
  refine ⟨fun row' hr => .inl (happrovals ▸ hr), hids, ?_⟩
  obtain ⟨found, -, h⟩ := ArgmaxResult.bind_eq_ok.mp h
  obtain ⟨rfl, rfl⟩ := Prod.mk.inj (Except.ok.inj h)
  simp only [Table.update, List.map_map]
  refine List.map_congr_left fun session _ => ?_
  rw [Function.comp_apply]
  split <;> rfl

/-! ## Sessions that run again -/

/-- The sessions that run now ran before, or nothing of them is pending. -/
def Resumes (db db' : Database) : Prop :=
  ∀ session ∈ db'.sessions, session.state = .running → session ∈ db.sessions ∨ Settled db' session.id

/-- A session takes a new state, which is `running` only when nothing is pending. -/
theorem resumes_updateSessionState {input : SessionStateInput} {session : SessionRow}
    (h : db.updateSessionState hasOutstandingCardAsk sessionId input = .ok (session, db'))
    (hinput : input.state = .running → Settled db sessionId) : Resumes db db' := by
  obtain ⟨happrovals, hevents, -⟩ := Database.updateSessionState_keeps h
  intro row hrow hrunning
  refine (Database.mem_sessions_updateSessionState h row hrow).imp_right ?_
  rintro ⟨rfl, hstate⟩
  exact settled_congr happrovals hevents (hinput (hstate ▸ hrunning))

/-- `Resumes` of a database whose sessions are those of another. -/
theorem resumes_of_sessions {db'' : Database} (h : Resumes db db')
    (hsessions : db''.sessions = db'.sessions)
    (hsettled : ∀ sessionId, Settled db' sessionId → Settled db'' sessionId) : Resumes db db'' := by
  intro session hs hrunning
  exact (h session (hsessions ▸ hs) hrunning).imp_right (hsettled _)

theorem resumes_refl (db : Database) : Resumes db db := fun _ h _ => .inl h

/-! ## Operations -/

theorem cancelRow_eq_ok (h : cancelRow fault db approvalId = .ok db') :
    fault ≠ some (.update approvalId) ∧ fault ≠ some (.reread approvalId) ∧
      db' = db.setStatus (fun row => row.id == approvalId) "cancelled" := by
  obtain ⟨_, hupdate, h⟩ := ArgmaxResult.bind_eq_ok.mp h
  obtain ⟨_, hreread, h⟩ := ArgmaxResult.bind_eq_ok.mp h
  obtain ⟨_, -, h⟩ := ArgmaxResult.bind_eq_ok.mp h
  exact ⟨attempt_eq_ok.mp hupdate, attempt_eq_ok.mp hreread, (Except.ok.inj h).symm⟩

/-- A change of status takes no row away. -/
theorem exists_setStatus (h : ∃ row ∈ db.approvals, row.id = approvalId)
    (selected : ApprovalRequest → Bool) (status : String) :
    ∃ row ∈ (db.setStatus selected status).approvals, row.id = approvalId := by
  obtain ⟨row, hrow, hid⟩ := h
  simp only [Database.setStatus, Table.mem_update]
  refine ⟨_, ⟨row, hrow, rfl⟩, ?_⟩
  split <;> exact hid

theorem findApprovalById_of_exists (h : ∃ row ∈ db.approvals, row.id = approvalId) :
    ∃ row, db.findApprovalById approvalId = .ok row := by
  obtain ⟨row, hrow, hid⟩ := h
  exact ⟨row, Database.findApprovalById_eq_ok.mpr ⟨hrow, hid⟩⟩

theorem cancelRow_of_row (h : ∃ row ∈ db.approvals, row.id = approvalId)
    (hupdate : fault ≠ some (.update approvalId)) (hreread : fault ≠ some (.reread approvalId)) :
    cancelRow fault db approvalId =
      .ok (db.setStatus (fun row => row.id == approvalId) "cancelled") := by
  obtain ⟨row, hfound⟩ := findApprovalById_of_exists
    (exists_setStatus h (fun row => row.id == approvalId) "cancelled")
  rw [cancelRow, attempt, if_neg hupdate, attempt, if_neg hreread]
  simp only [hfound]
  rfl

/-- The rows that the loop comes to. -/
def reached (fault : Option Call) : List ApprovalRequest → List ApprovalRequest
  | [] => []
  | approval :: pending =>
    if fault = some (.update approval.id) ∨ fault = some (.reread approval.id) then [approval]
    else approval :: reached fault pending

/-- The loop does not come to its end. -/
def Stops (fault : Option Call) (pending : List ApprovalRequest) : Prop :=
  ∃ approval ∈ pending, fault = some (.update approval.id) ∨ fault = some (.reread approval.id)

/-- The responders that the rows have no more. -/
def without (native : Table Responder.approvalId) (rows : List ApprovalRequest) :
    Table Responder.approvalId :=
  native.delete fun responder => rows.any fun approval => approval.id == responder.approvalId

theorem without_cons (native : Table Responder.approvalId) (approval : ApprovalRequest)
    (rows : List ApprovalRequest) :
    without (native.delete fun responder => responder.approvalId == approval.id) rows =
      without native (approval :: rows) := by
  rw [without, Table.delete_delete]
  congr 1
  funext responder
  rw [List.any_cons, Bool.beq_comm]

theorem without_eq_self {native : Table Responder.approvalId} {rows : List ApprovalRequest} :
    without native rows = native ↔ ∀ approval ∈ rows, native.find? approval.id = none := by
  simp only [without, Table.delete_eq_self, Table.find?_eq_none, List.any_eq_false, beq_iff_eq]
  exact ⟨fun h approval ha r hr heq => h r hr approval ha heq.symm,
    fun h r hr approval ha heq => h approval ha r hr heq.symm⟩

/-- **The loop of a withdrawal**: all rows are cancelled and their responders gone, or some of
the responders are gone and nothing else. -/
theorem withdraw_cases (fault : Option Call) (db : Database) (native : Table Responder.approvalId)
    (pending : List ApprovalRequest)
    (hfound : ∀ approval ∈ pending, ∃ row ∈ db.approvals, row.id = approval.id) :
    (¬ Stops fault pending ∧ ∃ db', withdraw fault db native pending = (.ok db', without native pending) ∧
      Decides db db' (fun id => id ∈ pending.map (·.id)) "cancelled" ∧
      db'.sessions = db.sessions ∧ db'.events = db.events) ∨
    (Stops fault pending ∧ ∃ error, withdraw fault db native pending =
      (.error error, without native (reached fault pending))) := by
  induction pending generalizing db native with
  | nil =>
    refine .inl ⟨by simp [Stops], db, ?_, .refl _ _ _, rfl, rfl⟩
    rw [withdraw, without_eq_self.mpr (by simp)]
  | cons approval pending ih =>
    obtain ⟨hrow, hrest⟩ := List.forall_mem_cons.mp hfound
    rw [withdraw]
    by_cases hfault : fault = some (.update approval.id) ∨ fault = some (.reread approval.id)
    · refine .inr ⟨⟨approval, by simp, hfault⟩, ?_⟩
      cases hcancel : cancelRow fault db approval.id with
      | ok db' =>
        obtain ⟨hupdate, hreread, -⟩ := cancelRow_eq_ok hcancel
        exact absurd hfault (by simp [hupdate, hreread])
      | error error =>
        refine ⟨error, ?_⟩
        simp only [reached, if_pos hfault]
        rw [← without_cons, without_eq_self.mpr (by simp)]
    · obtain ⟨hupdate, hreread⟩ := not_or.mp hfault
      have hstops : Stops fault (approval :: pending) ↔ Stops fault pending := by
        simp [Stops, hupdate, hreread]
      simp only [cancelRow_of_row hrow hupdate hreread, reached, if_neg hfault, hstops,
        ← without_cons]
      rcases ih (db.setStatus (fun row => row.id == approval.id) "cancelled")
          (native.delete fun responder => responder.approvalId == approval.id)
          fun other ho => exists_setStatus (hrest other ho) _ _ with
        ⟨hgoes, db', heq, hdecides, hsessions, hevents⟩ | hstop
      · refine .inl ⟨hgoes, db', heq, ?_, hsessions, hevents⟩
        have hfirst : Decides db (db.setStatus (fun row => row.id == approval.id) "cancelled")
            (fun id => id ∈ (approval :: pending).map (·.id)) "cancelled" :=
          (decides_setStatus_id db approval.id "cancelled").mono (by simp)
        exact hfirst.trans (hdecides.mono fun id hid => List.mem_cons_of_mem _ hid) (by decide)
      · exact .inr hstop

theorem resume_eq_ok {cancelled : List ApprovalRequest}
    (h : resume hasOutstandingCardAsk fault db sessionId cancelled = .ok db') (selected : ℕ → Prop)
    (status : String) : Decides db db' selected status ∧ Resumes db db' := by
  obtain ⟨_, -, h⟩ := ArgmaxResult.bind_eq_ok.mp h
  obtain ⟨session, -, h⟩ := ArgmaxResult.bind_eq_ok.mp h
  split at h
  · rename_i hidle
    obtain ⟨⟨session, written⟩, hupdate, h⟩ := ArgmaxResult.bind_eq_ok.mp h
    obtain rfl := Except.ok.inj h
    exact ⟨decides_updateSessionState hupdate _ _,
      resumes_updateSessionState hupdate fun _ => hidle.2.2⟩
  · obtain rfl := Except.ok.inj h
    exact ⟨.refl _ _ _, resumes_refl _⟩

/-- A session that exists can resume. -/
theorem resume_of_session {db : Database} {sessionId : String}
    (h : sessionId ∈ db.sessions.rows.map (·.id)) {fault : Option Call} (hfault : fault ≠ some .commit)
    (cancelled : List ApprovalRequest) :
    ∃ db', resume hasOutstandingCardAsk fault db sessionId cancelled = .ok db' := by
  obtain ⟨session, hsession, rfl⟩ := List.mem_map.mp h
  have hfound : db.findSessionById session.id = .ok session :=
    Database.findSessionById_eq_ok.mpr ⟨hsession, rfl⟩
  rw [resume, attempt, if_neg hfault]
  simp only [bind, Except.bind, hfound]
  split
  · rw [Database.updateSessionState]
    simp only [Database.findSessionById, Table.find?_update, Table.find?_of_mem hsession]
    exact ⟨_, rfl⟩
  · exact ⟨_, rfl⟩

theorem nextState_eq_running {stillPending isNative : Bool}
    (h : nextState stillPending isNative status = .running) : stillPending = false := by
  cases stillPending with
  | false => rfl
  | true => simp [nextState] at h

theorem settleSession_eq_ok {isNative : Bool}
    (h : settleSession hasOutstandingCardAsk db sessionId isNative status = .ok db')
    (selected : ℕ → Prop) (decided : String) :
    Decides db db' selected decided ∧ Resumes db db' ∧ db'.approvals = db.approvals := by
  obtain ⟨session, -, h⟩ := ArgmaxResult.bind_eq_ok.mp h
  split at h
  · obtain rfl := Except.ok.inj h
    exact ⟨.refl _ _ _, resumes_refl _, rfl⟩
  · obtain ⟨⟨session, written⟩, hupdate, h⟩ := ArgmaxResult.bind_eq_ok.mp h
    obtain rfl := Except.ok.inj h
    refine ⟨decides_updateSessionState hupdate _ _, resumes_updateSessionState hupdate fun hrunning => ?_,
      (Database.updateSessionState_keeps hupdate).1⟩
    -- A pending request keeps the session waiting.
    have hnext : nextState (!(db.listApprovalsForSession sessionId "pending").isEmpty ||
        hasDurablePending db.events sessionId) isNative status = .running := by
      rw [← hrunning]
      split
      · rfl
      · split <;> rfl
    simpa [Settled] using nextState_eq_running hnext

end

/-! ## The invariant -/

/-- What every state that is reached satisfies. -/
structure Inv (s : State) : Prop where
  ids : ∀ row ∈ s.db.approvals, row.id < s.db.approvalIds
  sessions : ∀ row ∈ s.db.approvals, row.sessionId ∈ s.db.sessions.rows.map (·.id)
  native : ∀ responder ∈ s.native, responder.approvalId < s.db.approvalIds
  /-- A provider waits for rows that are pending. -/
  live : ∀ responder ∈ s.native, ∀ row ∈ s.db.approvals, row.id = responder.approvalId →
    row.status = "pending" ∧ row.sessionId = responder.sessionId
  toldIds : ∀ answer ∈ s.told, answer.1 < s.db.approvalIds
  /-- Who was told does not wait. -/
  done : ∀ answer ∈ s.told, ∀ responder ∈ s.native, responder.approvalId ≠ answer.1
  once : (s.told.map (·.1)).Nodup
  told : ∀ answer ∈ s.told, ∀ row ∈ s.db.approvals, row.id = answer.1 →
    row.status = (decision answer.2).asStr

theorem inv_start (sessions : Table SessionRow.id) (workspaces : Table WorkspaceRow.id)
    (events : List PersistTimelineEventInput) : Inv (.start sessions workspaces events) := by
  constructor <;> simp [State.start]

theorem decision_ne_pending (approved : Bool) : (decision approved).asStr ≠ "pending" := by
  cases approved <;> decide

/-- Decisions on rows that no provider waits for afterwards. -/
theorem inv_of_decides {selected : ℕ → Prop} {status : String} (h : Inv s)
    (hdecides : Decides s.db s'.db selected status)
    (hnative : ∀ responder ∈ s'.native, ¬ selected responder.approvalId ∧
      ∃ before ∈ s.native, before.approvalId = responder.approvalId ∧
        before.sessionId = responder.sessionId) (htold : s'.told = s.told) : Inv s' := by
  constructor
  case ids =>
    rw [hdecides.ids]
    intro row hrow
    rcases hdecides.rows row hrow with hold | ⟨-, row, hold, -, rfl⟩
    · exact h.ids row hold
    · exact h.ids row hold
  case sessions =>
    rw [hdecides.sessionIds]
    intro row hrow
    rcases hdecides.rows row hrow with hold | ⟨-, row, hold, -, rfl⟩
    · exact h.sessions row hold
    · exact h.sessions row hold
  case native =>
    rw [hdecides.ids]
    intro responder hr
    obtain ⟨-, before, hbefore, hid, -⟩ := hnative responder hr
    exact hid ▸ h.native before hbefore
  case live =>
    intro responder hr row hrow heq
    obtain ⟨hnot, before, hbefore, hid, hsession⟩ := hnative responder hr
    rcases hdecides.rows row hrow with hold | ⟨hsel, -⟩
    · exact hsession ▸ h.live before hbefore row hold (heq.trans hid.symm)
    · exact absurd (heq ▸ hsel) hnot
  case toldIds =>
    rw [htold, hdecides.ids]
    exact h.toldIds
  case done =>
    rw [htold]
    intro answer ha responder hr
    obtain ⟨-, before, hbefore, hid, -⟩ := hnative responder hr
    exact hid ▸ h.done answer ha before hbefore
  case once => exact htold ▸ h.once
  case told =>
    rw [htold]
    intro answer ha row hrow heq
    rcases hdecides.rows row hrow with hold | ⟨-, row, hold, hpending, rfl⟩
    · exact h.told answer ha row hold heq
    · exact absurd ((h.told answer ha row hold heq).symm.trans hpending) (decision_ne_pending _)

/-- A provider that waited is told what its row says now, and waits no more. -/
theorem inv_tell (h : Inv s) {approved : Bool} (hid : approvalId < s.db.approvalIds)
    (hnew : ∀ answer ∈ s.told, answer.1 ≠ approvalId)
    (hgone : ∀ responder ∈ s.native, responder.approvalId ≠ approvalId)
    (hrow : ∀ row ∈ s.db.approvals, row.id = approvalId → row.status = (decision approved).asStr) :
    Inv { s with told := (approvalId, approved) :: s.told } where
  ids := h.ids
  sessions := h.sessions
  native := h.native
  live := h.live
  toldIds := List.forall_mem_cons.mpr ⟨hid, h.toldIds⟩
  done := List.forall_mem_cons.mpr ⟨hgone, h.done⟩
  once := by
    rw [List.map_cons, List.nodup_cons]
    refine ⟨fun hmem => ?_, h.once⟩
    obtain ⟨answer, ha, heq⟩ := List.mem_map.mp hmem
    exact hnew answer ha heq
  told := List.forall_mem_cons.mpr ⟨hrow, h.told⟩

/-! ## Acts -/

/-- What an act owes whether or not it succeeds. -/
structure Advances (s s' : State) : Prop where
  inv : Inv s'
  decided : ∀ row ∈ s.db.approvals, row.status ≠ "pending" → ∀ row' ∈ s'.db.approvals,
    row'.id = row.id → row' = row
  answered : ∀ answer ∈ s'.told, answer ∈ s.told ∨
    ∃ row ∈ s'.db.approvals, row.id = answer.1 ∧ row.status = (decision answer.2).asStr

theorem advances_refl (h : Inv s) : Advances s s :=
  ⟨h, fun _ hrow _ _ hrow' hid => Table.eq_of_key hrow' hrow hid, fun _ ha => .inl ha⟩

theorem advances_of_decides {selected : ℕ → Prop} {status : String} (h : Inv s)
    (hdecides : Decides s.db s'.db selected status)
    (hnative : ∀ responder ∈ s'.native, ¬ selected responder.approvalId ∧
      ∃ before ∈ s.native, before.approvalId = responder.approvalId ∧
        before.sessionId = responder.sessionId) (htold : s'.told = s.told) : Advances s s' :=
  ⟨inv_of_decides h hdecides hnative htold,
    fun _ hrow hstatus _ hrow' hid => hdecides.final hrow hstatus hrow' hid,
    fun _ ha => .inl (htold ▸ ha)⟩

section

variable (h : Inv s) (hfree : s.db.approvals.find? row.id = none)
  (hid : row.id = s.db.approvalIds) (happrovals : s'.db.approvals = s.db.approvals.push row hfree)
  (hids : s'.db.approvalIds = s.db.approvalIds + 1)
  (hsession : row.sessionId ∈ s'.db.sessions.rows.map (·.id))
  (hsessions : s'.db.sessions.rows.map (·.id) = s.db.sessions.rows.map (·.id))
  (hnative : ∀ responder ∈ s'.native, responder ∈ s.native ∨
    responder.approvalId = row.id ∧ responder.sessionId = row.sessionId ∧ row.status = "pending")
  (htold : s'.told = s.told)
include h hfree hid happrovals hids hsession hsessions hnative htold

/-- A new row, for which a provider may wait. -/
theorem inv_of_push : Inv s' := by
  have hmem : ∀ other ∈ s'.db.approvals, other ∈ s.db.approvals ∨ other = row := by
    intro other ho
    rwa [happrovals, Table.mem_push] at ho
  constructor
  case ids =>
    rw [hids]
    intro other ho
    rcases hmem other ho with hold | rfl
    · exact Nat.lt_succ_of_lt (h.ids other hold)
    · omega
  case sessions =>
    intro other ho
    rcases hmem other ho with hold | rfl
    · exact hsessions ▸ h.sessions other hold
    · exact hsession
  case native =>
    rw [hids]
    intro responder hr
    rcases hnative responder hr with hold | ⟨heq, -⟩
    · exact Nat.lt_succ_of_lt (h.native responder hold)
    · omega
  case live =>
    intro responder hr other ho heq
    rcases hnative responder hr with hold | ⟨hid', hsession', hpending⟩
    · rcases hmem other ho with hother | rfl
      · exact h.live responder hold other hother heq
      · have := h.native responder hold
        omega
    · rcases hmem other ho with hother | rfl
      · have := h.ids other hother
        omega
      · exact ⟨hpending, hsession'.symm⟩
  case toldIds =>
    rw [htold, hids]
    exact fun answer ha => Nat.lt_succ_of_lt (h.toldIds answer ha)
  case done =>
    rw [htold]
    intro answer ha responder hr
    rcases hnative responder hr with hold | ⟨heq, -⟩
    · exact h.done answer ha responder hold
    · have := h.toldIds answer ha
      omega
  case once => exact htold ▸ h.once
  case told =>
    rw [htold]
    intro answer ha other ho heq
    rcases hmem other ho with hold | rfl
    · exact h.told answer ha other hold heq
    · have := h.toldIds answer ha
      omega

theorem advances_of_push : Advances s s' := by
  refine ⟨inv_of_push h hfree hid happrovals hids hsession hsessions hnative htold, ?_,
    fun _ ha => .inl (htold ▸ ha)⟩
  intro old hold _ row' hrow' heq
  rw [happrovals, Table.mem_push] at hrow'
  rcases hrow' with hrow' | rfl
  · exact Table.eq_of_key hrow' hold heq
  · have := h.ids old hold
    omega

end

theorem session_of_persistApproval {input : PersistApprovalInput}
    (h : db.persistApproval input = .ok (row, db')) :
    input.sessionId ∈ db.sessions.rows.map (·.id) ∧ db'.sessions = db.sessions := by
  obtain ⟨⟨inserted, after⟩, hinsert, h⟩ := ArgmaxResult.bind_eq_ok.mp h
  obtain ⟨found, -, h⟩ := ArgmaxResult.bind_eq_ok.mp h
  obtain ⟨rfl, rfl⟩ := Prod.mk.inj (Except.ok.inj h)
  obtain ⟨-, -, hfree, hdb⟩ := Database.insertApproval_eq_ok hinsert
  refine ⟨?_, by rw [hdb]⟩
  simp only [Database.insertApproval] at hinsert
  split at hinsert
  · simp at hinsert
  split at hinsert
  · simp at hinsert
  · rename_i hsession
    obtain ⟨session, hfind⟩ := Option.ne_none_iff_exists'.mp (by simpa using hsession)
    obtain ⟨hmem, hid⟩ := Table.find?_eq_some.mp hfind
    exact List.mem_map.mpr ⟨session, hmem, hid⟩

section

variable {hasOutstandingCardAsk : List PersistTimelineEventInput → String → Bool}

theorem advances_registerNative (h : Inv s) {native : NativeRequest}
    (hok : registerNative hasOutstandingCardAsk fault s native = .ok s') :
    Advances s s' ∧ Resumes s.db s'.db := by
  obtain ⟨_, -, hok⟩ := ArgmaxResult.bind_eq_ok.mp hok
  obtain ⟨⟨db, delta⟩, hregister, hok⟩ := ArgmaxResult.bind_eq_ok.mp hok
  obtain ⟨_, -, hok⟩ := ArgmaxResult.bind_eq_ok.mp hok
  obtain rfl := Except.ok.inj hok
  obtain ⟨session, -, hregister⟩ := ArgmaxResult.bind_eq_ok.mp hregister
  split at hregister
  · simp at hregister
  split at hregister
  · simp at hregister
  obtain ⟨⟨row, written⟩, hrow, hregister⟩ := ArgmaxResult.bind_eq_ok.mp hregister
  obtain ⟨⟨session', updated⟩, hupdate, hregister⟩ := ArgmaxResult.bind_eq_ok.mp hregister
  obtain ⟨rfl, -⟩ := Prod.mk.inj (Except.ok.inj hregister)
  obtain ⟨hsession, hsessions⟩ := session_of_persistApproval hrow
  obtain ⟨rfl, -, hfree, rfl⟩ := Database.persistApproval_eq_ok hrow
  obtain ⟨happrovals, hevents, hids⟩ := Database.updateSessionState_keeps hupdate
  have hsame := (decides_updateSessionState hupdate (fun _ => False) "").sessionIds
  refine ⟨advances_of_push h hfree rfl happrovals hids (hsame ▸ hsession) hsame ?_ rfl, ?_⟩
  · intro responder hr
    rw [Table.mem_put] at hr
    rcases hr with rfl | ⟨hold, -⟩
    · exact .inr ⟨rfl, rfl, rfl⟩
    · exact .inl hold
  · -- A session with a new request waits.
    intro row hrow hrunning
    rcases Database.mem_sessions_updateSessionState hupdate row hrow with hold | ⟨-, hstate⟩
    · exact .inl hold
    · simp [hstate, SessionStateInput.withPendingApproval, SessionStateInput.transition] at hrunning

theorem advances_persist (h : Inv s) {input : PersistApprovalInput}
    {written : ApprovalRequest × Database} (hok : s.db.persistApproval input = .ok written) :
    Advances s { s with db := written.2 } ∧ Resumes s.db written.2 := by
  obtain ⟨row, db⟩ := written
  obtain ⟨hsession, hsessions⟩ := session_of_persistApproval hok
  obtain ⟨rfl, -, hfree, rfl⟩ := Database.persistApproval_eq_ok hok
  exact ⟨advances_of_push h hfree rfl rfl rfl hsession rfl (fun _ hr => .inl hr) rfl,
    fun session hs _ => .inl hs⟩

/-- A decision that is taken is about a row that was pending. -/
theorem resolveApproval_eq_ok {status : String}
    (h : db.resolveApproval approvalId status = .ok (row, db')) :
    ∃ existing ∈ db.approvals, existing.id = approvalId ∧ existing.status = "pending" ∧
      row = { existing with status := status } ∧
      db' = db.setStatus (fun row => row.id == approvalId) status := by
  have hdb := Database.resolveApproval_eq_ok h
  obtain ⟨existing, hexisting, h⟩ := ArgmaxResult.bind_eq_ok.mp h
  obtain ⟨hmem, hid⟩ := Database.findApprovalById_eq_ok.mp hexisting
  split at h
  · simp at h
  split at h
  · simp at h
  rename_i hpending
  rw [not_not] at hpending
  obtain ⟨found, hfound, h⟩ := ArgmaxResult.bind_eq_ok.mp h
  obtain ⟨rfl, -⟩ := Prod.mk.inj (Except.ok.inj h)
  obtain ⟨hrow, hrowid⟩ := Database.findApprovalById_eq_ok.mp hfound
  refine ⟨existing, hmem, hid, hpending, ?_, hdb⟩
  refine Table.eq_of_key hrow ?_ (hrowid.trans hid.symm)
  simp only [Database.setStatus, Table.mem_update]
  exact ⟨existing, hmem, by simp [hid, hpending]⟩

theorem resolveRow_eq_ok {isNative : Bool}
    (h : resolveRow hasOutstandingCardAsk fault db approvalId isNative status = .ok db') :
    Decides db db' (· = approvalId) status.asStr ∧ Resumes db db' ∧
      ∃ row ∈ db'.approvals, row.id = approvalId ∧ row.status = status.asStr := by
  obtain ⟨⟨row, decided⟩, hresolve, h⟩ := ArgmaxResult.bind_eq_ok.mp h
  obtain ⟨settled, hsettle, h⟩ := ArgmaxResult.bind_eq_ok.mp h
  obtain ⟨_, -, h⟩ := ArgmaxResult.bind_eq_ok.mp h
  obtain rfl := Except.ok.inj h
  obtain ⟨existing, hmem, hid, hpending, hrow, hdb⟩ := resolveApproval_eq_ok hresolve
  obtain ⟨hdecides, hresumes, happrovals⟩ :=
    settleSession_eq_ok hsettle (· = approvalId) status.asStr
  have hne : status.asStr ≠ "pending" := by cases status <;> decide
  have hfirst : Decides db decided (· = approvalId) status.asStr :=
    hdb ▸ decides_setStatus_id db approvalId status.asStr
  have hall := hfirst.trans hdecides hne
  refine ⟨⟨hall.rows, hall.ids, hall.sessionIds⟩, ?_, row, ?_, ?_, ?_⟩
  · -- The event of the decision is no card.
    refine resumes_of_sessions (show Resumes db settled from ?_) rfl ?_
    · intro session hs hrunning
      exact (hresumes session hs hrunning).imp_left fun hold => by rwa [hdb] at hold
    · intro sessionId hsettled
      refine ⟨hsettled.1, ?_⟩
      rw [hasDurablePending, listDurablePending_append rfl (by simp [resolvedEvent])]
      exact hsettled.2
  · rw [happrovals, hdb, hrow]
    simp only [Database.setStatus, Table.mem_update]
    exact ⟨existing, hmem, by simp [hid, hpending]⟩
  · rw [hrow, hid]
  · rw [hrow]

theorem advances_resolve (h : Inv s)
    (hok : resolve hasOutstandingCardAsk fault s approvalId status = .ok s') :
    Advances s s' ∧ Resumes s.db s'.db := by
  obtain ⟨_, -, hok⟩ := ArgmaxResult.bind_eq_ok.mp hok
  obtain ⟨current, hcurrent, hok⟩ := ArgmaxResult.bind_eq_ok.mp hok
  dsimp only at hok
  split at hok
  · simp at hok
  obtain ⟨db, hdb, hok⟩ := ArgmaxResult.bind_eq_ok.mp hok
  obtain rfl := Except.ok.inj hok
  obtain ⟨hdecides, hresumes, row, hrow, hid, hstatus⟩ := resolveRow_eq_ok hdb
  refine ⟨?_, hresumes⟩
  have hgone : ∀ responder ∈ s.native.delete (fun responder => responder.approvalId == approvalId),
      responder ∈ s.native ∧ responder.approvalId ≠ approvalId := by
    simp
  have hbase : Advances s ⟨db, s.native.delete fun responder => responder.approvalId == approvalId,
      s.told⟩ :=
    advances_of_decides h hdecides (fun responder hr =>
      ⟨(hgone responder hr).2, responder, (hgone responder hr).1, rfl, rfl⟩) rfl
  by_cases hopen : (s.native.find? approvalId).any (fun responder => !responder.isClosed) = true
  · obtain ⟨responder, hfind, -⟩ := (Option.any_eq_true _ _).mp hopen
    obtain ⟨hmem, hown⟩ := Table.find?_eq_some.mp hfind
    have hanswer : status.asStr = (decision (status == .approved)).asStr := by
      cases status <;> rfl
    simp only [hopen]
    refine ⟨inv_tell hbase.inv ?_ ?_ (fun other ho => (hgone other ho).2) ?_, hbase.decided, ?_⟩
    · exact hdecides.ids ▸ hown ▸ h.native responder hmem
    · exact fun answer ha heq => h.done answer ha responder hmem (hown.trans heq.symm)
    · intro other ho heq
      rw [Table.eq_of_key ho hrow (heq.trans hid.symm), hstatus, hanswer]
    · exact List.forall_mem_cons.mpr ⟨.inr ⟨row, hrow, hid, hstatus.trans hanswer⟩,
        fun answer ha => .inl ha⟩
  · simp only [hopen]
    exact hbase

/-- Responders go, and nothing else. -/
theorem inv_of_native (h : Inv s) {native : Table Responder.approvalId}
    (hnative : ∀ responder ∈ native, responder ∈ s.native) : Inv { s with native := native } :=
  inv_of_decides h (.refl _ (fun _ => False) "")
    (fun responder hr => ⟨id, responder, hnative responder hr, rfl, rfl⟩) rfl

theorem mem_matching {invocationId requestId : String} {approval : ApprovalRequest}
    (h : approval ∈ matching db sessionId invocationId requestId) :
    approval ∈ db.approvals ∧ approval.sessionId = sessionId := by
  simp only [matching, Database.listApprovalsForSession, List.mem_filter, List.mem_reverse,
    Bool.and_eq_true, beq_iff_eq] at h
  exact ⟨h.1.1, h.1.2.1⟩

instance (fault : Option Call) (pending : List ApprovalRequest) : Decidable (Stops fault pending) :=
  inferInstanceAs (Decidable (∃ approval ∈ pending, _))

/-- The rows whose responders a failing withdrawal drops. -/
def dropped (fault : Option Call) (pending : List ApprovalRequest) : List ApprovalRequest :=
  if Stops fault pending then reached fault pending
  else if fault = some .commit then pending
  else []

theorem mem_without {native : Table Responder.approvalId} {rows : List ApprovalRequest}
    {responder : Responder} (h : responder ∈ without native rows) :
    responder ∈ native ∧ responder.approvalId ∉ rows.map (·.id) := by
  simp only [without, Table.mem_delete, List.any_eq_false, beq_iff_eq] at h
  refine ⟨h.1, fun hmem => ?_⟩
  obtain ⟨approval, ha, heq⟩ := List.mem_map.mp hmem
  exact h.2 approval ha heq

theorem advances_cancelNativeRequest (h : Inv s) (fault : Option Call)
    (sessionId invocationId requestId : String) :
    Advances s (cancelNativeRequest hasOutstandingCardAsk fault s sessionId invocationId requestId).2 ∧
      Resumes s.db
        (cancelNativeRequest hasOutstandingCardAsk fault s sessionId invocationId requestId).2.db := by
  have hdrops : ∀ rows, Advances s { s with native := without s.native rows } ∧
      Resumes s.db s.db := fun rows =>
    ⟨⟨inv_of_native h fun _ hr => (mem_without hr).1, (advances_refl h).decided, fun _ ha => .inl ha⟩,
      resumes_refl _⟩
  rw [cancelNativeRequest]
  cases attempt fault Call.read with
  | error error => exact ⟨advances_refl h, resumes_refl _⟩
  | ok _ =>
    dsimp only
    rcases withdraw_cases fault s.db s.native (matching s.db sessionId invocationId requestId)
        fun approval ha => ⟨approval, (mem_matching ha).1, rfl⟩ with
      ⟨-, db, heq, hdecides, hsessions, hevents⟩ | ⟨-, error, heq⟩
    · rw [heq]
      simp only [bind, Except.bind]
      cases hresume : resume hasOutstandingCardAsk fault db sessionId
          (matching s.db sessionId invocationId requestId) with
      | error error => exact hdrops _
      | ok db' =>
        obtain ⟨hdecides', hresumes⟩ := resume_eq_ok hresume
          (fun id => id ∈ (matching s.db sessionId invocationId requestId).map (·.id)) "cancelled"
        refine ⟨advances_of_decides h (hdecides.trans hdecides' (by decide)) (fun responder hr => ?_)
          rfl, ?_⟩
        · exact ⟨(mem_without hr).2, responder, (mem_without hr).1, rfl, rfl⟩
        · exact fun session hs hrunning =>
            (hresumes session hs hrunning).imp_left fun hold => hsessions ▸ hold
    · rw [heq]
      exact hdrops _

/-- **A withdrawal that fails leaves everything**, unless it dropped a responder. -/
theorem kept_cancelNativeRequest (h : Inv s) (fault : Option Call)
    (sessionId invocationId requestId : String) :
    (∀ error, (cancelNativeRequest hasOutstandingCardAsk fault s sessionId invocationId
        requestId).1 = .error error →
      (cancelNativeRequest hasOutstandingCardAsk fault s sessionId invocationId requestId).2 = s) ↔
    ∀ approval ∈ dropped fault (matching s.db sessionId invocationId requestId),
      s.native.find? approval.id = none := by
  have hsame : ∀ rows, { s with native := without s.native rows } = s ↔
      ∀ approval ∈ rows, s.native.find? approval.id = none := by
    intro rows
    rw [← without_eq_self]
    exact ⟨fun heq => congrArg State.native heq, fun heq => by rw [heq]⟩
  rw [cancelNativeRequest]
  by_cases hread : fault = some .read
  · have hstops : ¬ Stops fault (matching s.db sessionId invocationId requestId) := by
      simp [Stops, hread]
    simp [attempt, hread, dropped, hread ▸ hstops]
  rw [attempt, if_neg hread]
  dsimp only
  rcases withdraw_cases fault s.db s.native (matching s.db sessionId invocationId requestId)
      fun approval ha => ⟨approval, (mem_matching ha).1, rfl⟩ with
    ⟨hgoes, db, heq, hdecides, hsessions, hevents⟩ | ⟨hstops, error, heq⟩
  · rw [heq, dropped, if_neg hgoes]
    simp only [bind, Except.bind]
    by_cases hcommit : fault = some .commit
    · have herror : resume hasOutstandingCardAsk fault db sessionId
          (matching s.db sessionId invocationId requestId) =
            .error (.serviceError "SQLITE" "database error") := by
        rw [resume, attempt, if_pos hcommit]
        rfl
      rw [herror, if_pos hcommit]
      simp [hsame]
    · simp only [hcommit, if_false, List.not_mem_nil, false_implies, implies_true, iff_true]
      intro error herror
      by_cases hnone : matching s.db sessionId invocationId requestId = []
      · simp only [hnone] at herror ⊢
        cases hresume : resume hasOutstandingCardAsk fault db sessionId [] with
        | error _ => exact (hsame []).mpr (by simp)
        | ok db' => simp [hresume] at herror
      · obtain ⟨approval, ha⟩ := List.exists_mem_of_ne_nil _ hnone
        have hsession : sessionId ∈ db.sessions.rows.map (·.id) := by
          rw [hsessions, ← (mem_matching ha).2]
          exact h.sessions approval (mem_matching ha).1
        obtain ⟨db', hresume⟩ := @resume_of_session hasOutstandingCardAsk _ _ hsession _ hcommit
          (matching s.db sessionId invocationId requestId)
        simp [hresume] at herror
  · rw [heq, dropped, if_pos hstops]
    simp [bind, Except.bind, hsame]

end

/-! ## Cancellations -/

/-- The rows that are pending among the selected, and those that a cancellation selects. -/
structure Lists (db : Database) (pending : List ApprovalRequest)
    (selected : ApprovalRequest → Bool) : Prop where
  rows : ∀ approval ∈ pending, approval ∈ db.approvals ∧ approval.status = "pending" ∧
    selected approval = true
  all : ∀ row ∈ db.approvals, row.status = "pending" → selected row = true → row ∈ pending

theorem lists_session (db : Database) (sessionId : String) :
    Lists db (db.listApprovalsForSession sessionId "pending")
      (fun row => row.sessionId == sessionId) := by
  constructor
  · intro approval ha
    simp only [Database.listApprovalsForSession, List.mem_filter, List.mem_reverse,
      Bool.and_eq_true, beq_iff_eq] at ha
    exact ⟨ha.1, ha.2.2, beq_iff_eq.mpr ha.2.1⟩
  · intro row hrow hpending hsel
    simp only [Database.listApprovalsForSession, List.mem_filter, List.mem_reverse,
      Bool.and_eq_true, beq_iff_eq]
    exact ⟨hrow, beq_iff_eq.mp hsel, hpending⟩

theorem lists_workspace (db : Database) (workspaceId : String) :
    Lists db (db.listApprovalsForWorkspace workspaceId "pending")
      (fun row => db.sessions.rows.any fun session =>
        session.id == row.sessionId && session.workspaceId == workspaceId) := by
  constructor
  · intro approval ha
    simp only [Database.listApprovalsForWorkspace, List.mem_filter, List.mem_reverse,
      Bool.and_eq_true, beq_iff_eq] at ha
    exact ⟨ha.1, ha.2.2, ha.2.1⟩
  · intro row hrow hpending hsel
    simp only [Database.listApprovalsForWorkspace, List.mem_filter, List.mem_reverse,
      Bool.and_eq_true, beq_iff_eq]
    exact ⟨hrow, hsel, hpending⟩

theorem rereadAll_of_rows {pending : List ApprovalRequest}
    (hfound : ∀ approval ∈ pending, ∃ row ∈ db.approvals, row.id = approval.id) :
    rereadAll fault db pending = .ok () ↔ ∀ approval ∈ pending, fault ≠ some (.reread approval.id) := by
  rw [rereadAll, ArgmaxResult.forM_eq_ok]
  refine forall₂_congr fun approval ha => ?_
  obtain ⟨row, hfind⟩ := findApprovalById_of_exists (hfound approval ha)
  rw [ArgmaxResult.bind_eq_ok]
  simp [attempt_eq_ok, hfind, bind, Except.bind, pure, Except.pure]

section

variable {s : State} {pending : List ApprovalRequest} {selected : ApprovalRequest → Bool}

theorem advances_cancelPending (h : Inv s) (hlists : Lists s.db pending selected)
    (fault : Option Call) :
    Advances s (cancelPending fault s pending (s.db.setStatus selected "cancelled")).2 ∧
      (cancelPending fault s pending (s.db.setStatus selected "cancelled")).2.db.sessions =
        s.db.sessions := by
  rw [cancelPending]
  split
  · exact ⟨advances_refl h, rfl⟩
  · cases attempt fault Call.commit with
    | error error => exact ⟨advances_refl h, rfl⟩
    | ok _ =>
      refine ⟨advances_of_decides h (decides_setStatus s.db selected "cancelled")
        (fun responder hr => ?_) rfl, rfl⟩
      obtain ⟨hold, hnot⟩ := mem_without hr
      refine ⟨?_, responder, hold, rfl, rfl⟩
      rintro ⟨row, hrow, heq, hsel, hpending⟩
      exact hnot (List.mem_map.mpr ⟨row, hlists.all row hrow hpending hsel, heq⟩)

/-- A cancellation fails before its commit and changes nothing, or is past it. -/
theorem cancelPending_cases (hlists : Lists s.db pending selected) (fault : Option Call) :
    (pending = [] ∧ cancelPending fault s pending (s.db.setStatus selected "cancelled") =
      (.ok (), s)) ∨
    (pending ≠ [] ∧ fault = some .commit ∧ ∃ error,
      cancelPending fault s pending (s.db.setStatus selected "cancelled") = (.error error, s)) ∨
    (pending ≠ [] ∧ fault ≠ some .commit ∧
      (cancelPending fault s pending (s.db.setStatus selected "cancelled")).2.db ≠ s.db ∧
      ((cancelPending fault s pending (s.db.setStatus selected "cancelled")).1 = .ok () ↔
        ∀ approval ∈ pending, fault ≠ some (.reread approval.id))) := by
  rw [cancelPending]
  split
  · rename_i hnil
    exact .inl ⟨hnil, rfl⟩
  · rename_i hne
    by_cases hcommit : fault = some .commit
    · refine .inr (.inl ⟨hne, hcommit, ?_⟩)
      rw [attempt, if_pos hcommit]
      exact ⟨_, rfl⟩
    · rw [attempt, if_neg hcommit]
      refine .inr (.inr ⟨hne, hcommit, fun heq => ?_, rereadAll_of_rows fun approval ha =>
        exists_setStatus ⟨approval, (hlists.rows approval ha).1, rfl⟩ _ _⟩)
      -- Some row was pending and is not any more.
      obtain ⟨approval, ha⟩ := List.exists_mem_of_ne_nil _ hne
      obtain ⟨hrow, hpending, hsel⟩ := hlists.rows approval ha
      have hmem : { approval with status := "cancelled" } ∈ s.db.approvals := by
        rw [← congrArg Database.approvals heq]
        simp only [Database.setStatus, Table.mem_update]
        exact ⟨approval, hrow, by simp [hsel, hpending]⟩
      have hsame : "cancelled" = approval.status :=
        congrArg ApprovalRequest.status (Table.eq_of_key hmem hrow rfl)
      rw [hpending] at hsame
      exact absurd hsame (by decide)

end

/-- What changed something has to succeed. -/
theorem kept_iff_ok {result : ArgmaxResult Unit × State} (h : result.2 ≠ s) :
    (∀ error, result.1 = .error error → result.2 = s) ↔ result.1 = .ok () := by
  obtain ⟨result, after⟩ := result
  cases result with
  | ok _ => simp
  | error error => simpa using h

theorem advances_cancelSessionPending (h : Inv s) (fault : Option Call) (sessionId : String) :
    Advances s (cancelSessionPending fault s sessionId).2 ∧
      (cancelSessionPending fault s sessionId).2.db.sessions = s.db.sessions := by
  have hdrop : Inv { s with
      native := s.native.delete fun responder => responder.sessionId == sessionId } :=
    inv_of_native h fun responder hr => (Table.mem_delete.mp hr).1
  have hstay : Advances s { s with
      native := s.native.delete fun responder => responder.sessionId == sessionId } :=
    ⟨hdrop, (advances_refl h).decided, fun _ ha => .inl ha⟩
  rw [cancelSessionPending]
  cases attempt fault Call.read with
  | error error => exact ⟨hstay, rfl⟩
  | ok _ =>
    obtain ⟨hadvances, hsessions⟩ :=
      advances_cancelPending hdrop (lists_session s.db sessionId) fault
    exact ⟨⟨hadvances.inv, hadvances.decided, hadvances.answered⟩, hsessions⟩

theorem advances_cancelWorkspacePending (h : Inv s) (fault : Option Call) (workspaceId : String) :
    Advances s (cancelWorkspacePending fault s workspaceId).2 ∧
      (cancelWorkspacePending fault s workspaceId).2.db.sessions = s.db.sessions := by
  rw [cancelWorkspacePending]
  cases attempt fault Call.read with
  | error error => exact ⟨advances_refl h, rfl⟩
  | ok _ => exact advances_cancelPending h (lists_workspace s.db workspaceId) fault

/-- A cancellation of a workspace that fails leaves everything, unless its commit was done. -/
theorem kept_cancelWorkspacePending (s : State) (fault : Option Call) (workspaceId : String) :
    (∀ error, (cancelWorkspacePending fault s workspaceId).1 = .error error →
      (cancelWorkspacePending fault s workspaceId).2 = s) ↔
    ∀ approval ∈ s.db.listApprovalsForWorkspace workspaceId "pending",
      fault ≠ some (.reread approval.id) := by
  rw [cancelWorkspacePending]
  by_cases hread : fault = some .read
  · simp [attempt, hread]
  rw [attempt, if_neg hread]
  rcases cancelPending_cases (s := s) (lists_workspace s.db workspaceId) fault with
    ⟨hnil, heq⟩ | ⟨-, hcommit, error, heq⟩ | ⟨-, -, hdb, hok⟩
  · rw [Database.cancelWorkspacePending, heq]
    simp [hnil]
  · rw [Database.cancelWorkspacePending, heq]
    simp [hcommit]
  · rw [← hok]
    exact kept_iff_ok fun heq => hdb (congrArg State.db heq)

/-- A cancellation of a session that fails leaves everything, unless it dropped a responder or
its commit was done. -/
theorem kept_cancelSessionPending (s : State) (fault : Option Call) (sessionId : String) :
    (∀ error, (cancelSessionPending fault s sessionId).1 = .error error →
      (cancelSessionPending fault s sessionId).2 = s) ↔
    (fault = some .read ∨
      (fault = some .commit ∧ s.db.listApprovalsForSession sessionId "pending" ≠ []) →
        ∀ responder ∈ s.native, responder.sessionId ≠ sessionId) ∧
    ∀ approval ∈ s.db.listApprovalsForSession sessionId "pending",
      fault ≠ some (.reread approval.id) := by
  have hsame : { s with
      native := s.native.delete fun responder => responder.sessionId == sessionId } = s ↔
      ∀ responder ∈ s.native, responder.sessionId ≠ sessionId := by
    have hdelete := Table.delete_eq_self (t := s.native)
      (p := fun responder => responder.sessionId == sessionId)
    simp only [beq_eq_false_iff_ne] at hdelete
    rw [← hdelete]
    exact ⟨fun heq => congrArg State.native heq, fun heq => by rw [heq]⟩
  rw [cancelSessionPending]
  by_cases hread : fault = some .read
  · simp [attempt, hread, hsame]
  rw [attempt]
  rcases cancelPending_cases (s := { s with
      native := s.native.delete fun responder => responder.sessionId == sessionId })
      (lists_session s.db sessionId) fault with
    ⟨hnil, heq⟩ | ⟨hne, hcommit, error, heq⟩ | ⟨-, hcommit, hdb, hok⟩
  · dsimp only at heq
    rw [Database.cancelSessionPending, heq]
    simp [hnil, hread]
  · dsimp only at heq
    rw [Database.cancelSessionPending, heq]
    simp [hne, hcommit, hsame]
  · dsimp only at hdb hok
    rw [← hok]
    simp only [hread, hcommit, false_and, or_self, false_implies, true_and]
    exact kept_iff_ok fun heq => hdb (congrArg State.db heq)

/-! ## Every act -/

section

variable (hasOutstandingCardAsk : List PersistTimelineEventInput → String → Bool)

/-- Other code does not act through the service. -/
def Act.isOperation : Act → Bool
  | .write _ _ _ => false
  | _ => true

/-- What every act owes. -/
structure Sound (s : State) (act : Act) : Prop where
  /-- Who is told of an error finds the rows, the sessions and the responders as they were. -/
  kept : ∀ error, (perform hasOutstandingCardAsk s act).1 = .error error →
    step hasOutstandingCardAsk s act = s
  /-- What is decided is final. -/
  decided : ∀ row ∈ s.db.approvals, row.status ≠ "pending" →
    ∀ row' ∈ (step hasOutstandingCardAsk s act).db.approvals, row'.id = row.id → row' = row
  /-- No provider is told twice. -/
  once : ((step hasOutstandingCardAsk s act).told.map (·.1)).Nodup
  /-- A row says what its provider was told. -/
  told : ∀ answer ∈ (step hasOutstandingCardAsk s act).told,
    ∀ row ∈ (step hasOutstandingCardAsk s act).db.approvals, row.id = answer.1 →
      row.status = (decision answer.2).asStr
  /-- A provider is told what is committed. -/
  answered : ∀ answer ∈ (step hasOutstandingCardAsk s act).told, answer ∈ s.told ∨
    ∃ row ∈ (step hasOutstandingCardAsk s act).db.approvals, row.id = answer.1 ∧
      row.status = (decision answer.2).asStr
  /-- The service lets a session run when nothing of it is pending. -/
  resumes : act.isOperation = true → Resumes s.db (step hasOutstandingCardAsk s act).db

/-- The act is no cancellation that fails with a responder dropped or past its commit. -/
def Harmless (s : State) : Act → Prop
  | .cancelNativeRequest fault sessionId invocationId requestId =>
    ∀ approval ∈ dropped fault (matching s.db sessionId invocationId requestId),
      s.native.find? approval.id = none
  | .cancelWorkspacePending fault workspaceId =>
    ∀ approval ∈ s.db.listApprovalsForWorkspace workspaceId "pending",
      fault ≠ some (.reread approval.id)
  | .cancelSessionPending fault sessionId =>
    (fault = some .read ∨
      (fault = some .commit ∧ s.db.listApprovalsForSession sessionId "pending" ≠ []) →
        ∀ responder ∈ s.native, responder.sessionId ≠ sessionId) ∧
    ∀ approval ∈ s.db.listApprovalsForSession sessionId "pending",
      fault ≠ some (.reread approval.id)
  | _ => True

theorem committed_error {result : ArgmaxResult State} {error : ArgmaxError}
    (h : (committed s result).1 = .error error) : (committed s result).2 = s := by
  cases result with
  | ok after => simp [committed] at h
  | error _ => rfl

/-- An operation that changes nothing when it fails. -/
theorem advances_committed (h : Inv s) {result : ArgmaxResult State}
    (hok : ∀ s', result = .ok s' → Advances s s' ∧ Resumes s.db s'.db) :
    Advances s (committed s result).2 ∧ Resumes s.db (committed s result).2.db := by
  cases result with
  | ok s' => exact hok s' rfl
  | error error => exact ⟨advances_refl h, resumes_refl _⟩

/-- Whatever an act comes to. -/
theorem advances_step (h : Inv s) (act : Act) :
    Advances s (step hasOutstandingCardAsk s act) ∧
      (act.isOperation = true → Resumes s.db (step hasOutstandingCardAsk s act).db) := by
  have hand : ∀ {s' : State} {p : Prop}, Advances s s' ∧ Resumes s.db s'.db →
      Advances s s' ∧ (p → Resumes s.db s'.db) := fun h => ⟨h.1, fun _ => h.2⟩
  have hsame : ∀ {s' : State} {p : Prop}, Advances s s' ∧ s'.db.sessions = s.db.sessions →
      Advances s s' ∧ (p → Resumes s.db s'.db) := fun h =>
    ⟨h.1, fun _ session hs _ => .inl (h.2 ▸ hs)⟩
  cases act with
  | registerNative fault native =>
    exact hand (advances_committed h fun s' hok => advances_registerNative h hok)
  | cancelNativeRequest fault sessionId invocationId requestId =>
    exact hand (advances_cancelNativeRequest h fault sessionId invocationId requestId)
  | resolve fault approvalId status =>
    exact hand (advances_committed h fun s' hok => advances_resolve h hok)
  | cancelWorkspacePending fault workspaceId =>
    exact hsame (advances_cancelWorkspacePending h fault workspaceId)
  | cancelSessionPending fault sessionId =>
    exact hsame (advances_cancelSessionPending h fault sessionId)
  | hangUp approvalId =>
    refine hsame ⟨advances_of_decides h (.refl _ (fun _ => False) "") (fun responder hr => ?_) rfl, rfl⟩
    simp only [step, perform, Table.mem_update] at hr
    obtain ⟨before, hbefore, rfl⟩ := hr
    refine ⟨id, before, hbefore, (approvalId_hungUp _ _).symm, ?_⟩
    rw [hungUp]
    split <;> rfl
  | restart =>
    exact hsame ⟨⟨inv_of_native h fun _ hr => absurd hr (Table.not_mem_empty _),
      (advances_refl h).decided, fun _ ha => .inl ha⟩, rfl⟩
  | persist input =>
    refine hand (advances_committed h fun s' hok => ?_)
    cases hpersist : s.db.persistApproval input with
    | error error => simp [hpersist, Except.map] at hok
    | ok written =>
      simp only [hpersist, Except.map, Except.ok.injEq] at hok
      exact hok ▸ advances_persist h hpersist
  | write sessions workspaces events =>
    have hkept : ∀ row ∈ s.db.approvals.delete fun row => (sessions.find? row.sessionId).isNone,
        row ∈ s.db.approvals ∧ row.sessionId ∈ sessions.rows.map (·.id) := by
      intro row hrow
      obtain ⟨hold, hfind⟩ := Table.mem_delete.mp hrow
      obtain ⟨session, hsession⟩ := Option.isSome_iff_exists.mp (by simpa using hfind)
      obtain ⟨hmem, hid⟩ := Table.find?_eq_some.mp hsession
      exact ⟨hold, List.mem_map.mpr ⟨session, hmem, hid⟩⟩
    refine ⟨⟨?_, fun row hrow _ row' hrow' hid =>
      Table.eq_of_key (hkept row' hrow').1 hrow hid, fun _ ha => .inl ha⟩, by simp [Act.isOperation]⟩
    exact
      { ids := fun row hrow => h.ids row (hkept row hrow).1
        sessions := fun row hrow => (hkept row hrow).2
        native := h.native
        live := fun responder hr row hrow => h.live responder hr row (hkept row hrow).1
        toldIds := h.toldIds
        done := h.done
        once := h.once
        told := fun answer ha row hrow => h.told answer ha row (hkept row hrow).1 }

/-- **An act is sound when it is harmless, and only then.** -/
theorem sound_iff_harmless (h : Inv s) (act : Act) :
    Sound hasOutstandingCardAsk s act ↔ Harmless s act := by
  -- Everything but `kept` holds of every act.
  have hrest := advances_step hasOutstandingCardAsk h act
  have hkept : (∀ error, (perform hasOutstandingCardAsk s act).1 = .error error →
      step hasOutstandingCardAsk s act = s) ↔ Harmless s act := by
    cases act with
    | cancelNativeRequest fault sessionId invocationId requestId =>
      exact kept_cancelNativeRequest h fault sessionId invocationId requestId
    | cancelWorkspacePending fault workspaceId =>
      exact kept_cancelWorkspacePending s fault workspaceId
    | cancelSessionPending fault sessionId => exact kept_cancelSessionPending s fault sessionId
    | registerNative | resolve | persist =>
      simp only [Harmless, iff_true]
      exact fun error => committed_error
    | hangUp | restart | write => simp [Harmless, perform]
  rw [← hkept]
  exact ⟨Sound.kept, fun hk => ⟨hk, hrest.1.decided, hrest.1.inv.once, hrest.1.inv.told,
    hrest.1.answered, hrest.2⟩⟩

/-- **Approvals are sound in every run of harmless acts, and in no other.** -/
theorem approvals_sound_iff (sessions : Table SessionRow.id) (workspaces : Table WorkspaceRow.id)
    (events : List PersistTimelineEventInput) (acts : List Act) :
    Legal (step hasOutstandingCardAsk) (Sound hasOutstandingCardAsk)
        (.start sessions workspaces events) acts ↔
      Legal (step hasOutstandingCardAsk) Harmless (.start sessions workspaces events) acts :=
  legal_congr (I := Inv) (fun _ act h => (advances_step hasOutstandingCardAsk h act).1.inv)
    (fun _ act h => sound_iff_harmless hasOutstandingCardAsk h act)
    (inv_start sessions workspaces events) acts

end

/-- A request waits for its answer when the store fails the cancellation of its session. -/
def cancelledRun : List Act :=
  [.registerNative none ⟨⟨"s", "claude", "turn-1", "r1"⟩, "ls", "/tmp", "low"⟩,
    .cancelSessionPending (some .read) "s"]

/-- **A cancellation that fails cuts the provider off from a request that stays pending.** -/
theorem approvals_not_sound :
    ¬ Legal (step fun _ _ => false) (Sound fun _ _ => false)
      (.start ⟨[⟨"s", "w", .running, .normal⟩], by decide⟩ .empty []) cancelledRun := by
  intro h
  have hkept := h.2.1.kept _ rfl
  revert hkept
  decide

end Argmax.Approvals
