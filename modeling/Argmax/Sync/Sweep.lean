import Argmax.Sync.Engine

/-!
# What a sweep comes to

A sweep deletes workspaces with all their sessions, and imports transcripts of which no session
is known. Both are told from the store and the disk that it starts from.
-/

namespace Argmax.Sync

open Argmax.Lib Argmax.Persistence.Synced

/-- The session is one of the transcript: its import, or a chat with its conversation. -/
def Holds (session : Session) (externalId : String) : Prop :=
  session.externalId = some externalId ∨
    (session.provider = "claude" ∧ session.providerConversationId = some externalId ∧
      session.resumeFork = false) ∨
    ("claude", externalId) ∈ session.bindings

/-! ## What a sweep meets -/

section Meets

variable (isoFromMs : ℤ → Option String) (config : SyncConfig) (disk : Disk) (nowMs : ℤ)
  (store : Store)

/-- The window of an import that was not continued is over, by the activity that is stored. -/
def isExpired (session : Session) : Bool :=
  Store.isPrunable (some (cutoffIso isoFromMs config nowMs)) session

/-- The workspace is that of an import which is expired, and goes with all sessions in it. -/
def isPruned (workspaceId : ℕ) : Bool :=
  store.sessions.rows.any fun session =>
    isExpired isoFromMs config nowMs session && session.workspaceId == workspaceId

/-- The transcript is of a project and of no session that is known behind the pruner. -/
def isFresh (found : DiscoveredSession) : Bool :=
  (owningProject (longestFirst store.projects) found.cwd).isSome &&
    !store.tombstones.contains found.externalId &&
    store.sessions.rows.all fun session =>
      isPruned isoFromMs config nowMs store session.workspaceId ||
        session.externalId != some found.externalId &&
          !(session.provider == "claude" && session.providerConversationId == some found.externalId)

/-- The rows up to the first whose transcript was seen. -/
def takeDistinct (seen : List String) : List DiscoveredSession → List DiscoveredSession
  | [] => []
  | session :: discovered =>
    if session.externalId ∈ seen then []
    else session :: takeDistinct (seen ++ [session.externalId]) discovered

def fresh : List DiscoveredSession :=
  (discover isoFromMs disk (cutoffMs config nowMs)).filter (isFresh isoFromMs config nowMs store)

/-- Of two transcripts of one name the second ends the sweep. -/
def reached : List DiscoveredSession :=
  takeDistinct [] (fresh isoFromMs config disk nowMs store)

/-- No two transcripts of one name are fresh. -/
def IsComplete : Prop :=
  reached isoFromMs config disk nowMs store = fresh isoFromMs config disk nowMs store

/-- An import that was not continued, and its transcript is not where it was. -/
def isGone (session : Session) : Bool :=
  session.synced.any fun row => !row.adopted && !disk.present row.sourcePath

/-- The workspace is that of an import which the sweep deletes. -/
def Leaves (workspaceId : ℕ) : Prop :=
  isPruned isoFromMs config nowMs store workspaceId = true ∨
    IsComplete isoFromMs config disk nowMs store ∧
      ∃ session ∈ store.sessions,
        isPruned isoFromMs config nowMs store session.workspaceId = false ∧
          isGone disk session = true ∧ session.workspaceId = workspaceId

end Meets

/-! ## Deletions -/

section Delete

variable {store : Store} {session : Session}

theorem mem_deleteSessions {sessionIds : List ℕ} :
    session ∈ (store.deleteSessions sessionIds).sessions ↔
      session ∈ store.sessions ∧
        ∀ other ∈ store.sessions, other.id ∈ sessionIds →
          other.workspaceId ≠ session.workspaceId := by
  have hworkspaces (workspaceId : ℕ) : workspaceId ∈ store.workspacesOf sessionIds ↔
      ∃ other ∈ store.sessions, other.id ∈ sessionIds ∧ other.workspaceId = workspaceId := by
    simp only [Store.workspacesOf, List.mem_filterMap, Option.map_eq_some_iff, Table.find?_eq_some]
    constructor
    · rintro ⟨id, hid, other, ⟨hother, hkey⟩, hworkspace⟩
      exact ⟨other, hother, hkey ▸ hid, hworkspace⟩
    · rintro ⟨other, hother, hid, hworkspace⟩
      exact ⟨other.id, hid, other, ⟨hother, rfl⟩, hworkspace⟩
  simp only [Store.deleteSessions, Store.withSessions, Table.mem_delete, List.contains_eq_mem,
    decide_eq_false_iff_not, hworkspaces]
  constructor
  · rintro ⟨⟨hsession, _⟩, hworkspace⟩
    exact ⟨hsession, fun other hother hid heq => hworkspace ⟨other, hother, hid, heq⟩⟩
  · rintro ⟨hsession, hother⟩
    refine ⟨⟨hsession, fun hid => hother session hsession hid rfl⟩, ?_⟩
    rintro ⟨other, hmem, hid, heq⟩
    exact hother other hmem hid heq

theorem mem_prunableSessionIds {before : Option String} (h : session ∈ store.sessions) :
    session.id ∈ store.prunableSessionIds before ↔ Store.isPrunable before session = true := by
  simp only [Store.prunableSessionIds, List.mem_map, List.mem_filter]
  constructor
  · rintro ⟨other, ⟨hother, hprunable⟩, hid⟩
    rwa [← Table.eq_of_key hother h hid]
  · intro hprunable
    exact ⟨session, ⟨h, hprunable⟩, rfl⟩

end Delete

/-! ## What a sweep does not rewrite -/

section Standing

/-- A session without what a sweep rewrites of it. -/
def standing (session : Session) : Session :=
  { session with
    lastActivityAt := ""
    synced := session.synced.map fun row => { row with sourcePath := "", sourceMtimeMs := 0 } }

variable {session other : Session}

@[simp] theorem id_standing : (standing session).id = session.id := rfl

@[simp] theorem workspaceId_standing : (standing session).workspaceId = session.workspaceId := rfl

@[simp] theorem externalId_standing : (standing session).externalId = session.externalId := by
  simp [standing, Session.externalId, Function.comp_def]

@[simp] theorem isDisposable_standing : (standing session).isDisposable = session.isDisposable := by
  rw [Session.isDisposable, Session.isDisposable, standing]
  cases session.synced <;> rfl

@[simp] theorem holds_standing {externalId : String} :
    Holds (standing session) externalId ↔ Holds session externalId := by
  rw [Holds, externalId_standing]
  rfl

theorem standing_extended (sessionId : ℕ) (found : DiscoveredSession) :
    standing (session.extended sessionId found) = standing session := by
  rw [Session.extended]
  split
  · simp [standing, Function.comp_def]
  · rfl

/-- The session was imported from a transcript, since `drawn` was next to be drawn. -/
structure IsImport (drawn : ℕ) (session : Session) (found : DiscoveredSession) : Prop where
  id : drawn ≤ session.id
  workspace : drawn ≤ session.workspaceId
  disposable : session.isDisposable = true
  external : session.externalId = some found.externalId
  holds : ∀ externalId, Holds session externalId → externalId = found.externalId

theorem isImport_importedRow (store : Store) (found : DiscoveredSession) :
    IsImport store.drawn (store.importedRow found) found where
  id := Nat.le_refl _
  workspace := Nat.le_refl _
  disposable := rfl
  external := rfl
  holds := by simp [Holds, Store.importedRow, Session.externalId, eq_comm]

theorem IsImport.congr {drawn : ℕ} {found : DiscoveredSession} (h : IsImport drawn session found)
    (heq : standing other = standing session) : IsImport drawn other found where
  id := by rw [← id_standing, heq]; exact h.id
  workspace := by rw [← workspaceId_standing, heq]; exact h.workspace
  disposable := by rw [← isDisposable_standing, heq]; simpa using h.disposable
  external := by rw [← externalId_standing, heq]; simpa using h.external
  holds := by
    intro externalId hholds
    rw [← holds_standing, heq, holds_standing] at hholds
    exact h.holds externalId hholds

theorem IsImport.mono {drawn drawn' : ℕ} {found : DiscoveredSession}
    (h : IsImport drawn' session found) (hle : drawn ≤ drawn') : IsImport drawn session found :=
  ⟨Nat.le_trans hle h.id, Nat.le_trans hle h.workspace, h.disposable, h.external, h.holds⟩

end Standing

variable {store : Store} {imports : List DiscoveredSession} {session : Session}

/-! ## The transcripts that were found -/

section Sweep

/-- The transcripts of the sessions that were imported. -/
def externalIds (store : Store) : List String := store.sessions.rows.filterMap Session.externalId

/-- A transcript of a project and of no session that is known. -/
def isTaken (roots : List (String × String)) (known : List String)
    (existing : List SyncedSessionRecord) (found : DiscoveredSession) : Bool :=
  (existing.find? fun record => record.externalId == found.externalId).isNone &&
    (owningProject roots found.cwd).isSome && !known.contains found.externalId

/-- From `store` to `swept` the workspaces in `leaves` were deleted and `imports` imported. -/
structure Swept (leaves : ℕ → Prop) (store swept : Store) (imports : List DiscoveredSession) :
    Prop where
  drawn : store.drawn ≤ swept.drawn
  old : ∀ session ∈ store.sessions, ¬leaves session.workspaceId →
    ∃ other ∈ swept.sessions, standing other = standing session
  origin : ∀ session ∈ swept.sessions,
    (∃ other ∈ store.sessions, ¬leaves other.workspaceId ∧ standing session = standing other) ∨
      ∃ found ∈ imports, IsImport store.drawn session found
  new : ∀ found ∈ imports, ∃ session ∈ swept.sessions, IsImport store.drawn session found

theorem Swept.refl (store : Store) : Swept (fun _ => False) store store [] where
  drawn := Nat.le_refl _
  old := fun session hsession _ => ⟨session, hsession, rfl⟩
  origin := fun session hsession => .inl ⟨session, hsession, not_false, rfl⟩
  new := by simp

theorem Swept.congr {leaves leaves' : ℕ → Prop} {swept : Store}
    (h : Swept leaves store swept imports)
    (hiff : ∀ workspaceId, leaves workspaceId ↔ leaves' workspaceId) :
    Swept leaves' store swept imports := by
  rwa [← funext fun workspaceId => propext (hiff workspaceId)]

theorem workspaceId_eq {other : Session} (h : standing session = standing other) :
    session.workspaceId = other.workspaceId := by
  simpa using congrArg Session.workspaceId h

theorem Swept.trans {leaves leaves' : ℕ → Prop} {store' store'' : Store}
    {imports' : List DiscoveredSession} (h : Swept leaves store store' imports)
    (h' : Swept leaves' store' store'' imports')
    (hbound : ∀ workspaceId, leaves' workspaceId → workspaceId < store.drawn) :
    Swept (fun workspaceId => leaves workspaceId ∨ leaves' workspaceId) store store''
      (imports ++ imports') where
  drawn := Nat.le_trans h.drawn h'.drawn
  old := by
    intro session hsession hstays
    rw [not_or] at hstays
    have ⟨other, hother, heq⟩ := h.old session hsession hstays.1
    have ⟨last, hlast, heq'⟩ := h'.old other hother (workspaceId_eq heq ▸ hstays.2)
    exact ⟨last, hlast, heq'.trans heq⟩
  origin := by
    intro session hsession
    rcases h'.origin session hsession with ⟨other, hother, hstays', heq⟩ | ⟨found, hfound, himport⟩
    · rcases h.origin other hother with ⟨first, hfirst, hstays, heq'⟩ | ⟨found, hfound, himport⟩
      · refine .inl ⟨first, hfirst, not_or.mpr ⟨hstays, ?_⟩, heq.trans heq'⟩
        rwa [← workspaceId_eq heq']
      · exact .inr ⟨found, List.mem_append_left _ hfound, himport.congr heq⟩
    · exact .inr ⟨found, List.mem_append_right _ hfound, himport.mono h.drawn⟩
  new := by
    intro found hfound
    rcases List.mem_append.mp hfound with hfound | hfound
    · have ⟨session, hsession, himport⟩ := h.new found hfound
      have hstays : ¬leaves' session.workspaceId := fun hleaves => by
        have hold := hbound _ hleaves
        have hworkspace := himport.workspace
        omega
      have ⟨last, hlast, heq⟩ := h'.old session hsession hstays
      exact ⟨last, hlast, himport.congr heq⟩
    · have ⟨session, hsession, himport⟩ := h'.new found hfound
      exact ⟨session, hsession, himport.mono h.drawn⟩

/-- Without a deletion in between. -/
theorem Swept.append {store' store'' : Store} {imports' : List DiscoveredSession}
    (h : Swept (fun _ => False) store store' imports)
    (h' : Swept (fun _ => False) store' store'' imports') :
    Swept (fun _ => False) store store'' (imports ++ imports') := by
  simpa using h.trans h' fun _ => False.elim

theorem swept_deleteSessions (store : Store) (sessionIds : List ℕ) :
    Swept (fun workspaceId => ∃ session ∈ store.sessions, session.id ∈ sessionIds ∧
      session.workspaceId = workspaceId) store (store.deleteSessions sessionIds) [] where
  drawn := Nat.le_refl _
  old := by
    intro session hsession hstays
    refine ⟨session, mem_deleteSessions.mpr ⟨hsession, fun other hother hid heq => ?_⟩, rfl⟩
    exact hstays ⟨other, hother, hid, heq⟩
  origin := by
    intro session hsession
    have ⟨hold, hstays⟩ := mem_deleteSessions.mp hsession
    refine .inl ⟨session, hold, ?_, rfl⟩
    rintro ⟨other, hother, hid, heq⟩
    exact hstays other hother hid heq
  new := by simp

theorem mem_extendSession {sessionId : ℕ} {found : DiscoveredSession} :
    session ∈ (store.extendSession sessionId found).sessions ↔
      ∃ old ∈ store.sessions, old.extended sessionId found = session :=
  @Table.mem_update _ _ _ _ _ (fun session => (session.extended_frame sessionId found).1) _

theorem swept_extendSession (store : Store) (sessionId : ℕ) (found : DiscoveredSession) :
    Swept (fun _ => False) store (store.extendSession sessionId found) [] where
  drawn := Nat.le_refl _
  old := fun session hsession _ =>
    ⟨session.extended sessionId found, mem_extendSession.mpr ⟨session, hsession, rfl⟩,
      standing_extended sessionId found⟩
  origin := by
    intro session hsession
    obtain ⟨other, hother, heq⟩ := mem_extendSession.mp hsession
    exact .inl ⟨other, hother, not_false, heq ▸ standing_extended sessionId found⟩
  new := by simp

@[simp] theorem externalIds_extendSession (store : Store) (sessionId : ℕ)
    (found : DiscoveredSession) :
    externalIds (store.extendSession sessionId found) = externalIds store := by
  simp only [externalIds, Store.extendSession, Store.withSessions, Table.update, List.filterMap_map]
  exact List.filterMap_congr fun session _ => (session.extended_frame sessionId found).2.2

theorem importSession_eq_none {found : DiscoveredSession} :
    store.importSession found = none ↔ found.externalId ∈ externalIds store := by
  simp only [Store.importSession, externalIds, List.mem_filterMap, ← Table.mem_def]
  split
  case isTrue h => simpa using h
  case isFalse h => simpa using h

/-- An import that succeeds. -/
theorem importSession_eq_some {store' : Store} {found : DiscoveredSession}
    (h : store.importSession found = some store') :
    externalIds store' = externalIds store ++ [found.externalId] ∧
      Swept (fun _ => False) store store' [found] := by
  rw [Store.importSession] at h
  split at h
  case isFalse => cases h
  case isTrue hnew =>
    cases h
    refine ⟨by simp [externalIds, Table.push, Store.importedRow, Session.externalId], ?_⟩
    refine ⟨Nat.le_succ _, fun session hsession _ => ?_, ?_, ?_⟩
    · exact ⟨session, Table.mem_push_of_mem store.find?_drawn hsession, rfl⟩
    · intro session hsession
      rcases (@Table.mem_push _ _ _ _ _ _ _ store.find?_drawn).mp hsession with
        hold | himported
      · exact .inl ⟨session, hold, not_false, rfl⟩
      · exact .inr ⟨found, by simp, himported ▸ isImport_importedRow store found⟩
    · intro other hother
      rw [List.mem_singleton] at hother
      subst hother
      exact ⟨_, Table.mem_push_self store.find?_drawn, isImport_importedRow store other⟩

variable {roots : List (String × String)} {known : List String}
  {existing : List SyncedSessionRecord}

/-- A transcript that is not taken. -/
theorem swept_sweepTranscript {found : DiscoveredSession}
    (h : isTaken roots known existing found = false) (store : Store) :
    ∃ swept, (sweepTranscript roots known existing found).run store = (swept, .ok ()) ∧
      externalIds swept = externalIds store ∧ Swept (fun _ => False) store swept [] := by
  have hself : ∃ swept, (pure () : SyncM Unit).run store = (swept, .ok ()) ∧
      externalIds swept = externalIds store ∧ Swept (fun _ => False) store swept [] :=
    ⟨store, rfl, rfl, .refl store⟩
  rw [sweepTranscript]
  cases hfind : existing.find? fun record => record.externalId == found.externalId with
  | some record =>
    dsimp only
    split
    · exact hself
    · exact ⟨_, rfl, externalIds_extendSession store _ found,
        swept_extendSession store _ found⟩
  | none =>
    cases howner : owningProject roots found.cwd with
    | none => exact hself
    | some project =>
      have hknown : known.contains found.externalId = true := by
        simpa [isTaken, hfind, howner] using h
      rw [if_pos hknown]
      exact hself

theorem sweepTranscript_of_isTaken {found : DiscoveredSession}
    (h : isTaken roots known existing found = true) :
    sweepTranscript roots known existing found = importTranscript found := by
  simp only [isTaken, Bool.and_eq_true, Option.isNone_iff_eq_none, Option.isSome_iff_exists,
    Bool.not_eq_true'] at h
  obtain ⟨⟨hfind, project, howner⟩, hknown⟩ := h
  simp only [sweepTranscript, hfind, howner, hknown]
  rfl

variable (roots known existing) in
/-- What going over the transcripts comes to. -/
theorem swept_sweepDiscovered (discovered : List DiscoveredSession) (store : Store) :
    Swept (fun _ => False) store ((sweepDiscovered roots known existing discovered).run store).1
        (takeDistinct (externalIds store) (discovered.filter (isTaken roots known existing))) ∧
      (((sweepDiscovered roots known existing discovered).run store).2 = .ok () ↔
        takeDistinct (externalIds store) (discovered.filter (isTaken roots known existing)) =
          discovered.filter (isTaken roots known existing)) := by
  induction discovered generalizing store with
  | nil => exact ⟨.refl store, by simp [sweepDiscovered, takeDistinct, pure, Proc.pure]⟩
  | cons found discovered ih =>
    rw [sweepDiscovered]
    cases htaken : isTaken roots known existing found with
    | false =>
      obtain ⟨swept, hrun, hexternal, hswept⟩ := swept_sweepTranscript htaken store
      obtain ⟨hrest, hok⟩ := ih swept
      rw [hexternal] at hrest hok
      rw [Proc.run_bind_ok hrun, List.filter_cons_of_neg (by simp [htaken])]
      exact ⟨hswept.append hrest, hok⟩
    | true =>
      rw [sweepTranscript_of_isTaken htaken, List.filter_cons_of_pos htaken, takeDistinct]
      cases himport : store.importSession found with
      | none =>
        have hrun : ∃ e, (importTranscript found).run store = (store, .error e) := by
          simp [importTranscript, Proc.run_bind_ok (show Proc.get.run store = (store, .ok store)
            from rfl), himport, Proc.lift]
        obtain ⟨e, hrun⟩ := hrun
        rw [Proc.run_bind_error hrun, if_pos (importSession_eq_none.mp himport)]
        exact ⟨.refl store, by simp⟩
      | some swept =>
        obtain ⟨hexternal, hswept⟩ := importSession_eq_some himport
        have hrun : (importTranscript found).run store = (swept, .ok ()) := by
          simp [importTranscript, Proc.run_bind_ok (show Proc.get.run store = (store, .ok store)
            from rfl), himport, Proc.modify]
        have hnew : found.externalId ∉ externalIds store := by
          rw [← importSession_eq_none, himport]
          simp
        obtain ⟨hrest, hok⟩ := ih swept
        rw [hexternal] at hrest hok
        rw [Proc.run_bind_ok hrun, if_neg hnew]
        exact ⟨hswept.append hrest, hok.trans (by simp)⟩

end Sweep

/-! ## A sweep -/

section Run

variable {isoFromMs : ℤ → Option String} {config : SyncConfig} {disk : Disk} {nowMs : ℤ}
  {store : Store}

theorem isPruned_eq_true {workspaceId : ℕ} :
    isPruned isoFromMs config nowMs store workspaceId = true ↔
      ∃ session ∈ store.sessions, isExpired isoFromMs config nowMs session = true ∧
        session.workspaceId = workspaceId := by
  simp [isPruned, Table.mem_def]

/-- The store behind the pruner. -/
def pruned (isoFromMs : ℤ → Option String) (config : SyncConfig) (nowMs : ℤ) (store : Store) :
    Store :=
  store.deleteSessions (store.prunableSessionIds (some (cutoffIso isoFromMs config nowMs)))

theorem mem_pruned :
    session ∈ (pruned isoFromMs config nowMs store).sessions ↔
      session ∈ store.sessions ∧
        isPruned isoFromMs config nowMs store session.workspaceId = false := by
  rw [pruned, mem_deleteSessions, ← Bool.not_eq_true, isPruned_eq_true]
  refine and_congr_right fun _ => ?_
  push Not
  refine forall₂_congr fun other hother => ?_
  rw [mem_prunableSessionIds hother]
  rfl

theorem swept_pruned (isoFromMs : ℤ → Option String) (config : SyncConfig) (nowMs : ℤ)
    (store : Store) :
    Swept (fun workspaceId => isPruned isoFromMs config nowMs store workspaceId = true) store
      (pruned isoFromMs config nowMs store) [] := by
  refine ⟨Nat.le_refl _, fun session hsession hstays => ?_, fun session hsession => ?_, by simp⟩
  · exact ⟨session, mem_pruned.mpr ⟨hsession, Bool.eq_false_iff.mpr hstays⟩, rfl⟩
  · have ⟨hold, hstays⟩ := mem_pruned.mp hsession
    exact .inl ⟨session, hold, by simp [hstays], rfl⟩

theorem mem_knownConversationIds {externalId : String} :
    externalId ∈ store.knownConversationIds ↔
      (∃ session ∈ store.sessions, session.provider = "claude" ∧
        session.providerConversationId = some externalId) ∨ externalId ∈ store.tombstones := by
  simp [Store.knownConversationIds, ← Table.mem_def]

theorem find?_listSyncedSessions_eq_none {externalId : String} :
    store.listSyncedSessions.find? (fun record => record.externalId == externalId) = none ↔
      ∀ session ∈ store.sessions, session.externalId ≠ some externalId := by
  simp only [List.find?_eq_none, Store.listSyncedSessions, List.mem_filterMap, beq_iff_eq,
    Option.map_eq_some_iff]
  constructor
  · intro h session hsession hexternal
    obtain ⟨row, hrow, hrowId⟩ := Option.map_eq_some_iff.mp hexternal
    exact h _ ⟨session, hsession, row, hrow, rfl⟩ hrowId
  · rintro h record ⟨session, hsession, row, hrow, hrecord⟩ hexternal
    subst hrecord
    exact h session hsession (Option.map_eq_some_iff.mpr ⟨row, hrow, hexternal⟩)

/-- What is taken of the transcripts, by the rows before the pruner. -/
theorem isTaken_pruned (found : DiscoveredSession) :
    isTaken (longestFirst store.projects)
        (pruned isoFromMs config nowMs store).knownConversationIds
        (pruned isoFromMs config nowMs store).listSyncedSessions found =
      isFresh isoFromMs config nowMs store found := by
  rw [Bool.eq_iff_iff]
  simp only [isTaken, isFresh, Bool.and_eq_true, Option.isNone_iff_eq_none,
    find?_listSyncedSessions_eq_none, List.contains_eq_mem, Bool.not_eq_true',
    decide_eq_false_iff_not, mem_knownConversationIds, mem_pruned, not_or, List.all_eq_true,
    Bool.or_eq_true, bne_iff_ne, Bool.and_eq_false_iff, beq_eq_false_iff_ne]
  constructor
  · rintro ⟨⟨hexternal, howner⟩, hknown, htombstone⟩
    refine ⟨⟨howner, htombstone⟩, fun session hsession => ?_⟩
    by_cases hpruned : isPruned isoFromMs config nowMs store session.workspaceId = true
    · exact .inl hpruned
    · have hstays := And.intro hsession (Bool.eq_false_iff.mpr hpruned)
      refine .inr ⟨hexternal session hstays, ?_⟩
      by_contra hboth
      push Not at hboth
      exact hknown ⟨session, hstays, hboth⟩
  · rintro ⟨⟨howner, htombstone⟩, hall⟩
    refine ⟨⟨fun session hsession => ?_, howner⟩, ?_, htombstone⟩
    · have hpruned := Bool.eq_false_iff.mp hsession.2
      exact ((hall session hsession.1).resolve_left hpruned).1
    · rintro ⟨session, hsession, hprovider, hconversation⟩
      have hpruned := Bool.eq_false_iff.mp hsession.2
      rcases ((hall session hsession.1).resolve_left hpruned).2 with h | h
      · exact h hprovider
      · exact h hconversation

theorem externalId_ne_of_isFresh {found : DiscoveredSession}
    (hfresh : isFresh isoFromMs config nowMs store found = true)
    (hsession : session ∈ store.sessions)
    (hstays : isPruned isoFromMs config nowMs store session.workspaceId = false) :
    session.externalId ≠ some found.externalId := by
  rw [← isTaken_pruned, isTaken, Bool.and_eq_true, Bool.and_eq_true] at hfresh
  have hnone := find?_listSyncedSessions_eq_none.mp (Option.isNone_iff_eq_none.mp hfresh.1.1)
  exact hnone session (mem_pruned.mpr ⟨hsession, hstays⟩)

theorem takeDistinct_append {seen₀ : List String} (discovered : List DiscoveredSession)
    (seen : List String) (h : ∀ found ∈ discovered, found.externalId ∉ seen₀) :
    takeDistinct (seen₀ ++ seen) discovered = takeDistinct seen discovered := by
  induction discovered generalizing seen with
  | nil => rfl
  | cons found discovered ih =>
    have hfound := h found (by simp)
    have hrest := ih (seen ++ [found.externalId]) fun other hother =>
      h other (List.mem_cons_of_mem _ hother)
    rw [takeDistinct, takeDistinct, List.append_assoc, hrest]
    simp [hfound]

theorem takeDistinct_subset (discovered : List DiscoveredSession) (seen : List String) :
    takeDistinct seen discovered ⊆ discovered := by
  induction discovered generalizing seen with
  | nil => simp [takeDistinct]
  | cons found discovered ih =>
    rw [takeDistinct]
    split
    · simp
    · exact List.cons_subset_cons _ (ih _)

theorem takeDistinct_fresh :
    takeDistinct (externalIds (pruned isoFromMs config nowMs store))
        (fresh isoFromMs config disk nowMs store) = reached isoFromMs config disk nowMs store := by
  rw [← List.append_nil (externalIds _)]
  apply takeDistinct_append
  intro found hfound hseen
  have ⟨session, hsession, hexternal⟩ := List.mem_filterMap.mp hseen
  have ⟨hold, hstays⟩ := mem_pruned.mp hsession
  exact externalId_ne_of_isFresh (List.mem_filter.mp hfound).2 hold hstays hexternal

theorem mem_vanished {sessionId : ℕ} :
    sessionId ∈ vanished disk.present store.listSyncedSessions ↔
      ∃ session ∈ store.sessions, isGone disk session = true ∧ session.id = sessionId := by
  simp only [vanished, Store.listSyncedSessions, List.mem_map, List.mem_filter, List.mem_filterMap,
    Option.map_eq_some_iff, isGone, Option.any_eq_true]
  constructor
  · rintro ⟨record, ⟨⟨session, hsession, row, hrow, hrecord⟩, hgone⟩, hid⟩
    subst hrecord
    exact ⟨session, hsession, ⟨row, hrow, hgone⟩, hid⟩
  · rintro ⟨session, hsession, ⟨row, hrow, hgone⟩, hid⟩
    exact ⟨_, ⟨⟨session, hsession, row, hrow, rfl⟩, hgone⟩, hid⟩

/-- The workspaces that go at the end are those of the imports that were gone at the start. -/
theorem Swept.exists_vanished_iff (disk : Disk) {swept : Store}
    (h : Swept (fun _ => False) store swept imports) (workspaceId : ℕ) :
    (∃ session ∈ swept.sessions,
        session.id ∈ vanished disk.present store.listSyncedSessions ∧
          session.workspaceId = workspaceId) ↔
      ∃ session ∈ store.sessions, isGone disk session = true ∧
        session.workspaceId = workspaceId := by
  constructor
  · rintro ⟨session, hsession, hvanished, hworkspace⟩
    have ⟨gone, hmem, hgone, hid⟩ := mem_vanished.mp hvanished
    rcases h.origin session hsession with ⟨other, hother, _, heq⟩ | ⟨found, _, himport⟩
    · have hother' : other.id = gone.id := by
        rw [hid, ← id_standing, ← heq, id_standing]
      have hgone' := Table.eq_of_key hother hmem hother'
      subst hgone'
      exact ⟨other, hother, hgone, (workspaceId_eq heq).symm.trans hworkspace⟩
    · have hdrawn := (store.drawn_bound gone hmem).1
      have hnew := himport.id
      omega
  · rintro ⟨session, hsession, hgone, hworkspace⟩
    have ⟨other, hother, heq⟩ := h.old session hsession not_false
    refine ⟨other, hother, mem_vanished.mpr ⟨session, hsession, hgone, ?_⟩,
      (workspaceId_eq heq).trans hworkspace⟩
    rw [← id_standing, ← heq, id_standing]

/-- What is taken of the transcripts that were found. -/
def taken (store : Store) (discovered : List DiscoveredSession) : List DiscoveredSession :=
  discovered.filter (isTaken (longestFirst store.projects) store.knownConversationIds
    store.listSyncedSessions)

theorem swept_sweepProvider (disk : Disk) (discovered : List DiscoveredSession) (store : Store) :
    Swept (fun workspaceId =>
        takeDistinct (externalIds store) (taken store discovered) = taken store discovered ∧
          ∃ session ∈ store.sessions, isGone disk session = true ∧
            session.workspaceId = workspaceId) store
      ((sweepProvider disk.present discovered).run store).1
      (takeDistinct (externalIds store) (taken store discovered)) := by
  have ⟨hfound, hok⟩ := swept_sweepDiscovered (longestFirst store.projects)
    store.knownConversationIds store.listSyncedSessions discovered store
  have hget : (Proc.get : SyncM Store).run store = (store, .ok store) := rfl
  rw [sweepProvider, Proc.run_bind_ok hget]
  cases hresult : (sweepDiscovered (longestFirst store.projects) store.knownConversationIds
      store.listSyncedSessions discovered).run store with
  | mk swept result =>
    rw [hresult] at hfound hok
    cases result with
    | error e =>
      have hcut := mt hok.mpr (by simp)
      rw [Proc.run_bind_error hresult]
      exact hfound.congr fun workspaceId => ⟨False.elim, fun h => hcut h.1⟩
    | ok u =>
      have hcomplete := hok.mp rfl
      have hgoes := hfound.exists_vanished_iff disk
      have hlast := hfound.trans (swept_deleteSessions swept
        (vanished disk.present store.listSyncedSessions)) ?_
      · dsimp only
        rw [Proc.run_bind_ok hresult]
        rw [List.append_nil] at hlast
        refine hlast.congr fun workspaceId => ?_
        rw [hgoes, false_or]
        exact (and_iff_right hcomplete).symm
      · intro workspaceId hleaves
        have ⟨session, hsession, _, hworkspace⟩ := (hgoes workspaceId).mp hleaves
        rw [← hworkspace]
        exact (store.drawn_bound session hsession).2

/-- What a sweep comes to. -/
theorem swept_runSync (isoFromMs : ℤ → Option String) (disk : Disk) (nowMs : ℤ) (store : Store)
    (hon : config.claude = true) :
    Swept (Leaves isoFromMs config disk nowMs store) store
      ((runSync isoFromMs config disk nowMs).run store).1
      (reached isoFromMs config disk nowMs store) := by
  have hprune := swept_pruned isoFromMs config nowMs store
  have hrun : (prune (some (cutoffIso isoFromMs config nowMs))).run store =
      (pruned isoFromMs config nowMs store, .ok ()) := rfl
  have hsweep := swept_sweepProvider disk (discover isoFromMs disk (cutoffMs config nowMs))
    (pruned isoFromMs config nowMs store)
  have htaken : taken (pruned isoFromMs config nowMs store)
      (discover isoFromMs disk (cutoffMs config nowMs)) = fresh isoFromMs config disk nowMs store :=
    List.filter_congr fun found _ => isTaken_pruned found
  rw [htaken, takeDistinct_fresh] at hsweep
  rw [runSync, if_pos hon]
  refine (hprune.trans hsweep fun workspaceId hleaves => ?_).congr fun workspaceId => ?_
  · have ⟨_, session, hsession, _, hworkspace⟩ := hleaves
    rw [← hworkspace]
    exact ((pruned isoFromMs config nowMs store).drawn_bound session hsession).2
  · simp [Leaves, IsComplete, mem_pruned, and_assoc]

end Run

end Argmax.Sync
