import Argmax.Lib.Table
import Argmax.Sync.Discovery

/-!
# Imported sessions

`persistence/synced.rs`: the sessions beside their rows among the synced ones, and the statements
of a sweep on them. Rows of providers other than Claude are not imported, so the synced rows are
Claude's. Events, read cursors, and the columns a sweep only writes are out of the model.

Session and workspace ids are drawn, and no id is drawn twice.
-/

namespace Argmax.Persistence.Synced

open Argmax.Lib Argmax.Sync

/-! ## Rows -/

/-- A row of `synced_sessions`. -/
structure SyncedSession where
  externalId : String
  sourcePath : String
  sourceMtimeMs : ℤ
  /-- The session was continued in Argmax. -/
  adopted : Bool
  startedAt : String

/-- A row of `sessions`, beside its row of `synced_sessions`. -/
structure Session where
  id : ℕ
  workspaceId : ℕ
  provider : String
  providerConversationId : Option String
  resumeFork : Bool
  /-- The providers and conversations of its `provider_bindings`. -/
  bindings : List (String × String)
  lastActivityAt : String
  synced : Option SyncedSession

def Session.externalId (session : Session) : Option String := session.synced.map (·.externalId)

/-- The session may be pruned: it was imported and never continued. -/
def Session.isDisposable (session : Session) : Bool := session.synced.any fun row => !row.adopted

/-- The row of a session that grew: `touch_imported_session` and `upsert_synced_session`. -/
def Session.extended (session : Session) (sessionId : ℕ) (found : DiscoveredSession) : Session :=
  if session.id = sessionId then
    { session with
      lastActivityAt := found.lastActivityAt
      synced := session.synced.map fun row =>
        { row with
          sourcePath := found.sourcePath
          sourceMtimeMs := found.sourceMtimeMs } }
  else session

theorem Session.extended_frame (session : Session) (sessionId : ℕ) (found : DiscoveredSession) :
    (session.extended sessionId found).id = session.id ∧
      (session.extended sessionId found).workspaceId = session.workspaceId ∧
      (session.extended sessionId found).externalId = session.externalId := by
  rw [Session.extended]
  split
  · exact ⟨rfl, rfl, by simp [Session.externalId, Function.comp_def]⟩
  · exact ⟨rfl, rfl, rfl⟩

/-- The tables. An import has the transcript and the workspace for itself. -/
structure Store where
  sessions : Table Session.id
  /-- The transcripts of chats that were deleted. -/
  tombstones : List String
  /-- The projects with their folders. -/
  projects : List (String × String)
  /-- The ids that were drawn are below. -/
  drawn : ℕ
  drawn_bound : ∀ session ∈ sessions, session.id < drawn ∧ session.workspaceId < drawn
  external_unique : ∀ session ∈ sessions, ∀ other ∈ sessions, session.synced.isSome →
    session.externalId = other.externalId → session.id = other.id
  own_workspace : ∀ session ∈ sessions, ∀ other ∈ sessions, session.synced.isSome →
    other.synced.isSome → session.workspaceId = other.workspaceId → session.id = other.id

/-! ## Reads -/

/-- What `list_synced_sessions` reads. -/
structure SyncedSessionRecord extends SyncedSession where
  sessionId : ℕ

namespace Store

variable (store : Store)

/-- `list_synced_sessions`, in any order. -/
def listSyncedSessions : List SyncedSessionRecord :=
  store.sessions.rows.filterMap fun session => session.synced.map fun row => ⟨row, session.id⟩

def knownConversationIds : List String :=
  (store.sessions.rows.filterMap fun session =>
    if session.provider = "claude" then session.providerConversationId else none) ++
    store.tombstones

/-- The window is over for an import, if there is a window. -/
def isPrunable (before : Option String) (session : Session) : Bool :=
  session.isDisposable && before.all fun cutoff => session.lastActivityAt < cutoff

def prunableSessionIds (before : Option String) : List ℕ :=
  (store.sessions.rows.filter (isPrunable before)).map (·.id)

/-! ## Writes -/

/-- The rows are rewritten or deleted, and none changes its workspace or its transcript. -/
def withSessions (sessions : Table Session.id)
    (h : ∀ session ∈ sessions, ∃ old ∈ store.sessions, old.id = session.id ∧
      old.workspaceId = session.workspaceId ∧ old.externalId = session.externalId) : Store where
  sessions := sessions
  tombstones := store.tombstones
  projects := store.projects
  drawn := store.drawn
  drawn_bound := by
    intro session hsession
    have ⟨old, hold, hid, hworkspace, _⟩ := h session hsession
    rw [← hid, ← hworkspace]
    exact store.drawn_bound old hold
  external_unique := by
    intro session hsession other hother hsynced heq
    have ⟨old, hold, hid, _, hexternal⟩ := h session hsession
    have ⟨old', hold', hid', _, hexternal'⟩ := h other hother
    have hsome : old.synced.isSome := by
      have hmap := congrArg Option.isSome hexternal
      simpa [Session.externalId, hsynced] using hmap
    rw [← hid, ← hid']
    exact store.external_unique old hold old' hold' hsome
      (hexternal.trans (heq.trans hexternal'.symm))
  own_workspace := by
    intro session hsession other hother hsynced hsynced' heq
    have ⟨old, hold, hid, hworkspace, hexternal⟩ := h session hsession
    have ⟨old', hold', hid', hworkspace', hexternal'⟩ := h other hother
    have hsome : old.synced.isSome := by
      have hmap := congrArg Option.isSome hexternal
      simpa [Session.externalId, hsynced] using hmap
    have hsome' : old'.synced.isSome := by
      have hmap := congrArg Option.isSome hexternal'
      simpa [Session.externalId, hsynced'] using hmap
    rw [← hid, ← hid']
    exact store.own_workspace old hold old' hold' hsome hsome'
      (hworkspace.trans (heq.trans hworkspace'.symm))

/-- The workspaces of some sessions. -/
def workspacesOf (sessionIds : List ℕ) : List ℕ :=
  sessionIds.filterMap fun id => (store.sessions.find? id).map (·.workspaceId)

/-- `delete_sessions`: the sessions go, and their workspaces with all the sessions there. -/
def deleteSessions (sessionIds : List ℕ) : Store :=
  store.withSessions
    ((store.sessions.delete fun session => sessionIds.contains session.id).delete
      fun session => (store.workspacesOf sessionIds).contains session.workspaceId)
    fun session h =>
      ⟨session, (Table.mem_delete.mp (Table.mem_delete.mp h).1).1, rfl, rfl, rfl⟩

/-- The rows of `extend`. -/
def extendSession (sessionId : ℕ) (found : DiscoveredSession) : Store :=
  store.withSessions
    (store.sessions.update (fun session => session.extended sessionId found)
      fun session => (session.extended_frame sessionId found).1)
    fun session h => by
      have ⟨old, hold, hsession⟩ := Table.mem_update.mp h
      have ⟨hid, hworkspace, hexternal⟩ := old.extended_frame sessionId found
      subst hsession
      exact ⟨old, hold, hid.symm, hworkspace.symm, hexternal.symm⟩

/-- The row of a session that is imported. -/
def importedRow (found : DiscoveredSession) : Session where
  id := store.drawn
  workspaceId := store.drawn
  provider := "claude"
  providerConversationId := some found.externalId
  resumeFork := false
  bindings := []
  lastActivityAt := found.lastActivityAt
  synced := some
    { externalId := found.externalId
      sourcePath := found.sourcePath
      sourceMtimeMs := found.sourceMtimeMs
      adopted := false
      startedAt := found.startedAt }

theorem find?_drawn : store.sessions.find? store.drawn = none :=
  Table.find?_eq_none.mpr fun session hsession hid => by
    have hbound := (store.drawn_bound session hsession).1
    omega

/-- The rows of `import`, which fails where the transcript has been imported. -/
def importSession (found : DiscoveredSession) : Option Store :=
  if h : ∀ session ∈ store.sessions, session.externalId ≠ some found.externalId then
    some
      { sessions := store.sessions.push (store.importedRow found) store.find?_drawn
        tombstones := store.tombstones
        projects := store.projects
        drawn := store.drawn + 1
        drawn_bound := by
          intro session hsession
          rcases Table.mem_push.mp hsession with hold | hnew
          · have hbound := store.drawn_bound session hold
            omega
          · subst hnew
            exact ⟨Nat.lt_succ_self _, Nat.lt_succ_self _⟩
        external_unique := by
          intro session hsession other hother hsynced heq
          rcases Table.mem_push.mp hsession with hold | hnew <;>
            rcases Table.mem_push.mp hother with hold' | hnew'
          · exact store.external_unique session hold other hold' hsynced heq
          · subst hnew'
            exact absurd heq (h session hold)
          · subst hnew
            exact absurd heq.symm (h other hold')
          · rw [hnew, hnew']
        own_workspace := by
          intro session hsession other hother hsynced hsynced' heq
          rcases Table.mem_push.mp hsession with hold | hnew <;>
            rcases Table.mem_push.mp hother with hold' | hnew'
          · exact store.own_workspace session hold other hold' hsynced hsynced' heq
          · subst hnew'
            have hbound := (store.drawn_bound session hold).2
            exact absurd heq (Nat.ne_of_lt hbound)
          · subst hnew
            have hbound := (store.drawn_bound other hold').2
            exact absurd heq.symm (Nat.ne_of_lt hbound)
          · rw [hnew, hnew'] }
  else none

end Store

end Argmax.Persistence.Synced
