import Argmax.Lib.Rfc3339
import Argmax.Sync.Sweep

/-!
# What a sweep leaves of the imports

The pruner goes by the activity that the last sweep stored, and discovery by the time of the
file. So a transcript that was taken up again after its window had passed loses its session and
gets another one in the same sweep; and an import whose stored activity ran ahead of its file
stays behind. A chat that left a conversation of Claude parked does not know it either, and its
transcript is imported beside the chat.
-/

namespace Argmax.Sync

open Argmax.Lib Argmax.Persistence.Synced

/-! ## What is asked of a sweep -/

/-- From `store` a sweep went to `swept`. -/
structure Unchurned (disk : Disk) (cutoffMs : ℤ) (store swept : Store) : Prop where
  /-- No import is deleted whose transcript is imported again. -/
  kept : ∀ session ∈ store.sessions, ∀ other ∈ swept.sessions, session.synced.isSome →
    session.externalId = other.externalId → session.id = other.id
  /-- No session is deleted that was continued. -/
  adopted : ∀ session ∈ store.sessions, session.synced.isSome → session.isDisposable = false →
    ∃ other ∈ swept.sessions, other.id = session.id
  /-- An import that was not continued has a recent transcript. -/
  recent : ∀ session ∈ swept.sessions, session.isDisposable →
    ∀ externalId, session.externalId = some externalId → disk.HasRecent cutoffMs externalId
  /-- It is the only session of its transcript. -/
  alone : ∀ session ∈ swept.sessions, session.isDisposable →
    ∀ externalId, session.externalId = some externalId →
      ∀ other ∈ swept.sessions, Holds other externalId → other.id = session.id

/-! ## Rows and files that agree -/

section Steady

variable (isoFromMs : ℤ → Option String) (config : SyncConfig) (disk : Disk) (nowMs : ℤ)
  (store : Store)

/-- The stored rows and the files agree on which imports are recent, and no other session has
one of their transcripts. -/
structure Steady : Prop where
  /-- An import whose window is over has no transcript that would be imported. -/
  expired : ∀ session ∈ store.sessions, isExpired isoFromMs config nowMs session = true →
    ∀ found ∈ reached isoFromMs config disk nowMs store, session.externalId ≠ some found.externalId
  /-- An import whose window is not over has a recent transcript, if the transcript is there. -/
  recent : ∀ session ∈ store.sessions, session.isDisposable →
    ¬Leaves isoFromMs config disk nowMs store session.workspaceId →
      ∀ externalId, session.externalId = some externalId →
        disk.HasRecent (cutoffMs config nowMs) externalId
  alone : ∀ session ∈ store.sessions, session.isDisposable →
    ¬Leaves isoFromMs config disk nowMs store session.workspaceId →
      ∀ externalId, session.externalId = some externalId → ∀ other ∈ store.sessions,
        ¬Leaves isoFromMs config disk nowMs store other.workspaceId →
          Holds other externalId → other.id = session.id
  /-- No chat left a conversation that would be imported. -/
  parked : ∀ found ∈ reached isoFromMs config disk nowMs store, ∀ session ∈ store.sessions,
    ¬Leaves isoFromMs config disk nowMs store session.workspaceId → ¬Holds session found.externalId

end Steady

variable {session : Session}

/-! ## What stays -/

section Stays

variable {isoFromMs : ℤ → Option String} {config : SyncConfig} {disk : Disk} {nowMs : ℤ}
  {store : Store}

theorem isSome_of_isDisposable (h : session.isDisposable = true) :
    session.synced.isSome = true := by
  cases hsynced : session.synced with
  | none => simp [Session.isDisposable, hsynced] at h
  | some row => rfl

theorem isDisposable_of_isPrunable {before : Option String}
    (h : Store.isPrunable before session = true) : session.isDisposable = true :=
  (Bool.and_eq_true_iff.mp h).1

/-- An import is pruned just when its window is over: its workspace is its own. -/
theorem isPruned_eq_isExpired (h : session ∈ store.sessions)
    (hsynced : session.synced.isSome = true) :
    isPruned isoFromMs config nowMs store session.workspaceId =
      isExpired isoFromMs config nowMs session := by
  rw [Bool.eq_iff_iff, isPruned_eq_true]
  constructor
  · rintro ⟨other, hother, hexpired, hworkspace⟩
    have hother' := isSome_of_isDisposable (isDisposable_of_isPrunable hexpired)
    have hid := store.own_workspace other hother session h hother' hsynced hworkspace
    rwa [← Table.eq_of_key hother h hid]
  · exact fun hexpired => ⟨session, h, hexpired, rfl⟩

theorem isDisposable_of_isGone (h : isGone disk session = true) : session.isDisposable = true := by
  have ⟨row, hrow, hgone⟩ := (Option.any_eq_true _ _).mp h
  exact (Option.any_eq_true _ _).mpr ⟨row, hrow, (Bool.and_eq_true_iff.mp hgone).1⟩

/-- The workspace of an import that was continued stays. -/
theorem not_leaves_of_adopted (h : session ∈ store.sessions)
    (hsynced : session.synced.isSome = true) (hadopted : session.isDisposable = false) :
    ¬Leaves isoFromMs config disk nowMs store session.workspaceId := by
  have hother (other : Session) (hother : other ∈ store.sessions)
      (hdisposable : other.isDisposable = true) :
      other.workspaceId ≠ session.workspaceId := by
    intro hworkspace
    have hid := store.own_workspace other hother session h
      (isSome_of_isDisposable hdisposable) hsynced hworkspace
    rw [Table.eq_of_key hother h hid, hadopted] at hdisposable
    cases hdisposable
  rintro (hpruned | ⟨_, other, hmem, _, hgone, hworkspace⟩)
  · have ⟨other, hmem, hexpired, hworkspace⟩ := isPruned_eq_true.mp hpruned
    exact hother other hmem (isDisposable_of_isPrunable hexpired) hworkspace
  · exact hother other hmem (isDisposable_of_isGone hgone) hworkspace

end Stays

/-! ## Sweeps that leave what they should -/

section Unchurned

variable {isoFromMs : ℤ → Option String} {config : SyncConfig} {disk : Disk} {nowMs : ℤ}
  {store swept : Store}

theorem id_eq {other : Session} (h : standing session = standing other) :
    session.id = other.id := by
  simpa using congrArg Session.id h

theorem steady_of_unchurned
    (h : Swept (Leaves isoFromMs config disk nowMs store) store swept
      (reached isoFromMs config disk nowMs store))
    (hswept : Unchurned disk (cutoffMs config nowMs) store swept) :
    Steady isoFromMs config disk nowMs store where
  expired := by
    intro session hsession hexpired found hfound hexternal
    have ⟨other, hother, himport⟩ := h.new found hfound
    have hsynced := isSome_of_isDisposable (isDisposable_of_isPrunable hexpired)
    have hid := hswept.kept session hsession other hother hsynced
      (hexternal.trans himport.external.symm)
    have hold := (store.drawn_bound session hsession).1
    have hnew := himport.id
    omega
  recent := by
    intro session hsession hdisposable hstays externalId hexternal
    have ⟨other, hother, heq⟩ := h.old session hsession hstays
    refine hswept.recent other hother ?_ externalId ?_
    · rwa [← isDisposable_standing, heq, isDisposable_standing]
    · rwa [← externalId_standing, heq, externalId_standing]
  alone := by
    intro session hsession hdisposable hstays externalId hexternal other hother hstays' hholds
    have ⟨session', hsession', heq⟩ := h.old session hsession hstays
    have ⟨other', hother', heq'⟩ := h.old other hother hstays'
    rw [← id_eq heq, ← id_eq heq']
    refine hswept.alone session' hsession' ?_ externalId ?_ other' hother' ?_
    · rwa [← isDisposable_standing, heq, isDisposable_standing]
    · rwa [← externalId_standing, heq, externalId_standing]
    · rwa [← holds_standing, heq', holds_standing]
  parked := by
    intro found hfound session hsession hstays hholds
    have ⟨other, hother, himport⟩ := h.new found hfound
    have ⟨session', hsession', heq⟩ := h.old session hsession hstays
    have hid := hswept.alone other hother himport.disposable found.externalId himport.external
      session' hsession' (by rwa [← holds_standing, heq, holds_standing])
    have hold := (store.drawn_bound session hsession).1
    have hnew := himport.id
    have hsame := id_eq heq
    omega

/-- What is imported is no transcript of an import that stays. -/
theorem externalId_ne_of_mem_reached {found : DiscoveredSession}
    (hfound : found ∈ reached isoFromMs config disk nowMs store) (h : session ∈ store.sessions)
    (hstays : ¬Leaves isoFromMs config disk nowMs store session.workspaceId) :
    session.externalId ≠ some found.externalId := by
  have hfresh := (List.mem_filter.mp (takeDistinct_subset _ _ hfound)).2
  have hpruned := Bool.eq_false_iff.mpr (mt Or.inl hstays)
  exact externalId_ne_of_isFresh hfresh h hpruned

theorem unchurned_of_steady
    (h : Swept (Leaves isoFromMs config disk nowMs store) store swept
      (reached isoFromMs config disk nowMs store))
    (hsteady : Steady isoFromMs config disk nowMs store) :
    Unchurned disk (cutoffMs config nowMs) store swept where
  kept := by
    intro session hsession other hother hsynced hexternal
    rcases h.origin other hother with ⟨first, hfirst, _, heq⟩ | ⟨found, hfound, himport⟩
    · rw [id_eq heq]
      refine store.external_unique session hsession first hfirst hsynced ?_
      rw [hexternal, ← externalId_standing, heq, externalId_standing]
    · have hsame := hexternal.trans himport.external
      have hfresh := (List.mem_filter.mp (takeDistinct_subset _ _ hfound)).2
      cases hexpired : isExpired isoFromMs config nowMs session with
      | true => exact absurd hsame (hsteady.expired session hsession hexpired found hfound)
      | false =>
        rw [← isPruned_eq_isExpired hsession hsynced] at hexpired
        exact absurd hsame (externalId_ne_of_isFresh hfresh hsession hexpired)
  adopted := by
    intro session hsession hsynced hadopted
    have ⟨other, hother, heq⟩ := h.old session hsession
      (not_leaves_of_adopted hsession hsynced hadopted)
    exact ⟨other, hother, id_eq heq⟩
  recent := by
    intro session hsession hdisposable externalId hexternal
    rcases h.origin session hsession with ⟨first, hfirst, hstays, heq⟩ | ⟨found, hfound, himport⟩
    · refine hsteady.recent first hfirst ?_ hstays externalId ?_
      · rwa [← isDisposable_standing, ← heq, isDisposable_standing]
      · rwa [← externalId_standing, ← heq, externalId_standing]
    · have hsame := Option.some.inj (hexternal.symm.trans himport.external)
      rw [hsame]
      have hdiscover := (List.mem_filter.mp (takeDistinct_subset _ _ hfound)).1
      exact hasRecent_of_mem_discover isoFromMs hdiscover
  alone := by
    intro session hsession hdisposable externalId hexternal other hother hholds
    rcases h.origin session hsession with
      ⟨first, hfirst, hstays, heq⟩ | ⟨found, hfound, himport⟩ <;>
      rcases h.origin other hother with
        ⟨last, hlast, hstays', heq'⟩ | ⟨found', hfound', himport'⟩
    · rw [id_eq heq, id_eq heq']
      refine hsteady.alone first hfirst ?_ hstays externalId ?_ last hlast hstays' ?_
      · rwa [← isDisposable_standing, ← heq, isDisposable_standing]
      · rwa [← externalId_standing, ← heq, externalId_standing]
      · rwa [← holds_standing, ← heq', holds_standing]
    · have hsame := himport'.holds externalId hholds
      rw [hsame, ← externalId_standing, heq, externalId_standing] at hexternal
      exact absurd hexternal (externalId_ne_of_mem_reached hfound' hfirst hstays)
    · have hsame := Option.some.inj (hexternal.symm.trans himport.external)
      rw [hsame, ← holds_standing, heq', holds_standing] at hholds
      exact absurd hholds (hsteady.parked found hfound last hlast hstays')
    · have hsame := himport'.holds externalId hholds
      have hother' := himport'.external
      rw [← hsame, ← hexternal] at hother'
      exact swept.external_unique other hother session hsession
        (isSome_of_isDisposable himport'.disposable) hother'

/-- Where imports are off, every import that was not continued goes. -/
theorem unchurned_of_off (hoff : config.claude = false) (cutoff : ℤ) :
    Unchurned disk cutoff store ((runSync isoFromMs config disk nowMs).run store).1 := by
  have hrun : ((runSync isoFromMs config disk nowMs).run store).1 =
      store.deleteSessions (store.prunableSessionIds none) := by
    rw [runSync, if_neg (by simp [hoff])]
    rfl
  have hprunable (session : Session) :
      Store.isPrunable none session = session.isDisposable := by simp [Store.isPrunable]
  have hnone (session : Session)
      (h : session ∈ (store.deleteSessions (store.prunableSessionIds none)).sessions) :
      session.isDisposable ≠ true := fun hdisposable => by
    obtain ⟨hold, hstays⟩ := mem_deleteSessions.mp h
    have hid := (mem_prunableSessionIds hold).mpr ((hprunable session).trans hdisposable)
    exact hstays session hold hid rfl
  rw [hrun]
  refine ⟨fun session hsession other hother hsynced hexternal => ?_,
    fun session hsession hsynced hadopted => ?_,
    fun session hsession hdisposable => absurd hdisposable (hnone session hsession),
    fun session hsession hdisposable => absurd hdisposable (hnone session hsession)⟩
  · exact store.external_unique session hsession other (mem_deleteSessions.mp hother).1 hsynced
      hexternal
  · refine ⟨session, mem_deleteSessions.mpr ⟨hsession, fun other hother hid hworkspace => ?_⟩, rfl⟩
    have hdisposable := (hprunable other).symm.trans ((mem_prunableSessionIds hother).mp hid)
    have hsame := store.own_workspace other hother session hsession
      (isSome_of_isDisposable hdisposable) hsynced hworkspace
    rw [Table.eq_of_key hother hsession hsame, hadopted] at hdisposable
    cases hdisposable

/-- **Sweeps.** A sweep leaves the imports as it should just where it is off, or the stored rows
and the files agree. -/
theorem unchurned_iff (isoFromMs : ℤ → Option String) (config : SyncConfig) (disk : Disk)
    (nowMs : ℤ) (store : Store) :
    Unchurned disk (cutoffMs config nowMs) store
        ((runSync isoFromMs config disk nowMs).run store).1 ↔
      (config.claude = true → Steady isoFromMs config disk nowMs store) := by
  cases hclaude : config.claude with
  | false => simpa using unchurned_of_off hclaude _
  | true =>
    have hswept := swept_runSync isoFromMs disk nowMs store hclaude
    exact ⟨fun h _ => steady_of_unchurned hswept h, fun h => unchurned_of_steady hswept (h rfl)⟩

end Unchurned

/-! ## A transcript that is taken up again -/

section TakenUp

/-- A transcript of the first day, and an hour ago it was written to. -/
def takenUp : TranscriptFile where
  path := "/home/.claude/projects/-repo/talk.jsonl"
  stem := some "talk"
  extension := some "jsonl"
  metadata := some (some 255600000)
  head := some [.object [("cwd", .string "/repo"),
    ("timestamp", .string "1970-01-01T00:00:00.000Z")]]

def takenUpDisk : Disk where
  folders := some [⟨true, some [takenUp]⟩]
  present := fun _ => true

/-- Its import, when it was last seen. -/
def dormant : Session where
  id := 0
  workspaceId := 0
  provider := "claude"
  providerConversationId := some "talk"
  resumeFork := false
  bindings := []
  lastActivityAt := "1970-01-01T00:00:00.000Z"
  synced := some ⟨"talk", takenUp.path, 0, false, "1970-01-01T00:00:00.000Z"⟩

def dormantStore : Store where
  sessions := ⟨[dormant], by simp⟩
  tombstones := []
  projects := [("project", "/repo")]
  drawn := 1
  drawn_bound := by simp [Table.mem_def, dormant]
  external_unique := by simp [Table.mem_def]
  own_workspace := by simp [Table.mem_def]

/-- The text of an instant since the epoch. -/
def isoText (ms : ℤ) : Option String :=
  some (String.ofList (Rfc3339.text (Rfc3339.yearStart 1970 * 86400000 + ms.toNat)))

/-- On the fourth day a sweep deletes the import, and imports its transcript again. -/
theorem dormant_import_churned :
    ¬Unchurned takenUpDisk (cutoffMs ⟨true, 24⟩ 259200000) dormantStore
      ((runSync isoText ⟨true, 24⟩ takenUpDisk 259200000).run dormantStore).1 := by
  intro h
  have hrows : ((runSync isoText ⟨true, 24⟩ takenUpDisk 259200000).run
      dormantStore).1.sessions.rows.any
        (fun other => other.id == 1 && other.externalId == some "talk") = true := by
    decide +kernel
  have ⟨other, hother, hrow⟩ := List.any_eq_true.mp hrows
  simp only [Bool.and_eq_true, beq_iff_eq] at hrow
  have hid := h.kept dormant (by simp [dormantStore, Table.mem_def]) other hother rfl hrow.2.symm
  rw [hrow.1] at hid
  exact absurd hid (by decide)

end TakenUp

end Argmax.Sync
