import Argmax.Renderer.BoundedEvents

/-!
# One delta for two

Deltas are conflated by appending their rows and removals, and applied with the
removals first. The snapshot that the conflated delta makes is the one its parts make
one after the other, as long as the second part takes back no row of the first and the
merge of the first part leaves no row out.
-/

namespace Argmax.Renderer

open Argmax.Lib Argmax.Providers

/-! ## Events -/

section Events

variable (collation : Collation) (decode : Decoder)

/-- The events of a merge before budgets and sweep. -/
def sortedEvents (current updates : List TimelineEvent) : List TimelineEvent :=
  (appendNewerEvents collation current updates).getD
    (sortByTimestamp collation (·.createdAt) (·.rowCursor) (upsertById (·.id) current updates))

theorem mergeEventsBounded_of_ne {current updates : List TimelineEvent} (h : updates ≠ []) :
    mergeEventsBounded collation decode current updates =
      bounded decode (sortedEvents collation current updates) := by
  rw [mergeEventsBounded, if_neg]
  · rfl
  · rwa [List.isEmpty_iff]

/-- What holds where new rows are put on top of the rows in hand. -/
theorem appendNewerEvents_eq_some {current updates rows : List TimelineEvent}
    (h : appendNewerEvents collation current updates = some rows) :
    rows = sortByTimestamp collation (·.createdAt) (·.rowCursor) updates ++ current ∧
      (updates.map (·.id)).Nodup ∧
      (∀ event ∈ current, event.id ∉ updates.map (·.id) ∧
        ∀ update ∈ updates, event.rowCursor.getD 0 < update.rowCursor.getD 0) ∧
      Descending (·.rowCursor) current := by
  rw [appendNewerEvents] at h
  split at h
  · rename_i hfast
    simp only [Bool.and_eq_true, decide_eq_true_eq, List.all_eq_true, Bool.not_eq_true',
      List.contains_eq_mem, decide_eq_false_iff_not] at hfast
    obtain ⟨⟨⟨_, _, hnodup⟩, horder⟩, hdescending⟩ := hfast
    refine ⟨(Option.some.inj h).symm, hnodup, ?_, hdescending⟩
    intro event hevent
    exact ⟨(horder event hevent).1.2, (horder event hevent).2⟩
  · cases h

/-- Sorted events: which rows they are, and in what order. -/
structure Sorted (current updates rows : List TimelineEvent) : Prop where
  descending : Descending (·.rowCursor) rows
  nodup : (rows.map (·.id)).Nodup
  lookup : ∀ key, lookup (·.id) rows key =
    (Renderer.lookup (·.id) updates key).or (Renderer.lookup (·.id) current key)

theorem sorted_sortedEvents {pool current updates : List TimelineEvent}
    (hcursors : Cursored (·.id) (·.rowCursor) pool) (hcurrent : ∀ event ∈ current, event ∈ pool)
    (hupdates : ∀ event ∈ updates, event ∈ pool) (hnodup : (current.map (·.id)).Nodup) :
    Sorted current updates (sortedEvents collation current updates) := by
  rw [sortedEvents]
  cases hfast : appendNewerEvents collation current updates with
  | none =>
    have hupserted := nodup_upsertById hnodup updates
    rw [Option.getD_none]
    refine ⟨?_, nodup_sortByTimestamp collation _ _ hupserted, ?_⟩
    · apply descending_sortByTimestamp collation _ hcursors _ hupserted
      intro event hevent
      have hlookup := lookup_of_mem hupserted hevent
      rw [lookup_upsertById, Option.or_eq_some_iff] at hlookup
      rcases hlookup with hnew | ⟨_, hold⟩
      · exact hupdates event (lookup_eq_some hnew).1
      · exact hcurrent event (lookup_eq_some hold).1
    · intro key
      rw [lookup_sortByTimestamp collation _ _ hupserted, lookup_upsertById]
  | some rows =>
    obtain ⟨rfl, hids, hbelow, hdescending⟩ := appendNewerEvents_eq_some collation hfast
    have hperm := perm_sortByTimestamp collation (·.createdAt) (·.rowCursor) updates
    have hsorted := nodup_sortByTimestamp collation (·.createdAt) (·.rowCursor) hids
    rw [Option.getD_some]
    refine ⟨?_, ?_, ?_⟩
    · refine List.pairwise_append.mpr ⟨?_, hdescending, ?_⟩
      · exact descending_sortByTimestamp collation _ hcursors hupdates hids
      · intro update hupdate event hevent
        exact (hbelow event hevent).2 update (hperm.mem_iff.mp hupdate)
    · rw [List.map_append, List.nodup_append]
      refine ⟨hsorted, hnodup, ?_⟩
      intro id hid id' hid' heq
      obtain ⟨event, hevent, rfl⟩ := List.mem_map.mp hid'
      obtain ⟨update, hupdate, rfl⟩ := List.mem_map.mp hid
      apply (hbelow event hevent).1
      rw [← heq]
      exact List.mem_map_of_mem (hperm.mem_iff.mp hupdate)
    · intro key
      rw [lookup_append, lookup_sortByTimestamp collation _ _ hids]
      cases hnew : Renderer.lookup (·.id) updates key with
      | none => rw [Option.or_none, Option.none_or]
      | some update =>
        obtain ⟨hin, hkey⟩ := lookup_eq_some hnew
        cases hold : Renderer.lookup (·.id) current key with
        | none => rfl
        | some event =>
          obtain ⟨hevent, hkey'⟩ := lookup_eq_some hold
          exact absurd (List.mem_map.mpr ⟨update, hin, hkey.trans hkey'.symm⟩)
            (hbelow event hevent).1

/-- Sorted events of the same rows are the same. -/
theorem Sorted.ext {current updates rows current' updates' rows' : List TimelineEvent}
    (h : Sorted current updates rows) (h' : Sorted current' updates' rows')
    (hsame : ∀ key, (Renderer.lookup (·.id) updates key).or (Renderer.lookup (·.id) current key) =
      (Renderer.lookup (·.id) updates' key).or (Renderer.lookup (·.id) current' key)) :
    rows = rows' := by
  apply eq_of_descending h.descending h'.descending h.nodup h'.nodup
  intro key
  rw [h.lookup, h'.lookup, hsame]

theorem Sorted.mem {current updates rows : List TimelineEvent} (h : Sorted current updates rows)
    {event : TimelineEvent} (hevent : event ∈ rows) : event ∈ current ∨ event ∈ updates := by
  have hlookup := lookup_of_mem h.nodup hevent
  rw [h.lookup, Option.or_eq_some_iff] at hlookup
  rcases hlookup with hnew | ⟨_, hold⟩
  · exact Or.inr (lookup_eq_some hnew).1
  · exact Or.inl (lookup_eq_some hold).1

theorem Sorted.length {current updates rows : List TimelineEvent}
    (h : Sorted current updates rows) (hnodup : (current.map (·.id)).Nodup) :
    rows.length = (upsertById (·.id) current updates).length := by
  apply List.Perm.length_eq
  apply perm_of_lookup h.nodup (nodup_upsertById hnodup updates)
  intro key
  rw [h.lookup, lookup_upsertById]

/-- **The events.** The merge of the first delta leaves no event out. -/
theorem mergeEventsBounded_conflates {current first second : List TimelineEvent}
    (hnodup : (current.map (·.id)).Nodup)
    (hcursors : Cursored (·.id) (·.rowCursor) (current ++ first ++ second))
    (kept kept' : String → Bool)
    (hsent : ∀ event ∈ first, kept' event.sessionId = false →
      ∃ event' ∈ second, event'.id = event.id)
    (hall : first = [] ∨
      (mergeEventsBounded collation decode (current.filter fun event => kept event.sessionId)
        first).length =
      (upsertById (·.id) (current.filter fun event => kept event.sessionId) first).length) :
    mergeEventsBounded collation decode
        ((mergeEventsBounded collation decode
          (current.filter fun event => kept event.sessionId) first).filter
            fun event => kept' event.sessionId) second =
      mergeEventsBounded collation decode
        (current.filter fun event => kept event.sessionId && kept' event.sessionId)
        (first ++ second) := by
  by_cases hfirst : first = []
  · rw [hfirst]
    have hfilter : (current.filter fun event => kept event.sessionId).filter
        (fun event => kept' event.sessionId) =
        current.filter fun event => kept event.sessionId && kept' event.sessionId := by
      rw [List.filter_filter]
      simp [Bool.and_comm]
    rw [← hfilter]
    rfl
  -- The first merge is all of its sorted events.
  have hpool : ∀ event, event ∈ current ∨ event ∈ first ∨ event ∈ second →
      event ∈ current ++ first ++ second := by
    simp
  have hstart := nodup_filter hnodup fun event : TimelineEvent => kept event.sessionId
  have hstep := sorted_sortedEvents collation hcursors
    (fun event hevent => hpool event (Or.inl (List.mem_filter.mp hevent).1))
    (fun event hevent => hpool event (Or.inr (Or.inl hevent))) hstart
  have hlength := hall.resolve_left hfirst
  rw [mergeEventsBounded_of_ne collation decode hfirst] at hlength ⊢
  generalize sortedEvents collation (current.filter fun event => kept event.sessionId) first =
    rows at hstep hlength ⊢
  have hrows : ∀ event ∈ rows, event ∈ current ++ first ++ second := by
    intro event hevent
    rcases hstep.mem hevent with hold | hnew
    · exact hpool event (Or.inl (List.mem_filter.mp hold).1)
    · exact hpool event (Or.inr (Or.inl hnew))
  rw [← hstep.length hstart] at hlength
  have hkeepAll := bounded_filter decode (fun _ => true)
    (fun event hevent => hcursors.some event (hrows event hevent)) hstep.descending hlength
  rw [List.filter_true] at hkeepAll
  rw [hkeepAll]
  -- What is under each id is the same.
  have hconflated : ∀ key, (lookup (·.id) second key).or
      (lookup (·.id) (rows.filter fun event => kept' event.sessionId) key) =
      (lookup (·.id) (first ++ second) key).or
        (lookup (·.id) (current.filter fun event => kept event.sessionId && kept' event.sessionId)
          key) := by
    intro key
    rw [lookup_filter hstep.nodup, hstep.lookup]
    exact @lookup_conflated TimelineEvent (·.id) current hnodup first second
      (fun event => kept event.sessionId) (fun event => kept' event.sessionId) hsent key
  have hwhole := sorted_sortedEvents collation hcursors
    (fun event hevent => hpool event (Or.inl (List.mem_filter.mp hevent).1))
    (fun event hevent => by simpa [or_assoc] using hpool event (Or.inr (List.mem_append.mp hevent)))
    (nodup_filter hnodup fun event : TimelineEvent =>
      kept event.sessionId && kept' event.sessionId)
  have hne : first ++ second ≠ [] := by
    intro hnil
    exact hfirst (List.append_eq_nil_iff.mp hnil).1
  rw [mergeEventsBounded_of_ne collation decode hne]
  by_cases hsecond : second = []
  · have hfiltered : Sorted (rows.filter fun event => kept' event.sessionId) second
        (rows.filter fun event => kept' event.sessionId) := by
      refine ⟨hstep.descending.filter _, nodup_filter hstep.nodup _, ?_⟩
      intro key
      rw [hsecond, lookup_nil, Option.none_or]
    rw [← hfiltered.ext hwhole hconflated, bounded_filter decode kept'
      (fun event hevent => hcursors.some event (hrows event hevent)) hstep.descending hlength,
      hsecond]
    rfl
  · have hboth := sorted_sortedEvents collation hcursors
      (fun event hevent => hrows event (List.mem_filter.mp hevent).1)
      (fun event hevent => hpool event (Or.inr (Or.inr hevent)))
      (nodup_filter hstep.nodup fun event : TimelineEvent => kept' event.sessionId)
    rw [mergeEventsBounded_of_ne collation decode hsecond, hboth.ext hwhole hconflated]

end Events

/-! ## Queues -/

/-- A queue as its client compares it. -/
def queueIds (queue : Option (List PendingMessage)) : Option (List String) :=
  queue.map fun messages => messages.map (·.id)

theorem queueIds_mergeQueue (existing : Option (List PendingMessage))
    (incoming : List PendingMessage) : queueIds (mergeQueue existing incoming) =
      if incoming.isEmpty then none else some (incoming.map (·.id)) := by
  cases existing with
  | none =>
    rw [mergeQueue]
    split <;> rfl
  | some queue =>
    rw [mergeQueue]
    split
    · rfl
    · split
      · rename_i hids
        exact congrArg some hids
      · rfl

/-- **The queues.** -/
theorem mergePendingMessages_conflates (current : String → Option (List PendingMessage))
    (first second : DashboardDelta) (sessionId : String) :
    queueIds (mergePendingMessages (mergePendingMessages current first.pendingMessages)
        second.pendingMessages sessionId) =
      queueIds (mergePendingMessages current (first.mergeFrom second).pendingMessages
        sessionId) := by
  have hconflated : (first.mergeFrom second).pendingMessages.bind (·.find? sessionId) =
      (second.pendingMessages.bind (·.find? sessionId)).or
        (first.pendingMessages.bind (·.find? sessionId)) := by
    rw [DashboardDelta.mergeFrom]
    cases second.pendingMessages with
    | none => rfl
    | some incoming =>
      dsimp only [Option.bind_some]
      rw [find?_foldl_put_or]
      congr 1
      · apply Option.ext
        intro row
        rw [Table.find?_eq_some]
        constructor
        · exact lookup_eq_some
        · intro ⟨hin, hkey⟩
          rw [← hkey]
          exact lookup_of_mem incoming.unique hin
      · cases first.pendingMessages with
        | none => rfl
        | some queues => rfl
  simp only [mergePendingMessages]
  rw [hconflated]
  cases second.pendingMessages.bind (·.find? sessionId) with
  | none => rfl
  | some queue =>
    rw [Option.some_or, queueIds_mergeQueue, queueIds_mergeQueue]

/-! ## The merge -/

/-- No slice has two rows of one id. -/
structure Snapshot.Unique (snapshot : Snapshot) : Prop where
  projects : (snapshot.projects.map (·.id)).Nodup
  workspaces : (snapshot.workspaces.map (·.id)).Nodup
  sessions : (snapshot.sessions.map (·.id)).Nodup
  events : (snapshot.events.map (·.id)).Nodup
  rawOutputs : (snapshot.rawOutputs.map (·.id)).Nodup
  approvals : (snapshot.approvals.map (·.id)).Nodup

/-- The second delta takes back nothing of the first, neither rows nor overviews, and no
row is left out but raw outputs over their limit. -/
structure Compatible (collation : Collation) (decode : Decoder) (snapshot : Snapshot)
    (first second : DashboardDelta) : Prop where
  workspaces : ∀ workspace ∈ first.workspaces, workspace.id ∈ second.removedWorkspaceIds →
    ∃ workspace' ∈ second.workspaces, workspace'.id = workspace.id
  sessions : ∀ session ∈ first.sessions,
    session.id ∈ second.removedSessionIds ∨ session.workspaceId ∈ second.removedWorkspaceIds →
      ∃ session' ∈ second.sessions, session'.id = session.id
  events : ∀ event ∈ first.events, event.sessionId ∈ second.removedSessionIds →
    ∃ event' ∈ second.events, event'.id = event.id
  overviews : ∀ project ∈ first.projects, ∀ project' ∈ second.projects,
    project.id = project'.id → revision project ≤ revision project'
  eventCursors : Cursored (·.id) (·.rowCursor) (snapshot.events ++ first.events ++ second.events)
  outputCursors : Cursored (·.id) (·.rowCursor)
    (snapshot.rawOutputs ++ first.rawOutputs ++ second.rawOutputs)
  allEvents : first.events = [] ∨
    (mergeEventsBounded collation decode (removeRows snapshot first).events first.events).length =
      (upsertById (·.id) (removeRows snapshot first).events first.events).length
  allApprovals : (upsertById (·.id) snapshot.approvals
    (first.approvals ++ second.approvals)).length ≤ approvalLimit

/-- The same snapshot, up to the order of rows that no sort tells apart, and with queues
as the client compares them. -/
structure Agrees (collation : Collation) (snapshot snapshot' : Snapshot) : Prop where
  projects : SameRows (comesBefore collation
    (fun project => project.latestActivityAt.getD "") (fun _ => none))
      snapshot.projects snapshot'.projects
  workspaces : SameRows (comesBefore collation (·.lastActivityAt) (fun _ => none))
    snapshot.workspaces snapshot'.workspaces
  sessions : SameRows (comesBefore collation (·.lastActivityAt) (fun _ => none))
    snapshot.sessions snapshot'.sessions
  events : snapshot.events = snapshot'.events
  rawOutputs : snapshot.rawOutputs = snapshot'.rawOutputs
  approvals : SameRows (comesBefore collation (·.createdAt) (fun _ => none))
    snapshot.approvals snapshot'.approvals
  pendingMessages : ∀ sessionId, queueIds (snapshot.pendingMessages sessionId) =
    queueIds (snapshot'.pendingMessages sessionId)

/-- **Conflation agrees with the client.** -/
theorem conflation_agrees (collation : Collation) (decode : Decoder) {snapshot : Snapshot}
    (hunique : snapshot.Unique) {first second : DashboardDelta}
    (h : Compatible collation decode snapshot first second) :
    Agrees collation
      (mergeDashboardDelta collation decode
        (mergeDashboardDelta collation decode snapshot first) second)
      (mergeDashboardDelta collation decode snapshot (first.mergeFrom second)) where
  projects := mergeProjects_conflates collation hunique.projects h.overviews
  workspaces := by
    have hslice := mergeSlice_conflates collation (fun workspace => workspace.lastActivityAt)
      hunique.workspaces first.workspaces second.workspaces
      (fun workspace => !first.removedWorkspaceIds.contains workspace.id)
      (fun workspace => !second.removedWorkspaceIds.contains workspace.id)
      (by simpa using h.workspaces)
    simpa [mergeDashboardDelta, removeRows, DashboardDelta.mergeFrom] using hslice
  sessions := by
    have hslice := mergeSlice_conflates collation (fun session => session.lastActivityAt)
      hunique.sessions first.sessions second.sessions
      (fun session => !first.removedSessionIds.contains session.id &&
        !first.removedWorkspaceIds.contains session.workspaceId)
      (fun session => !second.removedSessionIds.contains session.id &&
        !second.removedWorkspaceIds.contains session.workspaceId)
      (by
        intro session hsession hgone
        apply h.sessions session hsession
        rw [Bool.and_eq_false_iff] at hgone
        simpa using hgone)
    simpa [mergeDashboardDelta, removeRows, DashboardDelta.mergeFrom, Bool.and_assoc,
      Bool.and_left_comm] using hslice
  events := by
    have hevents := mergeEventsBounded_conflates collation decode hunique.events h.eventCursors
      (fun sessionId => !first.removedSessionIds.contains sessionId)
      (fun sessionId => !second.removedSessionIds.contains sessionId)
      (by simpa using h.events) h.allEvents
    simpa [mergeDashboardDelta, removeRows, DashboardDelta.mergeFrom] using hevents
  rawOutputs := mergeSlice_cursor_conflates collation _ h.outputCursors hunique.rawOutputs _
  approvals := mergeSlice_limit_conflates collation _ hunique.approvals h.allApprovals
  pendingMessages := mergePendingMessages_conflates snapshot.pendingMessages first second

/-! ## A burst about one chat -/

/-- Texts by their code points. -/
def Collation.codePoints : Collation where
  le := fun a b => decide (a ≤ b)
  trans := by
    intro a b c hab hbc
    rw [decide_eq_true_eq] at hab hbc ⊢
    exact String.le_trans hab hbc
  total := by
    intro a b
    rw [Bool.or_eq_true, decide_eq_true_eq, decide_eq_true_eq]
    exact String.le_total a b

def Snapshot.empty : Snapshot := ⟨[], [], [], [], [], [], fun _ => none⟩

/-- A chat that has moved on, with its row and its seam. -/
def chatMoved : DashboardDelta :=
  { DashboardDelta.empty with
    projects := [⟨"p", "argmax", none, some ⟨1, "working"⟩⟩]
    sessions := [⟨"s", "w", "fix it", "2026-01-01"⟩]
    events := [⟨"e", "s", "session.moved", "", .null, "2026-01-01", some 1⟩] }

/-- The chat is gone, and its workspace with it. -/
def chatRemoved : DashboardDelta :=
  { DashboardDelta.empty with
    removedSessionIds := ["s"]
    removedWorkspaceIds := ["w"] }

/-- The chat again, and another one. -/
def chatsListed : DashboardDelta :=
  { DashboardDelta.empty with
    projects := [⟨"p", "argmax", none, some ⟨2, "idle"⟩⟩]
    sessions := [⟨"s", "v", "fix it", "2026-01-02"⟩, ⟨"t", "v", "test it", "2026-01-03"⟩]
    removedWorkspaceIds := ["w"] }

theorem conflation_agrees_chats :
    (Snapshot.empty.Unique ∧
      Compatible .codePoints (fun _ => ⟨.other, none, false⟩) .empty chatMoved chatsListed) ∧
    Agrees .codePoints
      (mergeDashboardDelta .codePoints (fun _ => ⟨.other, none, false⟩)
        (mergeDashboardDelta .codePoints (fun _ => ⟨.other, none, false⟩) .empty chatMoved)
        chatsListed)
      (mergeDashboardDelta .codePoints (fun _ => ⟨.other, none, false⟩) .empty
        (chatMoved.mergeFrom chatsListed)) := by
  have hunique : Snapshot.empty.Unique := by
    constructor <;> exact List.nodup_nil
  have hcompatible : Compatible .codePoints (fun _ => ⟨.other, none, false⟩) .empty chatMoved
      chatsListed := by
    constructor
    · decide
    · decide
    · decide
    · decide
    · constructor <;> decide
    · constructor <;> decide
    · right
      simp [mergeEventsBounded, chatMoved, appendNewerEvents, sortByTimestamp]
      rfl
    · decide
  exact ⟨⟨hunique, hcompatible⟩, conflation_agrees .codePoints _ hunique hcompatible⟩

/-- The conflated delta keeps the chat that its parts remove. -/
theorem conflation_resurrects :
    (mergeDashboardDelta .codePoints (fun _ => ⟨.other, none, false⟩)
      (mergeDashboardDelta .codePoints (fun _ => ⟨.other, none, false⟩) .empty chatMoved)
      chatRemoved).sessions = [] ∧
    (mergeDashboardDelta .codePoints (fun _ => ⟨.other, none, false⟩) .empty
      (chatMoved.mergeFrom chatRemoved)).sessions = chatMoved.sessions := by
  have hsorted : ∀ session : SessionSummary, sortByTimestamp .codePoints
      (·.lastActivityAt) (fun _ => none) [session] = [session] :=
    fun _ => List.mergeSort_singleton _
  refine ⟨?_, hsorted _⟩
  change List.filter _ (sortByTimestamp .codePoints
    (fun session : SessionSummary => session.lastActivityAt) (fun _ => none)
    chatMoved.sessions) = []
  rw [chatMoved, hsorted]
  decide

end Argmax.Renderer
