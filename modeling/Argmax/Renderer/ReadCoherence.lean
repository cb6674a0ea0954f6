import Argmax.Renderer.BucketChanges
import Argmax.Renderer.Conflation

/-!
# Reads and live updates of a session's timeline

Between the start of a read and its answer anything can happen to a bucket. As long as
the ticket is valid the bucket is the one the read began in, and every row that was
changed since has a version behind the ticket's revision (`Tracks`). The answer is
filtered by these versions, so it changes none of these rows.
-/

namespace Argmax.Renderer.Timelines

open Argmax.Lib Argmax.Providers SessionTimelineBucket SessionTimelines

/-! ## Rows that changed -/

section Changed

variable (collation : Collation) (decode : Decoder) (traceSuperseded : TimelineEvent → Bool)

/-- The ids of events that an update brings or deletes, and of those no longer there. -/
def touchedEventIds (update : Option Update) (before after : SessionTimelineSnapshot) :
    List String :=
  (update.elim [] fun update =>
      update.events.map (·.id) ++ goneEventIds traceSuperseded update) ++
    before.eventIds.filter fun id => !after.eventIds.contains id

/-- The ids of raw outputs that an update brings or deletes, and of those no longer there. -/
def touchedRawOutputIds (update : Option Update) (before after : SessionTimelineSnapshot) :
    List String :=
  (update.elim [] fun update => update.rawOutputs.map (·.id) ++ update.deletedRawOutputIds) ++
    before.rawOutputIds.filter fun id => !after.rawOutputIds.contains id

/-- The events of a session that an operation changes. -/
def changedEventIds (sessionId : String) (store : SessionTimelines) (op : Op) : List String :=
  touchedEventIds traceSuperseded (updateOf store sessionId op) (store.getSnapshot sessionId)
    ((step collation decode traceSuperseded store op).getSnapshot sessionId)

/-- The raw outputs of a session that an operation changes. -/
def changedRawOutputIds (sessionId : String) (store : SessionTimelines) (op : Op) : List String :=
  touchedRawOutputIds (updateOf store sessionId op) (store.getSnapshot sessionId)
    ((step collation decode traceSuperseded store op).getSnapshot sessionId)

end Changed

/-! ## Versions of a pending read -/

/-- The versions of the rows that changed since a read of the bucket began. -/
structure Tracks (read revision : ℕ) (events rawOutputs : List String)
    (bucket : SessionTimelineBucket) : Prop where
  reads : ∀ began, (read, began) ∈ bucket.pendingReads → began ≤ revision
  revision_le : revision ≤ bucket.revision
  events : ∀ id ∈ events, revision < bucket.eventVersions.latest id
  rawOutputs : ∀ id ∈ rawOutputs, revision < bucket.rawOutputVersions.latest id

/-- The read is one of the bucket's pending reads. -/
def Pending (read : ℕ) (bucket : SessionTimelineBucket) : Prop :=
  read ∈ bucket.pendingReads.map (·.1)

variable {op : Op} {update : Option Update} {low high : ℕ} {store : SessionTimelines}
  {sessionId : String} {ticket : SessionTimelineReadTicket}

section Tracks

variable {collation : Collation} {decode : Decoder} {traceSuperseded : TimelineEvent → Bool}
  {read revision : ℕ} {events rawOutputs : List String} {bucket after : SessionTimelineBucket}

theorem touchedEventIds_none (snapshot : SessionTimelineSnapshot) :
    touchedEventIds traceSuperseded none snapshot snapshot = [] := by
  simp [touchedEventIds]

theorem touchedRawOutputIds_none (snapshot : SessionTimelineSnapshot) :
    touchedRawOutputIds none snapshot snapshot = [] := by
  simp [touchedRawOutputIds]

namespace Tracks

section

variable (h : Tracks read revision events rawOutputs bucket)
include h

/-- A read that ended or began changes no version. -/
theorem reads_of {reads : List (ℕ × ℕ)}
    (hreads : ∀ began, (read, began) ∈ reads → (read, began) ∈ bucket.pendingReads) :
    Tracks read revision events rawOutputs { bucket with pendingReads := reads } :=
  ⟨fun began hbegan => h.reads began (hreads began hbegan), h.revision_le, h.events, h.rawOutputs⟩

theorem endRead (ended : ℕ) : Tracks read revision events rawOutputs (bucket.endRead ended) :=
  h.reads_of fun _ hbegan => List.mem_of_mem_filter hbegan

theorem advanceCursors
    (result : RevisionReadResult) :
    Tracks read revision events rawOutputs (bucket.advanceCursors result) := by
  unfold SessionTimelineBucket.advanceCursors
  split
  · exact ⟨h.reads, h.revision_le, h.events, h.rawOutputs⟩
  · exact ⟨h.reads, h.revision_le, h.events, h.rawOutputs⟩

/-- The versions of a pending read are not compacted. -/
theorem compactVersions
    (hpending : Pending read bucket) :
    Tracks read revision events rawOutputs bucket.compactVersions := by
  obtain ⟨⟨_, began⟩, hread, rfl⟩ := List.mem_map.mp hpending
  have hmem : began ∈ bucket.pendingReads.map (·.2) := List.mem_map_of_mem hread
  unfold SessionTimelineBucket.compactVersions
  split
  · rename_i hmin
    rw [List.min?_eq_none_iff] at hmin
    simp [hmin] at hmem
  · rename_i oldest hmin
    have hle : oldest ≤ revision :=
      ((List.min?_eq_some_iff.mp hmin).2 began hmem).trans (h.reads began hread)
    exact ⟨h.reads, h.revision_le,
      fun id hid => RowVersions.lt_latest_after hle (h.events id hid),
      fun id hid => RowVersions.lt_latest_after hle (h.rawOutputs id hid)⟩

/-- **What an update touches has a version behind the read.** -/
theorem applied {update : Update}
    (happlied : Applied collation decode traceSuperseded bucket update after)
    (hpending : Pending read after) :
    Tracks read revision
      (events ++ touchedEventIds traceSuperseded (some update) bucket.snapshot after.snapshot)
      (rawOutputs ++ touchedRawOutputIds (some update) bucket.snapshot after.snapshot)
      after := by
  have hne : after.pendingReads ≠ [] := by
    intro hnil
    simp [Pending, hnil] at hpending
  have hle := h.revision_le
  refine ⟨fun began hbegan => h.reads began (happlied.pendingReads_sublist.subset hbegan),
    hle.trans happlied.revision_le, fun id hid => ?_, fun id hid => ?_⟩
  · obtain ⟨htouched, hkept⟩ := happlied.latest_event hne id
    rcases List.mem_append.mp hid with hid | hid
    · have := h.events id hid
      omega
    · refine hle.trans_lt (htouched ?_)
      simpa [touchedEventIds, Applied.TouchesEvent, or_assoc, or_comm, or_left_comm] using hid
  · obtain ⟨htouched, hkept⟩ := happlied.latest_rawOutput hne id
    rcases List.mem_append.mp hid with hid | hid
    · have := h.rawOutputs id hid
      omega
    · refine hle.trans_lt (htouched ?_)
      simpa [touchedRawOutputIds, Applied.TouchesRawOutput, or_assoc, or_comm, or_left_comm]
        using hid

end

/-- An operation without an update that keeps the rows changes none of them. -/
theorem unchanged (h : Tracks read revision events rawOutputs after)
    (hsnapshot : after.snapshot = bucket.snapshot) :
    Tracks read revision
      (events ++ touchedEventIds traceSuperseded none bucket.snapshot after.snapshot)
      (rawOutputs ++ touchedRawOutputIds none bucket.snapshot after.snapshot) after := by
  rwa [hsnapshot, touchedEventIds_none, touchedRawOutputIds_none, List.append_nil, List.append_nil]

end Tracks

theorem Pending.of_subset (h : Pending read after)
    (hreads : ∀ entry ∈ after.pendingReads, entry ∈ bucket.pendingReads) :
    Pending read bucket := by
  obtain ⟨entry, hentry, rfl⟩ := List.mem_map.mp h
  exact List.mem_map_of_mem (hreads entry hentry)

theorem Pending.of_compactVersions (h : Pending read bucket.compactVersions) :
    Pending read bucket := by
  rwa [Pending, pendingReads_compactVersions] at h

theorem Pending.of_endRead {ended : ℕ} (h : Pending read (bucket.endRead ended)) :
    Pending read bucket :=
  h.of_subset fun _ hentry => List.mem_of_mem_filter hentry

theorem pendingReads_advanceCursors (bucket : SessionTimelineBucket)
    (result : RevisionReadResult) :
    (bucket.advanceCursors result).pendingReads = bucket.pendingReads := by
  unfold SessionTimelineBucket.advanceCursors
  split <;> rfl

theorem snapshot_advanceCursors (bucket : SessionTimelineBucket) (result : RevisionReadResult) :
    (bucket.advanceCursors result).snapshot = bucket.snapshot := by
  unfold SessionTimelineBucket.advanceCursors
  split <;> rfl

theorem Pending.of_advanceCursors {result : RevisionReadResult}
    (h : Pending read (bucket.advanceCursors result)) : Pending read bucket := by
  rwa [Pending, pendingReads_advanceCursors] at h

theorem Pending.of_applied {update : Update} (h : Pending read after)
    (happlied : Applied collation decode traceSuperseded bucket update after) :
    Pending read bucket :=
  h.of_subset fun _ hentry => happlied.pendingReads_sublist.subset hentry

theorem snapshot_compactVersions (bucket : SessionTimelineBucket) :
    bucket.compactVersions.snapshot = bucket.snapshot := by
  rw [frame_compactVersions]

theorem snapshot_makeRoom (bucket : SessionTimelineBucket) :
    (makeRoom bucket).snapshot = bucket.snapshot := snapshot_compactVersions _

theorem pendingReads_makeRoom (bucket : SessionTimelineBucket) :
    (makeRoom bucket).pendingReads =
      bucket.pendingReads.drop (bucket.pendingReads.length + 1 - maxPendingReads) :=
  pendingReads_compactVersions _

theorem Pending.of_begun {begun : ℕ} (hne : read ≠ begun)
    (h : Pending read { makeRoom bucket with
      pendingReads :=
        (makeRoom bucket).pendingReads ++ [(begun, (makeRoom bucket).revision)] }) :
    Pending read (makeRoom bucket) := by
  obtain ⟨entry, hentry, rfl⟩ := List.mem_map.mp h
  refine List.mem_map_of_mem ((List.mem_append.mp hentry).resolve_right fun hnew => hne ?_)
  rw [List.mem_singleton.mp hnew]

theorem Pending.of_makeRoom (h : Pending read (makeRoom bucket)) : Pending read bucket :=
  h.of_compactVersions.of_subset fun _ hentry => List.mem_of_mem_drop hentry

/-- A read of the past is pending only if it was before. -/
theorem Change.pending (h : Change collation decode traceSuperseded op update low high bucket after)
    (hread : read < low) (hpending : Pending read after) : Pending read bucket := by
  have happlied := fun update => applyBucketUpdate_spec collation decode traceSuperseded
    bucket update
  cases h with
  | same => exact hpending
  | merged brought => exact hpending.of_compactVersions.of_applied (happlied brought)
  | answered brought =>
    exact hpending.of_compactVersions.of_endRead.of_applied (happlied brought)
  | finished brought =>
    exact hpending.of_compactVersions.of_endRead.of_advanceCursors.of_applied (happlied brought)
  | ended => exact hpending.of_compactVersions.of_endRead
  | begun _ begun hlow => exact (hpending.of_begun (by omega)).of_makeRoom

/-- **What changed since a read began has a version behind the read**, as long as the read is
pending. -/
theorem Change.tracks (h : Change collation decode traceSuperseded op update low high bucket after)
    (hread : read < low) (hpending : Pending read after)
    (htracks : Tracks read revision events rawOutputs bucket) :
    Tracks read revision
      (events ++ touchedEventIds traceSuperseded update bucket.snapshot after.snapshot)
      (rawOutputs ++ touchedRawOutputIds update bucket.snapshot after.snapshot) after := by
  have happlied := fun update => applyBucketUpdate_spec collation decode traceSuperseded
    bucket update
  cases h with
  | same hupdate =>
    rw [hupdate]
    exact htracks.unchanged rfl
  | merged brought hupdate =>
    have hmerged := hpending.of_compactVersions
    rw [hupdate, snapshot_compactVersions]
    exact (htracks.applied (happlied brought) hmerged).compactVersions hmerged
  | answered brought hupdate _ answered =>
    have hended := hpending.of_compactVersions
    have hanswered := htracks.applied (happlied brought) hended.of_endRead
    rw [hupdate, snapshot_compactVersions]
    exact (hanswered.endRead answered).compactVersions hended
  | finished brought hupdate _ _ ticket result =>
    have hended := hpending.of_compactVersions
    have hanswered := htracks.applied (happlied brought) hended.of_endRead.of_advanceCursors
    have hsnapshot : ((((bucket.applyBucketUpdate collation decode traceSuperseded
        brought).advanceCursors result).endRead ticket.readIdentity).compactVersions).snapshot =
        (bucket.applyBucketUpdate collation decode traceSuperseded brought).snapshot :=
      (snapshot_compactVersions _).trans (snapshot_advanceCursors _ result)
    rw [hupdate, hsnapshot]
    exact ((hanswered.advanceCursors result).endRead ticket.readIdentity).compactVersions hended
  | ended hupdate ended =>
    rw [hupdate]
    exact ((htracks.endRead ended).compactVersions hpending.of_compactVersions).unchanged
      (snapshot_compactVersions _)
  | begun hupdate begun hlow =>
    have hbefore : Pending read (makeRoom bucket) := hpending.of_begun (by omega)
    have hroom : Tracks read revision events rawOutputs (makeRoom bucket) :=
      (htracks.reads_of fun _ h => List.mem_of_mem_drop h).compactVersions
        hbefore.of_compactVersions
    rw [hupdate]
    refine Tracks.unchanged (hroom.reads_of fun began hbegan => ?_) (snapshot_makeRoom _)
    refine (List.mem_append.mp hbegan).resolve_right fun hnew => ?_
    have heq := congrArg Prod.fst (List.mem_singleton.mp hnew)
    omega

theorem identity_advanceCursors (bucket : SessionTimelineBucket) (result : RevisionReadResult) :
    (bucket.advanceCursors result).identity = bucket.identity := by
  unfold SessionTimelineBucket.advanceCursors
  split <;> rfl

theorem identity_compactVersions (bucket : SessionTimelineBucket) :
    bucket.compactVersions.identity = bucket.identity := by
  rw [frame_compactVersions]

/-- A change does not put another bucket in place. -/
theorem Change.identity
    (h : Change collation decode traceSuperseded op update low high bucket after) :
    after.identity = bucket.identity := by
  have happlied := fun update => (applyBucketUpdate_spec collation decode traceSuperseded
    bucket update).frame.1
  cases h with
  | same => rfl
  | merged brought => exact (identity_compactVersions _).trans (happlied brought)
  | answered brought => exact (identity_compactVersions _).trans (happlied brought)
  | finished brought _ _ _ _ result =>
    exact (identity_compactVersions _).trans
      ((identity_advanceCursors _ result).trans (happlied brought))
  | ended => exact identity_compactVersions _
  | begun => exact identity_compactVersions _

end Tracks

/-! ## Runs -/

section Runs

variable {collation : Collation} {decode : Decoder} {traceSuperseded : TimelineEvent → Bool}

theorem nextSymbol_foldl {α : Type*} {f : SessionTimelines → α → SessionTimelines}
    (h : ∀ store a, store.nextSymbol ≤ (f store a).nextSymbol) (store : SessionTimelines)
    (as : List α) : store.nextSymbol ≤ (as.foldl f store).nextSymbol :=
  @run_relates _ _ f (fun store after => store.nextSymbol ≤ after.nextSymbol)
    (fun _ => le_rfl) le_trans h store as

theorem nextSymbol_step (store : SessionTimelines) (op : Op) :
    store.nextSymbol ≤ (step collation decode traceSuperseded store op).nextSymbol := by
  cases op with
  | subscribe session listener => exact (frame_subscribe store session session listener).symbol
  | unsubscribe session listener =>
    exact (frame_unsubscribe store session session listener).symbol
  | merge events rawOutputs => exact nextSymbol_foldl (fun _ _ => nextSymbol_mergeInto _ _ _ _) _ _
  | mergeAgentTail session result ticket =>
    cases ticket with
    | none => exact nextSymbol_mergeInto _ _ _ _
    | some ticket =>
      simp only [step, SessionTimelines.mergeAgentTail]
      split <;> exact le_rfl
  | beginRead session =>
    have hcreated := (Frame.getOrCreateBucket store session session).symbol
    simp only [step, SessionTimelines.beginRead]
    split
    · exact hcreated
    · exact hcreated.trans (Nat.le_succ _)
  | cancelRead session ticket =>
    simp only [step, SessionTimelines.cancelRead]
    split <;> exact le_rfl
  | finishRead session ticket result =>
    simp only [step, SessionTimelines.finishRead]
    split
    · exact le_rfl
    · split <;> exact le_rfl
  | remove sessionIds => exact (frame_remove store sessionIds "").symbol
  | retainSessions allowedIds => exact (frame_remove store _ "").symbol
  | reset sessionIds => exact (frame_reset store sessionIds "").symbol
  | invalidate sessionIds => exact (frame_invalidate store sessionIds "").symbol

/-- Every bucket of the store is known. -/
def WellFormed (store : SessionTimelines) : Prop :=
  ∀ sessionId bucket, store.bucketOf sessionId = some bucket → Known store.nextSymbol bucket

theorem wellFormed_empty : WellFormed SessionTimelines.empty := by
  intro sessionId bucket h
  simp [bucketOf, SessionTimelines.empty] at h

theorem wellFormed_step (h : WellFormed store) (op : Op) :
    WellFormed (step collation decode traceSuperseded store op) := by
  intro sessionId after hafter
  rcases step_bucket op hafter with ⟨bucket, hbucket, hchange⟩ | hfresh
  · exact hchange.known (nextSymbol_step store op) (h sessionId bucket hbucket)
  · exact hfresh.toKnown

theorem wellFormed_run (ops : List Op) :
    WellFormed (run (step collation decode traceSuperseded) .empty ops) :=
  @run_invariant _ _ _ WellFormed (fun _ op h => wellFormed_step h op) _ wellFormed_empty ops

/-- The versions of what changed in a session since a read began there, as long as the bucket
of the read is in place and the read is pending. -/
structure TracksIn (sessionId : String) (identity read revision : ℕ)
    (events rawOutputs : List String) (store : SessionTimelines) : Prop where
  identity_lt : identity < store.nextSymbol
  read_lt : read < store.nextSymbol
  tracks : ∀ bucket, store.bucketOf sessionId = some bucket → bucket.identity = identity →
    Pending read bucket → Tracks read revision events rawOutputs bucket

theorem getSnapshot_of {bucket : SessionTimelineBucket} (h : store.bucketOf sessionId = some bucket) :
    store.getSnapshot sessionId = bucket.snapshot := by
  rw [getSnapshot, h]
  rfl

theorem TracksIn.step {identity read revision : ℕ} (op : Op) {events rawOutputs : List String}
    (h : TracksIn sessionId identity read revision events rawOutputs store) :
    TracksIn sessionId identity read revision
      (events ++ changedEventIds collation decode traceSuperseded sessionId store op)
      (rawOutputs ++ changedRawOutputIds collation decode traceSuperseded sessionId store op)
      (Timelines.step collation decode traceSuperseded store op) := by
  have hsymbol := @nextSymbol_step collation decode traceSuperseded store op
  refine ⟨h.identity_lt.trans_le hsymbol, h.read_lt.trans_le hsymbol, ?_⟩
  intro after hafter hidentity hpending
  rcases step_bucket op hafter with ⟨bucket, hbucket, hchange⟩ | hfresh
  · rw [changedEventIds, changedRawOutputIds, getSnapshot_of hbucket, getSnapshot_of hafter]
    refine hchange.tracks h.read_lt hpending (h.tracks bucket hbucket ?_ ?_)
    · exact hchange.identity.symm.trans hidentity
    · exact hchange.pending h.read_lt hpending
  · have := hfresh.le
    have := h.identity_lt
    omega

/-- **A read begins.** Nothing has changed since. -/
theorem tracksIn_begun (h : WellFormed store) (hbegin : (store.beginRead sessionId).1 = some ticket) :
    ticket.sessionId = sessionId ∧
      TracksIn sessionId ticket.bucketIdentity ticket.readIdentity ticket.revision [] []
        (store.beginRead sessionId).2 := by
  have hframe := Frame.getOrCreateBucket store sessionId sessionId
  unfold SessionTimelines.beginRead at hbegin ⊢
  cases hbucket : (store.getOrCreateBucket sessionId).bucketOf sessionId with
  | none => simp [hbucket] at hbegin
  | some bucket =>
    have hknown : Known (store.getOrCreateBucket sessionId).nextSymbol bucket := by
      rcases hframe.bucket bucket hbucket with hbefore | hfresh
      · exact (h sessionId bucket hbefore).mono hframe.symbol
      · exact hfresh.toKnown
    simp only [hbucket, Option.some.injEq] at hbegin ⊢
    subst hbegin
    have hidentity : (makeRoom bucket).identity = bucket.identity := identity_compactVersions _
    refine ⟨rfl, ?_, Nat.lt_succ_self _, ?_⟩
    · rw [hidentity]
      exact Nat.lt_succ_of_lt hknown.lt
    · intro found hfound _ _
      rw [bucketOf_setBucket, if_pos rfl] at hfound
      cases hfound
      refine ⟨fun began hbegan => ?_, le_rfl, fun id hid => absurd hid List.not_mem_nil,
        fun id hid => absurd hid List.not_mem_nil⟩
      rcases List.mem_append.mp hbegan with hold | hnew
      · rw [pendingReads_makeRoom] at hold
        exact absurd (hknown.reads _ (List.mem_of_mem_drop hold)) (lt_irrefl _)
      · rw [List.mem_singleton] at hnew
        exact le_of_eq (congrArg Prod.snd hnew)

end Runs

/-! ## Answers -/

section Answers

variable (collation : Collation) (decode : Decoder)

/-- **An answer leaves rows alone.** None of them comes with it and none becomes another one.
Those that are there stay in what it is merged with, and whichever the merge keeps is there
afterwards. -/
structure LeavesAlone (events rawOutputs : List String) (bucket : SessionTimelineBucket)
    (update : Update) (after : SessionTimelineSnapshot) : Prop where
  noEvents : ∀ event ∈ after.events, event.id ∈ events → event ∈ bucket.snapshot.events
  baseEvents : ∀ event ∈ bucket.snapshot.events, event.id ∈ events →
    event ∈ (update.base.getD bucket.snapshot).events
  keptEvents : ∀ event ∈ bucket.snapshot.events, event.id ∈ events →
    event ∈ (bucket.mergedRows collation decode update).events → event ∈ after.events
  noRawOutputs : ∀ output ∈ after.rawOutputs, output.id ∈ rawOutputs →
    output ∈ bucket.snapshot.rawOutputs
  baseRawOutputs : ∀ output ∈ bucket.snapshot.rawOutputs, output.id ∈ rawOutputs →
    output ∈ (update.base.getD bucket.snapshot).rawOutputs
  keptRawOutputs : ∀ output ∈ bucket.snapshot.rawOutputs, output.id ∈ rawOutputs →
    output ∈ (bucket.mergedRows collation decode update).rawOutputs → output ∈ after.rawOutputs

/-- An update brings and deletes none of the rows, except deletions of absent ones. -/
structure Spares (traceSuperseded : TimelineEvent → Bool) (events rawOutputs : List String)
    (bucket : SessionTimelineBucket) (update : Update) : Prop where
  noEvents : ∀ event ∈ update.events, event.id ∉ events
  gone : ∀ id ∈ goneEventIds traceSuperseded update, id ∈ events → id ∉ bucket.snapshot.eventIds
  baseEvents : ∀ event ∈ bucket.snapshot.events, event.id ∈ events →
    event ∈ (update.base.getD bucket.snapshot).events
  noRawOutputs : ∀ output ∈ update.rawOutputs, output.id ∉ rawOutputs
  deleted : ∀ id ∈ update.deletedRawOutputIds, id ∈ rawOutputs → id ∉ bucket.snapshot.rawOutputIds
  baseRawOutputs : ∀ output ∈ bucket.snapshot.rawOutputs, output.id ∈ rawOutputs →
    output ∈ (update.base.getD bucket.snapshot).rawOutputs

variable {collation decode} {traceSuperseded : TimelineEvent → Bool}
  {events rawOutputs : List String} {bucket after : SessionTimelineBucket} {update : Update}

theorem Spares.leavesAlone (h : Spares traceSuperseded events rawOutputs bucket update)
    (hbase : Based bucket update)
    (happlied : Applied collation decode traceSuperseded bucket update after) :
    LeavesAlone collation decode events rawOutputs bucket update after.snapshot := by
  refine ⟨?_, h.baseEvents, ?_, ?_, h.baseRawOutputs, ?_⟩
  · intro event hevent hid
    exact (happlied.mem_events hbase hevent).resolve_right fun hnew => h.noEvents event hnew hid
  · intro event hevent hid hmerged
    have hgone : event.id ∉ goneEventIds traceSuperseded update := fun hgone =>
      h.gone event.id hgone hid (List.mem_map_of_mem hevent)
    have hkept : event ∈ (bucket.mergedRows collation decode update).events.filter
        fun event => !(goneEventIds traceSuperseded update).contains event.id :=
      List.mem_filter.mpr ⟨hmerged, by simpa using hgone⟩
    cases happlied with
    | nothing => exact hevent
    | recorded snapshot hevents =>
      rw [hevents]
      exact hkept
    | cleared snapshot hevents =>
      rw [hevents]
      exact hkept
  · intro output houtput hid
    exact (happlied.mem_rawOutputs hbase houtput).resolve_right fun hnew =>
      h.noRawOutputs output hnew hid
  · intro output houtput hid hmerged
    have hgone : output.id ∉ update.deletedRawOutputIds := fun hgone =>
      h.deleted output.id hgone hid (List.mem_map_of_mem houtput)
    have hkept : output ∈ (bucket.mergedRows collation decode update).rawOutputs.filter
        fun output => !update.deletedRawOutputIds.contains output.id :=
      List.mem_filter.mpr ⟨hmerged, by simpa using hgone⟩
    cases happlied with
    | nothing => exact houtput
    | recorded snapshot _ houtputs =>
      rw [houtputs]
      exact hkept
    | cleared snapshot _ houtputs =>
      rw [houtputs]
      exact hkept

/-- A version behind the read of a row that is there is not that of a deletion. -/
theorem lt_live {rows : RowVersions} {revision : ℕ} {id : String}
    (hdeletions : rows.deletions.find? id = none) (h : revision < rows.latest id) :
    revision < rows.live.at id := by
  have hzero : rows.deletions.at id = 0 := by rw [Versions.at, hdeletions]; rfl
  rwa [RowVersions.latest, hzero, Nat.max_zero] at h

theorem spares_readUpdate {read : ℕ} (result : RevisionReadResult) (hcoherent : Coherent bucket)
    (h : Tracks read ticket.revision events rawOutputs bucket) :
    Spares traceSuperseded events rawOutputs bucket (bucket.readUpdate ticket result) := by
  have hfresh : ∀ event ∈ (bucket.readUpdate ticket result).events, event.id ∉ events := by
    intro event hevent hid
    have hle := (List.mem_filter.mp (List.mem_filter.mp hevent).1).2
    have hlt := h.events event.id hid
    simp only [decide_eq_true_eq] at hle
    omega
  refine ⟨hfresh, ?_, ?_, ?_, ?_, ?_⟩
  · intro id hgone hid hthere
    rcases List.mem_append.mp hgone with hdeleted | htrace
    · have hle := (List.mem_filter.mp hdeleted).2
      have hlt := lt_live (hcoherent.events id hthere) (h.events id hid)
      simp only [decide_eq_true_eq] at hle
      omega
    · obtain ⟨event, hevent, rfl⟩ := List.mem_map.mp htrace
      exact hfresh event (List.mem_filter.mp hevent).1 hid
  · intro event hevent hid
    unfold readUpdate
    split
    · exact List.mem_filter.mpr ⟨hevent, by simpa using h.events event.id hid⟩
    · exact hevent
  · intro output houtput hid
    have hle := (List.mem_filter.mp (List.mem_filter.mp houtput).1).2
    have hlt := h.rawOutputs output.id hid
    simp only [decide_eq_true_eq] at hle
    omega
  · intro id hdeleted hid hthere
    have hle := (List.mem_filter.mp hdeleted).2
    have hlt := lt_live (hcoherent.rawOutputs id hthere) (h.rawOutputs id hid)
    simp only [decide_eq_true_eq] at hle
    omega
  · intro output houtput hid
    unfold readUpdate
    split
    · exact List.mem_filter.mpr ⟨houtput, by simpa using h.rawOutputs output.id hid⟩
    · exact houtput

theorem spares_tailUpdate {read : ℕ} (result : RevisionReadResult)
    (h : Tracks read ticket.revision events rawOutputs bucket) :
    Spares traceSuperseded events rawOutputs bucket (bucket.tailUpdate ticket result) := by
  have hfresh : ∀ event ∈ (bucket.tailUpdate ticket result).events, event.id ∉ events := by
    intro event hevent hid
    have hle := (List.mem_filter.mp hevent).2
    have hlt := h.events event.id hid
    simp only [decide_eq_true_eq] at hle
    omega
  refine ⟨hfresh, ?_, fun _ hevent _ => hevent, ?_, ?_, fun _ houtput _ => houtput⟩
  · intro id hgone hid
    rcases List.mem_append.mp hgone with hdeleted | htrace
    · exact absurd hdeleted List.not_mem_nil
    · obtain ⟨event, hevent, rfl⟩ := List.mem_map.mp htrace
      exact absurd hid (hfresh event (List.mem_filter.mp hevent).1)
  · intro output houtput hid
    have hle := (List.mem_filter.mp houtput).2
    have hlt := h.rawOutputs output.id hid
    simp only [decide_eq_true_eq] at hle
    omega
  · intro id hdeleted
    exact absurd hdeleted List.not_mem_nil

/-- **An answer to a read**: what changed since the read began is left alone. -/
theorem leavesAlone_finishRead (result : RevisionReadResult)
    (hvalid : store.validReadBucket sessionId ticket = some bucket) (hcoherent : Coherent bucket)
    (h : Tracks ticket.readIdentity ticket.revision events rawOutputs bucket) :
    LeavesAlone collation decode events rawOutputs bucket (bucket.readUpdate ticket result)
      ((store.finishRead collation decode traceSuperseded sessionId ticket
        result).2.getSnapshot sessionId) := by
  have hspares : Spares traceSuperseded events rawOutputs bucket
      (bucket.readUpdate ticket result) := spares_readUpdate result hcoherent h
  simp only [SessionTimelines.finishRead, hvalid]
  split
  · have hsnapshot : (bucket.endRead ticket.readIdentity).compactVersions.snapshot =
        bucket.snapshot := snapshot_compactVersions _
    rw [getSnapshot_of (by rw [bucketOf_setBucket, if_pos rfl]), hsnapshot]
    exact ⟨fun _ hevent _ => hevent, hspares.baseEvents, fun _ hevent _ _ => hevent,
      fun _ houtput _ => houtput, hspares.baseRawOutputs, fun _ houtput _ _ => houtput⟩
  · have happlied := applyBucketUpdate_spec collation decode traceSuperseded bucket
      (bucket.readUpdate ticket result)
    rw [getSnapshot_of (by rw [bucketOf_setBucket, if_pos rfl]), snapshot_compactVersions,
      SessionTimelineBucket.endRead, snapshot_advanceCursors]
    exact hspares.leavesAlone (based_readUpdate bucket ticket result) happlied

theorem leavesAlone_mergeAgentTail (result : RevisionReadResult)
    (hvalid : store.validReadBucket sessionId ticket = some bucket)
    (h : Tracks ticket.readIdentity ticket.revision events rawOutputs bucket) :
    LeavesAlone collation decode events rawOutputs bucket (bucket.tailUpdate ticket result)
      ((store.mergeAgentTail collation decode traceSuperseded sessionId result
        (some ticket)).2.getSnapshot sessionId) := by
  have happlied := applyBucketUpdate_spec collation decode traceSuperseded bucket
    (bucket.tailUpdate ticket result)
  simp only [SessionTimelines.mergeAgentTail, hvalid]
  rw [getSnapshot_of (by rw [bucketOf_setBucket, if_pos rfl]), snapshot_compactVersions]
  have hspares : Spares traceSuperseded events rawOutputs bucket
      (bucket.tailUpdate ticket result) := spares_tailUpdate result h
  have hleaves := hspares.leavesAlone (based_none bucket _ _) happlied
  exact hleaves

end Answers

/-! ## Cursors -/

section Cursors

/-- A cursor that was set is set to no less. -/
def CursorLe (before after : Option ℤ) : Prop := ∀ x ∈ before, ∃ y ∈ after, x ≤ y

theorem CursorLe.refl (cursor : Option ℤ) : CursorLe cursor cursor := fun x hx => ⟨x, hx, le_rfl⟩

theorem cursorLe_max (cursor : Option ℤ) (answered : ℤ) :
    CursorLe cursor (some (max (cursor.getD 0) answered)) := by
  intro x hx
  rw [Option.mem_def.mp hx]
  exact ⟨_, rfl, le_max_left _ _⟩

/-- No cursor moves backwards. -/
structure CursorsGrow (before after : SessionTimelineBucket) : Prop where
  eventCursor : CursorLe before.eventCursor after.eventCursor
  rawOutputCursor : CursorLe before.rawOutputCursor after.rawOutputCursor
  changeCursor : CursorLe before.changeCursor after.changeCursor

/-- A bucket that has read nothing yet. -/
structure StartsOver (bucket : SessionTimelineBucket) : Prop where
  eventCursor : bucket.eventCursor = none
  rawOutputCursor : bucket.rawOutputCursor = none
  changeCursor : bucket.changeCursor = none

variable {collation : Collation} {decode : Decoder} {traceSuperseded : TimelineEvent → Bool}
  {bucket after : SessionTimelineBucket}

theorem CursorsGrow.of_eq (hevent : after.eventCursor = bucket.eventCursor)
    (houtput : after.rawOutputCursor = bucket.rawOutputCursor)
    (hchange : after.changeCursor = bucket.changeCursor) : CursorsGrow bucket after :=
  ⟨hevent ▸ .refl _, houtput ▸ .refl _, hchange ▸ .refl _⟩

theorem CursorsGrow.compactVersions (h : CursorsGrow bucket after) :
    CursorsGrow bucket after.compactVersions := by
  rw [frame_compactVersions]
  exact ⟨h.eventCursor, h.rawOutputCursor, h.changeCursor⟩

theorem CursorsGrow.endRead (h : CursorsGrow bucket after) (ended : ℕ) :
    CursorsGrow bucket (after.endRead ended) :=
  ⟨h.eventCursor, h.rawOutputCursor, h.changeCursor⟩

theorem CursorsGrow.applied {update : Update}
    (h : Applied collation decode traceSuperseded bucket update after) :
    CursorsGrow bucket after :=
  .of_eq h.frame.2.2.1 h.frame.2.2.2.1 h.frame.2.2.2.2.1

/-- An answer that is not authoritative moves the cursors forward. -/
theorem cursorsGrow_advanceCursors {result : RevisionReadResult}
    (h : bucket.isAuthoritative result = false) :
    CursorsGrow bucket (bucket.advanceCursors result) := by
  simp only [advanceCursors, h, Bool.false_eq_true, if_false]
  refine ⟨cursorLe_max _ _, cursorLe_max _ _, ?_⟩
  split
  · exact cursorLe_max _ _
  · exact .refl _

theorem CursorsGrow.trans {middle : SessionTimelineBucket} (h : CursorsGrow bucket middle)
    (h' : CursorsGrow middle after) : CursorsGrow bucket after := by
  have htrans : ∀ {a b c : Option ℤ}, CursorLe a b → CursorLe b c → CursorLe a c := by
    intro a b c hab hbc x hx
    obtain ⟨y, hy, hxy⟩ := hab x hx
    obtain ⟨z, hz, hyz⟩ := hbc y hy
    exact ⟨z, hz, hxy.trans hyz⟩
  exact ⟨htrans h.eventCursor h'.eventCursor, htrans h.rawOutputCursor h'.rawOutputCursor,
    htrans h.changeCursor h'.changeCursor⟩

/-- **Only an authoritative answer moves cursors backwards.** -/
theorem Change.cursorsGrow
    (h : Change collation decode traceSuperseded op update low high bucket after)
    (hop : update ≠ none → ∀ sessionId ticket result, op = .finishRead sessionId ticket result →
      bucket.isAuthoritative result = false) : CursorsGrow bucket after := by
  have happlied := fun update => applyBucketUpdate_spec collation decode traceSuperseded
    bucket update
  cases h with
  | same => exact .of_eq rfl rfl rfl
  | merged brought => exact (CursorsGrow.applied (happlied brought)).compactVersions
  | answered brought =>
    exact ((CursorsGrow.applied (happlied brought)).endRead _).compactVersions
  | finished brought hupdate _ sessionId ticket result hfinish =>
    have hold := hop (by simp [hupdate]) sessionId ticket result hfinish
    have hrequired := (happlied brought).frame.2.2.2.2.2
    have hnew : (bucket.applyBucketUpdate collation decode traceSuperseded
        brought).isAuthoritative result = false := by
      rwa [isAuthoritative, hrequired]
    have hadvanced := cursorsGrow_advanceCursors hnew
    exact (((CursorsGrow.applied (happlied brought)).trans hadvanced).endRead _).compactVersions
  | ended => exact ((CursorsGrow.of_eq rfl rfl rfl).endRead _).compactVersions
  | begun =>
    have hroom : CursorsGrow bucket (makeRoom bucket) :=
      CursorsGrow.compactVersions (.of_eq rfl rfl rfl)
    exact ⟨hroom.eventCursor, hroom.rawOutputCursor, hroom.changeCursor⟩

/-- What an operation does to the cursors of a session. -/
theorem cursors_step (hwf : WellFormed store) (op : Op)
    (hbucket : store.bucketOf sessionId = some bucket)
    (hafter : (step collation decode traceSuperseded store op).bucketOf sessionId = some after) :
    if after.identity = bucket.identity then
      (∀ ticket result, op = .finishRead sessionId ticket result →
        bucket.isAuthoritative result = false) → CursorsGrow bucket after
    else StartsOver after := by
  rcases step_bucket op hafter with ⟨found, hfound, hchange⟩ | hfresh
  · rw [hbucket] at hfound
    cases hfound
    rw [if_pos hchange.identity]
    intro hop
    refine hchange.cursorsGrow ?_
    rintro hupdate session ticket result rfl
    by_cases hsession : session = sessionId
    · subst hsession
      exact hop ticket result rfl
    · exact absurd (if_neg hsession) hupdate
  · have hlt := (hwf sessionId bucket hbucket).lt
    have hle := hfresh.le
    rw [if_neg (by omega)]
    exact ⟨hfresh.eventCursor, hfresh.rawOutputCursor, hfresh.changeCursor⟩

end Cursors

/-! ## All runs -/

section AllRuns

variable (collation : Collation) (decode : Decoder) (traceSuperseded : TimelineEvent → Bool)

/-- An answer changes the bucket of no other session. -/
theorem bucketOf_answer_of_ne (store : SessionTimelines) {other : String} (hne : other ≠ sessionId)
    (ticket : SessionTimelineReadTicket) (result : RevisionReadResult) :
    (store.finishRead collation decode traceSuperseded sessionId ticket result).2.bucketOf other =
        store.bucketOf other ∧
      (store.mergeAgentTail collation decode traceSuperseded sessionId result
        (some ticket)).2.bucketOf other = store.bucketOf other := by
  simp only [SessionTimelines.finishRead, SessionTimelines.mergeAgentTail]
  constructor
  · split
    · rfl
    · split <;> rw [bucketOf_setBucket, if_neg hne.symm]
  · split
    · rfl
    · rw [bucketOf_setBucket, if_neg hne.symm]

/-- **A session's rows, tickets and cursors over all runs.** Let a read of a session begin
after any operations, and let any others follow. An answer with a ticket that is not valid
then changes nothing. An answer with the ticket of the read leaves every row alone that changed
since the read began, and all other sessions. An operation moves the cursors of a bucket
forward, unless it is an authoritative answer, and a bucket that takes the place of another one
starts without cursors. -/
theorem timelines_coherent (earlier later : List Op) (sessionId : String)
    (ticket : SessionTimelineReadTicket)
    (hbegin : ((run (step collation decode traceSuperseded) .empty earlier).beginRead
      sessionId).1 = some ticket) (result : RevisionReadResult) :
    let step := step collation decode traceSuperseded
    let store := run step .empty earlier
    let begun := (store.beginRead sessionId).2
    let current := run step begun later
    let events := collected step (changedEventIds collation decode traceSuperseded sessionId)
      begun later
    let rawOutputs := collected step
      (changedRawOutputIds collation decode traceSuperseded sessionId) begun later
    let finished := current.finishRead collation decode traceSuperseded
    let tail := current.mergeAgentTail collation decode traceSuperseded
    (∀ other ticket, current.validReadBucket other ticket = none →
        finished other ticket result = (false, current) ∧
          tail other result (some ticket) = (false, current)) ∧
      (∀ bucket, current.validReadBucket sessionId ticket = some bucket →
        LeavesAlone collation decode events rawOutputs bucket (bucket.readUpdate ticket result)
            ((finished sessionId ticket result).2.getSnapshot sessionId) ∧
          LeavesAlone collation decode events rawOutputs bucket (bucket.tailUpdate ticket result)
            ((tail sessionId result (some ticket)).2.getSnapshot sessionId)) ∧
      (∀ other, other ≠ sessionId →
        (finished sessionId ticket result).2.bucketOf other = current.bucketOf other ∧
          (tail sessionId result (some ticket)).2.bucketOf other = current.bucketOf other) ∧
      ∀ op other bucket after, store.bucketOf other = some bucket →
        (step store op).bucketOf other = some after →
        if after.identity = bucket.identity then
          (∀ ticket result, op = .finishRead other ticket result →
            bucket.isAuthoritative result = false) → CursorsGrow bucket after
        else StartsOver after := by
  intro step store begun current events rawOutputs finished tail
  have hwf : WellFormed store := wellFormed_run earlier
  have hstep : begun = step store (.beginRead sessionId) := rfl
  have hwf' : WellFormed current := by
    refine @run_invariant _ _ step WellFormed (fun _ op h => wellFormed_step h op) begun ?_ later
    rw [hstep]
    exact wellFormed_step hwf _
  have htracks : TracksIn sessionId ticket.bucketIdentity ticket.readIdentity ticket.revision
      ([] ++ events) ([] ++ rawOutputs) current :=
    run_collected (fun _ op _ _ h => h.step op) (tracksIn_begun hwf hbegin).2 later
  refine ⟨fun other ticket hinvalid => ?_, fun bucket hvalid => ?_, fun other hne => ?_, ?_⟩
  · simp [finished, tail, SessionTimelines.finishRead, SessionTimelines.mergeAgentTail, hinvalid]
  · obtain ⟨hbucket, hmatch⟩ := Option.filter_eq_some_iff.mp hvalid
    simp only [Bool.and_eq_true, beq_iff_eq] at hmatch
    have hpending : Pending ticket.readIdentity bucket := by
      simpa [Pending] using hmatch.2
    have hrows := htracks.tracks bucket hbucket hmatch.1.1.2 hpending
    have hcoherent := (hwf' sessionId bucket hbucket).coherent
    exact ⟨leavesAlone_finishRead result hvalid hcoherent hrows,
      leavesAlone_mergeAgentTail result hvalid hrows⟩
  · exact bucketOf_answer_of_ne collation decode traceSuperseded current hne ticket result
  · intro op other bucket after hbucket hafter
    exact cursors_step hwf op hbucket hafter

end AllRuns

/-- The ticket of the first read. -/
def firstTicket : SessionTimelineReadTicket := ⟨"s", none, none, none, 1, 0, 1, 0⟩

/-- An answer that comes after an invalidation. -/
theorem timelines_coherent_invalidated :
    let invalid := (SessionTimelines.empty.beginRead "s").2.invalidate none
    (SessionTimelines.empty.beginRead "s").1 = some firstTicket ∧
      invalid.validReadBucket "s" firstTicket = none ∧
      invalid.finishRead .codePoints (fun _ => ⟨.other, none, false⟩) (fun _ => false) "s"
        firstTicket ⟨[], [], 7, 7, some 7, [], [], false, false⟩ = (false, invalid) := by
  have hbegin : (SessionTimelines.empty.beginRead "s").1 = some firstTicket := by decide
  have hinvalid : ((SessionTimelines.empty.beginRead "s").2.invalidate none).validReadBucket "s"
      firstTicket = none := rfl
  have hcoherent := timelines_coherent .codePoints (fun _ => ⟨.other, none, false⟩)
    (fun _ => false) [] [.invalidate none] "s" firstTicket hbegin
    ⟨[], [], 7, 7, some 7, [], [], false, false⟩
  exact ⟨hbegin, hinvalid, (hcoherent.1 "s" firstTicket hinvalid).1⟩

end Argmax.Renderer.Timelines
