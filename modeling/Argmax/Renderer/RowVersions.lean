import Argmax.Renderer.BoundedEvents
import Argmax.Renderer.SessionTimelines

/-!
# Versions of rows

What an update does to the versions of a bucket: a row that it sets or deletes has the
revision of the update from then on, and a deletion is remembered only of a row that is
not there.
-/

namespace Argmax.Renderer.Timelines

open Argmax.Lib Argmax.Providers SessionTimelineBucket

namespace RowVersions

variable {rows : RowVersions} {revision : ℕ} {id other : String}

/-- A row set or deleted. -/
def mark (keep : String → Bool) (revision : ℕ) (rows : RowVersions) (id : String) : RowVersions :=
  if keep id then rows.set revision id else rows.delete revision id

theorem find?_delete_id (versions : Versions) (id other : String) :
    (versions.delete fun entry => entry.1 == id).find? other =
      if id = other then none else versions.find? other := by
  rw [Table.find?_delete]
  cases hfind : versions.find? other with
  | none => simp
  | some entry =>
    have hkey := Table.key_of_find? hfind
    by_cases hid : id = other
    · simp [hkey, hid]
    · simp [hkey, hid, Ne.symm hid]

theorem live_mark (keep : String → Bool) :
    (mark keep revision rows id).live.find? other =
      if id = other then (if keep id then some (id, revision) else none)
      else rows.live.find? other := by
  cases hkeep : keep id
  · simp [mark, hkeep, delete, find?_delete_id]
  · simp [mark, hkeep, set]

theorem deletions_mark (keep : String → Bool) :
    (mark keep revision rows id).deletions.find? other =
      if id = other then (if keep id then none else some (id, revision))
      else rows.deletions.find? other := by
  cases hkeep : keep id
  · simp [mark, hkeep, delete]
  · simp [mark, hkeep, set, find?_delete_id]

theorem live_foldl_mark (keep : String → Bool) (ids : List String) :
    (ids.foldl (mark keep revision) rows).live.find? other =
      if other ∈ ids then (if keep other then some (other, revision) else none)
      else rows.live.find? other := by
  induction ids generalizing rows with
  | nil => simp
  | cons id ids ih =>
    rw [List.foldl_cons, ih, live_mark]
    by_cases hid : id = other
    · subst hid
      simp
    · simp [hid, Ne.symm hid]

theorem deletions_foldl_mark (keep : String → Bool) (ids : List String) :
    (ids.foldl (mark keep revision) rows).deletions.find? other =
      if other ∈ ids then (if keep other then none else some (other, revision))
      else rows.deletions.find? other := by
  induction ids generalizing rows with
  | nil => simp
  | cons id ids ih =>
    rw [List.foldl_cons, ih, deletions_mark]
    by_cases hid : id = other
    · subst hid
      simp
    · simp [hid, Ne.symm hid]

/-- Marked rows have the revision, the others what they had. -/
theorem latest_foldl_mark (keep : String → Bool) (ids : List String) :
    (ids.foldl (mark keep revision) rows).latest other =
      if other ∈ ids then revision else rows.latest other := by
  rw [latest, Versions.at, Versions.at, live_foldl_mark, deletions_foldl_mark]
  by_cases hmem : other ∈ ids
  · cases keep other <;> simp [hmem]
  · simp [hmem, latest, Versions.at]

/-- `record` marks three lists of rows, the last two as deleted. -/
theorem record_eq (rows : RowVersions) (revision : ℕ)
    (updated before final deleted : List String) :
    rows.record revision updated before final deleted =
      deleted.foldl (mark (fun _ => false) revision)
        ((before.filter fun id => !final.contains id).foldl (mark (fun _ => false) revision)
          (updated.foldl (mark (fun id => final.contains id && !deleted.contains id) revision)
            rows)) := rfl

/-- **A row that an update touches has the update's revision.** -/
theorem latest_record (updated before final deleted : List String) :
    (rows.record revision updated before final deleted).latest other =
      if other ∈ updated ∨ (other ∈ before ∧ other ∉ final) ∨ other ∈ deleted then revision
      else rows.latest other := by
  rw [record_eq, latest_foldl_mark, latest_foldl_mark, latest_foldl_mark]
  by_cases hdeleted : other ∈ deleted
  · simp [hdeleted]
  · by_cases hgone : other ∈ before ∧ other ∉ final
    · simp [hgone]
    · have hnot : other ∉ before.filter fun id => !final.contains id := by
        simpa using hgone
      simp [hdeleted, hgone]

/-- A row that is there after an update has no deletion on record, if it had none or the
update brought it. -/
theorem deletions_record {updated before final deleted : List String} (hfinal : other ∈ final)
    (hdeleted : other ∉ deleted)
    (h : other ∈ updated ∨ rows.deletions.find? other = none) :
    (rows.record revision updated before final deleted).deletions.find? other = none := by
  rw [record_eq, deletions_foldl_mark, deletions_foldl_mark, deletions_foldl_mark]
  have hnot : other ∉ before.filter fun id => !final.contains id := by
    simp [hfinal]
  rw [if_neg hdeleted, if_neg hnot]
  by_cases hupdated : other ∈ updated
  · simp [hupdated, hfinal, hdeleted]
  · rw [if_neg hupdated]
    exact h.resolve_left hupdated

/-- A version behind the revision stays. -/
theorem lt_latest_after {oldest : ℕ} (hle : oldest ≤ revision) (h : revision < rows.latest id) :
    revision < (rows.after oldest).latest id := by
  have hat : ∀ versions : Versions, revision < versions.at id →
      revision < Versions.at (versions.delete fun entry => decide (entry.2 ≤ oldest)) id := by
    intro versions hlt
    rw [Versions.at] at hlt ⊢
    rw [Table.find?_delete]
    cases hfind : versions.find? id with
    | none => simp [hfind] at hlt
    | some entry =>
      rw [hfind, Option.map_some, Option.getD_some] at hlt
      have hkeep : ¬entry.2 ≤ oldest := by omega
      simp [Option.filter, hkeep, hlt]
  rw [latest, lt_max_iff] at h ⊢
  exact h.imp (hat _) (hat _)

theorem deletions_after {oldest : ℕ} (h : rows.deletions.find? id = none) :
    (rows.after oldest).deletions.find? id = none := by
  rw [after, Table.find?_delete, h]
  rfl

end RowVersions

/-! ## Rows of a merge -/

section Merge

variable {collation : Collation} {decode : Decoder} {T : Type*} {idOf : T → String}

theorem mem_upsertById {current updates : List T} {row : T}
    (h : row ∈ upsertById idOf current updates) : row ∈ current ∨ row ∈ updates := by
  have hfold : ∀ (rows : List T) (table : Table idOf), row ∈ rows.foldl Table.put table →
      row ∈ table ∨ row ∈ rows := by
    intro rows
    induction rows with
    | nil => exact fun table h => .inl h
    | cons first rows ih =>
      intro table h
      rcases ih _ h with h | h
      · rcases Table.mem_put.mp h with rfl | h
        · exact .inr (by simp)
        · exact .inl h.1
      · exact .inr (by simp [h])
  unfold upsertById at h
  split at h
  · exact .inl h
  · rcases hfold updates _ h with h | h
    · rcases hfold current _ h with h | h
      · exact absurd h (Table.not_mem_empty row)
      · exact .inl h
    · exact .inr h

theorem mem_mergeSlice {timestamp : T → String} {order : T → Option ℤ} {limit : Option ℕ}
    {current updates : List T} {row : T}
    (h : row ∈ mergeSlice collation timestamp order idOf limit current updates) :
    row ∈ current ∨ row ∈ updates := by
  unfold mergeSlice at h
  split at h
  · exact .inl h
  · have hsorted : row ∈ sortByTimestamp collation timestamp order
        (upsertById idOf current updates) := by
      cases limit with
      | none => exact h
      | some limit => exact List.mem_of_mem_take h
    exact mem_upsertById (List.mem_mergeSort.mp hsorted)

theorem mem_pruneSupersededDeltas {events : List TimelineEvent} {event : TimelineEvent}
    (h : event ∈ pruneSupersededDeltas decode events) : event ∈ events := by
  unfold pruneSupersededDeltas at h
  split at h
  · split at h
    · exact h
    · dsimp only at h
      split at h
      · exact List.mem_reverse.mp (List.mem_of_mem_filter (List.mem_reverse.mp h))
      · exact List.mem_of_mem_filter h
  · exact h

/-- A row after a merge was there before or is one of the new rows. -/
theorem mem_mergeEventsBounded {current updates : List TimelineEvent} {event : TimelineEvent}
    (h : event ∈ mergeEventsBounded collation decode current updates) :
    event ∈ current ∨ event ∈ updates := by
  unfold mergeEventsBounded at h
  split at h
  · exact .inl h
  · have hmem := (cap_sublist _ _ _).subset (mem_pruneSupersededDeltas h)
    cases happend : appendNewerEvents collation current updates with
    | none =>
      rw [happend] at hmem
      exact mem_upsertById (List.mem_mergeSort.mp hmem)
    | some rows =>
      rw [happend] at hmem
      unfold appendNewerEvents at happend
      dsimp only at happend
      split at happend
      · cases happend
        rcases List.mem_append.mp hmem with hmem | hmem
        · exact .inr (List.mem_mergeSort.mp hmem)
        · exact .inl hmem
      · cases happend

end Merge

/-! ## Updates of a bucket -/

/-- The ids of the events of a snapshot. -/
def SessionTimelineSnapshot.eventIds (snapshot : SessionTimelineSnapshot) : List String :=
  snapshot.events.map (·.id)

/-- The ids of the raw outputs of a snapshot. -/
def SessionTimelineSnapshot.rawOutputIds (snapshot : SessionTimelineSnapshot) : List String :=
  snapshot.rawOutputs.map (·.id)

/-- **Deletions are remembered of absent rows.** -/
structure Coherent (bucket : SessionTimelineBucket) : Prop where
  events : ∀ id ∈ bucket.snapshot.eventIds, bucket.eventVersions.deletions.find? id = none
  rawOutputs :
    ∀ id ∈ bucket.snapshot.rawOutputIds, bucket.rawOutputVersions.deletions.find? id = none

/-- The base of an update is part of the snapshot. -/
def Based (bucket : SessionTimelineBucket) (update : Update) : Prop :=
  ∀ base, update.base = some base →
    (∀ event ∈ base.events, event ∈ bucket.snapshot.events) ∧
      ∀ output ∈ base.rawOutputs, output ∈ bucket.snapshot.rawOutputs

section Update

variable (collation : Collation) (decode : Decoder) (traceSuperseded : TimelineEvent → Bool)
  {bucket : SessionTimelineBucket} {update : Update}

theorem mem_mergedRows_events (hbase : Based bucket update) {event : TimelineEvent}
    (h : event ∈ (bucket.mergedRows collation decode update).events) :
    event ∈ bucket.snapshot.events ∨ event ∈ update.events := by
  have hmem : event ∈ (update.base.getD bucket.snapshot).events ∨ event ∈ update.events := by
    simpa [mergedRows, mergeDashboardDelta, removeRows, DashboardDelta.empty] using
      mem_mergeEventsBounded h
  refine hmem.imp_left fun hmem => ?_
  cases hsome : update.base with
  | none => simpa [hsome] using hmem
  | some base => exact (hbase base hsome).1 event (by simpa [hsome] using hmem)

theorem mem_mergedRows_rawOutputs (hbase : Based bucket update) {output : RawProviderOutput}
    (h : output ∈ (bucket.mergedRows collation decode update).rawOutputs) :
    output ∈ bucket.snapshot.rawOutputs ∨ output ∈ update.rawOutputs := by
  have hslice : output ∈ mergeSlice collation RawProviderOutput.createdAt
      RawProviderOutput.rowCursor RawProviderOutput.id (some rawOutputLimit)
      (update.base.getD bucket.snapshot).rawOutputs update.rawOutputs := h
  have hmem := mem_mergeSlice hslice
  refine hmem.imp_left fun hmem => ?_
  cases hsome : update.base with
  | none => simpa [hsome] using hmem
  | some base => exact (hbase base hsome).2 output (by simpa [hsome] using hmem)

/-- **An update of a bucket**: it brings nothing, or the merged rows without the deleted ones
are recorded at the next revision, and too many versions end the pending reads. -/
inductive Applied (bucket : SessionTimelineBucket) (update : Update) :
    SessionTimelineBucket → Prop where
  | nothing (hevents : update.events = []) (houtputs : update.rawOutputs = [])
      (hgone : goneEventIds traceSuperseded update = [])
      (hdeleted : update.deletedRawOutputIds = []) :
      Applied bucket update bucket
  | recorded (snapshot : SessionTimelineSnapshot)
      (hevents : snapshot.events = (bucket.mergedRows collation decode update).events.filter
        fun event => !(goneEventIds traceSuperseded update).contains event.id)
      (houtputs : snapshot.rawOutputs =
        (bucket.mergedRows collation decode update).rawOutputs.filter
          fun output => !update.deletedRawOutputIds.contains output.id) :
      Applied bucket update { bucket with
        revision := bucket.revision + 1
        snapshot := snapshot
        eventVersions := bucket.eventVersions.record (bucket.revision + 1)
          (update.events.map (·.id)) bucket.snapshot.eventIds snapshot.eventIds
          (goneEventIds traceSuperseded update)
        rawOutputVersions := bucket.rawOutputVersions.record (bucket.revision + 1)
          (update.rawOutputs.map (·.id)) bucket.snapshot.rawOutputIds snapshot.rawOutputIds
          update.deletedRawOutputIds }
  | cleared (snapshot : SessionTimelineSnapshot)
      (hevents : snapshot.events = (bucket.mergedRows collation decode update).events.filter
        fun event => !(goneEventIds traceSuperseded update).contains event.id)
      (houtputs : snapshot.rawOutputs =
        (bucket.mergedRows collation decode update).rawOutputs.filter
          fun output => !update.deletedRawOutputIds.contains output.id) :
      Applied bucket update { bucket with
        revision := bucket.revision + 1
        snapshot := snapshot
        eventVersions := .empty
        rawOutputVersions := .empty
        pendingReads := [] }

theorem applyBucketUpdate_spec (bucket : SessionTimelineBucket) (update : Update) :
    Applied collation decode traceSuperseded bucket update
      (bucket.applyBucketUpdate collation decode traceSuperseded update) := by
  unfold applyBucketUpdate
  dsimp only
  split
  · rename_i h
    simp only [Bool.and_eq_true, List.isEmpty_iff] at h
    exact .nothing h.1.1.1.1 h.1.1.1.2 h.1.1.2 h.1.2
  · split
    · exact .cleared ⟨_, _⟩ rfl rfl
    · exact .recorded ⟨_, _⟩ rfl rfl

variable {collation decode traceSuperseded} {after : SessionTimelineBucket}

namespace Applied

section

variable (h : Applied collation decode traceSuperseded bucket update after)
include h

/-- What an update leaves alone. -/
theorem frame :
    after.identity = bucket.identity ∧ after.generation = bucket.generation ∧
      after.eventCursor = bucket.eventCursor ∧ after.rawOutputCursor = bucket.rawOutputCursor ∧
      after.changeCursor = bucket.changeCursor ∧
      after.authoritativeReadRequired = bucket.authoritativeReadRequired := by
  cases h <;> exact ⟨rfl, rfl, rfl, rfl, rfl, rfl⟩

theorem revision_le : bucket.revision ≤ after.revision := by
  cases h with
  | nothing => exact le_rfl
  | recorded => exact Nat.le_succ _
  | cleared => exact Nat.le_succ _

theorem pendingReads_sublist
 :
    after.pendingReads.Sublist bucket.pendingReads := by
  cases h with
  | nothing => exact List.Sublist.refl _
  | recorded => exact List.Sublist.refl _
  | cleared => exact List.nil_sublist _

/-- A row after an update was there before or came with it. -/
theorem mem_events
    (hbase : Based bucket update) {event : TimelineEvent}
    (hmem : event ∈ after.snapshot.events) :
    event ∈ bucket.snapshot.events ∨ event ∈ update.events := by
  cases h with
  | nothing => exact .inl hmem
  | recorded snapshot hevents =>
    rw [hevents] at hmem
    exact mem_mergedRows_events collation decode hbase (List.mem_of_mem_filter hmem)
  | cleared snapshot hevents =>
    rw [hevents] at hmem
    exact mem_mergedRows_events collation decode hbase (List.mem_of_mem_filter hmem)

theorem mem_rawOutputs
    (hbase : Based bucket update) {output : RawProviderOutput}
    (hmem : output ∈ after.snapshot.rawOutputs) :
    output ∈ bucket.snapshot.rawOutputs ∨ output ∈ update.rawOutputs := by
  cases h with
  | nothing => exact .inl hmem
  | recorded snapshot _ houtputs =>
    rw [houtputs] at hmem
    exact mem_mergedRows_rawOutputs collation decode hbase (List.mem_of_mem_filter hmem)
  | cleared snapshot _ houtputs =>
    rw [houtputs] at hmem
    exact mem_mergedRows_rawOutputs collation decode hbase (List.mem_of_mem_filter hmem)

end

/-- The id of an event is touched by an update: brought, deleted, or dropped by the merge. -/
def TouchesEvent (traceSuperseded : TimelineEvent → Bool) (update : Update)
    (before after : SessionTimelineSnapshot) (id : String) : Prop :=
  id ∈ update.events.map (·.id) ∨ (id ∈ before.eventIds ∧ id ∉ after.eventIds) ∨
    id ∈ goneEventIds traceSuperseded update

/-- The id of a raw output is touched by an update. -/
def TouchesRawOutput (update : Update) (before after : SessionTimelineSnapshot) (id : String) :
    Prop :=
  id ∈ update.rawOutputs.map (·.id) ∨ (id ∈ before.rawOutputIds ∧ id ∉ after.rawOutputIds) ∨
    id ∈ update.deletedRawOutputIds

section

variable (h : Applied collation decode traceSuperseded bucket update after)
include h

/-- **With a read pending, what an update touches has its revision, and the rest keeps its
versions.** -/
theorem latest_event
    (hpending : after.pendingReads ≠ []) (id : String) :
    (TouchesEvent traceSuperseded update bucket.snapshot after.snapshot id →
        bucket.revision < after.eventVersions.latest id) ∧
      (bucket.eventVersions.latest id ≤ after.eventVersions.latest id ∨
        bucket.revision < after.eventVersions.latest id) := by
  cases h with
  | nothing hevents _ hgone =>
    refine ⟨fun htouch => ?_, .inl le_rfl⟩
    rcases htouch with hmem | hmem | hmem
    · simp [hevents] at hmem
    · exact absurd hmem.1 hmem.2
    · simp [hgone] at hmem
  | recorded snapshot =>
    rw [RowVersions.latest_record]
    split
    · exact ⟨fun _ => Nat.lt_succ_self _, .inr (Nat.lt_succ_self _)⟩
    · rename_i hnot
      exact ⟨fun htouch => absurd htouch hnot, .inl le_rfl⟩
  | cleared => exact absurd rfl hpending

theorem latest_rawOutput
    (hpending : after.pendingReads ≠ []) (id : String) :
    (TouchesRawOutput update bucket.snapshot after.snapshot id →
        bucket.revision < after.rawOutputVersions.latest id) ∧
      (bucket.rawOutputVersions.latest id ≤ after.rawOutputVersions.latest id ∨
        bucket.revision < after.rawOutputVersions.latest id) := by
  cases h with
  | nothing _ houtputs _ hdeleted =>
    refine ⟨fun htouch => ?_, .inl le_rfl⟩
    rcases htouch with hmem | hmem | hmem
    · simp [houtputs] at hmem
    · exact absurd hmem.1 hmem.2
    · simp [hdeleted] at hmem
  | recorded snapshot =>
    rw [RowVersions.latest_record]
    split
    · exact ⟨fun _ => Nat.lt_succ_self _, .inr (Nat.lt_succ_self _)⟩
    · rename_i hnot
      exact ⟨fun htouch => absurd htouch hnot, .inl le_rfl⟩
  | cleared => exact absurd rfl hpending

/-- **An update keeps the bucket coherent.** -/
theorem coherent (hbase : Based bucket update) (hcoherent : Coherent bucket) : Coherent after := by
  have hevents := fun event => @mem_events _ _ _ _ _ _ h hbase event
  have houtputs := fun output => @mem_rawOutputs _ _ _ _ _ _ h hbase output
  cases h with
  | nothing => exact hcoherent
  | recorded snapshot hrows hrows' =>
    constructor
    · intro id hid
      obtain ⟨event, hevent, rfl⟩ := List.mem_map.mp hid
      refine RowVersions.deletions_record hid ?_ ?_
      · rw [hrows] at hevent
        simpa using (List.mem_filter.mp hevent).2
      · rcases hevents event hevent with hmem | hmem
        · exact .inr (hcoherent.events event.id (List.mem_map_of_mem hmem))
        · exact .inl (List.mem_map_of_mem hmem)
    · intro id hid
      obtain ⟨output, houtput, rfl⟩ := List.mem_map.mp hid
      refine RowVersions.deletions_record hid ?_ ?_
      · rw [hrows'] at houtput
        simpa using (List.mem_filter.mp houtput).2
      · rcases houtputs output houtput with hmem | hmem
        · exact .inr (hcoherent.rawOutputs output.id (List.mem_map_of_mem hmem))
        · exact .inl (List.mem_map_of_mem hmem)
  | cleared => exact ⟨fun _ _ => rfl, fun _ _ => rfl⟩

end

end Applied

end Update

end Argmax.Renderer.Timelines
