import Argmax.Renderer.RowVersions
import Argmax.Lib.Transition

/-!
# Changes of a bucket

What an operation of the timeline store can do to the bucket of a session is said once, by
`step_bucket`: it updates the bucket, ends or begins a read, leaves it alone, or another
bucket takes its place. That one has a symbol of its own and no cursors (`Fresh`).
-/

namespace Argmax.Renderer.Timelines

open Argmax.Lib Argmax.Providers SessionTimelineBucket SessionTimelines

/-! ## Lookup -/

section Lookup

variable (store : SessionTimelines) (sessionId other : String) (bucket : SessionTimelineBucket)

theorem bucketOf_setBucket :
    (store.setBucket sessionId bucket).bucketOf other =
      if sessionId = other then some bucket else store.bucketOf other := by
  unfold bucketOf setBucket
  rw [Table.find?_put]
  split <;> rfl

theorem bucketOf_deleteBucket :
    (store.deleteBucket sessionId).bucketOf other =
      if sessionId = other then none else store.bucketOf other := by
  unfold bucketOf deleteBucket
  rw [Table.find?_delete]
  cases hfind : store.buckets.find? other with
  | none => simp
  | some entry =>
    have hkey := Table.key_of_find? hfind
    by_cases hid : sessionId = other
    · simp [hkey, hid]
    · simp [Option.filter, hkey, hid, Ne.symm hid]

theorem bucketOf_modify (f : SessionTimelineBucket → SessionTimelineBucket) :
    (store.modify sessionId f).bucketOf other =
      if sessionId = other then (store.bucketOf other).map f else store.bucketOf other := by
  unfold SessionTimelines.modify
  cases hbucket : store.bucketOf sessionId with
  | none =>
    by_cases hid : sessionId = other
    · subst hid
      simp [hbucket]
    · simp [hid]
  | some bucket =>
    rw [bucketOf_setBucket]
    by_cases hid : sessionId = other
    · subst hid
      simp [hbucket]
    · simp [hid]

@[simp] theorem nextSymbol_modify (f : SessionTimelineBucket → SessionTimelineBucket) :
    (store.modify sessionId f).nextSymbol = store.nextSymbol := by
  unfold SessionTimelines.modify
  split <;> rfl

end Lookup

/-! ## Fresh buckets -/

/-- What holds of every bucket of a store: it and its reads have symbols of the past. -/
structure Known (symbol : ℕ) (bucket : SessionTimelineBucket) : Prop where
  lt : bucket.identity < symbol
  reads : ∀ read ∈ bucket.pendingReads, read.1 < symbol
  coherent : Coherent bucket

variable {symbol symbol' low high : ℕ} {bucket after : SessionTimelineBucket} {sessionId : String}
  {store : SessionTimelines}

theorem Known.mono (h : Known symbol bucket) (hle : symbol ≤ symbol') : Known symbol' bucket :=
  ⟨lt_of_lt_of_le h.lt hle, fun read hread => lt_of_lt_of_le (h.reads read hread) hle, h.coherent⟩

/-- A bucket made from symbols of a range, without cursors. -/
structure Fresh (low high : ℕ) (bucket : SessionTimelineBucket) : Prop extends
    Known high bucket where
  le : low ≤ bucket.identity
  eventCursor : bucket.eventCursor = none
  rawOutputCursor : bucket.rawOutputCursor = none
  changeCursor : bucket.changeCursor = none

theorem Fresh.mono {low' high' : ℕ} (h : Fresh low high bucket) (hlow : low' ≤ low)
    (hhigh : high ≤ high') : Fresh low' high' bucket :=
  { h with toKnown := h.toKnown.mono hhigh, le := hlow.trans h.le }

theorem fresh_newBucket (store : SessionTimelines) :
    Fresh store.nextSymbol (store.nextSymbol + 1) store.newBucket where
  lt := Nat.lt_succ_self _
  reads := fun _ h => absurd h List.not_mem_nil
  coherent := ⟨fun _ _ => rfl, fun _ _ => rfl⟩
  le := le_rfl
  eventCursor := rfl
  rawOutputCursor := rfl
  changeCursor := rfl

/-- Each bucket of a session afterwards was its bucket before or is fresh. -/
structure Frame (store after : SessionTimelines) (sessionId : String) : Prop where
  symbol : store.nextSymbol ≤ after.nextSymbol
  bucket : ∀ bucket, after.bucketOf sessionId = some bucket →
    store.bucketOf sessionId = some bucket ∨ Fresh store.nextSymbol after.nextSymbol bucket

namespace Frame

variable {store middle after : SessionTimelines} {sessionId : String}

theorem refl (store : SessionTimelines) (sessionId : String) : Frame store store sessionId :=
  ⟨le_rfl, fun _ h => .inl h⟩

theorem trans (h : Frame store middle sessionId) (h' : Frame middle after sessionId) :
    Frame store after sessionId := by
  refine ⟨h.symbol.trans h'.symbol, fun bucket hbucket => ?_⟩
  rcases h'.bucket bucket hbucket with hbucket | hfresh
  · exact (h.bucket bucket hbucket).imp_right fun hfresh => hfresh.mono le_rfl h'.symbol
  · exact .inr (hfresh.mono h.symbol le_rfl)

theorem foldl {α : Type*} {f : SessionTimelines → α → SessionTimelines} {as : List α}
    (h : ∀ a ∈ as, ∀ store, Frame store (f store a) sessionId) (store : SessionTimelines) :
    Frame store (as.foldl f store) sessionId := by
  induction as generalizing store with
  | nil => exact refl store sessionId
  | cons a as ih =>
    exact (h a (by simp) store).trans (ih (fun b hb => h b (by simp [hb])) (f store a))

/-- Changes outside the table. -/
theorem of_buckets (hbuckets : after.buckets = store.buckets)
    (hsymbol : after.nextSymbol = store.nextSymbol) : Frame store after sessionId := by
  refine ⟨le_of_eq hsymbol.symm, fun bucket hbucket => .inl ?_⟩
  unfold bucketOf at hbucket ⊢
  rwa [← hbuckets]

theorem deleteBucket (store : SessionTimelines) (gone sessionId : String) :
    Frame store (store.deleteBucket gone) sessionId := by
  refine ⟨le_rfl, fun bucket hbucket => .inl ?_⟩
  rw [bucketOf_deleteBucket] at hbucket
  split at hbucket
  · cases hbucket
  · exact hbucket

theorem markInactive (store : SessionTimelines) (inactive sessionId : String) :
    Frame store (store.markInactive inactive) sessionId := by
  have hinactive : ∀ sessions, Frame store { store with inactiveSessions := sessions } sessionId :=
    fun _ => of_buckets rfl rfl
  exact (hinactive _).trans (foldl (fun gone _ store => deleteBucket store gone sessionId) _)

theorem touch (store : SessionTimelines) (touched sessionId : String) :
    Frame store (store.touch touched) sessionId := by
  unfold SessionTimelines.touch
  split
  · exact of_buckets rfl rfl
  · exact markInactive _ _ _

/-- A fresh bucket put in place. -/
theorem put (store : SessionTimelines) (put sessionId : String)
    (h : Fresh store.nextSymbol (store.nextSymbol + 1) bucket) :
    Frame store (store.createBucket.setBucket put bucket) sessionId := by
  refine ⟨Nat.le_succ _, fun found hfound => ?_⟩
  rw [bucketOf_setBucket] at hfound
  split at hfound
  · cases hfound
    exact .inr h
  · exact .inl hfound

theorem getOrCreateBucket (store : SessionTimelines) (wanted sessionId : String) :
    Frame store (store.getOrCreateBucket wanted) sessionId := by
  unfold SessionTimelines.getOrCreateBucket
  split
  · exact touch _ _ _
  · exact (put _ _ _ (fresh_newBucket store)).trans (touch _ _ _)

theorem modify_other (store : SessionTimelines) {changed : String} (hne : changed ≠ sessionId)
    (f : SessionTimelineBucket → SessionTimelineBucket) :
    Frame store (store.modify changed f) sessionId := by
  refine ⟨le_of_eq (nextSymbol_modify _ _ _).symm, fun bucket hbucket => .inl ?_⟩
  rwa [bucketOf_modify, if_neg hne] at hbucket

end Frame

/-! ## What an operation does to a bucket -/

theorem coherent_compactVersions (h : Coherent bucket) : Coherent bucket.compactVersions := by
  unfold compactVersions
  split
  · exact ⟨fun _ _ => rfl, fun _ _ => rfl⟩
  · exact ⟨fun id hid => RowVersions.deletions_after (h.events id hid),
      fun id hid => RowVersions.deletions_after (h.rawOutputs id hid)⟩

/-- What `compactVersions` leaves alone. -/
theorem frame_compactVersions (bucket : SessionTimelineBucket) :
    bucket.compactVersions =
      { bucket with
        eventVersions := bucket.compactVersions.eventVersions
        rawOutputVersions := bucket.compactVersions.rawOutputVersions } := by
  unfold compactVersions
  split <;> rfl

section Changes

variable (collation : Collation) (decode : Decoder) (traceSuperseded : TimelineEvent → Bool)

/-- The update that an operation applies to the bucket of a session. -/
def updateOf (store : SessionTimelines) (sessionId : String) : Op → Option Update
  | .merge events rawOutputs =>
    if sessionId ∈ events.map (·.sessionId) ++ rawOutputs.map (·.sessionId) then
      some ⟨events.filter fun event => event.sessionId == sessionId,
        rawOutputs.filter fun output => output.sessionId == sessionId, none, [], []⟩
    else none
  | .mergeAgentTail session result none =>
    if session = sessionId then some ⟨result.events, result.rawOutputs, none, [], []⟩ else none
  | .mergeAgentTail session result (some ticket) =>
    if session = sessionId then
      (store.validReadBucket session ticket).map fun bucket => bucket.tailUpdate ticket result
    else none
  | .finishRead session ticket result =>
    if session = sessionId then
      ((store.validReadBucket session ticket).filter fun bucket =>
        !bucket.isStale ticket result).map fun bucket => bucket.readUpdate ticket result
    else none
  | _ => none

/-- The changes of a bucket, by an operation that applies an update to it or none. -/
inductive Change (op : Op) (update : Option Update) (low high : ℕ)
    (bucket : SessionTimelineBucket) : SessionTimelineBucket → Prop where
  | same (h : update = none) : Change op update low high bucket bucket
  | merged (brought : Update) (h : update = some brought) (hbase : Based bucket brought) :
      Change op update low high bucket
        (bucket.applyBucketUpdate collation decode traceSuperseded brought).compactVersions
  | answered (brought : Update) (h : update = some brought) (hbase : Based bucket brought)
      (read : ℕ) :
      Change op update low high bucket
        ((bucket.applyBucketUpdate collation decode traceSuperseded brought).endRead
          read).compactVersions
  | finished (brought : Update) (h : update = some brought) (hbase : Based bucket brought)
      (sessionId : String) (ticket : SessionTimelineReadTicket) (result : RevisionReadResult)
      (hop : op = .finishRead sessionId ticket result) :
      Change op update low high bucket
        (((bucket.applyBucketUpdate collation decode traceSuperseded brought).advanceCursors
          result).endRead ticket.readIdentity).compactVersions
  | ended (h : update = none) (read : ℕ) :
      Change op update low high bucket (bucket.endRead read).compactVersions
  | begun (h : update = none) (read : ℕ) (hlow : low ≤ read) (hhigh : read < high) :
      Change op update low high bucket
        { makeRoom bucket with
          pendingReads := (makeRoom bucket).pendingReads ++ [(read, (makeRoom bucket).revision)] }

variable {collation decode traceSuperseded}

theorem pendingReads_compactVersions (bucket : SessionTimelineBucket) :
    bucket.compactVersions.pendingReads = bucket.pendingReads := by
  rw [frame_compactVersions]

section

variable (h : Known symbol bucket)
include h

theorem Known.compactVersions : Known symbol bucket.compactVersions where
  lt := by
    rw [frame_compactVersions]
    exact h.lt
  reads := by
    rw [frame_compactVersions]
    exact h.reads
  coherent := coherent_compactVersions h.coherent

theorem Known.applied {update : Update}
    (happlied : Applied collation decode traceSuperseded bucket update after)
    (hbase : Based bucket update) : Known symbol after where
  lt := happlied.frame.1 ▸ h.lt
  reads := fun read hread => h.reads read (happlied.pendingReads_sublist.subset hread)
  coherent := happlied.coherent hbase h.coherent

/-- A read fewer, or a read of the past. -/
theorem Known.reads_of (hle : symbol ≤ symbol') {reads : List (ℕ × ℕ)}
    (hreads : ∀ read ∈ reads, read ∈ bucket.pendingReads ∨ read.1 < symbol') :
    Known symbol' { bucket with pendingReads := reads } where
  lt := lt_of_lt_of_le h.lt hle
  reads := fun read hread =>
    (hreads read hread).elim (fun hmem => lt_of_lt_of_le (h.reads read hmem) hle) id
  coherent := ⟨h.coherent.events, h.coherent.rawOutputs⟩

theorem Known.endRead (read : ℕ) : Known symbol (bucket.endRead read) :=
  h.reads_of le_rfl fun _ hread => .inl (List.mem_of_mem_filter hread)

theorem Known.begun {read : ℕ} (hle : symbol ≤ symbol')
    (hread : read < symbol') :
    Known symbol' { makeRoom bucket with
      pendingReads := (makeRoom bucket).pendingReads ++ [(read, (makeRoom bucket).revision)] } := by
  have hroom : Known symbol (makeRoom bucket) :=
    (h.reads_of le_rfl fun _ hmem => .inl (List.mem_of_mem_drop hmem)).compactVersions
  refine hroom.reads_of hle fun other hother => ?_
  rcases List.mem_append.mp hother with hother | hother
  · exact .inl hother
  · rw [List.mem_singleton.mp hother]
    exact .inr hread

theorem Known.advanceCursors (result : RevisionReadResult) :
    Known symbol (bucket.advanceCursors result) := by
  unfold SessionTimelineBucket.advanceCursors
  split
  · exact ⟨h.lt, h.reads, h.coherent.events, h.coherent.rawOutputs⟩
  · exact ⟨h.lt, h.reads, h.coherent.events, h.coherent.rawOutputs⟩

end

/-- A change keeps what is known of a bucket. -/
theorem Change.known {op : Op} {update : Option Update}
    (h : Change collation decode traceSuperseded op update low high bucket after) (hle : low ≤ high)
    (hknown : Known low bucket) : Known high after := by
  have happlied := fun update => applyBucketUpdate_spec collation decode traceSuperseded
    bucket update
  cases h with
  | same => exact hknown.mono hle
  | merged brought _ hbase =>
    exact (hknown.applied (happlied brought) hbase).compactVersions.mono hle
  | answered brought _ hbase read =>
    exact ((hknown.applied (happlied brought) hbase).endRead read).compactVersions.mono hle
  | finished brought _ hbase _ _ result =>
    have hadvanced := (hknown.applied (happlied brought) hbase).advanceCursors result
    exact (hadvanced.endRead _).compactVersions.mono hle
  | ended _ read => exact (hknown.endRead read).compactVersions.mono hle
  | begun _ read _ hhigh => exact hknown.begun hle hhigh

theorem Fresh.compactVersions (h : Fresh low high bucket) :
    Fresh low high bucket.compactVersions := by
  have hknown := h.toKnown.compactVersions
  rw [frame_compactVersions] at hknown ⊢
  exact { h with toKnown := hknown }

theorem Fresh.applied {update : Update} (h : Fresh low high bucket)
    (happlied : Applied collation decode traceSuperseded bucket update after)
    (hbase : Based bucket update) : Fresh low high after := by
  obtain ⟨hidentity, -, hevents, houtputs, hchange, -⟩ := happlied.frame
  exact ⟨h.toKnown.applied happlied hbase, hidentity ▸ h.le, hevents ▸ h.eventCursor,
    houtputs ▸ h.rawOutputCursor, hchange ▸ h.changeCursor⟩

/-- A read that begins in a fresh bucket. -/
theorem Fresh.begun {high' read : ℕ} (h : Fresh low high bucket) (hle : high ≤ high')
    (hread : read < high') :
    Fresh low high' { makeRoom bucket with
      pendingReads := (makeRoom bucket).pendingReads ++ [(read, (makeRoom bucket).revision)] } := by
  have hknown := h.toKnown.begun hle hread
  have hroom : Fresh low high (makeRoom bucket) := by
    refine Fresh.compactVersions { h with toKnown := ?_ }
    exact h.toKnown.reads_of le_rfl fun _ hmem => .inl (List.mem_of_mem_drop hmem)
  exact { hroom with toKnown := hknown }

theorem based_none (bucket : SessionTimelineBucket) (events : List TimelineEvent)
    (rawOutputs : List RawProviderOutput) :
    Based bucket ⟨events, rawOutputs, none, [], []⟩ := fun _ h => nomatch h

theorem based_readUpdate (bucket : SessionTimelineBucket) (ticket : SessionTimelineReadTicket)
    (result : RevisionReadResult) : Based bucket (bucket.readUpdate ticket result) := by
  intro base hbase
  unfold readUpdate at hbase
  split at hbase
  · cases hbase
    exact ⟨fun _ h => List.mem_of_mem_filter h, fun _ h => List.mem_of_mem_filter h⟩
  · cases hbase

/-- Live rows of a session reach its bucket, which may be a fresh one. -/
theorem mergeInto_bucket {events : List TimelineEvent} {rawOutputs : List RawProviderOutput}
    (h : (store.mergeInto collation decode traceSuperseded sessionId events
      rawOutputs).bucketOf sessionId = some after) :
    ∃ bucket, (store.bucketOf sessionId = some bucket ∨ Fresh store.nextSymbol
        (store.mergeInto collation decode traceSuperseded sessionId events rawOutputs).nextSymbol
        bucket) ∧
      after = (bucket.applyBucketUpdate collation decode traceSuperseded
        ⟨events, rawOutputs, none, [], []⟩).compactVersions := by
  unfold mergeInto at h ⊢
  rw [bucketOf_modify, if_pos rfl] at h
  rw [nextSymbol_modify]
  obtain ⟨bucket, hbucket, rfl⟩ := Option.map_eq_some_iff.mp h
  exact ⟨bucket, (Frame.getOrCreateBucket store sessionId sessionId).bucket bucket hbucket, rfl⟩

theorem frame_mergeInto (store : SessionTimelines) {changed : String} (hne : changed ≠ sessionId)
    (events : List TimelineEvent) (rawOutputs : List RawProviderOutput) :
    Frame store (store.mergeInto collation decode traceSuperseded changed events rawOutputs)
      sessionId :=
  (Frame.getOrCreateBucket store changed sessionId).trans (Frame.modify_other _ hne _)

theorem nextSymbol_mergeInto (store : SessionTimelines) (changed : String)
    (events : List TimelineEvent) (rawOutputs : List RawProviderOutput) :
    store.nextSymbol ≤
      (store.mergeInto collation decode traceSuperseded changed events rawOutputs).nextSymbol := by
  unfold mergeInto
  rw [nextSymbol_modify]
  exact (Frame.getOrCreateBucket store changed changed).symbol

/-- A bucket that live rows have reached. -/
theorem reached_bucket (op : Op) {events : List TimelineEvent} {rawOutputs : List RawProviderOutput}
    (h : store.bucketOf sessionId = some bucket ∨ Fresh low high bucket) :
    (∃ before, store.bucketOf sessionId = some before ∧
        Change collation decode traceSuperseded op (some ⟨events, rawOutputs, none, [], []⟩)
          symbol symbol' before (bucket.applyBucketUpdate collation decode traceSuperseded
            ⟨events, rawOutputs, none, [], []⟩).compactVersions) ∨
      Fresh low high (bucket.applyBucketUpdate collation decode traceSuperseded
        ⟨events, rawOutputs, none, [], []⟩).compactVersions := by
  have hbase := based_none bucket events rawOutputs
  exact h.imp (fun hbucket => ⟨bucket, hbucket, .merged _ rfl hbase⟩)
    fun hfresh => (hfresh.applied (applyBucketUpdate_spec _ _ _ _ _) hbase).compactVersions

theorem nodup_eraseDups : ∀ sessions : List String, sessions.eraseDups.Nodup
  | [] => by simp
  | session :: sessions => by
    rw [List.eraseDups_cons, List.nodup_cons, List.mem_eraseDups]
    exact ⟨by simp, nodup_eraseDups _⟩
  termination_by sessions => sessions.length
  decreasing_by
    have := List.length_filter_le (fun other => !other == session) sessions
    simp only [List.length_cons]
    omega

/-- The sessions of live rows, one after another. -/
theorem merge_bucket {events : List TimelineEvent} {rawOutputs : List RawProviderOutput}
    (h : (store.merge collation decode traceSuperseded events rawOutputs).bucketOf sessionId =
      some after) :
    (∃ bucket, store.bucketOf sessionId = some bucket ∧
        Change collation decode traceSuperseded (.merge events rawOutputs)
          (updateOf store sessionId (.merge events rawOutputs)) store.nextSymbol
          (store.merge collation decode traceSuperseded events rawOutputs).nextSymbol
          bucket after) ∨
      Fresh store.nextSymbol
        (store.merge collation decode traceSuperseded events rawOutputs).nextSymbol after := by
  let f := fun (store : SessionTimelines) (session : String) =>
    store.mergeInto collation decode traceSuperseded session
      (events.filter fun event => event.sessionId == session)
      (rawOutputs.filter fun output => output.sessionId == session)
  let sessions := (events.map (·.sessionId) ++ rawOutputs.map (·.sessionId)).eraseDups
  have hf : ∀ others : List String, sessionId ∉ others → ∀ store,
      Frame store (others.foldl f store) sessionId := by
    intro others hnot store
    refine Frame.foldl (fun other hother store => frame_mergeInto store ?_ _ _) store
    rintro rfl
    exact hnot hother
  have hmem : sessionId ∈ sessions ↔
      sessionId ∈ events.map (·.sessionId) ++ rawOutputs.map (·.sessionId) := List.mem_eraseDups
  have hmerge : store.merge collation decode traceSuperseded events rawOutputs =
      sessions.foldl f store := rfl
  rw [hmerge] at h ⊢
  by_cases hsession : sessionId ∈ sessions
  · have hupdate : updateOf store sessionId (.merge events rawOutputs) =
        some ⟨events.filter fun event => event.sessionId == sessionId,
          rawOutputs.filter fun output => output.sessionId == sessionId, none, [], []⟩ :=
      if_pos (hmem.mp hsession)
    rw [hupdate]
    have hnodup : sessions.Nodup := nodup_eraseDups _
    obtain ⟨before, later, hsplit⟩ := List.append_of_mem hsession
    rw [hsplit] at h hnodup ⊢
    have hbefore : sessionId ∉ before := by
      intro hmem
      exact (List.nodup_append.mp hnodup).2.2 sessionId hmem sessionId (by simp) rfl
    have hlater : sessionId ∉ later :=
      (List.nodup_cons.mp (List.nodup_append.mp hnodup).2.1).1
    rw [List.foldl_append] at h ⊢
    have hframe := hf before hbefore store
    have hframe' := hf later hlater (f (before.foldl f store) sessionId)
    have hsymbol : (before.foldl f store).nextSymbol ≤
        (f (before.foldl f store) sessionId).nextSymbol := nextSymbol_mergeInto _ _ _ _
    rcases hframe'.bucket after h with hmiddle | hfresh
    · obtain ⟨bucket, hbucket, rfl⟩ := mergeInto_bucket hmiddle
      refine reached_bucket _ ?_
      rcases hbucket with hbucket | hfresh
      · exact (hframe.bucket bucket hbucket).imp_right fun hfresh =>
          hfresh.mono le_rfl (hsymbol.trans hframe'.symbol)
      · exact .inr (hfresh.mono hframe.symbol hframe'.symbol)
    · exact .inr (hfresh.mono (hframe.symbol.trans hsymbol) le_rfl)
  · have hupdate : updateOf store sessionId (.merge events rawOutputs) = none :=
      if_neg fun hin => hsession (hmem.mpr hin)
    exact ((hf sessions hsession store).bucket after h).imp_left fun hbucket =>
      ⟨after, hbucket, .same hupdate⟩

theorem frame_subscribe (store : SessionTimelines) (subscribed sessionId : String)
    (listener : ℕ) : Frame store (store.subscribe subscribed listener) sessionId := by
  refine Frame.trans ?_ (Frame.getOrCreateBucket _ subscribed sessionId)
  exact Frame.of_buckets rfl rfl

theorem frame_unsubscribe (store : SessionTimelines) (unsubscribed sessionId : String)
    (listener : ℕ) : Frame store (store.unsubscribe unsubscribed listener) sessionId := by
  unfold SessionTimelines.unsubscribe
  split
  · exact Frame.refl _ _
  · dsimp only
    split
    · refine Frame.trans ?_ (Frame.markInactive _ unsubscribed sessionId)
      exact Frame.of_buckets rfl rfl
    · exact Frame.of_buckets rfl rfl

theorem frame_remove (store : SessionTimelines) (sessionIds : List String) (sessionId : String) :
    Frame store (store.remove sessionIds) sessionId := by
  refine Frame.foldl (fun gone _ store => ?_) store
  split
  · exact (Frame.deleteBucket store gone sessionId).trans (Frame.of_buckets rfl rfl)
  · exact Frame.refl _ _

theorem frame_reset (store : SessionTimelines) (sessionIds : Option (List String))
    (sessionId : String) : Frame store (store.reset sessionIds) sessionId := by
  refine Frame.foldl (fun session _ store => ?_) store
  have hput := Frame.put store session sessionId (fresh_newBucket store)
  split
  · exact Frame.refl _ _
  · dsimp only
    split
    · exact hput
    · exact hput.trans (Frame.markInactive _ _ _)

theorem frame_invalidate (store : SessionTimelines) (sessionIds : Option (List String))
    (sessionId : String) : Frame store (store.invalidate sessionIds) sessionId := by
  refine Frame.foldl (fun session _ store => ?_) store
  split
  · exact Frame.refl _ _
  · rename_i current hcurrent
    have hfresh : Fresh store.nextSymbol (store.nextSymbol + 1)
        { store.newBucket with snapshot := current.snapshot, authoritativeReadRequired := true } :=
      { fresh_newBucket store with
        toKnown := { (fresh_newBucket store).toKnown with
          coherent := ⟨fun _ _ => rfl, fun _ _ => rfl⟩ } }
    have hput := Frame.put store session sessionId hfresh
    dsimp only
    split
    · exact hput
    · exact hput.trans (Frame.markInactive _ _ _)

/-- **What an operation can do to the bucket of a session.** -/
theorem step_bucket (op : Op)
    (h : (step collation decode traceSuperseded store op).bucketOf sessionId = some after) :
    (∃ bucket, store.bucketOf sessionId = some bucket ∧
        Change collation decode traceSuperseded op (updateOf store sessionId op)
          store.nextSymbol (step collation decode traceSuperseded store op).nextSymbol
          bucket after) ∨
      Fresh store.nextSymbol (step collation decode traceSuperseded store op).nextSymbol after := by
  have hframe : ∀ store', Frame store store' sessionId → updateOf store sessionId op = none →
      store'.bucketOf sessionId = some after →
      (∃ bucket, store.bucketOf sessionId = some bucket ∧
        Change collation decode traceSuperseded op (updateOf store sessionId op)
          store.nextSymbol store'.nextSymbol bucket after) ∨
        Fresh store.nextSymbol store'.nextSymbol after :=
    fun store' hframe hupdate hbucket =>
      (hframe.bucket after hbucket).imp_left fun hbucket => ⟨after, hbucket, .same hupdate⟩
  cases op with
  | subscribe session listener =>
    exact hframe _ (frame_subscribe store session sessionId listener) rfl h
  | unsubscribe session listener =>
    exact hframe _ (frame_unsubscribe store session sessionId listener) rfl h
  | merge events rawOutputs => exact merge_bucket h
  | mergeAgentTail session result ticket =>
    cases ticket with
    | none =>
      by_cases hsession : session = sessionId
      · subst hsession
        have hupdate : updateOf store session (.mergeAgentTail session result none) =
            some ⟨result.events, result.rawOutputs, none, [], []⟩ := if_pos rfl
        obtain ⟨bucket, hbucket, rfl⟩ := mergeInto_bucket h
        rw [hupdate]
        exact reached_bucket _ hbucket
      · exact hframe _ (frame_mergeInto store hsession _ _) (if_neg hsession) h
    | some ticket =>
      simp only [step, SessionTimelines.mergeAgentTail] at h ⊢
      cases hvalid : store.validReadBucket session ticket with
      | none =>
        simp only [hvalid] at h ⊢
        exact hframe _ (Frame.refl _ _) (by simp [updateOf, hvalid]) h
      | some bucket =>
        simp only [hvalid] at h ⊢
        rw [bucketOf_setBucket] at h
        by_cases hsession : session = sessionId
        · subst hsession
          rw [if_pos rfl] at h
          cases h
          refine .inl ⟨bucket, (Option.filter_eq_some_iff.mp hvalid).1, ?_⟩
          exact .answered (bucket.tailUpdate ticket result) (by simp [updateOf, hvalid])
            (based_none bucket _ _) _
        · rw [if_neg hsession] at h
          exact .inl ⟨after, h, .same (if_neg hsession)⟩
  | beginRead session =>
    simp only [step, SessionTimelines.beginRead] at h ⊢
    have hcreated := Frame.getOrCreateBucket store session sessionId
    cases hbucket : (store.getOrCreateBucket session).bucketOf session with
    | none =>
      simp only [hbucket] at h ⊢
      exact hframe _ hcreated rfl h
    | some bucket =>
      simp only [hbucket] at h ⊢
      rw [bucketOf_setBucket] at h
      by_cases hsession : session = sessionId
      · subst hsession
        rw [if_pos rfl] at h
        cases h
        rcases hcreated.bucket bucket hbucket with hbefore | hfresh
        · exact .inl ⟨bucket, hbefore, .begun rfl _ hcreated.symbol (Nat.lt_succ_self _)⟩
        · exact .inr (hfresh.begun (Nat.le_succ _) (Nat.lt_succ_self _))
      · rw [if_neg hsession] at h
        exact (hcreated.bucket after h).imp (fun hbucket => ⟨after, hbucket, .same rfl⟩)
          fun hfresh => hfresh.mono le_rfl (Nat.le_succ _)
  | cancelRead session ticket =>
    simp only [step, SessionTimelines.cancelRead] at h ⊢
    cases hvalid : store.validReadBucket session ticket with
    | none =>
      simp only [hvalid] at h ⊢
      exact hframe _ (Frame.refl _ _) rfl h
    | some bucket =>
      simp only [hvalid] at h ⊢
      rw [bucketOf_setBucket] at h
      by_cases hsession : session = sessionId
      · subst hsession
        rw [if_pos rfl] at h
        cases h
        exact .inl ⟨bucket, (Option.filter_eq_some_iff.mp hvalid).1, .ended rfl _⟩
      · rw [if_neg hsession] at h
        exact .inl ⟨after, h, .same rfl⟩
  | finishRead session ticket result =>
    simp only [step, SessionTimelines.finishRead] at h ⊢
    cases hvalid : store.validReadBucket session ticket with
    | none =>
      simp only [hvalid] at h ⊢
      exact hframe _ (Frame.refl _ _) (by simp [updateOf, hvalid]) h
    | some bucket =>
      have hbucket := (Option.filter_eq_some_iff.mp hvalid).1
      simp only [hvalid] at h ⊢
      by_cases hsession : session = sessionId
      · subst hsession
        cases hstale : bucket.isStale ticket result with
        | true =>
          simp only [hstale, if_true] at h ⊢
          rw [bucketOf_setBucket, if_pos rfl] at h
          cases h
          exact .inl ⟨bucket, hbucket, .ended (by simp [updateOf, hvalid, hstale]) _⟩
        | false =>
          simp only [hstale, Bool.false_eq_true, if_false] at h ⊢
          rw [bucketOf_setBucket, if_pos rfl] at h
          cases h
          exact .inl ⟨bucket, hbucket, .finished _ (by simp [updateOf, hvalid, hstale])
            (based_readUpdate _ _ _) _ _ _ rfl⟩
      · refine .inl ⟨after, ?_, .same (if_neg hsession)⟩
        cases hstale : bucket.isStale ticket result with
        | true =>
          simp only [hstale, if_true] at h
          rwa [bucketOf_setBucket, if_neg hsession] at h
        | false =>
          simp only [hstale, Bool.false_eq_true, if_false] at h
          rwa [bucketOf_setBucket, if_neg hsession] at h
  | remove sessionIds => exact hframe _ (frame_remove store sessionIds sessionId) rfl h
  | retainSessions allowedIds => exact hframe _ (frame_remove store _ sessionId) rfl h
  | reset sessionIds => exact hframe _ (frame_reset store sessionIds sessionId) rfl h
  | invalidate sessionIds => exact hframe _ (frame_invalidate store sessionIds sessionId) rfl h

end Changes

end Argmax.Renderer.Timelines
