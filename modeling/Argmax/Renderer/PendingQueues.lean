import Argmax.Providers.FollowUpQueue
import Argmax.Renderer.Snapshot

/-!
# Merging queues

`mergePendingMessages` of `snapshot.ts`, with the object it returns. A delta brings the whole
queue of a session, which replaces the one in hand unless both have the same ids in the same
order. A queue that is paused has the ids it had, so that the renderer goes on showing it as one
that will be sent.
-/

namespace Argmax.Renderer

open Argmax.Lib Argmax.Providers

/-! ## The merge -/

section Merge

variable {M : Type*} (id : M → String)

/-- `next`, and whether it differs from `base`. -/
structure Merging (M : Type*) where
  next : String → Option (List M)
  changed : Bool

def Merging.set (s : Merging M) (sessionId : String) (queue : Option (List M)) : Merging M :=
  ⟨Function.update s.next sessionId queue, true⟩

/-- `existing.every((entry, index) => entry.id === incoming[index]?.id)`. -/
def sameIds (existing incoming : List M) : Bool :=
  existing.zipIdx.all fun entry => some (id entry.1) == incoming[entry.2]?.map id

/-- One session of the delta. -/
def mergeRound (s : Merging M) (update : String × List M) : Merging M :=
  let (sessionId, incoming) := update
  if incoming.isEmpty then
    if (s.next sessionId).isSome then s.set sessionId none else s
  else
    match s.next sessionId with
    | none => s.set sessionId (some incoming)
    | some existing =>
      if existing.length ≠ incoming.length then s.set sessionId (some incoming)
      else if !sameIds id existing incoming then s.set sessionId (some incoming)
      else s

/-- What a merge returns: the object in hand, or another one. -/
inductive Merged (M : Type*) where
  | base
  | next (queues : String → Option (List M))

def Merged.queues (current : String → Option (List M)) : Merged M → String → Option (List M)
  | .base => current
  | .next queues => queues

/-- `mergePendingMessages`. -/
def mergeQueues (current : String → Option (List M))
    (updates : Option (Table (Prod.fst : String × List M → String))) : Merged M :=
  match updates with
  | none => .base
  | some updates =>
    if updates.rows.isEmpty then .base
    else
      let merged := updates.rows.foldl (mergeRound id) ⟨current, false⟩
      if merged.changed then .next merged.next else .base

/-- What a session has after its queue is in the delta. -/
def queueOf (incoming : List M) : Option (List M) :=
  if incoming.isEmpty then none else some incoming

/-- What a merge owes. -/
structure MergeLaw (current : String → Option (List M))
    (updates : Option (Table (Prod.fst : String × List M → String))) : Prop where
  /-- A session of the delta has the queue that the delta brings. -/
  named : ∀ rows, updates = some rows → ∀ sessionId incoming, (sessionId, incoming) ∈ rows →
    (mergeQueues id current updates).queues current sessionId = queueOf incoming
  /-- Every other session keeps its queue. -/
  others : ∀ sessionId, (∀ rows, updates = some rows → ∀ update ∈ rows, update.1 ≠ sessionId) →
    (mergeQueues id current updates).queues current sessionId = current sessionId
  /-- The object in hand is returned when nothing differs. -/
  base : mergeQueues id current updates = .base → ∀ rows, updates = some rows →
    ∀ sessionId incoming, (sessionId, incoming) ∈ rows → current sessionId = queueOf incoming

/-! ## The loop -/

theorem sameIds_iff {existing incoming : List M} (h : existing.length = incoming.length) :
    sameIds id existing incoming = true ↔ existing.map id = incoming.map id := by
  simp only [sameIds, List.all_eq_true]
  constructor
  · intro hall
    apply List.ext_getElem?
    intro i
    by_cases hi : i < existing.length
    · have hentry := hall (existing[i], i) (List.mk_mem_zipIdx_iff_getElem?.mpr (by simp [hi]))
      simpa [hi] using hentry
    · simp [hi, h ▸ hi]
  · rintro heq ⟨entry, i⟩ hentry
    have hget := List.mk_mem_zipIdx_iff_getElem?.mp hentry
    have hmap := congrArg (·[i]?) heq
    simpa [hget] using hmap

/-- The queue of a session after its round. -/
def mergedQueue (existing : Option (List M)) (incoming : List M) : Option (List M) :=
  if incoming.isEmpty then none
  else
    match existing with
    | some queue => if queue.map id = incoming.map id then some queue else some incoming
    | none => some incoming

/-- What a round leaves: the merged queue of its session, and the flag when it differs. -/
theorem mergeRound_eq (s : Merging M) (update : String × List M) :
    (mergeRound id s update).next =
        Function.update s.next update.1 (mergedQueue id (s.next update.1) update.2) ∧
      ((mergeRound id s update).changed = true ↔
        s.changed = true ∨ mergedQueue id (s.next update.1) update.2 ≠ s.next update.1) := by
  obtain ⟨sessionId, incoming⟩ := update
  have hkept : ∀ queue, s.next sessionId = queue →
      Function.update s.next sessionId queue = s.next :=
    fun queue hnext => by rw [← hnext, Function.update_eq_self]
  by_cases hempty : incoming = []
  · cases hnext : s.next sessionId with
    | none => simp [mergeRound, mergedQueue, hempty, hnext]
    | some existing => simp [mergeRound, mergedQueue, hempty, hnext, Merging.set]
  · cases hnext : s.next sessionId with
    | none => simp [mergeRound, mergedQueue, hempty, hnext, Merging.set]
    | some existing =>
      by_cases hlength : existing.length = incoming.length
      · have hsame := sameIds_iff id hlength
        by_cases hids : existing.map id = incoming.map id
        · simp [mergeRound, mergedQueue, hempty, hnext, hlength, hsame.mpr hids, hids]
        · have hne : sameIds id existing incoming = false := by simpa using mt hsame.mp hids
          have hdiffer : incoming ≠ existing := fun heq => hids (by rw [heq])
          simp [mergeRound, mergedQueue, hempty, hnext, hne, hids, hdiffer, Merging.set]
      · have hids : existing.map id ≠ incoming.map id := fun heq =>
          hlength (by simpa using congrArg List.length heq)
        have hdiffer : incoming ≠ existing := fun heq => hlength (by rw [heq])
        simp [mergeRound, mergedQueue, hempty, hnext, hlength, hids, hdiffer, Merging.set]

theorem next_foldl_mergeRound (s : Merging M) (updates : List (String × List M))
    (hnodup : (updates.map (·.1)).Nodup) (sessionId : String) :
    (updates.foldl (mergeRound id) s).next sessionId =
      match updates.find? (·.1 == sessionId) with
      | some update => mergedQueue id (s.next sessionId) update.2
      | none => s.next sessionId := by
  induction updates generalizing s with
  | nil => rfl
  | cons update updates ih =>
    simp only [List.map_cons, List.nodup_cons] at hnodup
    rw [List.foldl_cons, ih _ hnodup.2, (mergeRound_eq id s update).1]
    by_cases hsession : update.1 = sessionId
    · subst hsession
      have hnone : updates.find? (·.1 == update.1) = none := by
        rw [List.find?_eq_none]
        intro other hother heq
        exact hnodup.1 (List.mem_map.mpr ⟨other, hother, by simpa using heq⟩)
      simp [hnone]
    · simp [hsession, Function.update_of_ne (Ne.symm hsession)]

theorem changed_foldl_mergeRound (s : Merging M) (updates : List (String × List M))
    (hnodup : (updates.map (·.1)).Nodup) :
    (updates.foldl (mergeRound id) s).changed = true ↔ s.changed = true ∨
      ∃ update ∈ updates, mergedQueue id (s.next update.1) update.2 ≠ s.next update.1 := by
  induction updates generalizing s with
  | nil => simp
  | cons update updates ih =>
    simp only [List.map_cons, List.nodup_cons] at hnodup
    obtain ⟨hnext, hchanged⟩ := mergeRound_eq id s update
    have hlater : ∀ other ∈ updates,
        (mergeRound id s update).next other.1 = s.next other.1 := by
      intro other hother
      have hne : other.1 ≠ update.1 := fun heq =>
        hnodup.1 (List.mem_map.mpr ⟨other, hother, heq⟩)
      rw [hnext, Function.update_of_ne hne]
    rw [List.foldl_cons, ih _ hnodup.2, hchanged, List.exists_mem_cons_iff, or_assoc]
    refine or_congr_right (or_congr_right (exists_congr fun other => and_congr_right ?_))
    intro hother
    rw [hlater other hother]

section Updates

variable (current : String → Option (List M))
  (updates : Table (Prod.fst : String × List M → String))

theorem mergeQueues_eq_base :
    mergeQueues id current (some updates) = .base ↔
      ∀ update ∈ updates, mergedQueue id (current update.1) update.2 = current update.1 := by
  have hchanged := changed_foldl_mergeRound id ⟨current, false⟩ updates.rows updates.unique
  simp only [mergeQueues, Bool.false_eq_true, false_or] at hchanged ⊢
  by_cases hempty : updates.rows = []
  · simp [hempty, Table.mem_def]
  · cases hflag : (updates.rows.foldl (mergeRound id) ⟨current, false⟩).changed with
    | true =>
      simp only [List.isEmpty_iff, hempty, if_false, if_true, reduceCtorEq, false_iff]
      obtain ⟨update, hupdate, hne⟩ := hchanged.mp hflag
      exact fun hall => hne (hall update hupdate)
    | false =>
      simp only [List.isEmpty_iff, hempty, if_false, Bool.false_eq_true, true_iff]
      intro update hupdate
      by_contra hne
      simpa [hflag] using hchanged.mpr ⟨update, hupdate, hne⟩

theorem queues_mergeQueues (sessionId : String) :
    (mergeQueues id current (some updates)).queues current sessionId =
      match updates.find? sessionId with
      | some update => mergedQueue id (current sessionId) update.2
      | none => current sessionId := by
  have hnext := next_foldl_mergeRound id ⟨current, false⟩ updates.rows updates.unique sessionId
  have hbase := mergeQueues_eq_base id current updates
  cases hmerged : mergeQueues id current (some updates) with
  | base =>
    have hkept := hbase.mp hmerged
    cases hfind : updates.find? sessionId with
    | none => rfl
    | some update =>
      have hupdate := hkept update (Table.mem_of_find? hfind)
      rw [Table.key_of_find? hfind] at hupdate
      exact hupdate.symm
  | next queues =>
    simp only [mergeQueues] at hmerged
    split at hmerged
    · cases hmerged
    · split at hmerged
      · cases hmerged
        exact hnext
      · cases hmerged

end Updates

/-- A queue that replaces another one, unless the ids are the same. -/
theorem mergedQueue_eq_queueOf {existing : Option (List M)} {incoming : List M} :
    mergedQueue id existing incoming = queueOf incoming ↔
      ∀ queue, existing = some queue → queue.map id = incoming.map id → queue = incoming := by
  by_cases hempty : incoming = []
  · simp [mergedQueue, queueOf, hempty]
  · cases existing with
    | none => simp [mergedQueue, queueOf]
    | some queue =>
      by_cases hids : queue.map id = incoming.map id <;> simp [mergedQueue, queueOf, hempty]

/-- **When a merge does what it owes.** No session of the delta has a queue with the ids of the
new one that is not the new one. -/
theorem mergeLaw_iff (current : String → Option (List M))
    (updates : Option (Table (Prod.fst : String × List M → String))) :
    MergeLaw id current updates ↔ ∀ rows, updates = some rows →
      ∀ sessionId incoming, (sessionId, incoming) ∈ rows → ∀ queue,
        current sessionId = some queue → queue.map id = incoming.map id → queue = incoming := by
  cases updates with
  | none => exact ⟨fun _ => by simp, fun _ => ⟨by simp, fun _ _ => rfl, by simp⟩⟩
  | some rows =>
    have hqueue : ∀ sessionId incoming, (sessionId, incoming) ∈ rows →
        (mergeQueues id current (some rows)).queues current sessionId =
          mergedQueue id (current sessionId) incoming := by
      intro sessionId incoming hrow
      have hfind : rows.find? sessionId = some (sessionId, incoming) := Table.find?_of_mem hrow
      rw [queues_mergeQueues, hfind]
    constructor
    · intro h rows' hrows sessionId incoming hrow
      cases hrows
      have hnamed := h.named rows rfl sessionId incoming hrow
      rw [hqueue sessionId incoming hrow] at hnamed
      exact (mergedQueue_eq_queueOf id).mp hnamed
    · intro h
      have hmerged : ∀ sessionId incoming, (sessionId, incoming) ∈ rows →
          mergedQueue id (current sessionId) incoming = queueOf incoming :=
        fun sessionId incoming hrow =>
          (mergedQueue_eq_queueOf id).mpr (h rows rfl sessionId incoming hrow)
      refine ⟨?_, fun sessionId hother => ?_, ?_⟩
      · intro rows' hrows sessionId incoming hrow
        cases hrows
        rw [hqueue sessionId incoming hrow, hmerged sessionId incoming hrow]
      · have hfind : rows.find? sessionId = none := Table.find?_eq_none.mpr (hother rows rfl)
        rw [queues_mergeQueues, hfind]
      · intro hbase rows' hrows sessionId incoming hrow
        cases hrows
        rw [← hmerged sessionId incoming hrow]
        exact ((mergeQueues_eq_base id current rows).mp hbase (sessionId, incoming) hrow).symm

end Merge

/-! ## The renderer's merge -/

/-- A queue of one follow-up that waits for its turn. -/
def waitingFollowUp : Persistence.PendingMessages.PendingMessage where
  id := "follow-up"
  sessionId := "session"
  content := "next"
  agentMode := "auto"
  provider := none
  modelLabel := none
  modelId := none
  reasoningEffort := none
  fastMode := false
  attachments := []
  agentReferences := []
  origin := none
  recoveryStatus := none
  queuedAt := "2026-01-01T00:00:00.000Z"
  person := true

/-- The delta that a failed turn sends, after it paused the queue. -/
def pausedUpdate : Table (Prod.fst : String × List Persistence.PendingMessages.PendingMessage →
    String) :=
  Table.empty.put ("session", [FollowUps.pausedMessage waitingFollowUp])

/-- The renderer keeps the queue that it had. -/
theorem paused_queue_ignored :
    ¬ MergeLaw (·.id) (fun _ => some [waitingFollowUp]) (some pausedUpdate) := by
  intro h
  have hnamed := h.named pausedUpdate rfl "session" [FollowUps.pausedMessage waitingFollowUp]
  exact absurd hnamed (by decide)

end Argmax.Renderer
