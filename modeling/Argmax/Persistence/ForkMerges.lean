import Argmax.Error
import Argmax.Lib.Table

/-!
# The ledger of fork merges

The part of `persistence/continuity.rs` about `session_forks` and `fork_merges`. A
merge claims a range of the fork's events before it is sent. The unique pair of
fork and last event makes a repeated claim of one range fail.
-/

namespace Argmax.Persistence

open Argmax.Lib

/-- A row of `session_forks`, as far as a merge reads it. -/
structure ForkRecord where
  id : String
  sourceSessionId : Option String
  childSessionId : String
  boundaryEventId : Option String
  childBaseEventId : Option String
  deriving DecidableEq

/-- The table `session_forks`, keyed by fork id. -/
abbrev ForkTable := Table ForkRecord.id

def forkForChild (forks : ForkTable) (childSessionId : String) : Option ForkRecord :=
  forks.rows.find? fun fork => fork.childSessionId == childSessionId

/-- Whether a claimed merge is known to have reached the source. -/
inductive MergeOutcome where
  | sending
  | sent
  deriving DecidableEq

/-- A row of `fork_merges`. -/
structure ForkMerge where
  id : String
  markerId : String
  forkId : String
  fromEventId : Option String
  throughEventId : String
  outcome : MergeOutcome
  createdAt : String

/-- The table `fork_merges`, keyed by merge id. -/
abbrev MergeTable := Table ForkMerge.id

/-- `list_merges`: every claim on a fork, by creation time and then rowid. -/
def listMerges (merges : MergeTable) (forkId : String) : List ForkMerge :=
  (merges.rows.filter fun merge => merge.forkId == forkId).mergeSort
    fun a b => decide (a.createdAt ≤ b.createdAt)

/-- `reserve_merge`: nothing is inserted when the id or the pair of fork and last event
is taken. -/
def reserveMerge (merges : MergeTable) (forkId : String) (fromEventId : Option String)
    (throughEventId id now : String) : MergeTable × Option ForkMerge :=
  let claim : ForkMerge := ⟨id, id, forkId, fromEventId, throughEventId, .sending, now⟩
  if merges.rows.any (fun merge =>
      merge.forkId == forkId && merge.throughEventId == throughEventId) then
    (merges, none)
  else
    match merges.insert? claim with
    | some merges => (merges, some claim)
    | none => (merges, none)

/-- The row of a merge that has reached its source. -/
def ForkMerge.delivered (merge : ForkMerge) : ForkMerge := { merge with outcome := .sent }

/-- A statement that marks the merges a condition selects as sent. -/
def markSentWhere (merges : MergeTable) (hit : ForkMerge → Bool) : MergeTable :=
  merges.update (fun merge => if hit merge then merge.delivered else merge)
    (by intro merge; by_cases h : hit merge = true <;> simp [h, ForkMerge.delivered])

def markMergeSent (merges : MergeTable) (mergeId : String) : MergeTable :=
  markSentWhere merges fun merge => merge.id == mergeId

/-- `release_merge`: only a claim that is still being sent can be withdrawn. -/
def releaseMerge (merges : MergeTable) (mergeId : String) : ArgmaxResult MergeTable :=
  let hit := fun merge : ForkMerge => merge.id == mergeId && merge.outcome == .sending
  if merges.rows.any hit then .ok (merges.delete hit)
  else .error (.service "FORK_MERGE_STATE" "The merge was already confirmed delivered.")

@[simp] theorem mem_listMerges {merges : MergeTable} {forkId : String} {merge : ForkMerge} :
    merge ∈ listMerges merges forkId ↔ merge ∈ merges ∧ merge.forkId = forkId := by
  simp [listMerges, Table.mem_def]

theorem reserveMerge_eq_some {merges merges' : MergeTable} {forkId : String}
    {fromEventId : Option String} {throughEventId id now : String} {claim : ForkMerge}
    (h : reserveMerge merges forkId fromEventId throughEventId id now = (merges', some claim)) :
    claim = ⟨id, id, forkId, fromEventId, throughEventId, .sending, now⟩ ∧
      ∀ merge, merge ∈ merges' ↔ merge ∈ merges ∨ merge = claim := by
  simp only [reserveMerge] at h
  split at h
  · simp at h
  · split at h
    · rename_i hinsert
      obtain ⟨rfl, hclaim⟩ := Prod.mk.inj h
      cases hclaim
      exact ⟨rfl, fun merge => Table.mem_insert? hinsert⟩
    · simp at h

theorem reserveMerge_eq_none {merges merges' : MergeTable} {forkId : String}
    {fromEventId : Option String} {throughEventId id now : String}
    (h : reserveMerge merges forkId fromEventId throughEventId id now = (merges', none)) :
    merges' = merges := by
  simp only [reserveMerge] at h
  split at h
  · exact (Prod.mk.inj h).1.symm
  · split at h
    · simp at h
    · exact (Prod.mk.inj h).1.symm

/-! ## Native plans -/

/-- How the first turn of a fork may continue the provider's conversation. -/
inductive NativeMode where
  | none
  | resumeFork
  | codexLastTurn
  deriving DecidableEq

/-- A row of `session_forks`, with what the first turn of the fork reads. -/
structure SessionFork extends ForkRecord where
  sourceLastEventId : Option String
  nativeMode : NativeMode
  nativeProvider : Option String
  nativeConversationId : Option String
  nativeTurnId : Option String

def SessionFork.clearForkNativePlan (fork : SessionFork) : SessionFork :=
  { fork with
    nativeMode := .none
    nativeProvider := Option.none
    nativeConversationId := Option.none
    nativeTurnId := Option.none }

end Argmax.Persistence
