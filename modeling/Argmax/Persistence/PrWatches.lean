import Argmax.Lib.Table

/-!
# The rows of the PR watches

`persistence/pr_watches.rs`. A session's request to be woken about one pull request is a row
of `pr_watches`. The row is an outbox: the write that moves its cursors also stages the
notice that they imply, and the notice is cleared when it was delivered.

Every write is one statement on the row of an id and leaves the table alone when there is
none. A watch is its number among the ids made. `updated_at` is left out.
-/

namespace Argmax.Persistence.PrWatches

open Argmax.Lib

/-! ## Rows -/

inductive ConflictState where
  | clean
  | conflicting
  deriving DecidableEq

structure PendingPrWatchNotice where
  id : String
  body : String
  endsWatch : Bool
  deriving DecidableEq

/-- The cursors of a row. The feedback columns are empty until a pass has seeded them. -/
structure StoredCursors where
  headSha : String
  seenCheckFailures : List String
  seenFeedbackIds : Option (List String)
  feedbackFingerprints : Option (List (String × String))
  fetchFailureCount : ℕ
  fetchDegraded : Bool
  reportedReadySha : Option String
  lastPrUpdatedAt : Option String
  conflictState : Option ConflictState

/-- What one pass moves the cursors to. -/
structure PrWatchCursors where
  headSha : String
  seenCheckFailures : List String
  seenFeedbackIds : List String
  feedbackFingerprints : List (String × String)
  fetchFailureCount : ℕ
  fetchDegraded : Bool
  reportedReadySha : Option String
  lastPrUpdatedAt : Option String
  conflictState : Option ConflictState
  deriving DecidableEq

def PrWatchCursors.stored (cursors : PrWatchCursors) : StoredCursors where
  headSha := cursors.headSha
  seenCheckFailures := cursors.seenCheckFailures
  seenFeedbackIds := some cursors.seenFeedbackIds
  feedbackFingerprints := some cursors.feedbackFingerprints
  fetchFailureCount := cursors.fetchFailureCount
  fetchDegraded := cursors.fetchDegraded
  reportedReadySha := cursors.reportedReadySha
  lastPrUpdatedAt := cursors.lastPrUpdatedAt
  conflictState := cursors.conflictState

structure PrWatchRecord where
  id : ℕ
  sessionId : String
  projectId : String
  prNumber : ℕ
  cleanupOnMerge : Bool
  cursors : StoredCursors
  /-- How many notices were staged. -/
  noticeSeq : ℕ
  /-- A notice that was staged and is not confirmed. -/
  pendingNotice : Option PendingPrWatchNotice
  notFoundCount : ℕ
  createdAt : String

/-- What a session watches. -/
def PrWatchRecord.subject (watch : PrWatchRecord) : String × String × ℕ :=
  (watch.sessionId, watch.projectId, watch.prNumber)

abbrev PrWatches := Table PrWatchRecord.id

/-! ## Writes -/

section Writes

variable (watches : PrWatches)

/-- An `UPDATE` of the row of an id. -/
def updateById (id : ℕ) (f : PrWatchRecord → PrWatchRecord) (hf : ∀ watch, (f watch).id = watch.id) :
    PrWatches :=
  watches.update (fun watch => if watch.id = id then f watch else watch)
    (by intro watch; split <;> simp [hf])

/-- The row of a new watch. -/
def newWatch (id : ℕ) (sessionId projectId : String) (prNumber : ℕ) (cleanupOnMerge : Bool)
    (headSha createdAt : String) : PrWatchRecord where
  id := id
  sessionId := sessionId
  projectId := projectId
  prNumber := prNumber
  cleanupOnMerge := cleanupOnMerge
  cursors := ⟨headSha, [], none, none, 0, false, none, none, none⟩
  noticeSeq := 0
  pendingNotice := none
  notFoundCount := 0
  createdAt := createdAt

/-- `upsert_pr_watch`: a session that watches the pull request already keeps its row. -/
def upsertPrWatch (id : ℕ) (sessionId projectId : String) (prNumber : ℕ) (cleanupOnMerge : Bool)
    (headSha createdAt : String) : PrWatches :=
  if watches.rows.any fun watch => watch.subject == (sessionId, projectId, prNumber) then
    watches.update
      (fun watch => if watch.subject = (sessionId, projectId, prNumber) then
        { watch with cleanupOnMerge := cleanupOnMerge } else watch)
      (by intro watch; split <;> rfl)
  else
    watches.insertOrIgnore
      (newWatch id sessionId projectId prNumber cleanupOnMerge headSha createdAt)

def deletePrWatchById (id : ℕ) : PrWatches := watches.delete fun watch => watch.id == id

def withCursors (cursors : PrWatchCursors) (watch : PrWatchRecord) : PrWatchRecord :=
  { watch with cursors := cursors.stored }

theorem id_withCursors (cursors : PrWatchCursors) (watch : PrWatchRecord) :
    (withCursors cursors watch).id = watch.id := rfl

/-- `update_pr_watch_cursors`. -/
def updateCursors (id : ℕ) (cursors : PrWatchCursors) : PrWatches :=
  updateById watches id (withCursors cursors) (id_withCursors _)

def staged (cursors : PrWatchCursors) (notice : PendingPrWatchNotice) (watch : PrWatchRecord) :
    PrWatchRecord :=
  { watch with
    cursors := cursors.stored
    noticeSeq := watch.noticeSeq + 1
    pendingNotice := some notice }

theorem id_staged (cursors : PrWatchCursors) (notice : PendingPrWatchNotice) (watch : PrWatchRecord) :
    (staged cursors notice watch).id = watch.id := rfl

/-- `stage_pr_watch_notice`. -/
def stageNotice (id : ℕ) (cursors : PrWatchCursors) (notice : PendingPrWatchNotice) : PrWatches :=
  updateById watches id (staged cursors notice) (id_staged _ _)

def cleared (watch : PrWatchRecord) : PrWatchRecord := { watch with pendingNotice := none }

theorem id_cleared (watch : PrWatchRecord) : (cleared watch).id = watch.id := rfl

/-- `clear_pr_watch_notice`. -/
def clearNotice (id : ℕ) : PrWatches := updateById watches id cleared id_cleared

def withNotFoundCount (count : ℕ) (watch : PrWatchRecord) : PrWatchRecord :=
  { watch with notFoundCount := count }

theorem id_withNotFoundCount (count : ℕ) (watch : PrWatchRecord) :
    (withNotFoundCount count watch).id = watch.id := rfl

/-- `set_pr_watch_not_found_count`. -/
def setNotFoundCount (id count : ℕ) : PrWatches :=
  updateById watches id (withNotFoundCount count) (id_withNotFoundCount _)

/-- Without a notice the pending columns are emptied, and the sequence number stays. -/
def withFetchFailure (count : ℕ) (degraded : Bool) (notice : Option PendingPrWatchNotice)
    (watch : PrWatchRecord) : PrWatchRecord :=
  { watch with
    cursors := { watch.cursors with fetchFailureCount := count, fetchDegraded := degraded }
    noticeSeq := watch.noticeSeq + if notice.isNone then 0 else 1
    pendingNotice := notice.map fun notice => { notice with endsWatch := false } }

theorem id_withFetchFailure (count : ℕ) (degraded : Bool) (notice : Option PendingPrWatchNotice) (watch : PrWatchRecord) :
    (withFetchFailure count degraded notice watch).id = watch.id := rfl

/-- `record_pr_watch_fetch_failure`. -/
def recordFetchFailure (id count : ℕ) (degraded : Bool) (notice : Option PendingPrWatchNotice) :
    PrWatches :=
  updateById watches id (withFetchFailure count degraded notice) (id_withFetchFailure _ _ _)

end Writes

end Argmax.Persistence.PrWatches
