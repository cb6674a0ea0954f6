import Argmax.Lib.Transition
import Argmax.Persistence.PrWatches

/-!
# The watch pass

`gh/watch.rs`. The poller's tick lists the watches and looks at each in turn. A pass over one
watch reads, and then writes a few things one after another: it stages a notice with the
cursors it moves, delivers it, and clears it. Any of them can fail, and so can the process,
and then the rest of the pass is not done. A staged notice goes out on the next pass before
anything else is read.

What a pass makes of what it reads is a parameter, `Planner`. Delivery stores the notice in
the inbox of its session, once for an id, or fails and stores nothing.
-/

namespace Argmax.Gh

open Argmax.Lib Argmax.Persistence.PrWatches

/-! ## What a pass reads -/

structure WatchedPrState where
  headSha : String
  prState : Option String
  title : Option String
  url : Option String
  refreshedAt : String
  refreshError : Option String

inductive Terminal where
  | merged
  | closed
  deriving DecidableEq

structure WatchPass where
  body : Option String
  cursors : PrWatchCursors
  endsWatch : Bool

/-- How a pass reads what `gh` shows it. -/
structure Planner (View Feedback : Type) where
  headRefOid : View → Option String
  /-- `terminal_state`. -/
  terminalState : WatchedPrState → View → Option Terminal
  /-- Whether the review threads are read. -/
  wantsThreads : PrWatchRecord → WatchedPrState → View → Option Terminal → Bool
  /-- `plan_watch_pass`, with the report of a cleanup. -/
  planWatchPass : PrWatchRecord → WatchedPrState → View → Option Terminal → Option Feedback →
    Option String → WatchPass

/-- What a pass over one watch sees. A failed read is its error. -/
structure Reads (View Feedback : Type) where
  pr : Option WatchedPrState
  recipientArchived : Bool
  tickStartedAt : String
  view : Except String View
  /-- The repository of the pull request is known. -/
  remote : Bool
  reviewThreads : Except String Feedback
  /-- The report of the cleanup, should the pull request have merged. -/
  cleanup : String

/-! ## Notices -/

def maxNotFoundTicks : ℕ := 10

def degradedFetchCount : ℕ := 3

def prUnavailableError : String := "pull request is unavailable"

def maxNoticeChars : ℕ := 4000

def noticeId (watch : PrWatchRecord) (headSha : String) : String :=
  String.ofList ("pr-watch:".toList ++ (Nat.toDigits 10 watch.id ++ ':' ::
    (Nat.toDigits 10 (watch.noticeSeq + 1) ++ ':' :: headSha.toList.take 7)))

def noticeBody (prNumber : ℕ) (pr : WatchedPrState) (summary sections : List String) : String :=
  let text := ("PR #" ++ prNumber.repr ++ " (" ++ pr.title.getD "untitled" ++ "): " ++
    ", ".intercalate summary ++ "." ++ String.join (sections.map ("\n" ++ ·))).toList
  let url := (pr.url.getD "").toList
  let budget := maxNoticeChars - (url.length + 1)
  let text := if text.length > budget then text.take (budget - 2) ++ " …".toList else text
  String.ofList (text ++ '\n' :: url)

def currentCursors (watch : PrWatchRecord) : PrWatchCursors where
  headSha := watch.cursors.headSha
  seenCheckFailures := watch.cursors.seenCheckFailures
  seenFeedbackIds := watch.cursors.seenFeedbackIds.getD []
  feedbackFingerprints := watch.cursors.feedbackFingerprints.getD []
  fetchFailureCount := watch.cursors.fetchFailureCount
  fetchDegraded := watch.cursors.fetchDegraded
  reportedReadySha := watch.cursors.reportedReadySha
  lastPrUpdatedAt := watch.cursors.lastPrUpdatedAt
  conflictState := watch.cursors.conflictState

/-! ## What a pass writes -/

inductive Write where
  | setNotFoundCount (count : ℕ)
  | recordFetchFailure (count : ℕ) (degraded : Bool) (notice : Option PendingPrWatchNotice)
  | updateCursors (cursors : PrWatchCursors)
  | stage (cursors : PrWatchCursors) (notice : PendingPrWatchNotice)
  | deliver (notice : PendingPrWatchNotice)
  /-- The end of `deliver_staged`: the notice is cleared, or its watch is over. -/
  | finish (notice : PendingPrWatchNotice) (recipientArchived : Bool)
  /-- The watch of an archived chat ends with its pull request. -/
  | delete

/-- `deliver_staged`: nobody is there to be told in an archived chat. -/
def deliverStaged (notice : PendingPrWatchNotice) (recipientArchived : Bool) : List Write :=
  (if recipientArchived then [] else [.deliver notice]) ++ [.finish notice recipientArchived]

/-- `record_fetch_failure`. -/
def fetchFailure (watch : PrWatchRecord) (pr : WatchedPrState) (recipientArchived : Bool)
    (what error : String) : List Write :=
  let count := min (watch.cursors.fetchFailureCount + 1) degradedFetchCount
  if count = degradedFetchCount ∧ !watch.cursors.fetchDegraded ∧ !recipientArchived then
    let notice : PendingPrWatchNotice :=
      { id := noticeId watch pr.headSha
        body := noticeBody watch.prNumber pr ["watch degraded"]
          ["Could not complete watch reads on 3 consecutive polls. Feedback and check notices " ++
            "may be delayed. Argmax will keep retrying.\nLast failed read: " ++ what ++
            ".\nLast error: " ++ error]
        endsWatch := false }
    .recordFetchFailure count true (some notice) :: deliverStaged notice recipientArchived
  else [.recordFetchFailure count watch.cursors.fetchDegraded none]

section Pass

variable {View Feedback : Type} (planner : Planner View Feedback)

/-- The end of `run_one_watch`: what the plan of the pass comes to. -/
def planned (watch : PrWatchRecord) (pr : WatchedPrState) (recipientArchived : Bool)
    (pass : WatchPass) : List Write :=
  match pass.body with
  | none =>
    if watch.cursors.seenFeedbackIds.isNone ∨ watch.cursors.feedbackFingerprints.isNone ∨
        pass.cursors ≠ currentCursors watch then [.updateCursors pass.cursors]
    else []
  | some body =>
    if recipientArchived then (if pass.endsWatch then [.delete] else [])
    else
      let notice : PendingPrWatchNotice :=
        { id := noticeId watch pr.headSha, body := body, endsWatch := pass.endsWatch }
      .stage pass.cursors notice :: deliverStaged notice false

/-- The reads of `run_one_watch`, from `gh pr view` on. -/
def viewed (watch : PrWatchRecord) (pr : WatchedPrState) (reads : Reads View Feedback) :
    List Write :=
  match reads.view with
  | .error error => fetchFailure watch pr reads.recipientArchived "PR details" error
  | .ok view =>
    if planner.headRefOid view ≠ some pr.headSha then []
    else
      let terminal := planner.terminalState pr view
      let finished := fun feedback =>
        if watch.cursors.fetchFailureCount > 0 ∧ terminal.isNone ∧ feedback.isNone then []
        else
          let cleanup := if terminal = some .merged ∧ watch.cleanupOnMerge then some reads.cleanup
            else none
          planned watch pr reads.recipientArchived
            (planner.planWatchPass watch pr view terminal feedback cleanup)
      if planner.wantsThreads watch pr view terminal ∧ reads.remote then
        match reads.reviewThreads with
        | .error error => fetchFailure watch pr reads.recipientArchived "review threads" error
        | .ok feedback => finished (some feedback)
      else finished none

/-- `run_one_watch`. -/
def passWrites (watch : PrWatchRecord) (reads : Reads View Feedback) : List Write :=
  match watch.pendingNotice with
  | some pending => deliverStaged pending reads.recipientArchived
  | none =>
    match reads.pr with
    | none => []
    | some pr =>
      if pr.refreshError = some prUnavailableError ∧ pr.headSha = "" then
        if pr.refreshedAt < reads.tickStartedAt then []
        else
          let count := watch.notFoundCount + 1
          if count < maxNotFoundTicks then [.setNotFoundCount count]
          else
            let notice : PendingPrWatchNotice :=
              { id := noticeId watch ""
                body := "PR #" ++ watch.prNumber.repr ++ " not found; watch removed. GitHub had " ++
                  "no such pull request on " ++ count.repr ++ " polls in a row."
                endsWatch := true }
            .stage (currentCursors watch) notice :: deliverStaged notice reads.recipientArchived
      else
        (if watch.notFoundCount > 0 then [.setNotFoundCount 0] else []) ++
          if pr.refreshError.isSome ∨ pr.headSha = "" ∨ pr.refreshedAt < reads.tickStartedAt then []
          else viewed planner watch pr reads

end Pass

/-! ## Runs -/

/-- A message in the inbox of a session. -/
structure PrWatchNotice where
  watchId : ℕ
  sessionId : String
  prNumber : ℕ
  messageId : String
  body : String

/-- A notice that was staged, and in which watch. -/
structure StagedNotice where
  watchId : ℕ
  notice : PendingPrWatchNotice

structure State where
  watches : PrWatches
  /-- How many ids of watches were made. -/
  nextId : ℕ
  inbox : Table PrWatchNotice.messageId
  /-- The watches of the tick that were not looked at yet, as they were listed. -/
  listed : List PrWatchRecord
  /-- The watch of the pass that runs, and what it has yet to write. -/
  running : Option (PrWatchRecord × List Write)
  /-- Every notice that was staged. The program does not keep this. -/
  stagedNotices : List StagedNotice
  /-- The ids that were given up because their chat was archived. -/
  archivedIds : List String
  /-- The watches that sessions gave up. -/
  removedIds : List ℕ

def State.start : State := ⟨.empty, 0, .empty, [], none, [], [], []⟩

inductive Act (View Feedback : Type) where
  | upsert (sessionId projectId : String) (prNumber : ℕ) (cleanupOnMerge : Bool)
      (headSha createdAt : String)
  /-- A session stops watching, or its rows are removed. -/
  | remove (watchId : ℕ)
  /-- `run_watch_pass` starts. -/
  | list
  /-- The pass over the next watch reads. -/
  | look (reads : Reads View Feedback)
  /-- The rows that the pass over the next watch needs cannot be read. -/
  | skip
  /-- The pass writes what is next. -/
  | write
  /-- What is next fails, and the pass is over. -/
  | fail
  /-- The process ends and starts again. -/
  | restart

/-- The row of the pass is there. -/
def hasRow (s : State) (watchId : ℕ) : Bool := (s.watches.find? watchId).isSome

/-- The log after a write that stages a notice in a row. -/
def logStaged (s : State) (watchId : ℕ) (notice : PendingPrWatchNotice) : List StagedNotice :=
  if hasRow s watchId then ⟨watchId, notice⟩ :: s.stagedNotices else s.stagedNotices

/-- What a write of the pass over `watch` does. -/
def perform (s : State) (watch : PrWatchRecord) : Write → State
  | .setNotFoundCount count => { s with watches := setNotFoundCount s.watches watch.id count }
  | .recordFetchFailure count degraded notice =>
    { s with
      watches := recordFetchFailure s.watches watch.id count degraded notice
      stagedNotices := notice.elim s.stagedNotices (logStaged s watch.id) }
  | .updateCursors cursors => { s with watches := updateCursors s.watches watch.id cursors }
  | .stage cursors notice =>
    { s with
      watches := stageNotice s.watches watch.id cursors notice
      stagedNotices := logStaged s watch.id notice }
  | .deliver notice =>
    { s with
      inbox := s.inbox.insertOrIgnore
        ⟨watch.id, watch.sessionId, watch.prNumber, notice.id, notice.body⟩ }
  | .finish notice recipientArchived =>
    { s with
      watches := if notice.endsWatch then deletePrWatchById s.watches watch.id
        else clearNotice s.watches watch.id
      archivedIds := if recipientArchived then notice.id :: s.archivedIds else s.archivedIds }
  | .delete => { s with watches := deletePrWatchById s.watches watch.id }

section Step

variable {View Feedback : Type} (planner : Planner View Feedback)

def step (s : State) : Act View Feedback → State
  | .upsert sessionId projectId prNumber cleanupOnMerge headSha createdAt =>
    { s with
      watches := upsertPrWatch s.watches s.nextId sessionId projectId prNumber cleanupOnMerge
        headSha createdAt
      nextId := s.nextId + 1 }
  | .remove watchId =>
    { s with
      watches := deletePrWatchById s.watches watchId
      removedIds := watchId :: s.removedIds }
  | .list =>
    if s.running.isNone ∧ s.listed = [] then { s with listed := s.watches.rows } else s
  | .look reads =>
    match s.running, s.listed with
    | none, watch :: listed =>
      { s with listed := listed, running := some (watch, passWrites planner watch reads) }
    | _, _ => s
  | .skip => if s.running.isNone then { s with listed := s.listed.tail } else s
  | .write =>
    match s.running with
    | some (watch, write :: writes) =>
      { perform s watch write with running := if writes = [] then none else some (watch, writes) }
    | some (_, []) => { s with running := none }
    | none => s
  | .fail => { s with running := none }
  | .restart => { s with running := none, listed := [] }

end Step

end Argmax.Gh
