import Argmax.Gh.Watch
import Argmax.Lib.Text

/-!
# The plan of a watch pass

`plan_watch_pass` of `gh/watch.rs`. A pass compares what it read of a pull request with the
cursors of the watch. What is new goes into one notice, and the cursors are moved past it.

The instant of a time stamp and the hash of some bytes come from libraries, and are
parameters. A set of ids is a list, and a map a list of pairs.
-/

namespace Argmax.Gh

open Argmax.Lib.Text Argmax.Persistence.PrWatches

/-! ## What is read -/

structure RollupEntry where
  state : Option String
  status : Option String
  conclusion : Option String
  name : Option String
  workflowName : Option String
  detailsUrl : Option String

structure PrAuthor where
  login : String
  typename : Option String

structure PrCommitRef where
  oid : String

structure PrReview where
  id : String
  author : Option PrAuthor
  state : Option String
  body : Option String
  submittedAt : Option String
  commit : Option PrCommitRef

structure PrComment where
  id : String
  author : Option PrAuthor
  body : Option String
  url : Option String
  createdAt : Option String
  viewerDidAuthor : Option Bool

structure PrReviewRequest where
  login : Option String
  name : Option String
  slug : Option String

structure PrReviewThread where
  isResolved : Bool
  path : Option String
  line : Option ℤ
  comments : List PrComment

structure PrFeedbackGraph where
  threads : List PrReviewThread
  botLogins : List String

structure PrWatchView where
  state : Option String
  headRefOid : Option String
  statusCheckRollup : Option (List RollupEntry)
  reviews : Option (List PrReview)
  comments : Option (List PrComment)
  reviewRequests : Option (List PrReviewRequest)
  updatedAt : Option String
  mergeCommit : Option PrCommitRef
  mergeable : Option String
  baseRefName : Option String

/-! ## Checks -/

inductive GhCheckState where
  | pending
  | success
  | failure
  | cancelled
  | skipped
  deriving DecidableEq

/-- Lower case, as far as a comparison with ASCII letters sees it: of the other characters only
the Kelvin sign has an ASCII letter. -/
def toLowercase (text : String) : String :=
  String.ofList (text.toList.map fun c => if c.toNat = 0x212A then 'k' else c.toLower)

def toAsciiUppercase (text : String) : String := String.ofList (text.toList.map Char.toUpper)

/-- `entry_state`: an empty value falls through to the next field. -/
def entryState (entry : RollupEntry) : String :=
  toLowercase ((([entry.conclusion, entry.state, entry.status].filterMap id).find?
    fun value => value != "").getD "")

/-- `entry_check_state`: a value that is not known is pending. -/
def entryCheckState (entry : RollupEntry) : GhCheckState :=
  match entryState entry with
  | "success" => .success
  | "failure" | "failed" | "error" | "timed_out" | "action_required" | "startup_failure"
  | "stale" => .failure
  | "cancelled" | "cancel" => .cancelled
  | "skipped" | "neutral" => .skipped
  | _ => .pending

def entries (view : PrWatchView) : List RollupEntry := view.statusCheckRollup.getD []

def checksAreGreen (view : PrWatchView) : Bool :=
  !(entries view).isEmpty &&
    (entries view).all fun entry => [.success, .skipped].contains (entryCheckState entry)

/-- The check has failed or was cancelled. -/
def fails (entry : RollupEntry) : Bool := [.failure, .cancelled].contains (entryCheckState entry)

def checkKey (entry : RollupEntry) (head : String) : String :=
  let name := entry.name.getD "check"
  match entry.workflowName.filter (· != "") with
  | some workflow => workflow ++ "/" ++ name ++ "@" ++ head
  | none => name ++ "@" ++ head

def checkLine (entry : RollupEntry) : String :=
  let name := entry.name.getD "check"
  let label :=
    match entry.workflowName.filter (· != "") with
    | some workflow => workflow ++ " / " ++ name
    | none => name
  match entry.detailsUrl.filter (· != "") with
  | some url => label ++ ": " ++ url
  | none => label

/-- The keys that were reported, and what is to be reported. -/
structure CheckScan where
  seen : List String
  failing : List (String × String)

/-- The loop over the checks. One that does not fail is forgotten. -/
def checkEntry (head : String) (scan : CheckScan) (entry : RollupEntry) : CheckScan :=
  let key := checkKey entry head
  if !fails entry then { scan with seen := scan.seen.filter (· != key) }
  else if scan.seen.contains key || scan.failing.any (·.1 == key) then scan
  else { scan with failing := scan.failing ++ [(key, checkLine entry)] }

/-! ## Conflicts -/

def observedConflict (view : PrWatchView) : Option ConflictState :=
  view.mergeable.bind fun mergeable =>
    match toAsciiUppercase mergeable with
    | "CONFLICTING" => some .conflicting
    | "MERGEABLE" => some .clean
    | _ => none

/-- What is reported of the conflict. A first read that is clean is not. -/
def conflictNews (prior observed : Option ConflictState) : Option ConflictState :=
  match prior, observed with
  | some .conflicting, some .conflicting => none
  | _, some .conflicting => some .conflicting
  | some .conflicting, some .clean => some .clean
  | _, _ => none

/-- The cursor after a pass. -/
def nextConflict (prior observed : Option ConflictState) : Option ConflictState :=
  match prior, observed with
  | some .conflicting, some .conflicting => prior
  | _, some .conflicting => some .conflicting
  | some .conflicting, some .clean => some .clean
  | none, some .clean => some .clean
  | _, _ => prior

/-! ## Feedback -/

def maxSnippetChars : ℕ := 140

def firstLine (body : Option String) : String :=
  let lines := ((body.getD "").toList.splitOn '\n').map trim
  let line := (lines.find? fun line => !line.isEmpty).getD []
  if line.length > maxSnippetChars then String.ofList (line.take maxSnippetChars) ++ "…"
  else String.ofList line

def withSnippet (start snippet : String) (url : Option String) : String :=
  let line := if snippet = "" then start else start ++ ": " ++ snippet
  match url.filter (· != "") with
  | some url => line ++ " " ++ url
  | none => line

def threadLocation (thread : PrReviewThread) : String :=
  let path := thread.path.getD "?"
  match thread.line with
  | some line => path ++ ":" ++ toString line
  | none => path

def authorLabel (author : Option PrAuthor) (bots : List String) : String :=
  match author.filter (·.login != "") with
  | none => "unknown"
  | some author =>
    let marked := "[bot]".toList.isSuffixOf author.login.toList
    let isBot := marked || author.typename == some "Bot" || bots.contains author.login
    if isBot && !marked then author.login ++ " [bot]" else author.login

/-- The eight bytes of a length, the highest first. -/
def beBytes (n : ℕ) : List UInt8 :=
  (List.range 8).map fun i => UInt8.ofNat (n / 256 ^ (7 - i))

def feedbackFingerprint (sha256 : List UInt8 → String) (body : Option String) (state : String) :
    String :=
  sha256 (beBytes state.utf8ByteSize ++ state.toUTF8.toList ++ (body.getD "").toUTF8.toList)

/-- What a pass observes of a review or of a comment. -/
structure Observation where
  id : String
  time : Option String
  body : Option String
  state : String
  reportable : Bool
  line : String

def reviewObservation (bots : List String) (review : PrReview) : Observation :=
  let state := review.state.getD "COMMENTED"
  let snippet := firstLine review.body
  let onCommit := (review.commit.map fun commit =>
    " on " ++ String.ofList (commit.oid.toList.take 7)).getD ""
  { id := review.id
    time := review.submittedAt
    body := review.body
    state := state
    -- An empty review only wraps the comments of its threads.
    reportable := !(snippet == "" && state == "COMMENTED")
    line := withSnippet
      ("review by " ++ authorLabel review.author bots ++ ": " ++ state ++ onCommit) snippet none }

/-- A comment of the conversation, or of a thread. -/
def commentObservation (bots : List String) (kind place : String) (comment : PrComment) :
    Observation where
  id := comment.id
  time := comment.createdAt
  body := comment.body
  state := ""
  reportable := comment.viewerDidAuthor != some true
  line := withSnippet (kind ++ " by " ++ authorLabel comment.author bots ++ place)
    (firstLine comment.body) comment.url

/-- What a pass observes, in order. -/
def observations (view : PrWatchView) (graph : Option PrFeedbackGraph) : List Observation :=
  let bots := (graph.map (·.botLogins)).getD []
  (view.reviews.getD []).map (reviewObservation bots) ++
    (view.comments.getD []).map (commentObservation bots "comment" "") ++
    ((graph.map (·.threads)).getD []).flatMap fun thread =>
      thread.comments.map
        (commentObservation bots "thread comment" (" on " ++ threadLocation thread))

/-- What is reported, and whether it was reported before. -/
structure FeedbackItem where
  item : Observation
  edited : Bool

def FeedbackItem.line (feedback : FeedbackItem) : String :=
  if feedback.edited then "edited " ++ feedback.item.line else feedback.item.line

/-- A map after an entry was inserted. -/
def insertFingerprint (id fingerprint : String) : List (String × String) → List (String × String)
  | [] => [(id, fingerprint)]
  | entry :: fingerprints =>
    if entry.1 = id then (id, fingerprint) :: fingerprints
    else entry :: insertFingerprint id fingerprint fingerprints

structure FeedbackScan where
  seenIds : List String
  fingerprints : List (String × String)
  observedIds : List String
  feedback : List FeedbackItem

section Plan

variable (parseTime : String → Option ℤ) (sha256 : List UInt8 → String)

/-- The item was there when the watch began. An item without a time is taken to be old. -/
def predatesWatch (seedingBefore : Option ℤ) (item : Observation) : Bool :=
  seedingBefore.any fun created => (item.time.bind parseTime).all fun itemAt => itemAt < created

/-- The closure `observe`. Each id is observed once in a pass. -/
def observe (seen : List String) (seedingBefore : Option ℤ) (scan : FeedbackScan)
    (item : Observation) : FeedbackScan :=
  if scan.observedIds.contains item.id then scan
  else
    let fingerprint := feedbackFingerprint sha256 item.body item.state
    let edited := (scan.fingerprints.lookup item.id).any (· != fingerprint)
    let scan := { scan with
      observedIds := item.id :: scan.observedIds
      fingerprints := insertFingerprint item.id fingerprint scan.fingerprints }
    if seen.contains item.id && !edited then scan
    else
      { scan with
        seenIds := if seen.contains item.id then scan.seenIds else scan.seenIds ++ [item.id]
        feedback :=
          if item.reportable && !predatesWatch parseTime seedingBefore item then
            scan.feedback ++ [⟨item, edited⟩]
          else scan.feedback }

/-! ## News -/

/-- What is new in a pass that does not end the watch. -/
structure WatchNews where
  recovered : Bool
  failing : List (String × String)
  conflict : Option ConflictState
  feedback : List FeedbackItem
  green : Bool

/-- The keys that were reported for the head. -/
def seenChecks (watch : PrWatchRecord) (pr : WatchedPrState) : List String :=
  if watch.cursors.headSha ≠ pr.headSha then [] else watch.cursors.seenCheckFailures

def checkScan (watch : PrWatchRecord) (pr : WatchedPrState) (view : PrWatchView) : CheckScan :=
  (entries view).foldl (checkEntry pr.headSha) ⟨seenChecks watch pr, []⟩

/-- The head whose green checks were reported. -/
def reportedReady (watch : PrWatchRecord) (pr : WatchedPrState) : Option String :=
  if watch.cursors.headSha ≠ pr.headSha then none else watch.cursors.reportedReadySha

def feedbackScan (watch : PrWatchRecord) (view : PrWatchView) (graph : Option PrFeedbackGraph) :
    FeedbackScan :=
  let seedingBefore :=
    if watch.cursors.seenFeedbackIds.isNone then parseTime watch.createdAt else none
  let seen := watch.cursors.seenFeedbackIds.getD []
  (observations view graph).foldl (observe parseTime sha256 seen seedingBefore)
    ⟨seen, watch.cursors.feedbackFingerprints.getD [], [], []⟩

def watchNews (watch : PrWatchRecord) (pr : WatchedPrState) (view : PrWatchView)
    (graph : Option PrFeedbackGraph) : WatchNews where
  recovered := watch.cursors.fetchDegraded
  failing := (checkScan watch pr view).failing
  conflict := conflictNews watch.cursors.conflictState (observedConflict view)
  feedback := (feedbackScan parseTime sha256 watch view graph).feedback
  green := checksAreGreen view && reportedReady watch pr != some pr.headSha

/-! ## The notice -/

def maxSectionItems : ℕ := 10

/-- `section`. -/
def sectionText (heading : String) (items : List String) : String :=
  let extra := items.length - maxSectionItems
  "\n".intercalate (heading :: (items.take maxSectionItems).map ("- " ++ ·) ++
    if extra > 0 then ["- and " ++ toString extra ++ " more"] else [])

def plural (count : ℕ) (one many : String) : String :=
  toString count ++ " " ++ if count = 1 then one else many

def shortSha (sha : String) : String := String.ofList (sha.toList.take 7)

/-- What a kind of news adds to the summary of a notice, and its sections. -/
abbrev Part := List String × List String

def recoveredPart (recovered : Bool) : Part :=
  if recovered then
    (["watch recovered"],
      ["PR details and review threads are readable again. Watch notices have resumed."])
  else ([], [])

def failingPart (head : String) (failing : List (String × String)) : Part :=
  if failing = [] then ([], [])
  else
    ([plural failing.length "check" "checks" ++ " failing on " ++ shortSha head],
      [sectionText ("Checks failing on " ++ shortSha head ++ ":") (failing.map (·.2))])

def conflictPart (view : PrWatchView) : Option ConflictState → Part
  | some .conflicting =>
    let base := view.baseRefName.getD "its base branch"
    (["merge conflict"],
      ["Merge conflict: this PR cannot merge into " ++ base ++
        " until the conflict is resolved. Update the branch from " ++ base ++ " and resolve it."])
  | some .clean => (["merge conflict resolved"], [])
  | none => ([], [])

def feedbackPart (feedback : List FeedbackItem) : Part :=
  if feedback = [] then ([], [])
  else
    let hasEdits := feedback.any (·.edited)
    ([plural feedback.length
        (if hasEdits then "new or edited feedback item" else "new feedback item")
        (if hasEdits then "new or edited feedback items" else "new feedback items")],
      [sectionText (if hasEdits then "New or edited feedback:" else "New feedback:")
        (feedback.map (·.line))])

def greenPart (head : String) (view : PrWatchView) (graph : Option PrFeedbackGraph)
    (green : Bool) : Part :=
  if green then
    let bots := (graph.map (·.botLogins)).getD []
    let unresolved := (((graph.map (·.threads)).getD []).filter (!·.isResolved)).map fun thread =>
      let first := thread.comments.head?
      withSnippet (threadLocation thread ++ " by " ++ authorLabel (first.bind (·.author)) bots)
        (firstLine (first.bind (·.body))) (first.bind (·.url))
    let requested := (view.reviewRequests.getD []).filterMap fun request =>
      request.login.or (request.slug.or request.name)
    (["checks green on " ++ shortSha head],
      [if unresolved = [] then "No unresolved review threads."
        else sectionText ("Unresolved review threads (" ++ toString unresolved.length ++ "):")
          unresolved] ++
      (if requested = [] then []
        else ["Review requested from: " ++ ", ".intercalate requested ++ "."]) ++
      -- This read, not the cursor: a push may have resolved the conflict.
      (if observedConflict view = some .conflicting then
        ["The PR still has a merge conflict with its base."] else []) ++
      ["Apply the merge gate before merging."])
  else ([], [])

/-- What a notice says of the news. -/
def newsPart (head : String) (view : PrWatchView) (graph : Option PrFeedbackGraph)
    (news : WatchNews) : Part :=
  let parts := [recoveredPart news.recovered, failingPart head news.failing,
    conflictPart view news.conflict, feedbackPart news.feedback,
    greenPart head view graph news.green]
  (parts.flatMap (·.1), parts.flatMap (·.2))

/-- The notice of an end. -/
def terminalPart (pr : WatchedPrState) (view : PrWatchView) (cleanup : Option String) :
    Terminal → Part
  | .merged =>
    let mergeCommit := (view.mergeCommit.map fun commit => shortSha commit.oid).getD ""
    ([if mergeCommit = "" then "merged"
      else "merged as " ++ mergeCommit ++ " (head " ++ shortSha pr.headSha ++ ")"],
      (cleanup.map ("Cleanup:\n" ++ ·)).toList ++ ["This watch has ended."])
  | .closed =>
    (["closed without merging"],
      (cleanup.map ("Cleanup:\n" ++ ·)).toList ++ ["This watch has ended."])

/-- `finish`. -/
def finishPass (prNumber : ℕ) (pr : WatchedPrState) (part : Part) (cursors : PrWatchCursors)
    (endsWatch : Bool) : WatchPass where
  body := if part.1 = [] then none else some (noticeBody prNumber pr part.1 part.2)
  cursors := cursors
  endsWatch := endsWatch

/-- The cursors before the news are folded in. -/
def baseCursors (watch : PrWatchRecord) (pr : WatchedPrState) (view : PrWatchView)
    (graph : Option PrFeedbackGraph) : PrWatchCursors where
  headSha := pr.headSha
  seenCheckFailures := seenChecks watch pr
  seenFeedbackIds := watch.cursors.seenFeedbackIds.getD []
  feedbackFingerprints := watch.cursors.feedbackFingerprints.getD []
  fetchFailureCount := 0
  fetchDegraded := false
  reportedReadySha := reportedReady watch pr
  lastPrUpdatedAt := if graph.isSome then view.updatedAt else watch.cursors.lastPrUpdatedAt
  conflictState := watch.cursors.conflictState

/-- The cursors past the news. -/
def newsCursors (watch : PrWatchRecord) (pr : WatchedPrState) (view : PrWatchView)
    (graph : Option PrFeedbackGraph) : PrWatchCursors :=
  let news := watchNews parseTime sha256 watch pr view graph
  let feedback := feedbackScan parseTime sha256 watch view graph
  { baseCursors watch pr view graph with
    seenCheckFailures := (checkScan watch pr view).seen ++ news.failing.map (·.1)
    seenFeedbackIds := feedback.seenIds
    feedbackFingerprints := feedback.fingerprints
    reportedReadySha := if news.green then some pr.headSha else reportedReady watch pr
    conflictState := nextConflict watch.cursors.conflictState (observedConflict view) }

def planWatchPass (watch : PrWatchRecord) (pr : WatchedPrState) (view : PrWatchView)
    (terminal : Option Terminal) (graph : Option PrFeedbackGraph) (cleanup : Option String) :
    WatchPass :=
  match terminal with
  | some terminal =>
    finishPass watch.prNumber pr (terminalPart pr view cleanup terminal)
      (baseCursors watch pr view graph) true
  | none =>
    finishPass watch.prNumber pr
      (newsPart pr.headSha view graph (watchNews parseTime sha256 watch pr view graph))
      (newsCursors parseTime sha256 watch pr view graph) false

/-- `terminal_state`: the state of this read counts before that of the row. -/
def terminalState (pr : WatchedPrState) (view : PrWatchView) : Option Terminal :=
  ((view.state.filter (· != "")).or pr.prState).bind fun state =>
    match toAsciiUppercase state with
    | "MERGED" => some .merged
    | "CLOSED" => some .closed
    | _ => none

/-- What `run_one_watch` reads the threads for. -/
def wantsThreads (watch : PrWatchRecord) (pr : WatchedPrState) (view : PrWatchView)
    (terminal : Option Terminal) : Bool :=
  let headChanged := watch.cursors.headSha != pr.headSha
  let greenCandidate := terminal.isNone && checksAreGreen view &&
    (headChanged || watch.cursors.reportedReadySha != some pr.headSha)
  terminal.isNone &&
    (watch.cursors.seenFeedbackIds.isNone || watch.cursors.feedbackFingerprints.isNone ||
      decide (watch.cursors.fetchFailureCount > 0) || headChanged || greenCandidate ||
      view.updatedAt != watch.cursors.lastPrUpdatedAt)

def watchPlanner : Planner PrWatchView PrFeedbackGraph where
  headRefOid := (·.headRefOid)
  terminalState := terminalState
  wantsThreads := wantsThreads
  planWatchPass := planWatchPass parseTime sha256

end Plan

end Argmax.Gh
