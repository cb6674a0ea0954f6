import Argmax.Persistence.Events
import Argmax.Persistence.ForkMerges
import Argmax.Persistence.PendingMessages

/-!
# Bringing a fork's findings back

`providers/fork_merge.rs`. A merge sends the visible messages a fork has added
since it left its source, or since its last merge, to the source as its next
message. It claims its range of the fork's events before it sends, and its text
ends in a marker that names the claim. A claim whose message is neither being
sent nor to be found in the source by that marker is withdrawn, and its range is
offered again.

A claim's text goes to the source through the ordinary send path. What that path
does, and what the queue of the source does with the message, are steps of their
own.
-/

namespace Argmax.Providers.ForkMerge

open Argmax.Lib Argmax.Lib.Text Argmax.Persistence

/-! ## The state -/

/-- A row of `sessions` joined with the label of its workspace. -/
structure SessionRow where
  id : String
  state : String
  taskLabel : String

/-- The text of a claimed merge: which fork messages it shows. -/
structure Draft where
  text : String
  newMessageCount : ℕ
  shown : ℕ
  truncated : Bool
  carried : List EventRow

/-- The tables a merge reads, the sends that run in this process, and, for observation
only, what each claimed merge carries to its source. -/
structure State where
  forks : ForkTable
  sessions : Table SessionRow.id
  events : EventTable
  merges : MergeTable
  pending : PendingMessages.State
  inFlight : List String
  carried : String → List EventRow

def isActive (state : String) : Bool :=
  ["running", "waiting", "blocked"].contains state

def mergeMarker (mergeId : String) : String := "Argmax fork merge " ++ mergeId

/-! ## Which ranges are held -/

/-- Where a marker stands in the source. -/
inductive Standing where
  | delivered
  | queued
  | absent

/-- `standing`: a delivered message counts before a queued one. -/
def standing (s : State) (sourceSessionId marker : String) : Standing :=
  if s.events.rows.any fun event =>
      event.sessionId == sourceSessionId && event.type == "user.message" &&
        containsText event.message.toList marker.toList then
    .delivered
  else if s.pending.journal.rows.any fun row =>
      row.sessionId == sourceSessionId && containsText row.message.content.toList marker.toList then
    .queued
  else .absent

/-- A claim that still holds its range. -/
structure LiveClaim where
  merge : ForkMerge
  fromRowid : ℕ
  throughRowid : ℕ
  sending : Bool

/-- The judgement of the loop of `live_claims` on one claim. -/
inductive Verdict where
  | holds (sending : Bool)
  | delivered
  | withdrawn
  deriving DecidableEq

/-- A claim nobody is sending is settled against the source. Without a source there is
nothing to look in, and the claim holds. -/
def verdict (s : State) (fork : ForkRecord) (merge : ForkMerge) : Verdict :=
  let sending := merge.outcome == .sending
  if sending && !s.inFlight.contains merge.markerId then
    match fork.sourceSessionId with
    | some source =>
      match standing s source (mergeMarker merge.markerId) with
      | .delivered => .delivered
      | .queued => .holds sending
      | .absent => .withdrawn
    | none => .holds sending
  else .holds sending

/-- The place of the fork point: zero when the fork starts empty or its event is
gone. -/
def baseRowid (s : State) (fork : ForkRecord) : ℕ :=
  (fork.childBaseEventId.bind (eventRowid s.events)).getD 0

/-- The claim as a range of rows, unless its last event is gone. -/
def liveClaim (s : State) (fork : ForkRecord) (merge : ForkMerge) (sending : Bool) :
    Option LiveClaim :=
  let fromRowid :=
    match merge.fromEventId with
    | some eventId => (eventRowid s.events eventId).getD (baseRowid s fork)
    | none => baseRowid s fork
  (eventRowid s.events merge.throughEventId).map fun throughRowid =>
    ⟨merge, fromRowid, throughRowid, sending⟩

/-- The claims `live_claims` answers with. -/
def liveClaims (s : State) (fork : ForkRecord) : List LiveClaim :=
  (listMerges s.merges fork.id).filterMap fun merge =>
    match verdict s fork merge with
    | .holds sending => liveClaim s fork merge sending
    | .delivered => liveClaim s fork merge false
    | .withdrawn => none

/-- What `live_claims` writes: the delivered claims are marked sent, the withdrawn ones
deleted. No verdict depends on these rows, so the loop is one statement of each
kind. -/
def settleMerges (s : State) (fork : ForkRecord) : MergeTable :=
  let judged := fun (v : Verdict) (merge : ForkMerge) =>
    merge.forkId == fork.id && verdict s fork merge == v
  markSentWhere (s.merges.delete (judged .withdrawn)) (judged .delivered)

/-! ## The first range that is free -/

/-- A range of the fork's events, from the first place excluded to the last included. -/
structure MergeRange where
  fromEventId : Option String
  fromRowid : ℕ
  throughEventId : String
  throughRowid : ℕ
  deriving DecidableEq

/-- The loop of `pending_range` over the ordered claims: what they cover from the base
on, or the hole below the first claim that starts past it. -/
def coverage (covered : ℕ) (coveredEvent : Option String) :
    List LiveClaim → (ℕ × Option String) ⊕ MergeRange
  | [] => .inl (covered, coveredEvent)
  | claim :: claims =>
    if claim.fromRowid ≤ covered then
      if covered < claim.throughRowid then
        coverage claim.throughRowid (some claim.merge.throughEventId) claims
      else coverage covered coveredEvent claims
    else
      match claim.merge.fromEventId with
      | none => coverage covered coveredEvent claims
      | some nextFrom => .inr ⟨coveredEvent, covered, nextFrom, claim.fromRowid⟩

/-- The order of the claims: by first place, then by last. -/
def claimLe (a b : LiveClaim) : Bool :=
  decide (a.fromRowid < b.fromRowid ∨ (a.fromRowid = b.fromRowid ∧ a.throughRowid ≤ b.throughRowid))

def pendingRange (s : State) (fork : ForkRecord) (claims : List LiveClaim) :
    ArgmaxResult (Option MergeRange) :=
  let base : ArgmaxResult ℕ :=
    match fork.childBaseEventId with
    | some eventId =>
      match eventRowid s.events eventId with
      | some rowid => .ok rowid
      | none =>
        .error (.service "FORK_CURSOR_MISSING"
          "The fork's merge position no longer exists in its transcript.")
    | none => .ok 0
  base.map fun baseRowid =>
    match coverage baseRowid fork.childBaseEventId (claims.mergeSort claimLe) with
    | .inr hole => some hole
    | .inl (covered, coveredEvent) =>
      match newestVisibleEvent s.events fork.childSessionId with
      | none => none
      | some (newestRowid, newestId) =>
        if newestRowid ≤ covered then none
        else some ⟨coveredEvent, covered, newestId, newestRowid⟩

/-! ## The text of a merge -/

def mergeMaxMessages : ℕ := 40

def mergeMaxChars : ℕ := 24000

/-- `excerpt`: one line of at most eighty characters. -/
def excerpt (text : String) : String :=
  let words := (text.toList.splitBy fun a b => isWhitespace a == isWhitespace b).filter
    fun word => !word.any isWhitespace
  let flat := (words.intersperse [' ']).flatten
  if flat.length ≤ 80 then String.ofList flat else String.ofList (flat.take 80) ++ "…"

/-- `boundary_excerpt`: the user message the fork started from. -/
def boundaryExcerpt (s : State) (fork : ForkRecord) : Option String :=
  fork.boundaryEventId.bind fun boundary =>
    fork.sourceSessionId.bind fun source =>
      (s.events.find? boundary).bind fun event =>
        if event.sessionId = source then some (excerpt event.message) else none

/-- The oldest lines drop until the rest fits, or one is left. -/
def dropOldest : ℕ → List (EventRow × String) → List (EventRow × String)
  | chars, line :: next :: rest =>
    if mergeMaxChars < chars then
      dropOldest (chars - (byteLength line.2.toList + 1)) (next :: rest)
    else line :: next :: rest
  | _, lines => lines

def draft (s : State) (fork : ForkRecord) (range : MergeRange) (childLabel : String) : Draft :=
  let (found, total) := visibleMessagesAfter s.events fork.childSessionId range.fromRowid
    range.throughRowid mergeMaxMessages
  let lines := dropOldest (found.map fun line => byteLength line.2.toList).sum found
  let truncated := decide (lines.length < total)
  let origin :=
    match boundaryExcerpt s fork with
    | some boundary => "forked from this chat at \"" ++ boundary ++ "\""
    | none => "forked from this chat"
  let since :=
    if range.fromEventId = fork.childBaseEventId then "since the fork"
    else "since the last merge"
  let omitted :=
    if truncated then
      "\n(" ++ toString (total - lines.length) ++ " earlier message(s) are not shown. " ++
        "Read them with session_read on session " ++ fork.childSessionId ++ ".)"
    else ""
  { text := "Findings from the forked chat \"" ++ childLabel ++ "\" (" ++ origin ++ "), " ++
      toString lines.length ++ " message(s) " ++ since ++ ":\n\n" ++
      String.intercalate "\n" (lines.map (·.2)) ++ omitted
    newMessageCount := total
    shown := lines.length
    truncated := truncated
    carried := lines.map (·.1) }

/-! ## Claiming and settling -/

/-- How a claim differs from the person's click in the app. -/
structure ClaimOptions where
  note : Option String
  fromInsideFork : Bool

/-- What a confirmed merge click turned into. -/
inductive Claim where
  | alreadyMerged
  | claimed (sourceSessionId childSessionId childLabel mergeId text : String)
  deriving DecidableEq

def forkMergeStale (message : String) : ArgmaxError := .service "FORK_MERGE_STALE" message

/-- The range a click reaches: never past what was previewed, and never past the range
that is open now. -/
def MergeRange.upto (range : MergeRange) (throughEventId : String) (requested : ℕ) : MergeRange :=
  if requested < range.throughRowid then
    { range with throughEventId := throughEventId, throughRowid := requested }
  else range

/-- The second half of `claim_range`: the claims are settled, and a range is open. -/
def claimOpen (s : State) (fork : ForkRecord) (source childLabel throughEventId : String)
    (options : ClaimOptions) (range : MergeRange) (id now : String) :
    State × ArgmaxResult Claim :=
  match eventRowid s.events throughEventId with
  | none =>
    (s, .error (forkMergeStale "That fork position is gone. Preview the merge again."))
  | some requested =>
    let inFork := (s.events.find? throughEventId).any fun event =>
      event.sessionId == fork.childSessionId
    if !inFork || !isVisibleEvent s.events fork.childSessionId throughEventId then
      (s, .error (forkMergeStale
        "That position is not a message in this fork. Preview the merge again."))
    else if requested ≤ range.fromRowid then (s, .ok .alreadyMerged)
    else
      let range := range.upto throughEventId requested
      match reserveMerge s.merges fork.id range.fromEventId range.throughEventId id now with
      | (merges, none) => ({ s with merges := merges }, .ok .alreadyMerged)
      | (merges, some claim) =>
        let drafted := draft s fork range childLabel
        let findings := drafted.text ++ "\n\n— " ++ mergeMarker claim.markerId
        ({ s with
            merges := merges
            inFlight := claim.markerId :: s.inFlight
            carried := fun mergeId =>
              if mergeId = claim.id then drafted.carried else s.carried mergeId },
          .ok (.claimed source fork.childSessionId childLabel claim.id
            (match options.note with
            | some note => note ++ "\n\n" ++ findings
            | none => findings)))

/-- `claim_range`. The identifier and the time are drawn by the caller. -/
def claimRange (s : State) (childSessionId throughEventId : String) (options : ClaimOptions)
    (id now : String) : State × ArgmaxResult Claim :=
  match forkForChild s.forks childSessionId with
  | none =>
    (s, .error (.service "FORK_NOT_FOUND" "This chat was not forked from another chat."))
  | some fork =>
    match fork.sourceSessionId with
    | none =>
      (s, .error (.service "FORK_SOURCE_GONE"
        "The chat this one was forked from no longer exists."))
    | some source =>
      match s.sessions.find? fork.childSessionId with
      | none => (s, .error (.recordNotFound "session" fork.childSessionId))
      | some child =>
        if isActive child.state && !options.fromInsideFork then
          (s, .error (.service "FORK_MERGE_CHILD_ACTIVE"
            ("The fork is still working. Wait for it to finish, then bring its findings " ++
              "back.")))
        else
          let claims := liveClaims s fork
          let s := { s with merges := settleMerges s fork }
          match pendingRange s fork claims with
          | .error error => (s, .error error)
          | .ok none => (s, .ok .alreadyMerged)
          | .ok (some range) =>
            claimOpen s fork source child.taskLabel throughEventId options range id now

/-- How a claim's send ended. -/
inductive Settled where
  | sent
  | queued
  | deliveredDespiteError
  | released

def mergeDeliveryTarget (s : State) (mergeId : String) : Option (String × String) :=
  (s.merges.find? mergeId).bind fun merge =>
    (s.forks.find? merge.forkId).bind fun fork =>
      fork.sourceSessionId.map fun source => (source, merge.markerId)

/-- `settle_claim`. The send answered whether the message was queued, or failed. -/
def settleClaim (s : State) (mergeId : String) (sent : ArgmaxResult Bool) :
    State × ArgmaxResult Settled :=
  match sent with
  | .ok false => ({ s with merges := markMergeSent s.merges mergeId }, .ok .sent)
  | .ok true => (s, .ok .queued)
  | .error _ =>
    let seen :=
      match mergeDeliveryTarget s mergeId with
      | some (source, marker) => standing s source (mergeMarker marker)
      | none => .absent
    match seen with
    | .delivered =>
      ({ s with merges := markMergeSent s.merges mergeId }, .ok .deliveredDespiteError)
    | .queued => (s, .ok .queued)
    | .absent =>
      match releaseMerge s.merges mergeId with
      | .ok merges => ({ s with merges := merges }, .ok .released)
      | .error error => (s, .error error)

/-! ## Runs -/

/-- One step. A message reaches the source as an event, and waits for it, or leaves it,
as a change of the pending queue. -/
inductive Action where
  | claim (childSessionId throughEventId : String) (options : ClaimOptions) (id now : String)
  | settle (mergeId : String) (sent : ArgmaxResult Bool)
  | dropInFlight (markerId : String)
  | event (id sessionId type message : String) (payload : Json)
  | pending (action : PendingMessages.Action)
  | sessionState (sessionId state : String)
  | restart

def step (s : State) : Action → State
  | .claim childSessionId throughEventId options id now =>
    (claimRange s childSessionId throughEventId options id now).1
  | .settle mergeId sent => (settleClaim s mergeId sent).1
  | .dropInFlight markerId =>
    { s with inFlight := s.inFlight.filter fun marker => marker != markerId }
  | .event id sessionId type message payload =>
    { s with
      events :=
        (persistTimelineEvent s.events id sessionId type message payload).getD s.events }
  | .pending action => { s with pending := PendingMessages.step s.pending action }
  | .sessionState sessionId state =>
    { s with
      sessions := s.sessions.update
        (fun row => if row.id = sessionId then { row with state := state } else row)
        (by intro row; by_cases h : row.id = sessionId <;> simp [h]) }
  | .restart =>
    { s with inFlight := [], pending := PendingMessages.step s.pending .restart }

/-- Before the first merge: any forks, sessions, events and queue. -/
def start (forks : ForkTable) (sessions : Table SessionRow.id) (events : EventTable)
    (pending : PendingMessages.State) : State :=
  ⟨forks, sessions, events, .empty, pending, [], fun _ => []⟩

end Argmax.Providers.ForkMerge
