import Argmax.Providers.DashboardDelta
import Mathlib.Data.List.DropRight

/-!
# Streamed deltas that a final answer supersedes

`turnBoundaries.ts`. The events of all sessions are swept from the newest to the
oldest. For each session the sweep remembers the closest turn boundary after its
position, and the run of deltas it has collected under a boundary that a tool has
separated from the answer.

How a stored event is classified is a parameter of the sweep.
-/

namespace Argmax.Renderer

open Argmax.Providers

/-! ## The classification -/

inductive Role where
  | user
  | assistant

inductive MessagePhase where
  | delta
  | completed

inductive MessageContent where
  | answer
  | thinking
  deriving DecidableEq

inductive ToolPhase where
  | started
  | output
  | completed

inductive CanonicalKind where
  | message (role : Role) (steer : Bool) (phase : MessagePhase) (content : MessageContent)
      (childProse : Bool)
  | tool (phase : ToolPhase)
  | other

structure CanonicalTimelineEvent where
  kind : CanonicalKind
  parentToolUseId : Option String
  traceImported : Bool

/-- `decodeTimelineEvent`. -/
abbrev Decoder := TimelineEvent → CanonicalTimelineEvent

/-- Prose of a child agent, which the parent's chat hides. -/
def isSubAgentProseEcho (decode : Decoder) (event : TimelineEvent) : Bool :=
  match (decode event).kind with
  | .message _ _ _ _ childProse => childProse
  | _ => false

/-! ## Boundaries -/

inductive TurnBoundary where
  | completed (completedText : String)
  | tool (completedText : Option String)
  | user

/-- The new boundary that an event makes, or none where the previous one stays. -/
def advanceTurnBoundary (decode : Decoder) (previous : Option TurnBoundary)
    (event : TimelineEvent) : Option TurnBoundary :=
  match (decode event).kind with
  | .message .assistant _ .completed _ _ => some (.completed event.message)
  | .tool .started =>
    if (decode event).parentToolUseId.isSome then none
    else
      match previous with
      | some (.completed completedText) => some (.tool (some completedText))
      | _ => none
  | .message .user steer _ _ _ => if steer then none else some .user
  | _ => none

/-- White space and line terminators of the language. -/
def isJsWhitespace (c : Char) : Bool :=
  let n := c.toNat
  (9 ≤ n && n ≤ 13) || n == 0x20 || n == 0xA0 || n == 0x1680 || (0x2000 ≤ n && n ≤ 0x200A) ||
    n == 0x2028 || n == 0x2029 || n == 0x202F || n == 0x205F || n == 0x3000 || n == 0xFEFF

/-- `String.prototype.trim`. -/
def jsTrim (text : String) : List Char :=
  (text.toList.dropWhile isJsWhitespace).rdropWhile isJsWhitespace

/-- `String.prototype.length`, in UTF-16 code units. -/
def jsLength (text : List Char) : ℕ :=
  (text.map fun c => if 0x10000 ≤ c.toNat then 2 else 1).sum

def isCompletedPrefixDuplicate (runText completedText : String) : Bool :=
  let run := jsTrim runText
  decide (3 ≤ jsLength run) && run.isPrefixOf (jsTrim completedText)

/-! ## The sweep -/

/-- Deltas under one boundary, the newest first. -/
structure Run where
  completedText : String
  ids : List String
  fragments : List String

/-- The state of the sweep. Maps from sessions are functions. -/
structure Sweep where
  nextBoundary : String → Option TurnBoundary
  runs : String → Option Run
  superseded : List String

namespace Sweep

def start : Sweep := ⟨fun _ => none, fun _ => none, []⟩

/-- A run goes as a whole, if the completed text starts with it. -/
def settleRun (sweep : Sweep) (sessionId : String) : Sweep :=
  match sweep.runs sessionId with
  | none => sweep
  | some run =>
    { sweep with
      runs := fun other => if other = sessionId then none else sweep.runs other
      superseded :=
        if isCompletedPrefixDuplicate (String.join run.fragments.reverse) run.completedText
        then sweep.superseded ++ run.ids else sweep.superseded }

/-- A delta of an answer. -/
def collect (sweep : Sweep) (event : TimelineEvent) : Sweep :=
  match sweep.nextBoundary event.sessionId with
  | some (.completed _) => { sweep with superseded := sweep.superseded ++ [event.id] }
  | some (.tool (some completedText)) =>
    let run := (sweep.runs event.sessionId).getD ⟨completedText, [], []⟩
    { sweep with
      runs := fun other =>
        if other = event.sessionId then
          some ⟨run.completedText, run.ids ++ [event.id], run.fragments ++ [event.message]⟩
        else sweep.runs other }
  | _ => sweep

/-- An event that is no delta. -/
def advance (decode : Decoder) (sweep : Sweep) (event : TimelineEvent) : Sweep :=
  match advanceTurnBoundary decode (sweep.nextBoundary event.sessionId) event with
  | none => sweep
  | some boundary =>
    let sweep := sweep.settleRun event.sessionId
    { sweep with
      nextBoundary := fun other =>
        if other = event.sessionId then some boundary else sweep.nextBoundary other }

/-- One event of the sweep. -/
def visit (decode : Decoder) (event : TimelineEvent) (sweep : Sweep) : Sweep :=
  if isSubAgentProseEcho decode event then sweep
  else
    match (decode event).kind with
    | .message _ _ .delta content _ =>
      if content = .answer then sweep.collect event else sweep
    | _ => sweep.advance decode event

end Sweep

/-- `supersededAnswerDeltaIds` of events in ascending order, skipping child prose. At the
end the runs that are open, of sessions that had an event, are settled. -/
def supersededAnswerDeltaIds (decode : Decoder) (ascending : List TimelineEvent) : List String :=
  let swept := ascending.foldr (Sweep.visit decode) .start
  (ascending.foldl (fun sweep event => sweep.settleRun event.sessionId) swept).superseded

end Argmax.Renderer
