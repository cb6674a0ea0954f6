import Argmax.Json
import Argmax.Lib.Table
import Mathlib.Data.List.Destutter

/-!
# Dashboard deltas

`DashboardDelta` of `providers/flush_queue.rs`, with the columns of its rows that the
renderer's merge reads and one that it only carries. A burst of deltas is conflated
into one by `mergeFrom`, in the order of their arrival.
-/

namespace Argmax.Providers

open Argmax.Lib

/-! ## Rows -/

structure ProjectOverview where
  revision : ℕ
  status : String

structure ProjectSummary where
  id : String
  name : String
  latestActivityAt : Option String
  overview : Option ProjectOverview

structure WorkspaceSummary where
  id : String
  taskLabel : String
  lastActivityAt : String

structure SessionSummary where
  id : String
  workspaceId : String
  prompt : String
  lastActivityAt : String

structure TimelineEvent where
  id : String
  sessionId : String
  type : String
  message : String
  payload : Json
  createdAt : String
  rowCursor : Option ℤ
  deriving DecidableEq

structure RawProviderOutput where
  id : String
  sessionId : String
  content : String
  createdAt : String
  rowCursor : Option ℤ
  deriving DecidableEq

structure ApprovalRow where
  id : String
  sessionId : String
  status : String
  createdAt : String

structure PendingMessage where
  id : String
  content : String

/-- A map from sessions to their queues. -/
abbrev PendingMessages := Table (Prod.fst : String × List PendingMessage → String)

/-! ## Deltas -/

structure DashboardDelta where
  projects : List ProjectSummary
  workspaces : List WorkspaceSummary
  sessions : List SessionSummary
  events : List TimelineEvent
  rawOutputs : List RawProviderOutput
  approvals : List ApprovalRow
  pendingMessages : Option PendingMessages
  removedSessionIds : List String
  removedWorkspaceIds : List String
  changedSessionIds : List String
  goalChangedIds : List String
  dashboardChanged : Bool
  resyncRequired : Bool

namespace DashboardDelta

/-- `DashboardDelta::default`. -/
def empty : DashboardDelta := ⟨[], [], [], [], [], [], none, [], [], [], [], false, false⟩

def isEmpty (delta : DashboardDelta) : Bool :=
  delta.projects.isEmpty && delta.workspaces.isEmpty && delta.sessions.isEmpty &&
    delta.events.isEmpty && delta.rawOutputs.isEmpty && delta.approvals.isEmpty &&
    delta.pendingMessages.isNone && delta.removedSessionIds.isEmpty &&
    delta.removedWorkspaceIds.isEmpty && delta.changedSessionIds.isEmpty &&
    delta.goalChangedIds.isEmpty && !delta.dashboardChanged && !delta.resyncRequired

/-- `sort_unstable` and `dedup`. -/
def sortedIds (ids : List String) : List String :=
  (ids.mergeSort fun a b => decide (a ≤ b)).destutter (· ≠ ·)

/-- `merge_from`: rows and removals are concatenated in arrival order, queues of the
same session overwritten. -/
def mergeFrom (delta other : DashboardDelta) : DashboardDelta where
  projects := delta.projects ++ other.projects
  workspaces := delta.workspaces ++ other.workspaces
  sessions := delta.sessions ++ other.sessions
  events := delta.events ++ other.events
  rawOutputs := delta.rawOutputs ++ other.rawOutputs
  approvals := delta.approvals ++ other.approvals
  pendingMessages :=
    match other.pendingMessages with
    | some incoming =>
      some (incoming.rows.foldl Table.put (delta.pendingMessages.getD .empty))
    | none => delta.pendingMessages
  removedSessionIds := delta.removedSessionIds ++ other.removedSessionIds
  removedWorkspaceIds := delta.removedWorkspaceIds ++ other.removedWorkspaceIds
  changedSessionIds := sortedIds (delta.changedSessionIds ++ other.changedSessionIds)
  goalChangedIds := sortedIds (delta.goalChangedIds ++ other.goalChangedIds)
  dashboardChanged := delta.dashboardChanged || other.dashboardChanged
  resyncRequired := delta.resyncRequired || other.resyncRequired

end DashboardDelta

end Argmax.Providers
