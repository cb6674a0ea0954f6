import Argmax.Remote.AtMostOnce
import Argmax.Persistence.QueueReplacement
import Argmax.Providers.ChunkBoundaries
import Argmax.Renderer.GridInvariant
import Argmax.Remote.DashboardRoundTrip
import Argmax.Remote.DeltaAgreement
import Argmax.Renderer.ReadCoherence
import Argmax.Renderer.DiffAgreement
import Argmax.Providers.LaunchOwnership
import Argmax.Gh.WatchOutbox
import Argmax.Approvals.Lifecycle
import Argmax.Questions.Lifecycle
import Argmax.Renderer.TransportSound
import Argmax.Providers.SwitchMemory
import Argmax.Providers.FlushOnce
import Argmax.Providers.FlushFailures
import Argmax.Providers.ForkMergePreview
import Argmax.Gh.WatchReports
import Argmax.SessionControl.WaitReports
import Argmax.SessionControl.AfterTurnSlot
import Argmax.Renderer.PendingQueues
import Argmax.Renderer.AppendPath
import Argmax.Providers.DiffMinimality
import Argmax.Providers.DiffSizeCap
import Argmax.Approvals.RiskSequencing
import Argmax.Persistence.ChangePageBudget
import Argmax.Routines.EditTokens
import Argmax.Providers.FollowUpContext
import Argmax.Providers.ForkPlanSound
import Argmax.Providers.NoticeBounds
import Argmax.Persistence.ChatReferences
import Argmax.Providers.Normalizer.CodexAgents
import Argmax.Providers.Normalizer.CodexOccupancy
import Argmax.Persistence.AgentNaming
import Argmax.Providers.Normalizer.CursorStream
import Argmax.Providers.RefusedSend
import Argmax.Sync.Churn
import Argmax.Workspaces.Lifecycle
import Argmax.Routing.CostAttribution
import Argmax.Usage.Grok
import Argmax.Usage.SummaryAdditive
import Argmax.Routing.RerouteSafety
import Argmax.Workspaces.BranchNamesUsable
import Argmax.Review.HunksExact
import Argmax.Goals.DriverBudget
import Argmax.Checkpoints.RewindRestores
import Argmax.SessionControl.LaunchCapsHold
import Argmax.Renderer.ToolCalls
import Argmax.Renderer.SidebarForest
import Argmax.Renderer.TodoList
import Argmax.Renderer.ToolCorrelation
import Argmax.Util.StreamReader
import Argmax.Review.UntrackedCounts
import Argmax.Providers.Normalizer.Claude
