import Imece.AcpRuntime.Permissions
import Imece.AcpRuntime.RunOutcome
import Imece.AgentRuntime.Events
import Imece.AgentRuntime.SessionRuns
import Imece.ChangeRuntime.CaptureExact
import Imece.ChangeRuntime.Git
import Imece.ChangeRuntime.Rendering
import Imece.CollabRuntime.CanonicalJson
import Imece.CollabRuntime.Coordination
import Imece.CollabRuntime.FinalSet
import Imece.CollabRuntime.HostConsent
import Imece.CollabRuntime.HostRecovery
import Imece.CollabRuntime.HubAuthority
import Imece.CollabRuntime.HubCalls
import Imece.CollabRuntime.HubRuns
import Imece.CollabRuntime.Inbox
import Imece.CollabRuntime.JsonDepth
import Imece.CollabRuntime.Models
import Imece.CollabRuntime.Overlaps
import Imece.CollabRuntime.OwnerLifecycle
import Imece.CollabRuntime.Paths
import Imece.CollabRuntime.ReadBack
import Imece.CollabRuntime.ReplayRuns
import Imece.CollabRuntime.SnapshotBlock
import Imece.CollabRuntime.StateDocuments
import Imece.CollabRuntime.Store
import Imece.ContextRuntime.PackBudget
import Imece.ContextRuntime.SymbolExcerpts
import Imece.DecisionRuntime.Triage
import Imece.FixRuntime.Prompt
import Imece.Lib.EventLog
import Imece.Lib.Feeding
import Imece.Lib.FileTree
import Imece.Lib.Interleaving
import Imece.Lib.Journal
import Imece.Lib.Json
import Imece.Lib.JsonData
import Imece.Lib.JsonDataRoundTrip
import Imece.Lib.JsonFields
import Imece.Lib.JsonRoundTrip
import Imece.Lib.JsonSize
import Imece.Lib.Latest
import Imece.Lib.LinkDirs
import Imece.Lib.LinkOps
import Imece.Lib.LinkReach
import Imece.Lib.LinkTree
import Imece.Lib.Ownership
import Imece.Lib.ShellWords
import Imece.Lib.Text
import Imece.Lib.Transaction
import Imece.Lib.Utf8
import Imece.Lib.Utf8Cuts
import Imece.Lib.Versions
import Imece.PipelineRuntime.VerificationDetect
import Imece.ProcessRuntime.Capture
import Imece.Project
import Imece.RunRuntime.Acp
import Imece.RunRuntime.AcpTrail
import Imece.RunRuntime.ActivityLifecycle
import Imece.RunRuntime.ActivityProjection
import Imece.RunRuntime.Advisory
import Imece.RunRuntime.AdvisoryGate
import Imece.RunRuntime.AgentActivity
import Imece.RunRuntime.AttemptGuard
import Imece.RunRuntime.AttemptMoves
import Imece.RunRuntime.AttemptSink
import Imece.RunRuntime.Completion
import Imece.RunRuntime.CompletionEvidence
import Imece.RunRuntime.Decisions
import Imece.RunRuntime.EventTypes
import Imece.RunRuntime.Events
import Imece.RunRuntime.FixLoop
import Imece.RunRuntime.FixLoopMoves
import Imece.RunRuntime.FixLoopTrail
import Imece.RunRuntime.FullHistory
import Imece.RunRuntime.GateRuns
import Imece.RunRuntime.HistoryMerge
import Imece.RunRuntime.Journals
import Imece.RunRuntime.JsonUtil
import Imece.RunRuntime.Legacy
import Imece.RunRuntime.LegacyTrail
import Imece.RunRuntime.Models
import Imece.RunRuntime.NativeAgent
import Imece.RunRuntime.OneAttempt
import Imece.RunRuntime.Pipeline
import Imece.RunRuntime.Planner
import Imece.RunRuntime.Projector
import Imece.RunRuntime.ReadModels
import Imece.RunRuntime.Receipts
import Imece.RunRuntime.RecorderMoves
import Imece.RunRuntime.Recorders
import Imece.RunRuntime.Recovery
import Imece.RunRuntime.RecoveryRuns
import Imece.RunRuntime.Reviewer
import Imece.RunRuntime.RunWrites
import Imece.RunRuntime.Service
import Imece.RunRuntime.SinkWrites
import Imece.RunRuntime.Sinks
import Imece.RunRuntime.Store
import Imece.RunRuntime.StoreHistory
import Imece.RunRuntime.Tail
import Imece.RunRuntime.TailRuns
import Imece.RunRuntime.TerminalRuns
import Imece.RunRuntime.Trails
import Imece.RunRuntime.Verification
import Imece.RunRuntime.VerificationMoves
import Imece.RunRuntime.Writers
import Imece.RunRuntime.Writes
import Imece.ToolRuntime.DispatcherRuns
import Imece.ToolRuntime.WorkspaceFiles
import Imece.VerificationRuntime.Models
import Imece.VerificationRuntime.Reports
import Imece.VerificationRuntime.Runner
import Imece.WebHost.Activity
import Imece.WebHost.DebugSessions
import Imece.WebHost.Exec
import Imece.WebHost.FileTexts
import Imece.WebHost.JsonRpc
import Imece.WebHost.LspIsolation
import Imece.WebHost.OutputStream
import Imece.WebHost.SearchReports
import Imece.WebHost.ShellCommands
import Imece.WebUi.LspUri
import Imece.Workspace.Base
import Imece.Workspace.Worktree
