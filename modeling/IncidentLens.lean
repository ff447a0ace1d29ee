import IncidentLens.AgentSessions.Cancel
import IncidentLens.AgentSessions.Projection
import IncidentLens.Approvals.RecordPages
import IncidentLens.Approvals.SingleUse
import IncidentLens.Changes.Edits
import IncidentLens.Changes.Exclusion
import IncidentLens.Changes.Refinement
import IncidentLens.Changes.Reverting
import IncidentLens.Changes.RollbackGate
import IncidentLens.Changes.Vault
import IncidentLens.Cli.SendIdempotency
import IncidentLens.Cli.ToolProjection
import IncidentLens.Events.Milestones
import IncidentLens.Evidence.History
import IncidentLens.Evidence.RowsKept
import IncidentLens.Investigations.Adoption
import IncidentLens.Investigations.Authorization
import IncidentLens.Investigations.Boundary
import IncidentLens.Investigations.Budget
import IncidentLens.Investigations.Columns
import IncidentLens.Investigations.ContextBuild
import IncidentLens.Investigations.Delegation
import IncidentLens.Investigations.Estimator
import IncidentLens.Investigations.EvidenceBudget
import IncidentLens.Investigations.Grants
import IncidentLens.Investigations.Isolation
import IncidentLens.Investigations.Paging
import IncidentLens.Investigations.Receipts
import IncidentLens.Investigations.Schemas
import IncidentLens.Investigations.ToolBatches
import IncidentLens.Investigations.ToolUsage
import IncidentLens.Investigations.WaitingChildren
import IncidentLens.Logs.ConcurrentAppends
import IncidentLens.Logs.CursorCodec
import IncidentLens.Logs.DockerStream
import IncidentLens.Logs.PageWalk
import IncidentLens.Logs.Running
import IncidentLens.Logs.SubscriptionPages
import IncidentLens.Logs.Survival
import IncidentLens.Operations.Keys
import IncidentLens.Operations.Progress
import IncidentLens.Proposals.Atomicity
import IncidentLens.RemoteOps.DockerAction
import IncidentLens.RemoteOps.SessionLeaks
import IncidentLens.RemoteOps.Trees
import IncidentLens.RemoteOps.Writers
import IncidentLens.Shell.Closing
import IncidentLens.Streams.Broker
import IncidentLens.Streams.LogFilter
import IncidentLens.Streams.SlowConsumer
import IncidentLens.Streams.Sse
import IncidentLens.Targets.Facade
