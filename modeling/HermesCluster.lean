import HermesCluster.Core.ReviewMatching
import HermesCluster.State.FairBalance
import HermesCluster.Routers.DependencyGate
import HermesCluster.Recovery.Parking
import HermesCluster.Routers.CascadeDepth
import HermesCluster.Routers.NoDangling
import HermesCluster.Routers.LaneCardinality
import HermesCluster.Routers.Placement
import HermesCluster.Lease.Renewal
import HermesCluster.Lease.Lookup
import HermesCluster.Routers.CancelHold
import HermesCluster.Routers.BlockerAuthority
import HermesCluster.Routers.RetryCap
import HermesCluster.Core.WatchdogLoop
import HermesCluster.Sync.FullSync
import HermesCluster.Sync.Convergence
import HermesCluster.Sync.DeltaSync
import HermesCluster.Routers.RoundOrder
import HermesCluster.Routers.Claimability
import HermesCluster.Core.QueuedCopies
import HermesCluster.AuthMiddleware
import HermesCluster.Routers.Config
import HermesCluster.Routers.IntakePolicyApi
import HermesCluster.Core.OwnRecords
import HermesCluster.Core.ReportPursuit
import HermesCluster.Core.ReportEvidence
import HermesCluster.Core.DriftPoller
import HermesCluster.Routers.Lanes
import HermesCluster.Routers.Declarations
import HermesCluster.Routers.Capabilities
import HermesCluster.Core.ClusterEvents
import HermesCluster.Routers.AtomicCalls
import HermesCluster.Core.BackgroundLoops
import HermesCluster.Tools.Cutover
import HermesCluster.Routers.ActionRefs
import HermesCluster.Core.ReleaseAgreement
import HermesCluster.Core.NodeIdentity
import HermesCluster.State.PromotionExact
import HermesCluster.Core.ClusterScheduler
import HermesCluster.Core.WorkflowResolver
import HermesCluster.Core.DeliverableContract
import HermesCluster.Core.DriftAlerts
import HermesCluster.Core.MeteringStatus
import HermesCluster.Core.MeteringSigner
import HermesCluster.Routers.PolicyWriteLimit
import HermesCluster.State.StoredTimes
import HermesCluster.Core.WorkerConnector
import HermesCluster.Core.SingleInstance
import HermesCluster.Core.GhReview
import HermesCluster.Hooks.HookRuns
import HermesCluster.Recovery.OfflineReports
import HermesCluster.Plugin.Tools
import HermesCluster.Plugin.Attachment
