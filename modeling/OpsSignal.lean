import OpsSignal.Text
import OpsSignal.Signal
import OpsSignal.Lib.FirstMention
import OpsSignal.Routing
import OpsSignal.RoutingPlan
import OpsSignal.Config
import OpsSignal.Pipeline
import OpsSignal.Lib.Interleaving
import OpsSignal.Delivery
import OpsSignal.DeliveryChain
import OpsSignal.Coverage
import OpsSignal.Lib.Holdings
import OpsSignal.Lib.PrunedLog
import OpsSignal.RouteKey
import OpsSignal.Throttle
import OpsSignal.ThrottleHistory
import OpsSignal.ThrottleProcesses
import OpsSignal.Source
import OpsSignal.SourceHost
import OpsSignal.Client
import OpsSignal.AlertStates
import OpsSignal.ClientSteps
import OpsSignal.ResolvedAlerts
import OpsSignal.GroupKey
import OpsSignal.GroupRuns
import OpsSignal.LifecycleCalls
import OpsSignal.Lib.KeyedTable
import OpsSignal.Sink
import OpsSignal.CutDelivery
import OpsSignal.ClientRuns
import OpsSignal.AlertedProviders
import OpsSignal.GroupOrigins
import OpsSignal.HeldMembers
import OpsSignal.SignalOwner
import OpsSignal.StoredRows
import OpsSignal.GroupedRows
import OpsSignal.OwnDeliveries
import OpsSignal.InFlight
import OpsSignal.Flush
import OpsSignal.FlushedGroups
import OpsSignal.FlushedRows
import OpsSignal.RecordedSends
import OpsSignal.TakenBack
import OpsSignal.Duplicates
import OpsSignal.PlanShape
import OpsSignal.DistinctMembers
import OpsSignal.Chain
import OpsSignal.Lib.DepthFirst
import OpsSignal.ChainOrder
import OpsSignal.ChainLimits
import OpsSignal.ConfigLoad
import OpsSignal.ChainReplay
import OpsSignal.CacheRuns
import OpsSignal.SharedCache
import OpsSignal.Reloads
import OpsSignal.SourceKeys
import OpsSignal.StartupFallback
import OpsSignal.NotifyAndSend
import OpsSignal.FailingSink
import OpsSignal.SinkFailures
import OpsSignal.SendErrors
import OpsSignal.Batch
import OpsSignal.Interpolation
import OpsSignal.LayerMerge
import OpsSignal.DedupKeys
import OpsSignal.SecretFingerprints
import OpsSignal.Secrets
import OpsSignal.SecretReads
import OpsSignal.DigestContent
import OpsSignal.Queries
import OpsSignal.SourceUrls
import OpsSignal.ChainSpelling
import OpsSignal.CosmosReads
import OpsSignal.Attempts
import OpsSignal.Lib.PathWalk
import OpsSignal.ObjectKeys
import OpsSignal.JsonText
import OpsSignal.Windows
import OpsSignal.RouteHistories
import OpsSignal.RouteIdentity
import OpsSignal.Dbt
import OpsSignal.DbtRollUp
import OpsSignal.DbtKeys
import OpsSignal.SinkRepair
import OpsSignal.AppConfigPolls
import OpsSignal.BatchExit
import OpsSignal.AlertSends
import OpsSignal.KeySends
import OpsSignal.Lib.Responses
import OpsSignal.LastWord
import OpsSignal.Lib.Quiescing
import OpsSignal.Quiescence
import OpsSignal.HeldSignals
import OpsSignal.AlertOrigins
import OpsSignal.TruthfulRows
import OpsSignal.JsonObjects
import OpsSignal.Providers
import OpsSignal.EmailMessages
import OpsSignal.EventOrigins
