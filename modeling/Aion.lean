import Aion.Durability.Consumption
import Aion.Durability.CorrelationKeys
import Aion.Core.Status
import Aion.Durability.Resolver
import Aion.Durability.Replay
import Aion.Durability.Growth
import Aion.Durability.LiveResolution
import Aion.Durability.Pause
import Aion.Lifecycle.Reopen
import Aion.Durability.FanOut
import Aion.Runtime.ActivityRetry
import Aion.Runtime.CollectSettlement
import Aion.Runtime.CollectReplay
import Aion.Lifecycle.Transitions
import Aion.Store.Memory
import Aion.Store.RunChainOrder
import Aion.Awl.LexerLayout
import Aion.Awl.ExprRoundTrip
import Aion.Core.FailureAttribution
import Aion.Runtime.SignalOccurrence
import Aion.Lifecycle.ReopenRecovery
import Aion.Lifecycle.Visibility
import Aion.Library.Interleaving
import Aion.Durability.Recorder
import Aion.Durability.SingleWriter
import Aion.Store.LibSqlStore
import Aion.Durability.FanOutStaging
import Aion.Store.BackendAgreement
import Aion.Store.HaematiteClaims
import Aion.Store.NamespaceUpdates
import Aion.Schedule.RestartAgreement
import Aion.Awl.Regions
import Aion.Awl.Layers
import Aion.Awl.Availability
import Aion.Lifecycle.Successors
import Aion.Time.TimerRecovery
import Aion.Package.VersionIdentity
import Aion.Package.Rearchive
import Aion.Lifecycle.DeadlineSweep
import Aion.Worker.OutboxReconciler
import Aion.Worker.BackpressureFairness
import Aion.Worker.WorkConservation
import Aion.Worker.Arrival
import Aion.Worker.StrandedDispatch
import Aion.Worker.LostWorker
import Aion.Stream.ResumedStream
import Aion.Stream.ResumingClient
import Aion.Loader.PinnedStarts
import Aion.Loader.Deploys
import Aion.Schedule.CatchUp
import Aion.Schedule.OverlapAccounting
import Aion.Store.LibSqlClaims
import Aion.Awl.Lexer
import Aion.Time.RestartRearm
import Aion.Lifecycle.PendingWork
import Aion.Lifecycle.ChildSweep
import Aion.Lifecycle.Doorbell
import Aion.Worker.RegistryIndex
import Aion.Worker.RegistryRefinement
import Aion.Awl.MirPaths
import Aion.Library.Recency
import Aion.Stream.VerdictCache
import Aion.Stream.NamespaceFilter
import Aion.Runtime.QueryOutcomes
import Aion.Sdk.RunBudget
