import Synapse.Core.Fallback
import Synapse.Layer.SharedLog
import Synapse.Layer.StateCommands
import Synapse.Recovery.SequenceNumbers
import Synapse.Recovery.ShutdownOrder
import Synapse.Recovery.StoredTotals
import Synapse.Hotreload.ConfigWatcher
import Synapse.Core.FeatureSwitches
import Synapse.Layer.PipelineTracking
import Synapse.Core.ConcurrentUpdates
import Synapse.Core.RoutingStatistics
import Synapse.Atomic.ConcurrentWrites
import Synapse.Atomic.StateMachine
import Synapse.Foundations.SpscRing
import Synapse.Atomic.TelemetryRings
import Synapse.Layer.ImageRegistry
import Synapse.Layer.D3D12
import Synapse.Layer.QueueHooks
import Synapse.Layer.ListHooks
import Synapse.Layer.HelperDll
import Synapse.Hotreload.ShaderReload
import Synapse.Hotreload.ModelSwap
import Synapse.Core.JitCache
import Synapse.Sync.SyncManager
import Synapse.Sync.FenceManager
import Synapse.Recovery.Watchdog
import Synapse.Core.HaiPath
import Synapse.Hai.PushConstantOptimizer
import Synapse.Hai.HaiFrontendSim
import Synapse.Its.ITSCacheController
import Synapse.Its.ThermalMitigation
import Synapse.Its.CacheUsage
import Synapse.Ml.MLSubAPI
import Synapse.Telemetry.JsonReportWriter
import Synapse.IgpuMl.ModelStore
import Synapse.Foundations.Codecs
import Synapse.IgpuMl.TamperedBytes
import Synapse.IgpuMl.RejectedBytes
import Synapse.IgpuMl.UsableModels
import Synapse.Recovery.MetadataFile
import Synapse.Core.NumericSettings
import Synapse.Core.SnapshotVersions
import Synapse.Core.ComputedPlans
import Synapse.Hotreload.TimedEdits
import Synapse.Hotreload.ShaderVersions
import Synapse.Core.JitSlots
import Synapse.Foundations.MemoTable
import Synapse.Core.OptimizedShaders
import Synapse.Sync.PendingFences
import Synapse.Its.PredictionAccounting
import Synapse.Power.DVFSController
import Synapse.Its.TextureStreaming
import Synapse.Hai.TruncatedStreams
import Synapse.Hai.CompressionStats
import Synapse.Personal.PrivacyTelemetry
import Synapse.Hai.FetchedBytes
import Synapse.Hai.PushConstantBounds
import Synapse.Ml.Checkpoints
import Synapse.IgpuMl.ReplayBuffer
import Synapse.IgpuMl.Selection
import Synapse.IgpuMl.WholeFields
import Synapse.IgpuMl.TrainingSteps
import Synapse.IgpuMl.GradientSteps
import Synapse.IgpuMl.Rewards
import Synapse.IgpuMl.FfiStructs
import Synapse.Foundations.FedRing
import Synapse.Umd.Analyzer
import Synapse.Umd.UMDHook
import Synapse.Core.AnalyzerThread
import Synapse.Foundations.LeastMeanSquares
import Synapse.Ml.FeatureEncoder
import Synapse.Ml.PredictionErrors
import Synapse.Foundations.KeyedObjects
import Synapse.Layer.EntryPoints
import Synapse.Its.Hysteresis
import Synapse.Foundations.LazyLock
import Synapse.IgpuMl.Dashboard
import Synapse.Foundations.Softmax
import Synapse.IgpuMl.Scores
import Synapse.Foundations.NearestNumbers
import Synapse.IgpuMl.Samples
import Synapse.Hardware.HardwareBlocklist
import Synapse.Foundations.Balances
import Synapse.Hotreload.ModelTraffic
import Synapse.Core.SessionReport
