import Akil.Framework.RotationLog
import Akil.Framework.MachineInt
import Akil.Framework.Rounding
import Akil.Framework.TimedRun
import Akil.Framework.Interleaving
import Akil.Framework.Linearization
import Akil.Framework.RelyGuarantee
import Akil.Framework.BoundedMap
import Akil.Framework.LittleEndian
import Akil.Framework.Text
import Akil.Framework.CircularArray
import Akil.Framework.SpacedStarts
import Akil.Framework.FileWalk
import Akil.Framework.GreedyFill
import Akil.Framework.Quantile
import Akil.Construction.Profile.Window
import Akil.Construction.Profile.Store
import Akil.Construction.Identity.WorkloadKey
import Akil.Construction.Proto
import Akil.Construction.Telemetry.Types
import Akil.Construction.Probe.Handlers
import Akil.Construction.Probe.Loader
import Akil.Construction.Collector.Loop
import Akil.Construction.Collector.Resolver
import Akil.Construction.Collector.Perf
import Akil.Construction.Telemetry.Batch
import Akil.Construction.Telemetry.Cgroup
import Akil.Construction.Telemetry.Resolver
import Akil.Construction.Telemetry.CgroupPath
import Akil.Construction.Aggregator.Ingest
import Akil.Construction.Aggregator.Service
import Akil.Construction.Aggregator.Query
import Akil.Construction.Aggregator.Autoscaler
import Akil.Construction.Aggregator.ClusterScaling
import Akil.Construction.Scoring.Scorer
import Akil.Construction.Scoring.Plugin
import Akil.Construction.Frontend.Scorer
import Akil.Construction.Frontend.Cluster
import Akil.Construction.Frontend.Demo
import Akil.Construction.Evaluation.Simulation
import Akil.Construction.Evaluation.Placement
import Akil.Construction.Evaluation.Experiment
import Akil.Construction.Benchmarks.Webbench
import Akil.Properties.EventLog
import Akil.Properties.BulkRecord
import Akil.Properties.Timeline
import Akil.Properties.RingBuffer
import Akil.Properties.WindowBounds
import Akil.Properties.Staleness
import Akil.Properties.Horizon
import Akil.Properties.StoreProduct
import Akil.Properties.Linearization
import Akil.Properties.Requests
import Akil.Properties.QueryAccuracy
import Akil.Properties.NodeAttribution
import Akil.Properties.LockRatio
import Akil.Properties.MissCount
import Akil.Properties.WorkloadKey
import Akil.Properties.DaemonSetFilter
import Akil.Properties.ContainerAttribution
import Akil.Properties.ContainerPaths
import Akil.Properties.CgroupWalk
import Akil.Properties.IdentityCache
import Akil.Properties.NodeResolution
import Akil.Properties.LockContention
import Akil.Properties.LockTimers
import Akil.Properties.PerfCounters
import Akil.Properties.Fidelity
import Akil.Properties.RawEvents
import Akil.Properties.RecordFormat
import Akil.Properties.Ingest
import Akil.Properties.Pipeline
import Akil.Properties.BatchLedger
import Akil.Properties.BatchShutdown
import Akil.Properties.BatchBound
import Akil.Properties.BatchOverrun
import Akil.Properties.ScalingRule
import Akil.Properties.ScaleRequests
import Akil.Properties.ScalingProgress
import Akil.Properties.ClusterScaling
import Akil.Properties.ScalingLog
import Akil.Properties.Score
import Akil.Properties.Confidence
import Akil.Properties.ScorerPorts
import Akil.Properties.Placement
import Akil.Properties.PlacementPolicy
import Akil.Properties.Experiment
import Akil.Properties.Webbench
import Akil.Properties.BrowserWindow
import Akil.Properties.BrowserAutoscaler
import Akil.Properties.PageWindow
import Akil.Properties.Demo
import Akil.Properties.Noninterference
