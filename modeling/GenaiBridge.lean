import GenaiBridge.Lib.Groups
import GenaiBridge.Lib.SortedMap
import GenaiBridge.Bridge.Time
import GenaiBridge.Bridge.Model
import GenaiBridge.Bridge.Emit
import GenaiBridge.Bridge.Guard
import GenaiBridge.Bridge.Runner
import GenaiBridge.Proofs.Buckets
import GenaiBridge.Proofs.Coalesce
import GenaiBridge.Proofs.Accounting
import GenaiBridge.Proofs.ProcessBatch
import GenaiBridge.Lib.Civil
import GenaiBridge.Lib.Decimal
import GenaiBridge.Lib.Rfc3339
import GenaiBridge.Lib.Json
import GenaiBridge.Lib.Optimistic
import GenaiBridge.Bridge.Checkpoint
import GenaiBridge.Proofs.Checkpoint
import GenaiBridge.Proofs.ConfigMap
import GenaiBridge.Proofs.DynamoDB
import GenaiBridge.Proofs.Stores
import GenaiBridge.Bridge.Lease
import GenaiBridge.Proofs.Lease
import GenaiBridge.Proofs.Fleet
import GenaiBridge.Bridge.Config
import GenaiBridge.Bridge.Derive
import GenaiBridge.Bridge.Analytics
import GenaiBridge.Lib.Intervals
import GenaiBridge.Proofs.Analytics
import GenaiBridge.Proofs.EmitOnce
import GenaiBridge.Proofs.WholeBuckets
import GenaiBridge.Bridge.Download
import GenaiBridge.Lib.Lines
import GenaiBridge.Proofs.LineReader
import GenaiBridge.Proofs.Download
import GenaiBridge.Proofs.Page
import GenaiBridge.Bridge.Export
import GenaiBridge.Proofs.Cursor
import GenaiBridge.Lib.Checkpointed
import GenaiBridge.Proofs.RangeServer
import GenaiBridge.Proofs.ExportRun
import GenaiBridge.Lib.Binary64
import GenaiBridge.Bridge.LogsStrip
import GenaiBridge.Bridge.RunsStrip
import GenaiBridge.Bridge.Runs
import GenaiBridge.Proofs.RunsSettings
import GenaiBridge.Proofs.LogWindows
import GenaiBridge.Proofs.RunsWindow
import GenaiBridge.Proofs.RunsRun
import GenaiBridge.Lib.Escape
import GenaiBridge.Proofs.Budget
import GenaiBridge.Bridge.App
import GenaiBridge.Proofs.Strip
import GenaiBridge.Proofs.NonInterference
import GenaiBridge.Proofs.App
import GenaiBridge.Proofs.Commit
import GenaiBridge.Proofs.Frontier
import GenaiBridge.Proofs.Fence
import GenaiBridge.Bridge.Scheduler
import GenaiBridge.Proofs.SingleFlight
import GenaiBridge.Lib.Windows
import GenaiBridge.Proofs.Tiling
import GenaiBridge.Proofs.OpenWindows
import GenaiBridge.Bridge.MapRanges
import GenaiBridge.Bridge.Otlp
import GenaiBridge.Proofs.SeriesKey
import GenaiBridge.Proofs.MapRanges
import GenaiBridge.Proofs.AnalyticsBatch
import GenaiBridge.Proofs.Reemission
import GenaiBridge.Lib.SortBy
import GenaiBridge.Proofs.WindowArithmetic
import GenaiBridge.Proofs.Readback
import GenaiBridge.Proofs.MetricEncoding
import GenaiBridge.Bridge.OtlpLogs
import GenaiBridge.Proofs.LogEncoding
import GenaiBridge.Proofs.Splitting
import GenaiBridge.Bridge.OtlpPost
import GenaiBridge.Proofs.Rejects
import GenaiBridge.Bridge.FileStore
import GenaiBridge.Proofs.RoundTrip
import GenaiBridge.Proofs.OptIns
import GenaiBridge.Bridge.Groups
import GenaiBridge.Bridge.Sessions
import GenaiBridge.Bridge.SampleLoops
import GenaiBridge.Proofs.LoopKeys
import GenaiBridge.Proofs.Ownership
import GenaiBridge.Proofs.DeriveSpec
import GenaiBridge.Proofs.CoalesceSpec
import GenaiBridge.Proofs.RetryAfter
import GenaiBridge.Bridge.Backfill
import GenaiBridge.Proofs.Backfill
import GenaiBridge.Lib.Parking
import GenaiBridge.Proofs.Parked
import GenaiBridge.Proofs.PollTimeout
import GenaiBridge.Bridge.PartialSuccess
import GenaiBridge.Lib.Protobuf
import GenaiBridge.Proofs.PartialSuccess
import GenaiBridge.Bridge.RunsFleet
import GenaiBridge.Proofs.RunsScope
import GenaiBridge.Bridge.RunOnce
import GenaiBridge.Proofs.AbandonedBuckets
import GenaiBridge.Proofs.DegradedGauge
import GenaiBridge.Lib.Paging
import GenaiBridge.Proofs.GroupPages
import GenaiBridge.Proofs.SessionPages
import GenaiBridge.Lib.Words
import GenaiBridge.Proofs.UseCases
import GenaiBridge.Proofs.FileStore
import GenaiBridge.Proofs.Revisions
import GenaiBridge.Bridge.LoadConfig
import GenaiBridge.Lib.Replace
import GenaiBridge.Proofs.Secrets
import GenaiBridge.Proofs.StreamLabels
import GenaiBridge.Bridge.Coordinator
import GenaiBridge.Bridge.Egress
import GenaiBridge.Bridge.Noop
import GenaiBridge.Proofs.Coordinator
import GenaiBridge.Proofs.Egress
import GenaiBridge.Proofs.Exclusion
import GenaiBridge.Proofs.Noop
