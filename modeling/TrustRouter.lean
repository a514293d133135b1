import TrustRouter.Accounting
import TrustRouter.Admission
import TrustRouter.Agents
import TrustRouter.ApiKeys
import TrustRouter.Audit
import TrustRouter.AuditDurability
import TrustRouter.AuditFlush
import TrustRouter.AuditIntegrity
import TrustRouter.AuditLines
import TrustRouter.AuditTrail
import TrustRouter.BatchRouting
import TrustRouter.Breaker
import TrustRouter.CacheShape
import TrustRouter.ClockSkew
import TrustRouter.Concurrency
import TrustRouter.Conduct
import TrustRouter.Cooldown
import TrustRouter.CostModel
import TrustRouter.Course
import TrustRouter.Decision
import TrustRouter.DemoRouter
import TrustRouter.Dispatch
import TrustRouter.Distances
import TrustRouter.EdgeValidity
import TrustRouter.Endpoints
import TrustRouter.Eviction
import TrustRouter.Execution
import TrustRouter.Fabric
import TrustRouter.Feasible
import TrustRouter.Feedback
import TrustRouter.Forecasts
import TrustRouter.Gates
import TrustRouter.Handler
import TrustRouter.HandlersAlone
import TrustRouter.Health
import TrustRouter.HealthRuns
import TrustRouter.Http
import TrustRouter.IdSpace
import TrustRouter.Identifier
import TrustRouter.Inference
import TrustRouter.Interning
import TrustRouter.Invalidation
import TrustRouter.Isolation
import TrustRouter.Kv
import TrustRouter.KvSelection
import TrustRouter.KvTransfers
import TrustRouter.LatencyWindow
import TrustRouter.Leases
import TrustRouter.Lifecycle
import TrustRouter.LoadShedding
import TrustRouter.LockOrder
import TrustRouter.Metrics
import TrustRouter.Optimality
import TrustRouter.OwnEvents
import TrustRouter.Permits
import TrustRouter.Pipeline
import TrustRouter.Placement
import TrustRouter.Planner
import TrustRouter.Prediction
import TrustRouter.Prelude.Binary64
import TrustRouter.Prelude.Bucket
import TrustRouter.Prelude.Channel
import TrustRouter.Prelude.Collections
import TrustRouter.Prelude.F64
import TrustRouter.Prelude.Float64
import TrustRouter.Prelude.JsonNesting
import TrustRouter.Prelude.JsonReading
import TrustRouter.Prelude.JsonText
import TrustRouter.Prelude.LabelSetting
import TrustRouter.Prelude.LineJournal
import TrustRouter.Prelude.Linearization
import TrustRouter.Prelude.Locks
import TrustRouter.Prelude.Program
import TrustRouter.Prelude.Ring
import TrustRouter.Prelude.Run
import TrustRouter.Prelude.Smoothing
import TrustRouter.Prelude.Streak
import TrustRouter.Prelude.UrlEncoded
import TrustRouter.Ranking
import TrustRouter.RateLimit
import TrustRouter.Recoverability
import TrustRouter.Recovery
import TrustRouter.Refusals
import TrustRouter.Registries
import TrustRouter.Reports
import TrustRouter.Reroutes
import TrustRouter.RouteCache
import TrustRouter.Router
import TrustRouter.Scoring
import TrustRouter.SearchEffort
import TrustRouter.Serde
import TrustRouter.ShortestPath
import TrustRouter.Sidecar
import TrustRouter.SidecarConfig
import TrustRouter.Snapshots
import TrustRouter.Staleness
import TrustRouter.Streaks
import TrustRouter.SystemPlanning
import TrustRouter.SystemSelection
import TrustRouter.Tallies
import TrustRouter.TenantRuns
import TrustRouter.TenantState
import TrustRouter.Testimony
import TrustRouter.Thresholds
import TrustRouter.Throttling
import TrustRouter.TokenCounts
import TrustRouter.ToolGraph
import TrustRouter.Traces
import TrustRouter.Transitions
import TrustRouter.Wire
import TrustRouter.WireAgents
import TrustRouter.WorldState
