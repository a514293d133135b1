import TrustRouter.Router
import TrustRouter.SidecarConfig

/-!
# Metrics of the sidecar

The sidecar counts its decisions, all of them and those of each tenant, and keeps the
latest latencies.  A decision is counted with an `outcome`: whether it is a reroute, that is
a route other than the tenant's last one that did not come from the cache, and whether it
is a false escalation, that is one while a node is in a state that allows a penalised path.

The counters are natural numbers.  None of them is ever more than the number of calls
(`Metrics.tallies`), so they are what the `u64`s of the source are in the first `2 ^ 64 - 1` calls.

Latencies are only reported: what is counted does not depend on them
(`Metrics.withoutLatencies_recordRoute`).
-/

namespace TrustRouter

def knownNodes : List NodeId := ["start", "primary_search", "fallback_search", "summarize", "done"]

def penaltyPathAvailable (router : Router) (tenant : TenantId) : Bool :=
  knownNodes.any fun node =>
    match router.inner.nodeState tenant node with
    | some .degraded | some .halfOpen => true
    | _ => false

/-- The states of the nodes a dashboard shows; a node without a tracker is healthy. -/
def nodeHealth (router : Router) (tenant : TenantId) : List (NodeId × String) :=
  knownNodes.map fun node =>
    (node, ((router.inner.nodeState tenant node).map NodeState.debug).getD "Healthy")

/-! ## Latencies -/

structure BoundedLatencies where
  values : List Duration

structure LatencyPercentiles where
  p50 : ℕ
  p95 : ℕ
  p99 : ℕ

section

variable [Rounding]

/-- The `as_micros` of a percentile of sorted latencies. -/
def percentileUs (values : List Duration) (percentile : F64) : ℕ :=
  if values.isEmpty then 0
  else
    let index := (F64.ofRat (values.length - 1 : ℕ) * percentile / .ofRat 100).roundAway.toUsize
    (values[index]?.getD 0) / 1000

def LatencyPercentiles.fromSorted (values : List Duration) : LatencyPercentiles where
  p50 := percentileUs values (.ofRat 50)
  p95 := percentileUs values (.ofRat 95)
  p99 := percentileUs values (.ofRat 99)

end

namespace BoundedLatencies

def latencySampleLimit : ℕ := 4096

instance : Inhabited BoundedLatencies := ⟨⟨[]⟩⟩

def push (latencies : BoundedLatencies) (value : Duration) : BoundedLatencies :=
  ⟨Ring.push latencySampleLimit latencies.values value⟩

def percentiles [Rounding] (latencies : BoundedLatencies) : LatencyPercentiles :=
  .fromSorted (sortBy compare latencies.values)

end BoundedLatencies

/-! ## Counters -/

/-- What `record_route` tells of a decision. -/
structure RouteMetricOutcome where
  rerouted : Bool := false
  falseEscalation : Bool := false

/-- The counters that are kept for all decisions and for those of each tenant.  Each grows by one at
most with a decision. -/
structure RouteCounters where
  totalRoutes : ℕ := 0
  totalSuccessfulRoutes : ℕ := 0
  totalReroutes : ℕ := 0
  totalEscalations : ℕ := 0
  falseEscalations : ℕ := 0
  cacheHits : ℕ := 0
  cacheMisses : ℕ := 0

/-- Count a decision. -/
def RouteCounters.record (counters : RouteCounters) (decision : RouteDecision)
    (outcome : RouteMetricOutcome) : RouteCounters :=
  let counters := { counters with totalRoutes := counters.totalRoutes + 1 }
  match decision with
  | .routed route =>
      { counters with
        totalSuccessfulRoutes := counters.totalSuccessfulRoutes + 1
        cacheHits := counters.cacheHits + if route.cacheHit then 1 else 0
        cacheMisses := counters.cacheMisses + if route.cacheHit then 0 else 1
        totalReroutes := counters.totalReroutes + if outcome.rerouted then 1 else 0 }
  | .escalate _ =>
      { counters with
        totalEscalations := counters.totalEscalations + 1
        falseEscalations := counters.falseEscalations + if outcome.falseEscalation then 1 else 0 }

structure TenantMetrics extends RouteCounters where
  lastSuccessfulPath : Option (List NodeId) := none
  routeLatencies : BoundedLatencies := default

instance : Inhabited TenantMetrics := ⟨{}⟩

structure Metrics extends RouteCounters where
  perTenant : HashMap TenantId TenantMetrics := ∅
  routeLatencies : BoundedLatencies := default
  totalPlans : ℕ := 0
  successfulPlans : ℕ := 0
  recoveryPlans : ℕ := 0
  planLatencies : BoundedLatencies := default

instance : Inhabited Metrics := ⟨{}⟩

namespace TenantMetrics

/-- What a decision counts as, given what has been recorded of the tenant. -/
def outcome (metrics : TenantMetrics) (tenant : TenantId) (router : Router) :
    RouteDecision → RouteMetricOutcome
  | .routed route =>
      let pathChanged := metrics.lastSuccessfulPath.any fun previous => previous != route.nodes
      { rerouted := pathChanged && !route.cacheHit }
  | .escalate _ => { falseEscalation := penaltyPathAvailable router tenant }

/-- The part of `record_route` that concerns one tenant. -/
def recordRoute (metrics : TenantMetrics) (decision : RouteDecision) (latency : Duration)
    (outcome : RouteMetricOutcome) : TenantMetrics where
  toRouteCounters := metrics.toRouteCounters.record decision outcome
  lastSuccessfulPath :=
    match decision with
    | .routed route => some route.nodes
    | .escalate _ => metrics.lastSuccessfulPath
  routeLatencies := metrics.routeLatencies.push latency

end TenantMetrics

namespace Metrics

def recordRoute (metrics : Metrics) (tenant : TenantId) (decision : RouteDecision)
    (latency : Duration) (router : Router) : Metrics × RouteMetricOutcome :=
  let tenantMetrics := metrics.perTenant.getOrDefault tenant
  let outcome := tenantMetrics.outcome tenant router decision
  ({ metrics with
      toRouteCounters := metrics.toRouteCounters.record decision outcome
      routeLatencies := metrics.routeLatencies.push latency
      perTenant :=
        metrics.perTenant.insert tenant (tenantMetrics.recordRoute decision latency outcome) },
    outcome)

def recordPlan (metrics : Metrics) (outcome : PlanOutcome) (latency : Duration) : Metrics :=
  let metrics := { metrics with
    totalPlans := metrics.totalPlans + 1
    planLatencies := metrics.planLatencies.push latency }
  match outcome with
  | .execute _ => { metrics with successfulPlans := metrics.successfulPlans + 1 }
  | .recover _ _ _ => { metrics with recoveryPlans := metrics.recoveryPlans + 1 }

end Metrics

/-! ### All but the latencies -/

def TenantMetrics.withoutLatencies (metrics : TenantMetrics) : TenantMetrics :=
  { metrics with routeLatencies := default }

theorem TenantMetrics.withoutLatencies_recordRoute (metrics : TenantMetrics)
    (decision : RouteDecision) (latency : Duration) (outcome : RouteMetricOutcome) :
    (metrics.recordRoute decision latency outcome).withoutLatencies =
      (metrics.withoutLatencies.recordRoute decision 0 outcome).withoutLatencies := rfl

@[simp] theorem TenantMetrics.outcome_withoutLatencies (metrics : TenantMetrics)
    (tenant : TenantId) (router : Router) (decision : RouteDecision) :
    metrics.withoutLatencies.outcome tenant router decision =
      metrics.outcome tenant router decision := by
  cases decision <;> rfl

namespace Metrics

def withoutLatencies (metrics : Metrics) : Metrics :=
  { metrics with
    perTenant := metrics.perTenant.mapValues fun _ => TenantMetrics.withoutLatencies
    routeLatencies := default
    planLatencies := default }

/-- **What is counted does not depend on the latencies**, neither on those that have been
recorded before nor on that of the decision. -/
theorem withoutLatencies_recordRoute {metrics metrics' : Metrics}
    (same : metrics.withoutLatencies = metrics'.withoutLatencies) (tenant : TenantId)
    (decision : RouteDecision) (latency latency' : Duration) (router : Router) :
    (metrics.recordRoute tenant decision latency router).1.withoutLatencies =
      (metrics'.recordRoute tenant decision latency' router).1.withoutLatencies := by
  unfold withoutLatencies at same
  simp only [Metrics.mk.injEq] at same
  obtain ⟨counters, tenants, -, totalPlans, successfulPlans, recoveryPlans, -⟩ := same
  have own : (metrics.perTenant.getOrDefault tenant).withoutLatencies =
      (metrics'.perTenant.getOrDefault tenant).withoutLatencies := by
    have found := congrArg (HashMap.getOrDefault · tenant) tenants
    rwa [HashMap.getOrDefault_mapValues _ _ rfl, HashMap.getOrDefault_mapValues _ _ rfl] at found
  have outcome : (metrics.perTenant.getOrDefault tenant).outcome tenant router decision =
      (metrics'.perTenant.getOrDefault tenant).outcome tenant router decision := by
    rw [← TenantMetrics.outcome_withoutLatencies, own, TenantMetrics.outcome_withoutLatencies]
  unfold recordRoute withoutLatencies
  simp only [HashMap.mapValues_insert, tenants, counters, outcome, totalPlans, successfulPlans,
    recoveryPlans]
  rw [TenantMetrics.withoutLatencies_recordRoute, own,
    ← TenantMetrics.withoutLatencies_recordRoute _ _ latency']

end Metrics

/-! ## Reports -/

section

variable [Rounding]

def rate (numerator denominator : ℕ) : F64 :=
  if denominator = 0 then .finite 0 else .ofRat numerator / .ofRat denominator

structure TenantMetricsResponse where
  totalRoutes : ℕ
  totalSuccessfulRoutes : ℕ
  totalReroutes : ℕ
  totalEscalations : ℕ
  escalationRate : F64
  llmCallsAvoided : ℕ
  falseEscalations : ℕ
  falseEscalationRate : F64
  cacheHits : ℕ
  cacheMisses : ℕ
  cacheHitRatio : F64
  nodeHealth : List (NodeId × String)
  routeLatencyUs : LatencyPercentiles

structure MetricsResponse extends TenantMetricsResponse where
  totalPlans : ℕ
  successfulPlans : ℕ
  recoveryPlans : ℕ
  planLatencyUs : LatencyPercentiles
  tenants : List (TenantId × TenantMetricsResponse)

/-- The fields that are reported of all decisions and of those of each tenant. -/
def RouteCounters.toResponse (counters : RouteCounters) (latencies : BoundedLatencies)
    (router : Router) (tenant : TenantId) : TenantMetricsResponse where
  totalRoutes := counters.totalRoutes
  totalSuccessfulRoutes := counters.totalSuccessfulRoutes
  totalReroutes := counters.totalReroutes
  totalEscalations := counters.totalEscalations
  escalationRate := rate counters.totalEscalations counters.totalRoutes
  llmCallsAvoided := counters.totalRoutes - counters.totalEscalations
  falseEscalations := counters.falseEscalations
  falseEscalationRate := rate counters.falseEscalations counters.totalRoutes
  cacheHits := counters.cacheHits
  cacheMisses := counters.cacheMisses
  cacheHitRatio := rate counters.cacheHits (counters.cacheHits + counters.cacheMisses)
  nodeHealth := nodeHealth router tenant
  routeLatencyUs := latencies.percentiles

def TenantMetrics.toResponse (metrics : TenantMetrics) (router : Router) (tenant : TenantId) :
    TenantMetricsResponse :=
  metrics.toRouteCounters.toResponse metrics.routeLatencies router tenant

def Metrics.toResponse (metrics : Metrics) (router : Router) : MetricsResponse where
  toTenantMetricsResponse :=
    metrics.toRouteCounters.toResponse metrics.routeLatencies router SidecarConfig.defaultTenant
  totalPlans := metrics.totalPlans
  successfulPlans := metrics.successfulPlans
  recoveryPlans := metrics.recoveryPlans
  planLatencyUs := metrics.planLatencies.percentiles
  tenants := metrics.perTenant.entries.map fun entry =>
    (entry.1, entry.2.toResponse router entry.1)

end

end TrustRouter
