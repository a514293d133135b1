import TrustRouter.Metrics
import TrustRouter.Prelude.Run

/-!
# The route counters add up

`record_route` keeps every counter twice, for all decisions and for those of the tenant.
A decision adds the same to both copies (`counter_record`), so the first is the sum of the
second over the tenants, and within each copy the counters fit together: every decision is a
success or an escalation, every success a hit or a miss, and only a miss can be a reroute
(`balanced_run`).

The counters of the source have 64 bits.  None is ever more than the number of calls
(`Balanced.counter_le_totalRoutes`, `totalRoutes_run`).
-/

namespace TrustRouter

namespace RouteCounters

/-- The counters one by one. -/
def each : List (RouteCounters → ℕ) :=
  [totalRoutes, totalSuccessfulRoutes, totalReroutes, totalEscalations, falseEscalations,
    cacheHits, cacheMisses]

theorem mem_each {counter : RouteCounters → ℕ} : counter ∈ each ↔
    counter = totalRoutes ∨ counter = totalSuccessfulRoutes ∨ counter = totalReroutes ∨
      counter = totalEscalations ∨ counter = falseEscalations ∨ counter = cacheHits ∨
      counter = cacheMisses := by
  simp only [each, List.mem_cons, List.not_mem_nil, or_false]

/-- The counters fit together. -/
structure Balanced (counters : RouteCounters) : Prop where
  routes : counters.totalRoutes = counters.totalSuccessfulRoutes + counters.totalEscalations
  successful : counters.totalSuccessfulRoutes = counters.cacheHits + counters.cacheMisses
  reroutes : counters.totalReroutes ≤ counters.cacheMisses
  falseEscalations : counters.falseEscalations ≤ counters.totalEscalations

theorem balanced_zero : Balanced {} := by constructor <;> rfl

/-- Only a route that is not from the cache counts as a reroute. -/
def Sparing (decision : RouteDecision) (outcome : RouteMetricOutcome) : Prop :=
  ∀ route, decision = .routed route → route.cacheHit = true → outcome.rerouted = false

theorem Balanced.record {counters : RouteCounters} {decision : RouteDecision}
    {outcome : RouteMetricOutcome} (balanced : counters.Balanced)
    (sparing : Sparing decision outcome) : (counters.record decision outcome).Balanced := by
  obtain ⟨routes, successful, reroutes, falseEscalations⟩ := balanced
  cases decision with
  | routed route =>
      have missed : (if outcome.rerouted then 1 else 0) ≤ if route.cacheHit then 0 else 1 := by
        cases hit : route.cacheHit with
        | false => cases outcome.rerouted <;> simp
        | true => simp [sparing route rfl hit]
      have once : (if route.cacheHit then 1 else 0) + (if route.cacheHit then 0 else 1) = 1 := by
        cases route.cacheHit <;> rfl
      constructor <;> simp only [RouteCounters.record] <;> omega
  | escalate context =>
      have atMostOne : (if outcome.falseEscalation then 1 else 0) ≤ 1 := by
        cases outcome.falseEscalation <;> simp
      constructor <;> simp only [RouteCounters.record] <;> omega

/-- What a decision adds to a counter does not depend on what has been counted. -/
theorem counter_record {counter : RouteCounters → ℕ} (mem : counter ∈ each)
    (counters : RouteCounters) (decision : RouteDecision) (outcome : RouteMetricOutcome) :
    counter (counters.record decision outcome) =
      counter counters + counter (RouteCounters.record {} decision outcome) := by
  cases decision <;> rcases mem_each.mp mem with rfl | rfl | rfl | rfl | rfl | rfl | rfl <;>
    simp [RouteCounters.record]

theorem counter_zero {counter : RouteCounters → ℕ} (mem : counter ∈ each) : counter {} = 0 := by
  rcases mem_each.mp mem with rfl | rfl | rfl | rfl | rfl | rfl | rfl <;> rfl

theorem Balanced.counter_le_totalRoutes {counters : RouteCounters} (balanced : counters.Balanced)
    {counter : RouteCounters → ℕ} (mem : counter ∈ each) :
    counter counters ≤ counters.totalRoutes := by
  obtain ⟨routes, successful, reroutes, falseEscalations⟩ := balanced
  rcases mem_each.mp mem with rfl | rfl | rfl | rfl | rfl | rfl | rfl <;> omega

end RouteCounters

theorem TenantMetrics.sparing_outcome (metrics : TenantMetrics) (tenant : TenantId)
    (router : Router) (decision : RouteDecision) :
    RouteCounters.Sparing decision (metrics.outcome tenant router decision) := by
  rintro route rfl hit
  simp [outcome, hit]

namespace Metrics

/-- A call of `record_route`. -/
structure RouteCall where
  tenant : TenantId
  decision : RouteDecision
  latency : Duration
  router : Router

def step (metrics : Metrics) (call : RouteCall) : Metrics :=
  (metrics.recordRoute call.tenant call.decision call.latency call.router).1

/-- The counters fit together, those for all decisions and those of each tenant, and the first
are the sums of the second. -/
structure Balanced (metrics : Metrics) : Prop where
  all : metrics.toRouteCounters.Balanced
  own : ∀ tenant own, metrics.perTenant.lookup tenant = some own → own.toRouteCounters.Balanced
  sums : ∀ counter ∈ RouteCounters.each, counter metrics.toRouteCounters =
    metrics.perTenant.sum fun own => counter own.toRouteCounters

theorem balanced_default : Balanced default where
  all := RouteCounters.balanced_zero
  own _ _ found := by cases found
  sums _ mem := RouteCounters.counter_zero mem

theorem Balanced.getOrDefault {metrics : Metrics} (balanced : metrics.Balanced)
    (tenant : TenantId) : (metrics.perTenant.getOrDefault tenant).toRouteCounters.Balanced := by
  unfold HashMap.getOrDefault
  cases found : metrics.perTenant.lookup tenant with
  | none => exact RouteCounters.balanced_zero
  | some own => exact balanced.own tenant own found

/-- A call adds the same to both copies of a counter. -/
theorem Balanced.sum_step {metrics : Metrics} (balanced : metrics.Balanced) (call : RouteCall)
    {counter : RouteCounters → ℕ} (mem : counter ∈ RouteCounters.each) :
    counter (metrics.step call).toRouteCounters =
      (metrics.step call).perTenant.sum fun own => counter own.toRouteCounters := by
  obtain ⟨tenant, decision, latency, router⟩ := call
  let own := metrics.perTenant.getOrDefault tenant
  let outcome := own.outcome tenant router decision
  have all := RouteCounters.counter_record mem metrics.toRouteCounters decision outcome
  have ofTenant := RouteCounters.counter_record mem own.toRouteCounters decision outcome
  have exchanged := HashMap.sum_insert (fun own => counter own.toRouteCounters)
    metrics.perTenant tenant (own.recordRoute decision latency outcome)
  have before : ((metrics.perTenant.lookup tenant).map fun own =>
      counter own.toRouteCounters).getD 0 = counter own.toRouteCounters := by
    simp only [own, HashMap.getOrDefault]
    cases metrics.perTenant.lookup tenant with
    | none => exact (RouteCounters.counter_zero mem).symm
    | some found => rfl
  have sums := balanced.sums counter mem
  show counter (metrics.toRouteCounters.record decision outcome) =
    HashMap.sum _ (metrics.perTenant.insert tenant (own.recordRoute decision latency outcome))
  have recorded : counter (own.recordRoute decision latency outcome).toRouteCounters =
      counter (own.toRouteCounters.record decision outcome) := rfl
  omega

theorem Balanced.step {metrics : Metrics} (balanced : metrics.Balanced) (call : RouteCall) :
    (metrics.step call).Balanced where
  all := balanced.all.record (TenantMetrics.sparing_outcome _ _ _ _)
  own tenant own found := by
    have found : (metrics.perTenant.insert call.tenant _).lookup tenant = some own := found
    rw [HashMap.lookup_insert_eq] at found
    split_ifs at found with same
    · cases found
      exact (balanced.getOrDefault call.tenant).record (TenantMetrics.sparing_outcome _ _ _ _)
    · exact balanced.own tenant own found
  sums _ mem := balanced.sum_step call mem

/-- Every call is counted, whatever was decided. -/
theorem totalRoutes_step (metrics : Metrics) (call : RouteCall) :
    (metrics.step call).totalRoutes = metrics.totalRoutes + 1 := by
  unfold Metrics.step recordRoute RouteCounters.record
  cases call.decision <;> rfl

theorem totalRoutes_run (calls : List RouteCall) :
    (run step default calls).totalRoutes = calls.length := by
  induction calls using List.reverseRecOn with
  | nil => rfl
  | append_singleton calls call ih =>
      rw [run_concat, totalRoutes_step, ih, List.length_append, List.length_singleton]

theorem balanced_run (calls : List RouteCall) : (run step default calls).Balanced :=
  run_induction balanced_default (fun _ call balanced => balanced.step call) calls

/-- **The route counters add up** after every sequence of calls, and none of them is more than
the number of calls. -/
theorem tallies (calls : List RouteCall) :
    (run step default calls).Balanced ∧
      ∀ counter ∈ RouteCounters.each,
        counter (run step default calls).toRouteCounters ≤ calls.length := by
  refine ⟨balanced_run calls, fun counter mem => ?_⟩
  rw [← totalRoutes_run calls]
  exact (balanced_run calls).all.counter_le_totalRoutes mem

/-- What is reported as calls avoided are the successful routes. -/
theorem llmCallsAvoided_toResponse [Rounding] {metrics : Metrics} (balanced : metrics.Balanced)
    (router : Router) :
    (metrics.toResponse router).llmCallsAvoided = metrics.totalSuccessfulRoutes := by
  show metrics.totalRoutes - metrics.totalEscalations = _
  rw [balanced.all.routes, Nat.add_sub_cancel]

end Metrics

end TrustRouter
