import Mathlib.Data.Nat.Cast.Order.Field
import TrustRouter.LatencyWindow
import TrustRouter.Prelude.Binary64
import TrustRouter.Reroutes
import TrustRouter.Tallies
import TrustRouter.Testimony

/-!
# Reports

What `/metrics` reports of the decisions that have been counted: the counters, rates that are
quotients of them, and percentiles of the latest latencies, of all decisions and of those of each
tenant.

A percentile is read off of the sorted latencies at a rank that is computed with three `f64`
operations and then rounded (`rank`).  It is one of the ranks around the exact quotient, whatever
the rounding (`rank_bounds`), so it never leaves the list, and no more of the latencies are above
or below what is read off than should be (`IsPercentile`).

The section of a tenant is the report of a sidecar that has only decided for this tenant
(`section_of_tenant`), and what is proved of the report of all decisions holds of each section too
(`report_sound`).
-/

namespace TrustRouter

/-! ## Ranks -/

/-- What is below an element of a sorted list comes before it. -/
theorem countP_gt_le_of_sorted {samples : List ℕ} (sorted : samples.Pairwise (· ≤ ·))
    {index sample : ℕ} (found : samples[index]? = some sample) :
    samples.countP (· < sample) ≤ index := by
  obtain ⟨inside, rfl⟩ := List.getElem?_eq_some_iff.mp found
  have behind : (samples.drop index).countP (· < samples[index]) = 0 := by
    rw [List.countP_eq_zero]
    intro sample mem
    obtain ⟨place, isInside, rfl⟩ := List.getElem_of_mem mem
    rw [List.length_drop] at isInside
    rw [List.getElem_drop]
    rcases Nat.eq_zero_or_pos place with rfl | pos
    · simp
    · have le := List.pairwise_iff_getElem.mp sorted index (index + place) inside (by omega)
        (by omega)
      simpa using le
  calc samples.countP (· < samples[index])
      = (samples.take index).countP (· < samples[index]) +
          (samples.drop index).countP (· < samples[index]) := by
        rw [← List.countP_append, List.take_append_drop]
    _ ≤ index := by
        rw [behind, Nat.add_zero]
        exact List.countP_le_length.trans (List.length_take_le _ _)

namespace F64

/-- What is between two numbers is rounded to something between them, if they are `f64` values. -/
theorem exists_round_between [Rounding] {p q r : ℚ} (ge : p ≤ q) (le : q ≤ r)
    (below : Rounding.round p = finite p) (above : Rounding.round r = finite r) :
    ∃ x, Rounding.round q = finite x ∧ p ≤ x ∧ x ≤ r := by
  have atLeast := Rounding.round_mono ge
  have atMost := Rounding.round_mono le
  rw [below] at atLeast
  rw [above] at atMost
  cases value : Rounding.round q with
  | finite x =>
      rw [value] at atLeast atMost
      exact ⟨x, rfl, finite_le_finite.mp atLeast, finite_le_finite.mp atMost⟩
  | nan =>
      rw [value] at atMost
      exact absurd atMost (not_nan_le _)
  | negInf =>
      rw [value] at atLeast
      cases atLeast
  | posInf =>
      rw [value] at atMost
      cases atMost

theorem toUsize_roundAway {r : ℚ} (nonneg : 0 ≤ r) (small : r < 2 ^ 53) :
    (finite r).roundAway.toUsize = ⌊r + 1 / 2⌋₊ := by
  have int : ⌊r + 1 / 2⌋ = (⌊r + 1 / 2⌋₊ : ℤ) :=
    (Int.natCast_floor_eq_floor (by linarith)).symm
  have bound : ⌊r + 1 / 2⌋₊ ≤ 2 ^ 64 - 1 := by
    refine Nat.le_of_lt_succ ((Nat.floor_lt (by linarith)).mpr ?_)
    norm_num
    linarith
  rw [roundAway, if_neg (not_lt.mpr nonneg), int, toUsize]
  push_cast
  rw [Nat.floor_natCast]
  exact Nat.min_eq_left bound

end F64

section Ranks

variable [Rounding]

/-- The rank at which a percentile of so many sorted latencies is read off. -/
def rank (count percent : ℕ) : ℕ :=
  (F64.ofRat (count - 1 : ℕ) * .ofRat percent / .ofRat 100).roundAway.toUsize

variable [Rounding.CountsExactly]

/-- The rank is the integer nearest to the quotient that has been computed. -/
theorem exists_rank {count percent : ℕ} (small : count ≤ BoundedLatencies.latencySampleLimit)
    (le : percent ≤ 100) :
    ∃ r, Rounding.round ((((count - 1) * percent : ℕ) : ℚ) / 100) = .finite r ∧
      (((count - 1) * percent / 100 : ℕ) : ℚ) ≤ r ∧
      r ≤ (((count - 1) * percent + 99) / 100 : ℕ) ∧ rank count percent = ⌊r + 1 / 2⌋₊ := by
  have bounded : (count - 1) * percent ≤ 4095 * 100 := by
    unfold BoundedLatencies.latencySampleLimit at small
    exact Nat.mul_le_mul (by omega) le
  have exactly : ∀ n : ℕ, n < 2 ^ 53 → F64.ofRat n = .finite n := fun n =>
    Rounding.CountsExactly.round_natCast
  have last := exactly (count - 1) (by unfold BoundedLatencies.latencySampleLimit at small; omega)
  have hundred : F64.ofRat 100 = .finite 100 := exactly 100 (by norm_num)
  have product : F64.finite ((count - 1 : ℕ) : ℚ) * .finite percent =
      .finite (((count - 1) * percent : ℕ) : ℚ) := by
    rw [F64.finite_mul_finite, ← Nat.cast_mul]
    exact exactly _ (by omega)
  have computed : rank count percent =
      (Rounding.round ((((count - 1) * percent : ℕ) : ℚ) / 100)).roundAway.toUsize := by
    rw [rank, last, exactly percent (by omega), hundred, product,
      F64.finite_div_finite _ (by norm_num)]
  generalize (count - 1) * percent = n at bounded computed ⊢
  have ge : ((n / 100 : ℕ) : ℚ) ≤ (n : ℚ) / 100 := Nat.cast_div_le
  have le : (n : ℚ) / 100 ≤ ((n + 99) / 100 : ℕ) := by
    rw [div_le_iff₀ (by norm_num)]
    exact_mod_cast (show n ≤ (n + 99) / 100 * 100 by omega)
  obtain ⟨r, value, below, above⟩ :=
    F64.exists_round_between ge le (exactly _ (by omega)) (exactly _ (by omega))
  refine ⟨r, value, below, above, ?_⟩
  have small : r < 2 ^ 53 := above.trans_lt (by exact_mod_cast (by omega : (n + 99) / 100 < 2 ^ 53))
  rw [computed, value, F64.toUsize_roundAway ((Nat.cast_nonneg _).trans below) small]

/-- **The rank is next to the exact quotient**, however the quotient is rounded. -/
theorem rank_bounds {count percent : ℕ} (small : count ≤ BoundedLatencies.latencySampleLimit)
    (le : percent ≤ 100) :
    (count - 1) * percent / 100 ≤ rank count percent ∧
      rank count percent ≤ ((count - 1) * percent + 99) / 100 := by
  obtain ⟨r, -, below, above, rank⟩ := exists_rank small le
  have nonneg : 0 ≤ r := (Nat.cast_nonneg _).trans below
  rw [rank]
  constructor
  · exact Nat.le_floor (by linarith)
  · refine Nat.le_of_lt_succ ((Nat.floor_lt (by linarith)).mpr ?_)
    push_cast
    linarith

/-- A greater percentile is read off at a greater rank. -/
theorem rank_mono {count percent percent' : ℕ}
    (small : count ≤ BoundedLatencies.latencySampleLimit) (le : percent ≤ percent')
    (le' : percent' ≤ 100) : rank count percent ≤ rank count percent' := by
  obtain ⟨r, value, -, -, rank⟩ := exists_rank small (le.trans le')
  obtain ⟨r', value', -, -, rank'⟩ := exists_rank small le'
  have quotients :
      (((count - 1) * percent : ℕ) : ℚ) / 100 ≤ ((count - 1) * percent' : ℕ) / 100 := by
    gcongr
  have rounded := Rounding.round_mono quotients
  rw [value, value', F64.finite_le_finite] at rounded
  rw [rank, rank']
  exact Nat.floor_mono (by linarith)

/-! ## Percentiles -/

omit [Rounding] [Rounding.CountsExactly] in
/-- In microseconds, a latency of which not too many others are above or below, or zero if there
are none. -/
def IsPercentile (latencies : List Duration) (percent us : ℕ) : Prop :=
  latencies = [] ∧ us = 0 ∨
    ∃ latency ∈ latencies, us = latency / 1000 ∧
      latencies.countP (latency < ·) ≤
        latencies.length - 1 - (latencies.length - 1) * percent / 100 ∧
      latencies.countP (· < latency) ≤ ((latencies.length - 1) * percent + 99) / 100

omit [Rounding.CountsExactly] in
/-- What is read off of sorted latencies. -/
theorem percentileUs_eq (sorted : List Duration) (percent : ℕ) :
    percentileUs sorted (.ofRat percent) = (sorted[rank sorted.length percent]?.getD 0) / 1000 := by
  cases sorted with
  | nil => simp [percentileUs]
  | cons latency rest => rfl

variable {latencies : List Duration} {percent : ℕ}

/-- The rank is that of a latency, if there are any. -/
theorem rank_lt (some : latencies ≠ [])
    (small : latencies.length ≤ BoundedLatencies.latencySampleLimit) (le : percent ≤ 100) :
    rank latencies.length percent < latencies.length := by
  have atMost := (rank_bounds small le).2
  have pos := List.length_pos_of_ne_nil some
  have bounded : (latencies.length - 1) * percent ≤ (latencies.length - 1) * 100 :=
    Nat.mul_le_mul le_rfl le
  omega

/-- **A percentile of sorted latencies.** -/
theorem isPercentile_percentileUs (sorted : latencies.Pairwise (· ≤ ·))
    (small : latencies.length ≤ BoundedLatencies.latencySampleLimit) (le : percent ≤ 100) :
    IsPercentile latencies percent (percentileUs latencies (.ofRat percent)) := by
  rcases eq_or_ne latencies [] with rfl | some
  · exact Or.inl ⟨rfl, rfl⟩
  have inside := rank_lt some small le
  have found := List.getElem?_eq_getElem inside
  obtain ⟨atLeast, atMost⟩ := rank_bounds small le
  refine Or.inr ⟨_, List.getElem_mem inside, ?_, ?_, ?_⟩
  · rw [percentileUs_eq, found]
    rfl
  · exact (countP_lt_le_of_sorted sorted found).trans (by omega)
  · exact (countP_gt_le_of_sorted sorted found).trans atMost

theorem percentileUs_mono (sorted : latencies.Pairwise (· ≤ ·))
    (small : latencies.length ≤ BoundedLatencies.latencySampleLimit) {percent' : ℕ}
    (le : percent ≤ percent') (le' : percent' ≤ 100) :
    percentileUs latencies (.ofRat percent) ≤ percentileUs latencies (.ofRat percent') := by
  rcases eq_or_ne latencies [] with rfl | some
  · exact le_rfl
  have inside := rank_lt some small (le.trans le')
  have inside' := rank_lt some small le'
  rw [percentileUs_eq, percentileUs_eq, List.getElem?_eq_getElem inside,
    List.getElem?_eq_getElem inside']
  refine Nat.div_le_div_right ?_
  rcases (rank_mono small le le').eq_or_lt with same | before
  · simp [same]
  · exact List.pairwise_iff_getElem.mp sorted _ _ inside inside' before

omit [Rounding] [Rounding.CountsExactly] in
theorem IsPercentile.of_perm {latencies' : List Duration} {us : ℕ}
    (isPercentile : IsPercentile latencies percent us) (perm : latencies.Perm latencies') :
    IsPercentile latencies' percent us := by
  rcases isPercentile with ⟨rfl, zero⟩ | ⟨latency, mem, eq, above, below⟩
  · exact Or.inl ⟨List.nil_perm.mp perm, zero⟩
  · rw [perm.countP_eq, perm.length_eq] at above below
    exact Or.inr ⟨latency, perm.mem_iff.mp mem, eq, above, below⟩

/-- What is reported of some latencies. -/
structure Describes (latencies : List Duration) (percentiles : LatencyPercentiles) : Prop where
  p50 : IsPercentile latencies 50 percentiles.p50
  p95 : IsPercentile latencies 95 percentiles.p95
  p99 : IsPercentile latencies 99 percentiles.p99
  ordered : percentiles.p50 ≤ percentiles.p95 ∧ percentiles.p95 ≤ percentiles.p99

/-- **The percentiles describe the latencies** they are computed from. -/
theorem describes_percentiles {kept : BoundedLatencies}
    (small : kept.values.length ≤ BoundedLatencies.latencySampleLimit) :
    Describes kept.values kept.percentiles := by
  have perm : (sortBy compare kept.values).Perm kept.values := perm_sortBy _ _
  have sorted : (sortBy compare kept.values).Pairwise (· ≤ ·) :=
    (pairwise_sortBy kept.values).imp Nat.isLE_compare.mp
  have small : (sortBy compare kept.values).length ≤ BoundedLatencies.latencySampleLimit := by
    rwa [perm.length_eq]
  have read : ∀ percent ≤ 100, IsPercentile kept.values percent
      (percentileUs (sortBy compare kept.values) (.ofRat percent)) := fun percent le =>
    (isPercentile_percentileUs sorted small le).of_perm perm
  exact ⟨read 50 (by norm_num), read 95 (by norm_num), read 99 (by norm_num),
    percentileUs_mono sorted small (by norm_num : 50 ≤ 95) (by norm_num),
    percentileUs_mono sorted small (by norm_num : 95 ≤ 99) (by norm_num)⟩

end Ranks

/-! ## Rates -/

/-- **A rate is a number between zero and one**, for counters of 64 bits. -/
theorem exists_rate {numerator denominator : ℕ} (le : numerator ≤ denominator)
    (fits : denominator < 2 ^ 64) :
    letI := Rounding.nearestEven
    ∃ q, rate numerator denominator = .finite q ∧ 0 ≤ q ∧ q ≤ 1 := by
  let _ := Rounding.nearestEven
  have := Rounding.countsExactly_nearestEven
  have zero : Rounding.round 0 = .finite 0 := Rounding.round_zero
  have one : Rounding.round 1 = .finite 1 := by
    simpa using Rounding.CountsExactly.round_natCast (show 1 < 2 ^ 53 by norm_num)
  have top : Rounding.round (2 ^ 64) = .finite (2 ^ 64) := by decide +kernel
  unfold rate
  split_ifs with none
  · exact ⟨0, rfl, le_rfl, zero_le_one⟩
  have most : (denominator : ℚ) ≤ 2 ^ 64 := by exact_mod_cast fits.le
  have ratio : (numerator : ℚ) ≤ denominator := by exact_mod_cast le
  obtain ⟨x, numeratorEq, nonneg, -⟩ :=
    F64.exists_round_between (Nat.cast_nonneg numerator) (ratio.trans most) zero top
  obtain ⟨y, denominatorEq, least, -⟩ :=
    F64.exists_round_between (by exact_mod_cast Nat.pos_of_ne_zero none : (1 : ℚ) ≤ denominator)
      most one top
  have below : x ≤ y := by
    have rounded := Rounding.round_mono ratio
    rwa [numeratorEq, denominatorEq, F64.finite_le_finite] at rounded
  have pos : 0 < y := by linarith
  rw [show F64.ofRat numerator = .finite x from numeratorEq,
    show F64.ofRat denominator = .finite y from denominatorEq, F64.finite_div_finite _ pos.ne']
  exact F64.exists_round_between (div_nonneg nonneg pos.le) ((div_le_one pos).mpr below) zero one

/-! ## Counting -/

/-- A call of `record_route` or of `record_plan`. -/
inductive MetricsCall where
  | route (call : Metrics.RouteCall)
  | plan (outcome : PlanOutcome) (latency : Duration)

namespace MetricsCall

def decided : MetricsCall → Option Metrics.RouteCall
  | route call => some call
  | plan _ _ => none

/-- A plan, with the time it has taken. -/
def planned : MetricsCall → Option (PlanOutcome × Duration)
  | route _ => none
  | plan outcome latency => some (outcome, latency)

end MetricsCall

/-- The part of `record_route` that concerns its tenant. -/
def TenantMetrics.step (own : TenantMetrics) (call : Metrics.RouteCall) : TenantMetrics :=
  own.recordRoute call.decision call.latency (own.outcome call.tenant call.router call.decision)

namespace Metrics

def tally (metrics : Metrics) : MetricsCall → Metrics
  | .route call => metrics.step call
  | .plan outcome latency => metrics.recordPlan outcome latency

/-- What has been counted by some calls. -/
def after (calls : List MetricsCall) : Metrics := run tally default calls

/-! ### Routes and plans -/

def withoutPlans (metrics : Metrics) : Metrics :=
  { metrics with
    totalPlans := 0
    successfulPlans := 0
    recoveryPlans := 0
    planLatencies := default }

/-- What is counted of the routes does not depend on the plans. -/
theorem withoutPlans_after (calls : List MetricsCall) :
    (after calls).withoutPlans = run step default (calls.filterMap MetricsCall.decided) := by
  refine view_run withoutPlans (fun metrics call => ?_) calls
  cases call with
  | route call => rfl
  | plan outcome latency => cases outcome <;> rfl

/-- What has been counted of some plans. -/
structure CountsPlans (metrics : Metrics) (plans : List (PlanOutcome × Duration)) : Prop where
  total : metrics.totalPlans = plans.length
  outcomes : metrics.totalPlans = metrics.successfulPlans + metrics.recoveryPlans
  latencies : metrics.planLatencies.values =
    Ring.latest BoundedLatencies.latencySampleLimit (plans.map Prod.snd)

theorem countsPlans_after (calls : List MetricsCall) :
    (after calls).CountsPlans (calls.filterMap MetricsCall.planned) := by
  have pos : 0 < BoundedLatencies.latencySampleLimit := by decide
  induction calls using List.reverseRecOn with
  | nil => exact ⟨rfl, rfl, rfl⟩
  | append_singleton calls call ih =>
      obtain ⟨total, outcomes, latencies⟩ := ih
      rw [after, run_concat, ← after, List.filterMap_append]
      cases call with
      | route call =>
          show CountsPlans _ (calls.filterMap MetricsCall.planned ++ [])
          rw [List.append_nil]
          exact ⟨total, outcomes, latencies⟩
      | plan outcome latency =>
          let later := (after calls).recordPlan outcome latency
          have one : later.totalPlans = (after calls).totalPlans + 1 := by
            cases outcome <;> rfl
          have either : later.successfulPlans + later.recoveryPlans =
              (after calls).successfulPlans + (after calls).recoveryPlans + 1 := by
            cases outcome with
            | execute plan => exact Nat.succ_add _ _
            | recover snapshot escalation recovery => rfl
          have pushed : later.planLatencies.values =
              Ring.push BoundedLatencies.latencySampleLimit (after calls).planLatencies.values
                latency := by
            cases outcome <;> rfl
          show later.CountsPlans (calls.filterMap MetricsCall.planned ++ [(outcome, latency)])
          refine ⟨?_, ?_, ?_⟩
          · rw [List.length_append, ← total]
            exact one
          · exact one.trans (outcomes ▸ either.symm)
          · rw [List.map_append, List.map_singleton, ← Ring.push_latest pos, ← latencies]
            exact pushed

/-! ### Tenants -/

/-- What is counted of a tenant is counted of its own calls. -/
theorem perTenant_run (calls : List RouteCall) (tenant : TenantId) :
    (run step default calls).perTenant.getOrDefault tenant =
      run TenantMetrics.step default (calls.filter (·.tenant = tenant)) := by
  let visible : RouteCall → Option RouteCall := Option.guard (·.tenant = tenant)
  have seen : calls.filterMap visible = calls.filter (·.tenant = tenant) :=
    congrFun List.filterMap_eq_filter calls
  rw [← seen]
  refine view_run (fun metrics : Metrics => metrics.perTenant.getOrDefault tenant)
    (fun metrics call => ?_) calls
  show HashMap.getOrDefault (metrics.perTenant.insert call.tenant _) tenant = _
  rw [HashMap.getOrDefault, HashMap.lookup_insert_eq]
  by_cases same : call.tenant = tenant
  · subst same
    rw [if_pos rfl, show visible call = some call from by simp [visible]]
    rfl
  · rw [if_neg (Ne.symm same), show visible call = none from by simp [visible, same]]
    rfl

/-- A tenant is listed once it has had a decision. -/
theorem isSome_lookup_run (calls : List RouteCall) (tenant : TenantId) :
    ((run step default calls).perTenant.lookup tenant).isSome = true ↔
      ∃ call ∈ calls, call.tenant = tenant := by
  induction calls using List.reverseRecOn with
  | nil => exact iff_of_false (by simp [show (default : Metrics).perTenant = ∅ from rfl]) (by simp)
  | append_singleton calls call ih =>
      rw [run_concat]
      have inserted : (step (run step default calls) call).perTenant =
          (run step default calls).perTenant.insert call.tenant _ := rfl
      rw [inserted, HashMap.lookup_insert_eq]
      by_cases same : call.tenant = tenant
      · simp [same]
      · rw [if_neg (Ne.symm same), ih]
        simp [same]

/-- For a single tenant, what is counted of all decisions is what is counted of the tenant. -/
theorem counters_of_one_tenant {calls : List RouteCall} {tenant : TenantId}
    (own : ∀ call ∈ calls, call.tenant = tenant) :
    (run step default calls).toRouteCounters =
        (run TenantMetrics.step default calls).toRouteCounters ∧
      (run step default calls).routeLatencies =
        (run TenantMetrics.step default calls).routeLatencies := by
  induction calls using List.reverseRecOn with
  | nil => exact ⟨rfl, rfl⟩
  | append_singleton calls call ih =>
      obtain ⟨others, last⟩ := List.forall_mem_append.mp own
      obtain rfl := last call (.head _)
      obtain ⟨counters, latencies⟩ := ih others
      have remembered := perTenant_run calls call.tenant
      rw [List.filter_eq_self.mpr (by simpa using others)] at remembered
      rw [run_concat, run_concat]
      constructor
      · show (run step default calls).toRouteCounters.record call.decision
          (((run step default calls).perTenant.getOrDefault call.tenant).outcome call.tenant
            call.router call.decision) = _
        rw [remembered, counters]
        rfl
      · show (run step default calls).routeLatencies.push call.latency = _
        rw [latencies]
        rfl

/-! ## Reports -/

/-- What is reported of some decisions. -/
structure Reported (calls : List RouteCall) (report : TenantMetricsResponse) : Prop where
  total : report.totalRoutes = calls.length
  /-- The calls avoided are the routes that have been found. -/
  avoided : report.llmCallsAvoided = calls.countP (·.decision.path.isSome)
  rates : ∀ rate ∈ [report.escalationRate, report.falseEscalationRate, report.cacheHitRatio],
    ∃ q, rate = .finite q ∧ 0 ≤ q ∧ q ≤ 1
  latencies :
    letI := Rounding.nearestEven
    Describes (Ring.latest BoundedLatencies.latencySampleLimit (calls.map RouteCall.latency))
      report.routeLatencyUs

theorem totalSuccessfulRoutes_run (calls : List RouteCall) :
    (run step default calls).totalSuccessfulRoutes = calls.countP (·.decision.path.isSome) := by
  induction calls using List.reverseRecOn with
  | nil => rfl
  | append_singleton calls call ih =>
      rw [run_concat, List.countP_append, ← ih]
      unfold step recordRoute RouteCounters.record
      cases decided : call.decision <;> simp [decided, RouteDecision.path]

theorem routeLatencies_run (calls : List RouteCall) :
    (run step default calls).routeLatencies.values =
      Ring.latest BoundedLatencies.latencySampleLimit (calls.map RouteCall.latency) := by
  have pos : 0 < BoundedLatencies.latencySampleLimit := by decide
  induction calls using List.reverseRecOn with
  | nil => rfl
  | append_singleton calls call ih =>
      rw [run_concat, List.map_append, List.map_singleton, ← Ring.push_latest pos, ← ih]
      rfl

/-- The report of all decisions. -/
theorem reported_run (calls : List RouteCall) (fits : calls.length < 2 ^ 64) (router : Router)
    (tenant : TenantId) :
    letI := Rounding.nearestEven
    Reported calls ((run step default calls).toRouteCounters.toResponse
      (run step default calls).routeLatencies router tenant) := by
  let _ := Rounding.nearestEven
  have := Rounding.countsExactly_nearestEven
  obtain ⟨routes, successful, -, falseEscalations⟩ := (balanced_run calls).all
  have total := totalRoutes_run calls
  have kept := routeLatencies_run calls
  refine ⟨total, ?_, ?_, ?_⟩
  · rw [← totalSuccessfulRoutes_run]
    show (run step default calls).totalRoutes - (run step default calls).totalEscalations = _
    omega
  · have bound : (run step default calls).totalRoutes < 2 ^ 64 := total.trans_lt fits
    simp only [List.forall_mem_cons, List.not_mem_nil, false_imp_iff, implies_true, and_true]
    exact ⟨exists_rate (by omega) bound, exists_rate (by omega) bound,
      exists_rate (Nat.le_add_right _ _) (by omega)⟩
  · show Describes _ (run step default calls).routeLatencies.percentiles
    rw [← kept]
    refine describes_percentiles ?_
    rw [kept, Ring.length_latest]
    exact Nat.min_le_right _ _

/-- The route calls of a tenant. -/
def decidedFor (calls : List MetricsCall) (tenant : TenantId) : List RouteCall :=
  (calls.filterMap MetricsCall.decided).filter (·.tenant = tenant)

section Sections

variable [Rounding] (calls : List MetricsCall) (router : Router)

omit [Rounding] in
theorem perTenant_after : (after calls).perTenant =
    (run step default (calls.filterMap MetricsCall.decided)).perTenant := by
  rw [← withoutPlans_after]
  rfl

/-- A section counts what a sidecar counts that has only decided for its tenant. -/
theorem eq_of_mem_tenants {entry : TenantId × TenantMetricsResponse}
    (mem : entry ∈ ((after calls).toResponse router).tenants) :
    let alone := run step default (decidedFor calls entry.1)
    entry.2 = alone.toRouteCounters.toResponse alone.routeLatencies router entry.1 := by
  intro alone
  obtain ⟨⟨tenant, own⟩, isEntry, rfl⟩ := List.mem_map.mp mem
  have found : (after calls).perTenant.lookup tenant = some own := AList.mem_lookup_iff.mpr isEntry
  have eq := perTenant_run (calls.filterMap MetricsCall.decided) tenant
  rw [← perTenant_after, HashMap.getOrDefault, found, Option.getD_some] at eq
  have isOwn : ∀ call ∈ decidedFor calls tenant, call.tenant = tenant := fun call mem => by
    simpa using (List.mem_filter.mp mem).2
  obtain ⟨counters, latencies⟩ := counters_of_one_tenant isOwn
  show own.toRouteCounters.toResponse own.routeLatencies router tenant = _
  rw [show alone = run step default (decidedFor calls tenant) from rfl, counters, latencies, eq]
  rfl

/-- **The section of a tenant** is the report of a sidecar that has only decided for this tenant. -/
theorem section_of_tenant :
    let report := (after calls).toResponse router
    (∀ tenant, tenant ∈ report.tenants.map Prod.fst ↔ decidedFor calls tenant ≠ []) ∧
      (report.tenants.map Prod.fst).Nodup ∧
      ∀ entry ∈ report.tenants,
        let alone := run step default (decidedFor calls entry.1)
        entry.2 = alone.toRouteCounters.toResponse alone.routeLatencies router entry.1 := by
  intro report
  have listed : report.tenants.map Prod.fst = (after calls).perTenant.keys := by
    show ((after calls).perTenant.entries.map _).map Prod.fst = _
    rw [List.map_map]
    rfl
  refine ⟨fun tenant => ?_, ?_, fun entry mem => eq_of_mem_tenants calls router mem⟩
  · rw [listed, ← AList.mem_keys, ← AList.lookup_isSome, perTenant_after, isSome_lookup_run,
      decidedFor, Ne, List.filter_eq_nil_iff]
    simp only [decide_eq_true_eq, not_forall, not_not, exists_prop]
  · rw [listed]
    exact AList.keys_nodup _

end Sections

/-- **The report.**  After any calls that are fewer than a counter of 64 bits can count, it says how
many decisions there have been and how many of them have found a route, its rates are numbers
between zero and one, and its percentiles are some of the latest latencies with the rest of them
above and below as they should be; and so it is with the section of each tenant and its decisions,
and with the plans and their latencies. -/
theorem report_sound (calls : List MetricsCall) (fits : calls.length < 2 ^ 64) (router : Router) :
    letI := Rounding.nearestEven
    let report := (after calls).toResponse router
    let plans := calls.filterMap MetricsCall.planned
    Reported (calls.filterMap MetricsCall.decided) report.toTenantMetricsResponse ∧
      (∀ entry ∈ report.tenants, Reported (decidedFor calls entry.1) entry.2) ∧
      report.totalPlans = plans.length ∧
      report.totalPlans = report.successfulPlans + report.recoveryPlans ∧
      Describes (Ring.latest BoundedLatencies.latencySampleLimit (plans.map Prod.snd))
        report.planLatencyUs := by
  let _ := Rounding.nearestEven
  have := Rounding.countsExactly_nearestEven
  intro report plans
  have fewer := List.length_filterMap_le MetricsCall.decided calls
  obtain ⟨total, outcomes, kept⟩ := countsPlans_after calls
  refine ⟨?_, fun entry mem => ?_, total, outcomes, ?_⟩
  · have all := reported_run (calls.filterMap MetricsCall.decided) (fewer.trans_lt fits) router
      SidecarConfig.defaultTenant
    rw [← withoutPlans_after] at all
    exact all
  · rw [eq_of_mem_tenants calls router mem]
    exact reported_run _ ((List.length_filter_le _ _).trans_lt (fewer.trans_lt fits)) router entry.1
  · rw [← kept]
    refine describes_percentiles ?_
    rw [kept, Ring.length_latest]
    exact Nat.min_le_right _ _

/-- One tenant is given a route, and another one is not known to the router. -/
theorem report_sound_of_two_tenants :
    letI := Rounding.nearestEven
    let calls : List MetricsCall :=
      [.route ⟨"acme", .routed ⟨["a", "b"], .finite 1, false⟩, 30, .new⟩,
        .route ⟨"umbrella", .escalate ⟨"umbrella", "a", "b", .tenantNotFound, []⟩, 20, .new⟩]
    let report := (after calls).toResponse .new
    Reported (calls.filterMap MetricsCall.decided) report.toTenantMetricsResponse ∧
      ∀ entry ∈ report.tenants, Reported (decidedFor calls entry.1) entry.2 := by
  intro calls sections
  obtain ⟨all, own, -⟩ := report_sound calls (show 2 < 2 ^ 64 by norm_num) .new
  exact ⟨all, own⟩

end Metrics

/-! ## The metrics of a sidecar -/

namespace App

variable {α β : Type}

/-- What the program does to the metrics are some calls. -/
def Counts (program : App α) : Prop :=
  ∀ state, ∃ calls, (program state).2.metrics = run Metrics.tally state.metrics calls

theorem SparesMetrics.counts {program : App α} (spares : program.SparesMetrics) :
    program.Counts := fun state => ⟨[], spares state⟩

theorem Counts.bind {first : App α} {next : α → App β} (counts : first.Counts)
    (rest : ∀ a, (next a).Counts) : (first >>= next).Counts := by
  intro state
  obtain ⟨calls, before⟩ := counts state
  cases ran : first state with
  | mk answer later =>
      rw [ran] at before
      cases answer with
      | error error =>
          rw [bind_of_error ran]
          exact ⟨calls, before⟩
      | ok a =>
          obtain ⟨calls', after⟩ := rest a later
          rw [bind_of_ok ran]
          exact ⟨calls ++ calls', by rw [after, run_append, ← before]⟩

theorem Counts.map {program : App α} (counts : program.Counts) (f : α → β) :
    (f <$> program).Counts := by
  rw [map_eq_pure_bind]
  exact counts.bind fun _ _ => ⟨[], rfl⟩

end App

namespace AppState

open App

variable [Rounding] (render : Json → String) (env : RequestEnvironment)

omit [Rounding] in
theorem sparesMetrics_persistBeforeResponse (event : AuditEvent) :
    (persistBeforeResponse render env event).SparesMetrics := by
  refine SparesMetrics.bind (fun _ => rfl) fun
    | .ok _ => fun _ => rfl
    | .error _ => fun _ => rfl

theorem counts_handleRoute (query : RouteQuery) : (handleRoute render env query).Counts := by
  intro state
  rw [handleRoute_apply]
  refine (sparesMetrics_persistBeforeResponse render env _).counts.bind (fun _ => ?_) _
  exact fun state => ⟨[.route ⟨query.tenant, _, env.elapsed 0, state.router⟩], rfl⟩

theorem counts_handlePlan (query : RouteQuery) : (handlePlan render env query).Counts := by
  refine Counts.bind (fun state => ⟨[], metrics_play render _⟩) fun
    | .error _ => fun _ => ⟨[], rfl⟩
    | .ok outcome => Counts.bind (fun _ => ⟨[], rfl⟩) fun
      | none => fun _ => ⟨[], rfl⟩
      | some event => (sparesMetrics_persistBeforeResponse render env event).counts.bind fun _ =>
          fun _ => ⟨[.plan outcome (env.elapsed 0)], rfl⟩

theorem exists_calls_routeBatchItems (items : List (BatchRouteItem × Duration))
    (progress : BatchProgress AuditEvent) (state : AppState) :
    ∃ calls, (routeBatchItems items progress state).2.metrics =
      run Metrics.tally state.metrics calls := by
  induction items generalizing progress state with
  | nil => exact ⟨[], rfl⟩
  | cons entry rest ih =>
      obtain ⟨item, elapsed⟩ := entry
      let decided := state.decide item.query
      obtain ⟨calls, eq⟩ := ih (progress.record decided.decision (some decided.event))
        (recordRoute item.tenant decided.decision elapsed decided.state).2
      rw [routeBatchItems_cons, eq]
      exact ⟨.route ⟨item.tenant, decided.decision, elapsed, decided.state.router⟩ :: calls, rfl⟩

theorem counts_routeBatch (requests : List BatchRouteItem) :
    (routeBatch render env requests).Counts := by
  refine Counts.bind (fun state => exists_calls_routeBatchItems _ {} state) fun progress =>
    Counts.bind (fun _ => ⟨[], rfl⟩) fun
      | .ok _ => fun _ => ⟨[], rfl⟩
      | .error _ => fun _ => ⟨[], rfl⟩

theorem counts_perform (call : ApiCall) : (perform render env call).Counts := by
  cases call with
  | route query => exact (counts_handleRoute render env query).map _
  | plan query => exact (counts_handlePlan render env query).map _
  | batch requests => exact (counts_routeBatch render env requests).map _
  | metrics => exact fun _ => ⟨[], rfl⟩
  | result query => exact fun _ => ⟨[], rfl⟩
  | forceHalfOpen query => exact fun _ => ⟨[], rfl⟩

variable [HeaderText] (headers : HeaderMap)

theorem counts_serve (call : ApiCall) : (serve render env headers call).Counts := by
  rw [serve_eq]
  exact (sparesMetrics_checks headers call).counts.bind fun _ =>
    (sparesMetrics_acquireTokens _).counts.bind fun _ => counts_perform render env call

/-- What requests do to the metrics are some calls. -/
theorem exists_calls_run [SerdeJson] (state : AppState) (arrivals : List Arrival) :
    ∃ calls, (run arrive state arrivals).metrics = run Metrics.tally state.metrics calls := by
  induction arrivals using List.reverseRecOn with
  | nil => exact ⟨[], rfl⟩
  | append_singleton arrivals arrival ih =>
      obtain ⟨calls, before⟩ := ih
      rw [run_concat]
      cases arrival with
      | operation op => exact ⟨calls, before⟩
      | request env headers call =>
          let counted := run arrive state arrivals
          obtain ⟨calls', after⟩ := counts_serve SerdeJson.toText env headers call
            { counted with nextRequestId := counted.nextRequestId + 1 }
          have served : (arrive counted (.request env headers call)).metrics =
              run Metrics.tally counted.metrics calls' :=
            (congrArg AppState.metrics
              (handle_snd SerdeJson.toText env headers counted call)).trans after
          exact ⟨calls ++ calls', by rw [served, run_append, ← before]⟩

/-- The same of requests that are served side by side. -/
theorem exists_calls_serveRequests (state : AppState) (tasks : ClientId → SidecarTask)
    (actions : List SidecarAction) :
    ∃ calls, (state.serveRequests render tasks actions).state.metrics = Metrics.after calls := by
  refine Clients.turns_induction (P := fun (state : AppState) _ =>
    ∃ calls, state.metrics = Metrics.after calls) ⟨[], rfl⟩ ?_ ?_
  · rintro client state log c ⟨calls, before⟩
    cases c with
    | authorize request =>
        exact ⟨calls, ((sparesMetrics_checks (tasks client).headers request).bind
          (fun _ => sparesMetrics_acquireTokens _) state).trans before⟩
    | recordRoute query decision latency =>
        refine ⟨calls ++ [.route ⟨query.tenant, decision, latency, state.router⟩], ?_⟩
        rw [Metrics.after, run_concat, ← Metrics.after, ← before]
        rfl
    | _ => exact ⟨calls, before⟩
  · rintro change mem state log ⟨calls, before⟩
    obtain ⟨action, -, same⟩ := List.mem_map.mp mem
    cases action with
    | request client => cases same
    | operate op =>
        cases same
        exact ⟨calls, before⟩

end AppState

end TrustRouter
