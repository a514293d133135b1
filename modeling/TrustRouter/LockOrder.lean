import TrustRouter.Prelude.Locks
import TrustRouter.Reroutes

/-!
# The locks of the sidecar

Requests, the recovery loop and whoever else has a clone of the router run side by side and
share four locks: those of the rate limiter and of the metrics, the router's `RwLock` and the
mutex of the audit pipeline.  Two of them are taken while another is held: events are pushed
under the lock of the router, and the metrics look up the health of nodes under theirs.

Each method is written out with its locks (`Operation.locked`), and what it does alone is what
the method does at once (`alone_locked`).  Every method takes the locks in the order of
`SidecarLock.rank` and reads and writes under the lock that guards what it reads or writes
(`follows_locked`).  So whatever is run on however many threads, and whoever gets a lock that is
free, the sidecar never comes to a halt (`never_stuck`).
-/

namespace TrustRouter

open Program

inductive SidecarLock where
  | rateLimiter
  | metrics
  | router
  | audit
  deriving DecidableEq

/-- The order in which locks are taken. -/
def SidecarLock.rank : SidecarLock → ℕ
  | rateLimiter => 0
  | metrics => 1
  | router => 2
  | audit => 3

/-! ## Sections -/

/-- What is done in one go under a lock. -/
inductive Section where
  | tryAcquire (now : Instant)
  /-- The look-up of `route` under the read lock. -/
  | routeFast (tenantId : TenantId) (start goal : NodeId)
  | routeSlow (tenantId : TenantId) (start goal : NodeId)
  /-- What another method of the router does under the write lock. -/
  | perform (op : Op)
  | nodeState (tenantId : TenantId) (nodeId : NodeId)
  | push (event : AuditEvent)
  | lastEvent
  | events
  | readMetrics
  | recordRoute (tenant : TenantId) (decision : RouteDecision) (latency : Duration)
      (penaltyPathAvailable : Bool)
  | recordPlan (outcome : PlanOutcome) (latency : Duration)

namespace Section

/-- What a section answers; one of the router answers with the events to be pushed. -/
@[reducible] def Answer : Section → Type
  | tryAcquire _ => Except SidecarError Unit
  | routeFast _ _ _ => Option (RouteDecision × List AuditEvent)
  | routeSlow _ _ _ => RouteDecision × List AuditEvent
  | perform _ => TrustRouter.Answer × List AuditEvent
  | nodeState _ _ => Option NodeState
  | push _ => Unit
  | lastEvent => Option AuditEvent
  | events => List AuditEvent
  | readMetrics => Metrics
  | recordRoute _ _ _ _ => RouteMetricOutcome
  | recordPlan _ _ => Unit

/-- The lock that guards what a section reads or writes. -/
def guard : Section → SidecarLock × LockMode
  | tryAcquire _ => (.rateLimiter, .exclusive)
  | routeFast _ _ _ | nodeState _ _ => (.router, .shared)
  | routeSlow _ _ _ | perform _ => (.router, .exclusive)
  | push _ | lastEvent | events => (.audit, .exclusive)
  | readMetrics | recordRoute _ _ _ _ | recordPlan _ _ => (.metrics, .exclusive)

end Section

abbrev sectionInterface : Interface := ⟨Section, Section.Answer⟩

/-- A section needs its guard. -/
def Guarded (call : Section) (held : Held SidecarLock) : Prop := call.guard ∈ held

/-- Methods with their locks. -/
abbrev Locked (α : Type) := Program (Locking SidecarLock sectionInterface) α

/-! ## Methods -/

/-- What threads do: the calls of the sidecar on what it shares. -/
inductive Operation where
  /-- A token for each of some readings of the clock. -/
  | tryAcquire (readings : List Instant)
  | perform (op : Op)
  | nodeState (tenantId : TenantId) (nodeId : NodeId)
  | lastAuditEvent
  | events
  | recordRoute (tenant : TenantId) (decision : RouteDecision) (latency : Duration)
  | recordPlan (outcome : PlanOutcome) (latency : Duration)
  | toResponse

def Operation.Answer : Operation → Type
  | tryAcquire _ => Except SidecarError Unit
  | perform _ => TrustRouter.Answer
  | nodeState _ _ => Option NodeState
  | lastAuditEvent => Option AuditEvent
  | events => List AuditEvent
  | recordRoute _ _ _ => RouteMetricOutcome
  | recordPlan _ _ => Unit
  | toResponse => MetricsResponse

abbrev operationInterface : Interface := ⟨Operation, Operation.Answer⟩

namespace Locked

/-- One section under its lock. -/
def section_ (call : Section) : Locked call.Answer :=
  under call.guard.1 call.guard.2 (performed (I := sectionInterface) call)

/-- Events are pushed one by one. -/
def pushAll : List AuditEvent → Locked Unit
  | [] => done ()
  | event :: events => (section_ (.push event)).bind fun _ => pushAll events

/-- Push the events of a hit. -/
def pushHit : Option (RouteDecision × List AuditEvent) → Locked (Option RouteDecision)
  | some (decision, pushed) => (pushAll pushed).bind fun _ => done (some decision)
  | none => done none

/-- A route that is in the cache is found under the read lock, every other one under the write
lock. -/
def route (tenantId : TenantId) (start goal : NodeId) : Locked RouteDecision :=
  (under .router .shared <|
    (performed (I := sectionInterface) (.routeFast tenantId start goal)).bind pushHit).bind fun
  | some decision => done decision
  | none => under .router .exclusive <|
      (performed (I := sectionInterface) (.routeSlow tenantId start goal)).bind fun result =>
        (pushAll result.2).bind fun _ => done result.1

/-- A method that works under the write lock. -/
def write (op : Op) : Locked Answer :=
  under .router .exclusive <|
    (performed (I := sectionInterface) (.perform op)).bind fun result =>
      (pushAll result.2).bind fun _ => done result.1

/-- A method that sets what has been checked; what is not valid takes no lock. -/
def configure (checked : Except RouterError Unit) (op : Op) : Locked Answer :=
  match checked with
  | .ok _ => write op
  | .error error => done (.configured (.error error))

def perform : Op → Locked Answer
  | .route tenantId start goal =>
      (route tenantId start goal).bind fun decision => done (.decision decision)
  | .setCostModel tenantId costModel =>
      (configure costModel.validate (.trySetCostModel tenantId costModel)).bind fun _ => done .unit
  | .trySetCostModel tenantId costModel =>
      configure costModel.validate (.trySetCostModel tenantId costModel)
  | .trySetHealthPolicy tenantId policy =>
      configure policy.validate (.trySetHealthPolicy tenantId policy)
  | op => write op

/-- Tokens are acquired one by one, under one lock. -/
def tryAcquireAll : List Instant → Locked (Except SidecarError Unit)
  | [] => done (.ok ())
  | now :: rest => (performed (I := sectionInterface) (.tryAcquire now)).bind fun
      | .ok _ => tryAcquireAll rest
      | .error error => done (.error error)

/-- The states of a node that allow a penalised path. -/
def penalised : Option NodeState → Bool
  | some .degraded | some .halfOpen => true
  | _ => false

/-- Nodes are looked up until one allows a penalised path. -/
def penaltyPathAvailable (tenant : TenantId) : List NodeId → Locked Bool
  | [] => done false
  | node :: nodes => (section_ (.nodeState tenant node)).bind fun state =>
      bif penalised state then done true else penaltyPathAvailable tenant nodes

/-- `Metrics::record_route`, under the lock of the metrics. -/
def recordRoute (tenant : TenantId) (decision : RouteDecision) (latency : Duration) :
    Locked RouteMetricOutcome :=
  under .metrics .exclusive <|
    (match decision with
      | .routed _ => done false
      | .escalate _ => penaltyPathAvailable tenant knownNodes).bind fun available =>
        performed (I := sectionInterface) (.recordRoute tenant decision latency available)

def nodeHealth (tenant : TenantId) : List NodeId → Locked (List (NodeId × String))
  | [] => done []
  | node :: nodes => (section_ (.nodeState tenant node)).bind fun state =>
      (nodeHealth tenant nodes).bind fun others =>
        done ((node, (state.map NodeState.debug).getD "Healthy") :: others)

variable [Rounding]

/-- The fields of a report, with the health of the nodes it shows. -/
def report (counters : RouteCounters) (latencies : BoundedLatencies)
    (health : List (NodeId × String)) : TenantMetricsResponse where
  totalRoutes := counters.totalRoutes
  totalSuccessfulRoutes := counters.totalSuccessfulRoutes
  totalReroutes := counters.totalReroutes
  totalEscalations := counters.totalEscalations
  escalationRate := rate counters.totalEscalations counters.totalRoutes
  llmCallsAvoided := counters.totalRoutes - counters.totalEscalations
  falseEscalations := counters.falseEscalations
  falseEscalationRate := rate counters.falseEscalations counters.totalRoutes
  cacheHits := counters.cacheHits
  cacheMisses := counters.cacheMisses
  cacheHitRatio := rate counters.cacheHits (counters.cacheHits + counters.cacheMisses)
  nodeHealth := health
  routeLatencyUs := latencies.percentiles

/-- The report on each tenant. -/
def tenantReports : List (TenantId × TenantMetrics) →
    Locked (List (TenantId × TenantMetricsResponse))
  | [] => done []
  | (tenant, metrics) :: rest => (nodeHealth tenant knownNodes).bind fun health =>
      (tenantReports rest).bind fun others =>
        done ((tenant, report metrics.toRouteCounters metrics.routeLatencies health) :: others)

/-- `Metrics::to_response`, under the lock of the metrics. -/
def toResponse : Locked MetricsResponse :=
  under .metrics .exclusive <|
    (performed (I := sectionInterface) .readMetrics).bind fun metrics =>
    (tenantReports (metrics.perTenant.entries.map fun entry => (entry.1, entry.2))).bind
      fun tenants =>
    (nodeHealth SidecarConfig.defaultTenant knownNodes).bind fun health =>
      done
        { toTenantMetricsResponse := report metrics.toRouteCounters metrics.routeLatencies health
          totalPlans := metrics.totalPlans
          successfulPlans := metrics.successfulPlans
          recoveryPlans := metrics.recoveryPlans
          planLatencyUs := metrics.planLatencies.percentiles
          tenants := tenants }

end Locked

namespace Operation

variable [Rounding]

/-- An operation with its locks. -/
def locked : (operation : Operation) → Locked operation.Answer
  | tryAcquire readings => under .rateLimiter .exclusive (Locked.tryAcquireAll readings)
  | perform op => Locked.perform op
  | nodeState tenantId nodeId => Locked.section_ (.nodeState tenantId nodeId)
  | lastAuditEvent => Locked.section_ .lastEvent
  | events => Locked.section_ .events
  | recordRoute tenant decision latency => Locked.recordRoute tenant decision latency
  | recordPlan outcome latency => Locked.section_ (.recordPlan outcome latency)
  | toResponse => Locked.toResponse

/-- What it does at once. -/
def serve : Server operationInterface AppState
  | state, .tryAcquire readings => AppState.acquireTokens readings state
  | state, .perform op =>
      ((state.router.perform op).2, { state with router := state.router.step op })
  | state, .nodeState tenantId nodeId => (state.router.inner.nodeState tenantId nodeId, state)
  | state, .lastAuditEvent => AppState.callLastAuditEvent state
  | state, .events => (state.router.events, state)
  | state, .recordRoute tenant decision latency =>
      AppState.recordRoute tenant decision latency state
  | state, .recordPlan outcome latency =>
      ((), { state with metrics := state.metrics.recordPlan outcome latency })
  | state, .toResponse => (state.metrics.toResponse state.router, state)

end Operation

/-! ### What sections do -/

/-- What a decision counts as, where it is known whether a penalised path is available. -/
def TenantMetrics.outcomeGiven (metrics : TenantMetrics) (available : Bool) :
    RouteDecision → RouteMetricOutcome
  | .routed route =>
      let pathChanged := metrics.lastSuccessfulPath.any fun previous => previous != route.nodes
      { rerouted := pathChanged && !route.cacheHit }
  | .escalate _ => { falseEscalation := available }

/-- Count a decision on a tenant as what it is. -/
def Metrics.count (metrics : Metrics) (tenant : TenantId) (decision : RouteDecision)
    (latency : Duration) (outcome : RouteMetricOutcome) : Metrics :=
  { metrics with
    toRouteCounters := metrics.toRouteCounters.record decision outcome
    routeLatencies := metrics.routeLatencies.push latency
    perTenant := metrics.perTenant.insert tenant
      ((metrics.perTenant.getOrDefault tenant).recordRoute decision latency outcome) }

/-- What the sidecar does in a section. -/
def Section.serve [Rounding] : Server sectionInterface AppState
  | state, .tryAcquire now => AppState.tryAcquire now state
  | state, .routeFast tenantId start goal =>
      ((state.router.inner.routeFast tenantId start goal).map fun effect =>
        (effect.answer, effect.pushed), state)
  | state, .routeSlow tenantId start goal =>
      let effect := state.router.inner.routeSlow tenantId start goal
      ((effect.answer, effect.pushed),
        { state with router := { state.router with inner := effect.state } })
  | state, .perform op =>
      let effect := state.router.inner.perform op
      ((effect.answer, effect.pushed),
        { state with router := { state.router with inner := effect.state } })
  | state, .nodeState tenantId nodeId => (state.router.inner.nodeState tenantId nodeId, state)
  | state, .push event =>
      ((), { state with router := { state.router with audit := state.router.audit.push event } })
  | state, .lastEvent => (state.router.lastAuditEvent, state)
  | state, .events => (state.router.events, state)
  | state, .readMetrics => (state.metrics, state)
  | state, .recordRoute tenant decision latency available =>
      let outcome := (state.metrics.perTenant.getOrDefault tenant).outcomeGiven available decision
      (outcome, { state with metrics := state.metrics.count tenant decision latency outcome })
  | state, .recordPlan outcome latency =>
      ((), { state with metrics := state.metrics.recordPlan outcome latency })

/-! ## Order -/

section Order

/-- All locks held are of lower rank. -/
def Below (least : ℕ) (held : Held SidecarLock) : Prop := ∀ entry ∈ held, entry.1.rank < least

/-- The lock taken last is this one. -/
def Inside (guard : SidecarLock × LockMode) (held : Held SidecarLock) : Prop :=
  ∃ rest, held = guard :: rest ∧ Below guard.1.rank rest

/-- A method keeps the order wherever it is called, and leaves the locks as they were. -/
def Steady {α : Type} (P : Held SidecarLock → Prop) (method : Locked α) : Prop :=
  ∀ held, P held → method.Follows SidecarLock.rank Guarded held held

variable {α β : Type} {P Q : Held SidecarLock → Prop}

theorem steady_done (result : α) : Steady P (done result) := fun _ _ => rfl

theorem Steady.bind {method : Locked α} {next : α → Locked β} (steady : Steady P method)
    (rest : ∀ result, Steady P (next result)) : Steady P (method.bind next) :=
  fun held allowed => follows_bind (steady held allowed) fun result => rest result held allowed

theorem Steady.mono {method : Locked α} (steady : Steady Q method) (imp : ∀ held, P held → Q held) :
    Steady P method := fun held allowed => steady held (imp held allowed)

theorem Inside.below {guard : SidecarLock × LockMode} {held : Held SidecarLock}
    (inside : Inside guard held) : Below (guard.1.rank + 1) held := by
  obtain ⟨rest, rfl, below⟩ := inside
  exact List.forall_mem_cons.mpr
    ⟨Nat.lt_succ_self _, fun entry mem => (below entry mem).trans (Nat.lt_succ_self _)⟩

theorem steady_performed (call : Section) {guard : SidecarLock × LockMode}
    (guarded : call.guard = guard) :
    Steady (Inside guard) (performed (I := sectionInterface) call) := by
  rintro held ⟨rest, rfl, -⟩
  exact follows_performed (show call.guard ∈ _ by simp [guarded])

theorem steady_under (lock : SidecarLock) {mode : LockMode} {least : ℕ} (le : least ≤ lock.rank)
    {body : Locked α} (steady : Steady (Inside (lock, mode)) body) :
    Steady (Below least) (under lock mode body) := by
  intro held below
  have lower : Below lock.rank held := fun entry mem => (below entry mem).trans_le le
  exact follows_under lower (steady _ ⟨held, rfl, lower⟩)

/-- A method inside of a lock of lower rank. -/
theorem Steady.inside {guard : SidecarLock × LockMode} {least : ℕ} (lt : guard.1.rank < least)
    {method : Locked α} (steady : Steady (Below least) method) : Steady (Inside guard) method :=
  steady.mono fun _ inside entry mem => (inside.below entry mem).trans_le lt

theorem steady_section (call : Section) {least : ℕ} (le : least ≤ call.guard.1.rank) :
    Steady (Below least) (Locked.section_ call) :=
  steady_under _ le (steady_performed call rfl)

theorem steady_pushAll (pushed : List AuditEvent) : Steady (Below 3) (Locked.pushAll pushed) := by
  induction pushed with
  | nil => exact steady_done ()
  | cons event pushed ih =>
      have first : Steady (Below 3) (Locked.section_ (.push event)) :=
        steady_section (.push event) (Nat.le_refl 3)
      exact first.bind fun _ => ih

/-- Events are pushed under the lock of the router. -/
theorem steady_pushed (mode : LockMode) (pushed : List AuditEvent) (result : α) :
    Steady (Inside (.router, mode)) ((Locked.pushAll pushed).bind fun _ => done result) :=
  ((steady_pushAll pushed).inside (show 2 < 3 by decide)).bind fun _ => steady_done result

theorem steady_write (op : Op) : Steady (Below 2) (Locked.write op) := by
  refine steady_under .router (Nat.le_refl 2) ?_
  refine (steady_performed (.perform op) rfl).bind fun result => ?_
  exact steady_pushed .exclusive result.2 result.1

theorem steady_route (tenantId : TenantId) (start goal : NodeId) :
    Steady (Below 2) (Locked.route tenantId start goal) := by
  have fast : ∀ hit : Option (RouteDecision × List AuditEvent),
      Steady (Inside (.router, .shared)) (Locked.pushHit hit) := by
    intro hit
    cases hit with
    | none => exact steady_done none
    | some hit => exact steady_pushed .shared hit.2 (some hit.1)
  refine Steady.bind ?_ fun hit => ?_
  · refine steady_under .router (Nat.le_refl 2) ?_
    exact (steady_performed (.routeFast tenantId start goal) rfl).bind fast
  · cases hit with
    | some decision => exact steady_done decision
    | none =>
        refine steady_under .router (Nat.le_refl 2) ?_
        refine (steady_performed (.routeSlow tenantId start goal) rfl).bind fun result => ?_
        exact steady_pushed .exclusive result.2 result.1

theorem steady_configure (checked : Except RouterError Unit) (op : Op) :
    Steady (Below 2) (Locked.configure checked op) := by
  cases checked with
  | ok _ => exact steady_write op
  | error error => exact steady_done _

theorem steady_perform (op : Op) : Steady (Below 2) (Locked.perform op) := by
  cases op with
  | route tenantId start goal =>
      exact (steady_route tenantId start goal).bind fun _ => steady_done _
  | setCostModel tenantId costModel => exact (steady_configure _ _).bind fun _ => steady_done _
  | trySetCostModel tenantId costModel => exact steady_configure _ _
  | trySetHealthPolicy tenantId policy => exact steady_configure _ _
  | _ => exact steady_write _

theorem steady_tryAcquireAll (readings : List Instant) :
    Steady (Inside (.rateLimiter, .exclusive)) (Locked.tryAcquireAll readings) := by
  induction readings with
  | nil => exact steady_done _
  | cons now rest ih =>
      refine (steady_performed (.tryAcquire now) rfl).bind fun result => ?_
      cases result with
      | ok _ => exact ih
      | error error => exact steady_done _

theorem steady_nodeState (tenantId : TenantId) (nodeId : NodeId) :
    Steady (Below 2) (Locked.section_ (.nodeState tenantId nodeId)) :=
  steady_section (.nodeState tenantId nodeId) (Nat.le_refl 2)

theorem steady_penaltyPathAvailable (tenant : TenantId) (nodes : List NodeId) :
    Steady (Below 2) (Locked.penaltyPathAvailable tenant nodes) := by
  induction nodes with
  | nil => exact steady_done _
  | cons node nodes ih =>
      refine (steady_nodeState tenant node).bind fun state => ?_
      cases Locked.penalised state with
      | true => exact steady_done true
      | false => exact ih

theorem steady_nodeHealth (tenant : TenantId) (nodes : List NodeId) :
    Steady (Below 2) (Locked.nodeHealth tenant nodes) := by
  induction nodes with
  | nil => exact steady_done _
  | cons node nodes ih =>
      exact (steady_nodeState tenant node).bind fun _ => ih.bind fun _ => steady_done _

theorem steady_recordRoute (tenant : TenantId) (decision : RouteDecision) (latency : Duration) :
    Steady (Below 1) (Locked.recordRoute tenant decision latency) := by
  refine steady_under .metrics (Nat.le_refl 1) ?_
  refine Steady.bind ?_ fun available : Bool => steady_performed _ rfl
  cases decision with
  | routed route => exact steady_done false
  | escalate context =>
      exact (steady_penaltyPathAvailable tenant knownNodes).inside (show 1 < 2 by decide)

variable [Rounding]

theorem steady_tenantReports (tenants : List (TenantId × TenantMetrics)) :
    Steady (Below 2) (Locked.tenantReports tenants) := by
  induction tenants with
  | nil => exact steady_done _
  | cons tenant tenants ih =>
      exact (steady_nodeHealth tenant.1 knownNodes).bind fun _ => ih.bind fun _ => steady_done _

theorem steady_toResponse : Steady (Below 1) Locked.toResponse := by
  refine steady_under .metrics (Nat.le_refl 1) ?_
  refine (steady_performed .readMetrics rfl).bind fun metrics => ?_
  refine ((steady_tenantReports _).inside (show 1 < 2 by decide)).bind fun tenants => ?_
  refine ((steady_nodeHealth _ knownNodes).inside (show 1 < 2 by decide)).bind fun health => ?_
  exact steady_done _

/-- **Every method keeps the order**, works under the locks that guard what it reads and writes,
and leaves none behind. -/
theorem follows_locked (operation : Operation) :
    operation.locked.Follows SidecarLock.rank Guarded [] [] := by
  have nothing : ∀ least, Below least [] := fun least entry mem => absurd mem List.not_mem_nil
  cases operation with
  | tryAcquire readings =>
      exact steady_under .rateLimiter (Nat.le_refl 0) (steady_tryAcquireAll readings) []
        (nothing 0)
  | perform op => exact steady_perform op [] (nothing 2)
  | nodeState tenantId nodeId => exact steady_nodeState tenantId nodeId [] (nothing 2)
  | lastAuditEvent =>
      exact steady_section .lastEvent (Nat.le_refl 3) [] (nothing 3)
  | events => exact steady_section .events (Nat.le_refl 3) [] (nothing 3)
  | recordRoute tenant decision latency =>
      exact steady_recordRoute tenant decision latency [] (nothing 1)
  | recordPlan outcome latency =>
      exact steady_section (.recordPlan outcome latency) (Nat.le_refl 1) [] (nothing 1)
  | toResponse => exact steady_toResponse [] (nothing 1)

end Order

/-! ## Alone -/

section Alone

variable [Rounding] (state : AppState)

/-- The sidecar after events have been pushed. -/
def AppState.pushAll (pushed : List AuditEvent) : AppState :=
  { state with router := { state.router with audit := state.router.audit.pushAll pushed } }

@[simp] theorem alone_section (call : Section) :
    alone Section.serve state (Locked.section_ call) = Section.serve state call := by
  rw [Locked.section_, alone_under, alone_performed]

@[simp] theorem alone_pushAll (pushed : List AuditEvent) :
    alone Section.serve state (Locked.pushAll pushed) = ((), state.pushAll pushed) := by
  induction pushed generalizing state with
  | nil => rfl
  | cons event pushed ih =>
      rw [Locked.pushAll, alone_bind, ih, alone_section]
      rfl

omit [Rounding] in
/-- A look-up under the read lock changes nothing. -/
theorem RouterState.state_of_routeFast {router : RouterState} {tenantId : TenantId}
    {start goal : NodeId} {hit : Effect RouteDecision}
    (found : router.routeFast tenantId start goal = some hit) : hit.state = router := by
  simp only [RouterState.routeFast, Option.bind_eq_bind, Option.bind_eq_some_iff,
    Option.some.injEq] at found
  obtain ⟨tenant, -, route, -, rfl⟩ := found
  rfl

theorem alone_write (op : Op) :
    alone Section.serve state (Locked.write op) =
      ((state.router.perform op).2, { state with router := state.router.step op }) := by
  rw [Locked.write, alone_under, alone_bind, alone_performed, alone_bind, alone_pushAll, alone_done]
  rfl

theorem alone_configure {checked : Except RouterError Unit} {op : Op}
    (refused : ∀ error, checked = .error error →
      state.router.inner.perform op = ⟨state.router.inner, .configured (.error error), []⟩) :
    alone Section.serve state (Locked.configure checked op) =
      ((state.router.perform op).2, { state with router := state.router.step op }) := by
  cases checked with
  | ok _ => exact alone_write state op
  | error error =>
      rw [Router.step, Router.perform, refused error rfl]
      rfl

theorem alone_route (tenantId : TenantId) (start goal : NodeId) :
    alone Section.serve state (Locked.perform (.route tenantId start goal)) =
      ((state.router.perform (.route tenantId start goal)).2,
        { state with router := state.router.step (.route tenantId start goal) }) := by
  rw [Locked.perform, Locked.route, alone_bind, alone_bind, alone_under, alone_bind,
    alone_performed]
  cases hit : state.router.inner.routeFast tenantId start goal with
  | some effect =>
      have same := RouterState.state_of_routeFast hit
      simp only [Section.serve, hit, Option.map_some, Locked.pushHit, alone_bind, alone_pushAll,
        alone_done, Router.step, Router.perform, RouterState.perform, RouterState.route,
        Option.getD_some, Effect.map, same, AppState.pushAll]
  | none =>
      simp only [Section.serve, hit, Option.map_none, Locked.pushHit, alone_done, alone_under,
        alone_bind, alone_pushAll, Router.step, Router.perform, RouterState.perform,
        RouterState.route, Option.getD_none, Effect.map, AppState.pushAll]
      rfl

theorem alone_perform (op : Op) :
    alone Section.serve state (Locked.perform op) =
      ((state.router.perform op).2, { state with router := state.router.step op }) := by
  cases op with
  | route tenantId start goal => exact alone_route state tenantId start goal
  | setCostModel tenantId costModel =>
      rw [Locked.perform, alone_bind, alone_configure, alone_done]
      · rfl
      · intro error invalid
        simp [RouterState.perform, RouterState.trySetCostModel, invalid, Effect.map]
  | trySetCostModel tenantId costModel =>
      refine alone_configure state fun error invalid => ?_
      simp [RouterState.perform, RouterState.trySetCostModel, invalid, Effect.map]
  | trySetHealthPolicy tenantId policy =>
      refine alone_configure state fun error invalid => ?_
      simp [RouterState.perform, RouterState.trySetHealthPolicy, invalid, Effect.map]
  | _ => exact alone_write state _

theorem alone_tryAcquireAll (readings : List Instant) :
    alone Section.serve state (Locked.tryAcquireAll readings) =
      AppState.acquireTokens readings state := by
  induction readings generalizing state with
  | nil => rfl
  | cons now rest ih =>
      rw [Locked.tryAcquireAll, alone_bind, alone_performed, AppState.acquireTokens]
      cases acquired : AppState.tryAcquire now state with
      | mk answer after =>
          have served : Section.serve state (.tryAcquire now) = (answer, after) := acquired
          rw [served]
          cases answer with
          | ok token =>
              rw [App.bind_of_ok acquired]
              exact ih after
          | error error =>
              rw [App.bind_of_error acquired]
              rfl

theorem alone_penaltyPathAvailable (tenant : TenantId) (nodes : List NodeId) :
    alone Section.serve state (Locked.penaltyPathAvailable tenant nodes) =
      (nodes.any fun node => Locked.penalised (state.router.inner.nodeState tenant node),
        state) := by
  induction nodes with
  | nil => rfl
  | cons node nodes ih =>
      rw [Locked.penaltyPathAvailable, alone_bind, alone_section, List.any_cons]
      simp only [Section.serve]
      cases Locked.penalised (state.router.inner.nodeState tenant node) with
      | true => rfl
      | false => exact ih

theorem alone_recordRoute (tenant : TenantId) (decision : RouteDecision) (latency : Duration) :
    alone Section.serve state (Locked.recordRoute tenant decision latency) =
      AppState.recordRoute tenant decision latency state := by
  unfold Locked.recordRoute
  cases decision with
  | routed route => rfl
  | escalate context =>
      rw [alone_under, alone_bind, alone_penaltyPathAvailable, alone_performed]
      rfl

theorem alone_nodeHealth (tenant : TenantId) (nodes : List NodeId) :
    alone Section.serve state (Locked.nodeHealth tenant nodes) =
      (nodes.map fun node =>
        (node, ((state.router.inner.nodeState tenant node).map NodeState.debug).getD "Healthy"),
        state) := by
  induction nodes with
  | nil => rfl
  | cons node nodes ih =>
      rw [Locked.nodeHealth, alone_bind, alone_section]
      show alone _ state _ = _
      rw [alone_bind, ih, alone_done]
      rfl

theorem alone_tenantReports (tenants : List (TenantId × TenantMetrics)) :
    alone Section.serve state (Locked.tenantReports tenants) =
      (tenants.map fun tenant => (tenant.1, tenant.2.toResponse state.router tenant.1), state) := by
  induction tenants with
  | nil => rfl
  | cons tenant tenants ih =>
      rw [Locked.tenantReports, alone_bind, alone_nodeHealth, alone_bind, ih, alone_done]
      rfl

theorem alone_toResponse :
    alone Section.serve state Locked.toResponse =
      (state.metrics.toResponse state.router, state) := by
  rw [Locked.toResponse, alone_under, alone_bind, alone_performed]
  show alone _ state _ = _
  rw [alone_bind, alone_tenantReports, alone_bind, alone_nodeHealth, alone_done]
  simp only [List.map_map]
  rfl

/-- **Alone, a method with its locks does what it does at once**, and it leaves no lock behind. -/
theorem alone_locked (operation : Operation) :
    alone Section.serve state operation.locked = Operation.serve state operation ∧
      operation.locked.Follows SidecarLock.rank Guarded [] [] := by
  refine ⟨?_, follows_locked operation⟩
  cases operation with
  | tryAcquire readings => exact (alone_under _ _ _).trans (alone_tryAcquireAll state readings)
  | perform op => exact alone_perform state op
  | nodeState tenantId nodeId => exact alone_section state _
  | lastAuditEvent => exact alone_section state _
  | events => exact alone_section state _
  | recordRoute tenant decision latency => exact alone_recordRoute state tenant decision latency
  | recordPlan outcome latency => exact alone_section state _
  | toResponse => exact alone_toResponse state

end Alone

/-! ## Side by side -/

section Together

variable [Rounding] {μ α : Type} (policy : LockPolicy μ SidecarLock sectionInterface α)

/-- Threads that make calls of the sidecar, before they start. -/
def Threads.ofClients (memory : μ) (state : AppState)
    (clients : List (Program operationInterface α)) :
    Threads μ AppState SidecarLock sectionInterface α :=
  Threads.start memory state (clients.map fun client => client.inline Operation.locked)

theorem Threads.sound_ofClients (memory : μ) (state : AppState)
    (clients : List (Program operationInterface α)) :
    (Threads.ofClients memory state clients).Sound SidecarLock.rank Guarded := by
  refine Threads.sound_start memory state fun program mem => ?_
  obtain ⟨client, -, rfl⟩ := List.mem_map.mp mem
  exact follows_inline follows_locked client

/-- **The sidecar never comes to a halt.**  Whatever its threads call, however they are scheduled
and whoever is granted a lock that is free: two threads hold a lock at once only if they share it,
what is read or written is read and written under its lock, some thread can go on as long as not
all are done, no run goes on for ever, and all threads can be run to their ends. -/
theorem never_stuck (memory : μ) (state : AppState) (clients : List (Program operationInterface α))
    {threads : Threads μ AppState SidecarLock sectionInterface α}
    (run : Relation.ReflTransGen (Threads.Step policy Section.serve)
      (Threads.ofClients memory state clients) threads) :
    (threads.threads.Pairwise fun first second => Compatible first.held second.held) ∧
    (∀ thread ∈ threads.threads, ∀ call next,
      thread.program = .call (.perform call) next → call.guard ∈ thread.held) ∧
    (¬ threads.Finished → ∃ later, Threads.Step policy Section.serve threads later) ∧
    (¬ ∃ trace : ℕ → Threads μ AppState SidecarLock sectionInterface α, trace 0 = threads ∧
      ∀ n, Threads.Step policy Section.serve (trace n) (trace (n + 1))) ∧
    ∃ later, Relation.ReflTransGen (Threads.Step policy Section.serve) threads later ∧
      later.Finished := by
  have sound := (Threads.sound_ofClients memory state clients).run run
  refine ⟨sound.compatible, fun thread mem call next eq => ?_,
    Threads.exists_step policy Section.serve sound, ?_,
    Threads.exists_finished policy Section.serve sound⟩
  · have follows := sound.follows thread mem
    rw [eq] at follows
    exact follows.1
  · rintro ⟨trace, -, steps⟩
    exact (wellFounded_iff_isEmpty_descending_chain.mp
      (Threads.wellFounded_step policy Section.serve)).false ⟨trace, steps⟩

omit [Rounding] in
/-- A report and a new tenant, one step of the way. -/
theorem never_stuck_of_report_and_tenant :
    letI := Rounding.exact
    ∃ threads later, Threads.Step LockPolicy.eager Section.serve
        (Threads.ofClients ⟨⟩ AppState.sample
          [call (I := operationInterface) .toResponse fun _ => done (),
            call (I := operationInterface) (.perform (.addTenant "acme")) fun _ => done ()])
        threads ∧
      Relation.ReflTransGen (Threads.Step LockPolicy.eager Section.serve) threads later ∧
      later.Finished := by
  let _ := Rounding.exact
  obtain ⟨-, -, goOn, -⟩ := never_stuck LockPolicy.eager ⟨⟩ AppState.sample
    [call (I := operationInterface) .toResponse fun _ => done (),
      call (I := operationInterface) (.perform (.addTenant "acme")) fun _ => done ()] .refl
  obtain ⟨threads, step⟩ := goOn fun finished => absurd (finished _ (.head _)) (by decide)
  obtain ⟨-, -, -, -, later, run, finished⟩ := never_stuck _ _ _ _ (.single step)
  exact ⟨threads, later, step, run, finished⟩

end Together

end TrustRouter
