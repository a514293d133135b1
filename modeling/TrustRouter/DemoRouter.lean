import TrustRouter.Course
import TrustRouter.HealthRuns
import TrustRouter.Isolation
import TrustRouter.Sidecar
import TrustRouter.SidecarConfig

/-!
# The demo router and its settings

The sidecar starts with the router that `buildDemoRouter` makes of its configuration, and
gives the built-in tenant the configured cost model and health policy.  Every other tenant
comes into being when its first result is recorded, and has the settings of
`TenantState::default` from then on, because no request sets any.

So there are two kinds of tenants in every state that is reached (`Seeded`), and the
configuration governs a run exactly if no result in it is for an allowed tenant other than
the built-in one, or the two kinds have the same settings (`governed_iff`).
-/

namespace TrustRouter

/-- What the results of a tenant are judged by, and its routes weighed by. -/
def TenantState.settings (tenant : TenantState) : HealthPolicy × TenantCostModel :=
  (tenant.healthPolicy, tenant.costModel)

def SidecarConfig.settings (config : SidecarConfig) : HealthPolicy × TenantCostModel :=
  (config.healthPolicy, config.costModel)

open SidecarConfig

variable [Rounding]

/-! ## Start-up -/

namespace Router

def trySetCostModel (router : Router) (tenantId : TenantId) (costModel : TenantCostModel) :
    Except RouterError Router :=
  (router.inner.trySetCostModel tenantId costModel).answer.map fun _ =>
    router.step (.trySetCostModel tenantId costModel)

def trySetHealthPolicy (router : Router) (tenantId : TenantId) (policy : HealthPolicy) :
    Except RouterError Router :=
  (router.inner.trySetHealthPolicy tenantId policy).answer.map fun _ =>
    router.step (.trySetHealthPolicy tenantId policy)

end Router

def demoEdges : List Edge := [
  (Edge.new "start" "primary_search").withCosts (.finite 1) (.ofRat (1 / 1000)) 120
    (.ofRat (1 / 10)),
  (Edge.new "primary_search" "summarize").withCosts (.finite 1) (.ofRat (2 / 1000)) 320
    (.ofRat (2 / 10)),
  (Edge.new "start" "fallback_search").withCosts (.finite 10) (.ofRat (1 / 100)) 1000 (.finite 1),
  (Edge.new "fallback_search" "summarize").withCosts (.finite 5) (.ofRat (5 / 1000)) 800
    (.ofRat (5 / 10)),
  (Edge.new "summarize" "done").withCosts (.finite 1) (.ofRat (1 / 1000)) 120 (.ofRat (1 / 10))]

def buildDemoRouter (config : SidecarConfig) : Except RouterError Router := do
  let router := Router.new.step (.addTenant defaultTenant)
  let router ← router.trySetCostModel defaultTenant config.costModel
  let router ← router.trySetHealthPolicy defaultTenant config.healthPolicy
  return demoEdges.foldl (fun router edge => router.step (.addEdge defaultTenant edge)) router

/-- The calls that make the demo router, where none of them is refused. -/
def demoSetup (config : SidecarConfig) : List Op :=
  [.addTenant defaultTenant, .trySetCostModel defaultTenant config.costModel,
    .trySetHealthPolicy defaultTenant config.healthPolicy] ++
    demoEdges.map (.addEdge defaultTenant)

/-- A configuration that has been checked is not refused. -/
theorem buildDemoRouter_of_checked {config : SidecarConfig} (checked : config.Checked) :
    buildDemoRouter config = .ok (run Router.step Router.new (demoSetup config)) := by
  have costModel (router : Router) : router.trySetCostModel defaultTenant config.costModel =
      .ok (router.step (.trySetCostModel defaultTenant config.costModel)) := by
    unfold Router.trySetCostModel RouterState.trySetCostModel
    rw [checked.costModel]
    rfl
  have healthPolicy (router : Router) :
      router.trySetHealthPolicy defaultTenant config.healthPolicy =
        .ok (router.step (.trySetHealthPolicy defaultTenant config.healthPolicy)) := by
    unfold Router.trySetHealthPolicy RouterState.trySetHealthPolicy
    rw [checked.healthPolicy]
    rfl
  simp only [buildDemoRouter, costModel, healthPolicy]
  rfl

/-! ## What changes settings -/

namespace TenantState

variable {tenant : TenantState}

omit [Rounding] in
theorem settings_foldl_invalidateForNode (nodes : List NodeId) :
    (nodes.foldl invalidateForNode tenant).settings = tenant.settings := by
  simp [settings]

omit [Rounding] in
theorem settings_insertCache (key : RouteKey) (cached : CachedPath) :
    (tenant.insertCache key cached).settings = tenant.settings := by
  simp [settings]

end TenantState

/-- The call changes the settings of a tenant. -/
def Op.configures : Op → Bool
  | setCostModel _ _ | trySetCostModel _ _ | trySetHealthPolicy _ _ => true
  | addTenant _ | addEdge _ _ | recordResult _ _ _ _ _ | forceHalfOpen _ _
  | runRecoveryProbeOnce _ _ _ | route _ _ _ => false

/-- **No other call changes settings.** -/
theorem TenantState.settings_apply (tenant : TenantState) {op : Op}
    (serving : op.configures = false) : (tenant.apply op).settings = tenant.settings := by
  cases op with
  | setCostModel | trySetCostModel | trySetHealthPolicy => cases serving
  | addTenant | addEdge => rfl
  | recordResult tenantId node success latencyMs now =>
      unfold apply recordResult
      dsimp only
      split_ifs <;> rfl
  | forceHalfOpen tenantId node =>
      rcases tenant.forceHalfOpen_cases node with ⟨-, eq⟩ | ⟨tracker, -, -, eq⟩
      · simp only [apply, eq]
      · simp only [apply, eq]
        rfl
  | runRecoveryProbeOnce cooldown now order => exact settings_foldl_invalidateForNode _
  | route tenantId start goal =>
      rcases tenant.route_cases ⟨start, goal⟩ with ⟨_, -, eq⟩ | ⟨_, -, -, eq⟩ | ⟨-, -, eq⟩
      · simp only [apply, eq]
      · simp only [apply, eq]
        exact settings_insertCache _ _
      · simp only [apply, eq]

/-! ## The sidecar and the settings -/

namespace RouterState

variable {state : RouterState}

/-- A tenant keeps its settings, and one that is new has those of `TenantState::default`. -/
theorem settings_step {op : Op} (serving : op.configures = false) {tenantId : TenantId}
    {later : TenantState} (found : (state.step op).tenants.lookup tenantId = some later) :
    later.settings =
      ((state.tenants.lookup tenantId).map TenantState.settings).getD
        (default : TenantState).settings := by
  rw [lookup_step] at found
  cases place : state.tenants.lookup tenantId with
  | some tenant =>
      rw [place] at found
      split_ifs at found <;> cases found
      · exact tenant.settings_apply serving
      · rfl
  | none =>
      rw [place] at found
      split_ifs at found
      rw [Op.applyAt] at found
      split_ifs at found
      cases found
      exact (default : TenantState).settings_apply serving

/-- A tenant that is there stays. -/
theorem isSome_lookup_step (op : Op) {tenantId : TenantId}
    (there : (state.tenants.lookup tenantId).isSome) :
    ((state.step op).tenants.lookup tenantId).isSome := by
  obtain ⟨tenant, place⟩ := Option.isSome_iff_exists.mp there
  rw [lookup_step, place]
  split_ifs <;> rfl

/-- The settings of the tenants of a router that has started as the demo router: those of
the built-in tenant are configured, those of the others are not. -/
structure Seeded (config : SidecarConfig) (state : RouterState) : Prop where
  builtIn : (state.tenants.lookup defaultTenant).isSome
  settings : ∀ tenantId tenant, state.tenants.lookup tenantId = some tenant →
    tenant.settings =
      if tenantId = defaultTenant then config.settings else (default : TenantState).settings

theorem Seeded.step {config : SidecarConfig} (seeded : Seeded config state) {op : Op}
    (serving : op.configures = false) : Seeded config (state.step op) where
  builtIn := isSome_lookup_step op seeded.builtIn
  settings tenantId later found := by
    rw [settings_step serving found]
    cases place : state.tenants.lookup tenantId with
    | some tenant => exact seeded.settings tenantId tenant place
    | none =>
        refine (if_neg ?_).symm
        rintro rfl
        exact absurd seeded.builtIn (by simp [place])

/-- A tenant that is governed has the configured settings already when its first result
comes. -/
theorem Seeded.settings_getOrDefault {config : SidecarConfig} (seeded : Seeded config state)
    {tenantId : TenantId}
    (governed : config.settings = (default : TenantState).settings ∨ tenantId = defaultTenant) :
    (state.tenants.getOrDefault tenantId).settings = config.settings := by
  unfold HashMap.getOrDefault
  cases place : state.tenants.lookup tenantId with
  | some tenant =>
      have settings := seeded.settings tenantId tenant place
      split_ifs at settings with same
      · exact settings
      · exact settings.trans (governed.resolve_right same).symm
  | none =>
      refine (governed.resolve_right ?_).symm
      rintro rfl
      exact absurd seeded.builtIn (by simp [place])

/-- The demo router knows nobody but the built-in tenant. -/
theorem lookup_demoSetup_of_ne (config : SidecarConfig) {tenantId : TenantId}
    (other : tenantId ≠ defaultTenant) :
    (after (demoSetup config)).tenants.lookup tenantId = none := by
  -- every call of start-up is addressed to the built-in tenant
  have nothing : (demoSetup config).filterMap (Op.visible tenantId) = [] := by
    simp [demoSetup, demoEdges, Op.visible, Op.Reaches, Op.tenant, other.symm]
  rw [lookup_after, nothing, run_nil]

/-- **The demo router is seeded.** -/
theorem seeded_demoSetup {config : SidecarConfig} (checked : config.Checked) :
    Seeded config (after (demoSetup config)) := by
  have builtIn : ∃ tenant, (after (demoSetup config)).tenants.lookup defaultTenant = some tenant ∧
      tenant.settings = config.settings := by
    have all : (demoSetup config).filterMap (Op.visible defaultTenant) = demoSetup config := by
      simp [demoSetup, demoEdges, Op.visible, Op.Reaches, Op.tenant, Op.withoutOrder]
    rw [lookup_after, all]
    simp only [demoSetup, demoEdges, List.cons_append, List.nil_append, List.map_cons,
      List.map_nil, run_cons, run_nil, Op.applyAt, Op.creates, if_true, TenantState.apply,
      checked.costModel, checked.healthPolicy]
    exact ⟨_, rfl, rfl⟩
  obtain ⟨tenant, found, settings⟩ := builtIn
  refine ⟨by simp [found], fun tenantId tenant' found' => ?_⟩
  split_ifs with same
  · subst same
    cases found.symm.trans found'
    exact settings
  · rw [lookup_demoSetup_of_ne config same] at found'
    cases found'

/-- Every allowed tenant that the router knows has the configured settings. -/
def Governed (config : SidecarConfig) (state : RouterState) : Prop :=
  ∀ tenantId ∈ config.allowedTenants, ∀ tenant, state.tenants.lookup tenantId = some tenant →
    tenant.settings = config.settings

end RouterState

namespace Sidecar

variable (render : Json → String)

omit [Rounding] in
/-- The call of a `Router` method that a step makes. -/
def call (sidecar : Sidecar) : SidecarStep → Option Op
  | .arrive _ _ => none
  | .advance id _ =>
      match (sidecar.tasks id).map Task.status with
      | some (.running (.route tenantId start goal _)) => some (.route tenantId start goal)
      | _ => none
  | .result query now =>
      some (.recordResult query.tenant query.node query.success query.latencyMs now)
  | .forceHalfOpen query => some (.forceHalfOpen query.tenant query.node)
  | .recoveryTick cooldown now order => some (.runRecoveryProbeOnce cooldown now order)

omit [Rounding] in
/-- **The calls a step makes**, and that a result is recorded by a step that brings it. -/
theorem call_cases {sidecar : Sidecar} {input : SidecarStep} {op : Op}
    (calls : sidecar.call input = some op) :
    (∃ tenantId start goal, op = .route tenantId start goal) ∨
      (∃ query now, input = .result query now ∧
        op = .recordResult query.tenant query.node query.success query.latencyMs now) ∨
      (∃ tenantId nodeId, op = .forceHalfOpen tenantId nodeId) ∨
      ∃ cooldown now order, op = .runRecoveryProbeOnce cooldown now order := by
  unfold call at calls
  split at calls
  · cases calls
  · split at calls
    · cases calls
      exact .inl ⟨_, _, _, rfl⟩
    · cases calls
  · cases calls
    exact .inr (.inl ⟨_, _, rfl, rfl⟩)
  · cases calls
    exact .inr (.inr (.inl ⟨_, _, rfl⟩))
  · cases calls
    exact .inr (.inr (.inr ⟨_, _, _, rfl⟩))

omit [Rounding] in
theorem configures_of_call {sidecar : Sidecar} {input : SidecarStep} {op : Op}
    (calls : sidecar.call input = some op) : op.configures = false := by
  rcases call_cases calls with
    ⟨_, _, _, rfl⟩ | ⟨_, _, -, rfl⟩ | ⟨_, _, rfl⟩ | ⟨_, _, _, rfl⟩ <;> rfl

omit [Rounding] in
/-- Only a result makes a tenant. -/
theorem exists_result_of_creates {sidecar : Sidecar} {input : SidecarStep} {op : Op}
    (calls : sidecar.call input = some op) (creates : op.creates = true) :
    ∃ query now, input = .result query now ∧ op.tenant = some query.tenant := by
  rcases call_cases calls with
    ⟨_, _, _, rfl⟩ | ⟨query, now, isResult, rfl⟩ | ⟨_, _, rfl⟩ | ⟨_, _, _, rfl⟩
  · cases creates
  · exact ⟨query, now, isResult, rfl⟩
  · cases creates
  · cases creates

theorem router_step (sidecar : Sidecar) (input : SidecarStep) :
    (sidecar.step render input).router =
      ((sidecar.call input).map sidecar.router.step).getD sidecar.router := by
  cases input with
  | arrive id request =>
      simp only [step, call]
      split <;> rfl
  | advance id fault =>
      simp only [step, call]
      cases sidecar.tasks id with
      | none => rfl
      | some task =>
          obtain ⟨status, decided⟩ := task
          cases status with
          | responded answer => rfl
          | running program => cases program <;> rfl
  | result | forceHalfOpen | recoveryTick => rfl

variable {config : SidecarConfig} {sidecar : Sidecar}

/-- What every call keeps that changes no settings, every step of the sidecar keeps. -/
theorem keeps_step {P : RouterState → Prop}
    (keep : ∀ state op, op.configures = false → P state → P (state.step op)) (input : SidecarStep)
    (holds : P sidecar.router.inner) : P (sidecar.step render input).router.inner := by
  rw [router_step]
  cases calls : sidecar.call input with
  | none => exact holds
  | some op => exact keep _ op (configures_of_call calls) holds

theorem seeded_run (seeded : sidecar.router.inner.Seeded config) (steps : List SidecarStep) :
    (run (step render) sidecar steps).router.inner.Seeded config :=
  run_induction (P := fun sidecar : Sidecar => sidecar.router.inner.Seeded config) seeded
    (fun _ input seeded => keeps_step render (fun _ _ serving seeded => seeded.step serving)
      input seeded) steps

/-- A tenant without results stays unknown. -/
theorem lookup_run_eq_none {tenantId : TenantId} (steps : List SidecarStep)
    (unknown : sidecar.router.inner.tenants.lookup tenantId = none)
    (silent : ∀ query now, .result query now ∈ steps → query.tenant ≠ tenantId) :
    (run (step render) sidecar steps).router.inner.tenants.lookup tenantId = none := by
  induction steps using List.reverseRecOn with
  | nil => exact unknown
  | append_singleton steps input ih =>
      have before := ih fun query now mem => silent query now (List.mem_append_left _ mem)
      rw [run_concat, router_step]
      cases calls : (run (step render) sidecar steps).call input with
      | none => exact before
      | some op =>
          show ((run (step render) sidecar steps).router.inner.step op).tenants.lookup tenantId =
            none
          rw [RouterState.lookup_step, before, Op.applyAt]
          split_ifs with reaches creates
          -- the tenant is made, by a result that is addressed to it
          · obtain ⟨query, now, rfl, addressed⟩ := exists_result_of_creates calls creates
            have same := (Op.reaches_iff addressed tenantId).mp reaches
            exact absurd same.symm (silent query now (by simp))
          · rfl
          · rfl

theorem inner_start (setup : List Op) (file : List String) :
    (start setup file).router.inner = RouterState.after setup :=
  (Router.audit_holds_trail setup).1

end Sidecar

/-! ## Failures in a row -/

/-- The step records a result of the node. -/
def SidecarStep.reports (tenantId : TenantId) (nodeId : NodeId) : SidecarStep → Bool
  | .result query _ => query.tenant = tenantId ∧ query.node = nodeId
  | _ => false

omit [Rounding] in
theorem SidecarStep.exists_result_of_reports {tenantId : TenantId} {nodeId : NodeId}
    {input : SidecarStep} (reports : input.reports tenantId nodeId = true) :
    ∃ query now, input = .result query now ∧ query.tenant = tenantId ∧ query.node = nodeId := by
  cases input with
  | result query now => exact ⟨query, now, rfl, by simpa [SidecarStep.reports] using reports⟩
  | arrive | advance | forceHalfOpen | recoveryTick => cases reports

namespace Sidecar

variable (render : Json → String) {config : SidecarConfig} {sidecar : Sidecar}
variable {tenantId : TenantId} {nodeId : NodeId}

omit [Rounding] in
theorem reports_of_call {input : SidecarStep} {success : Bool} {latencyMs : ℕ} {now : Instant}
    (calls : sidecar.call input = some (.recordResult tenantId nodeId success latencyMs now)) :
    input.reports tenantId nodeId = true := by
  rcases call_cases calls with
    ⟨_, _, _, other⟩ | ⟨query, _, rfl, recorded⟩ | ⟨_, _, other⟩ | ⟨_, _, _, other⟩
  · cases other
  · cases recorded
    simp [SidecarStep.reports]
  · cases other
  · cases other

/-- A step that records no result of the node leaves its tracker alone, unless it is `Open`. -/
theorem trackerOf_step (input : SidecarStep) (silent : input.reports tenantId nodeId = false)
    (closed : (sidecar.router.inner.trackerOf tenantId nodeId).state ≠ .open) :
    (sidecar.step render input).router.inner.trackerOf tenantId nodeId =
      sidecar.router.inner.trackerOf tenantId nodeId := by
  rw [router_step]
  cases calls : sidecar.call input with
  | none => rfl
  | some op =>
      show (sidecar.router.inner.step op).trackerOf tenantId nodeId = _
      unfold RouterState.trackerOf
      rcases RouterState.getOrDefault_step _ op tenantId with same | ⟨reaches, applied⟩
      · rw [same]
      · rw [applied]
        refine TenantState.tracker_apply _ ?_ closed
        rintro tenantId' success latencyMs now rfl
        obtain rfl : tenantId = tenantId' := (Op.reaches_iff rfl tenantId).mp reaches
        simp [reports_of_call calls] at silent

/-- A failure is counted, and opens the circuit at the threshold. -/
theorem trackerOf_step_failure (query : ResultQuery) (now : Instant)
    (fails : query.success = false)
    (policy : (sidecar.router.inner.tenants.getOrDefault query.tenant).healthPolicy =
      config.healthPolicy) :
    let tracker := sidecar.router.inner.trackerOf query.tenant query.node
    let later := (sidecar.step render (.result query now)).router.inner.trackerOf query.tenant
      query.node
    later.consecutiveFailures = tracker.consecutiveFailures + 1 ∧
      later.state = HealthTracker.failureState config.healthPolicy
        (tracker.consecutiveFailures + 1) tracker.state := by
  intro tracker later
  have recorded : later = (tracker.recordResultWithPolicy query.success query.latencyMs
      (sidecar.router.inner.tenants.getOrDefault query.tenant).healthPolicy now).1 :=
    RouterState.trackerOf_recordResult _ _ _ _ _ _
  rw [fails, policy] at recorded
  rw [recorded]
  exact ⟨HealthTracker.onFailure_consecutiveFailures _ _ _, HealthTracker.onFailure_state _ _ _⟩

theorem nodeState_step_result (query : ResultQuery) (now : Instant) :
    let later := (sidecar.step render (.result query now)).router.inner
    later.nodeState query.tenant query.node =
      some (later.trackerOf query.tenant query.node).state := by
  intro later
  have recorded : later.nodeState query.tenant query.node = _ :=
    RouterState.nodeState_recordResult sidecar.router.inner query.tenant query.node query.success
      query.latencyMs now query.tenant query.node
  have tracker : later.trackerOf query.tenant query.node = _ :=
    RouterState.trackerOf_recordResult _ _ _ _ _ _
  rw [recorded, if_pos ⟨rfl, rfl⟩, tracker]
  rfl

omit [Rounding] in
/-- A counter below a threshold has room for one more. -/
theorem toNat_succ_of_lt {counter threshold : UInt32} (below : counter.toNat < threshold.toNat) :
    (counter + 1).toNat = counter.toNat + 1 := by
  have bound := threshold.toNat_lt
  rw [UInt32.toNat_add, UInt32.toNat_one]
  exact Nat.mod_eq_of_lt (by omega)

/-- **Below the threshold, failures are counted and the circuit stays closed.** -/
theorem trackerOf_run_failures (seeded : sidecar.router.inner.Seeded config)
    (governed : config.settings = (default : TenantState).settings ∨ tenantId = defaultTenant)
    (fresh : sidecar.router.inner.trackerOf tenantId nodeId = default)
    (steps : List SidecarStep)
    (failures : ∀ query now, .result query now ∈ steps → query.tenant = tenantId →
      query.node = nodeId → query.success = false)
    (few : steps.countP (·.reports tenantId nodeId) < config.healthPolicy.openThreshold.toNat) :
    let tracker := (run (step render) sidecar steps).router.inner.trackerOf tenantId nodeId
    tracker.consecutiveFailures.toNat = steps.countP (·.reports tenantId nodeId) ∧
      tracker.state ≠ .open := by
  induction steps using List.reverseRecOn with
  | nil =>
      rw [run_nil, fresh]
      exact ⟨rfl, nofun⟩
  | append_singleton steps input ih =>
      rw [List.countP_append, List.countP_singleton] at few ⊢
      obtain ⟨counted, closed⟩ := ih
        (fun query now mem => failures query now (List.mem_append_left _ mem)) (by omega)
      rw [run_concat]
      by_cases reports : input.reports tenantId nodeId = true
      · rw [if_pos reports] at few ⊢
        obtain ⟨query, now, rfl, rfl, rfl⟩ := SidecarStep.exists_result_of_reports reports
        have fails : query.success = false :=
          failures query now (List.mem_append_right _ List.mem_cons_self) rfl rfl
        have settings := (seeded_run render seeded steps).settings_getOrDefault governed
        obtain ⟨count, state⟩ :=
          trackerOf_step_failure render query now fails (congrArg Prod.fst settings)
        -- the counter has not reached the threshold, so it does not wrap around
        have next := toNat_succ_of_lt (counted ▸ Nat.lt_of_succ_lt few)
        refine ⟨by rw [count, next, counted], ?_⟩
        rw [state, ne_eq, HealthTracker.failureState_eq_open_iff closed, not_not,
          UInt32.lt_iff_toNat_lt, next, counted]
        exact few
      · rw [if_neg reports, trackerOf_step render input (Bool.not_eq_true _ ▸ reports) closed]
        exact ⟨counted, closed⟩

/-! ## Who is governed -/

/-- With a failure of a node of an allowed tenant, the last of some in a row that began with a
fresh tracker, the node becomes `Open` if there have been as many as configured, and not
sooner. -/
def OpensOnTime (config : SidecarConfig) (sidecar : Sidecar) (steps : List SidecarStep) : Prop :=
  ∀ before streak query now, before ++ (streak ++ [.result query now]) <+: steps →
    query.tenant ∈ config.allowedTenants →
    (run (step render) sidecar before).router.inner.trackerOf query.tenant query.node = default →
    (∀ query' now', .result query' now' ∈ streak ++ [.result query now] →
      query'.tenant = query.tenant → query'.node = query.node → query'.success = false) →
    let failures := streak.countP (·.reports query.tenant query.node) + 1
    failures ≤ config.healthPolicy.openThreshold.toNat →
      ((run (step render) sidecar
          (before ++ (streak ++ [.result query now]))).router.inner.nodeState
            query.tenant query.node = some .open ↔
        failures = config.healthPolicy.openThreshold.toNat)

/-- Governed nodes open on time. -/
theorem opensOnTime (seeded : sidecar.router.inner.Seeded config) (steps : List SidecarStep)
    (governed : config.settings = (default : TenantState).settings ∨
      ∀ query now, .result query now ∈ steps → query.tenant ∈ config.allowedTenants →
        query.tenant = defaultTenant) :
    OpensOnTime render config sidecar steps := by
  intro before streak query now reached allowed fresh failing failures few
  have mem : SidecarStep.result query now ∈ steps :=
    reached.subset (by simp)
  have governed' : config.settings = (default : TenantState).settings ∨
      query.tenant = defaultTenant :=
    governed.imp_right fun onlyBuiltIn => onlyBuiltIn query now mem allowed
  have fails : query.success = false := failing query now (by simp) rfl rfl
  have seeded' := seeded_run render seeded before
  obtain ⟨counted, closed⟩ := trackerOf_run_failures render seeded' governed' fresh streak
    (fun query' now' mem => failing query' now' (List.mem_append_left _ mem)) few
  have settings := (seeded_run render seeded' streak).settings_getOrDefault governed'
  obtain ⟨-, state⟩ :=
    trackerOf_step_failure render query now fails (congrArg Prod.fst settings)
  have next := toNat_succ_of_lt (counted ▸ Nat.lt_of_succ_le few)
  rw [run_append, run_concat, nodeState_step_result, Option.some_inj, state,
    HealthTracker.failureState_eq_open_iff closed, UInt32.lt_iff_toNat_lt, next, counted]
  omega

/-- A result makes its tenant known. -/
theorem exists_lookup_step_result (query : ResultQuery) (now : Instant) (sidecar : Sidecar) :
    ∃ tenant, (sidecar.step render (.result query now)).router.inner.tenants.lookup query.tenant =
      some tenant :=
  ⟨_, (RouterState.lookup_updateOrDefault sidecar.router.inner query.tenant query.tenant _).trans
    (if_pos rfl)⟩

/-- **Who is governed by the configuration.**  A loaded configuration makes a demo router, and
in every state of a run from there the allowed tenants have the configured settings, and open
their nodes on time, exactly if the configured settings are those of `TenantState::default` or
all results for allowed tenants are for the built-in one. -/
theorem governed_iff [Formatter] {env : Environment} {args : List String}
    (loaded : SidecarConfig.load env args = .ok config) (file : List String)
    (steps : List SidecarStep) :
    let sidecar := start (demoSetup config) file
    buildDemoRouter config = .ok sidecar.router ∧
      (((∀ before, before <+: steps →
            (run (step render) sidecar before).router.inner.Governed config) ∧
          OpensOnTime render config sidecar steps) ↔
        config.settings = (default : TenantState).settings ∨
          ∀ query now, .result query now ∈ steps → query.tenant ∈ config.allowedTenants →
            query.tenant = defaultTenant) := by
  intro sidecar
  have checked := checked_of_load env loaded
  have seeded : sidecar.router.inner.Seeded config := by
    rw [inner_start]
    exact RouterState.seeded_demoSetup checked
  refine ⟨buildDemoRouter_of_checked checked, ?_, ?_⟩
  · rintro ⟨governed, -⟩
    by_contra! ⟨differ, query, now, mem, allowed, other⟩
    obtain ⟨before, after, rfl⟩ := List.append_of_mem mem
    have reached : before ++ [.result query now] <+: before ++ .result query now :: after :=
      ⟨after, by simp⟩
    -- the result makes an entry for its tenant, if there is none, with default settings
    obtain ⟨tenant, found⟩ : ∃ tenant, (run (step render) sidecar
        (before ++ [.result query now])).router.inner.tenants.lookup query.tenant =
          some tenant := by
      rw [run_concat]
      exact exists_lookup_step_result render query now _
    have settings := (seeded_run render seeded _).settings query.tenant tenant found
    rw [if_neg other] at settings
    exact differ ((governed _ reached query.tenant allowed tenant found).symm.trans settings)
  · intro governed
    refine ⟨fun before reached tenantId allowed tenant found => ?_,
      opensOnTime render seeded steps governed⟩
    have settings := (seeded_run render seeded before).settings tenantId tenant found
    split_ifs at settings with same
    · exact settings
    rcases governed with agree | onlyBuiltIn
    · exact settings.trans agree.symm
    -- no result is addressed to it, so it never comes into being
    · have unknown : sidecar.router.inner.tenants.lookup tenantId = none := by
        rw [inner_start]
        exact RouterState.lookup_demoSetup_of_ne config same
      have absent := lookup_run_eq_none render before unknown fun query now mem addressed =>
        same (addressed ▸ onlyBuiltIn query now (reached.subset mem) (addressed ▸ allowed))
      rw [absent] at found
      cases found

/-! ### Two allowed tenants -/

omit [Rounding] in
theorem exists_of_map_toOption {κ α β : Type} {result : Except κ α} {f : α → β} {b : β}
    (mapped : result.toOption.map f = some b) : ∃ a, result = .ok a ∧ f a = b := by
  cases result with
  | error => cases mapped
  | ok a => exact ⟨a, rfl, Option.some.inj mapped⟩

omit [Rounding] in
/-- An environment with a configuration file, and no variables. -/
def onlyFile (raw : RawConfig) : Environment where
  var _ := none
  varOs name := if name = "TRUST_ROUTER_CONFIG" then some "sidecar.config.json" else none
  readToString _ := .ok ""
  fromStr _ := .ok raw
  isSocketAddr _ := true

/-- A configuration file that allows a second tenant, and opens a circuit after three
failures. -/
def twoTenants : RawConfig :=
  { (default : RawConfig) with
    allowedTenants := [defaultTenant, "acme"]
    health := { (default : RawHealthPolicy) with openThreshold := 3 } }

omit [Rounding] in
/-- A failure of a node of a tenant. -/
def failure (tenantId : TenantId) (now : Instant) : SidecarStep :=
  .result ⟨tenantId, "search", false, 10⟩ now

omit [Rounding] in
/-- A result for the built-in tenant. -/
theorem governed_iff_builtIn :
    letI := Rounding.nearestEven
    letI := Formatter.idle
    ∃ config, SidecarConfig.load (onlyFile twoTenants) [] = .ok config ∧
      (run (step fun _ => "") (start (demoSetup config) [])
        [failure defaultTenant 0]).router.inner.Governed config := by
  let _ := Rounding.nearestEven
  let _ := Formatter.idle
  have tenants : (load (onlyFile twoTenants) []).toOption.map SidecarConfig.allowedTenants =
      some [defaultTenant, "acme"] := by decide +kernel
  obtain ⟨config, loaded, -⟩ := exists_of_map_toOption tenants
  have onlyBuiltIn : ∀ query now, SidecarStep.result query now ∈ [failure defaultTenant 0] →
      query.tenant ∈ config.allowedTenants → query.tenant = defaultTenant := by
    rintro query now mem -
    cases List.mem_singleton.mp mem
    rfl
  have governed := governed_iff (fun _ => "") loaded [] [failure defaultTenant 0]
  exact ⟨config, loaded, (governed.2.mpr (.inr onlyBuiltIn)).1 _ (List.prefix_refl _)⟩

omit [Rounding] in
/-- Three results for the other one: its node is still not `Open`. -/
theorem not_governed_acme :
    letI := Rounding.nearestEven
    letI := Formatter.idle
    ∃ config, SidecarConfig.load (onlyFile twoTenants) [] = .ok config ∧
      "acme" ∈ config.allowedTenants ∧ config.healthPolicy.openThreshold = 3 ∧
      let sidecar := run (step fun _ => "") (start (demoSetup config) [])
        [failure "acme" 0, failure "acme" 1, failure "acme" 2]
      ¬ sidecar.router.inner.Governed config ∧
        sidecar.router.inner.nodeState "acme" "search" = some .degraded := by
  let _ := Rounding.nearestEven
  let _ := Formatter.idle
  let after (config : SidecarConfig) := (run (step fun _ => "") (start (demoSetup config) [])
    [failure "acme" 0, failure "acme" 1, failure "acme" 2]).router.inner
  have facts : (load (onlyFile twoTenants) []).toOption.map (fun config =>
      (config.allowedTenants, config.healthPolicy.openThreshold,
        ((after config).tenants.lookup "acme").map fun tenant =>
          decide (tenant.settings = config.settings),
        (after config).nodeState "acme" "search")) =
      some ([defaultTenant, "acme"], 3, some false, some .degraded) := by
    decide +kernel
  obtain ⟨config, loaded, eq⟩ := exists_of_map_toOption facts
  simp only [Prod.mk.injEq] at eq
  obtain ⟨tenants, threshold, settings, state⟩ := eq
  obtain ⟨tenant, found, differ⟩ := Option.map_eq_some_iff.mp settings
  have allowed : "acme" ∈ config.allowedTenants := by simp [tenants]
  refine ⟨config, loaded, allowed, threshold, fun governed => ?_, state⟩
  exact of_decide_eq_false differ (governed "acme" allowed tenant found)

end Sidecar

end TrustRouter
