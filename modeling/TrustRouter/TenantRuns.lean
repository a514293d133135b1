import TrustRouter.Router

/-!
# Runs, tenant by tenant

An operation is addressed to one tenant or, for the recovery probe, to all of them.
What it does to a tenant it reaches is `TenantState.apply`, a function of that
tenant's state; a tenant it does not reach is left alone.  `lookup_step` is this
statement, and everything the development says about runs of a router goes through
it: what becomes of a tenant's cache, and the independence of tenants.

The recovery probe is the one operation for which this takes an argument.  It
collects the nodes it moved from all tenants in an unspecified order and invalidates
cache entries one node at a time.  Because invalidations commute, a tenant's share of
this does not depend on the order (`lookup_runRecoveryProbeOnce`).
-/

namespace TrustRouter

namespace Op

/-- The tenant an operation is addressed to; a recovery probe is addressed to none
in particular. -/
def tenant : Op → Option TenantId
  | addTenant tenantId | setCostModel tenantId _ | trySetCostModel tenantId _
  | trySetHealthPolicy tenantId _ | addEdge tenantId _ | recordResult tenantId _ _ _ _
  | forceHalfOpen tenantId _ | route tenantId _ _ => some tenantId
  | runRecoveryProbeOnce _ _ _ => none

/-- The operation is addressed to the tenant or to all of them. -/
def Reaches (op : Op) (tenantId : TenantId) : Prop :=
  op.tenant = none ∨ op.tenant = some tenantId

instance (op : Op) (tenantId : TenantId) : Decidable (op.Reaches tenantId) :=
  inferInstanceAs (Decidable (_ ∨ _))

theorem reaches_iff {op : Op} {tenantId : TenantId} (addressed : op.tenant = some tenantId)
    (tenantId' : TenantId) : op.Reaches tenantId' ↔ tenantId' = tenantId := by
  simp only [Reaches, addressed, reduceCtorEq, Option.some.injEq, false_or]
  exact eq_comm

/-- The operation creates the tenant it is addressed to. -/
def creates : Op → Bool
  | addTenant _ | addEdge _ _ | recordResult _ _ _ _ _ => true
  | setCostModel _ costModel | trySetCostModel _ costModel => costModel.validate = .ok ()
  | trySetHealthPolicy _ policy => policy.validate = .ok ()
  | forceHalfOpen _ _ | runRecoveryProbeOnce _ _ _ | route _ _ _ => false

end Op

/-- Where no node is moved, nothing is. -/
theorem TenantState.forceHalfOpen_eq_self {tenant : TenantState} {node : NodeId}
    (stays : (tenant.forceHalfOpen node).2 = false) : (tenant.forceHalfOpen node).1 = tenant := by
  unfold forceHalfOpen at stays ⊢
  cases found : tenant.health.lookup node with
  | none => rfl
  | some tracker =>
      simp only [found] at stays ⊢
      split_ifs at stays ⊢
      rfl

/-- Where there is neither a cached route nor one to be found, the slow path changes
nothing. -/
theorem TenantState.routeSlow_eq_self [Rounding] {tenant : TenantState} {key : RouteKey}
    (nowhere : (tenant.routeSlow key).2 = none) : (tenant.routeSlow key).1 = tenant := by
  unfold routeSlow at nowhere ⊢
  split
  · next found => simp [found] at nowhere
  · next found =>
      rw [found] at nowhere
      split
      · next route => simp [route] at nowhere
      · rfl

variable [Rounding]

/-- What an operation does to a tenant it reaches. -/
def TenantState.apply (tenant : TenantState) : Op → TenantState
  | .addTenant _ => tenant
  | .setCostModel _ costModel | .trySetCostModel _ costModel =>
      if costModel.validate = .ok () then tenant.setCostModel costModel else tenant
  | .trySetHealthPolicy _ policy =>
      if policy.validate = .ok () then tenant.setHealthPolicy policy else tenant
  | .addEdge _ edge => tenant.addEdge edge
  | .recordResult _ nodeId success latencyMs now =>
      tenant.recordResult nodeId success latencyMs now
  | .forceHalfOpen _ nodeId => (tenant.forceHalfOpen nodeId).1
  | .runRecoveryProbeOnce cooldown now _ => tenant.recoveryProbe cooldown now
  | .route _ start goal => (tenant.route ⟨start, goal⟩).1

/-- What an operation does to the tracker of a node: nothing, or it records a result on it, or
it moves it from `Open` to half-open. -/
theorem TenantState.tracker_apply_cases (tenant : TenantState) (op : Op) (nodeId : NodeId) :
    let tracker := tenant.health.getOrDefault nodeId
    let later := (tenant.apply op).health.getOrDefault nodeId
    later = tracker ∨
      (∃ tenantId success latencyMs now, op = .recordResult tenantId nodeId success latencyMs now ∧
        later = (tenant.recorded nodeId success latencyMs now).1) ∨
      (tracker.state = .open ∧
        later = { tracker with state := .halfOpen, consecutiveSuccesses := 0 }) := by
  intro tracker later
  cases op with
  | addTenant | addEdge => exact Or.inl rfl
  | setCostModel | trySetCostModel | trySetHealthPolicy =>
      refine Or.inl ?_
      simp only [later, apply]
      split_ifs <;> rfl
  | recordResult tenantId nodeId' success latencyMs now =>
      by_cases same : nodeId = nodeId'
      · subst same
        refine Or.inr (Or.inl ⟨_, _, _, _, rfl, ?_⟩)
        simp only [later, apply, recordResult_health, HashMap.getOrDefault,
          HashMap.lookup_insert_eq, if_pos, Option.getD_some]
      · refine Or.inl ?_
        simp only [later, tracker, apply, recordResult_health, HashMap.getOrDefault,
          HashMap.lookup_insert_eq, if_neg same]
  | forceHalfOpen tenantId nodeId' =>
      rcases tenant.forceHalfOpen_cases nodeId' with ⟨-, eq⟩ | ⟨forced, found, isOpen, eq⟩
      · exact Or.inl (by simp only [later, tracker, apply, eq])
      by_cases same : nodeId = nodeId'
      · subst same
        have here : tracker = forced := by simp [tracker, HashMap.getOrDefault, found]
        refine Or.inr (Or.inr ⟨here ▸ isOpen, ?_⟩)
        simp only [later, apply, eq, invalidateForNode_health, HashMap.getOrDefault,
          HashMap.lookup_insert_eq, if_pos, Option.getD_some, here]
      · refine Or.inl ?_
        simp only [later, tracker, apply, eq, invalidateForNode_health, HashMap.getOrDefault,
          HashMap.lookup_insert_eq, if_neg same]
  | runRecoveryProbeOnce cooldown now order =>
      have eq : later = (tracker.transitionToHalfOpenIfReady cooldown now).1 := by
        simp only [later, apply, recoveryProbe_health]
        exact HashMap.getOrDefault_mapValues _ _ rfl
      rw [eq]
      rcases tracker.transitionToHalfOpenIfReady_cases cooldown now with stays | ⟨isOpen, moves⟩
      · exact Or.inl (by rw [stays])
      · exact Or.inr (Or.inr ⟨isOpen, by rw [moves]⟩)
  | route tenantId start goal => exact Or.inl (by simp only [later, tracker, apply, route_health])

/-- No call other than a result of the node changes its tracker, unless it is `Open`. -/
theorem TenantState.tracker_apply (tenant : TenantState) {op : Op} {nodeId : NodeId}
    (other : ∀ tenantId success latencyMs now,
      op ≠ .recordResult tenantId nodeId success latencyMs now)
    (closed : (tenant.health.getOrDefault nodeId).state ≠ .open) :
    (tenant.apply op).health.getOrDefault nodeId = tenant.health.getOrDefault nodeId := by
  rcases tenant.tracker_apply_cases op nodeId with same | ⟨_, _, _, _, rfl, -⟩ | ⟨isOpen, -⟩
  · exact same
  · exact absurd rfl (other _ _ _ _)
  · exact absurd isOpen closed

/-- The health policy of a tenant is the one it had, or a valid one that it has been given. -/
theorem TenantState.healthPolicy_apply (tenant : TenantState) (op : Op) :
    (tenant.apply op).healthPolicy = tenant.healthPolicy ∨
      ∃ tenantId policy, op = .trySetHealthPolicy tenantId policy ∧ policy.validate = .ok () ∧
        (tenant.apply op).healthPolicy = policy := by
  cases op with
  | addTenant | addEdge => exact Or.inl rfl
  | setCostModel | trySetCostModel =>
      refine Or.inl ?_
      simp only [apply]
      split_ifs <;> rfl
  | trySetHealthPolicy tenantId policy =>
      simp only [apply]
      split_ifs with valid
      · exact Or.inr ⟨tenantId, policy, rfl, valid, rfl⟩
      · exact Or.inl rfl
  | recordResult => exact Or.inl (recordResult_healthPolicy _ _ _ _)
  | forceHalfOpen tenantId node =>
      refine Or.inl ?_
      rcases tenant.forceHalfOpen_cases node with ⟨-, eq⟩ | ⟨tracker, -, -, eq⟩ <;>
        simp only [apply, eq, invalidateForNode_healthPolicy]
  | runRecoveryProbeOnce => exact Or.inl (recoveryProbe_healthPolicy _ _)
  | route tenantId start goal =>
      refine Or.inl ?_
      rcases tenant.route_cases ⟨start, goal⟩ with ⟨_, -, eq⟩ | ⟨_, -, -, eq⟩ | ⟨-, -, eq⟩ <;>
        simp only [apply, eq, insertCache_healthPolicy]

/-- What an operation does at a tenant's place in the map. -/
def Op.applyAt (op : Op) : Option TenantState → Option TenantState
  | some tenant => some (tenant.apply op)
  | none => if op.creates then some ((default : TenantState).apply op) else none

theorem Op.applyAt_of_creates {op : Op} (creates : op.creates = true) (place : Option TenantState) :
    op.applyAt place = some ((place.getD default).apply op) := by
  cases place with
  | none => exact if_pos creates
  | some tenant => rfl

theorem Op.applyAt_of_not_creates {op : Op} (creates : op.creates = false)
    (place : Option TenantState) : op.applyAt place = place.map (·.apply op) := by
  cases place with
  | none => simp [applyAt, creates]
  | some tenant => rfl

namespace RouterState

variable (state : RouterState)

/-! ### The operations, at one tenant -/

theorem lookup_updateOrDefault (tenantId tenantId' : TenantId)
    (update : TenantState → TenantState) :
    (state.updateOrDefault tenantId update).tenants.lookup tenantId' =
      if tenantId' = tenantId then
        some (update ((state.tenants.lookup tenantId).getD default))
      else state.tenants.lookup tenantId' :=
  HashMap.lookup_insert_eq _ _ _ _

theorem trySetCostModel_state (tenantId : TenantId) (costModel : TenantCostModel) :
    (state.trySetCostModel tenantId costModel).state =
      if costModel.validate = .ok () then
        state.updateOrDefault tenantId (·.setCostModel costModel)
      else state := by
  unfold trySetCostModel
  split
  · next error invalid => simp [invalid]
  · next valid => simp [valid]

theorem trySetHealthPolicy_state (tenantId : TenantId) (policy : HealthPolicy) :
    (state.trySetHealthPolicy tenantId policy).state =
      if policy.validate = .ok () then
        state.updateOrDefault tenantId (·.setHealthPolicy policy)
      else state := by
  unfold trySetHealthPolicy
  split
  · next error invalid => simp [invalid]
  · next valid => simp [valid]

omit [Rounding] in
theorem lookup_forceHalfOpen (tenantId tenantId' : TenantId) (nodeId : NodeId) :
    (state.forceHalfOpen tenantId nodeId).state.tenants.lookup tenantId' =
      if tenantId' = tenantId then
        (state.tenants.lookup tenantId).map fun tenant => (tenant.forceHalfOpen nodeId).1
      else state.tenants.lookup tenantId' := by
  unfold forceHalfOpen
  cases found : state.tenants.lookup tenantId with
  | none =>
      split_ifs with same
      · rw [same]
        exact found
      · rfl
  | some tenant =>
      dsimp only
      cases moved : (tenant.forceHalfOpen nodeId).2 with
      | true => exact HashMap.lookup_insert_eq _ _ _ _
      | false =>
          rw [if_neg Bool.false_ne_true, Option.map_some,
            TenantState.forceHalfOpen_eq_self moved]
          split_ifs with same
          · rw [same]
            exact found
          · rfl

omit [Rounding] in
theorem forceHalfOpen_answer (tenantId : TenantId) (nodeId : NodeId) :
    (state.forceHalfOpen tenantId nodeId).answer =
      ((state.tenants.lookup tenantId).map fun tenant =>
        (tenant.forceHalfOpen nodeId).2).getD false := by
  unfold forceHalfOpen
  cases state.tenants.lookup tenantId with
  | none => rfl
  | some tenant =>
      dsimp only
      cases moved : (tenant.forceHalfOpen nodeId).2 <;> simp [moved]

omit [Rounding] in
/-- The invalidations of a recovery probe, tenant by tenant. -/
theorem lookup_foldl_modify (items : List (TenantId × NodeId))
    (tenants : HashMap TenantId TenantState) (tenantId : TenantId) :
    (items.foldl (fun tenants item =>
        HashMap.modify tenants item.1 (·.invalidateForNode item.2)) tenants).lookup tenantId =
      (tenants.lookup tenantId).map fun tenant =>
        ((items.filter fun item => item.1 = tenantId).map Prod.snd).foldl
          TenantState.invalidateForNode tenant := by
  induction items generalizing tenants with
  | nil => simp
  | cons item items ih =>
      -- an invalidation for another tenant is not seen by this one
      rw [List.foldl_cons, ih, HashMap.lookup_modify, Option.map_map]
      congr 1
      funext tenant
      by_cases same : item.1 = tenantId
      · simp [same]
      · have other : tenantId ≠ item.1 := fun h => same h.symm
        simp [same, other]

omit [Rounding] in
/-- A recovery probe does to each tenant what it would do to that tenant alone,
whatever the order of its walk. -/
theorem lookup_runRecoveryProbeOnce (cooldown : Duration) (now : Instant)
    (order : IterationOrder (TenantId × NodeId)) (tenantId : TenantId) :
    (state.runRecoveryProbeOnce cooldown now order).state.tenants.lookup tenantId =
      (state.tenants.lookup tenantId).map fun tenant => tenant.recoveryProbe cooldown now := by
  have share := HashMap.flatMap_entries_filter state.tenants
    (fun _ tenant => tenant.readyNodes cooldown now) tenantId
  -- the order of the walk does not matter: invalidations commute
  have perm := ((order.arrange_perm (state.readyNodes cooldown now)).filter
    fun item => item.1 = tenantId).map Prod.snd
  simp only [runRecoveryProbeOnce]
  rw [lookup_foldl_modify, HashMap.lookup_mapValues]
  cases found : state.tenants.lookup tenantId with
  | none => rfl
  | some tenant =>
      rw [found, Option.map_some, Option.getD_some] at share
      rw [readyNodes, share] at perm
      exact congrArg some (perm.foldl_eq _)

/-! ### Routing, at one tenant -/

end RouterState

/-- The event that records a decision. -/
def RouteDecision.event (tenantId : TenantId) (start goal : NodeId) : RouteDecision → AuditEvent
  | routed route => .reroute tenantId start goal route.nodes route.totalCost route.cacheHit
  | escalate context => .explicitEscalation context

/-- The decision for a tenant, from the route found there. -/
def TenantState.decision (tenant : TenantState) (tenantId : TenantId) (key : RouteKey) :
    Option Route → RouteDecision
  | some route => .routed route
  | none =>
      .escalate
        { tenantId := tenantId
          start := key.start
          goal := key.goal
          reason := .noFeasiblePath
          failedOrBlockedNodes := tenant.blockedNodes }

namespace RouterState

variable (state : RouterState)

omit [Rounding] in
theorem routeFast_eq (tenantId : TenantId) (start goal : NodeId) :
    state.routeFast tenantId start goal =
      ((state.tenants.lookup tenantId).bind (·.routeFast ⟨start, goal⟩)).map
        (state.routed tenantId start goal) := by
  unfold routeFast
  cases state.tenants.lookup tenantId with
  | none => rfl
  | some tenant =>
      cases found : tenant.routeFast ⟨start, goal⟩ <;> simp [found]

theorem routeSlow_answer {tenantId : TenantId} {tenant : TenantState}
    (found : state.tenants.lookup tenantId = some tenant) (start goal : NodeId) :
    (state.routeSlow tenantId start goal).answer =
      tenant.decision tenantId ⟨start, goal⟩ (tenant.routeSlow ⟨start, goal⟩).2 := by
  unfold routeSlow
  rw [found]
  dsimp only
  split
  · next answer => rw [answer]; rfl
  · next answer => rw [answer]; rfl

theorem lookup_routeSlow (tenantId tenantId' : TenantId) (start goal : NodeId) :
    (state.routeSlow tenantId start goal).state.tenants.lookup tenantId' =
      if tenantId' = tenantId then
        (state.tenants.lookup tenantId).map fun tenant => (tenant.routeSlow ⟨start, goal⟩).1
      else state.tenants.lookup tenantId' := by
  have kept : ∀ value, state.tenants.lookup tenantId = value →
      state.tenants.lookup tenantId' =
        if tenantId' = tenantId then value else state.tenants.lookup tenantId' := by
    intro value here
    split_ifs with same
    · rw [same, here]
    · rfl
  unfold routeSlow
  cases found : state.tenants.lookup tenantId with
  | none => exact kept none found
  | some tenant =>
      dsimp only
      split
      · next answer =>
          rw [Option.map_some, answer]
          exact HashMap.lookup_insert_eq _ _ _ _
      · next answer =>
          rw [Option.map_some, TenantState.routeSlow_eq_self (by rw [answer])]
          exact kept (some tenant) found

theorem routeSlow_pushed (tenantId : TenantId) (start goal : NodeId) :
    (state.routeSlow tenantId start goal).pushed =
      [(state.routeSlow tenantId start goal).answer.event tenantId start goal] := by
  unfold routeSlow
  split
  · rfl
  · split <;> rfl

theorem route_answer {tenantId : TenantId} {tenant : TenantState}
    (found : state.tenants.lookup tenantId = some tenant) (start goal : NodeId) :
    (state.route tenantId start goal).answer =
      tenant.decision tenantId ⟨start, goal⟩ (tenant.route ⟨start, goal⟩).2 := by
  unfold route TenantState.route
  rw [routeFast_eq, found, Option.bind_some]
  cases tenant.routeFast ⟨start, goal⟩ with
  | none => exact routeSlow_answer state found start goal
  | some route => rfl

theorem lookup_route (tenantId tenantId' : TenantId) (start goal : NodeId) :
    (state.route tenantId start goal).state.tenants.lookup tenantId' =
      if tenantId' = tenantId then
        (state.tenants.lookup tenantId).map fun tenant => (tenant.route ⟨start, goal⟩).1
      else state.tenants.lookup tenantId' := by
  unfold route
  rw [routeFast_eq]
  cases found : state.tenants.lookup tenantId with
  | none =>
      refine (lookup_routeSlow state _ _ _ _).trans ?_
      rw [found]
      rfl
  | some tenant =>
      rw [Option.bind_some, Option.map_some, TenantState.route]
      cases tenant.routeFast ⟨start, goal⟩ with
      | none =>
          refine (lookup_routeSlow state _ _ _ _).trans ?_
          rw [found]
          rfl
      | some route =>
          show state.tenants.lookup tenantId' = _
          split_ifs with same
          · rw [same, found]
          · rfl

/-- **Every decision is pushed**, as the event that records it, and nothing else is. -/
theorem route_pushed (tenantId : TenantId) (start goal : NodeId) :
    (state.route tenantId start goal).pushed =
      [(state.route tenantId start goal).answer.event tenantId start goal] := by
  unfold route
  rw [routeFast_eq]
  cases (state.tenants.lookup tenantId).bind (·.routeFast ⟨start, goal⟩) with
  | none => exact routeSlow_pushed state tenantId start goal
  | some route => rfl

/-! ### One step, one tenant -/

/-- The entry update behind every operation that creates its tenant. -/
theorem lookup_updateOrDefault_of_creates (op : Op) {tenantId : TenantId}
    {update : TenantState → TenantState} (addressed : op.tenant = some tenantId)
    (creates : op.creates = true)
    (applies : ∀ tenant : TenantState, tenant.apply op = update tenant)
    (tenantId' : TenantId) :
    (state.updateOrDefault tenantId update).tenants.lookup tenantId' =
      if op.Reaches tenantId' then op.applyAt (state.tenants.lookup tenantId')
      else state.tenants.lookup tenantId' := by
  rw [lookup_updateOrDefault, Op.applyAt_of_creates creates, applies]
  simp only [Op.reaches_iff addressed]
  split_ifs with same
  · rw [same]
  · rfl

/-- The change an operation makes to a tenant that exists. -/
theorem map_lookup_of_not_creates (op : Op) {tenantId : TenantId}
    {change : TenantState → TenantState} (addressed : op.tenant = some tenantId)
    (creates : op.creates = false)
    (applies : ∀ tenant : TenantState, tenant.apply op = change tenant)
    (tenantId' : TenantId) :
    (if tenantId' = tenantId then (state.tenants.lookup tenantId).map change
      else state.tenants.lookup tenantId') =
      if op.Reaches tenantId' then op.applyAt (state.tenants.lookup tenantId')
      else state.tenants.lookup tenantId' := by
  have same : (fun tenant : TenantState => tenant.apply op) = change := funext applies
  rw [Op.applyAt_of_not_creates creates, same]
  simp only [Op.reaches_iff addressed]
  split_ifs with same
  · rw [same]
  · rfl

/-- A refused configuration changes nothing. -/
theorem lookup_of_refused (op : Op) (creates : op.creates = false)
    (keeps : ∀ tenant : TenantState, tenant.apply op = tenant) (tenantId : TenantId) :
    state.tenants.lookup tenantId =
      if op.Reaches tenantId then op.applyAt (state.tenants.lookup tenantId)
      else state.tenants.lookup tenantId := by
  have same : (fun tenant : TenantState => tenant.apply op) = id := funext keeps
  rw [Op.applyAt_of_not_creates creates, same, Option.map_id]
  split_ifs <;> rfl

/-- Setting a cost model, under either name. -/
theorem lookup_trySetCostModel (op : Op) {tenantId : TenantId} {costModel : TenantCostModel}
    (addressed : op.tenant = some tenantId)
    (creates : op.creates = decide (costModel.validate = .ok ()))
    (applies : ∀ tenant : TenantState, tenant.apply op =
      if costModel.validate = .ok () then tenant.setCostModel costModel else tenant)
    (tenantId' : TenantId) :
    (state.trySetCostModel tenantId costModel).state.tenants.lookup tenantId' =
      if op.Reaches tenantId' then op.applyAt (state.tenants.lookup tenantId')
      else state.tenants.lookup tenantId' := by
  rw [trySetCostModel_state]
  by_cases valid : costModel.validate = .ok ()
  · rw [if_pos valid]
    exact lookup_updateOrDefault_of_creates state op addressed (by simp [creates, valid])
      (fun tenant => (applies tenant).trans (if_pos valid)) tenantId'
  · rw [if_neg valid]
    exact lookup_of_refused state op (by simp [creates, valid])
      (fun tenant => (applies tenant).trans (if_neg valid)) tenantId'

/-- **What an operation does to a tenant** depends on that tenant alone. -/
theorem lookup_step (op : Op) (tenantId : TenantId) :
    (state.step op).tenants.lookup tenantId =
      if op.Reaches tenantId then op.applyAt (state.tenants.lookup tenantId)
      else state.tenants.lookup tenantId := by
  cases op with
  | addTenant tenantId₀ =>
      exact lookup_updateOrDefault_of_creates state (.addTenant tenantId₀) rfl rfl
        (fun _ => rfl) tenantId
  | addEdge tenantId₀ edge =>
      exact lookup_updateOrDefault_of_creates state (.addEdge tenantId₀ edge) rfl rfl
        (fun _ => rfl) tenantId
  | recordResult tenantId₀ nodeId success latencyMs now =>
      exact lookup_updateOrDefault_of_creates state
        (.recordResult tenantId₀ nodeId success latencyMs now) rfl rfl (fun _ => rfl) tenantId
  | setCostModel tenantId₀ costModel =>
      exact lookup_trySetCostModel state (.setCostModel tenantId₀ costModel) rfl rfl
        (fun _ => rfl) tenantId
  | trySetCostModel tenantId₀ costModel =>
      exact lookup_trySetCostModel state (.trySetCostModel tenantId₀ costModel) rfl rfl
        (fun _ => rfl) tenantId
  | trySetHealthPolicy tenantId₀ policy =>
      show (state.trySetHealthPolicy tenantId₀ policy).state.tenants.lookup tenantId = _
      rw [trySetHealthPolicy_state]
      by_cases valid : policy.validate = .ok ()
      · rw [if_pos valid]
        exact lookup_updateOrDefault_of_creates state (.trySetHealthPolicy tenantId₀ policy) rfl
          (decide_eq_true valid) (fun _ => if_pos valid) tenantId
      · rw [if_neg valid]
        exact lookup_of_refused state (.trySetHealthPolicy tenantId₀ policy)
          (decide_eq_false valid) (fun _ => if_neg valid) tenantId
  | forceHalfOpen tenantId₀ nodeId =>
      exact (lookup_forceHalfOpen state tenantId₀ tenantId nodeId).trans
        (map_lookup_of_not_creates state (.forceHalfOpen tenantId₀ nodeId) rfl rfl
          (fun _ => rfl) tenantId)
  | route tenantId₀ start goal =>
      exact (lookup_route state tenantId₀ tenantId start goal).trans
        (map_lookup_of_not_creates state (.route tenantId₀ start goal) rfl rfl
          (fun _ => rfl) tenantId)
  | runRecoveryProbeOnce cooldown now order =>
      refine (lookup_runRecoveryProbeOnce state cooldown now order tenantId).trans ?_
      rw [Op.applyAt_of_not_creates rfl]
      exact (if_pos (Or.inl rfl)).symm

/-- The place of a tenant is as it was, or the operation has been applied to the tenant there,
or to a new one. -/
theorem lookup_step_or (op : Op) (tenantId : TenantId) :
    (state.step op).tenants.lookup tenantId = state.tenants.lookup tenantId ∨
      op.Reaches tenantId ∧ (state.tenants.lookup tenantId = none → op.creates = true) ∧
        (state.step op).tenants.lookup tenantId =
          some (((state.tenants.lookup tenantId).getD default).apply op) := by
  rw [lookup_step]
  split_ifs with reaches
  · cases state.tenants.lookup tenantId with
    | some tenant => exact Or.inr ⟨reaches, by simp, rfl⟩
    | none =>
        rw [Op.applyAt]
        split_ifs with creates
        · exact Or.inr ⟨reaches, fun _ => creates, rfl⟩
        · exact Or.inl rfl
  · exact Or.inl rfl

/-- What an operation leaves at the place of a tenant, if it leaves a tenant there: what was
there, or what has become of that or of a new tenant. -/
theorem eq_of_lookup_step {op : Op} {tenantId : TenantId} {later : TenantState}
    (found : (state.step op).tenants.lookup tenantId = some later) :
    state.tenants.lookup tenantId = some later ∨ op.Reaches tenantId ∧
      later = ((state.tenants.lookup tenantId).getD default).apply op := by
  rcases state.lookup_step_or op tenantId with same | ⟨reaches, -, applied⟩
  · exact Or.inl (same.symm.trans found)
  · exact Or.inr ⟨reaches, Option.some.inj (found.symm.trans applied)⟩

/-- Where a tenant found after an operation comes from: it has not been reached, it has
been changed, or it has been created. -/
theorem lookup_step_cases {op : Op} {tenantId : TenantId} {later : TenantState}
    (found : (state.step op).tenants.lookup tenantId = some later) :
    (∃ tenant, state.tenants.lookup tenantId = some tenant ∧
      (later = tenant ∨ op.Reaches tenantId ∧ later = tenant.apply op)) ∨
      (op.creates = true ∧ later = (default : TenantState).apply op) := by
  rcases state.lookup_step_or op tenantId with same | ⟨reaches, creates, applied⟩
  · exact Or.inl ⟨later, same.symm.trans found, Or.inl rfl⟩
  have eq := Option.some.inj (found.symm.trans applied)
  cases place : state.tenants.lookup tenantId with
  | none => exact Or.inr ⟨creates place, by rwa [place] at eq⟩
  | some tenant => exact Or.inl ⟨tenant, rfl, Or.inr ⟨reaches, by rwa [place] at eq⟩⟩

/-- The tracker that the next result of a node finds; a fresh one where there is none. -/
def trackerOf (state : RouterState) (tenantId : TenantId) (nodeId : NodeId) : HealthTracker :=
  (state.tenants.getOrDefault tenantId).health.getOrDefault nodeId

/-- A tenant is as it was, or the operation has been applied to it. -/
theorem getOrDefault_step (op : Op) (tenantId : TenantId) :
    (state.step op).tenants.getOrDefault tenantId = state.tenants.getOrDefault tenantId ∨
      op.Reaches tenantId ∧ (state.step op).tenants.getOrDefault tenantId =
        (state.tenants.getOrDefault tenantId).apply op := by
  unfold HashMap.getOrDefault
  rcases state.lookup_step_or op tenantId with same | ⟨reaches, -, applied⟩
  · exact Or.inl (by rw [same])
  · exact Or.inr ⟨reaches, by rw [applied, Option.getD_some]⟩

/-- What a result does to the tracker of its node. -/
theorem trackerOf_recordResult (tenantId : TenantId) (nodeId : NodeId) (success : Bool)
    (latencyMs : ℕ) (now : Instant) :
    (state.step (.recordResult tenantId nodeId success latencyMs now)).trackerOf tenantId nodeId =
      ((state.trackerOf tenantId nodeId).recordResultWithPolicy success latencyMs
        (state.tenants.getOrDefault tenantId).healthPolicy now).1 := by
  have place :
      (state.step (.recordResult tenantId nodeId success latencyMs now)).tenants.getOrDefault
          tenantId =
        (state.tenants.getOrDefault tenantId).recordResult nodeId success latencyMs now := by
    show HashMap.getOrDefault (state.updateOrDefault tenantId _).tenants tenantId = _
    rw [HashMap.getOrDefault, lookup_updateOrDefault, if_pos rfl]
    rfl
  rw [trackerOf, place, TenantState.recordResult_health, HashMap.getOrDefault,
    HashMap.lookup_insert_eq, if_pos rfl]
  rfl

end RouterState

end TrustRouter
