import TrustRouter.TenantRuns

/-!
# The audit trail

Two things are shown of the events a run of operations pushes.

* They account for what was decided.  `Accounted` says of each operation exactly what
  it pushes: a routing decision is pushed once, as it was returned; a result is pushed
  once; a node that moves to half-open is pushed once; nothing else is pushed.
* They determine the health of every node.  The state of a node is the one reported by
  the last event about it (`nodeState_eq_lastReport`).

The trail is the sequence of all pushes, not the ring buffer, which keeps the latest
`AUDIT_EVENT_MEMORY_LIMIT` of them (`events_eq_latest_trail`).
-/

namespace TrustRouter

variable [Rounding]

omit [Rounding] in
/-- The state an event reports for a node, if it is about that node. -/
def AuditEvent.report (tenantId : TenantId) (nodeId : NodeId) : AuditEvent → Option NodeState
  | healthChanged tenantId' nodeId' state _ =>
      if tenantId' = tenantId ∧ nodeId' = nodeId then some state else none
  | recoveryProbeOpened tenantId' nodeId' =>
      if tenantId' = tenantId ∧ nodeId' = nodeId then some .halfOpen else none
  | reroute _ _ _ _ _ _ | explicitEscalation _ => none

omit [Rounding] in
/-- The state the last event about a node reports. -/
def lastReport (tenantId : TenantId) (nodeId : NodeId) (events : List AuditEvent) :
    Option NodeState :=
  (events.filterMap (AuditEvent.report tenantId nodeId)).getLast?

omit [Rounding] in
theorem lastReport_append (tenantId : TenantId) (nodeId : NodeId) (events later : List AuditEvent) :
    lastReport tenantId nodeId (events ++ later) =
      (lastReport tenantId nodeId later).or (lastReport tenantId nodeId events) := by
  simp [lastReport, List.getLast?_append]

namespace RouterState

/-- Every event pushed in a run from a new router, in push order. -/
def trail (ops : List Op) : List AuditEvent :=
  (outputs step (fun state op => (state.perform op).pushed) default ops).flatten

theorem trail_concat (ops : List Op) (op : Op) :
    trail (ops ++ [op]) = trail ops ++ ((after ops).perform op).pushed := by
  simp [trail]

omit [Rounding] in
/-- The node moves from `Open` to `HalfOpen`. -/
def MovesToHalfOpen (before later : RouterState) (tenantId : TenantId) (nodeId : NodeId) : Prop :=
  before.nodeState tenantId nodeId = some .open ∧
    later.nodeState tenantId nodeId = some .halfOpen

omit [Rounding] in
instance (before later : RouterState) (tenantId : TenantId) (nodeId : NodeId) :
    Decidable (MovesToHalfOpen before later tenantId nodeId) :=
  inferInstanceAs (Decidable (_ ∧ _))

/-- What an operation pushes. -/
def Accounted (state : RouterState) (op : Op) : Prop :=
  let effect := state.perform op
  match op with
  | .route tenantId start goal =>
      ∃ decision, effect.answer = .decision decision ∧
        effect.pushed = [decision.event tenantId start goal]
  | .recordResult tenantId nodeId _ _ _ =>
      ∃ nodeState stateChanged,
        effect.pushed = [.healthChanged tenantId nodeId nodeState stateChanged]
  | .forceHalfOpen _ _ | .runRecoveryProbeOnce _ _ _ =>
      (∀ event ∈ effect.pushed, ∃ tenantId nodeId,
        event = .recoveryProbeOpened tenantId nodeId) ∧
      ∀ tenantId nodeId, effect.pushed.count (.recoveryProbeOpened tenantId nodeId) =
        if MovesToHalfOpen state effect.state tenantId nodeId then 1 else 0
  | _ => effect.pushed = []

variable (state : RouterState)

/-! ### Reports of one operation -/

/-- An operation that leaves the trackers of every tenant alone leaves the health of
every node alone. -/
theorem nodeState_step_of_health (op : Op)
    (keeps : ∀ tenant : TenantState, (tenant.apply op).health = tenant.health)
    (tenantId : TenantId) (nodeId : NodeId) :
    (state.step op).nodeState tenantId nodeId = state.nodeState tenantId nodeId := by
  rw [nodeState, lookup_step, nodeState]
  split_ifs
  · cases state.tenants.lookup tenantId with
    | none =>
        rw [Op.applyAt]
        split_ifs
        · simp only [Option.bind_some, TenantState.nodeState, keeps]
          rfl
        · rfl
    | some tenant => simp only [Op.applyAt, Option.bind_some, TenantState.nodeState, keeps]
  · rfl

theorem setCostModel_pushed (tenantId : TenantId) (costModel : TenantCostModel) :
    (state.trySetCostModel tenantId costModel).pushed = [] := by
  unfold trySetCostModel
  split <;> rfl

theorem setHealthPolicy_pushed (tenantId : TenantId) (policy : HealthPolicy) :
    (state.trySetHealthPolicy tenantId policy).pushed = [] := by
  unfold trySetHealthPolicy
  split <;> rfl

omit [Rounding] in
theorem lastReport_decision (tenantId tenantId' : TenantId) (nodeId start goal : NodeId)
    (decision : RouteDecision) :
    lastReport tenantId nodeId [decision.event tenantId' start goal] = none := by
  cases decision <;> rfl

omit [Rounding] in
/-- The nodes a recovery probe moves, by tenant. -/
theorem mem_readyNodes {cooldown : Duration} {now : Instant} {tenantId : TenantId}
    {nodeId : NodeId} :
    (tenantId, nodeId) ∈ state.readyNodes cooldown now ↔
      ∃ tenant, state.tenants.lookup tenantId = some tenant ∧
        nodeId ∈ tenant.readyNodes cooldown now := by
  simp only [readyNodes, List.mem_flatMap, List.mem_map, Prod.mk.injEq,
    HashMap.lookup_eq_some_iff]
  constructor
  · rintro ⟨⟨name, tenant⟩, mem, node, ready, rfl, rfl⟩
    exact ⟨tenant, mem, ready⟩
  · rintro ⟨tenant, mem, ready⟩
    exact ⟨⟨tenantId, tenant⟩, mem, nodeId, ready, rfl, rfl⟩

omit [Rounding] in
theorem readyNodes_nodup (cooldown : Duration) (now : Instant) :
    (state.readyNodes cooldown now).Nodup := by
  refine List.nodup_flatMap.mpr ⟨fun entry _ => ?_, ?_⟩
  · exact (HashMap.keysWhere_nodup _ _).map fun _ _ equal => (Prod.mk.inj equal).2
  · refine (List.nodupKeys_iff_pairwise.mp state.tenants.nodupKeys).imp fun {entry entry'} ne => ?_
    intro item mem mem'
    obtain ⟨_, -, rfl⟩ := List.mem_map.mp mem
    obtain ⟨_, -, equal⟩ := List.mem_map.mp mem'
    exact ne (Prod.mk.inj equal).1.symm

omit [Rounding] in
theorem lastReport_recoveryProbeOpened (opened : List (TenantId × NodeId)) (tenantId : TenantId)
    (nodeId : NodeId) :
    lastReport tenantId nodeId (opened.map fun item => .recoveryProbeOpened item.1 item.2) =
      if (tenantId, nodeId) ∈ opened then some .halfOpen else none := by
  induction opened using List.reverseRecOn with
  | nil => rfl
  | append_singleton opened item ih =>
      obtain ⟨tenantId', nodeId'⟩ := item
      rw [List.map_append, lastReport_append, ih]
      by_cases same : tenantId' = tenantId ∧ nodeId' = nodeId
      · obtain ⟨rfl, rfl⟩ := same
        simp [lastReport, AuditEvent.report]
      · have ne : ¬ (tenantId = tenantId' ∧ nodeId = nodeId') :=
          fun equal => same ⟨equal.1.symm, equal.2.symm⟩
        simp [lastReport, AuditEvent.report, same, ne]

omit [Rounding] in
/-- A recovery probe moves the nodes it collects and no others. -/
theorem nodeState_runRecoveryProbeOnce (cooldown : Duration) (now : Instant)
    (order : IterationOrder (TenantId × NodeId)) (tenantId : TenantId) (nodeId : NodeId) :
    (state.runRecoveryProbeOnce cooldown now order).state.nodeState tenantId nodeId =
      if (tenantId, nodeId) ∈ state.readyNodes cooldown now then some .halfOpen
      else state.nodeState tenantId nodeId := by
  rw [nodeState, lookup_runRecoveryProbeOnce, nodeState]
  cases found : state.tenants.lookup tenantId with
  | none => simp [mem_readyNodes, found]
  | some tenant =>
      simp only [Option.map_some, Option.bind_some, TenantState.nodeState,
        TenantState.recoveryProbe_health, HashMap.lookup_mapValues, mem_readyNodes, found,
        Option.some.injEq, exists_eq_left', TenantState.readyNodes, HashMap.mem_keysWhere]
      cases tenant.health.lookup nodeId with
      | none => simp
      | some tracker => simp [apply_ite some]

/-- A result reaches one tracker. -/
theorem nodeState_recordResult (tenantId₀ : TenantId) (nodeId₀ : NodeId) (success : Bool)
    (latencyMs : ℕ) (now : Instant) (tenantId : TenantId) (nodeId : NodeId) :
    (state.recordResult tenantId₀ nodeId₀ success latencyMs now).state.nodeState tenantId nodeId =
      if tenantId₀ = tenantId ∧ nodeId₀ = nodeId then
        some ((state.tenants.getOrDefault tenantId₀).recorded nodeId₀ success latencyMs now).1.state
      else state.nodeState tenantId nodeId := by
  simp only [recordResult, nodeState, lookup_updateOrDefault]
  by_cases sameTenant : tenantId₀ = tenantId
  · subst sameTenant
    simp only [if_true, Option.bind_some, TenantState.nodeState, TenantState.recordResult_health,
      HashMap.lookup_insert_eq, true_and]
    by_cases sameNode : nodeId₀ = nodeId
    · subst sameNode
      simp [HashMap.getOrDefault]
    · rw [if_neg (fun h => sameNode h.symm), if_neg sameNode]
      cases state.tenants.lookup tenantId₀ with
      | none => rfl
      | some tenant => rfl
  · rw [if_neg (fun h => sameTenant h.symm), if_neg (fun h => sameTenant h.1)]

omit [Rounding] in
/-- A forced transition moves the node, if it is `Open`, and no other. -/
theorem nodeState_forceHalfOpen (tenantId₀ : TenantId) (nodeId₀ : NodeId) (tenantId : TenantId)
    (nodeId : NodeId) :
    (state.forceHalfOpen tenantId₀ nodeId₀).state.nodeState tenantId nodeId =
      if (tenantId₀ = tenantId ∧ nodeId₀ = nodeId) ∧ state.nodeState tenantId nodeId = some .open
      then some .halfOpen else state.nodeState tenantId nodeId := by
  rw [nodeState, lookup_forceHalfOpen, nodeState]
  by_cases sameTenant : tenantId₀ = tenantId
  · subst sameTenant
    rw [if_pos rfl]
    cases state.tenants.lookup tenantId₀ with
    | none => simp
    | some tenant =>
        simp only [Option.map_some, Option.bind_some, true_and]
        rcases tenant.forceHalfOpen_cases nodeId₀ with ⟨closed, eq⟩ | ⟨tracker, found, isOpen, eq⟩
        · rw [eq, if_neg]
          rintro ⟨rfl, isOpen⟩
          exact closed isOpen
        · by_cases sameNode : nodeId₀ = nodeId
          · subst sameNode
            simp [eq, TenantState.nodeState, found, isOpen]
          · rw [if_neg fun h => sameNode h.1]
            simp only [eq, TenantState.nodeState, TenantState.invalidateForNode_health,
              HashMap.lookup_insert_eq]
            rw [if_neg fun h => sameNode h.symm]
  · rw [if_neg (fun h => sameTenant h.symm), if_neg (fun h => sameTenant h.1.1)]

omit [Rounding] in
/-- A forced transition is pushed when it is made. -/
theorem forceHalfOpen_pushed (tenantId : TenantId) (nodeId : NodeId) :
    (state.forceHalfOpen tenantId nodeId).pushed =
      if state.nodeState tenantId nodeId = some .open then [.recoveryProbeOpened tenantId nodeId]
      else [] := by
  unfold forceHalfOpen nodeState
  cases state.tenants.lookup tenantId with
  | none => simp
  | some tenant =>
      rcases tenant.forceHalfOpen_cases nodeId with ⟨closed, eq⟩ | ⟨tracker, found, isOpen, eq⟩
      · simp [eq, closed]
      · simp [eq, TenantState.nodeState, found, isOpen]

/-- **One step.**  The last report among an operation's events is the state of the
node afterwards; without a report the state is what it was. -/
theorem nodeState_step (op : Op) (tenantId : TenantId) (nodeId : NodeId) :
    (state.step op).nodeState tenantId nodeId =
      (lastReport tenantId nodeId (state.perform op).pushed).or
        (state.nodeState tenantId nodeId) := by
  cases op with
  -- configuration leaves the trackers alone and pushes nothing
  | addTenant | addEdge =>
      exact nodeState_step_of_health state _ (fun _ => rfl) tenantId nodeId
  | setCostModel tenantId₀ costModel =>
      simp only [perform, Effect.map, setCostModel, setCostModel_pushed]
      refine nodeState_step_of_health state _ (fun tenant => ?_) tenantId nodeId
      simp only [TenantState.apply]
      split_ifs <;> rfl
  | trySetCostModel tenantId₀ costModel =>
      simp only [perform, Effect.map, setCostModel_pushed]
      refine nodeState_step_of_health state _ (fun tenant => ?_) tenantId nodeId
      simp only [TenantState.apply]
      split_ifs <;> rfl
  | trySetHealthPolicy tenantId₀ policy =>
      simp only [perform, Effect.map, setHealthPolicy_pushed]
      refine nodeState_step_of_health state _ (fun tenant => ?_) tenantId nodeId
      simp only [TenantState.apply]
      split_ifs <;> rfl
  | recordResult tenantId₀ nodeId₀ success latencyMs now =>
      refine (nodeState_recordResult state tenantId₀ nodeId₀ success latencyMs now
        tenantId nodeId).trans ?_
      simp only [perform, Effect.map, recordResult, lastReport, List.filterMap_cons,
        List.filterMap_nil, AuditEvent.report]
      split_ifs <;> rfl
  | forceHalfOpen tenantId₀ nodeId₀ =>
      refine (nodeState_forceHalfOpen state tenantId₀ nodeId₀ tenantId nodeId).trans ?_
      simp only [perform, Effect.map, forceHalfOpen_pushed]
      -- the event is about the node that was moved, and says where to
      by_cases same : tenantId₀ = tenantId ∧ nodeId₀ = nodeId
      · obtain ⟨rfl, rfl⟩ := same
        split_ifs <;> simp_all [lastReport, AuditEvent.report]
      · rw [if_neg fun h => same h.1]
        split_ifs
        · simp [lastReport, AuditEvent.report, same]
        · rfl
  | runRecoveryProbeOnce cooldown now order =>
      refine (nodeState_runRecoveryProbeOnce state cooldown now order tenantId nodeId).trans ?_
      simp only [perform, Effect.map, runRecoveryProbeOnce, lastReport_recoveryProbeOpened,
        IterationOrder.mem_arrange]
      split_ifs <;> rfl
  | route tenantId₀ start goal =>
      simp only [perform, Effect.map, route_pushed, lastReport_decision]
      exact nodeState_step_of_health state (.route tenantId₀ start goal)
        (fun tenant => tenant.route_health ⟨start, goal⟩) tenantId nodeId

/-- **The trail determines health.** -/
theorem nodeState_eq_lastReport (ops : List Op) (tenantId : TenantId) (nodeId : NodeId) :
    (after ops).nodeState tenantId nodeId = lastReport tenantId nodeId (trail ops) := by
  induction ops using List.reverseRecOn with
  | nil => rfl
  | append_singleton ops op ih =>
      rw [trail_concat, lastReport_append, ← ih, after, run_concat]
      exact nodeState_step _ op tenantId nodeId

omit [Rounding] in
/-- A forced transition moves the node it names, if that is `Open`. -/
theorem movesToHalfOpen_forceHalfOpen {tenantId₀ tenantId : TenantId} {nodeId₀ nodeId : NodeId} :
    MovesToHalfOpen state (state.forceHalfOpen tenantId₀ nodeId₀).state tenantId nodeId ↔
      (tenantId₀ = tenantId ∧ nodeId₀ = nodeId) ∧ state.nodeState tenantId nodeId = some .open := by
  rw [MovesToHalfOpen, nodeState_forceHalfOpen]
  constructor
  · rintro ⟨isOpen, moved⟩
    refine ⟨?_, isOpen⟩
    by_contra other
    rw [if_neg fun h => other h.1, isOpen] at moved
    cases moved
  · rintro ⟨same, isOpen⟩
    exact ⟨isOpen, if_pos ⟨same, isOpen⟩⟩

omit [Rounding] in
/-- A recovery probe moves the nodes it collects. -/
theorem movesToHalfOpen_runRecoveryProbeOnce {cooldown : Duration} {now : Instant}
    {order : IterationOrder (TenantId × NodeId)} {tenantId : TenantId} {nodeId : NodeId} :
    MovesToHalfOpen state (state.runRecoveryProbeOnce cooldown now order).state tenantId nodeId ↔
      (tenantId, nodeId) ∈ state.readyNodes cooldown now := by
  rw [MovesToHalfOpen, nodeState_runRecoveryProbeOnce]
  constructor
  · rintro ⟨isOpen, moved⟩
    by_contra other
    rw [if_neg other, isOpen] at moved
    cases moved
  · intro ready
    refine ⟨?_, if_pos ready⟩
    obtain ⟨tenant, found, mem⟩ := (mem_readyNodes state).mp ready
    obtain ⟨tracker, tracked, moved⟩ := HashMap.mem_keysWhere.mp mem
    simp [nodeState, found, TenantState.nodeState, tracked,
      HealthTracker.state_of_transitionToHalfOpenIfReady moved]

omit [Rounding] in
/-- Each node moved is pushed once. -/
theorem count_recoveryProbeOpened {opened : List (TenantId × NodeId)} (nodup : opened.Nodup)
    (tenantId : TenantId) (nodeId : NodeId) :
    (opened.map fun item => AuditEvent.recoveryProbeOpened item.1 item.2).count
        (.recoveryProbeOpened tenantId nodeId) =
      if (tenantId, nodeId) ∈ opened then 1 else 0 := by
  have injective : Function.Injective fun item : TenantId × NodeId =>
      AuditEvent.recoveryProbeOpened item.1 item.2 := by
    rintro ⟨a, b⟩ ⟨c, d⟩ equal
    simpa using equal
  rw [← nodup.count]
  exact List.count_map_of_injective opened _ injective (tenantId, nodeId)

/-- **Every operation is accounted for**, whatever state it starts from. -/
theorem accounted (op : Op) : state.Accounted op := by
  cases op with
  | addTenant | addEdge => rfl
  | setCostModel tenantId costModel => exact setCostModel_pushed state tenantId costModel
  | trySetCostModel tenantId costModel => exact setCostModel_pushed state tenantId costModel
  | trySetHealthPolicy tenantId policy => exact setHealthPolicy_pushed state tenantId policy
  | recordResult => exact ⟨_, _, rfl⟩
  | route tenantId start goal =>
      exact ⟨(state.route tenantId start goal).answer, rfl, route_pushed state tenantId start goal⟩
  | forceHalfOpen tenantId nodeId =>
      constructor
      · intro event mem
        simp only [perform, Effect.map, forceHalfOpen_pushed] at mem
        split_ifs at mem
        · exact ⟨tenantId, nodeId, List.mem_singleton.mp mem⟩
        · cases mem
      · intro tenantId' nodeId'
        simp only [perform, Effect.map, forceHalfOpen_pushed, movesToHalfOpen_forceHalfOpen]
        by_cases same : tenantId = tenantId' ∧ nodeId = nodeId'
        · obtain ⟨rfl, rfl⟩ := same
          split_ifs <;> simp_all
        · have stays : ¬ ((tenantId = tenantId' ∧ nodeId = nodeId') ∧
              state.nodeState tenantId' nodeId' = some .open) := fun h => same h.1
          rw [if_neg stays]
          split_ifs
          · simp [same]
          · rfl
  | runRecoveryProbeOnce cooldown now order =>
      constructor
      · intro event mem
        obtain ⟨item, -, rfl⟩ := List.mem_map.mp mem
        exact ⟨item.1, item.2, rfl⟩
      · intro tenantId nodeId
        -- no node is collected twice
        have nodup : (order.arrange (state.readyNodes cooldown now)).Nodup :=
          (order.arrange_perm _).nodup_iff.mpr (readyNodes_nodup state cooldown now)
        refine (count_recoveryProbeOpened nodup tenantId nodeId).trans (if_congr ?_ rfl rfl)
        exact order.mem_arrange.trans (movesToHalfOpen_runRecoveryProbeOnce state).symm

/-- **Nothing is decided silently, and the trail determines health.**  In every run each
operation pushes exactly what it accounts for, and after every run the state of each
node is the one its last event reports. -/
theorem trail_complete (ops : List Op) :
    AllSteps step Accounted default ops ∧
      ∀ tenantId nodeId,
        (after ops).nodeState tenantId nodeId = lastReport tenantId nodeId (trail ops) :=
  ⟨allSteps_iff.mpr fun before op _ _ => accounted (after before) op,
    nodeState_eq_lastReport ops⟩

end RouterState

/-- A router that has performed some operations is in the state they lead to, and has been
pushed their trail. -/
theorem Router.audit_holds_trail (ops : List Op) :
    (run Router.step Router.new ops).inner = RouterState.after ops ∧
      (run Router.step Router.new ops).audit.Holds (RouterState.trail ops) := by
  induction ops using List.reverseRecOn with
  | nil => exact ⟨rfl, AuditPipeline.holds_new⟩
  | append_singleton ops op ih =>
      rw [run_concat, RouterState.trail_concat, RouterState.after, run_concat]
      generalize run Router.step Router.new ops = router at *
      obtain ⟨inner, holds⟩ := ih
      refine ⟨congrArg (fun state => RouterState.step state op) inner, ?_⟩
      rw [← inner]
      exact holds.pushAll _

/-- **The ring buffer** holds the latest events of the trail. -/
theorem Router.events_eq_latest_trail (ops : List Op) :
    (run Router.step Router.new ops).events =
      Ring.latest auditEventMemoryLimit (RouterState.trail ops) :=
  (Router.audit_holds_trail ops).2.events

end TrustRouter
