import TrustRouter.Prelude.Run
import TrustRouter.TenantState

/-!
# The router

Every operation of `Router` runs under its lock, reads or writes the tenants, and
pushes audit events.  Here an operation is a function from the tenants to an
`Effect`: the tenants afterwards, the answer, and the events pushed, in order.
`Router.perform` puts the events into the ring buffer.

`route` is two operations in one.  `routeFast` is its read-locked look-up and
`routeSlow` the write-locked part after a miss; run back to back they are `route`.
They are separate definitions because another operation may come between them.

The part of an operation that concerns one tenant is a function on `TenantState`
under the same name.  `lookup_step` says that this is all an operation does: what
a tenant becomes depends on that tenant alone.
-/

namespace TrustRouter

/-! ## One tenant -/

namespace TenantState

def setCostModel (tenant : TenantState) (costModel : TenantCostModel) : TenantState :=
  { tenant with costModel := costModel }.invalidateAllCache

def setHealthPolicy (tenant : TenantState) (policy : HealthPolicy) : TenantState :=
  { tenant with healthPolicy := policy }.invalidateAllCache

def addEdge (tenant : TenantState) (edge : Edge) : TenantState :=
  { tenant with graph := tenant.graph.addEdge edge }.invalidateAllCache

/-- The node's tracker after a result, and whether its state changed. -/
def recorded [Rounding] (tenant : TenantState) (node : NodeId) (success : Bool) (latencyMs : ℕ)
    (now : Instant) : HealthTracker × Bool :=
  (tenant.health.getOrDefault node).recordResultWithPolicy success latencyMs
    tenant.healthPolicy now

def recordResult [Rounding] (tenant : TenantState) (node : NodeId) (success : Bool)
    (latencyMs : ℕ) (now : Instant) : TenantState :=
  let recorded := tenant.recorded node success latencyMs now
  let updated := { tenant with health := tenant.health.insert node recorded.1 }
  if recorded.2 then updated.invalidateForNode node else updated

def forceHalfOpen (tenant : TenantState) (node : NodeId) : TenantState × Bool :=
  match tenant.health.lookup node with
  | none => (tenant, false)
  | some tracker =>
      let moved := tracker.forceHalfOpen
      if moved.2 then
        ({ tenant with health := tenant.health.insert node moved.1 }.invalidateForNode node, true)
      else (tenant, false)

/-- The nodes the recovery probe moves to half-open. -/
def readyNodes (tenant : TenantState) (cooldown : Duration) (now : Instant) : List NodeId :=
  tenant.health.keysWhere fun tracker => (tracker.transitionToHalfOpenIfReady cooldown now).2

/-- The trackers after the first loop of the recovery probe. -/
def probeTrackers (tenant : TenantState) (cooldown : Duration) (now : Instant) : TenantState :=
  { tenant with
    health := tenant.health.mapValues fun _ tracker =>
      (tracker.transitionToHalfOpenIfReady cooldown now).1 }

/-- The recovery probe, on one tenant. -/
def recoveryProbe (tenant : TenantState) (cooldown : Duration) (now : Instant) : TenantState :=
  (tenant.readyNodes cooldown now).foldl invalidateForNode (tenant.probeTrackers cooldown now)

/-- The read-locked look-up. -/
def routeFast (tenant : TenantState) (key : RouteKey) : Option Route :=
  (tenant.cache.lookup key).map fun cached =>
    { nodes := cached.path, totalCost := cached.weight, cacheHit := true }

/-- The write-locked part: look up again, else search and insert.  `none` where
there is no route. -/
def routeSlow [Rounding] (tenant : TenantState) (key : RouteKey) : TenantState × Option Route :=
  match tenant.getCached key with
  | (refreshed, some cached) =>
      (refreshed, some { nodes := cached.path, totalCost := cached.weight, cacheHit := true })
  | (_, none) =>
      match tenant.graph.shortestPath tenant.health tenant.costModel key.start key.goal with
      | some route =>
          (tenant.insertCache key
            { path := route.nodes
              weight := route.totalCost
              touchedNodes := route.nodes.toFinset }, some route)
      | none => (tenant, none)

def route [Rounding] (tenant : TenantState) (key : RouteKey) : TenantState × Option Route :=
  match tenant.routeFast key with
  | some route => (tenant, some route)
  | none => tenant.routeSlow key

/-! ### What they do -/

variable {tenant : TenantState}

/-- The three ways through the slow path. -/
theorem routeSlow_cases [Rounding] (tenant : TenantState) (key : RouteKey) :
    (∃ cached, tenant.cache.lookup key = some cached ∧
      tenant.routeSlow key = (tenant.refresh key,
        some { nodes := cached.path, totalCost := cached.weight, cacheHit := true })) ∨
    (∃ route, tenant.cache.lookup key = none ∧
      tenant.graph.shortestPath tenant.health tenant.costModel key.start key.goal = some route ∧
      tenant.routeSlow key = (tenant.insertCache key
        { path := route.nodes
          weight := route.totalCost
          touchedNodes := route.nodes.toFinset }, some route)) ∨
    (tenant.cache.lookup key = none ∧
      tenant.graph.shortestPath tenant.health tenant.costModel key.start key.goal = none ∧
      tenant.routeSlow key = (tenant, none)) := by
  unfold routeSlow getCached
  cases tenant.cache.lookup key with
  | some cached => exact Or.inl ⟨cached, rfl, rfl⟩
  | none =>
      dsimp only
      cases found : tenant.graph.shortestPath tenant.health tenant.costModel key.start key.goal with
      | some route => exact Or.inr (Or.inl ⟨route, rfl, rfl, rfl⟩)
      | none => exact Or.inr (Or.inr ⟨rfl, rfl, rfl⟩)

/-- The three ways through `route`: a hit, a route found and inserted, no route. -/
theorem route_cases [Rounding] (tenant : TenantState) (key : RouteKey) :
    (∃ cached, tenant.cache.lookup key = some cached ∧
      tenant.route key = (tenant,
        some { nodes := cached.path, totalCost := cached.weight, cacheHit := true })) ∨
    (∃ route, tenant.cache.lookup key = none ∧
      tenant.graph.shortestPath tenant.health tenant.costModel key.start key.goal = some route ∧
      tenant.route key = (tenant.insertCache key
        { path := route.nodes
          weight := route.totalCost
          touchedNodes := route.nodes.toFinset }, some route)) ∨
    (tenant.cache.lookup key = none ∧
      tenant.graph.shortestPath tenant.health tenant.costModel key.start key.goal = none ∧
      tenant.route key = (tenant, none)) := by
  unfold route routeFast
  cases place : tenant.cache.lookup key with
  | some cached => exact Or.inl ⟨cached, rfl, rfl⟩
  | none =>
      rcases tenant.routeSlow_cases key with ⟨_, hit, -⟩ | ⟨route, -, found, eq⟩ | ⟨-, found, eq⟩
      · rw [place] at hit
        cases hit
      · exact Or.inr (Or.inl ⟨route, rfl, found, eq⟩)
      · exact Or.inr (Or.inr ⟨rfl, found, eq⟩)

@[simp] theorem route_health [Rounding] (key : RouteKey) :
    (tenant.route key).1.health = tenant.health := by
  rcases tenant.route_cases key with ⟨_, -, eq⟩ | ⟨_, -, -, eq⟩ | ⟨-, -, eq⟩ <;> simp [eq]

@[simp] theorem recordResult_health [Rounding] (node : NodeId) (success : Bool) (latencyMs : ℕ)
    (now : Instant) :
    (tenant.recordResult node success latencyMs now).health =
      tenant.health.insert node (tenant.recorded node success latencyMs now).1 := by
  unfold recordResult
  dsimp only
  split_ifs <;> rfl

@[simp] theorem recordResult_graph [Rounding] (node : NodeId) (success : Bool) (latencyMs : ℕ)
    (now : Instant) : (tenant.recordResult node success latencyMs now).graph = tenant.graph := by
  unfold recordResult
  dsimp only
  split_ifs <;> rfl

@[simp] theorem recordResult_costModel [Rounding] (node : NodeId) (success : Bool)
    (latencyMs : ℕ) (now : Instant) :
    (tenant.recordResult node success latencyMs now).costModel = tenant.costModel := by
  unfold recordResult
  dsimp only
  split_ifs <;> rfl

@[simp] theorem recordResult_healthPolicy [Rounding] (node : NodeId) (success : Bool)
    (latencyMs : ℕ) (now : Instant) :
    (tenant.recordResult node success latencyMs now).healthPolicy = tenant.healthPolicy := by
  unfold recordResult
  dsimp only
  split_ifs <;> rfl

/-- A forced transition does nothing unless the node is `Open`; then it is one
insertion and one invalidation. -/
theorem forceHalfOpen_cases (tenant : TenantState) (node : NodeId) :
    (tenant.nodeState node ≠ some .open ∧ tenant.forceHalfOpen node = (tenant, false)) ∨
    ∃ tracker, tenant.health.lookup node = some tracker ∧ tracker.state = .open ∧
      tenant.forceHalfOpen node =
        ({ tenant with
            health := tenant.health.insert node
              { tracker with state := .halfOpen, consecutiveSuccesses := 0 }
          }.invalidateForNode node, true) := by
  unfold forceHalfOpen nodeState
  cases found : tenant.health.lookup node with
  | none => exact Or.inl ⟨by simp, rfl⟩
  | some tracker =>
      rcases tracker.forceHalfOpen_cases with ⟨closed, eq⟩ | ⟨isOpen, eq⟩
      · exact Or.inl ⟨by simpa using closed, by simp [eq]⟩
      · exact Or.inr ⟨tracker, rfl, isOpen, by simp [eq]⟩

@[simp] theorem recoveryProbe_graph (cooldown : Duration) (now : Instant) :
    (tenant.recoveryProbe cooldown now).graph = tenant.graph := by
  simp [recoveryProbe, probeTrackers]

@[simp] theorem recoveryProbe_costModel (cooldown : Duration) (now : Instant) :
    (tenant.recoveryProbe cooldown now).costModel = tenant.costModel := by
  simp [recoveryProbe, probeTrackers]

@[simp] theorem recoveryProbe_healthPolicy (cooldown : Duration) (now : Instant) :
    (tenant.recoveryProbe cooldown now).healthPolicy = tenant.healthPolicy := by
  simp [recoveryProbe, probeTrackers]

@[simp] theorem recoveryProbe_health (cooldown : Duration) (now : Instant) :
    (tenant.recoveryProbe cooldown now).health = tenant.health.mapValues fun _ tracker =>
      (tracker.transitionToHalfOpenIfReady cooldown now).1 := by
  simp [recoveryProbe, probeTrackers]

end TenantState

/-! ## All tenants -/

structure RouterState where
  tenants : HashMap TenantId TenantState

instance : Inhabited RouterState := ⟨⟨∅⟩⟩

/-- What an operation does: the tenants afterwards, the answer, and the events
pushed. -/
structure Effect (α : Type) where
  state : RouterState
  answer : α
  pushed : List AuditEvent

namespace RouterState

section

variable [Rounding]

/-- `entry(tenant_id).or_default()`, updated. -/
def updateOrDefault (state : RouterState) (tenantId : TenantId)
    (update : TenantState → TenantState) : RouterState where
  tenants := state.tenants.insert tenantId (update (state.tenants.getOrDefault tenantId))

def addTenant (state : RouterState) (tenantId : TenantId) : Effect Unit where
  state := state.updateOrDefault tenantId id
  answer := ()
  pushed := []

def trySetCostModel (state : RouterState) (tenantId : TenantId) (costModel : TenantCostModel) :
    Effect (Except RouterError Unit) :=
  match costModel.validate with
  | .error error => ⟨state, .error error, []⟩
  | .ok () => ⟨state.updateOrDefault tenantId (·.setCostModel costModel), .ok (), []⟩

def setCostModel (state : RouterState) (tenantId : TenantId) (costModel : TenantCostModel) :
    Effect Unit where
  state := (state.trySetCostModel tenantId costModel).state
  answer := ()
  pushed := (state.trySetCostModel tenantId costModel).pushed

def trySetHealthPolicy (state : RouterState) (tenantId : TenantId) (policy : HealthPolicy) :
    Effect (Except RouterError Unit) :=
  match policy.validate with
  | .error error => ⟨state, .error error, []⟩
  | .ok () => ⟨state.updateOrDefault tenantId (·.setHealthPolicy policy), .ok (), []⟩

def addEdge (state : RouterState) (tenantId : TenantId) (edge : Edge) : Effect Unit where
  state := state.updateOrDefault tenantId (·.addEdge edge)
  answer := ()
  pushed := []

def recordResult (state : RouterState) (tenantId : TenantId) (nodeId : NodeId) (success : Bool)
    (latencyMs : ℕ) (now : Instant) : Effect Unit :=
  let recorded := (state.tenants.getOrDefault tenantId).recorded nodeId success latencyMs now
  { state := state.updateOrDefault tenantId (·.recordResult nodeId success latencyMs now)
    answer := ()
    pushed := [.healthChanged tenantId nodeId recorded.1.state recorded.2] }

end

def forceHalfOpen (state : RouterState) (tenantId : TenantId) (nodeId : NodeId) : Effect Bool :=
  match state.tenants.lookup tenantId with
  | none => ⟨state, false, []⟩
  | some tenant =>
      let moved := tenant.forceHalfOpen nodeId
      if moved.2 then
        { state := ⟨state.tenants.insert tenantId moved.1⟩
          answer := true
          pushed := [.recoveryProbeOpened tenantId nodeId] }
      else ⟨state, false, []⟩

/-- The nodes the recovery probe moves to half-open, tenant by tenant. -/
def readyNodes (state : RouterState) (cooldown : Duration) (now : Instant) :
    List (TenantId × NodeId) :=
  state.tenants.entries.flatMap fun entry =>
    (entry.2.readyNodes cooldown now).map (Prod.mk entry.1)

/-- The recovery probe.  The nodes moved are collected in the order in which the
nested walk over the hash maps meets them. -/
def runRecoveryProbeOnce (state : RouterState) (cooldown : Duration) (now : Instant)
    (order : IterationOrder (TenantId × NodeId)) : Effect ℕ :=
  let opened := order.arrange (state.readyNodes cooldown now)
  let scanned := state.tenants.mapValues fun _ tenant => tenant.probeTrackers cooldown now
  { state := ⟨opened.foldl (fun tenants item =>
      tenants.modify item.1 (·.invalidateForNode item.2)) scanned⟩
    answer := opened.length
    pushed := opened.map fun item => .recoveryProbeOpened item.1 item.2 }

/-- A route is pushed and returned. -/
def routed (state : RouterState) (tenantId : TenantId) (start goal : NodeId) (route : Route) :
    Effect RouteDecision where
  state := state
  answer := .routed route
  pushed := [.reroute tenantId start goal route.nodes route.totalCost route.cacheHit]

/-- An escalation is pushed and returned. -/
def escalated (state : RouterState) (context : EscalationContext) : Effect RouteDecision where
  state := state
  answer := .escalate context
  pushed := [.explicitEscalation context]

/-- The fast path of `route`, under the read lock; `none` on a miss. -/
def routeFast (state : RouterState) (tenantId : TenantId) (start goal : NodeId) :
    Option (Effect RouteDecision) := do
  let tenant ← state.tenants.lookup tenantId
  let route ← tenant.routeFast ⟨start, goal⟩
  some (state.routed tenantId start goal route)

/-- The slow path of `route`, under the write lock. -/
def routeSlow [Rounding] (state : RouterState) (tenantId : TenantId) (start goal : NodeId) :
    Effect RouteDecision :=
  match state.tenants.lookup tenantId with
  | none =>
      state.escalated
        { tenantId := tenantId
          start := start
          goal := goal
          reason := .tenantNotFound
          failedOrBlockedNodes := [] }
  | some tenant =>
      match tenant.routeSlow ⟨start, goal⟩ with
      | (updated, some route) =>
          routed ⟨state.tenants.insert tenantId updated⟩ tenantId start goal route
      | (_, none) =>
          state.escalated
            { tenantId := tenantId
              start := start
              goal := goal
              reason := .noFeasiblePath
              failedOrBlockedNodes := tenant.blockedNodes }

def route [Rounding] (state : RouterState) (tenantId : TenantId) (start goal : NodeId) :
    Effect RouteDecision :=
  (state.routeFast tenantId start goal).getD (state.routeSlow tenantId start goal)

def nodeState (state : RouterState) (tenantId : TenantId) (nodeId : NodeId) : Option NodeState :=
  (state.tenants.lookup tenantId).bind (·.nodeState nodeId)

end RouterState

/-! ## Operations -/

/-- A call of a `Router` method.  An operation that reads the clock carries the
reading, and one that walks a hash map the order of the walk. -/
inductive Op where
  | addTenant (tenantId : TenantId)
  | setCostModel (tenantId : TenantId) (costModel : TenantCostModel)
  | trySetCostModel (tenantId : TenantId) (costModel : TenantCostModel)
  | trySetHealthPolicy (tenantId : TenantId) (policy : HealthPolicy)
  | addEdge (tenantId : TenantId) (edge : Edge)
  | recordResult (tenantId : TenantId) (nodeId : NodeId) (success : Bool) (latencyMs : ℕ)
      (now : Instant)
  | forceHalfOpen (tenantId : TenantId) (nodeId : NodeId)
  | runRecoveryProbeOnce (cooldown : Duration) (now : Instant)
      (order : IterationOrder (TenantId × NodeId))
  | route (tenantId : TenantId) (start goal : NodeId)

/-- What a call returns. -/
inductive Answer where
  | unit
  | configured (result : Except RouterError Unit)
  | moved (done : Bool)
  | opened (count : ℕ)
  | decision (decision : RouteDecision)

def Effect.map {α β : Type} (f : α → β) (effect : Effect α) : Effect β :=
  ⟨effect.state, f effect.answer, effect.pushed⟩

namespace RouterState

def perform [Rounding] (state : RouterState) : Op → Effect Answer
  | .addTenant tenantId => (state.addTenant tenantId).map fun _ => .unit
  | .setCostModel tenantId costModel => (state.setCostModel tenantId costModel).map fun _ => .unit
  | .trySetCostModel tenantId costModel =>
      (state.trySetCostModel tenantId costModel).map .configured
  | .trySetHealthPolicy tenantId policy =>
      (state.trySetHealthPolicy tenantId policy).map .configured
  | .addEdge tenantId edge => (state.addEdge tenantId edge).map fun _ => .unit
  | .recordResult tenantId nodeId success latencyMs now =>
      (state.recordResult tenantId nodeId success latencyMs now).map fun _ => .unit
  | .forceHalfOpen tenantId nodeId => (state.forceHalfOpen tenantId nodeId).map .moved
  | .runRecoveryProbeOnce cooldown now order =>
      (state.runRecoveryProbeOnce cooldown now order).map .opened
  | .route tenantId start goal => (state.route tenantId start goal).map .decision

/-- The tenants after an operation. -/
def step [Rounding] (state : RouterState) (op : Op) : RouterState := (state.perform op).state

/-- The tenants after a run from a new router. -/
abbrev after [Rounding] (ops : List Op) : RouterState := run step default ops

end RouterState

structure Router where
  inner : RouterState
  audit : AuditPipeline

namespace Router

def new : Router := ⟨default, .new auditEventMemoryLimit⟩

def perform [Rounding] (router : Router) (op : Op) : Router × Answer :=
  let effect := router.inner.perform op
  (⟨effect.state, router.audit.pushAll effect.pushed⟩, effect.answer)

/-- The router after an operation. -/
def step [Rounding] (router : Router) (op : Op) : Router := (router.perform op).1

def events (router : Router) : List AuditEvent := router.audit.events

def lastAuditEvent (router : Router) : Option AuditEvent := router.audit.lastEvent

end Router

end TrustRouter
