import TrustRouter.RouteCache

/-!
# Recovery and the cache

A node that moves from `Open` to `HalfOpen` can be routed through again.  The entries
evicted then are those whose path touches the node, and these can only be paths that start at it:
while the node was `Open` no path could enter it.  The entries that stay are those a new, cheaper
path through the node may have made dearer than necessary.

What invalidation by node does keep is stated with `IsLeastCost`: a weight that was least
before the recovery is least afterwards among the walks that enter no recovered node
(`isLeastCost_avoiding`).  So a cache that was coherent stays so exactly as long as no
walk through a recovered node is cheaper (`recovery_coherent`).
-/

namespace TrustRouter

open LabelSetting

variable [Rounding]

namespace ToolGraph

/-- `cost` is the least cost of a walk from `start` to `goal` that `admitted` accepts. -/
def IsLeastCost (graph : ToolGraph) (health : HashMap NodeId HealthTracker)
    (model : TenantCostModel) (start goal : NodeId) (admitted : List ℕ → Prop)
    (cost : F64) : Prop :=
  if start = goal then cost = .finite 0
  else ∃ (s g : ℕ) (c : Cost), graph.nodeToId.lookup start = some s ∧
    graph.nodeToId.lookup goal = some g ∧ cost = .finite c.value ∧
    (∃ p, graph.CostWalk health model s g c p ∧ admitted p) ∧
    ∀ d p, graph.CostWalk health model s g d p → admitted p → c ≤ d

variable {graph : ToolGraph} {health health' : HashMap NodeId HealthTracker}
  {model : TenantCostModel} {start goal : NodeId} {cost : F64}

/-- The search computes the least cost of all walks. -/
theorem isLeastCost_iff_shortestPath :
    graph.IsLeastCost health model start goal (fun _ => True) cost ↔
      (graph.shortestPath health model start goal).map Route.totalCost = some cost := by
  unfold IsLeastCost
  by_cases same : start = goal
  · rw [if_pos same, shortestPath, if_pos same]
    simp [eq_comm]
  · rw [if_neg same]
    constructor
    · rintro ⟨s, g, c, startId, goalId, rfl, ⟨p, walk, -⟩, least⟩
      cases found : graph.shortestPath health model start goal with
      | none =>
          exact absurd walk
            ((not_costWalk_of_shortestPath_eq_none found).2 s g c p startId goalId)
      | some route =>
          obtain ⟨s', g', c', p', startId', goalId', walk', least', value, -, -⟩ :=
            shortestPath_eq_some same found
          obtain rfl := Option.some.inj (startId.symm.trans startId')
          obtain rfl := Option.some.inj (goalId.symm.trans goalId')
          obtain rfl : c = c' := le_antisymm (least c' p' walk' trivial) (least' c p walk)
          simp [value]
    · intro computed
      obtain ⟨route, found, rfl⟩ := Option.map_eq_some_iff.mp computed
      obtain ⟨s, g, c, p, startId, goalId, walk, least, value, -, -⟩ :=
        shortestPath_eq_some same found
      exact ⟨s, g, c, startId, goalId, value, ⟨p, walk, trivial⟩, fun d q walk _ => least d q walk⟩

/-- The walk enters none of the nodes. -/
def Avoids (graph : ToolGraph) (nodes : NodeId → Prop) (p : List ℕ) : Prop :=
  ∀ i ∈ p.tail, ¬ nodes (graph.nodeName i)

omit [Rounding] in
theorem avoids_concat {nodes : NodeId → Prop} {p : List ℕ} (ne : p ≠ []) (i : ℕ) :
    graph.Avoids nodes (p ++ [i]) ↔ graph.Avoids nodes p ∧ ¬ nodes (graph.nodeName i) := by
  cases p with
  | nil => exact absurd rfl ne
  | cons j p => simp [Avoids, or_imp, forall_and]

/-- The health maps differ only on `recovered` nodes, which were `Open` in the first. -/
structure RecoversOn (health health' : HashMap NodeId HealthTracker)
    (recovered : NodeId → Prop) : Prop where
  same : ∀ node, ¬ recovered node → health'.lookup node = health.lookup node
  wasOpen : ∀ node, recovered node → ¬ NotOpen health node

variable {recovered : NodeId → Prop}

/-- An edge into a recovered node was not usable; every other edge costs what it did. -/
theorem edgeCost_of_recoversOn (recovers : RecoversOn health health' recovered)
    {edge : IndexedEdge} {w : ℚ} :
    graph.edgeCost health model edge = some (.finite w) ↔
      graph.edgeCost health' model edge = some (.finite w) ∧
        ¬ recovered (graph.nodeName edge.to) := by
  by_cases enters : recovered (graph.nodeName edge.to)
  · refine ⟨fun usable => absurd enters ?_, fun h => absurd enters h.2⟩
    -- entering an `Open` node has an infinite penalty
    obtain ⟨-, -, value, -⟩ := edgeCost_eq_some usable
    have link : linkCost health model (graph.named 0 edge) = .finite w := value.symm
    exact fun enters => recovers.wasOpen _ enters (notOpen_of_finite link)
  · have penalty : graph.healthPenalty health edge.to = graph.healthPenalty health' edge.to := by
      rw [healthPenalty, healthPenalty, recovers.same _ enters]
    have same : graph.edgeCost health model edge = graph.edgeCost health' model edge := by
      unfold edgeCost
      rw [penalty]
    rw [same]
    exact ⟨fun usable => ⟨usable, enters⟩, fun h => h.1⟩

/-- **The walks before a recovery** are the walks after it that enter no recovered node. -/
theorem costWalk_of_recoversOn (recovers : RecoversOn health health' recovered) {s g : ℕ}
    {c : Cost} {p : List ℕ} :
    graph.CostWalk health model s g c p ↔
      graph.CostWalk health' model s g c p ∧ graph.Avoids recovered p := by
  constructor
  · intro walk
    induction walk with
    | source => exact ⟨.source, by simp [Avoids]⟩
    | @snoc n m c c' p walk step ih =>
        obtain ⟨walk', avoids⟩ := ih
        obtain ⟨edge, mem, rfl, w, usable, sum⟩ := step
        obtain ⟨usable', outside⟩ := (edgeCost_of_recoversOn recovers).mp usable
        exact ⟨.snoc walk' ⟨edge, mem, rfl, w, usable', sum⟩,
          (avoids_concat walk.ne_nil _).mpr ⟨avoids, outside⟩⟩
  · rintro ⟨walk, avoids⟩
    induction walk with
    | source => exact .source
    | @snoc n m c c' p walk step ih =>
        obtain ⟨before, outside⟩ := (avoids_concat walk.ne_nil _).mp avoids
        obtain ⟨edge, mem, rfl, w, usable, sum⟩ := step
        exact .snoc (ih before)
          ⟨edge, mem, rfl, w, (edgeCost_of_recoversOn recovers).mpr ⟨usable, outside⟩, sum⟩

/-- **What stays least.**  The least cost before a recovery is the least cost after it of a
walk that enters no recovered node. -/
theorem isLeastCost_avoiding (recovers : RecoversOn health health' recovered) :
    graph.IsLeastCost health model start goal (fun _ => True) cost ↔
      graph.IsLeastCost health' model start goal (graph.Avoids recovered) cost := by
  unfold IsLeastCost
  simp only [costWalk_of_recoversOn recovers, and_true, true_implies, and_imp]

end ToolGraph

namespace TenantState

/-- A tenant's cache is coherent: each weight is the cost of the route that would be
computed now. -/
def Coherent (tenant : TenantState) : Prop :=
  ∀ key cached, tenant.cache.lookup key = some cached →
    (tenant.graph.shortestPath tenant.health tenant.costModel key.start key.goal).map
      Route.totalCost = some cached.weight

instance (tenant : TenantState) : Decidable tenant.Coherent :=
  decidable_of_iff (∀ entry ∈ tenant.cache.entries,
      (tenant.graph.shortestPath tenant.health tenant.costModel entry.1.start entry.1.goal).map
        Route.totalCost = some entry.2.weight)
    ⟨fun all key cached hit => all ⟨key, cached⟩ (HashMap.lookup_eq_some_iff.mp hit),
      fun all entry mem => all entry.1 entry.2 (HashMap.lookup_eq_some_iff.mpr mem)⟩

/-- The cost is least among the walks of the tenant that `admitted` accepts. -/
abbrev IsLeastCost (tenant : TenantState) (key : RouteKey) (admitted : List ℕ → Prop)
    (cost : F64) : Prop :=
  tenant.graph.IsLeastCost tenant.health tenant.costModel key.start key.goal admitted cost

omit [Rounding] in
/-- The node has moved from `Open` to `HalfOpen`. -/
def Recovered (before later : TenantState) (node : NodeId) : Prop :=
  before.nodeState node = some .open ∧ later.nodeState node = some .halfOpen

/-- The walk enters no recovered node. -/
abbrev AvoidsRecovered (before later : TenantState) : List ℕ → Prop :=
  later.graph.Avoids (Recovered before later)

variable {tenant : TenantState}

omit [Rounding] in
theorem recoversOn_forceHalfOpen (tenant : TenantState) (node : NodeId) :
    ToolGraph.RecoversOn tenant.health (tenant.forceHalfOpen node).1.health
      (Recovered tenant (tenant.forceHalfOpen node).1) where
  wasOpen := fun node recovered notOpen => notOpen recovered.1
  same := by
    intro node' stays
    rcases tenant.forceHalfOpen_cases node with ⟨-, eq⟩ | ⟨tracker, tracked, isOpen, eq⟩
    · rw [eq]
    · rw [eq] at stays ⊢
      rw [invalidateForNode_health, HashMap.lookup_insert_eq]
      split_ifs with same
      · subst same
        exact absurd ⟨by simp [nodeState, tracked, isOpen], by simp [nodeState]⟩ stays
      · rfl

omit [Rounding] in
theorem recoversOn_recoveryProbe (tenant : TenantState) (cooldown : Duration) (now : Instant) :
    ToolGraph.RecoversOn tenant.health (tenant.recoveryProbe cooldown now).health
      (Recovered tenant (tenant.recoveryProbe cooldown now)) where
  wasOpen := fun node recovered notOpen => notOpen recovered.1
  same := by
    intro node stays
    rw [recoveryProbe_health, HashMap.lookup_mapValues]
    cases tracked : tenant.health.lookup node with
    | none => rfl
    | some tracker =>
        rcases tracker.transitionToHalfOpenIfReady_cases cooldown now with eq | ⟨isOpen, eq⟩
        · simp [eq]
        · exact absurd ⟨by simp [nodeState, tracked, isOpen],
            by simp [nodeState, tracked, eq]⟩ stays

/-- A change that takes entries away and lets nodes recover. -/
structure Recovers (before later : TenantState) : Prop where
  survives : ∀ key cached, later.cache.lookup key = some cached →
    Survives before later key cached
  recoversOn : ToolGraph.RecoversOn before.health later.health (Recovered before later)

omit [Rounding] in
theorem recovers_forceHalfOpen (tenant : TenantState) (node : NodeId) :
    Recovers tenant (tenant.forceHalfOpen node).1 :=
  ⟨fun _ _ => survives_forceHalfOpen, recoversOn_forceHalfOpen tenant node⟩

omit [Rounding] in
theorem recovers_recoveryProbe (tenant : TenantState) (cooldown : Duration) (now : Instant) :
    Recovers tenant (tenant.recoveryProbe cooldown now) :=
  ⟨fun _ _ => survives_recoveryProbe, recoversOn_recoveryProbe tenant cooldown now⟩

/-- **What is left in a coherent cache** is least among the walks that enter no recovered
node. -/
theorem Recovers.isLeastCost {later : TenantState} (recovers : Recovers tenant later)
    (coherent : tenant.Coherent) {key : RouteKey} {cached : CachedPath}
    (hit : later.cache.lookup key = some cached) :
    later.IsLeastCost key (AvoidsRecovered tenant later) cached.weight := by
  have survives := recovers.survives key cached hit
  have least := ToolGraph.isLeastCost_iff_shortestPath.mpr (coherent key cached survives.found)
  rw [IsLeastCost, AvoidsRecovered, survives.graph, survives.costModel]
  exact (ToolGraph.isLeastCost_avoiding recovers.recoversOn).mp least

/-- No walk for a cached pair through a recovered node is cheaper than the entry. -/
def NoCheaperRecovered (before later : TenantState) : Prop :=
  ∀ key cached, later.cache.lookup key = some cached → ∀ s g d p,
    later.graph.nodeToId.lookup key.start = some s →
    later.graph.nodeToId.lookup key.goal = some g →
    later.graph.CostWalk later.health later.costModel s g d p →
    ¬ AvoidsRecovered before later p → cached.weight ≤ .finite d.value

/-- **The cache stays coherent** exactly when no walk through a recovered node is
cheaper. -/
theorem Recovers.coherent_iff {later : TenantState} (recovers : Recovers tenant later)
    (coherent : tenant.Coherent) : later.Coherent ↔ NoCheaperRecovered tenant later := by
  constructor
  · intro now key cached hit s g d p startId goalId walk _
    have least := ToolGraph.isLeastCost_iff_shortestPath.mpr (now key cached hit)
    unfold ToolGraph.IsLeastCost at least
    split_ifs at least with same
    · -- a node is reached from itself at no cost
      rw [least]
      exact F64.finite_le_finite.mpr d.nonneg
    · obtain ⟨s', g', c, startId', goalId', value, -, below⟩ := least
      obtain rfl := Option.some.inj (startId.symm.trans startId')
      obtain rfl := Option.some.inj (goalId.symm.trans goalId')
      rw [value]
      exact F64.finite_le_finite.mpr (Cost.le_iff.mp (below d p walk trivial))
  · intro noCheaper key cached hit
    refine ToolGraph.isLeastCost_iff_shortestPath.mp ?_
    have least := recovers.isLeastCost coherent hit
    unfold IsLeastCost ToolGraph.IsLeastCost at least
    unfold ToolGraph.IsLeastCost
    split_ifs at least ⊢ with same
    · exact least
    · obtain ⟨s, g, c, startId, goalId, value, ⟨p, walk, -⟩, below⟩ := least
      refine ⟨s, g, c, startId, goalId, value, ⟨p, walk, trivial⟩, fun d q other _ => ?_⟩
      -- the entry is least among the walks around the recovered nodes already
      by_cases avoids : AvoidsRecovered tenant later q
      · exact below d q other avoids
      · have le := noCheaper key cached hit s g d q startId goalId other avoids
        rw [value] at le
        exact Cost.le_iff.mpr (F64.finite_le_finite.mp le)

end TenantState

namespace RouterState

open TenantState

omit [Rounding] in
/-- A forced transition of one of the tenant's nodes, or a recovery probe. -/
def IsRecovery (tenantId : TenantId) (op : Op) : Prop :=
  (∃ node, op = .forceHalfOpen tenantId node) ∨
    ∃ cooldown now order, op = .runRecoveryProbeOnce cooldown now order

omit [Rounding] in
/-- A node is tripped, a dearer route around it is cached, and the node is allowed back. -/
def detour : List Op :=
  [.trySetHealthPolicy "acme"
      { (default : HealthPolicy) with openThreshold := 1, degradedThreshold := 1 },
    .addEdge "acme" (Edge.new "start" "primary"),
    .addEdge "acme" (Edge.new "primary" "done"),
    .addEdge "acme" ((Edge.new "start" "done").withCosts (.finite 10) (.finite 1) 1000 (.finite 1)),
    .recordResult "acme" "primary" false 0 0,
    .route "acme" "start" "done"]

/-- **Recovery.**  Let a tenant's cache be coherent and let nodes of it move from `Open` to
`HalfOpen`.  The weights left in the cache are least among the walks that enter no node
just moved, the cache is coherent again if and only if no walk through such a node is
cheaper than the entry for the same pair, and the next route has least cost: among all
walks if it is computed or the cache is coherent, and in any case among the walks that
enter no node just moved. -/
theorem recovery_coherent (ops : List Op) (tenantId : TenantId) (tenant later : TenantState)
    (op : Op) (recovery : IsRecovery tenantId op)
    (found : (after ops).tenants.lookup tenantId = some tenant) (coherent : tenant.Coherent)
    (foundLater : (after (ops ++ [op])).tenants.lookup tenantId = some later) :
    (∀ key cached, later.cache.lookup key = some cached →
      later.IsLeastCost key (AvoidsRecovered tenant later) cached.weight) ∧
    (later.Coherent ↔ NoCheaperRecovered tenant later) ∧
    ∀ start goal route,
      ((after (ops ++ [op])).route tenantId start goal).answer = .routed route →
        (later.Coherent ∨ route.cacheHit = false →
          later.IsLeastCost ⟨start, goal⟩ (fun _ => True) route.totalCost) ∧
        (route.cacheHit = true →
          later.IsLeastCost ⟨start, goal⟩ (AvoidsRecovered tenant later) route.totalCost) := by
  have reached : later = tenant.apply op := by
    have reaches : op.Reaches tenantId := by
      rcases recovery with ⟨_, rfl⟩ | ⟨_, _, _, rfl⟩
      · exact Or.inr rfl
      · exact Or.inl rfl
    rw [after, run_concat, lookup_step, if_pos reaches, found] at foundLater
    exact (Option.some.inj foundLater).symm
  have recovers : Recovers tenant later := by
    rw [reached]
    rcases recovery with ⟨node, rfl⟩ | ⟨cooldown, now, _, rfl⟩
    · exact recovers_forceHalfOpen tenant node
    · exact recovers_recoveryProbe tenant cooldown now
  refine ⟨fun key cached hit => recovers.isLeastCost coherent hit,
    recovers.coherent_iff coherent, fun start goal route answer => ?_⟩
  rw [route_answer _ foundLater] at answer
  rcases later.route_cases ⟨start, goal⟩ with ⟨cached, hit, eq⟩ | ⟨route', -, computed, eq⟩ |
    ⟨-, -, eq⟩
  · rw [eq] at answer
    obtain rfl := RouteDecision.routed.inj answer
    refine ⟨?_, fun _ => recovers.isLeastCost coherent hit⟩
    rintro (now | miss)
    · exact ToolGraph.isLeastCost_iff_shortestPath.mpr (now _ cached hit)
    · cases miss
  · rw [eq] at answer
    obtain rfl := RouteDecision.routed.inj answer
    have least : later.IsLeastCost ⟨start, goal⟩ (fun _ => True) route'.totalCost :=
      ToolGraph.isLeastCost_iff_shortestPath.mpr (by rw [computed]; rfl)
    refine ⟨fun _ => least, fun hit => ?_⟩
    rw [ToolGraph.cacheHit_shortestPath computed] at hit
    cases hit
  · rw [eq] at answer
    cases answer

omit [Rounding] in
/-- Recovery, with a cached detour around the node. -/
theorem recovery_coherent_detour :
    letI := Rounding.exact
    ∃ tenant later,
      (after detour).tenants.lookup "acme" = some tenant ∧
      (after (detour ++ [.forceHalfOpen "acme" "primary"])).tenants.lookup "acme" = some later ∧
      (later.Coherent ↔ NoCheaperRecovered tenant later) := by
  let _ := Rounding.exact
  have present : ((after detour).tenants.lookup "acme") ≠ none :=
    Option.isSome_iff_ne_none.mp (by decide +kernel)
  have presentLater :
      ((after (detour ++ [.forceHalfOpen "acme" "primary"])).tenants.lookup "acme") ≠ none :=
    Option.isSome_iff_ne_none.mp (by decide +kernel)
  have found := (Option.getD_of_ne_none present default).symm
  have foundLater := (Option.getD_of_ne_none presentLater default).symm
  exact ⟨_, _, found, foundLater,
    (recovery_coherent detour "acme" _ _ (.forceHalfOpen "acme" "primary")
      (Or.inl ⟨"primary", rfl⟩) found (by decide +kernel) foundLater).2.1⟩

omit [Rounding] in
/-- In exact arithmetic the cached detour stays in the cache when the node it goes around
recovers, and is returned although the direct route is cheaper. -/
theorem recovery_not_coherent :
    letI := Rounding.exact
    ∃ tenant later,
      (after detour).tenants.lookup "acme" = some tenant ∧ tenant.Coherent ∧
      tenant.nodeState "primary" = some .open ∧
      ((after detour).forceHalfOpen "acme" "primary").answer = true ∧
      (after (detour ++ [.forceHalfOpen "acme" "primary"])).tenants.lookup "acme" = some later ∧
      ¬ later.Coherent ∧
      ((after (detour ++ [.forceHalfOpen "acme" "primary"])).route "acme" "start" "done").answer =
        .routed { nodes := ["start", "done"], totalCost := .finite 1, cacheHit := true } ∧
      later.graph.shortestPath later.health later.costModel "start" "done" =
        some
          { nodes := ["start", "primary", "done"]
            totalCost := .finite (21 / 50)
            cacheHit := false } := by
  let _ := Rounding.exact
  have present : ((after detour).tenants.lookup "acme") ≠ none :=
    Option.isSome_iff_ne_none.mp (by decide +kernel)
  have presentLater :
      ((after (detour ++ [.forceHalfOpen "acme" "primary"])).tenants.lookup "acme") ≠ none :=
    Option.isSome_iff_ne_none.mp (by decide +kernel)
  refine ⟨_, _, (Option.getD_of_ne_none present default).symm, ?_, ?_, ?_,
    (Option.getD_of_ne_none presentLater default).symm, ?_, ?_, ?_⟩
  all_goals decide +kernel

end RouterState

end TrustRouter
