import TrustRouter.Feasible
import TrustRouter.TenantRuns

/-!
# The route cache

A cached route is never checked again.  That a hit is right rests on what every
operation does to the entries it leaves in the cache, and that is one statement,
`lookup_cache_apply`: an entry found after an operation either was inserted by it or
`Survives` it, which means that graph and cost model are the same as before and that no
node on its path has been opened.

Two results follow.  `route_isRight` says of every decision, cached or not, that it is
right for the state it is made in.  `exists_insertedAt` says where an entry comes from:
it is what the search found, on the graph and the cost model of today and the health map
of the day it was inserted.
-/

namespace TrustRouter

variable [Rounding]

namespace TenantState

omit [Rounding] in
/-- The entry of a route. -/
def entryOf (route : Route) : CachedPath where
  path := route.nodes
  weight := route.totalCost
  touchedNodes := route.nodes.toFinset

omit [Rounding] in
/-- An entry is in the cache before and after a change that is harmless to it. -/
structure Survives (before later : TenantState) (key : RouteKey) (cached : CachedPath) : Prop where
  found : before.cache.lookup key = some cached
  graph : later.graph = before.graph
  costModel : later.costModel = before.costModel
  /-- No node on the path has been opened. -/
  notOpen : ∀ node ∈ cached.touchedNodes, NotOpen before.health node → NotOpen later.health node

/-- An entry is what `route` has just found and inserted. -/
structure Inserted (before later : TenantState) (key : RouteKey) (cached : CachedPath) : Prop where
  miss : before.cache.lookup key = none
  graph : later.graph = before.graph
  costModel : later.costModel = before.costModel
  health : later.health = before.health
  computed : ∃ route, cached = entryOf route ∧
    before.graph.shortestPath before.health before.costModel key.start key.goal = some route

variable {tenant : TenantState} {key : RouteKey} {cached : CachedPath}

omit [Rounding] in
theorem Survives.rfl (found : tenant.cache.lookup key = some cached) :
    Survives tenant tenant key cached := ⟨found, .refl _, .refl _, fun _ _ notOpen => notOpen⟩

/-- What a result leaves in the cache: an entry on whose path the node lies only if the
node's state has not changed. -/
theorem survives_recordResult {node : NodeId} {success : Bool} {latencyMs : ℕ} {now : Instant}
    (found : (tenant.recordResult node success latencyMs now).cache.lookup key = some cached) :
    Survives tenant (tenant.recordResult node success latencyMs now) key cached := by
  have kept : tenant.cache.lookup key = some cached ∧
      ((tenant.recorded node success latencyMs now).2 = true → node ∉ cached.touchedNodes) := by
    unfold recordResult at found
    dsimp only at found
    split_ifs at found with changed
    · obtain ⟨found, untouched⟩ := lookup_invalidateForNode.mp found
      exact ⟨found, fun _ => untouched⟩
    · exact ⟨found, fun h => absurd h changed⟩
  refine ⟨kept.1, recordResult_graph _ _ _ _, recordResult_costModel _ _ _ _, ?_⟩
  intro node' touched notOpen
  rw [NotOpen, recordResult_health, HashMap.lookup_insert_eq]
  split_ifs with same
  · subst same
    have unchanged : (tenant.recorded node' success latencyMs now).1.state =
        (tenant.health.getOrDefault node').state := by
      have flag : (tenant.recorded node' success latencyMs now).2 = false := by
        by_contra changed
        exact kept.2 (by simpa using changed) touched
      exact (bne_eq_false_iff_eq.mp flag).symm
    rw [Option.map_some, unchanged, HashMap.getOrDefault]
    unfold NotOpen at notOpen
    cases tracked : tenant.health.lookup node' with
    | none => simp [default]
    | some tracker => simpa [tracked] using notOpen
  · exact notOpen

omit [Rounding] in
theorem survives_forceHalfOpen {node : NodeId}
    (found : (tenant.forceHalfOpen node).1.cache.lookup key = some cached) :
    Survives tenant (tenant.forceHalfOpen node).1 key cached := by
  rcases tenant.forceHalfOpen_cases node with ⟨-, eq⟩ | ⟨tracker, tracked, -, eq⟩
  · rw [eq] at found ⊢
    exact .rfl found
  · rw [eq] at found ⊢
    refine ⟨(lookup_invalidateForNode.mp found).1, .refl _, .refl _, ?_⟩
    intro node' _ notOpen
    rw [NotOpen, invalidateForNode_health, HashMap.lookup_insert_eq]
    split_ifs
    · simp
    · exact notOpen

omit [Rounding] in
theorem survives_recoveryProbe {cooldown : Duration} {now : Instant}
    (found : (tenant.recoveryProbe cooldown now).cache.lookup key = some cached) :
    Survives tenant (tenant.recoveryProbe cooldown now) key cached := by
  refine ⟨(lookup_foldl_invalidateForNode.mp found).1, recoveryProbe_graph _ _,
    recoveryProbe_costModel _ _, ?_⟩
  intro node _ notOpen
  unfold NotOpen at notOpen ⊢
  rw [recoveryProbe_health, HashMap.lookup_mapValues]
  cases tracked : tenant.health.lookup node with
  | none => simp
  | some tracker =>
      rw [tracked, Option.map_some] at notOpen
      rw [Option.map_some, Option.map_some, HealthTracker.transitionToHalfOpenIfReady_state]
      split_ifs
      · simp
      · exact notOpen

omit [Rounding] in
/-- A configuration change leaves nothing in the cache. -/
theorem lookup_invalidateAllCache : tenant.invalidateAllCache.cache.lookup key ≠ some cached := by
  simp [invalidateAllCache]

/-- **One step.**  An entry found after an operation has been inserted by it or survives
it. -/
theorem lookup_cache_apply {op : Op}
    (found : (tenant.apply op).cache.lookup key = some cached) :
    Survives tenant (tenant.apply op) key cached ∨
      ((∃ tenantId, op = .route tenantId key.start key.goal) ∧
        Inserted tenant (tenant.apply op) key cached) := by
  -- the three calls that set something empty the cache if they are accepted
  have configured : ∀ {valid : Prop} [Decidable valid] {changed : TenantState},
      tenant.apply op = (if valid then changed.invalidateAllCache else tenant) →
      Survives tenant (tenant.apply op) key cached := by
    intro valid _ changed eq
    rw [eq] at found ⊢
    split_ifs at found ⊢
    · exact absurd found lookup_invalidateAllCache
    · exact .rfl found
  cases op with
  | addTenant => exact Or.inl (.rfl found)
  | setCostModel | trySetCostModel | trySetHealthPolicy => exact Or.inl (configured rfl)
  | addEdge => exact absurd found lookup_invalidateAllCache
  | recordResult => exact Or.inl (survives_recordResult found)
  | forceHalfOpen => exact Or.inl (survives_forceHalfOpen found)
  | runRecoveryProbeOnce => exact Or.inl (survives_recoveryProbe found)
  | route tenantId start goal =>
      rcases tenant.route_cases ⟨start, goal⟩ with ⟨_, -, eq⟩ | ⟨route, miss, computed, eq⟩ |
        ⟨-, -, eq⟩
      · rw [apply, eq] at found ⊢
        exact Or.inl (.rfl found)
      · rw [apply, eq] at found ⊢
        rcases lookup_insertCache found with ⟨rfl, rfl⟩ | kept
        · exact Or.inr ⟨⟨tenantId, rfl⟩, miss, insertCache_graph _ _, insertCache_costModel _ _,
            insertCache_health _ _, route, rfl, computed⟩
        · refine Or.inl ⟨kept, insertCache_graph _ _, insertCache_costModel _ _, ?_⟩
          rw [insertCache_health]
          exact fun _ _ notOpen => notOpen
      · rw [apply, eq] at found ⊢
        exact Or.inl (.rfl found)

end TenantState

namespace RouterState

open TenantState

variable {tenantId : TenantId} {key : RouteKey} {cached : CachedPath}

/-- The same of a router: an entry found after an operation survives it or has been
inserted by it, and is one of a tenant that was there before. -/
theorem lookup_cache_step {state : RouterState} {op : Op} {later : TenantState}
    (found : (state.step op).tenants.lookup tenantId = some later)
    (hit : later.cache.lookup key = some cached) :
    ∃ tenant, state.tenants.lookup tenantId = some tenant ∧
      (Survives tenant later key cached ∨
        op = .route tenantId key.start key.goal ∧ Inserted tenant later key cached) := by
  rcases lookup_step_cases state found with ⟨tenant, place, rfl | ⟨reaches, rfl⟩⟩ | ⟨creates, rfl⟩
  · exact ⟨later, place, Or.inl (.rfl hit)⟩
  · refine ⟨tenant, place, ?_⟩
    rcases lookup_cache_apply hit with survives | ⟨⟨tenantId', rfl⟩, inserted⟩
    · exact Or.inl survives
    · obtain rfl := (Op.reaches_iff rfl _).mp reaches
      exact Or.inr ⟨rfl, inserted⟩
  · -- a tenant that has just been created has an empty cache
    rcases lookup_cache_apply hit with survives | ⟨⟨_, rfl⟩, -⟩
    · cases survives.found
    · cases creates

/-! ## Decisions -/

/-- A decision is right for the tenant it is made for.  A route leads from start to goal
over feasible edges.  An escalation for want of a path rules out the chains of feasible
edges that `admitted` picks out, and reports the `Open` nodes in order. -/
def IsRight (tenant : TenantState) (start goal : NodeId) (admitted : List Edge → Prop) :
    RouteDecision → Prop
  | .routed route => ∃ edges, tenant.graph.Chain start edges goal ∧
      (∀ edge ∈ edges, edge.Feasible tenant.health) ∧ route.nodes = start :: edges.map Edge.to
  | .escalate context => context.reason = .noFeasiblePath → start ≠ goal ∧
      (∀ edges, tenant.graph.Chain start edges goal →
        (∀ edge ∈ edges, edge.Feasible tenant.health) → ¬ admitted edges) ∧
      context.failedOrBlockedNodes.Pairwise (· ≤ ·) ∧ context.failedOrBlockedNodes.Nodup ∧
      ∀ node, node ∈ context.failedOrBlockedNodes ↔ tenant.nodeState node = some .open

/-- A cached path leads over feasible edges. -/
def CacheSound (tenant : TenantState) : Prop :=
  ∀ key cached, tenant.cache.lookup key = some cached →
    cached.touchedNodes = cached.path.toFinset ∧
    ∃ edges, tenant.graph.Chain key.start edges key.goal ∧
      (∀ edge ∈ edges, edge.Feasible tenant.health) ∧
      cached.path = key.start :: edges.map Edge.to

/-- **The cache is sound**, as long as no index is the sentinel of the search. -/
theorem cacheSound_after (ops : List Op) {tenant : TenantState}
    (found : (after ops).tenants.lookup tenantId = some tenant)
    (small : tenant.graph.idToNode.length ≤ u32Max) : CacheSound tenant := by
  induction ops using List.reverseRecOn generalizing tenant with
  | nil => cases found
  | append_singleton ops op ih =>
      intro key cached hit
      rw [after, run_concat] at found
      obtain ⟨before, place, survives | ⟨-, inserted⟩⟩ := lookup_cache_step found hit
      · -- the chain is still there, and no node on it has been opened
        rw [survives.graph] at small ⊢
        obtain ⟨touched, edges, chain, feasible, path⟩ := ih place small key cached survives.found
        refine ⟨touched, edges, chain, fun edge mem => ?_, path⟩
        have entered : edge.to ∈ cached.touchedNodes := by
          rw [touched, path, List.mem_toFinset]
          exact List.mem_cons_of_mem _ (List.mem_map_of_mem mem)
        exact { feasible edge mem with
          notOpen := survives.notOpen _ entered (feasible edge mem).notOpen }
      · obtain ⟨route, rfl, computed⟩ := inserted.computed
        rw [inserted.graph] at small ⊢
        rw [inserted.health]
        obtain ⟨edges, chain, feasible, nodes, -⟩ :=
          ToolGraph.exists_chain_of_shortestPath small computed
        exact ⟨rfl, edges, chain, feasible, nodes⟩

/-- **Every decision is right** for the state it is made in, cached or not: for every
tenant of a router after any run, as long as the tenant's graph has no node with the
index `u32::MAX`.  The chains that an escalation rules out are those whose cost, added up
in floating point, is finite. -/
theorem route_isRight (ops : List Op) (tenantId : TenantId) (tenant : TenantState)
    (found : (after ops).tenants.lookup tenantId = some tenant)
    (small : tenant.graph.idToNode.length ≤ u32Max) (start goal : NodeId) :
    IsRight tenant start goal
      (fun edges => (ToolGraph.chainCost tenant.health tenant.costModel edges).isFinite = true)
      ((after ops).route tenantId start goal).answer := by
  rw [route_answer _ found]
  rcases tenant.route_cases ⟨start, goal⟩ with ⟨cached, hit, eq⟩ | ⟨route, -, computed, eq⟩ |
    ⟨-, absent, eq⟩
  · -- a hit is right because the cache is sound, a miss because the search is
    rw [eq]
    obtain ⟨-, edges, chain, feasible, path⟩ := cacheSound_after ops found small _ _ hit
    exact ⟨edges, chain, feasible, path⟩
  · rw [eq]
    obtain ⟨edges, chain, feasible, nodes, -⟩ :=
      ToolGraph.exists_chain_of_shortestPath small computed
    exact ⟨edges, chain, feasible, nodes⟩
  · rw [eq]
    intro _
    have fits : tenant.graph.idToNode.length ≤ 2 ^ 32 := small.trans (Nat.sub_le _ _)
    obtain ⟨ne, infinite⟩ := ToolGraph.chainCost_of_shortestPath_eq_none fits absent
    refine ⟨ne, fun edges chain feasible => ?_, tenant.blockedNodes_sorted,
      tenant.blockedNodes_nodup, fun node => mem_blockedNodes⟩
    simp [infinite edges chain feasible]

omit [Rounding] in
/-- A decision on a graph of one edge. -/
theorem route_isRight_oneEdge :
    letI := Rounding.exact
    ∃ tenant, (after [.addEdge "acme" (Edge.new "a" "b")]).tenants.lookup "acme" = some tenant ∧
      IsRight tenant "a" "b"
        (fun edges => (ToolGraph.chainCost tenant.health tenant.costModel edges).isFinite = true)
        ((after [.addEdge "acme" (Edge.new "a" "b")]).route "acme" "a" "b").answer := by
  let _ := Rounding.exact
  have present : ((after [.addEdge "acme" (Edge.new "a" "b")]).tenants.lookup "acme") ≠ none :=
    Option.isSome_iff_ne_none.mp (by decide +kernel)
  have found := (Option.getD_of_ne_none present default).symm
  exact ⟨_, found, route_isRight _ "acme" _ found (by decide +kernel) "a" "b"⟩

/-! ## Provenance -/

/-- The entry was inserted by the call between `before` and `later`, has been in the
cache since, and is what the search finds on the graph and the cost model of today with
the trackers `inserting` had. -/
structure InsertedAt (ops : List Op) (tenantId : TenantId) (tenant : TenantState)
    (key : RouteKey) (cached : CachedPath) (before later : List Op)
    (inserting : TenantState) : Prop where
  split : ops = before ++ .route tenantId key.start key.goal :: later
  found : (after before).tenants.lookup tenantId = some inserting
  miss : inserting.cache.lookup key = none
  present : ∀ middle rest, later = middle ++ rest → ∃ between,
    (after (before ++ .route tenantId key.start key.goal :: middle)).tenants.lookup tenantId =
        some between ∧
      between.cache.lookup key = some cached
  computed : tenant.graph.shortestPath inserting.health tenant.costModel key.start key.goal =
    some { nodes := cached.path, totalCost := cached.weight, cacheHit := false }

/-- **Where an entry comes from.** -/
theorem exists_insertedAt (ops : List Op) {tenant : TenantState}
    (found : (after ops).tenants.lookup tenantId = some tenant)
    (hit : tenant.cache.lookup key = some cached) :
    cached.touchedNodes = cached.path.toFinset ∧
      ∃ before later inserting,
        InsertedAt ops tenantId tenant key cached before later inserting := by
  induction ops using List.reverseRecOn generalizing tenant with
  | nil => cases found
  | append_singleton ops op ih =>
      have foundStep := found
      rw [after, run_concat] at foundStep
      obtain ⟨previous, place, survives | ⟨rfl, inserted⟩⟩ := lookup_cache_step foundStep hit
      · obtain ⟨touched, before, later, inserting, at_⟩ := ih place survives.found
        refine ⟨touched, before, later ++ [op], inserting, by simp [at_.split], at_.found,
          at_.miss, ?_, ?_⟩
        · intro middle rest split
          rcases List.eq_nil_or_concat rest with rfl | ⟨rest, last, rfl⟩
          · -- up to now
            rw [List.append_nil] at split
            refine ⟨tenant, ?_, hit⟩
            rw [← split, ← List.cons_append, ← List.append_assoc, ← at_.split]
            exact found
          · rw [List.concat_eq_append, ← List.append_assoc] at split
            exact at_.present middle rest (List.append_inj_left' split rfl)
        · rw [survives.graph, survives.costModel]
          exact at_.computed
      · -- inserted by the last call
        obtain ⟨route, rfl, computed⟩ := inserted.computed
        refine ⟨rfl, ops, [], previous, rfl, place, inserted.miss, ?_, ?_⟩
        · intro middle rest split
          obtain ⟨rfl, rfl⟩ := List.append_eq_nil_iff.mp split.symm
          exact ⟨tenant, found, hit⟩
        · rw [inserted.graph, inserted.costModel, computed]
          exact congrArg some (ToolGraph.cacheHit_shortestPath computed)

/-- **Cache transparency.**  A cached entry is the entry of its path's nodes; it was
inserted by an earlier call and is what the search finds on the graph and the cost model
of today with the trackers of that moment.  If the trackers are the same today, a hit
returns the nodes and the cost a miss would compute.  As long as no index is the sentinel
of the search, the path runs from start to goal. -/
theorem cached_transparent (ops : List Op) (tenantId : TenantId) (tenant : TenantState)
    (found : (after ops).tenants.lookup tenantId = some tenant) (key : RouteKey)
    (cached : CachedPath) (hit : tenant.cache.lookup key = some cached) :
    (tenant.graph.idToNode.length ≤ u32Max →
      cached.path.head? = some key.start ∧ cached.path.getLast? = some key.goal) ∧
    cached.touchedNodes = cached.path.toFinset ∧
    ∃ before later inserting, InsertedAt ops tenantId tenant key cached before later inserting ∧
      ((∀ node, tenant.health.lookup node = inserting.health.lookup node) →
        ((after ops).route tenantId key.start key.goal).answer =
          .routed { nodes := cached.path, totalCost := cached.weight, cacheHit := true } ∧
        tenant.graph.shortestPath tenant.health tenant.costModel key.start key.goal =
          some { nodes := cached.path, totalCost := cached.weight, cacheHit := false }) := by
  obtain ⟨touched, before, later, inserting, at_⟩ := exists_insertedAt ops found hit
  refine ⟨fun small => ?_, touched, before, later, inserting, at_, fun same => ⟨?_, ?_⟩⟩
  · obtain ⟨-, edges, chain, -, path⟩ := cacheSound_after ops found small key cached hit
    rw [path]
    exact ⟨rfl, chain.getLast?_nodes⟩
  · rw [route_answer _ found]
    simp [TenantState.route, TenantState.routeFast, hit, TenantState.decision]
  · rw [ToolGraph.shortestPath_congr same]
    exact at_.computed

omit [Rounding] in
/-- The entry a first call of `route` leaves in the cache. -/
theorem cached_transparent_oneEdge :
    letI := Rounding.exact
    ∃ tenant cached,
      (after [.addEdge "acme" (Edge.new "a" "b"), .route "acme" "a" "b"]).tenants.lookup "acme" =
        some tenant ∧
      tenant.cache.lookup ⟨"a", "b"⟩ = some cached ∧
      cached.path.head? = some "a" ∧ cached.path.getLast? = some "b" ∧
      cached.touchedNodes = cached.path.toFinset := by
  let _ := Rounding.exact
  have present : ((after [.addEdge "acme" (Edge.new "a" "b"),
      .route "acme" "a" "b"]).tenants.lookup "acme") ≠ none :=
    Option.isSome_iff_ne_none.mp (by decide +kernel)
  have found := (Option.getD_of_ne_none present default).symm
  obtain ⟨cached, hit⟩ : ∃ cached, (((after [.addEdge "acme" (Edge.new "a" "b"),
      .route "acme" "a" "b"]).tenants.lookup "acme").getD default).cache.lookup ⟨"a", "b"⟩ =
        some cached :=
    Option.isSome_iff_exists.mp (by decide +kernel)
  obtain ⟨path, touched, -⟩ := cached_transparent _ "acme" _ found ⟨"a", "b"⟩ cached hit
  obtain ⟨start, goal⟩ := path (by decide +kernel)
  exact ⟨_, cached, found, hit, start, goal, touched⟩

end RouterState

end TrustRouter
