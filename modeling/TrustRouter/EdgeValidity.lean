import TrustRouter.RouteCache

/-!
# Edges, public and interned

Whether an edge is valid and what it weighs is written twice in the source, once for the
edge a caller states and once for the edge the graph stores.  The second has no names, and
cannot ask for them.  So the two agree on an edge exactly if its names are not empty or
its costs are refused anyway (`storesFaithfully_iff`).

What a route passes through is a matter of the stored edges, and each of them has been
added as a public one (`exists_added_of_mem_edgesFrom`).  This holds for graphs of any
size: no name of a node is looked up in it.
-/

namespace TrustRouter

open LabelSetting

namespace Edge

/-- Both ends have a name. -/
def Named (edge : Edge) : Prop := edge.from ≠ "" ∧ edge.to ≠ ""

/-- The public check is the check of the stored edge, and one for the names. -/
theorem isValid_eq_true_iff {edge : Edge} (target : ℕ) :
    edge.isValid = true ↔ edge.Named ∧ (edge.indexed target).isValid = true := by
  simp only [isValid, Named, IndexedEdge.isValid, indexed, Bool.and_eq_true, Bool.not_eq_true',
    String.isEmpty_eq_false_iff]
  tauto

/-- The edge asks for its names only if its costs are valid. -/
theorem isValid_indexed_iff {edge : Edge} (target : ℕ) :
    ((edge.indexed target).isValid = true ↔ edge.isValid = true) ↔
      (edge.CostsValid → edge.Named) := by
  rw [isValid_eq_true_iff target]
  show _ ↔ ((edge.indexed target).isValid = true → edge.Named)
  tauto

/-- Edges that agree on their validity agree on their weight. -/
theorem weight_indexed [Rounding] {edge : Edge} {target : ℕ}
    (same : (edge.indexed target).isValid = true ↔ edge.isValid = true)
    (model : TenantCostModel) : (edge.indexed target).weight model = edge.weight model := by
  have refused : (edge.indexed target).isValid = edge.isValid := Bool.eq_iff_iff.mpr same
  rw [weight, IndexedEdge.weight, refused]
  rfl

end Edge

namespace ToolGraph

variable {graph : ToolGraph}

/-- The edge that `add_edge` stores is valid exactly if the one it is given is, and weighs
the same. -/
def StoresFaithfully [Rounding] (graph : ToolGraph) (edge : Edge) (model : TenantCostModel) :
    Prop :=
  ∃ source stored, (graph.addEdge edge).edgesFrom source = graph.edgesFrom source ++ [stored] ∧
    (stored.isValid = true ↔ edge.isValid = true) ∧ stored.weight model = edge.weight model

/-- There is one place where `add_edge` stores something. -/
theorem eq_indexed_of_addEdge {edge : Edge} {source : ℕ} {stored : IndexedEdge}
    (appended : (graph.addEdge edge).edgesFrom source = graph.edgesFrom source ++ [stored]) :
    stored = edge.indexed stored.to := by
  have out := graph.edgesFrom_addEdge edge source
  dsimp only at out
  rw [appended] at out
  split_ifs at out
  · rw [List.head_eq_of_cons_eq (List.append_cancel_left out)]
    rfl
  · exact absurd out (by simp)

/-- **When an edge is stored faithfully.** -/
theorem storesFaithfully_iff [Rounding] {edge : Edge} {model : TenantCostModel} :
    graph.StoresFaithfully edge model ↔ (edge.CostsValid → edge.Named) := by
  constructor
  · rintro ⟨source, stored, appended, same, -⟩
    rw [eq_indexed_of_addEdge appended] at same
    exact (Edge.isValid_indexed_iff _).mp same
  · intro named
    have same := fun target => (Edge.isValid_indexed_iff target).mpr named
    have out := graph.edgesFrom_addEdge edge (graph.getOrInsertNode edge.from).2
    exact ⟨_, _, out.trans (if_pos rfl), same _, Edge.weight_indexed (same _) model⟩

/-- The edge is stored between the nodes of the leg. -/
def Holds (graph : ToolGraph) (leg : NodeId × NodeId) (edge : Edge) : Prop :=
  ∃ source target, edge.indexed target ∈ graph.edgesFrom source ∧
    leg = (graph.nodeName source, graph.nodeName target)

/-- **The legs of a route** are stored edges that are enabled and have valid costs. -/
theorem exists_stored_of_shortestPath [Rounding] {health : HashMap NodeId HealthTracker}
    {model : TenantCostModel} {start goal : NodeId} {route : Route}
    (found : graph.shortestPath health model start goal = some route) {leg : NodeId × NodeId}
    (mem : leg ∈ legs route.nodes) :
    ∃ source, ∃ stored ∈ graph.edgesFrom source, stored.enabled = true ∧
      stored.isValid = true ∧ leg = (graph.nodeName source, graph.nodeName stored.to) := by
  by_cases same : start = goal
  · rw [shortestPath, if_pos same] at found
    obtain rfl := Option.some.inj found
    cases mem
  · obtain ⟨s, g, c, p, -, -, walk, -, -, -, rfl⟩ := exists_path_of_shortestPath same found
    rw [← List.map_reverse, legs_map] at mem
    obtain ⟨⟨i, j⟩, inPath, rfl⟩ := List.mem_map.mp mem
    -- the nodes that are left are the end of a walk
    have ends : (p.reverse.takeWhile (· ≠ u32Max)).reverse <:+ p := by
      rw [← List.reverse_prefix, List.reverse_reverse]
      exact List.takeWhile_prefix _
    obtain ⟨_, _, stored, out, rfl, w, usable, -⟩ :=
      walk.exists_step (mem_legs_of_suffix ends inPath)
    obtain ⟨enabled, valid, -⟩ := edgeCost_eq_some usable
    exact ⟨i, stored, out, enabled, valid, rfl⟩

end ToolGraph

variable [Rounding]

/-- Only `add_edge` changes the graph of a tenant. -/
theorem TenantState.graph_apply (tenant : TenantState) (op : Op) :
    (∃ tenantId edge, op = .addEdge tenantId edge ∧
        (tenant.apply op).graph = tenant.graph.addEdge edge) ∨
      (tenant.apply op).graph = tenant.graph := by
  have configured : ∀ {valid : Prop} [Decidable valid] {changed : TenantState},
      changed.graph = tenant.graph →
        (if valid then changed else tenant).graph = tenant.graph := by
    intro valid _ changed same
    split_ifs
    · exact same
    · rfl
  cases op with
  | addEdge tenantId edge => exact Or.inl ⟨tenantId, edge, rfl, rfl⟩
  | addTenant => exact Or.inr rfl
  | setCostModel | trySetCostModel | trySetHealthPolicy => exact Or.inr (configured rfl)
  | recordResult => exact Or.inr (tenant.recordResult_graph _ _ _ _)
  | runRecoveryProbeOnce => exact Or.inr (tenant.recoveryProbe_graph _ _)
  | forceHalfOpen tenantId node =>
      refine Or.inr ?_
      rcases tenant.forceHalfOpen_cases node with ⟨-, eq⟩ | ⟨_, -, -, eq⟩
      · rw [apply, eq]
      · rw [apply, eq]
        rfl
  | route tenantId start goal =>
      refine Or.inr ?_
      rcases tenant.route_cases ⟨start, goal⟩ with ⟨_, -, eq⟩ | ⟨_, -, -, eq⟩ | ⟨-, -, eq⟩
      · rw [apply, eq]
      · rw [apply, eq, insertCache_graph]
      · rw [apply, eq]

namespace RouterState

variable {tenantId : TenantId}

/-- **Where a stored edge comes from**: it has been added to the tenant. -/
theorem exists_added_of_mem_edgesFrom (ops : List Op) {source : ℕ} {stored : IndexedEdge}
    (mem : stored ∈
      (((after ops).tenants.lookup tenantId).getD default).graph.edgesFrom source) :
    ∃ edge, Op.addEdge tenantId edge ∈ ops ∧ stored = edge.indexed stored.to := by
  induction ops using List.reverseRecOn generalizing source stored with
  | nil =>
      exact absurd mem (by simp [after, default, ToolGraph.edgesFrom])
  | append_singleton ops op ih =>
      have old : ∀ {source stored}, stored ∈
          (((after ops).tenants.lookup tenantId).getD default).graph.edgesFrom source →
            ∃ edge, Op.addEdge tenantId edge ∈ ops ++ [op] ∧ stored = edge.indexed stored.to := by
        intro source stored mem
        obtain ⟨edge, added, eq⟩ := ih mem
        exact ⟨edge, List.mem_append_left _ added, eq⟩
      rw [after, run_concat] at mem
      cases found : (step (after ops) op).tenants.lookup tenantId with
      | none =>
          rw [found] at mem
          exact absurd mem (by simp [default, ToolGraph.edgesFrom])
      | some later =>
          rw [found, Option.getD_some] at mem
          rcases eq_of_lookup_step _ found with kept | ⟨reaches, rfl⟩
          · exact old (by rwa [kept])
          · rcases TenantState.graph_apply _ op with ⟨tenantId', edge, rfl, grown⟩ | same
            · obtain rfl := (Op.reaches_iff rfl _).mp reaches
              rw [grown, ToolGraph.edgesFrom_addEdge] at mem
              split_ifs at mem
              · rcases List.mem_append.mp mem with mem | last
                · exact old mem
                · obtain rfl := List.mem_singleton.mp last
                  exact ⟨edge, List.mem_append_right _ List.mem_cons_self, rfl⟩
              · exact old mem
            · rw [same] at mem
              exact old mem

/-- Where a route comes from: the search has found it on today's graph, now or when it was
inserted into the cache. -/
theorem exists_health_of_routed (ops : List Op) {tenant : TenantState}
    (found : (after ops).tenants.lookup tenantId = some tenant) {start goal : NodeId}
    {route : Route} (routed : ((after ops).route tenantId start goal).answer = .routed route) :
    ∃ health found, tenant.graph.shortestPath health tenant.costModel start goal = some found ∧
      route.nodes = found.nodes := by
  rw [route_answer _ found] at routed
  rcases tenant.route_cases ⟨start, goal⟩ with ⟨cached, hit, eq⟩ | ⟨fresh, -, computed, eq⟩ |
    ⟨-, -, eq⟩
  · rw [eq] at routed
    obtain ⟨-, _, _, inserting, insertedAt⟩ := exists_insertedAt ops found hit
    obtain rfl := RouteDecision.routed.inj routed
    exact ⟨inserting.health, _, insertedAt.computed, rfl⟩
  · rw [eq] at routed
    obtain rfl := RouteDecision.routed.inj routed
    exact ⟨tenant.health, _, computed, rfl⟩
  · rw [eq] at routed
    cases routed

/-- Each leg of a route is an edge that has been added to the tenant, is enabled and is
valid. -/
def PassesValid (ops : List Op) (tenantId : TenantId) (tenant : TenantState) (route : Route) :
    Prop :=
  ∀ leg ∈ legs route.nodes, ∃ edge, Op.addEdge tenantId edge ∈ ops ∧
    tenant.graph.Holds leg edge ∧ edge.enabled = true ∧ edge.isValid = true

/-- **When stored and public edges agree.**  An edge is stored faithfully exactly if its
costs are not valid or its ends are named; and as long as this holds of the enabled edges
that have been added to a tenant, its routes pass through valid edges only. -/
theorem edges_agree :
    (∀ (graph : ToolGraph) (edge : Edge) (model : TenantCostModel),
      graph.StoresFaithfully edge model ↔ (edge.CostsValid → edge.Named)) ∧
    ∀ (ops : List Op) (tenantId : TenantId) (tenant : TenantState),
      (after ops).tenants.lookup tenantId = some tenant →
      (∀ edge, Op.addEdge tenantId edge ∈ ops → edge.enabled = true →
        edge.CostsValid → edge.Named) →
      ∀ start goal route, ((after ops).route tenantId start goal).answer = .routed route →
        PassesValid ops tenantId tenant route := by
  refine ⟨fun _ _ _ => ToolGraph.storesFaithfully_iff, ?_⟩
  intro ops tenantId tenant found named start goal route routed leg mem
  obtain ⟨health, computed, search, nodes⟩ := exists_health_of_routed ops found routed
  rw [nodes] at mem
  obtain ⟨source, stored, out, enabled, valid, rfl⟩ :=
    ToolGraph.exists_stored_of_shortestPath search mem
  obtain ⟨edge, added, eq⟩ := exists_added_of_mem_edgesFrom ops (by rwa [found])
  rw [eq] at out enabled valid
  exact ⟨edge, added, ⟨source, stored.to, out, rfl⟩, enabled,
    (Edge.isValid_eq_true_iff stored.to).mpr ⟨named edge added enabled valid, valid⟩⟩

omit [Rounding] in
/-- A route over an edge between named nodes. -/
theorem edges_agree_named :
    letI := Rounding.exact
    ∃ tenant route, (after [.addEdge "acme" (Edge.new "a" "b")]).tenants.lookup "acme" =
        some tenant ∧ route.nodes = ["a", "b"] ∧
      PassesValid [.addEdge "acme" (Edge.new "a" "b")] "acme" tenant route := by
  let _ := Rounding.exact
  have present : ((after [.addEdge "acme" (Edge.new "a" "b")]).tenants.lookup "acme") ≠ none :=
    Option.isSome_iff_ne_none.mp (by decide +kernel)
  have found := (Option.getD_of_ne_none present default).symm
  have named : ∀ edge, Op.addEdge "acme" edge ∈ [.addEdge "acme" (Edge.new "a" "b")] →
      edge.enabled = true → edge.CostsValid → edge.Named := by
    intro edge added _ _
    obtain rfl := (Op.addEdge.inj (List.mem_singleton.mp added)).2
    exact ⟨by decide, by decide⟩
  have routed : ((after [.addEdge "acme" (Edge.new "a" "b")]).route "acme" "a" "b").answer =
      .routed { nodes := ["a", "b"], totalCost := .finite (1 / 100), cacheHit := false } := by
    decide +kernel
  exact ⟨_, _, found, rfl, edges_agree.2 _ "acme" _ found named "a" "b" _ routed⟩

omit [Rounding] in
/-- An edge out of the node without a name is taken, and is not valid. -/
theorem not_edges_agree :
    letI := Rounding.exact
    (¬ ∀ (graph : ToolGraph) (edge : Edge) (model : TenantCostModel),
      graph.StoresFaithfully edge model) ∧
    ¬ ∀ (ops : List Op) (tenantId : TenantId) (tenant : TenantState),
      (after ops).tenants.lookup tenantId = some tenant →
      ∀ start goal route, ((after ops).route tenantId start goal).answer = .routed route →
        PassesValid ops tenantId tenant route := by
  let _ := Rounding.exact
  constructor
  · intro all
    have named := ToolGraph.storesFaithfully_iff.mp (all default (Edge.new "" "b") default)
    exact (named (Edge.costsValid_new _ _)).1 rfl
  · intro all
    have present : ((after [.addEdge "acme" (Edge.new "" "b")]).tenants.lookup "acme") ≠ none :=
      Option.isSome_iff_ne_none.mp (by decide +kernel)
    have found := (Option.getD_of_ne_none present default).symm
    have routed : ((after [.addEdge "acme" (Edge.new "" "b")]).route "acme" "" "b").answer =
        .routed { nodes := ["", "b"], totalCost := .finite (1 / 100), cacheHit := false } := by
      decide +kernel
    obtain ⟨edge, added, -, -, valid⟩ :=
      all _ "acme" _ found "" "b" _ routed ("", "b") List.mem_cons_self
    obtain rfl := (Op.addEdge.inj (List.mem_singleton.mp added)).2
    exact absurd valid (by decide)

end RouterState

end TrustRouter
