import TrustRouter.IdSpace

/-!
# Least-cost routes

With exact arithmetic the cost of a chain is the sum of the costs of its edges, wherever it
starts (`exists_rest_of_foldl`).  So an edge of a cheapest chain can be exchanged for a
parallel one, and is itself the cheapest of them (`isLeastLink_of_mem`).

The cost of a route comes from the queue of the search, and its nodes from the array of
predecessors.  The two agree as long as no node has the index `u32::MAX`: a route whose path
goes through that node loses everything before it, and keeps the cost of all of it
(`not_leastRoute`).
-/

namespace TrustRouter

open LabelSetting

namespace ToolGraph

/-- An enabled edge of the graph with valid costs from one node to another. -/
structure Joins (graph : ToolGraph) (source target : NodeId) (edge : Edge) : Prop where
  mem : edge ∈ graph.edges
  source : edge.from = source
  target : edge.to = target
  enabled : edge.enabled = true
  costsValid : edge.CostsValid

/-! ### Chains -/

section

variable {graph : ToolGraph} {start goal : NodeId}

theorem chain_concat_iff {edges : List Edge} {edge : Edge} :
    graph.Chain start (edges ++ [edge]) goal ↔
      graph.Chain start edges edge.from ∧ edge ∈ graph.edges ∧ goal = edge.to := by
  constructor
  · intro chain
    generalize same : edges ++ [edge] = all at chain
    cases chain with
    | nil => simp at same
    | snoc chain mem =>
        obtain ⟨rfl, last⟩ := List.append_inj' same rfl
        obtain rfl := List.head_eq_of_cons_eq last
        exact ⟨chain, mem, rfl⟩
  · rintro ⟨chain, mem, rfl⟩
    exact .snoc chain mem

/-- An edge of a chain can be exchanged for a parallel one. -/
theorem Chain.exchange {before rest : List Edge} {edge other : Edge}
    (chain : graph.Chain start (before ++ edge :: rest) goal) (mem : other ∈ graph.edges)
    (source : other.from = edge.from) (target : other.to = edge.to) :
    graph.Chain start (before ++ other :: rest) goal := by
  induction rest using List.reverseRecOn generalizing goal with
  | nil =>
      obtain ⟨front, -, rfl⟩ := chain_concat_iff.mp chain
      rw [← target]
      exact .snoc (source ▸ front) mem
  | append_singleton rest last ih =>
      rw [← List.cons_append, ← List.append_assoc] at chain ⊢
      obtain ⟨front, inGraph, rfl⟩ := chain_concat_iff.mp chain
      exact .snoc (ih front) inGraph

/-- The legs of a chain are its edges. -/
theorem Chain.legs_nodes {edges : List Edge} (chain : graph.Chain start edges goal) :
    legs (start :: edges.map Edge.to) = edges.map fun edge => (edge.from, edge.to) := by
  induction chain with
  | nil => rfl
  | snoc chain _ ih =>
      rw [List.map_append, ← List.cons_append, List.map_singleton,
        legs_concat chain.getLast?_nodes, ih, List.map_append, List.map_singleton]

end

variable [Rounding]

/-- The least cost of an edge from one node to another. -/
def IsLeastLink (graph : ToolGraph) (health : HashMap NodeId HealthTracker)
    (model : TenantCostModel) (source target : NodeId) (cost : F64) : Prop :=
  (∃ edge, graph.Joins source target edge ∧ linkCost health model edge = cost) ∧
    ∀ edge, graph.Joins source target edge → cost ≤ linkCost health model edge

end ToolGraph

/-! ### Exact arithmetic -/

section

variable [Rounding] (exact : ∀ q : ℚ, Rounding.round q = .finite q)

include exact

/-- What is added to a cost does not depend on the cost. -/
theorem F64.exists_rest_of_foldl {costs : List F64} {x : F64} {r : ℚ}
    (sum : costs.foldl (· + ·) x = .finite r) :
    ∃ q rest, x = .finite q ∧ ∀ p, costs.foldl (· + ·) (F64.finite p) = .finite (p + rest) := by
  induction costs using List.reverseRecOn generalizing r with
  | nil => exact ⟨r, 0, sum, fun p => by simp⟩
  | append_singleton costs cost ih =>
      rw [List.foldl_concat] at sum
      obtain ⟨before, w, front, rfl⟩ := F64.exists_finite_of_add sum
      obtain ⟨q, rest, start, total⟩ := ih front
      refine ⟨q, rest + w, start, fun p => ?_⟩
      rw [List.foldl_concat, total, F64.finite_add_finite, exact, add_assoc]

theorem F64.isFinite_add {x y : F64} (hx : x.isFinite = true) (hy : y.isFinite = true) :
    (x + y).isFinite = true := by
  obtain ⟨a, rfl⟩ := F64.isFinite_iff.mp hx
  obtain ⟨b, rfl⟩ := F64.isFinite_iff.mp hy
  rw [F64.finite_add_finite, exact]
  rfl

theorem F64.isFinite_mul {x y : F64} (hx : x.isFinite = true) (hy : y.isFinite = true) :
    (x * y).isFinite = true := by
  obtain ⟨a, rfl⟩ := F64.isFinite_iff.mp hx
  obtain ⟨b, rfl⟩ := F64.isFinite_iff.mp hy
  rw [F64.finite_mul_finite, exact]
  rfl

omit [Rounding] exact in
theorem F64.isFinite_clamp {x lo hi : F64} (hx : x.isFinite = true) (hlo : lo.isFinite = true)
    (hhi : hi.isFinite = true) : (x.clamp lo hi).isFinite = true := by
  unfold F64.clamp
  split_ifs
  · exact hlo
  · exact hhi
  · exact hx

theorem normalize_isFinite {value ceiling : F64} (finite : value.isFinite = true)
    (finite' : ceiling.isFinite = true) : (normalize value ceiling).isFinite = true := by
  obtain ⟨a, rfl⟩ := F64.isFinite_iff.mp finite
  obtain ⟨b, rfl⟩ := F64.isFinite_iff.mp finite'
  unfold normalize
  split_ifs with least
  · rfl
  · have notZero : b ≠ 0 := by
      rintro rfl
      exact least (F64.finite_le_finite.mpr le_rfl)
    rw [F64.finite_div_finite a notZero, exact]
    exact F64.isFinite_clamp rfl rfl rfl

omit [Rounding] exact in
theorem TenantCostModel.isFinite_of_validate {model : TenantCostModel}
    (valid : model.validate = .ok ()) :
    (model.weights.wDollar.isFinite = true ∧ model.weights.wLatency.isFinite = true ∧
      model.weights.wRisk.isFinite = true ∧ model.weights.wBase.isFinite = true) ∧
      model.ceilings.maxDollar.isFinite = true ∧ model.ceilings.maxBase.isFinite = true := by
  unfold validate at valid
  dsimp only at valid
  split_ifs at valid with weights zero ceilings
  simp only [List.any_cons, List.any_nil, Bool.or_false, Bool.or_eq_true, Bool.not_eq_true',
    decide_eq_true_eq, not_or, Bool.not_eq_false] at weights ceilings
  exact ⟨⟨weights.1.1, weights.2.1.1, weights.2.2.1.1, weights.2.2.2.1⟩, ceilings.1.1.1.1,
    ceilings.1.1.1.2⟩

/-- The weight of a valid edge under a valid model is a number. -/
theorem IndexedEdge.weight_isFinite {edge : IndexedEdge} {model : TenantCostModel}
    (valid : model.validate = .ok ()) (costs : edge.isValid = true) :
    (edge.weight model).isFinite = true := by
  obtain ⟨⟨wDollar, wLatency, wRisk, wBase⟩, maxDollar, maxBase⟩ :=
    TenantCostModel.isFinite_of_validate valid
  have usable : ¬ (edge.isValid = false ∨ model.validate ≠ .ok ()) := by simp [costs, valid]
  simp only [isValid, Bool.and_eq_true] at costs
  obtain ⟨⟨⟨⟨⟨base, dollar⟩, risk⟩, -⟩, -⟩, -⟩ := costs
  have cast : ∀ q : ℚ, (F64.ofRat q).isFinite = true := by
    intro q
    rw [F64.ofRat, exact]
    rfl
  rw [weight, if_neg usable]
  refine F64.isFinite_add exact (F64.isFinite_add exact (F64.isFinite_add exact ?_ ?_) ?_) ?_
  · exact F64.isFinite_mul exact wDollar (normalize_isFinite exact dollar maxDollar)
  · exact F64.isFinite_mul exact wLatency (normalize_isFinite exact (cast _) (cast _))
  · exact F64.isFinite_mul exact wRisk (F64.isFinite_clamp risk rfl rfl)
  · exact F64.isFinite_mul exact wBase (normalize_isFinite exact base maxBase)

namespace ToolGraph

variable {health : HashMap NodeId HealthTracker} {model : TenantCostModel}

/-- Two edges to one node share its penalty: if one has a finite cost, so has the other. -/
theorem linkCost_isFinite_of_parallel (valid : model.validate = .ok ()) {edge other : Edge}
    (target : other.to = edge.to) (costs : other.CostsValid)
    (finite : (linkCost health model edge).isFinite = true) :
    (linkCost health model other).isFinite = true := by
  obtain ⟨r, sum⟩ := F64.isFinite_iff.mp finite
  obtain ⟨w, penalty, -, value⟩ := F64.exists_finite_of_add sum
  rw [linkCost, target, value]
  exact F64.isFinite_add exact (IndexedEdge.weight_isFinite exact valid costs) rfl

variable {graph : ToolGraph} {start goal : NodeId}

/-- What exchanging an edge does to the cost of a chain. -/
theorem chainCost_exchange {before rest : List Edge} {edge : Edge} {r : ℚ}
    (cost : chainCost health model (before ++ edge :: rest) = .finite r) :
    ∃ w, linkCost health model edge = .finite w ∧
      ∀ other w', linkCost health model other = .finite w' →
        chainCost health model (before ++ other :: rest) = .finite (r - w + w') := by
  have folded : ∀ middle, chainCost health model (before ++ middle :: rest) =
      (rest.map (linkCost health model)).foldl (· + ·)
        (chainCost health model before + linkCost health model middle) := by
    intro middle
    simp [chainCost, List.foldl_map]
  rw [folded] at cost
  obtain ⟨q, tail, front, total⟩ := F64.exists_rest_of_foldl exact cost
  obtain ⟨u, w, head, own⟩ := F64.exists_finite_of_add front
  rw [front, total] at cost
  rw [head, own, F64.finite_add_finite, exact] at front
  obtain rfl := F64.finite.inj cost
  obtain rfl := F64.finite.inj front
  refine ⟨w, own, fun other w' link => ?_⟩
  rw [folded, head, link, F64.finite_add_finite, exact, total]
  congr 1
  ring

/-- **The edges of a cheapest chain** are the cheapest between their ends. -/
theorem isLeastLink_of_mem (valid : model.validate = .ok ()) {edges : List Edge} {r : ℚ}
    (chain : graph.Chain start edges goal) (feasible : ∀ edge ∈ edges, edge.Feasible health)
    (cost : chainCost health model edges = .finite r)
    (least : ∀ others, graph.Chain start others goal → (∀ edge ∈ others, edge.Feasible health) →
      ¬ chainCost health model others < .finite r) {edge : Edge} (mem : edge ∈ edges)
    (inGraph : edge ∈ graph.edges) :
    graph.IsLeastLink health model edge.from edge.to (linkCost health model edge) := by
  have own := feasible edge mem
  refine ⟨⟨edge, ⟨inGraph, rfl, rfl, own.enabled, own.costsValid⟩, rfl⟩, fun other joins => ?_⟩
  obtain ⟨before, rest, rfl⟩ := List.append_of_mem mem
  obtain ⟨w, link, exchanged⟩ := chainCost_exchange exact cost
  obtain ⟨w', link'⟩ := F64.isFinite_iff.mp (linkCost_isFinite_of_parallel exact valid
    joins.target joins.costsValid (F64.isFinite_iff.mpr ⟨w, link⟩))
  have feasible' : ∀ e ∈ before ++ other :: rest, e.Feasible health := by
    intro e inChain
    rcases List.mem_append.mp inChain with front | back
    · exact feasible e (List.mem_append_left _ front)
    · rcases List.mem_cons.mp back with rfl | back
      · exact ⟨joins.enabled, joins.costsValid, joins.target ▸ own.notOpen⟩
      · exact feasible e (List.mem_append_right _ (List.mem_cons_of_mem _ back))
  have dearer := least _ (chain.exchange joins.mem joins.source joins.target) feasible'
  rw [exchanged other w' link', F64.finite_lt_finite] at dearer
  rw [link, link', F64.finite_le_finite]
  linarith

omit exact in
/-- The sums of the search are never negative. -/
theorem chainCost_notNeg (edges : List Edge) : (chainCost health model edges).NotNeg := by
  induction edges using List.reverseRecOn with
  | nil => exact F64.notNeg_finite.mpr le_rfl
  | append_singleton edges edge ih =>
      rw [chainCost_concat]
      refine ih.add (((edge.indexed 0).weight_notNeg model).add ?_)
      cases health.lookup edge.to with
      | none => exact F64.notNeg_finite.mpr le_rfl
      | some tracker => exact tracker.penalty_notNeg

omit exact in
/-- **No chain of feasible edges is cheaper than a route.** -/
theorem not_chainCost_lt (fits : graph.idToNode.length ≤ 2 ^ 32) {route : Route}
    (found : graph.shortestPath health model start goal = some route) {edges : List Edge}
    (chain : graph.Chain start edges goal) (feasible : ∀ edge ∈ edges, edge.Feasible health) :
    ¬ chainCost health model edges < route.totalCost := by
  intro cheaper
  by_cases same : start = goal
  · rw [shortestPath, if_pos same] at found
    obtain rfl := Option.some.inj found
    exact chainCost_notNeg edges cheaper
  obtain ⟨s, g, c, p, startId, goalId, -, least, total, -, -⟩ := shortestPath_eq_some same found
  rw [total] at cheaper
  -- a cost below a finite one is finite, and the search has found no dearer walk
  have notNeg : (chainCost health model edges).NotNeg := chainCost_notNeg edges
  rcases notNeg.cases with cost | cost | ⟨r, cost, -⟩
  · simp [cost] at cheaper
  · simp [cost] at cheaper
  · obtain ⟨g', d, q, goalId', rfl, walk⟩ := chain.exists_costWalk fits startId feasible cost
    obtain rfl := Option.some.inj (goalId.symm.trans goalId')
    rw [cost, F64.finite_lt_finite] at cheaper
    exact absurd (Cost.le_iff.mp (least d q walk)) (not_le.mpr cheaper)

omit exact in
theorem exists_totalCost_of_shortestPath {route : Route}
    (found : graph.shortestPath health model start goal = some route) :
    ∃ r, route.totalCost = .finite r := by
  by_cases same : start = goal
  · rw [shortestPath, if_pos same] at found
    obtain rfl := Option.some.inj found
    exact ⟨0, rfl⟩
  · obtain ⟨_, _, c, _, -, -, -, -, total, -, -⟩ := shortestPath_eq_some same found
    exact ⟨c.value, total⟩

omit exact [Rounding] in
/-- Until an index is truncated, no two indices have one name. -/
theorem nodeName_injOn (fits : graph.idToNode.length ≤ 2 ^ 32) {i j : ℕ}
    (hi : i < graph.idToNode.length) (hj : j < graph.idToNode.length)
    (same : graph.nodeName i = graph.nodeName j) : i = j :=
  Option.some.inj ((lookup_nodeName fits hi).symm.trans (same ▸ lookup_nodeName fits hj))

omit exact in
/-- A route passes no node twice. -/
theorem nodup_of_shortestPath (small : graph.idToNode.length ≤ u32Max) {route : Route}
    (found : graph.shortestPath health model start goal = some route) : route.nodes.Nodup := by
  by_cases same : start = goal
  · rw [shortestPath, if_pos same] at found
    obtain rfl := Option.some.inj found
    exact List.nodup_singleton _
  obtain ⟨s, g, c, p, -, -, -, -, nodup, inside, rfl⟩ := exists_path_of_shortestPath same found
  have fits : graph.idToNode.length ≤ 2 ^ 32 := small.trans (Nat.sub_le _ _)
  rw [List.nodup_reverse]
  refine (List.nodup_map_iff_inj_on ?_).mpr fun i hi j hj => ?_
  · exact (List.nodup_reverse.mpr nodup).sublist (List.takeWhile_sublist _)
  · have used : ∀ k ∈ p.reverse.takeWhile (· ≠ u32Max), k < graph.idToNode.length :=
      fun k mem => inside k (List.mem_reverse.mp ((List.takeWhile_sublist _).subset mem))
    exact nodeName_injOn fits (used i hi) (used j hj)

end ToolGraph

end

namespace ToolGraph

/-- The edges of a graph are those added to it. -/
theorem mem_edges_foldl_addEdge {added : List Edge}
    (fits : (added.foldl addEdge default).idToNode.length ≤ 2 ^ 32) {edge : Edge} :
    edge ∈ (added.foldl addEdge default).edges ↔ edge ∈ added := by
  induction added using List.reverseRecOn with
  | nil => exact iff_of_false List.not_mem_nil List.not_mem_nil
  | append_singleton added last ih =>
      rw [List.foldl_concat] at fits ⊢
      have before := (idToNode_prefix_addEdge (added.foldl addEdge default) last).length_le
      rw [mem_edges_addEdge fits, ih (before.trans fits), List.mem_append, List.mem_singleton]

variable [Rounding]

/-- A route at the least cost: the sum of the least costs of its legs, along nodes that are
all distinct, and not undercut by any chain of feasible edges. -/
structure IsLeastRoute (graph : ToolGraph) (health : HashMap NodeId HealthTracker)
    (model : TenantCostModel) (start goal : NodeId) (route : Route) : Prop where
  total : ∃ costs, List.Forall₂
      (fun leg cost => graph.IsLeastLink health model leg.1 leg.2 cost) (legs route.nodes) costs ∧
    route.totalCost = costs.foldl (· + ·) (.finite 0)
  nodup : route.nodes.Nodup
  least : ∀ edges, graph.Chain start edges goal → (∀ edge ∈ edges, edge.Feasible health) →
    ¬ chainCost health model edges < route.totalCost

omit [Rounding] in
theorem Chain.mem_edges {graph : ToolGraph} {start goal : NodeId} {edges : List Edge}
    (chain : graph.Chain start edges goal) : ∀ edge ∈ edges, edge ∈ graph.edges := by
  induction chain with
  | nil => simp
  | snoc _ mem ih =>
      intro edge inChain
      rcases List.mem_append.mp inChain with inChain | last
      · exact ih edge inChain
      · exact List.mem_singleton.mp last ▸ mem

omit [Rounding] in
/-- **The search is optimal**, with exact arithmetic and as long as no index is the
sentinel. -/
theorem shortestPath_isLeastRoute (added : List Edge) (health : HashMap NodeId HealthTracker)
    (model : TenantCostModel) (valid : model.validate = .ok ()) (start goal : NodeId)
    (small : (added.foldl addEdge default).idToNode.length ≤ u32Max) (route : Route) :
    letI := Rounding.exact
    (added.foldl addEdge default).shortestPath health model start goal = some route →
      (∀ edge, edge ∈ (added.foldl addEdge default).edges ↔ edge ∈ added) ∧
        (added.foldl addEdge default).IsLeastRoute health model start goal route := by
  let _ := Rounding.exact
  intro found
  have fits := small.trans (Nat.sub_le (2 ^ 32) 1)
  have least : ∀ edges, (added.foldl addEdge default).Chain start edges goal →
      (∀ edge ∈ edges, edge.Feasible health) →
      ¬ chainCost health model edges < route.totalCost :=
    fun _ chain feasible => not_chainCost_lt fits found chain feasible
  refine ⟨fun edge => mem_edges_foldl_addEdge fits, ?_, nodup_of_shortestPath small found, least⟩
  obtain ⟨edges, chain, feasible, nodes, cost⟩ := exists_chain_of_shortestPath small found
  refine ⟨edges.map (linkCost health model), ?_, ?_⟩
  · rw [nodes, chain.legs_nodes, List.forall₂_map_left_iff, List.forall₂_map_right_iff,
      List.forall₂_same]
    intro edge mem
    obtain ⟨r, finite⟩ := exists_totalCost_of_shortestPath found
    rw [finite] at least
    exact isLeastLink_of_mem (fun _ => rfl) valid chain feasible (cost.trans finite) least mem
      (chain.mem_edges edge mem)
  · rw [← cost, chainCost, List.foldl_map]

omit [Rounding] in
/-- A route over the cheaper of two parallel edges. -/
theorem shortestPath_isLeastRoute_parallel :
    letI := Rounding.exact
    let added := [{ Edge.new "a" "b" with baseCost := .finite 3 }, Edge.new "a" "b"]
    ∃ route, (added.foldl addEdge default).IsLeastRoute ∅ default "a" "b" route := by
  let _ := Rounding.exact
  intro added
  have present : ((added.foldl addEdge default).shortestPath ∅ default "a" "b").isSome = true := by
    decide +kernel
  obtain ⟨route, found⟩ := Option.isSome_iff_exists.mp present
  exact ⟨route, (shortestPath_isLeastRoute added ∅ default (by decide +kernel) "a" "b"
    (by decide +kernel) route found).2⟩

/-! ### The node without an index of its own -/

omit [Rounding] in
theorem Edge.feasible_new (source target : NodeId) : (Edge.new source target).Feasible ∅ :=
  ⟨rfl, Edge.costsValid_new source target, by simp [NotOpen]⟩

omit [Rounding] in
/-- A chain that gets somewhere ends with an edge. -/
theorem Chain.exists_last {graph : ToolGraph} {start goal : NodeId} {edges : List Edge}
    (chain : graph.Chain start edges goal) (ne : goal ≠ start) :
    ∃ front edge, edges = front ++ [edge] ∧ graph.Chain start front edge.from ∧
      edge ∈ graph.edges ∧ goal = edge.to := by
  rcases List.eq_nil_or_concat edges with rfl | ⟨front, edge, rfl⟩
  · exact absurd chain.eq_of_nil ne
  · rw [List.concat_eq_append] at chain ⊢
    exact ⟨front, edge, rfl, chain_concat_iff.mp chain⟩

/-- The way from the first node to the third through the last and the second. -/
def detour (n : ℕ) : List Edge :=
  [Edge.new (nodeNamed 0) (nodeNamed (n - 1)), Edge.new (nodeNamed (n - 1)) (nodeNamed 1),
    Edge.new (nodeNamed 1) (nodeNamed 2)]

/-- Edges among `n` nodes, of which only those of the detour can be taken. -/
def onlyDetour (n : ℕ) : List Edge := (List.range n).map disabledLoop ++ detour n

omit [Rounding] in
/-- The nodes are numbered in order. -/
theorem idToNode_onlyDetour {n : ℕ} (four : 4 ≤ n) (fits : n ≤ 2 ^ 32) :
    ((onlyDetour n).foldl addEdge default).idToNode = (List.range n).map nodeNamed := by
  have names := idToNode_disabledLoops fits
  rw [onlyDetour, List.foldl_append]
  generalize ((List.range n).map disabledLoop).foldl addEdge default = graph at names
  have small : graph.idToNode.length ≤ 2 ^ 32 := by simpa [names] using fits
  have ids : ∀ i < n, (graph.nodeToId.lookup (nodeNamed i)).isSome = true := by
    intro i lt
    rw [(graph.interned small _ i).mpr (by simp [names, lt])]
    rfl
  rw [(foldl_addEdge_of_known fun edge mem => ?_).1, names]
  simp only [detour, List.mem_cons, List.not_mem_nil, or_false] at mem
  rcases mem with rfl | rfl | rfl
  · exact ⟨ids 0 (by omega), ids (n - 1) (by omega)⟩
  · exact ⟨ids (n - 1) (by omega), ids 1 (by omega)⟩
  · exact ⟨ids 1 (by omega), ids 2 (by omega)⟩

omit [Rounding] in
/-- There is no other way. -/
theorem eq_detour {n : ℕ} (four : 4 ≤ n) (fits : n ≤ 2 ^ 32) {edges : List Edge}
    (chain : ((onlyDetour n).foldl addEdge default).Chain (nodeNamed 0) edges (nodeNamed 2))
    (enabled : ∀ edge ∈ edges, edge.enabled = true) : edges = detour n := by
  have small : ((onlyDetour n).foldl addEdge default).idToNode.length ≤ 2 ^ 32 := by
    simpa [idToNode_onlyDetour four fits] using fits
  have apart : ∀ {i j : ℕ}, i ≠ j → nodeNamed i ≠ nodeNamed j :=
    fun ne same => ne (nodeNamed_injective same)
  have only : ∀ edge ∈ ((onlyDetour n).foldl addEdge default).edges, edge.enabled = true →
      edge ∈ detour n := by
    intro edge mem isEnabled
    rcases List.mem_append.mp ((mem_edges_foldl_addEdge small).mp mem) with loop | mem
    · obtain ⟨i, -, rfl⟩ := List.mem_map.mp loop
      cases isEnabled
    · exact mem
  simp only [detour, List.mem_cons, List.not_mem_nil, or_false] at only
  -- the edges are found from the end, each by the node it leads to
  obtain ⟨front, third, rfl, chain, mem, target⟩ := chain.exists_last (apart (by omega))
  obtain rfl : third = Edge.new (nodeNamed 1) (nodeNamed 2) := by
    rcases only third mem (enabled third (by simp)) with rfl | rfl | rfl
    · exact absurd target (apart (by omega))
    · exact absurd target (apart (by omega))
    · rfl
  obtain ⟨front, second, rfl, chain, mem, target⟩ :=
    chain.exists_last (apart (by omega : (1 : ℕ) ≠ 0))
  obtain rfl : second = Edge.new (nodeNamed (n - 1)) (nodeNamed 1) := by
    rcases only second mem (enabled second (by simp)) with rfl | rfl | rfl
    · exact absurd target (apart (by omega))
    · rfl
    · exact absurd target (apart (by omega))
  obtain ⟨front, first, rfl, chain, mem, target⟩ :=
    chain.exists_last (apart (by omega : n - 1 ≠ 0))
  obtain rfl : first = Edge.new (nodeNamed 0) (nodeNamed (n - 1)) := by
    rcases only first mem (enabled first (by simp)) with rfl | rfl | rfl
    · rfl
    · exact absurd target (apart (by omega))
    · exact absurd target (apart (by omega))
  rcases List.eq_nil_or_concat front with rfl | ⟨front, edge, rfl⟩
  · rfl
  · -- nothing leads to the first node
    rw [List.concat_eq_append] at chain enabled
    obtain ⟨-, mem, target⟩ := chain_concat_iff.mp chain
    rcases only edge mem (enabled edge (by simp)) with rfl | rfl | rfl
    · exact absurd target (apart (by omega))
    · exact absurd target (apart (by omega))
    · exact absurd target (apart (by omega))

omit [Rounding] in
theorem length_onlyDetour {n : ℕ} (four : 4 ≤ n) (fits : n ≤ 2 ^ 32) :
    ((onlyDetour n).foldl addEdge default).idToNode.length ≤ 2 ^ 32 := by
  simpa [idToNode_onlyDetour four fits] using fits

omit [Rounding] in
theorem chain_detour {n : ℕ} (four : 4 ≤ n) (fits : n ≤ 2 ^ 32) :
    ((onlyDetour n).foldl addEdge default).Chain (nodeNamed 0) (detour n) (nodeNamed 2) := by
  have inGraph : ∀ edge ∈ detour n, edge ∈ ((onlyDetour n).foldl addEdge default).edges :=
    fun edge mem =>
      (mem_edges_foldl_addEdge (length_onlyDetour four fits)).mpr (List.mem_append_right _ mem)
  have first := inGraph (Edge.new (nodeNamed 0) (nodeNamed (n - 1))) (by simp [detour])
  have second := inGraph (Edge.new (nodeNamed (n - 1)) (nodeNamed 1)) (by simp [detour])
  have third := inGraph (Edge.new (nodeNamed 1) (nodeNamed 2)) (by simp [detour])
  exact .snoc (.snoc (.snoc .nil first) second) third

/-- With all indices in use, the route along the detour begins after the last node, and
costs what the whole detour costs. -/
theorem exists_route_onlyDetour {model : TenantCostModel} {n : ℕ} (full : n - 1 = u32Max)
    (finite : (chainCost ∅ model (detour n)).isFinite = true) :
    ∃ route, ((onlyDetour n).foldl addEdge default).shortestPath ∅ model (nodeNamed 0)
        (nodeNamed 2) = some route ∧
      route.nodes = [nodeNamed 1, nodeNamed 2] ∧
      route.totalCost = chainCost ∅ model (detour n) := by
  have sentinel : 3 ≤ u32Max ∧ u32Max + 1 = 2 ^ 32 := by decide
  have four : 4 ≤ n := by omega
  have fits : n ≤ 2 ^ 32 := by omega
  have names := idToNode_onlyDetour four fits
  have small := length_onlyDetour four fits
  have ne : nodeNamed 0 ≠ nodeNamed 2 := fun same => absurd (nodeNamed_injective same) (by decide)
  -- the detour is there, so something is found
  obtain ⟨route, found⟩ : ∃ route, ((onlyDetour n).foldl addEdge default).shortestPath ∅ model
      (nodeNamed 0) (nodeNamed 2) = some route := by
    by_contra absent
    have none := Option.eq_none_iff_forall_ne_some.mpr fun route found => absent ⟨route, found⟩
    have infinite := (chainCost_of_shortestPath_eq_none small none).2 _ (chain_detour four fits) (by
      simp [detour, Edge.feasible_new])
    rw [finite] at infinite
    cases infinite
  refine ⟨route, found, ?_⟩
  obtain ⟨s, g, c, p, startId, goalId, walk, -, -, inside, rfl⟩ :=
    exists_path_of_shortestPath ne found
  obtain ⟨edges, chain, feasible, path, cost⟩ := exists_chain_of_costWalk walk
  rw [nodeName_of_lookup _ small startId, nodeName_of_lookup _ small goalId] at chain
  rw [nodeName_of_lookup _ small startId] at path
  obtain rfl := eq_detour four fits chain fun edge mem => (feasible edge mem).enabled
  have numbered : ∀ i < n, ((onlyDetour n).foldl addEdge default).nodeName i = nodeNamed i := by
    intro i lt
    simp [nodeName, names, lt]
  have indices : p = [0, n - 1, 1, 2] := by
    refine List.map_injective_iff.mpr nodeNamed_injective ?_
    rw [← List.map_congr_left fun i mem => numbered i (by simpa [names] using inside i mem), path]
    rfl
  refine ⟨?_, cost.symm⟩
  -- the way back from the third node ends before the last one
  have back : p.reverse.takeWhile (· ≠ u32Max) = [2, 1] := by
    have two : 2 ≠ u32Max := by omega
    have one : 1 ≠ u32Max := by omega
    simp [indices, full, two, one]
  show (List.map _ (p.reverse.takeWhile (· ≠ u32Max))).reverse = _
  rw [back, List.map_cons, List.map_singleton, numbered 2 (by omega), numbered 1 (by omega)]
  rfl

omit [Rounding] in
/-- A route that has lost its beginning costs more than its one leg. -/
theorem not_isLeastRoute :
    letI := Rounding.exact
    ¬ ∀ (added : List Edge) (health : HashMap NodeId HealthTracker) (model : TenantCostModel)
      (start goal : NodeId) (route : Route),
      model.validate = .ok () →
      (added.foldl addEdge default).shortestPath health model start goal = some route →
        2 ≤ route.nodes.length →
          (added.foldl addEdge default).IsLeastRoute health model start goal route := by
  let _ := Rounding.exact
  intro all
  obtain ⟨n, full⟩ : ∃ n, n - 1 = u32Max := ⟨u32Max + 1, Nat.add_sub_cancel _ _⟩
  have sentinel : 3 ≤ u32Max ∧ u32Max + 1 = 2 ^ 32 := by decide
  have small := length_onlyDetour (n := n) (by omega) (by omega)
  have link : ∀ edge ∈ detour n, linkCost ∅ default edge =
      linkCost ∅ default (Edge.new "" "") := by
    intro edge mem
    simp only [detour, List.mem_cons, List.not_mem_nil, or_false] at mem
    rcases mem with rfl | rfl | rfl <;> rfl
  have total : chainCost ∅ default (detour n) =
      chainCost ∅ default [Edge.new "" "", Edge.new "" "", Edge.new "" ""] := rfl
  have finite : (chainCost ∅ default (detour n)).isFinite = true := by
    rw [total]
    decide +kernel
  obtain ⟨route, found, nodes, cost⟩ := exists_route_onlyDetour full finite
  have optimal := all (onlyDetour n) ∅ default (nodeNamed 0) (nodeNamed 2) route
    (by decide +kernel) found (by simp [nodes])
  obtain ⟨costs, links, sum⟩ := optimal.total
  rw [nodes] at links
  -- there is one leg, and its least cost is that of an edge of the detour
  obtain ⟨leg, rest, ⟨⟨edge, joins, rfl⟩, -⟩, none, rfl⟩ := List.forall₂_cons_left_iff.mp links
  obtain rfl := List.forall₂_nil_left_iff.mp none
  have mem : edge ∈ detour n := by
    rcases List.mem_append.mp ((mem_edges_foldl_addEdge small).mp joins.mem) with loop | mem
    · obtain ⟨i, -, rfl⟩ := List.mem_map.mp loop
      cases joins.enabled
    · exact mem
  rw [cost, total, link edge mem] at sum
  exact absurd sum (by decide +kernel)

end ToolGraph

end TrustRouter
