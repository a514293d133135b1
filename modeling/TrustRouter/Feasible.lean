import TrustRouter.ShortestPath

/-!
# Routes, by name

What a route means to a caller, who knows nodes by their names.  `edges` lists the
edges of a graph with their ends named, `Chain` is a sequence of them from one node to
another, and an edge is `Feasible` when it is enabled, its costs are finite and not
negative, and the circuit of the node it enters is not `Open`.

`chainCost` adds up the costs of a chain from left to right, as the search does.  Two
statements connect all this with `shortestPath`: what it returns is a chain of feasible
edges (`exists_chain_of_shortestPath`), and where it returns nothing every chain of
feasible edges has a cost that is not finite (`chainCost_of_shortestPath_eq_none`).

Names and indices determine each other only while indices fit into 32 bits, and a path
can be read off the predecessor array only while `u32::MAX` is not an index in use.
Hence the bound on the number of nodes in both.
-/

namespace TrustRouter

open LabelSetting

/-- The costs of an edge are finite and not negative. -/
def Edge.CostsValid (edge : Edge) : Prop := (edge.indexed 0).isValid = true

/-- The default costs are valid. -/
theorem Edge.costsValid_new (source target : NodeId) : (Edge.new source target).CostsValid := by
  simp [CostsValid, indexed, new, IndexedEdge.isValid]

/-- The node's circuit is not `Open`. -/
def NotOpen (health : HashMap NodeId HealthTracker) (node : NodeId) : Prop :=
  (health.lookup node).map HealthTracker.state ≠ some .open

instance (health : HashMap NodeId HealthTracker) (node : NodeId) :
    Decidable (NotOpen health node) := inferInstanceAs (Decidable (_ ≠ _))

/-- An enabled edge with valid costs into a node whose circuit is not `Open`. -/
structure Edge.Feasible (health : HashMap NodeId HealthTracker) (edge : Edge) : Prop where
  enabled : edge.enabled = true
  costsValid : edge.CostsValid
  notOpen : NotOpen health edge.to

instance (health : HashMap NodeId HealthTracker) (edge : Edge) :
    Decidable (edge.Feasible health) :=
  decidable_of_iff (edge.enabled = true ∧ (edge.indexed 0).isValid = true ∧ NotOpen health edge.to)
    ⟨fun h => ⟨h.1, h.2.1, h.2.2⟩, fun h => ⟨h.enabled, h.costsValid, h.notOpen⟩⟩

namespace ToolGraph

/-- An edge out of an index, with its ends named. -/
def named (graph : ToolGraph) (source : ℕ) (edge : IndexedEdge) : Edge where
  «from» := graph.nodeName source
  «to» := graph.nodeName edge.to
  baseCost := edge.baseCost
  dollarCost := edge.dollarCost
  latencyMs := edge.latencyMs
  risk := edge.risk
  enabled := edge.enabled

/-- The edges of the graph. -/
def edges (graph : ToolGraph) : List Edge :=
  (List.range graph.idToNode.length).flatMap fun source =>
    (graph.edgesFrom source).map (graph.named source)

/-- The edges out of an index. -/
def edgesAt (graph : ToolGraph) (source : ℕ) : List Edge :=
  (graph.edgesFrom source).map (graph.named source)

/-- `graph.Chain start edges goal`: the edges, all of the graph, lead from `start` to
`goal`. -/
inductive Chain (graph : ToolGraph) (start : NodeId) : List Edge → NodeId → Prop
  | nil : Chain graph start [] start
  | snoc {edges : List Edge} {edge : Edge} :
      Chain graph start edges edge.from → edge ∈ graph.edges →
      Chain graph start (edges ++ [edge]) edge.to

variable [Rounding]
variable (health : HashMap NodeId HealthTracker) (model : TenantCostModel)

/-- What the search adds for an edge: its weight and the penalty of its target. -/
def linkCost (edge : Edge) : F64 :=
  (edge.indexed 0).weight model +
    ((health.lookup edge.to).map HealthTracker.penalty).getD (.finite 0)

/-- The cost of a chain, added up from left to right. -/
def chainCost (edges : List Edge) : F64 :=
  edges.foldl (fun cost edge => cost + linkCost health model edge) (.finite 0)

variable {health model} {graph : ToolGraph} {start goal : NodeId}

omit [Rounding] in
/-- Only indices in use have edges. -/
theorem source_lt {source : ℕ} {indexed : IndexedEdge} (mem : indexed ∈ graph.edgesFrom source) :
    source < graph.idToNode.length := by
  by_contra outside
  rw [not_lt, ← graph.adjacency_length] at outside
  rw [edgesFrom, List.getD_eq_getElem?_getD, List.getElem?_eq_none outside] at mem
  cases mem

omit [Rounding] in
theorem mem_edges {edge : Edge} :
    edge ∈ graph.edges ↔ ∃ source, ∃ indexed ∈ graph.edgesFrom source,
      edge = graph.named source indexed := by
  simp only [edges, List.mem_flatMap, List.mem_range, List.mem_map]
  constructor
  · rintro ⟨source, -, indexed, mem, rfl⟩
    exact ⟨source, indexed, mem, rfl⟩
  · rintro ⟨source, indexed, mem, rfl⟩
    exact ⟨source, source_lt mem, indexed, mem, rfl⟩

omit [Rounding] in
theorem mem_edges_iff {edge : Edge} :
    edge ∈ graph.edges ↔ ∃ source, edge ∈ graph.edgesAt source := by
  simp only [mem_edges, edgesAt, List.mem_map, eq_comm]

theorem chainCost_concat (edges : List Edge) (edge : Edge) :
    chainCost health model (edges ++ [edge]) =
      chainCost health model edges + linkCost health model edge := by
  simp [chainCost]

/-- The penalty of an `Open` node makes every sum infinite. -/
theorem notOpen_of_finite {edge : Edge} {w : ℚ}
    (finite : linkCost health model edge = .finite w) : NotOpen health edge.to := by
  intro isOpen
  obtain ⟨tracker, found, state⟩ := Option.map_eq_some_iff.mp isOpen
  rw [linkCost, found, Option.map_some, Option.getD_some, HealthTracker.penalty_of_open state]
    at finite
  rcases ((edge.indexed 0).weight_notNeg model).cases with weight | weight | ⟨w, weight, -⟩ <;>
  · rw [weight] at finite
    cases finite

/-! ### From walks to chains and back -/

/-- A walk of the search spells out a chain of feasible edges. -/
theorem exists_chain_of_costWalk {s g : ℕ} {c : Cost} {p : List ℕ}
    (walk : graph.CostWalk health model s g c p) :
    ∃ edges, graph.Chain (graph.nodeName s) edges (graph.nodeName g) ∧
      (∀ edge ∈ edges, edge.Feasible health) ∧
      p.map graph.nodeName = graph.nodeName s :: edges.map Edge.to ∧
      chainCost health model edges = .finite c.value := by
  induction walk with
  | source => exact ⟨[], .nil, by simp, rfl, rfl⟩
  | @snoc n m c c' p walk step ih =>
      obtain ⟨edges, chain, feasible, nodes, cost⟩ := ih
      obtain ⟨indexed, mem, rfl, w, usable, sum⟩ := step
      obtain ⟨enabled, valid, value, -⟩ := edgeCost_eq_some usable
      have link : linkCost health model (graph.named n indexed) = .finite w := value.symm
      refine ⟨edges ++ [graph.named n indexed],
        .snoc chain (mem_edges.mpr ⟨n, indexed, mem, rfl⟩), ?_, ?_, ?_⟩
      · intro edge inChain
        rcases List.mem_append.mp inChain with inChain | last
        · exact feasible edge inChain
        · obtain rfl := List.mem_singleton.mp last
          exact ⟨enabled, valid, notOpen_of_finite link⟩
      · simp [nodes, named]
      · rw [chainCost_concat, cost, link, sum]

omit [Rounding] in
/-- The name of an index in use is mapped to it, while indices fit. -/
theorem lookup_nodeName (fits : graph.idToNode.length ≤ 2 ^ 32) {i : ℕ}
    (lt : i < graph.idToNode.length) : graph.nodeToId.lookup (graph.nodeName i) = some i := by
  rw [graph.interned fits, nodeName, List.getD_eq_getElem?_getD, List.getElem?_eq_getElem lt]
  rfl

omit [Rounding] in
theorem nodeName_of_lookup (graph : ToolGraph) (fits : graph.idToNode.length ≤ 2 ^ 32)
    {name : NodeId} {i : ℕ} (found : graph.nodeToId.lookup name = some i) :
    graph.nodeName i = name := by
  rw [nodeName, List.getD_eq_getElem?_getD, (graph.interned fits name i).mp found]
  rfl

omit [Rounding] in
theorem Chain.eq_of_nil (chain : graph.Chain start [] goal) : goal = start := by
  generalize none : ([] : List Edge) = edges at chain
  cases chain with
  | nil => rfl
  | snoc => simp at none

omit [Rounding] in
/-- The nodes of a chain end at its goal. -/
theorem Chain.getLast?_nodes {edges : List Edge} (chain : graph.Chain start edges goal) :
    (start :: edges.map Edge.to).getLast? = some goal := by
  cases chain with
  | nil => rfl
  | snoc => simp [List.getLast?_cons]

omit [Rounding] in
/-- A chain that is not empty starts at a node of the graph. -/
theorem Chain.exists_lookup (fits : graph.idToNode.length ≤ 2 ^ 32) {edges : List Edge}
    (chain : graph.Chain start edges goal) (ne : edges ≠ []) :
    ∃ s, graph.nodeToId.lookup start = some s := by
  induction chain with
  | nil => exact absurd rfl ne
  | @snoc edges edge chain mem ih =>
      cases edges with
      | cons => exact ih (by simp)
      | nil =>
          -- the first edge leaves the start
          obtain ⟨source, indexed, out, rfl⟩ := mem_edges.mp mem
          rw [← chain.eq_of_nil]
          exact ⟨source, lookup_nodeName fits (source_lt out)⟩

/-- A chain of feasible edges with a finite cost is a walk of the search. -/
theorem Chain.exists_costWalk (fits : graph.idToNode.length ≤ 2 ^ 32) {s : ℕ}
    (startId : graph.nodeToId.lookup start = some s) {edges : List Edge}
    (chain : graph.Chain start edges goal) (feasible : ∀ edge ∈ edges, edge.Feasible health)
    {r : ℚ} (finite : chainCost health model edges = .finite r) :
    ∃ g c p, graph.nodeToId.lookup goal = some g ∧ c.value = r ∧
      graph.CostWalk health model s g c p := by
  induction chain generalizing r with
  | nil =>
      refine ⟨s, Cost.zero, [s], startId, ?_, .source⟩
      exact F64.finite.inj finite
  | @snoc edges edge chain mem ih =>
      rw [chainCost_concat] at finite
      obtain ⟨q, w, cost, link⟩ := F64.exists_finite_of_add finite
      obtain ⟨n, c, p, fromId, rfl, walk⟩ :=
        ih (fun e inChain => feasible e (by simp [inChain])) cost
      obtain ⟨source, indexed, out, rfl⟩ := mem_edges.mp mem
      -- the walk has arrived at the index the edge leaves
      obtain rfl : n = source :=
        Option.some.inj (fromId.symm.trans (lookup_nodeName fits (source_lt out)))
      have ok := feasible _ (List.mem_append_right _ List.mem_cons_self)
      have usable : graph.edgeCost health model indexed = some (.finite w) := by
        have value : indexed.weight model + graph.healthPenalty health indexed.to = .finite w :=
          link
        have enabled : indexed.enabled = true := ok.enabled
        have valid : indexed.isValid = true := ok.costsValid
        simp [edgeCost, enabled, valid, value, F64.isInfinite, F64.isNan]
      obtain ⟨-, -, -, w', nonneg, same⟩ := edgeCost_eq_some usable
      obtain rfl := F64.finite.inj same
      rw [cost, link] at finite
      refine ⟨indexed.to, Cost.ofAdd c nonneg finite, p ++ [indexed.to],
        lookup_nodeName fits (target_lt out), rfl, .snoc walk ?_⟩
      exact ⟨indexed, out, rfl, w, usable, finite⟩

/-! ### What `shortestPath` says about chains -/

/-- **What is found is feasible.** -/
theorem exists_chain_of_shortestPath (small : graph.idToNode.length ≤ u32Max) {route : Route}
    (found : graph.shortestPath health model start goal = some route) :
    ∃ edges, graph.Chain start edges goal ∧ (∀ edge ∈ edges, edge.Feasible health) ∧
      route.nodes = start :: edges.map Edge.to ∧
      chainCost health model edges = route.totalCost := by
  by_cases same : start = goal
  · subst same
    rw [shortestPath, if_pos rfl] at found
    obtain rfl := Option.some.inj found
    exact ⟨[], .nil, by simp, rfl, rfl⟩
  · obtain ⟨s, g, c, p, startId, goalId, walk, -, cost, -, nodes⟩ := shortestPath_eq_some same found
    have fits : graph.idToNode.length ≤ 2 ^ 32 := small.trans (Nat.sub_le _ _)
    obtain ⟨edges, chain, feasible, names, total⟩ := exists_chain_of_costWalk walk
    rw [graph.nodeName_of_lookup fits startId, graph.nodeName_of_lookup fits goalId] at chain
    rw [graph.nodeName_of_lookup fits startId] at names
    exact ⟨edges, chain, feasible, (nodes small).trans names, total.trans cost.symm⟩

/-- **Where nothing is found** there is no feasible chain of finite cost. -/
theorem chainCost_of_shortestPath_eq_none (fits : graph.idToNode.length ≤ 2 ^ 32)
    (absent : graph.shortestPath health model start goal = none) :
    start ≠ goal ∧ ∀ edges, graph.Chain start edges goal →
      (∀ edge ∈ edges, edge.Feasible health) →
      (chainCost health model edges).isFinite = false := by
  obtain ⟨ne, noWalk⟩ := not_costWalk_of_shortestPath_eq_none absent
  refine ⟨ne, fun edges chain feasible => ?_⟩
  by_contra finite
  obtain ⟨r, value⟩ := F64.isFinite_iff.mp (by simpa using finite)
  have nonempty : edges ≠ [] := by
    rintro rfl
    exact ne chain.eq_of_nil.symm
  obtain ⟨s, startId⟩ := chain.exists_lookup fits nonempty
  obtain ⟨g, c, p, goalId, -, walk⟩ := chain.exists_costWalk fits startId feasible value
  exact noWalk s g c p startId goalId walk

/-! ### The edges of a graph are the edges added -/

section

omit [Rounding]

variable {graph : ToolGraph}

theorem getOrInsertNode_of_lookup {name : NodeId} {id : ℕ}
    (found : graph.nodeToId.lookup name = some id) : graph.getOrInsertNode name = (graph, id) := by
  unfold getOrInsertNode
  split
  · next id' found' =>
      obtain rfl := Option.some.inj (found.symm.trans found')
      rfl
  · next fresh => cases found.symm.trans fresh

theorem getOrInsertNode_of_fresh {name : NodeId} (fresh : graph.nodeToId.lookup name = none) :
    graph.getOrInsertNode name = (graph.insertNode name fresh, asU32 graph.idToNode.length) := by
  unfold getOrInsertNode
  split
  · next id found => cases fresh.symm.trans found
  · rfl

/-- Looking a node up, or inserting it, keeps names and edges where they are. -/
theorem getOrInsertNode_spec (graph : ToolGraph) (name : NodeId) :
    graph.idToNode <+: (graph.getOrInsertNode name).1.idToNode ∧
      (∀ i, (graph.getOrInsertNode name).1.edgesFrom i = graph.edgesFrom i) ∧
      (graph.getOrInsertNode name).1.nodeToId.lookup name =
        some (graph.getOrInsertNode name).2 ∧
      ∀ name' id, graph.nodeToId.lookup name' = some id →
        (graph.getOrInsertNode name).1.nodeToId.lookup name' = some id := by
  cases place : graph.nodeToId.lookup name with
  | some id =>
      rw [getOrInsertNode_of_lookup place]
      exact ⟨List.prefix_rfl, fun _ => rfl, place, fun _ _ found => found⟩
  | none =>
      rw [getOrInsertNode_of_fresh place]
      refine ⟨List.prefix_append _ _, fun i => ?_, ?_, fun name' id found => ?_⟩
      · simp only [edgesFrom, insertNode, List.getD_eq_getElem?_getD, List.getElem?_append]
        split_ifs with inside
        · rfl
        · rw [List.getElem?_eq_none (not_lt.mp inside)]
          cases i - graph.adjacency.length <;> rfl
      · simp [insertNode]
      · have ne : name' ≠ name := by
          rintro rfl
          cases place.symm.trans found
        simp only [insertNode]
        rw [HashMap.lookup_insert_eq, if_neg ne, found]

/-- Names stay where they are when nodes are added. -/
theorem nodeName_of_prefix {later : ToolGraph} (extends_ : graph.idToNode <+: later.idToNode)
    {i : ℕ} (lt : i < graph.idToNode.length) : later.nodeName i = graph.nodeName i := by
  obtain ⟨rest, eq⟩ := extends_
  simp only [nodeName, ← eq, List.getD_eq_getElem?_getD, List.getElem?_append_left lt]

theorem edgesFrom_addEdge (graph : ToolGraph) (edge : Edge) (i : ℕ) :
    let source := graph.getOrInsertNode edge.from
    let target := source.1.getOrInsertNode edge.to
    (graph.addEdge edge).edgesFrom i =
      if i = source.2 then graph.edgesFrom i ++ [edge.indexed target.2] else graph.edgesFrom i := by
  intro source target
  obtain ⟨-, sourceEdges, -, -⟩ := graph.getOrInsertNode_spec edge.from
  obtain ⟨targetNames, targetEdges, -, -⟩ := source.1.getOrInsertNode_spec edge.to
  have kept : target.1.edgesFrom i = graph.edgesFrom i := (targetEdges i).trans (sourceEdges i)
  have lt : source.2 < target.1.adjacency.length := by
    rw [target.1.adjacency_length]
    exact (graph.getOrInsertNode_lt edge.from).trans_le targetNames.length_le
  show (target.1.adjacency.modify source.2 (· ++ [edge.indexed target.2])).getD i [] = _
  rw [List.getD_eq_getElem?_getD, List.getElem?_modify]
  rw [edgesFrom, List.getD_eq_getElem?_getD] at kept
  by_cases here : i = source.2
  · subst here
    rw [if_pos rfl, ← kept, List.getElem?_eq_getElem lt]
    simp
  · have other : ¬ source.2 = i := fun h => here h.symm
    simpa [here, other] using kept

theorem idToNode_prefix_addEdge (graph : ToolGraph) (edge : Edge) :
    graph.idToNode <+: (graph.addEdge edge).idToNode := by
  obtain ⟨source, -, -, -⟩ := graph.getOrInsertNode_spec edge.from
  obtain ⟨target, -, -, -⟩ := (graph.getOrInsertNode edge.from).1.getOrInsertNode_spec edge.to
  exact source.trans target

/-- The ends of an edge added are known, and what was known keeps its index. -/
theorem lookup_addEdge (graph : ToolGraph) (edge : Edge) :
    (∃ source, (graph.addEdge edge).nodeToId.lookup edge.from = some source) ∧
      ∀ name id, graph.nodeToId.lookup name = some id →
        (graph.addEdge edge).nodeToId.lookup name = some id := by
  obtain ⟨-, -, sourceId, keepFirst⟩ := graph.getOrInsertNode_spec edge.from
  obtain ⟨-, -, -, keepSecond⟩ :=
    (graph.getOrInsertNode edge.from).1.getOrInsertNode_spec edge.to
  exact ⟨⟨_, keepSecond _ _ sourceId⟩, fun name id known => keepSecond _ _ (keepFirst _ _ known)⟩

/-- An edge is appended to those out of the index of its source, and nothing else changes, as long
as indices fit. -/
theorem edgesAt_addEdge {edge : Edge} (fits : (graph.addEdge edge).idToNode.length ≤ 2 ^ 32)
    (i : ℕ) : (graph.addEdge edge).edgesAt i = graph.edgesAt i ++
      if (graph.addEdge edge).nodeToId.lookup edge.from = some i then [edge] else [] := by
  have out := graph.edgesFrom_addEdge edge
  obtain ⟨sourceNames, -, sourceId, -⟩ := graph.getOrInsertNode_spec edge.from
  obtain ⟨targetNames, -, targetId, keepId⟩ :=
    (graph.getOrInsertNode edge.from).1.getOrInsertNode_spec edge.to
  dsimp only at out
  generalize source_ : (graph.getOrInsertNode edge.from).2 = source at *
  generalize target_ : ((graph.getOrInsertNode edge.from).1.getOrInsertNode edge.to).2 = target at *
  -- the two tables are those of the graph in which both nodes are known
  have fromId : (graph.addEdge edge).nodeToId.lookup edge.from = some source :=
    keepId _ _ sourceId
  have toId : (graph.addEdge edge).nodeToId.lookup edge.to = some target := targetId
  have names : graph.idToNode <+: (graph.addEdge edge).idToNode := sourceNames.trans targetNames
  -- an edge keeps its place in the lists, and its ends keep their names
  have old : (graph.edgesFrom i).map ((graph.addEdge edge).named i) = graph.edgesAt i := by
    refine List.map_congr_left fun indexed mem => ?_
    simp only [named, nodeName_of_prefix names (source_lt mem),
      nodeName_of_prefix names (target_lt mem)]
  have new : (graph.addEdge edge).named source (edge.indexed target) = edge := by
    simp only [named, Edge.indexed, nodeName_of_lookup _ fits fromId,
      nodeName_of_lookup _ fits toId]
  rw [edgesAt, out, fromId]
  by_cases here : i = source
  · subst here
    rw [if_pos rfl, if_pos rfl, List.map_append, old, List.map_singleton, new]
  · rw [if_neg here, if_neg fun same => here (Option.some.inj same).symm, old, List.append_nil]

/-- **The edges of a graph are the edges added to it**, as long as indices fit. -/
theorem mem_edges_addEdge {edge edge' : Edge}
    (fits : (graph.addEdge edge).idToNode.length ≤ 2 ^ 32) :
    edge' ∈ (graph.addEdge edge).edges ↔ edge' ∈ graph.edges ∨ edge' = edge := by
  obtain ⟨⟨source, fromId⟩, -⟩ := graph.lookup_addEdge edge
  simp only [mem_edges_iff, edgesAt_addEdge fits, List.mem_append, exists_or, fromId,
    Option.some.injEq]
  refine or_congr_right ⟨?_, fun same => ⟨source, by simp [same]⟩⟩
  rintro ⟨i, mem⟩
  split_ifs at mem
  · exact List.mem_singleton.mp mem
  · cases mem

end

end ToolGraph

end TrustRouter
