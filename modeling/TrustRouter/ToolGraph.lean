import TrustRouter.Audit
import TrustRouter.Prelude.Collections

/-!
# The tool graph and its search

`ToolGraph` interns node names into indices and keeps one adjacency list per
index.  Indices are `u32`: a new node gets the number of nodes so far, truncated
to 32 bits, and `u32::MAX` is the sentinel of the predecessor array.

The well-formedness of the interning is part of the type.  `ids_lt` and
`targets_lt` are what makes every indexing of the search in bounds; `interned`
says that names and indices determine each other, as long as no index has been
truncated.

`shortestPath` is the source's loop, step by step.  `searchLoop` and
`predecessorWalk` take fuel in place of their `while`s; that the fuel given is
always enough is proved in `ShortestPath` (`search_ne_diverged`).
-/

namespace TrustRouter

/-- `u32::MAX`: no predecessor. -/
def u32Max : ℕ := 2 ^ 32 - 1

/-- `as u32`. -/
def asU32 (n : ℕ) : ℕ := n % 2 ^ 32

/-! ## The interned graph -/

structure ToolGraph where
  nodeToId : HashMap NodeId ℕ
  idToNode : List NodeId
  adjacency : List (List IndexedEdge)
  /-- There is one adjacency list per index. -/
  adjacency_length : adjacency.length = idToNode.length
  /-- Names are mapped to indices in use. -/
  ids_lt : ∀ name id, nodeToId.lookup name = some id → id < idToNode.length
  /-- Edges lead to indices in use. -/
  targets_lt : ∀ edges ∈ adjacency, ∀ edge ∈ edges, edge.to < idToNode.length
  /-- Until an index is truncated, the two tables are inverse to each other. -/
  interned : idToNode.length ≤ 2 ^ 32 →
    ∀ name id, nodeToId.lookup name = some id ↔ idToNode[id]? = some name

namespace ToolGraph

instance : Inhabited ToolGraph where
  default :=
    { nodeToId := ∅
      idToNode := []
      adjacency := []
      adjacency_length := rfl
      ids_lt := by simp
      targets_lt := by simp
      interned := by simp }

/-- A new node, with an empty adjacency list. -/
def insertNode (graph : ToolGraph) (name : NodeId)
    (fresh : graph.nodeToId.lookup name = none) : ToolGraph where
  nodeToId := graph.nodeToId.insert name (asU32 graph.idToNode.length)
  idToNode := graph.idToNode ++ [name]
  adjacency := graph.adjacency ++ [[]]
  adjacency_length := by simp [graph.adjacency_length]
  ids_lt := by
    intro name' id found
    rw [HashMap.lookup_insert_eq] at found
    rw [List.length_append, List.length_singleton]
    split_ifs at found with same
    · obtain rfl := Option.some.inj found
      exact Nat.lt_succ_of_le (Nat.mod_le _ _)
    · exact Nat.lt_succ_of_lt (graph.ids_lt name' id found)
  targets_lt := by
    intro edges mem edge inEdges
    rw [List.length_append, List.length_singleton]
    rcases List.mem_append.mp mem with mem | mem
    · exact Nat.lt_succ_of_lt (graph.targets_lt edges mem edge inEdges)
    · simp [List.mem_singleton.mp mem] at inEdges
  interned := by
    intro fits name' id
    rw [List.length_append, List.length_singleton] at fits
    have inner := graph.interned (by omega)
    have exact : asU32 graph.idToNode.length = graph.idToNode.length :=
      Nat.mod_eq_of_lt (by omega)
    rw [HashMap.lookup_insert_eq, exact, List.getElem?_append]
    split_ifs with same inside inside
    · -- the new name has no earlier index
      subst same
      have absent : graph.idToNode[id]? ≠ some name' := fun present => by
        simp [(inner name' id).mpr present] at fresh
      simp only [Option.some.injEq]
      exact ⟨fun eq => absurd eq (by omega), fun present => absurd present absent⟩
    · subst same
      constructor
      · intro eq
        obtain rfl := Option.some.inj eq
        simp
      · intro present
        obtain ⟨zero, -⟩ := List.getElem?_eq_some_iff.mp present
        rw [List.length_singleton] at zero
        congr 1
        omega
    · exact inner name' id
    · constructor
      · intro found
        exact absurd (graph.ids_lt name' id found) inside
      · intro present
        obtain ⟨zero, value⟩ := List.getElem?_eq_some_iff.mp present
        simp only [List.getElem_singleton] at value
        exact absurd value.symm same

/-- The graph with the node in it, and its index. -/
def getOrInsertNode (graph : ToolGraph) (name : NodeId) : ToolGraph × ℕ :=
  match found : graph.nodeToId.lookup name with
  | some id => (graph, id)
  | none => (graph.insertNode name found, asU32 graph.idToNode.length)

theorem getOrInsertNode_lt (graph : ToolGraph) (name : NodeId) :
    (graph.getOrInsertNode name).2 < (graph.getOrInsertNode name).1.idToNode.length := by
  unfold getOrInsertNode
  split
  · next id found => exact graph.ids_lt name id found
  · simp only [insertNode, List.length_append, List.length_singleton]
    exact Nat.lt_succ_of_le (Nat.mod_le _ _)

/-- Append an edge to an adjacency list. -/
def pushEdge (graph : ToolGraph) (fromId : ℕ) (edge : IndexedEdge)
    (target : edge.to < graph.idToNode.length) : ToolGraph where
  nodeToId := graph.nodeToId
  idToNode := graph.idToNode
  adjacency := graph.adjacency.modify fromId (· ++ [edge])
  adjacency_length := by simp [graph.adjacency_length]
  ids_lt := graph.ids_lt
  targets_lt := by
    intro edges mem other inEdges
    obtain ⟨i, lt, rfl⟩ := List.getElem_of_mem mem
    rw [List.length_modify] at lt
    rw [List.getElem_modify] at inEdges
    have old : ∀ e ∈ graph.adjacency[i], e.to < graph.idToNode.length :=
      graph.targets_lt _ (List.getElem_mem lt)
    split_ifs at inEdges
    · rcases List.mem_append.mp inEdges with inEdges | last
      · exact old other inEdges
      · rw [List.mem_singleton.mp last]
        exact target
    · exact old other inEdges
  interned := graph.interned

def addEdge (graph : ToolGraph) (edge : Edge) : ToolGraph :=
  let source := graph.getOrInsertNode edge.from
  let target := source.1.getOrInsertNode edge.to
  target.1.pushEdge source.2 (edge.indexed target.2) (source.1.getOrInsertNode_lt edge.to)

/-- The name at an index in use. -/
def nodeName (graph : ToolGraph) (id : ℕ) : NodeId := graph.idToNode.getD id ""

/-- The edges out of an index in use. -/
def edgesFrom (graph : ToolGraph) (id : ℕ) : List IndexedEdge := graph.adjacency.getD id []

theorem target_lt {graph : ToolGraph} {id : ℕ} {edge : IndexedEdge}
    (mem : edge ∈ graph.edgesFrom id) : edge.to < graph.idToNode.length := by
  unfold edgesFrom at mem
  rw [List.getD_eq_getElem?_getD] at mem
  cases found : graph.adjacency[id]? with
  | none => simp [found] at mem
  | some edges =>
      rw [found] at mem
      exact graph.targets_lt edges (List.mem_of_getElem? found) edge mem

/-- The number of edges. -/
def edgeCount (graph : ToolGraph) : ℕ := (graph.adjacency.map List.length).sum

end ToolGraph

/-! ## The search -/

/-- An entry of the search queue. -/
structure SearchState where
  node : ℕ
  cost : F64
  deriving DecidableEq

/-- `Ord for SearchState`: the cheaper entry is the greater, then the greater
index. -/
def SearchState.cmp (self other : SearchState) : Ordering :=
  ((other.cost.partialCmp self.cost).getD .eq).then (compare self.node other.node)

/-- The local variables of the search loop. -/
structure SearchArrays where
  distances : List F64
  previous : List ℕ
  heap : BinaryHeap SearchState

/-- How the search loop ends. -/
inductive SearchOutcome where
  /-- The goal was popped: the predecessors at that point and the cost popped. -/
  | reached (previous : List ℕ) (cost : F64)
  /-- The queue ran empty. -/
  | exhausted
  /-- The fuel ran out. -/
  | diverged

namespace ToolGraph

variable [Rounding]
variable (graph : ToolGraph) (health : HashMap NodeId HealthTracker) (model : TenantCostModel)

/-- The penalty of entering a node; nodes without a tracker have none. -/
def healthPenalty (id : ℕ) : F64 :=
  ((health.lookup (graph.nodeName id)).map HealthTracker.penalty).getD (.finite 0)

/-- The cost of taking an edge, or `none` where the loop `continue`s. -/
def edgeCost (edge : IndexedEdge) : Option F64 :=
  if edge.enabled = false then none
  else if edge.isValid = false then none
  else
    let cost := edge.weight model + graph.healthPenalty health edge.to
    if cost.isInfinite ∨ cost.isNan then none else some cost

/-- The body of the loop over the edges out of `node`, popped at `cost`. -/
def relaxEdge (node : ℕ) (cost : F64) (arrays : SearchArrays) (edge : IndexedEdge) :
    SearchArrays :=
  match graph.edgeCost health model edge with
  | none => arrays
  | some edgeCost =>
      let nextCost := cost + edgeCost
      if nextCost < arrays.distances.getD edge.to .posInf then
        { distances := arrays.distances.set edge.to nextCost
          previous := arrays.previous.set edge.to node
          heap := arrays.heap.push ⟨edge.to, nextCost⟩ }
      else arrays

/-- The `while let` loop. -/
def searchLoop (goalId : ℕ) : ℕ → SearchArrays → SearchOutcome
  | 0, _ => .diverged
  | fuel + 1, arrays =>
      match arrays.heap.pop SearchState.cmp with
      | none => .exhausted
      | some (⟨node, cost⟩, heap) =>
          if node = goalId then .reached arrays.previous cost
          else if arrays.distances.getD node .posInf < cost then
            searchLoop goalId fuel { arrays with heap := heap }
          else
            searchLoop goalId fuel
              ((graph.edgesFrom node).foldl (graph.relaxEdge health model node cost)
                { arrays with heap := heap })

omit [Rounding] in
/-- The arrays before the loop. -/
def initialArrays (startId : ℕ) : SearchArrays where
  distances := (List.replicate graph.idToNode.length F64.posInf).set startId (.finite 0)
  previous := List.replicate graph.idToNode.length u32Max
  heap := [⟨startId, .finite 0⟩]

end ToolGraph

/-- The indices met from `curr` back to `startId`, or to the sentinel; `none` when
the fuel runs out first. -/
def predecessorWalk (previous : List ℕ) (startId : ℕ) : ℕ → ℕ → Option (List ℕ)
  | 0, _ => none
  | fuel + 1, curr =>
      if curr = u32Max then some []
      else if curr = startId then some [curr]
      else (predecessorWalk previous startId fuel (previous.getD curr u32Max)).map (curr :: ·)

namespace ToolGraph

variable [Rounding]

/-- The loop between two indices.  Every edge is pushed at most once and the start
once, so the queue is popped at most `edgeCount + 1` times, and found empty once. -/
def search (graph : ToolGraph) (health : HashMap NodeId HealthTracker)
    (model : TenantCostModel) (startId goalId : ℕ) : SearchOutcome :=
  graph.searchLoop health model goalId (graph.edgeCount + 2) (graph.initialArrays startId)

def shortestPath (graph : ToolGraph) (health : HashMap NodeId HealthTracker)
    (model : TenantCostModel) (start goal : NodeId) : Option Route :=
  if start = goal then
    some { nodes := [start], totalCost := .finite 0, cacheHit := false }
  else do
    let startId ← graph.nodeToId.lookup start
    let goalId ← graph.nodeToId.lookup goal
    match graph.search health model startId goalId with
    | .reached previous cost =>
        (predecessorWalk previous startId (graph.idToNode.length + 1) goalId).map fun ids =>
          { nodes := (ids.map graph.nodeName).reverse, totalCost := cost, cacheHit := false }
    | _ => none

/-- A route that is found is not marked as a cache hit. -/
theorem cacheHit_shortestPath {graph : ToolGraph} {health : HashMap NodeId HealthTracker}
    {model : TenantCostModel} {start goal : NodeId} {route : Route}
    (found : graph.shortestPath health model start goal = some route) :
    route = { nodes := route.nodes, totalCost := route.totalCost, cacheHit := false } := by
  unfold shortestPath at found
  split_ifs at found
  · obtain rfl := Option.some.inj found
    rfl
  · simp only [Option.bind_eq_bind, Option.bind_eq_some_iff] at found
    obtain ⟨_, -, _, -, found⟩ := found
    split at found
    · obtain ⟨_, -, rfl⟩ := Option.map_eq_some_iff.mp found
      rfl
    · cases found

/-! ### The health map is read by lookup -/

section

variable {graph : ToolGraph} {health health' : HashMap NodeId HealthTracker}
  {model : TenantCostModel}

theorem edgeCost_congr (same : ∀ node, health.lookup node = health'.lookup node) :
    graph.edgeCost health model = graph.edgeCost health' model := by
  have penalty : graph.healthPenalty health = graph.healthPenalty health' := by
    funext id
    rw [healthPenalty, healthPenalty, same]
  funext edge
  unfold edgeCost
  rw [penalty]

theorem searchLoop_congr (same : ∀ node, health.lookup node = health'.lookup node)
    (goalId fuel : ℕ) (arrays : SearchArrays) :
    graph.searchLoop health model goalId fuel arrays =
      graph.searchLoop health' model goalId fuel arrays := by
  have relax : graph.relaxEdge health model = graph.relaxEdge health' model := by
    funext node cost arrays edge
    simp only [relaxEdge, edgeCost_congr same]
  induction fuel generalizing arrays with
  | zero => rfl
  | succ fuel ih => simp only [searchLoop, relax, ih]

/-- Health maps with the same trackers give the same routes. -/
theorem shortestPath_congr (same : ∀ node, health.lookup node = health'.lookup node)
    (start goal : NodeId) :
    graph.shortestPath health model start goal = graph.shortestPath health' model start goal := by
  simp only [shortestPath, search, searchLoop_congr same]

end

end ToolGraph

end TrustRouter
