import TrustRouter.Prelude.Binary64
import TrustRouter.RouteCache

/-!
# The limits of a decision

Two things bound what `route_isRight` can promise, and both come from the width of a
machine number.

* An index is a `u32`, and `u32::MAX` marks the absence of a predecessor.  The node that
  gets this index, the last of `2 ^ 32`, cannot be told from the end of a path: a route
  to it has no nodes at all (`nodes_eq_nil_of_sentinel`).
* A cost is an `f64`.  A path whose edges all have finite costs may have an infinite
  cost, and the search takes only finite ones.

`not_isRightUnbounded` and `not_path_of_cached` reach both by operations of a router.
-/

namespace TrustRouter

open LabelSetting

namespace ToolGraph

variable {graph : ToolGraph}

/-! ### Filling the index space -/

/-- A loop at a new node adds that node. -/
theorem idToNode_addEdge_loop {edge : Edge} (loop : edge.from = edge.to)
    (fresh : graph.nodeToId.lookup edge.to = none) :
    (graph.addEdge edge).idToNode = graph.idToNode ++ [edge.to] := by
  have known : (graph.insertNode edge.to fresh).nodeToId.lookup edge.to =
      some (asU32 graph.idToNode.length) := by
    simp [insertNode]
  simp only [addEdge, pushEdge, loop, getOrInsertNode_of_fresh fresh,
    getOrInsertNode_of_lookup known]
  rfl

/-- Edges between known nodes add no node. -/
theorem foldl_addEdge_of_known {edges : List Edge}
    (known : ∀ edge ∈ edges, (graph.nodeToId.lookup edge.from).isSome = true ∧
      (graph.nodeToId.lookup edge.to).isSome = true) :
    (edges.foldl addEdge graph).idToNode = graph.idToNode ∧
      (edges.foldl addEdge graph).nodeToId = graph.nodeToId := by
  induction edges using List.reverseRecOn with
  | nil => exact ⟨rfl, rfl⟩
  | append_singleton edges edge ih =>
      obtain ⟨names, ids⟩ := ih fun e mem => known e (List.mem_append_left _ mem)
      obtain ⟨hasSource, hasTarget⟩ := known edge (by simp)
      obtain ⟨i, source⟩ := Option.isSome_iff_exists.mp hasSource
      obtain ⟨j, target⟩ := Option.isSome_iff_exists.mp hasTarget
      rw [← ids] at source target
      rw [List.foldl_concat, ← names, ← ids]
      simp only [addEdge, getOrInsertNode_of_lookup source, getOrInsertNode_of_lookup target]
      exact ⟨rfl, rfl⟩

/-- `n` nodes with distinct names. -/
def nodeNamed (n : ℕ) : NodeId := String.ofList (List.replicate (n + 1) 'n')

theorem nodeNamed_injective : Function.Injective nodeNamed := by
  intro n m equal
  have lengths := congrArg String.length equal
  simpa [nodeNamed] using lengths

/-- A disabled loop, which is there for its name. -/
def disabledLoop (n : ℕ) : Edge := { Edge.new (nodeNamed n) (nodeNamed n) with enabled := false }

theorem idToNode_disabledLoops {n : ℕ} (fits : n ≤ 2 ^ 32) :
    (((List.range n).map disabledLoop).foldl addEdge default).idToNode =
      (List.range n).map nodeNamed := by
  induction n with
  | zero => rfl
  | succ n ih =>
      have before := ih (by omega)
      rw [List.range_succ, List.map_append, List.foldl_append, List.map_append, ← before]
      refine idToNode_addEdge_loop rfl ?_
      generalize ((List.range n).map disabledLoop).foldl addEdge default = graph at before
      rw [Option.eq_none_iff_forall_ne_some]
      intro id found
      have small : graph.idToNode.length ≤ 2 ^ 32 := by
        rw [before, List.length_map, List.length_range]
        omega
      have named := (graph.interned small _ _).mp found
      have mem := List.mem_of_getElem? named
      rw [before, List.mem_map] at mem
      obtain ⟨m, lt, same⟩ := mem
      exact absurd (nodeNamed_injective same) (List.mem_range.mp lt).ne

/-- `n` nodes, and one edge that can be taken, from the first to the last. -/
def firstToLast (n : ℕ) : List Edge :=
  (List.range n).map disabledLoop ++ [Edge.new (nodeNamed 0) (nodeNamed (n - 1))]

/-- The nodes are numbered in order. -/
theorem firstToLast_spec {n : ℕ} (two : 2 ≤ n) (fits : n ≤ 2 ^ 32) :
    ((firstToLast n).foldl addEdge default).idToNode = (List.range n).map nodeNamed ∧
      ((firstToLast n).foldl addEdge default).nodeToId.lookup (nodeNamed 0) = some 0 ∧
      ((firstToLast n).foldl addEdge default).nodeToId.lookup (nodeNamed (n - 1)) =
        some (n - 1) := by
  have names := idToNode_disabledLoops fits
  rw [firstToLast, List.foldl_append]
  generalize ((List.range n).map disabledLoop).foldl addEdge default = graph at names
  have small : graph.idToNode.length ≤ 2 ^ 32 := by simpa [names] using fits
  have ids : ∀ i < n, graph.nodeToId.lookup (nodeNamed i) = some i := by
    intro i lt
    rw [graph.interned small, names]
    simp [lt]
  have first := ids 0 (by omega)
  have last := ids (n - 1) (by omega)
  have known : ∀ edge ∈ [Edge.new (nodeNamed 0) (nodeNamed (n - 1))],
      (graph.nodeToId.lookup edge.from).isSome = true ∧
        (graph.nodeToId.lookup edge.to).isSome = true := by
    simp [Edge.new, first, last]
  obtain ⟨sameNames, sameIds⟩ := foldl_addEdge_of_known known
  exact ⟨sameNames.trans names, by rw [sameIds, first], by rw [sameIds, last]⟩

/-- When all indices are in use the first node is not the last. -/
theorem nodeNamed_ne_of_full {n : ℕ} (full : n - 1 = u32Max) :
    2 ≤ n ∧ n ≤ 2 ^ 32 ∧ nodeNamed 0 ≠ nodeNamed (n - 1) := by
  have sentinel : 1 ≤ u32Max ∧ u32Max + 1 = 2 ^ 32 := by decide
  refine ⟨by omega, by omega, fun same => ?_⟩
  have zero := nodeNamed_injective same
  omega

/-- The default costs do not depend on the ends of an edge. -/
theorem chainCost_new [Rounding] (source target : NodeId) :
    chainCost ∅ default [Edge.new source target] = chainCost ∅ default [Edge.new "" ""] := rfl

/-- There is a route from the first node to the last. -/
theorem exists_route_firstToLast [Rounding] {health : HashMap NodeId HealthTracker}
    {model : TenantCostModel} {n : ℕ} (two : 2 ≤ n) (fits : n ≤ 2 ^ 32)
    (notOpen : NotOpen health (nodeNamed (n - 1)))
    (finite : (chainCost health model
      [Edge.new (nodeNamed 0) (nodeNamed (n - 1))]).isFinite = true) :
    ∃ route, ((firstToLast n).foldl addEdge default).shortestPath health model (nodeNamed 0)
      (nodeNamed (n - 1)) = some route := by
  have names := (firstToLast_spec two fits).1
  have small : ((firstToLast n).foldl addEdge default).idToNode.length ≤ 2 ^ 32 := by
    simpa [names] using fits
  by_contra absent
  have none := Option.eq_none_iff_forall_ne_some.mpr fun route found => absent ⟨route, found⟩
  obtain ⟨-, infinite⟩ := chainCost_of_shortestPath_eq_none small none
  -- the last edge added joins the two nodes
  have mem : Edge.new (nodeNamed 0) (nodeNamed (n - 1)) ∈
      ((firstToLast n).foldl addEdge default).edges := by
    rw [firstToLast, List.foldl_append, List.foldl_cons, List.foldl_nil] at small ⊢
    exact (mem_edges_addEdge small).mpr (Or.inr rfl)
  have feasible : (Edge.new (nodeNamed 0) (nodeNamed (n - 1))).Feasible health :=
    ⟨rfl, Edge.costsValid_new _ _, notOpen⟩
  have cost := infinite [Edge.new (nodeNamed 0) (nodeNamed (n - 1))] (.snoc .nil mem)
    (by simpa using feasible)
  rw [finite] at cost
  cases cost

/-- **The sentinel index.**  A route to the node with the index `u32::MAX` is empty. -/
theorem nodes_eq_nil_of_sentinel [Rounding] {health : HashMap NodeId HealthTracker}
    {model : TenantCostModel} {start goal : NodeId} {route : Route} (ne : start ≠ goal)
    (goalId : graph.nodeToId.lookup goal = some u32Max)
    (found : graph.shortestPath health model start goal = some route) : route.nodes = [] := by
  unfold shortestPath at found
  rw [if_neg ne] at found
  simp only [goalId, Option.bind_eq_bind, Option.bind_some, Option.bind_eq_some_iff] at found
  obtain ⟨s, -, found⟩ := found
  split at found
  · -- the walk back from the goal starts at the mark that ends it
    obtain ⟨ids, walked, rfl⟩ := Option.map_eq_some_iff.mp found
    rw [predecessorWalk, if_pos rfl] at walked
    simp [← Option.some.inj walked]
  · cases found

end ToolGraph

/-! ### A tenant that has only been given edges -/

section

variable [Rounding]

/-- A tenant with these edges and nothing else. -/
def TenantState.withEdges (edges : List Edge) : TenantState :=
  { (default : TenantState) with graph := edges.foldl ToolGraph.addEdge default }

namespace RouterState

theorem lookup_step_addEdge (state : RouterState) (tenantId : TenantId) (edge : Edge) :
    (state.step (.addEdge tenantId edge)).tenants.lookup tenantId =
      some (((state.tenants.lookup tenantId).getD default).addEdge edge) :=
  (lookup_updateOrDefault state tenantId tenantId _).trans (if_pos rfl)

theorem addEdge_withEdges (edges : List Edge) (edge : Edge) :
    (TenantState.withEdges edges).addEdge edge = .withEdges (edges ++ [edge]) := by
  simp [TenantState.addEdge, TenantState.withEdges, TenantState.invalidateAllCache, default]

/-- What a run of `add_edge` calls leaves. -/
theorem lookup_after_addEdges (tenantId : TenantId) (edges : List Edge) (edge : Edge) :
    (after ((edges ++ [edge]).map (Op.addEdge tenantId))).tenants.lookup tenantId =
      some (.withEdges (edges ++ [edge])) := by
  have place : ((after (edges.map (Op.addEdge tenantId))).tenants.lookup tenantId).getD default =
      TenantState.withEdges edges := by
    induction edges using List.reverseRecOn with
    | nil => rfl
    | append_singleton edges edge ih =>
        rw [List.map_append, after, List.map_singleton, run_concat, lookup_step_addEdge,
          Option.getD_some, ih, addEdge_withEdges]
  rw [List.map_append, after, List.map_singleton, run_concat, lookup_step_addEdge, place,
    addEdge_withEdges]

/-- A first call of `route` searches and inserts. -/
theorem route_withEdges {edges : List Edge} {key : RouteKey} {route : Route}
    (found : (edges.foldl ToolGraph.addEdge default).shortestPath ∅ default key.start key.goal =
      some route) :
    (TenantState.withEdges edges).route key =
      ((TenantState.withEdges edges).insertCache key (TenantState.entryOf route), some route) := by
  rcases TenantState.route_cases (.withEdges edges) key with ⟨_, hit, -⟩ | ⟨route', -, found', eq⟩ |
    ⟨-, absent, -⟩
  · cases hit
  · obtain rfl : route = route' := Option.some.inj (found.symm.trans found')
    exact eq
  · cases found.symm.trans absent

/-- A tenant with `n` nodes. -/
def crowded (n : ℕ) : List Op := (ToolGraph.firstToLast n).map (Op.addEdge "acme")

/-- From the first node to the last. -/
def firstToLastKey (n : ℕ) : RouteKey := ⟨ToolGraph.nodeNamed 0, ToolGraph.nodeNamed (n - 1)⟩

/-- With all indices in use, the route from the first node to the last is empty. -/
theorem exists_empty_route {n : ℕ} (full : n - 1 = u32Max)
    (finite : (ToolGraph.chainCost ∅ default
      [Edge.new (ToolGraph.nodeNamed 0) (ToolGraph.nodeNamed (n - 1))]).isFinite = true) :
    ∃ tenant route, (after (crowded n)).tenants.lookup "acme" = some tenant ∧
      tenant.route (firstToLastKey n) =
        (tenant.insertCache (firstToLastKey n) (TenantState.entryOf route), some route) ∧
      route.nodes = [] := by
  obtain ⟨two, fits, ne⟩ := ToolGraph.nodeNamed_ne_of_full full
  obtain ⟨-, -, lastId⟩ := ToolGraph.firstToLast_spec two fits
  obtain ⟨route, found⟩ :=
    ToolGraph.exists_route_firstToLast two fits (by simp [NotOpen]) finite
  refine ⟨.withEdges (ToolGraph.firstToLast n), route, lookup_after_addEdges "acme" _ _,
    route_withEdges found, ToolGraph.nodes_eq_nil_of_sentinel ne (full ▸ lastId) found⟩

/-! ### Decisions at the limits -/

omit [Rounding] in
/-- A valid cost model under which entering a node costs `3 * 2 ^ 1022`. -/
def heavyModel : TenantCostModel where
  weights :=
    { wDollar := .finite 0, wLatency := .finite 0, wRisk := .finite 0
      wBase := .finite (3 * 2 ^ 1022) }
  ceilings := { maxDollar := .finite 1, maxLatencyMs := 1, maxBase := .finite 1 }

omit [Rounding] in
/-- Two edges in a row, each at a finite cost. -/
def heavy : List Op :=
  [.trySetCostModel "acme" heavyModel, .addEdge "acme" (Edge.new "a" "b"),
    .addEdge "acme" (Edge.new "b" "c")]

/-- A decision is right in the stronger sense in which an escalation rules out every chain
of feasible edges with finite costs. -/
def IsRightUnbounded (tenant : TenantState) (start goal : NodeId) : RouteDecision → Prop :=
  IsRight tenant start goal fun edges => ∀ edge ∈ edges,
    (ToolGraph.linkCost tenant.health tenant.costModel edge).isFinite = true

end RouterState

end

namespace RouterState

/-- With all indices in use, the decision for the last node is wrong. -/
theorem not_isRight_crowded [Rounding] {n : ℕ} (full : n - 1 = u32Max)
    (finite : (ToolGraph.chainCost ∅ default
      [Edge.new (ToolGraph.nodeNamed 0) (ToolGraph.nodeNamed (n - 1))]).isFinite = true) :
    ∃ tenant, (after (crowded n)).tenants.lookup "acme" = some tenant ∧
      ∀ admitted, ¬ IsRight tenant (firstToLastKey n).start (firstToLastKey n).goal admitted
        ((after (crowded n)).route "acme" (firstToLastKey n).start
          (firstToLastKey n).goal).answer := by
  obtain ⟨tenant, route, found, eq, empty⟩ := exists_empty_route full finite
  refine ⟨tenant, found, fun admitted => ?_⟩
  rw [route_answer _ found, eq]
  rintro ⟨edges, -, -, nodes⟩
  rw [empty] at nodes
  cases nodes

/-- In binary64 the cost of an edge with the default costs is finite under the default
model. -/
theorem chainCost_new_isFinite (source target : NodeId) :
    letI := Rounding.nearestEven
    (ToolGraph.chainCost ∅ default [Edge.new source target]).isFinite = true := by
  let _ := Rounding.nearestEven
  rw [ToolGraph.chainCost_new]
  decide +kernel

/-- In binary64 the cost of two heavy edges overflows, and the search gives up; with all
indices in use it returns a route without nodes. -/
theorem not_isRightUnbounded :
    letI := Rounding.nearestEven
    (∃ tenant, (after heavy).tenants.lookup "acme" = some tenant ∧
      ¬ IsRightUnbounded tenant "a" "c" ((after heavy).route "acme" "a" "c").answer) ∧
    let key := firstToLastKey (u32Max + 1)
    ∃ tenant, (after (crowded (u32Max + 1))).tenants.lookup "acme" = some tenant ∧
      ¬ IsRightUnbounded tenant key.start key.goal
        ((after (crowded (u32Max + 1))).route "acme" key.start key.goal).answer := by
  let _ := Rounding.nearestEven
  constructor
  · refine ⟨((after heavy).tenants.lookup "acme").getD default, ?_, ?_⟩
    · have present : ((after heavy).tenants.lookup "acme").isSome = true := by decide +kernel
      exact (Option.getD_of_ne_none (Option.isSome_iff_ne_none.mp present) _).symm
    · have answer : ((after heavy).route "acme" "a" "c").answer =
          .escalate
            { tenantId := "acme"
              start := "a"
              goal := "c"
              reason := .noFeasiblePath
              failedOrBlockedNodes := [] } := by decide +kernel
      rw [answer]
      intro right
      -- the chain through `b` is feasible and each of its edges costs something finite
      refine (right rfl).2.1 ([] ++ [Edge.new "a" "b"] ++ [Edge.new "b" "c"])
        (.snoc (.snoc .nil ?_) ?_) ?_ ?_
      · decide +kernel
      · decide +kernel
      · decide +kernel
      · decide +kernel
  · obtain ⟨tenant, found, wrong⟩ :=
      not_isRight_crowded (n := u32Max + 1) (Nat.add_sub_cancel _ _) (chainCost_new_isFinite _ _)
    exact ⟨tenant, found, wrong _⟩

/-- With all indices in use, the entry for the last node is the empty path. -/
theorem not_path_crowded [Rounding] {n : ℕ} (full : n - 1 = u32Max)
    (finite : (ToolGraph.chainCost ∅ default
      [Edge.new (ToolGraph.nodeNamed 0) (ToolGraph.nodeNamed (n - 1))]).isFinite = true) :
    ∃ tenant cached,
      (after (crowded n ++ [.route "acme" (firstToLastKey n).start
          (firstToLastKey n).goal])).tenants.lookup "acme" = some tenant ∧
        tenant.cache.lookup (firstToLastKey n) = some cached ∧
        cached.path.head? ≠ some (firstToLastKey n).start := by
  obtain ⟨tenant, route, found, eq, empty⟩ := exists_empty_route full finite
  refine ⟨tenant.insertCache (firstToLastKey n) (TenantState.entryOf route),
    TenantState.entryOf route, ?_, TenantState.lookup_insertCache_self _ _, ?_⟩
  · rw [after, run_concat]
    refine (lookup_route (after (crowded n)) "acme" "acme" _ _).trans ?_
    rw [if_pos rfl, found, Option.map_some, eq]
  · simp [TenantState.entryOf, empty]

/-- A cached path that does not run from its start. -/
theorem not_path_of_cached :
    letI := Rounding.nearestEven
    let key := firstToLastKey (u32Max + 1)
    ∃ tenant cached,
      (after (crowded (u32Max + 1) ++ [.route "acme" key.start key.goal])).tenants.lookup "acme" =
          some tenant ∧
        tenant.cache.lookup key = some cached ∧
        ¬ (cached.path.head? = some key.start ∧ cached.path.getLast? = some key.goal) := by
  let _ := Rounding.nearestEven
  obtain ⟨tenant, cached, found, hit, start⟩ :=
    not_path_crowded (n := u32Max + 1) (Nat.add_sub_cancel _ _) (chainCost_new_isFinite _ _)
  exact ⟨tenant, cached, found, hit, fun path => start path.1⟩

end RouterState

end TrustRouter
