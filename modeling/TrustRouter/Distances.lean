import TrustRouter.Breaker
import TrustRouter.Optimality
import TrustRouter.TenantRuns

/-!
# Distances

The cost of the route that `shortest_path` finds, or `⊤` where it finds none, is a distance: the
least cost of a chain of feasible edges (`distance_le_iff`).  What one would expect of a distance
holds.  With more edges, or with nodes in better health, no distance grows, however sums are rounded
(`distance_mono`).  With exact arithmetic distances satisfy the triangle inequality, and each part
of a route is a route of least cost between its ends, so that someone who asks again on the way is
not sent on a detour (`distance_add_distance`).

A failure does not draw traffic: a route that leads through a node after a failure of this node
would have been as good as any before (`pathCost_before_failure`).
-/

namespace TrustRouter

/-- Smaller numbers have a smaller sum, which is finite if the other one is. -/
theorem F64.exists_add_le [Rounding] {a b a' b' r : ℚ} (sum : finite a + finite b = finite r)
    (ha : a' ≤ a) (hb : b' ≤ b) (notNeg : (finite a').NotNeg) (notNeg' : (finite b').NotNeg) :
    ∃ r' ≤ r, finite a' + finite b' = finite r' := by
  have below : finite a' + finite b' ≤ finite r := by
    rw [← sum, finite_add_finite, finite_add_finite]
    exact Rounding.round_mono (add_le_add ha hb)
  rcases (notNeg.add notNeg').cases with value | value | ⟨r', value, -⟩ <;> rw [value] at below ⊢
  · cases below
  · cases below
  · exact ⟨r', finite_le_finite.mp below, rfl⟩

namespace ToolGraph

/-! ## Chains and paths -/

section

variable {graph : ToolGraph} {start middle goal : NodeId}

theorem Chain.append {front back : List Edge} (first : graph.Chain start front middle)
    (second : graph.Chain middle back goal) : graph.Chain start (front ++ back) goal := by
  induction second with
  | nil => rwa [List.append_nil]
  | snoc _ mem ih =>
      rw [← List.append_assoc]
      exact .snoc ih mem

theorem Chain.mono {larger : ToolGraph} (subset : ∀ edge ∈ graph.edges, edge ∈ larger.edges)
    {edges : List Edge} (chain : graph.Chain start edges goal) :
    larger.Chain start edges goal := by
  induction chain with
  | nil => exact .nil
  | snoc _ mem ih => exact .snoc ih (subset _ mem)

/-- A chain is cut in two at a node on its path. -/
theorem Chain.exists_split {edges : List Edge} (chain : graph.Chain start edges goal)
    {before after : List NodeId} {node : NodeId}
    (path : start :: edges.map Edge.to = before ++ node :: after) :
    ∃ front back, edges = front ++ back ∧ graph.Chain start front node ∧
      graph.Chain node back goal ∧ start :: front.map Edge.to = before ++ [node] ∧
      back.map Edge.to = after := by
  induction after using List.reverseRecOn generalizing edges goal with
  | nil =>
      have last := chain.getLast?_nodes
      rw [path, List.getLast?_concat] at last
      obtain rfl := Option.some.inj last
      exact ⟨edges, [], by simp, chain, .nil, path, rfl⟩
  | append_singleton after last ih =>
      rcases List.eq_nil_or_concat' edges with rfl | ⟨others, edge, rfl⟩
      · have lengths := congrArg List.length path
        simp at lengths
        omega
      · obtain ⟨rest, mem, rfl⟩ := chain_concat_iff.mp chain
        have shorter : (start :: others.map Edge.to) ++ [edge.to] =
            (before ++ node :: after) ++ [last] := by simpa using path
        obtain ⟨path, same⟩ := List.append_inj' shorter rfl
        obtain ⟨front, back, rfl, first, second, left, right⟩ := ih rest path
        refine ⟨front, back ++ [edge], by simp, first, .snoc second mem, left, ?_⟩
        simpa [right] using same

end

variable [Rounding]

/-- What the state of a node adds to the cost of an edge into it. -/
def penaltyAt (health : HashMap NodeId HealthTracker) (node : NodeId) : F64 :=
  ((health.lookup node).map HealthTracker.penalty).getD (.finite 0)

/-- The path leads over feasible edges, whose costs come to a finite number. -/
def PathCost (graph : ToolGraph) (health : HashMap NodeId HealthTracker) (model : TenantCostModel)
    (start goal : NodeId) (path : List NodeId) (cost : ℚ) : Prop :=
  ∃ edges, graph.Chain start edges goal ∧ (∀ edge ∈ edges, edge.Feasible health) ∧
    path = start :: edges.map Edge.to ∧ chainCost health model edges = .finite cost

/-- The cost of the route that is found. -/
def distance (graph : ToolGraph) (health : HashMap NodeId HealthTracker) (model : TenantCostModel)
    (start goal : NodeId) : WithTop ℚ :=
  (graph.shortestPath health model start goal).elim ⊤ fun route => route.totalCost.toRat

variable {graph : ToolGraph} {health : HashMap NodeId HealthTracker} {model : TenantCostModel}
variable {start goal : NodeId}

/-! ## The least cost of a path -/

/-- The route that is found has its distance for its cost. -/
theorem pathCost_of_shortestPath (small : graph.idToNode.length ≤ u32Max) {route : Route}
    (found : graph.shortestPath health model start goal = some route) :
    ∃ cost, graph.distance health model start goal = (cost : ℚ) ∧
      route.totalCost = .finite cost ∧
      graph.PathCost health model start goal route.nodes cost := by
  obtain ⟨cost, total⟩ := exists_totalCost_of_shortestPath found
  obtain ⟨edges, chain, feasible, nodes, sum⟩ := exists_chain_of_shortestPath small found
  refine ⟨cost, ?_, total, edges, chain, feasible, nodes, sum.trans total⟩
  rw [distance, found, Option.elim_some, total]
  rfl

/-- **A distance is the least cost of a path.** -/
theorem distance_le_iff (small : graph.idToNode.length ≤ u32Max) {cost : ℚ} :
    graph.distance health model start goal ≤ cost ↔
      ∃ path least, graph.PathCost health model start goal path least ∧ least ≤ cost := by
  have fits : graph.idToNode.length ≤ 2 ^ 32 := small.trans (Nat.sub_le _ _)
  cases found : graph.shortestPath health model start goal with
  | none =>
      obtain ⟨-, infinite⟩ := chainCost_of_shortestPath_eq_none fits found
      rw [distance, found, Option.elim_none]
      refine iff_of_false (by simp) ?_
      rintro ⟨path, least, ⟨edges, chain, feasible, -, sum⟩, -⟩
      have none := infinite edges chain feasible
      rw [sum] at none
      cases none
  | some route =>
      obtain ⟨least, eq, total, path⟩ := pathCost_of_shortestPath small found
      rw [eq, WithTop.coe_le_coe]
      refine ⟨fun le => ⟨_, least, path, le⟩, ?_⟩
      rintro ⟨path, other, ⟨edges, chain, feasible, -, sum⟩, le⟩
      have notLess := not_chainCost_lt fits found chain feasible
      rw [sum, total, F64.finite_lt_finite] at notLess
      exact (not_lt.mp notLess).trans le

theorem distance_le (small : graph.idToNode.length ≤ u32Max) {path : List NodeId} {cost : ℚ}
    (isPath : graph.PathCost health model start goal path cost) :
    graph.distance health model start goal ≤ cost :=
  (distance_le_iff small).mpr ⟨path, cost, isPath, le_rfl⟩

/-- Where there is a distance there is a path. -/
theorem exists_path_of_distance (small : graph.idToNode.length ≤ u32Max) {cost : ℚ}
    (eq : graph.distance health model start goal = cost) :
    ∃ path, graph.PathCost health model start goal path cost := by
  obtain ⟨path, least, isPath, le⟩ := (distance_le_iff small).mp eq.le
  have ge := distance_le small isPath
  rw [eq, WithTop.coe_le_coe] at ge
  obtain rfl := le_antisymm le ge
  exact ⟨path, isPath⟩

/-! ## Better graphs and better health -/

/-- Where a node has had a finite penalty, it has one that is not greater. -/
def Better (health better : HashMap NodeId HealthTracker) : Prop :=
  ∀ node penalty, penaltyAt health node = .finite penalty →
    ∃ less ≤ penalty, penaltyAt better node = .finite less

theorem penaltyAt_notNeg (health : HashMap NodeId HealthTracker) (node : NodeId) :
    (penaltyAt health node).NotNeg := by
  unfold penaltyAt
  cases health.lookup node with
  | none => exact F64.notNeg_finite.mpr le_rfl
  | some tracker => exact tracker.penalty_notNeg

theorem exists_linkCost_le {better : HashMap NodeId HealthTracker} (improves : Better health better)
    {edge : Edge} {cost : ℚ} (link : linkCost health model edge = .finite cost) :
    ∃ less ≤ cost, linkCost better model edge = .finite less := by
  have sum : (edge.indexed 0).weight model + penaltyAt health edge.to = .finite cost := link
  obtain ⟨weight, penalty, weightEq, penaltyEq⟩ := F64.exists_finite_of_add sum
  obtain ⟨less, le, eq⟩ := improves edge.to penalty penaltyEq
  rw [weightEq, penaltyEq] at sum
  have notNeg := (edge.indexed 0).weight_notNeg model
  have notNeg' := penaltyAt_notNeg better edge.to
  rw [weightEq] at notNeg
  rw [eq] at notNeg'
  obtain ⟨total, totalLe, value⟩ := F64.exists_add_le sum le_rfl le notNeg notNeg'
  refine ⟨total, totalLe, ?_⟩
  show (edge.indexed 0).weight model + penaltyAt better edge.to = _
  rw [weightEq, eq, value]

theorem linkCost_notNeg (edge : Edge) : (linkCost health model edge).NotNeg :=
  ((edge.indexed 0).weight_notNeg model).add (penaltyAt_notNeg health edge.to)

theorem exists_chainCost_le {better : HashMap NodeId HealthTracker}
    (improves : Better health better) {edges : List Edge} {cost : ℚ}
    (sum : chainCost health model edges = .finite cost) :
    ∃ less ≤ cost, chainCost better model edges = .finite less := by
  induction edges using List.reverseRecOn generalizing cost with
  | nil => exact ⟨cost, le_rfl, sum⟩
  | append_singleton edges edge ih =>
      rw [chainCost_concat] at sum
      obtain ⟨front, link, frontEq, linkEq⟩ := F64.exists_finite_of_add sum
      obtain ⟨front', frontLe, frontEq'⟩ := ih frontEq
      obtain ⟨link', linkLe, linkEq'⟩ := exists_linkCost_le improves linkEq
      have notNeg : (chainCost better model edges).NotNeg := chainCost_notNeg edges
      have notNeg' : (linkCost better model edge).NotNeg := linkCost_notNeg edge
      rw [frontEq'] at notNeg
      rw [linkEq'] at notNeg'
      rw [frontEq, linkEq] at sum
      rw [chainCost_concat, frontEq', linkEq']
      exact F64.exists_add_le sum frontLe linkLe notNeg notNeg'

/-- What a finite sum is made of. -/
theorem exists_linkCost_of_mem {edges : List Edge} {cost : ℚ}
    (sum : chainCost health model edges = .finite cost) {edge : Edge} (mem : edge ∈ edges) :
    ∃ own, linkCost health model edge = .finite own := by
  induction edges using List.reverseRecOn generalizing cost with
  | nil => cases mem
  | append_singleton edges last ih =>
      rw [chainCost_concat] at sum
      obtain ⟨front, link, frontEq, linkEq⟩ := F64.exists_finite_of_add sum
      rcases List.mem_append.mp mem with mem | same
      · exact ih frontEq mem
      · obtain rfl := List.mem_singleton.mp same
        exact ⟨link, linkEq⟩

/-- A chain of finite cost enters no node whose circuit is `Open`. -/
theorem feasible_of_chainCost {other : HashMap NodeId HealthTracker} {edges : List Edge} {cost : ℚ}
    (feasible : ∀ edge ∈ edges, edge.Feasible health)
    (sum : chainCost other model edges = .finite cost) : ∀ edge ∈ edges, edge.Feasible other := by
  intro edge mem
  obtain ⟨enabled, costsValid, -⟩ := feasible edge mem
  obtain ⟨own, link⟩ := exists_linkCost_of_mem sum mem
  exact ⟨enabled, costsValid, notOpen_of_finite link⟩

theorem PathCost.exists_le {better : HashMap NodeId HealthTracker} {larger : ToolGraph}
    (subset : ∀ edge ∈ graph.edges, edge ∈ larger.edges) (improves : Better health better)
    {path : List NodeId} {cost : ℚ} (isPath : graph.PathCost health model start goal path cost) :
    ∃ less ≤ cost, larger.PathCost better model start goal path less := by
  obtain ⟨edges, chain, feasible, nodes, sum⟩ := isPath
  obtain ⟨less, le, sum'⟩ := exists_chainCost_le improves sum
  exact ⟨less, le, edges, chain.mono subset, feasible_of_chainCost feasible sum', nodes, sum'⟩

/-- **No distance grows** with more edges or with nodes in better health. -/
theorem distance_mono {better : HashMap NodeId HealthTracker} {larger : ToolGraph}
    (small : graph.idToNode.length ≤ u32Max) (small' : larger.idToNode.length ≤ u32Max)
    (subset : ∀ edge ∈ graph.edges, edge ∈ larger.edges) (improves : Better health better) :
    larger.distance better model start goal ≤ graph.distance health model start goal := by
  cases eq : graph.distance health model start goal with
  | top => exact le_top
  | coe cost =>
      obtain ⟨path, isPath⟩ := exists_path_of_distance small eq
      obtain ⟨less, le, isPath'⟩ := isPath.exists_le subset improves
      exact (distance_le small' isPath').trans (WithTop.coe_le_coe.mpr le)

omit [Rounding] in
/-- A cheaper edge is added once the node has recovered from a failure. -/
theorem distance_mono_of_recovered :
    letI := Rounding.exact
    let dear := [{ Edge.new "a" "b" with baseCost := .finite 3 }]
    let added := dear ++ [Edge.new "a" "b"]
    let worse := { (default : HealthTracker) with successRate := .finite (9 / 10) }
    let failed := AList.insert "b" worse ∅
    (added.foldl addEdge default).distance ∅ default "a" "b" ≤
      (dear.foldl addEdge default).distance failed default "a" "b" := by
  let _ := Rounding.exact
  intro dear added worse failed
  refine distance_mono (by decide +kernel) (by decide +kernel) (by decide +kernel) ?_
  intro node penalty eq
  by_cases here : node = "b"
  · subst here
    have value : penaltyAt failed "b" = .finite (1 / 10) := by decide +kernel
    rw [value] at eq
    obtain rfl := F64.finite.inj eq
    exact ⟨0, by norm_num, rfl⟩
  · refine ⟨penalty, le_rfl, ?_⟩
    rw [← eq, penaltyAt, penaltyAt, HashMap.lookup_insert_eq, if_neg here]

/-! ## Exact arithmetic -/

section Exact

variable (exact : ∀ q : ℚ, Rounding.round q = .finite q)

include exact

/-- The costs of two chains, one behind the other. -/
theorem chainCost_append {front back : List Edge} {x y : ℚ}
    (first : chainCost health model front = .finite x)
    (second : chainCost health model back = .finite y) :
    chainCost health model (front ++ back) = .finite (x + y) := by
  induction back using List.reverseRecOn generalizing y with
  | nil =>
      obtain rfl : 0 = y := F64.finite.inj second
      rwa [List.append_nil, add_zero]
  | append_singleton back edge ih =>
      rw [chainCost_concat] at second
      obtain ⟨before, link, beforeEq, linkEq⟩ := F64.exists_finite_of_add second
      rw [beforeEq, linkEq, F64.finite_add_finite, exact] at second
      obtain rfl := F64.finite.inj second
      rw [← List.append_assoc, chainCost_concat, ih beforeEq, linkEq, F64.finite_add_finite, exact,
        add_assoc]

/-- The cost of a chain is that of its two parts. -/
theorem exists_of_chainCost_append {front back : List Edge} {cost : ℚ}
    (sum : chainCost health model (front ++ back) = .finite cost) :
    ∃ x y, chainCost health model front = .finite x ∧ chainCost health model back = .finite y ∧
      x + y = cost := by
  induction back using List.reverseRecOn generalizing cost with
  | nil =>
      rw [List.append_nil] at sum
      exact ⟨cost, 0, sum, rfl, add_zero cost⟩
  | append_singleton back edge ih =>
      rw [← List.append_assoc, chainCost_concat] at sum
      obtain ⟨before, link, beforeEq, linkEq⟩ := F64.exists_finite_of_add sum
      obtain ⟨x, y, first, second, rfl⟩ := ih beforeEq
      rw [beforeEq, linkEq, F64.finite_add_finite, exact] at sum
      obtain rfl := F64.finite.inj sum
      refine ⟨x, y + link, first, ?_, (add_assoc x y link).symm⟩
      rw [chainCost_concat, second, linkEq, F64.finite_add_finite, exact]

/-- One path behind another. -/
theorem PathCost.append {middle : NodeId} {first second : List NodeId} {x y : ℚ}
    (front : graph.PathCost health model start middle first x)
    (back : graph.PathCost health model middle goal second y) :
    graph.PathCost health model start goal (first ++ second.tail) (x + y) := by
  obtain ⟨frontEdges, frontChain, frontFeasible, rfl, frontSum⟩ := front
  obtain ⟨backEdges, backChain, backFeasible, rfl, backSum⟩ := back
  refine ⟨frontEdges ++ backEdges, frontChain.append backChain, fun edge mem => ?_, by simp,
    chainCost_append exact frontSum backSum⟩
  rcases List.mem_append.mp mem with mem | mem
  · exact frontFeasible edge mem
  · exact backFeasible edge mem

/-- A path is cut in two at one of its nodes. -/
theorem PathCost.exists_split {before after : List NodeId} {node : NodeId} {cost : ℚ}
    (isPath : graph.PathCost health model start goal (before ++ node :: after) cost) :
    ∃ x y, graph.PathCost health model start node (before ++ [node]) x ∧
      graph.PathCost health model node goal (node :: after) y ∧ x + y = cost := by
  obtain ⟨edges, chain, feasible, nodes, sum⟩ := isPath
  obtain ⟨front, back, rfl, first, second, left, right⟩ := chain.exists_split nodes.symm
  obtain ⟨x, y, frontSum, backSum, total⟩ := exists_of_chainCost_append exact sum
  exact ⟨x, y,
    ⟨front, first, fun edge mem => feasible edge (List.mem_append_left _ mem), left.symm, frontSum⟩,
    ⟨back, second, fun edge mem => feasible edge (List.mem_append_right _ mem),
      congrArg (List.cons node) right.symm, backSum⟩, total⟩

/-- **The triangle inequality.** -/
theorem distance_triangle (small : graph.idToNode.length ≤ u32Max) (start middle goal : NodeId) :
    graph.distance health model start goal ≤
      graph.distance health model start middle + graph.distance health model middle goal := by
  cases first : graph.distance health model start middle with
  | top => simp
  | coe x =>
    cases second : graph.distance health model middle goal with
    | top => simp
    | coe y =>
        obtain ⟨front, isFront⟩ := exists_path_of_distance small first
        obtain ⟨back, isBack⟩ := exists_path_of_distance small second
        exact distance_le small (isFront.append exact isBack)

/-- **Each part of a route is a route of least cost** between its ends. -/
theorem distance_add_distance (small : graph.idToNode.length ≤ u32Max) {route : Route}
    (found : graph.shortestPath health model start goal = some route) {before after : List NodeId}
    {node : NodeId} (nodes : route.nodes = before ++ node :: after) :
    ∃ x y, graph.distance health model start node = (x : ℚ) ∧
      graph.PathCost health model start node (before ++ [node]) x ∧
      graph.distance health model node goal = (y : ℚ) ∧
      graph.PathCost health model node goal (node :: after) y ∧
      graph.distance health model start goal = ((x + y : ℚ) : WithTop ℚ) := by
  obtain ⟨cost, eq, -, isPath⟩ := pathCost_of_shortestPath small found
  rw [nodes] at isPath
  obtain ⟨x, y, isFront, isBack, rfl⟩ := isPath.exists_split exact
  have triangle : graph.distance health model start goal ≤
      graph.distance health model start node + graph.distance health model node goal :=
    distance_triangle exact small start node goal
  obtain ⟨x', front, frontLe⟩ := WithTop.le_coe_iff.mp (distance_le small isFront)
  obtain ⟨y', back, backLe⟩ := WithTop.le_coe_iff.mp (distance_le small isBack)
  -- neither part can be shortened, or the whole could be
  rw [eq, front, back, ← WithTop.coe_add, WithTop.coe_le_coe] at triangle
  obtain rfl : x' = x := by linarith
  obtain rfl : y' = y := by linarith
  exact ⟨x', y', front, isFront, back, isBack, eq⟩

omit exact [Rounding] in
/-- A route over two edges. -/
theorem distance_add_distance_of_two_edges :
    letI := Rounding.exact
    let graph := [Edge.new "a" "b", Edge.new "b" "c"].foldl addEdge default
    ∃ x y : ℚ,
      graph.distance ∅ default "a" "b" = x ∧ graph.PathCost ∅ default "a" "b" ["a", "b"] x ∧
      graph.distance ∅ default "b" "c" = y ∧ graph.PathCost ∅ default "b" "c" ["b", "c"] y ∧
      graph.distance ∅ default "a" "c" = ((x + y : ℚ) : WithTop ℚ) := by
  let _ := Rounding.exact
  intro graph
  have nodes : (graph.shortestPath ∅ default "a" "c").map Route.nodes = some ["a", "b", "c"] := by
    decide +kernel
  obtain ⟨route, found, nodes⟩ := Option.map_eq_some_iff.mp nodes
  have cut : route.nodes = ["a"] ++ "b" :: ["c"] := nodes
  exact distance_add_distance (fun _ => rfl) (by decide +kernel) found cut

/-! ### Worse health -/

variable {worse : HashMap NodeId HealthTracker} {node : NodeId} {p p' : ℚ}

/-- What a greater penalty of one node makes of the cost of a chain. -/
theorem chainCost_of_worse (same : ∀ other ≠ node, penaltyAt worse other = penaltyAt health other)
    (before : penaltyAt health node = .finite p) (after : penaltyAt worse node = .finite p')
    {edges : List Edge} {cost : ℚ} (sum : chainCost health model edges = .finite cost) :
    chainCost worse model edges =
      .finite (cost + (edges.map Edge.to).count node * (p' - p)) := by
  induction edges using List.reverseRecOn generalizing cost with
  | nil =>
      obtain rfl : 0 = cost := F64.finite.inj sum
      simp [chainCost]
  | append_singleton edges edge ih =>
      rw [chainCost_concat] at sum
      obtain ⟨front, link, frontEq, linkEq⟩ := F64.exists_finite_of_add sum
      rw [frontEq, linkEq, F64.finite_add_finite, exact] at sum
      obtain rfl := F64.finite.inj sum
      have sum' : (edge.indexed 0).weight model + penaltyAt health edge.to = .finite link := linkEq
      obtain ⟨weight, penalty, weightEq, penaltyEq⟩ := F64.exists_finite_of_add sum'
      rw [weightEq, penaltyEq, F64.finite_add_finite, exact] at sum'
      obtain rfl := F64.finite.inj sum'
      have link' : linkCost worse model edge =
          .finite (weight + penalty + [edge.to].count node * (p' - p)) := by
        show (edge.indexed 0).weight model + penaltyAt worse edge.to = _
        by_cases here : edge.to = node
        · rw [here, before] at penaltyEq
          obtain rfl := F64.finite.inj penaltyEq
          rw [weightEq, here, after, F64.finite_add_finite, exact]
          simp
        · rw [weightEq, same _ here, penaltyEq, F64.finite_add_finite, exact]
          simp [here]
      rw [chainCost_concat, ih frontEq, link', F64.finite_add_finite, exact, List.map_append,
        List.count_append, List.map_singleton]
      push_cast
      congr 1
      ring

/-- **A node in worse health draws no routes**: a route that leads through it would have been as
good as any before. -/
theorem distance_of_worse (small : graph.idToNode.length ≤ u32Max)
    (same : ∀ other ≠ node, penaltyAt worse other = penaltyAt health other)
    (dearer : ∀ p', penaltyAt worse node = .finite p' →
      ∃ p ≤ p', penaltyAt health node = .finite p) {route : Route}
    (found : graph.shortestPath worse model start goal = some route)
    (through : node ∈ route.nodes.tail) :
    ∃ cost, graph.distance health model start goal = (cost : ℚ) ∧
      graph.PathCost health model start goal route.nodes cost := by
  have better : Better worse health := by
    intro other penalty eq
    by_cases here : other = node
    · subst here
      exact dearer penalty eq
    · exact ⟨penalty, le_rfl, (same other here).symm.trans eq⟩
  obtain ⟨cost', eq', total, -⟩ := pathCost_of_shortestPath small found
  obtain ⟨edges, chain, feasible, nodes, sum⟩ := exists_chain_of_shortestPath small found
  rw [total] at sum
  obtain ⟨cost, -, sumBefore⟩ := exists_chainCost_le better sum
  have isPath : graph.PathCost health model start goal route.nodes cost :=
    ⟨edges, chain, feasible_of_chainCost feasible sumBefore, nodes, sumBefore⟩
  obtain ⟨least, eq, leastLe⟩ := WithTop.le_coe_iff.mp (distance_le small isPath)
  -- the route enters the node, once
  have entered : node ∈ edges.map Edge.to := by rwa [nodes] at through
  have nodup := nodup_of_shortestPath small found
  rw [nodes] at nodup
  have once : (edges.map Edge.to).count node = 1 :=
    List.count_eq_one_of_mem (List.nodup_cons.mp nodup).2 entered
  obtain ⟨edge, mem, rfl⟩ := List.mem_map.mp entered
  obtain ⟨own, link⟩ := exists_linkCost_of_mem sum mem
  obtain ⟨-, p', -, after⟩ := F64.exists_finite_of_add
    (show (edge.indexed 0).weight model + penaltyAt worse edge.to = .finite own from link)
  obtain ⟨p, le, before⟩ := dearer p' after
  have dearerBy := chainCost_of_worse exact same before after sumBefore
  rw [sum, once, Nat.cast_one, one_mul] at dearerBy
  obtain rfl := F64.finite.inj dearerBy
  -- what has been the best route enters it at most once
  cases found' : graph.shortestPath health model start goal with
  | none =>
      rw [distance, found'] at eq
      cases eq
  | some best =>
      obtain ⟨least', same', total', -⟩ := pathCost_of_shortestPath small found'
      obtain rfl : least' = least := WithTop.coe_injective (same'.symm.trans eq)
      obtain ⟨edges', chain', feasible', nodes', sum'⟩ := exists_chain_of_shortestPath small found'
      rw [total'] at sum'
      have nodup' := nodup_of_shortestPath small found'
      rw [nodes'] at nodup'
      have atMost := List.nodup_iff_count_le_one.mp (List.nodup_cons.mp nodup').2 edge.to
      have worseSum := chainCost_of_worse exact same before after sum'
      have worsePath : graph.PathCost worse model start goal best.nodes _ :=
        ⟨edges', chain', feasible_of_chainCost feasible' worseSum, nodes', worseSum⟩
      have notLess := distance_le small worsePath
      rw [eq', WithTop.coe_le_coe] at notLess
      have extra : ((edges'.map Edge.to).count edge.to : ℚ) * (p' - p) ≤ 1 * (p' - p) :=
        mul_le_mul_of_nonneg_right (by exact_mod_cast atMost) (sub_nonneg.mpr le)
      obtain rfl : least' = cost := le_antisymm leastLe (by linarith)
      exact ⟨least', eq, isPath⟩

end Exact

end ToolGraph

/-! ## Failures -/

namespace HealthTracker

/-- What a state adds to the penalty. -/
def surcharge : NodeState → ℚ
  | .healthy => 0
  | .degraded => 1 / 2
  | .halfOpen => 3 / 10
  | .open => 0

/-- The penalty of a node whose circuit is not `Open`. -/
theorem penalty_eq {tracker : HealthTracker} {rate : ℚ} (eq : tracker.successRate = .finite rate)
    (nonneg : 0 ≤ rate) (le : rate ≤ 1) (closed : tracker.state ≠ .open) :
    letI := Rounding.exact
    tracker.penalty =
      .finite (surcharge tracker.state + tracker.p99LatencyMs / 10000 + (1 - rate)) := by
  let _ := Rounding.exact
  have clamped : tracker.successRate.clamp (.finite 0) (.finite 1) = .finite rate := by
    rw [eq, F64.clamp, if_neg (by simpa using nonneg), if_neg (by simpa using le)]
  have latency : F64.ofRat tracker.p99LatencyMs / F64.finite 10000 =
      .finite (tracker.p99LatencyMs / 10000) := F64.finite_div_finite _ (by norm_num)
  have success : F64.finite 1 - F64.finite rate = .finite (1 - rate) :=
    F64.finite_sub_finite 1 rate
  unfold HealthTracker.penalty
  rw [clamped, latency, success]
  cases state : tracker.state with
  | healthy =>
      rw [surcharge, zero_add]
      rfl
  | degraded => rfl
  | halfOpen => rfl
  | «open» => exact absurd state closed

/-- A failure leads to no state with a smaller surcharge, unless to `Open`. -/
theorem surcharge_failureState (policy : HealthPolicy) (failures : UInt32) {state : NodeState}
    (closed : state ≠ .open) :
    failureState policy failures state = .open ∨
      surcharge state ≤ surcharge (failureState policy failures state) := by
  unfold failureState
  split_ifs
  · exact Or.inl rfl
  · refine Or.inr ?_
    cases state <;> norm_num [surcharge]
  · exact Or.inr le_rfl

/-- After a failure that does not make the latencies look better, the penalty is not smaller. -/
theorem exists_penalty_le {tracker : HealthTracker} (bounded : tracker.RateBounded)
    (closed : tracker.state ≠ .open) {policy : HealthPolicy} {latencyMs : ℕ} {now : Instant}
    {p' : ℚ} :
    letI := Rounding.exact
    let failed := (tracker.recordResultWithPolicy false latencyMs policy now).1
    tracker.p99LatencyMs ≤ failed.p99LatencyMs → failed.penalty = .finite p' →
      ∃ p ≤ p', tracker.penalty = .finite p := by
  let _ := Rounding.exact
  intro failed slower eq
  obtain ⟨rate, own, nonneg, le⟩ := bounded
  have state : failed.state =
      failureState policy (tracker.consecutiveFailures + 1) tracker.state := onFailure_state _ _ _
  have later : failed.successRate = .finite (rate * 9 / 10) := by
    have sampled : (tracker.recordLatencySample latencyMs).successRate = .finite rate := own
    show ((tracker.recordLatencySample latencyMs).onFailure policy now).successRate = _
    rw [onFailure_successRate, sampled]
    exact F64.finite_div_finite _ (by norm_num)
  have notOpen : failed.state ≠ .open := by
    intro isOpen
    rw [penalty_of_open isOpen] at eq
    cases eq
  rw [penalty_eq later (by linarith) (by linarith) notOpen] at eq
  obtain rfl := F64.finite.inj eq
  refine ⟨_, ?_, penalty_eq own nonneg le closed⟩
  have dearer : surcharge tracker.state ≤ surcharge failed.state := by
    rw [state] at notOpen ⊢
    exact (surcharge_failureState policy _ closed).resolve_left notOpen
  have slower : (tracker.p99LatencyMs : ℚ) / 10000 ≤ failed.p99LatencyMs / 10000 := by gcongr
  linarith

end HealthTracker

/-- A node without a tracker has the penalty of a fresh one. -/
theorem ToolGraph.penaltyAt_eq (health : HashMap NodeId HealthTracker) (node : NodeId) :
    letI := Rounding.exact
    penaltyAt health node = (health.getOrDefault node).penalty := by
  let _ := Rounding.exact
  unfold penaltyAt HashMap.getOrDefault
  cases health.lookup node with
  | some tracker => rfl
  | none =>
      have fresh : (default : HealthTracker).penalty = _ :=
        HealthTracker.penalty_eq rfl zero_le_one le_rfl (by decide)
      rw [Option.map_none, Option.getD_none, Option.getD_none, fresh]
      congr 1
      norm_num [HealthTracker.surcharge, default]

namespace RouterState

/-- The success rate of every tracker of a router is one. -/
theorem rateBounded_trackerOf (ops : List Op) (tenantId : TenantId) (nodeId : NodeId) :
    letI := Rounding.exact
    ((after ops).trackerOf tenantId nodeId).RateBounded := by
  let _ := Rounding.exact
  induction ops using List.reverseRecOn with
  | nil => exact ⟨1, rfl, zero_le_one, le_rfl⟩
  | append_singleton ops op ih =>
      rw [after, run_concat, ← after]
      rcases (after ops).getOrDefault_step op tenantId with same | ⟨-, applied⟩
      · rw [trackerOf, same]
        exact ih
      rw [trackerOf, applied]
      rcases ((after ops).tenants.getOrDefault tenantId).tracker_apply_cases op nodeId with
        same | ⟨_, success, latencyMs, now, -, recorded⟩ | ⟨-, moved⟩
      · rw [same]
        exact ih
      · rw [recorded]
        exact ih.step _ (.recordResult success latencyMs now)
      · rw [moved]
        exact ih

open ToolGraph

/-- **A failure draws no routes to its node.**  If the search finds a route through a node once a
failure has been recorded for it, the same path has been one of least cost before.  The circuit must
not have been `Open`, and the latency of the call must not make the node look faster. -/
theorem pathCost_before_failure (ops : List Op) (tenantId : TenantId) (nodeId : NodeId)
    (latencyMs : ℕ) (now : Instant) :
    letI := Rounding.exact
    let failed := (after ops).step (.recordResult tenantId nodeId false latencyMs now)
    let before := (after ops).tenants.getOrDefault tenantId
    let later := failed.tenants.getOrDefault tenantId
    before.graph.idToNode.length ≤ u32Max →
    ((after ops).trackerOf tenantId nodeId).state ≠ .open →
    ((after ops).trackerOf tenantId nodeId).p99LatencyMs ≤
      (failed.trackerOf tenantId nodeId).p99LatencyMs →
    ∀ {start goal : NodeId} {route : Route},
      later.graph.shortestPath later.health later.costModel start goal = some route →
      nodeId ∈ route.nodes.tail →
      ∃ cost, before.graph.distance before.health before.costModel start goal = (cost : ℚ) ∧
        before.graph.PathCost before.health before.costModel start goal route.nodes cost := by
  let _ := Rounding.exact
  intro failed before later small closed slower start goal route found through
  have recorded : later = before.recordResult nodeId false latencyMs now := by
    show HashMap.getOrDefault ((after ops).updateOrDefault tenantId _).tenants tenantId = _
    rw [HashMap.getOrDefault, lookup_updateOrDefault, if_pos rfl]
    rfl
  have tracked : failed.trackerOf tenantId nodeId = _ :=
    trackerOf_recordResult (after ops) tenantId nodeId false latencyMs now
  rw [recorded, TenantState.recordResult_graph, TenantState.recordResult_health,
    TenantState.recordResult_costModel] at found
  refine distance_of_worse (fun _ => rfl) small (fun other ne => ?_) (fun p' eq => ?_) found through
  · rw [penaltyAt, HashMap.lookup_insert_eq, if_neg ne, penaltyAt]
  · rw [penaltyAt, HashMap.lookup_insert_eq, if_pos rfl, Option.map_some, Option.getD_some] at eq
    rw [tracked] at slower
    rw [penaltyAt_eq]
    exact HealthTracker.exists_penalty_le (rateBounded_trackerOf ops tenantId nodeId) closed slower
      eq

/-- A tool on the only way fails for the first time. -/
theorem pathCost_before_failure_of_first :
    letI := Rounding.exact
    let added := after [.addEdge "acme" (Edge.new "a" "b"), .addEdge "acme" (Edge.new "b" "c")]
    let before := added.tenants.getOrDefault "acme"
    ∃ cost : ℚ, before.graph.distance before.health before.costModel "a" "c" = cost ∧
      before.graph.PathCost before.health before.costModel "a" "c" ["a", "b", "c"] cost := by
  let _ := Rounding.exact
  intro added before
  let failed := added.step (.recordResult "acme" "b" false 250 0)
  let later := failed.tenants.getOrDefault "acme"
  have nodes : (later.graph.shortestPath later.health later.costModel "a" "c").map Route.nodes =
      some ["a", "b", "c"] := by
    decide +kernel
  obtain ⟨route, found, nodes⟩ := Option.map_eq_some_iff.mp nodes
  rw [← nodes]
  exact pathCost_before_failure _ "acme" "b" 250 0 (by decide +kernel) (by decide +kernel)
    (by decide +kernel) found (by rw [nodes]; decide)

end RouterState

end TrustRouter
