import TrustRouter.SearchEffort

/-!
# What the graph stores

`add_edge` interns the two ends of an edge and appends the edge to the list of the first.  The two
tables of names and the adjacency lists are filled by the same steps, and a search reads each at
indices that another gave it.

* `OneIndexEach`: each name that is known has one index, and no other name has any.  It needs no
  bound on the number of nodes, so the indices in use can be counted by the names (`length_added`).
* `edgesAt_added`: the edges at an index, with their ends named, are the edges added whose first end
  has that index, in the order they were added in.

`added_isImage` puts this together, with what a search reads (`InBounds`).
-/

namespace TrustRouter

/-- The two ends of an edge, the first first. -/
def Edge.ends (edge : Edge) : List NodeId := [edge.from, edge.to]

namespace ToolGraph

variable {graph : ToolGraph}

/-! ### Names -/

/-- The names of the indices in use are the names known, each once. -/
structure OneIndexEach (graph : ToolGraph) : Prop where
  nodup : graph.idToNode.Nodup
  known : ∀ name, name ∈ graph.idToNode ↔ (graph.nodeToId.lookup name).isSome = true

theorem oneIndexEach_default : OneIndexEach default := ⟨List.nodup_nil, by simp [default]⟩

/-- Looking a node up, or inserting it, makes its name known and no other. -/
theorem OneIndexEach.getOrInsertNode (I : graph.OneIndexEach) (name : NodeId) :
    (graph.getOrInsertNode name).1.OneIndexEach ∧
      ∀ other, other ∈ (graph.getOrInsertNode name).1.idToNode ↔
        other ∈ graph.idToNode ∨ other = name := by
  cases place : graph.nodeToId.lookup name with
  | some id =>
      rw [getOrInsertNode_of_lookup place]
      refine ⟨I, fun other => (or_iff_left_of_imp ?_).symm⟩
      rintro rfl
      exact (I.known other).mpr (place ▸ rfl)
  | none =>
      rw [getOrInsertNode_of_fresh place]
      have fresh : name ∉ graph.idToNode := by
        rw [I.known, place]
        exact Bool.false_ne_true
      have listed : ∀ other, other ∈ (graph.insertNode name place).idToNode ↔
          other ∈ graph.idToNode ∨ other = name := by
        simp [insertNode]
      refine ⟨⟨List.nodup_append.mpr ⟨I.nodup, List.nodup_singleton _, ?_⟩, fun other => ?_⟩,
        listed⟩
      · rintro other mem _ last rfl
        exact fresh (List.mem_singleton.mp last ▸ mem)
      · rw [listed, I.known]
        simp only [insertNode]
        rw [HashMap.lookup_insert_eq]
        split_ifs with same
        · simp [same]
        · simp [same]

/-- Adding an edge makes its ends known and no other name. -/
theorem OneIndexEach.addEdge (I : graph.OneIndexEach) (edge : Edge) :
    (graph.addEdge edge).OneIndexEach ∧
      ∀ name, name ∈ (graph.addEdge edge).idToNode ↔
        name ∈ graph.idToNode ∨ name ∈ edge.ends := by
  obtain ⟨source, listed⟩ := I.getOrInsertNode edge.from
  obtain ⟨target, listed'⟩ := source.getOrInsertNode edge.to
  refine ⟨⟨target.nodup, target.known⟩, fun name => ?_⟩
  have either : name ∈ edge.ends ↔ name = edge.from ∨ name = edge.to := by simp [Edge.ends]
  rw [either, ← or_assoc, ← listed]
  exact listed' name

section Added

variable (added : List Edge)

/-- **The names known** are the ends of the edges added. -/
theorem oneIndexEach_added :
    (added.foldl addEdge default).OneIndexEach ∧
      ∀ name, name ∈ (added.foldl addEdge default).idToNode ↔
        name ∈ added.flatMap Edge.ends := by
  induction added using List.reverseRecOn with
  | nil => exact ⟨oneIndexEach_default, fun name => Iff.rfl⟩
  | append_singleton added edge ih =>
      obtain ⟨I, listed⟩ := ih
      obtain ⟨I', listed'⟩ := I.addEdge edge
      rw [List.foldl_concat]
      refine ⟨I', fun name => ?_⟩
      rw [listed', listed, List.flatMap_append, List.mem_append, List.flatMap_singleton]

/-- There are as many nodes as there are names. -/
theorem length_added :
    (added.foldl addEdge default).idToNode.length = (added.flatMap Edge.ends).toFinset.card := by
  obtain ⟨I, listed⟩ := oneIndexEach_added added
  rw [← List.toFinset_card_of_nodup I.nodup]
  congr 1
  ext name
  rw [List.mem_toFinset, List.mem_toFinset, listed]

/-! ### Edges -/

variable {added}

/-- **The edges at an index** are those added whose first end has that index, in order. -/
theorem edgesAt_added (fits : (added.foldl addEdge default).idToNode.length ≤ 2 ^ 32) (i : ℕ) :
    (added.foldl addEdge default).edgesAt i = added.filter fun edge =>
      (added.foldl addEdge default).nodeToId.lookup edge.from = some i := by
  induction added using List.reverseRecOn with
  | nil => rfl
  | append_singleton added edge ih =>
      obtain ⟨I, listed⟩ := oneIndexEach_added added
      rw [List.foldl_concat] at fits ⊢
      generalize added.foldl addEdge default = graph at *
      have before := (idToNode_prefix_addEdge graph edge).length_le
      rw [edgesAt_addEdge fits, ih (before.trans fits), List.filter_append, List.filter_singleton]
      congr 1
      · -- the ends of the earlier edges keep their indices
        refine List.filter_congr fun earlier mem => ?_
        have known : earlier.from ∈ graph.idToNode :=
          (listed _).mpr (List.mem_flatMap.mpr ⟨earlier, mem, List.mem_cons_self⟩)
        obtain ⟨j, found⟩ := Option.isSome_iff_exists.mp ((I.known _).mp known)
        rw [found, (graph.lookup_addEdge edge).2 _ _ found]
      · simp only [Bool.cond_decide]

/-- All the edges added are stored, each as often as it was added. -/
theorem edges_added_perm (fits : (added.foldl addEdge default).idToNode.length ≤ 2 ^ 32) :
    (added.foldl addEdge default).edges.Perm added := by
  obtain ⟨I, listed⟩ := oneIndexEach_added added
  have stored : (added.foldl addEdge default).edges =
      (List.range (added.foldl addEdge default).idToNode.length).flatMap fun i =>
        added.filter fun edge =>
          (added.foldl addEdge default).nodeToId.lookup edge.from = some i :=
    List.flatMap_congr fun i _ => edgesAt_added fits i
  rw [stored]
  refine flatMap_filter_perm fun edge mem => ?_
  -- the first end has one index
  have known := (listed edge.from).mpr (List.mem_flatMap.mpr ⟨edge, mem, List.mem_cons_self⟩)
  obtain ⟨j, found⟩ := Option.isSome_iff_exists.mp ((I.known _).mp known)
  have inUse := List.mem_range.mpr (ids_lt _ _ _ found)
  rw [found, ← List.count_eq_one_of_mem List.nodup_range inUse]
  refine List.countP_congr fun i _ => ?_
  rw [decide_eq_true_iff, Option.some_inj, beq_iff_eq, eq_comm]

end Added

/-! ### What a search reads -/

section

variable [Rounding]
variable {health : HashMap NodeId HealthTracker} {model : TenantCostModel} {s g : ℕ}

/-- The indices at which a search from `s` to `g` reads and writes.  A node popped is looked up in
the distances and the adjacency lists, the targets of its edges in the names, the distances and the
predecessors, and the indices on the way back in the names and the predecessors. -/
structure InBounds (graph : ToolGraph) (health : HashMap NodeId HealthTracker)
    (model : TenantCostModel) (s g : ℕ) (traced : SearchOutcome × List SearchTurn) : Prop where
  start : s < graph.idToNode.length
  popped : ∀ turn ∈ traced.2,
    turn.node < turn.arrays.distances.length ∧ turn.node < graph.adjacency.length
  targets : ∀ turn ∈ traced.2, ∀ edge ∈ graph.edgesFrom turn.node,
    edge.to < graph.idToNode.length ∧ edge.to < turn.arrays.distances.length ∧
      edge.to < turn.arrays.previous.length
  /-- The arrays keep their lengths from one edge to the next. -/
  sized : ∀ node cost edge, ∀ arrays : SearchArrays,
    (graph.relaxEdge health model node cost arrays edge).distances.length =
        arrays.distances.length ∧
      (graph.relaxEdge health model node cost arrays edge).previous.length =
        arrays.previous.length
  walk : ∀ previous cost, traced.1 = .reached previous cost → ∃ ids,
    predecessorWalk previous s (graph.idToNode.length + 1) g = some ids ∧
      ∀ id ∈ ids, id < graph.idToNode.length ∧ id < previous.length

/-- The predecessors that are walked are those of the last turn. -/
theorem exists_turn_of_reached {fuel : ℕ} {arrays : SearchArrays} {previous : List ℕ} {cost : F64}
    (reached : (graph.tracedLoop health model g fuel arrays).1 = .reached previous cost) :
    ∃ turn ∈ (graph.tracedLoop health model g fuel arrays).2,
      turn.arrays.previous = previous := by
  induction fuel generalizing arrays with
  | zero => cases reached
  | succ fuel ih =>
      unfold tracedLoop at reached ⊢
      cases popped : arrays.heap.pop SearchState.cmp with
      | none => simp [popped] at reached
      | some entry =>
          simp only [popped] at reached ⊢
          split_ifs at reached ⊢ with goal stale
          · obtain ⟨rfl, -⟩ := SearchOutcome.reached.inj reached
            exact ⟨_, List.mem_cons_self, rfl⟩
          · obtain ⟨turn, mem, last⟩ := ih reached
            exact ⟨turn, List.mem_cons_of_mem _ mem, last⟩
          · obtain ⟨turn, mem, last⟩ := ih reached
            exact ⟨turn, List.mem_cons_of_mem _ mem, last⟩

theorem length_relaxEdge (node : ℕ) (cost : F64) (edge : IndexedEdge) (arrays : SearchArrays) :
    (graph.relaxEdge health model node cost arrays edge).distances.length =
        arrays.distances.length ∧
      (graph.relaxEdge health model node cost arrays edge).previous.length =
        arrays.previous.length := by
  unfold relaxEdge
  cases graph.edgeCost health model edge with
  | none => exact ⟨rfl, rfl⟩
  | some edgeCost =>
      dsimp only
      split_ifs
      · exact ⟨List.length_set, List.length_set⟩
      · exact ⟨rfl, rfl⟩

/-- **A search reads no index out of bounds.** -/
theorem inBounds_search (graph : ToolGraph) (health : HashMap NodeId HealthTracker)
    (model : TenantCostModel) {s : ℕ} (lt : s < graph.idToNode.length) (g : ℕ) :
    graph.InBounds health model s g
      (graph.tracedLoop health model g (graph.edgeCount + 2) (graph.initialArrays s)) := by
  have spends := tracedLoop_spends (graph.edgeCount + 2) (loopInv_initial health model g lt)
  refine ⟨lt, fun turn mem => ?_, fun turn mem edge out => ?_, length_relaxEdge,
    fun previous cost reached => ?_⟩
  · have fits := spends.fits turn mem
    rw [fits.distances_length, graph.adjacency_length]
    exact ⟨fits.node_lt, fits.node_lt⟩
  · have fits := spends.fits turn mem
    rw [fits.distances_length, fits.previous_length]
    exact ⟨target_lt out, target_lt out, target_lt out⟩
  · obtain ⟨turn, mem, rfl⟩ := exists_turn_of_reached reached
    rw [fst_tracedLoop] at reached
    have spec := search_spec health model g lt
    rw [search, reached] at spec
    obtain ⟨c, p, -, -, -, back, bound, inside⟩ := spec
    refine ⟨_, predecessorWalk_eq back (bound.trans (Nat.le_succ _)), fun id met => ?_⟩
    rw [(spends.fits turn mem).previous_length]
    have inUse := inside id (List.mem_reverse.mp ((List.takeWhile_prefix _).subset met))
    exact ⟨inUse, inUse⟩

end

/-! ### The image of the edges added -/

/-- The graph stores these edges and nothing else. -/
structure IsImage (graph : ToolGraph) (added : List Edge) : Prop where
  inverse : ∀ name id, graph.nodeToId.lookup name = some id ↔ graph.idToNode[id]? = some name
  adjacency_length : graph.adjacency.length = graph.idToNode.length
  targets_lt : ∀ edges ∈ graph.adjacency, ∀ edge ∈ edges, edge.to < graph.idToNode.length
  names : ∀ name, name ∈ graph.idToNode ↔ name ∈ added.flatMap Edge.ends
  edgesAt : ∀ i < graph.idToNode.length,
    graph.edgesAt i = added.filter fun edge => edge.from = graph.nodeName i
  edges : graph.edges.Perm added

/-- **Interning** loses nothing and adds nothing, and leaves a search no index out of bounds. -/
theorem added_isImage [Rounding] (added : List Edge)
    (few : (added.flatMap Edge.ends).toFinset.card < u32Max) :
    (added.foldl addEdge default).IsImage added ∧
      ∀ health model start goal s g,
        (added.foldl addEdge default).nodeToId.lookup start = some s →
        (added.foldl addEdge default).nodeToId.lookup goal = some g →
          g < (added.foldl addEdge default).idToNode.length ∧
          (added.foldl addEdge default).InBounds health model s g
            ((added.foldl addEdge default).tracedLoop health model g
              ((added.foldl addEdge default).edgeCount + 2)
              ((added.foldl addEdge default).initialArrays s)) := by
  have fits : (added.foldl addEdge default).idToNode.length ≤ 2 ^ 32 := by
    rw [length_added]
    exact few.le.trans (Nat.sub_le _ _)
  refine ⟨?_, fun health model start goal s g startId goalId =>
    ⟨ids_lt _ _ _ goalId, inBounds_search _ health model (ids_lt _ _ _ startId) g⟩⟩
  have inverse := (added.foldl addEdge default).interned fits
  refine ⟨inverse, adjacency_length _, targets_lt _, (oneIndexEach_added added).2, fun i lt => ?_,
    edges_added_perm fits⟩
  rw [edgesAt_added fits]
  refine List.filter_congr fun edge _ => decide_eq_decide.mpr ?_
  -- an index in use and its name determine each other
  exact ⟨fun found => (nodeName_of_lookup _ fits found).symm,
    fun same => same ▸ lookup_nodeName fits lt⟩

/-- A loop, an edge out of a node known already, and an edge added twice. -/
theorem added_isImage_loop :
    letI := Rounding.nearestEven
    let added := [Edge.new "a" "a", Edge.new "b" "a", Edge.new "a" "b", Edge.new "b" "a"]
    (added.foldl addEdge default).IsImage added ∧
      (added.foldl addEdge default).edgesAt 1 = [Edge.new "b" "a", Edge.new "b" "a"] := by
  let _ := Rounding.nearestEven
  intro added
  have image := (added_isImage added (by decide +kernel)).1
  refine ⟨image, (image.edgesAt 1 (by decide +kernel)).trans ?_⟩
  decide +kernel

end ToolGraph

end TrustRouter
