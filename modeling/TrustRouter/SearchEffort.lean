import TrustRouter.IdSpace

/-!
# What a search costs

The loop of the search has no set of visited nodes.  It pops an entry for every push, and an
edge is pushed only while the edges of its node are gone through.  A node is gone through when
an entry of it is fresh, and then it is settled, with a label that no later entry undercuts
(`LoopInv.fresh`).  So every node is gone through once, every edge is pushed at most once, and
there is at most one pop for each edge, and one for the start (`search_frugal`).

`tracedLoop` is the loop with a record of its turns.  The record changes nothing
(`fst_tracedLoop`).

The walk back from the goal passes settled nodes only, each settled before the one it was
reached from, whatever has been overwritten meanwhile.  It gets to the start unless an index on
the way is the sentinel, of which there is one among `2 ^ 32` nodes (`not_walksBack`).
-/

namespace TrustRouter

open LabelSetting

/-- A turn of the search loop: the node popped, the arrays it is popped from, and whether the edges
out of it are gone through. -/
structure SearchTurn where
  node : ℕ
  arrays : SearchArrays
  scans : Bool

/-- The node popped and the arrays fit the graph. -/
structure SearchTurn.Fits (graph : ToolGraph) (turn : SearchTurn) : Prop where
  node_lt : turn.node < graph.idToNode.length
  distances_length : turn.arrays.distances.length = graph.idToNode.length
  previous_length : turn.arrays.previous.length = graph.idToNode.length

/-- The nodes whose edges are gone through. -/
def scanned (turns : List SearchTurn) : List ℕ := (turns.filter (·.scans)).map (·.node)

namespace ToolGraph

variable [Rounding]

/-- The `while let` loop, with its turns in order. -/
def tracedLoop (graph : ToolGraph) (health : HashMap NodeId HealthTracker)
    (model : TenantCostModel) (goalId : ℕ) : ℕ → SearchArrays → SearchOutcome × List SearchTurn
  | 0, _ => (.diverged, [])
  | fuel + 1, arrays =>
      match arrays.heap.pop SearchState.cmp with
      | none => (.exhausted, [])
      | some (⟨node, cost⟩, heap) =>
          if node = goalId then (.reached arrays.previous cost, [⟨node, arrays, false⟩])
          else if arrays.distances.getD node .posInf < cost then
            (graph.tracedLoop health model goalId fuel { arrays with heap := heap }).map id
              (⟨node, arrays, false⟩ :: ·)
          else
            (graph.tracedLoop health model goalId fuel
              ((graph.edgesFrom node).foldl (graph.relaxEdge health model node cost)
                { arrays with heap := heap })).map id (⟨node, arrays, true⟩ :: ·)

variable {graph : ToolGraph} {health : HashMap NodeId HealthTracker} {model : TenantCostModel}
variable {s g : ℕ} {arrays : SearchArrays} {done : List ℕ} {L : Labels ℕ Cost}

/-- **The record changes nothing.** -/
theorem fst_tracedLoop (goalId fuel : ℕ) (arrays : SearchArrays) :
    (graph.tracedLoop health model goalId fuel arrays).1 =
      graph.searchLoop health model goalId fuel arrays := by
  induction fuel generalizing arrays with
  | zero => rfl
  | succ fuel ih =>
      unfold tracedLoop searchLoop
      cases arrays.heap.pop SearchState.cmp with
      | none => rfl
      | some entry =>
          dsimp only
          split_ifs with goal stale
          · rfl
          · exact ih _
          · exact ih _

/-! ### Turns -/

omit [Rounding] in
/-- What the turns after `done` may spend. -/
structure Spends (graph : ToolGraph) (budget : ℕ) (done : List ℕ) (turns : List SearchTurn) :
    Prop where
  length_le : turns.length ≤ budget
  fits : ∀ turn ∈ turns, turn.Fits graph
  nodup : (scanned turns).Nodup
  notMem : ∀ n ∈ scanned turns, n ∉ done

omit [Rounding] in
theorem spends_nil (budget : ℕ) : graph.Spends budget done [] where
  length_le := Nat.zero_le _
  fits _ mem := by cases mem
  nodup := .nil
  notMem _ mem := by cases mem

omit [Rounding] in
/-- A turn in which nothing is gone through. -/
theorem Spends.skip {budget : ℕ} {turns : List SearchTurn} (spends : graph.Spends budget done turns)
    {node : ℕ} (fits : SearchTurn.Fits graph ⟨node, arrays, false⟩) :
    graph.Spends (budget + 1) done (⟨node, arrays, false⟩ :: turns) where
  length_le := Nat.succ_le_succ spends.length_le
  fits := List.forall_mem_cons.mpr ⟨fits, spends.fits⟩
  nodup := spends.nodup
  notMem := spends.notMem

omit [Rounding] in
/-- A turn in which the edges of a new node are gone through. -/
theorem Spends.scan {budget node : ℕ} {turns : List SearchTurn}
    (spends : graph.Spends budget (node :: done) turns)
    (fits : SearchTurn.Fits graph ⟨node, arrays, true⟩) (unsettled : node ∉ done) :
    graph.Spends (budget + 1) done (⟨node, arrays, true⟩ :: turns) where
  length_le := Nat.succ_le_succ spends.length_le
  fits := List.forall_mem_cons.mpr ⟨fits, spends.fits⟩
  nodup := List.nodup_cons.mpr
    ⟨fun again => spends.notMem node again List.mem_cons_self, spends.nodup⟩
  notMem := List.forall_mem_cons.mpr
    ⟨unsettled, fun n mem settled => spends.notMem n mem (List.mem_cons_of_mem _ settled)⟩

omit [Rounding] in
theorem Spends.mono {budget budget' : ℕ} {turns : List SearchTurn}
    (spends : graph.Spends budget done turns) (le : budget ≤ budget') :
    graph.Spends budget' done turns :=
  { spends with length_le := spends.length_le.trans le }

/-- What is popped is in use, and comes off the queue. -/
theorem LoopInv.popped (I : graph.LoopInv health model s g done arrays L) {node : ℕ} {cost : F64}
    {heap : BinaryHeap SearchState}
    (popped : arrays.heap.pop SearchState.cmp = some (⟨node, cost⟩, heap)) :
    (∀ scans, SearchTurn.Fits graph ⟨node, arrays, scans⟩) ∧ 1 ≤ L.queue.length := by
  obtain ⟨c, -, queued, -, -⟩ := I.represents.pop popped
  have labelled := (I.invariant.dist_le node c queued).trans_lt (WithTop.coe_lt_top c)
  refine ⟨fun scans => ⟨I.represents.lt_of_dist_ne_top labelled.ne, ?_, ?_⟩,
    List.length_pos_of_mem queued⟩
  · exact I.represents.distances_length
  · exact I.represents.previous_length

/-- **The turns** of the loop spend at most the entries queued and the edges remaining. -/
theorem tracedLoop_spends (fuel : ℕ) (I : graph.LoopInv health model s g done arrays L) :
    graph.Spends (L.queue.length + graph.remaining done) done
      (graph.tracedLoop health model g fuel arrays).2 := by
  induction fuel generalizing arrays done L with
  | zero => exact spends_nil _
  | succ fuel ih =>
      unfold tracedLoop
      cases popped : arrays.heap.pop SearchState.cmp with
      | none => exact spends_nil _
      | some entry =>
          obtain ⟨⟨node, cost⟩, heap⟩ := entry
          obtain ⟨fits, queued⟩ := I.popped popped
          dsimp only
          split_ifs with goal stale
          · exact ((spends_nil 0).skip (fits false)).mono (by omega)
          · obtain ⟨L', I', shrunk⟩ := I.stale popped stale
            exact ((ih I').skip (fits false)).mono (by omega)
          · obtain ⟨unsettled, -, L', I', shrunk⟩ := I.fresh popped goal stale
            exact ((ih I').scan (fits true) unsettled).mono shrunk

/-! ### The search -/

omit [Rounding] in
/-- The loop ends, with at most one pop more than there are edges, and no node is gone through
twice. -/
structure Frugal (graph : ToolGraph) (traced : SearchOutcome × List SearchTurn) : Prop where
  ends : traced.1 ≠ .diverged
  pops : traced.2.length ≤ graph.edgeCount + 1
  fits : ∀ turn ∈ traced.2, turn.Fits graph
  scansOnce : (scanned traced.2).Nodup

omit [Rounding] in
/-- The walk back from the goal gets to the start, in as many turns as there are nodes and without
meeting the sentinel. -/
def WalksBack (graph : ToolGraph) (startId goalId : ℕ) (outcome : SearchOutcome) : Prop :=
  ∀ previous cost, outcome = .reached previous cost → ∃ ids,
    predecessorWalk previous startId graph.idToNode.length goalId = some ids ∧
      ids.getLast? = some startId ∧ u32Max ∉ ids

omit [Rounding] in
/-- A walk that starts at the sentinel ends there. -/
theorem eq_nil_of_predecessorWalk_u32Max {previous ids : List ℕ} {startId fuel : ℕ}
    (walked : predecessorWalk previous startId fuel u32Max = some ids) : ids = [] := by
  cases fuel with
  | zero => cases walked
  | succ fuel =>
      rw [predecessorWalk, if_pos rfl] at walked
      exact (Option.some.inj walked).symm

/-- The way back from the goal while no index is the sentinel. -/
theorem OutcomeSpec.walksBack {outcome : SearchOutcome}
    (spec : graph.OutcomeSpec health model s g outcome)
    (small : graph.idToNode.length ≤ u32Max) : graph.WalksBack s g outcome := by
  rintro previous cost rfl
  obtain ⟨c, p, -, walk, -, back, bound, inside⟩ := spec
  have inUse : u32Max ∉ p.reverse := fun mem =>
    absurd (inside _ (List.mem_reverse.mp mem)) (not_lt.mpr small)
  have whole : p.reverse.takeWhile (· ≠ u32Max) = p.reverse :=
    List.takeWhile_eq_self_iff.mpr fun n mem => decide_eq_true fun same => inUse (same ▸ mem)
  exact ⟨p.reverse, whole ▸ predecessorWalk_eq back bound,
    List.getLast?_reverse.trans back.head?_eq, inUse⟩

/-- **The search ends, and spends little.**  The bounds on its pops and scans hold of every graph,
and the way back from the goal gets to the start in every graph without the sentinel. -/
theorem search_frugal (graph : ToolGraph) (health : HashMap NodeId HealthTracker)
    (model : TenantCostModel) {start : NodeId} {s : ℕ} (g : ℕ) {fuel : ℕ}
    (startId : graph.nodeToId.lookup start = some s) (enough : graph.edgeCount + 2 ≤ fuel) :
    graph.Frugal (graph.tracedLoop health model g fuel (graph.initialArrays s)) ∧
      (graph.idToNode.length ≤ u32Max →
        graph.WalksBack s g (graph.searchLoop health model g fuel (graph.initialArrays s))) := by
  have initial := loopInv_initial health model g (graph.ids_lt start s startId)
  have spends := tracedLoop_spends fuel initial
  have budget : (Labels.start s Cost.zero).queue.length + graph.remaining [] =
      graph.edgeCount + 1 := by
    rw [remaining_nil, add_comm]
    rfl
  have spec := searchLoop_spec fuel initial (by omega)
  refine ⟨⟨?_, budget ▸ spends.length_le, spends.fits, spends.nodup⟩, spec.walksBack⟩
  rw [fst_tracedLoop]
  intro diverged
  rw [diverged] at spec
  exact spec

omit [Rounding] in
/-- Two nodes on a cycle that costs nothing, one of them with a loop. -/
theorem search_frugal_cycle :
    letI := Rounding.exact
    let free (edge : Edge) : Edge := { edge with baseCost := .finite 0 }
    let graph := [free (Edge.new "a" "b"), free (Edge.new "b" "a"), free (Edge.new "a" "a")].foldl
      addEdge default
    graph.Frugal (graph.tracedLoop ∅ default 1 5 (graph.initialArrays 0)) ∧
      graph.WalksBack 0 1 (graph.searchLoop ∅ default 1 5 (graph.initialArrays 0)) := by
  let _ := Rounding.exact
  intro free graph
  obtain ⟨frugal, walksBack⟩ := search_frugal graph ∅ default 1
    (show graph.nodeToId.lookup "a" = some 0 by decide +kernel)
    (show graph.edgeCount + 2 ≤ 5 by decide +kernel)
  exact ⟨frugal, walksBack (by decide +kernel)⟩

/-! ### The node with the index of the sentinel -/

/-- A search that gets to the sentinel does not walk back from there. -/
theorem not_walksBack_of_found {start goal : NodeId} {route : Route} (ne : start ≠ goal)
    (startId : graph.nodeToId.lookup start = some s)
    (goalId : graph.nodeToId.lookup goal = some u32Max)
    (found : graph.shortestPath health model start goal = some route) :
    ¬ graph.WalksBack s u32Max (graph.search health model s u32Max) := by
  intro walksBack
  unfold shortestPath at found
  rw [if_neg ne] at found
  simp only [startId, goalId, Option.bind_eq_bind, Option.bind_some] at found
  cases outcome : graph.search health model s u32Max with
  | exhausted | diverged => simp [outcome] at found
  | reached previous cost =>
      obtain ⟨ids, walked, ends, -⟩ := walksBack previous cost outcome
      rw [eq_nil_of_predecessorWalk_u32Max walked] at ends
      cases ends

omit [Rounding] in
/-- With `2 ^ 32` nodes there is no way back from the last. -/
theorem not_walksBack :
    letI := Rounding.exact
    ¬ ∀ (graph : ToolGraph) (health : HashMap NodeId HealthTracker) (model : TenantCostModel)
      (start goal : NodeId) (s g : ℕ), model.validate = .ok () → start ≠ goal →
      graph.nodeToId.lookup start = some s → graph.nodeToId.lookup goal = some g →
        graph.Frugal (graph.tracedLoop health model g (graph.edgeCount + 2)
            (graph.initialArrays s)) ∧
          graph.WalksBack s g (graph.search health model s g) := by
  let _ := Rounding.exact
  intro all
  obtain ⟨n, full⟩ : ∃ n, n - 1 = u32Max := ⟨u32Max + 1, Nat.add_sub_cancel _ _⟩
  obtain ⟨two, fits, ne⟩ := nodeNamed_ne_of_full full
  obtain ⟨-, firstId, lastId⟩ := firstToLast_spec two fits
  have finite : (chainCost ∅ default
      [Edge.new (nodeNamed 0) (nodeNamed (n - 1))]).isFinite = true := by
    rw [chainCost_new]
    decide +kernel
  obtain ⟨route, found⟩ := exists_route_firstToLast two fits (by simp [NotOpen]) finite
  rw [full] at lastId ne found
  exact not_walksBack_of_found ne firstId lastId found
    (all _ ∅ default _ _ 0 u32Max (by decide +kernel) ne firstId lastId).2

end ToolGraph

end TrustRouter
