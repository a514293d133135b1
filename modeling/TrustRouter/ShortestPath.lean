import Mathlib.Algebra.BigOperators.Fin
import Mathlib.Algebra.Order.BigOperators.Group.Finset
import Mathlib.Data.List.TakeWhile
import TrustRouter.Prelude.LabelSetting
import TrustRouter.ToolGraph

/-!
# The search is a label-setting search

`ToolGraph.search` works on arrays and a heap of `f64`s.  This module shows that
it runs the label-setting search of `Prelude.LabelSetting` over `costEdges`, the
edges of the graph acting on costs by rounded addition, and draws the conclusions.

`Represents` relates the arrays to the labels they hold.  One relaxation is either
nothing or an improvement (`relaxEdge_scan`), so the loop over the edges out of a
node is a `Scan` (`foldl_relaxEdge_scan`), and the outer loop keeps `LoopInv`.

Nothing here needs exact arithmetic.  A cost is the left-to-right rounded sum the
program itself would compute along a walk; the search finds the least of these,
and finds none exactly when every such sum overflows or there is no walk.
-/

namespace TrustRouter

open LabelSetting

variable [Rounding]

namespace ToolGraph

variable (graph : ToolGraph) (health : HashMap NodeId HealthTracker) (model : TenantCostModel)

/-! ### Edge costs -/

variable {graph health model} in
/-- An edge that is not skipped is enabled and valid, and its cost is a finite
non-negative number. -/
theorem edgeCost_eq_some {edge : IndexedEdge} {cost : F64}
    (usable : graph.edgeCost health model edge = some cost) :
    edge.enabled = true ∧ edge.isValid = true ∧
      cost = edge.weight model + graph.healthPenalty health edge.to ∧
      ∃ w : ℚ, 0 ≤ w ∧ cost = .finite w := by
  unfold edgeCost at usable
  dsimp only at usable
  split_ifs at usable with disabled invalid skipped
  obtain rfl := Option.some.inj usable
  have penalty : (graph.healthPenalty health edge.to).NotNeg := by
    unfold healthPenalty
    cases health.lookup (graph.nodeName edge.to) with
    | none => exact F64.notNeg_finite.mpr le_rfl
    | some tracker => exact tracker.penalty_notNeg
  have notNeg := (edge.weight_notNeg model).add penalty
  simp only [not_or, Bool.not_eq_true] at skipped
  obtain ⟨w, value, nonneg⟩ := notNeg.exists_finite skipped.1 skipped.2
  exact ⟨by simpa using disabled, by simpa using invalid, rfl, w, nonneg, value⟩

/-- The edges of the graph, acting on costs: the weight and the penalty are added
and the sum is rounded. -/
def costEdges : EdgeSystem ℕ Cost where
  Step n m c c' := ∃ edge ∈ graph.edgesFrom n, edge.to = m ∧ ∃ w : ℚ,
    graph.edgeCost health model edge = some (.finite w) ∧
      F64.finite c.value + F64.finite w = .finite c'.value
  le_of_step := by
    rintro n m c c' ⟨edge, -, -, w, usable, sum⟩
    obtain ⟨-, -, -, w', nonneg, value⟩ := edgeCost_eq_some usable
    obtain rfl := F64.finite.inj value
    exact Cost.le_of_add_eq nonneg sum
  step_mono := by
    rintro n m c d d' le ⟨edge, mem, target, w, usable, sum⟩
    obtain ⟨-, -, -, w', nonneg, value⟩ := edgeCost_eq_some usable
    obtain rfl := F64.finite.inj value
    obtain ⟨q, le', sum'⟩ := Cost.add_mono le nonneg sum
    exact ⟨Cost.ofAdd c nonneg sum', le', edge, mem, target, w, usable, sum'⟩

/-- `graph.CostWalk health model s g c p`: the indices `p` lead from `s` to `g`,
and the costs on the way, added up from zero as the search adds them, come to the
finite cost `c`. -/
abbrev CostWalk (s g : ℕ) (c : Cost) (p : List ℕ) : Prop :=
  Walk (graph.costEdges health model) s Cost.zero g c p

/-! ### Arrays and labels -/

/-- The arrays hold the labels. -/
structure Represents (s : ℕ) (arrays : SearchArrays) (L : Labels ℕ Cost) : Prop where
  distances_length : arrays.distances.length = graph.idToNode.length
  previous_length : arrays.previous.length = graph.idToNode.length
  distances : ∀ n, arrays.distances.getD n .posInf = Cost.toF64 (L.dist n)
  previous : ∀ n, L.dist n ≠ ⊤ → n ≠ s → arrays.previous.getD n u32Max = L.prev n
  heap : arrays.heap = L.queue.map fun entry => ⟨entry.1, .finite entry.2.value⟩

variable {graph} {s : ℕ} {arrays : SearchArrays} {L : Labels ℕ Cost}

omit [Rounding] in
private theorem getD_set_of_lt {α : Type*} {xs : List α} {i : ℕ} (lt : i < xs.length)
    (x d : α) (j : ℕ) : (xs.set i x).getD j d = if j = i then x else xs.getD j d := by
  rw [List.getD_eq_getElem?_getD, List.getElem?_set, List.getD_eq_getElem?_getD]
  split_ifs with same same' same'
  · rfl
  · exact absurd same.symm same'
  · exact absurd same'.symm same
  · rfl

/-- Only indices in use have labels. -/
theorem Represents.lt_of_dist_ne_top (R : graph.Represents s arrays L) {n : ℕ}
    (labelled : L.dist n ≠ ⊤) : n < graph.idToNode.length := by
  by_contra outside
  rw [← R.distances_length, not_lt] at outside
  have default_ : arrays.distances.getD n .posInf = .posInf := by
    rw [List.getD_eq_getElem?_getD, List.getElem?_eq_none outside]
    rfl
  rw [R.distances] at default_
  exact labelled (Cost.toF64_injective default_)

theorem represents_initial (lt : s < graph.idToNode.length) :
    graph.Represents s (graph.initialArrays s) (Labels.start s Cost.zero) where
  distances_length := by simp [initialArrays]
  previous_length := by simp [initialArrays]
  distances := by
    intro n
    simp only [initialArrays]
    rw [getD_set_of_lt (by simpa using lt)]
    by_cases same : n = s
    · subst same
      simp [Labels.start]
    · have top : (List.replicate graph.idToNode.length F64.posInf).getD n .posInf = .posInf := by
        rw [List.getD_eq_getElem?_getD, List.getElem?_replicate]
        split_ifs <;> rfl
      rw [if_neg same, top]
      simp [Labels.start, same]
  previous := by
    intro n labelled ne
    simp [Labels.start, ne] at labelled
  heap := by simp [initialArrays, Labels.start]

/-- Writing an improvement into the arrays. -/
theorem Represents.improve (R : graph.Represents s arrays L) (n : ℕ) {m : ℕ}
    (lt : m < graph.idToNode.length) (c : Cost) :
    graph.Represents s
      { distances := arrays.distances.set m (.finite c.value)
        previous := arrays.previous.set m n
        heap := arrays.heap.push ⟨m, .finite c.value⟩ } (L.improve n m c) where
  distances_length := by simp [R.distances_length]
  previous_length := by simp [R.previous_length]
  distances := by
    intro k
    dsimp only
    rw [getD_set_of_lt (by rwa [R.distances_length]), R.distances]
    by_cases same : k = m
    · subst same
      simp [Labels.improve]
    · simp [Labels.improve, same]
  previous := by
    intro k labelled ne
    dsimp only
    rw [getD_set_of_lt (by rwa [R.previous_length])]
    by_cases same : k = m
    · subst same
      simp [Labels.improve]
    · rw [if_neg same, R.previous k (by simpa [Labels.improve, same] using labelled) ne]
      simp [Labels.improve, same]
  heap := by simp [BinaryHeap.push, Labels.improve, R.heap]

variable {health model} {n : ℕ} {c : Cost}

variable (health model) in
/-- **One relaxation** is a scan of at most one step, after which the label of the
target is at most what the edge offers. -/
theorem relaxEdge_scan (R : graph.Represents s arrays L) {edge : IndexedEdge}
    (mem : edge ∈ graph.edgesFrom n) :
    ∃ L', graph.Represents s (graph.relaxEdge health model n (.finite c.value) arrays edge) L' ∧
      Scan (graph.costEdges health model) n c L L' ∧
      (∀ (w : ℚ) (d : Cost), graph.edgeCost health model edge = some (.finite w) →
        F64.finite c.value + F64.finite w = .finite d.value → L'.dist edge.to ≤ d) ∧
      L'.queue.length ≤ L.queue.length + 1 := by
  unfold relaxEdge
  cases usable : graph.edgeCost health model edge with
  | none => exact ⟨L, R, .refl, by simp, by omega⟩
  | some cost =>
      obtain ⟨-, -, -, w, nonneg, rfl⟩ := edgeCost_eq_some usable
      dsimp only
      rcases Cost.add_eq_finite_or_posInf c nonneg with ⟨r, sum⟩ | overflow
      · have step : (graph.costEdges health model).Step n edge.to c (Cost.ofAdd c nonneg sum) :=
          ⟨edge, mem, rfl, w, usable, sum⟩
        have only : ∀ (w' : ℚ) (d : Cost), some (F64.finite w) = some (F64.finite w') →
            F64.finite c.value + F64.finite w' = .finite d.value →
            Cost.ofAdd c nonneg sum = d := by
          intro w' d same sum'
          obtain rfl := F64.finite.inj (Option.some.inj same)
          exact Cost.value_injective (F64.finite.inj (sum.symm.trans sum'))
        rw [sum, R.distances, show r = (Cost.ofAdd c nonneg sum).value from rfl]
        split_ifs with shorter
        · rw [Cost.finite_lt_toF64] at shorter
          refine ⟨_, R.improve n (target_lt mem) (Cost.ofAdd c nonneg sum),
            .improve .refl step shorter, fun w' d same sum' => ?_, by simp [Labels.improve]⟩
          rw [only w' d same sum']
          simp [Labels.improve]
        · rw [Cost.finite_lt_toF64, not_lt] at shorter
          refine ⟨L, R, .refl, fun w' d same sum' => ?_, by omega⟩
          rwa [← only w' d same sum']
      · -- the sum overflows: nothing is finite to compare with
        rw [overflow, if_neg (F64.not_posInf_lt _)]
        refine ⟨L, R, .refl, fun w' d same sum' => ?_, by omega⟩
        obtain rfl := F64.finite.inj (Option.some.inj same)
        simp [overflow] at sum'

variable (health model) in
/-- Going through a list of edges out of `n` is a scan, which grows the queue by at
most one entry for each edge. -/
theorem foldl_relaxEdge_scan (R : graph.Represents s arrays L) :
    ∀ edges : List IndexedEdge, (∀ edge ∈ edges, edge ∈ graph.edgesFrom n) →
    ∃ L', graph.Represents s
        (edges.foldl (graph.relaxEdge health model n (.finite c.value)) arrays) L' ∧
      Scan (graph.costEdges health model) n c L L' ∧
      (∀ edge ∈ edges, ∀ (w : ℚ) (d : Cost),
        graph.edgeCost health model edge = some (.finite w) →
        F64.finite c.value + F64.finite w = .finite d.value → L'.dist edge.to ≤ d) ∧
      L'.queue.length ≤ L.queue.length + edges.length := by
  intro edges
  induction edges using List.reverseRecOn with
  | nil => exact fun _ => ⟨L, R, .refl, by simp, by simp⟩
  | append_singleton edges edge ih =>
      intro out
      obtain ⟨L', R', scan, offered, grown⟩ := ih fun e mem => out e (by simp [mem])
      obtain ⟨L'', R'', scan', offered', grown'⟩ :=
        relaxEdge_scan health model (c := c) R' (out edge (by simp))
      refine ⟨L'', by simpa using R'', scan.trans scan', ?_, ?_⟩
      · intro e mem w d usable sum
        rcases List.mem_append.mp mem with mem | last
        · exact (scan'.dist_le _).trans (offered e mem w d usable sum)
        · obtain rfl := List.mem_singleton.mp last
          exact offered' w d usable sum
      · rw [List.length_append, List.length_singleton]
        omega

/-! ### The queue -/

omit [Rounding] in
/-- On finite costs the heap order puts the cheaper entry first. -/
private theorem cmp_finite (n m : ℕ) (p q : ℚ) :
    (SearchState.cmp ⟨n, .finite p⟩ ⟨m, .finite q⟩ = .lt → q ≤ p) ∧
      (SearchState.cmp ⟨n, .finite p⟩ ⟨m, .finite q⟩ ≠ .lt → p ≤ q) := by
  unfold SearchState.cmp F64.partialCmp
  rcases lt_trichotomy p q with less | rfl | greater
  · simp [less, less.not_gt, less.le, Ordering.then]
  · simp
  · simp [greater, greater.le, Ordering.then]

/-- What the heap gives up is the cheapest entry of the queue. -/
theorem Represents.pop (R : graph.Represents s arrays L) {node : ℕ} {cost : F64}
    {heap : BinaryHeap SearchState}
    (popped : arrays.heap.pop SearchState.cmp = some (⟨node, cost⟩, heap)) :
    ∃ c : Cost, cost = .finite c.value ∧ (node, c) ∈ L.queue ∧
      (∀ m d, (m, d) ∈ L.queue → c ≤ d) ∧
      graph.Represents s { arrays with heap := heap } (L.pop node c) := by
  have injective : Function.Injective
      fun entry : ℕ × Cost => (⟨entry.1, .finite entry.2.value⟩ : SearchState) := by
    rintro ⟨n, c⟩ ⟨m, d⟩ equal
    obtain ⟨rfl, value⟩ := SearchState.mk.inj equal
    exact congrArg _ (Cost.value_injective (F64.finite.inj value))
  obtain ⟨mem, rest⟩ := BinaryHeap.mem_of_pop popped
  rw [R.heap] at mem
  obtain ⟨⟨n, c⟩, queued, same⟩ := List.mem_map.mp mem
  obtain ⟨rfl, rfl⟩ := SearchState.mk.inj same
  -- every entry on the heap has a finite cost
  have least := BinaryHeap.key_le_of_pop (fun entry => entry.cost.toRat) popped (by
    rw [R.heap]
    intro a ha b hb
    obtain ⟨⟨n, p⟩, -, rfl⟩ := List.mem_map.mp ha
    obtain ⟨⟨m, q⟩, -, rfl⟩ := List.mem_map.mp hb
    exact cmp_finite n m p.value q.value)
  refine ⟨c, rfl, queued, fun m d entry => ?_, ?_⟩
  · refine least ⟨m, .finite d.value⟩ ?_
    rw [R.heap]
    exact List.mem_map.mpr ⟨(m, d), entry, rfl⟩
  · refine { R with heap := ?_ }
    rw [rest, R.heap]
    exact (List.map_erase injective L.queue).symm

/-! ### Counting edges -/

omit [Rounding] in
/-- The edges that are still to be gone through. -/
def remaining (graph : ToolGraph) (done : List ℕ) : ℕ :=
  ∑ n ∈ Finset.range graph.idToNode.length \ done.toFinset, (graph.edgesFrom n).length

omit [Rounding] in
theorem remaining_nil (graph : ToolGraph) : graph.remaining [] = graph.edgeCount := by
  have counted : ∀ lists : List (List IndexedEdge),
      ∑ n ∈ Finset.range lists.length, (lists.getD n []).length =
        (lists.map List.length).sum := by
    intro lists
    induction lists with
    | nil => rfl
    | cons head tail ih =>
        rw [List.length_cons, Finset.sum_range_succ', List.map_cons, List.sum_cons, ← ih,
          add_comm]
        rfl
  simp only [remaining, List.toFinset_nil, Finset.sdiff_empty, ← graph.adjacency_length]
  exact counted graph.adjacency

omit [Rounding] in
/-- Settling a node takes its edges off what remains. -/
theorem remaining_cons {graph : ToolGraph} {n : ℕ} {done : List ℕ}
    (lt : n < graph.idToNode.length) (unsettled : n ∉ done) :
    (graph.edgesFrom n).length + graph.remaining (n :: done) = graph.remaining done := by
  have erased : Finset.range graph.idToNode.length \ (n :: done).toFinset =
      (Finset.range graph.idToNode.length \ done.toFinset).erase n := by
    ext m
    simp only [List.toFinset_cons, Finset.mem_sdiff, Finset.mem_insert, Finset.mem_erase]
    tauto
  rw [remaining, erased]
  exact Finset.add_sum_erase _ (fun n => (graph.edgesFrom n).length) (by simp [lt, unsettled])

/-! ### The loop -/

/-- What holds of the arrays between two turns of the loop, with the nodes settled
so far. -/
structure LoopInv (health : HashMap NodeId HealthTracker) (model : TenantCostModel)
    (s g : ℕ) (done : List ℕ) (arrays : SearchArrays) (L : Labels ℕ Cost) : Prop where
  represents : graph.Represents s arrays L
  invariant : Invariant (graph.costEdges health model) s Cost.zero done L
  relaxed : ∀ n ∈ done, Relaxed (graph.costEdges health model) L n
  goal : g ∉ done

/-- What the outcome of the loop says about the walks to the goal. -/
def OutcomeSpec (graph : ToolGraph) (health : HashMap NodeId HealthTracker)
    (model : TenantCostModel) (s g : ℕ) : SearchOutcome → Prop
  | .reached previous cost => ∃ (c : Cost) (p : List ℕ),
      cost = .finite c.value ∧ graph.CostWalk health model s g c p ∧
      (∀ d q, graph.CostWalk health model s g d q → c ≤ d) ∧
      BackPath (fun n => previous.getD n u32Max) s g p ∧
      p.length ≤ graph.idToNode.length ∧ ∀ n ∈ p, n < graph.idToNode.length
  | .exhausted => ∀ c p, ¬ graph.CostWalk health model s g c p
  | .diverged => False

variable {g : ℕ} {done : List ℕ}

/-- Popping the goal ends the search at the least cost of a walk to it. -/
theorem LoopInv.reached (I : graph.LoopInv health model s g done arrays L) {cost : F64}
    {heap : BinaryHeap SearchState}
    (popped : arrays.heap.pop SearchState.cmp = some (⟨g, cost⟩, heap)) :
    graph.OutcomeSpec health model s g (.reached arrays.previous cost) := by
  obtain ⟨c, rfl, queued, least, -⟩ := I.represents.pop popped
  -- the goal is queued at its label, so a least entry of it is at its label
  obtain ⟨d, label⟩ := WithTop.ne_top_iff_exists.mp
    ((I.invariant.dist_le g c queued).trans_lt (WithTop.coe_lt_top c)).ne
  have le := I.invariant.dist_le g c queued
  rw [← label, WithTop.coe_le_coe] at le
  obtain rfl : c = d := le_antisymm (least g d (I.invariant.queued g d label.symm I.goal)) le
  obtain ⟨p, back, walk, bound, inside⟩ := I.invariant.exists_backPath label.symm
  have labelled : ∀ n ∈ p, L.dist n ≠ ⊤ := by
    intro n mem
    rcases List.mem_cons.mp (inside n mem) with rfl | settled
    · simp [← label]
    · exact I.invariant.done_ne_top n settled
  have counted : (g :: done).length ≤ graph.idToNode.length := by
    have nodup : (g :: done).Nodup := List.nodup_cons.mpr ⟨I.goal, I.invariant.done_nodup⟩
    rw [← List.toFinset_card_of_nodup nodup, ← Finset.card_range graph.idToNode.length]
    refine Finset.card_le_card fun n mem => Finset.mem_range.mpr ?_
    refine I.represents.lt_of_dist_ne_top ?_
    rcases List.mem_cons.mp (List.mem_toFinset.mp mem) with rfl | settled
    · simp [← label]
    · exact I.invariant.done_ne_top n settled
  refine ⟨c, p, rfl, walk, fun d q other => ?_, ?_, bound.trans counted,
    fun n mem => I.represents.lt_of_dist_ne_top (labelled n mem)⟩
  · exact I.invariant.least_of_walk I.relaxed I.goal least other
  · exact back.congr fun n mem ne => (I.represents.previous n (labelled n mem) ne).symm

/-- **A stale entry** is dropped: nothing changes but the queue, which is shorter by one. -/
theorem LoopInv.stale (I : graph.LoopInv health model s g done arrays L) {node : ℕ} {cost : F64}
    {heap : BinaryHeap SearchState}
    (popped : arrays.heap.pop SearchState.cmp = some (⟨node, cost⟩, heap))
    (stale : arrays.distances.getD node .posInf < cost) :
    ∃ L', graph.LoopInv health model s g done { arrays with heap := heap } L' ∧
      L'.queue.length + 1 = L.queue.length := by
  obtain ⟨c, rfl, queued, least, R⟩ := I.represents.pop popped
  have stale' : L.dist node < c := by
    rw [I.represents.distances] at stale
    cases label : L.dist node with
    | top => simp [label] at stale
    | coe d => simpa [label, Cost.lt_iff] using stale
  exact ⟨_, ⟨R, I.invariant.skip stale', I.relaxed, I.goal⟩, List.length_erase_add_one queued⟩

/-- **A fresh entry** settles its node, which was not settled before.  A queued entry goes, and
each one that comes takes an edge from those remaining. -/
theorem LoopInv.fresh (I : graph.LoopInv health model s g done arrays L) {node : ℕ} {cost : F64}
    {heap : BinaryHeap SearchState}
    (popped : arrays.heap.pop SearchState.cmp = some (⟨node, cost⟩, heap)) (ne : node ≠ g)
    (fresh : ¬ arrays.distances.getD node .posInf < cost) :
    node ∉ done ∧ node < graph.idToNode.length ∧
      ∃ L', graph.LoopInv health model s g (node :: done)
          ((graph.edgesFrom node).foldl (graph.relaxEdge health model node cost)
            { arrays with heap := heap }) L' ∧
        L'.queue.length + graph.remaining (node :: done) + 1 ≤
          L.queue.length + graph.remaining done := by
  obtain ⟨c, rfl, queued, least, R⟩ := I.represents.pop popped
  have fresh' : ¬ L.dist node < c := by
    intro less
    rw [I.represents.distances] at fresh
    obtain ⟨d, label⟩ :=
      WithTop.ne_top_iff_exists.mp (less.trans (WithTop.coe_lt_top c)).ne
    rw [← label] at less fresh
    exact fresh (by simpa [Cost.lt_iff] using less)
  have label := I.invariant.dist_eq_of_fresh queued fresh'
  have unsettled := I.invariant.notMem_of_fresh queued fresh'
  have lt : node < graph.idToNode.length :=
    I.represents.lt_of_dist_ne_top (by simp [label])
  -- the node is settled, and its label is the greatest among those settled
  have settled := I.invariant.settle queued least fresh'
  have top : ∀ k ∈ node :: done, (L.pop node c).dist k ≤ c := by
    intro k mem
    rcases List.mem_cons.mp mem with rfl | mem
    · exact label.le
    · exact I.invariant.done_le k mem node c queued
  obtain ⟨L', R', scan, offered, grown⟩ := foldl_relaxEdge_scan
    health model (n := node) (c := c) R
    (graph.edgesFrom node) fun _ mem => mem
  obtain ⟨I', same, relaxed⟩ := scan.spec settled List.mem_cons_self label top
  refine ⟨unsettled, lt, L', ⟨R', I', ?_, ?_⟩, ?_⟩
  · intro k mem
    rcases List.mem_cons.mp mem with rfl | mem
    · -- the node just scanned: every edge was offered at its label
      rintro m d d' labelK ⟨edge, out, rfl, w, usable, sum⟩
      rw [same k List.mem_cons_self] at labelK
      obtain rfl := WithTop.coe_injective (label.symm.trans labelK)
      exact offered edge out w d' usable sum
    · exact relaxed k (List.mem_cons_of_mem _ mem) (I.relaxed k mem)
  · exact fun mem => (List.mem_cons.mp mem).elim (fun same => ne same.symm) I.goal
  · have shrunk := List.length_erase_add_one queued
    have counted := remaining_cons lt unsettled
    simp only [Labels.pop] at shrunk grown
    omega

/-- **The loop.**  It ends within the entries queued and the edges remaining, and
its outcome is right. -/
theorem searchLoop_spec : ∀ (fuel : ℕ) {arrays : SearchArrays} {done : List ℕ}
    {L : Labels ℕ Cost}, graph.LoopInv health model s g done arrays L →
    L.queue.length + graph.remaining done < fuel →
    graph.OutcomeSpec health model s g (graph.searchLoop health model g fuel arrays) := by
  intro fuel
  induction fuel with
  | zero => exact fun _ enough => absurd enough (Nat.not_lt_zero _)
  | succ fuel ih =>
      intro arrays done L I enough
      unfold searchLoop
      cases popped : arrays.heap.pop SearchState.cmp with
      | none =>
          -- an empty queue: every node that can be reached is settled, and the goal is not
          have empty := BinaryHeap.pop_eq_none_iff.mp popped
          rw [I.represents.heap, List.map_eq_nil_iff] at empty
          exact fun c p => I.invariant.not_walk_of_exhausted I.relaxed I.goal empty
      | some entry =>
          obtain ⟨⟨node, cost⟩, heap⟩ := entry
          dsimp only
          split_ifs with goal stale
          · subst goal
            exact I.reached popped
          · obtain ⟨L', I', shrunk⟩ := I.stale popped stale
            exact ih I' (by omega)
          · obtain ⟨-, -, L', I', shrunk⟩ := I.fresh popped goal stale
            exact ih I' (by omega)

variable (health model g) in
theorem loopInv_initial (lt : s < graph.idToNode.length) :
    graph.LoopInv health model s g [] (graph.initialArrays s) (Labels.start s Cost.zero) :=
  ⟨represents_initial lt, .start _ _ _, by simp, by simp⟩

variable (health model g) in
/-- **The search.**  It never runs out of fuel and its outcome is right. -/
theorem search_spec (lt : s < graph.idToNode.length) :
    graph.OutcomeSpec health model s g (graph.search health model s g) := by
  refine searchLoop_spec _ (loopInv_initial health model g lt) ?_
  simp only [Labels.start, List.length_singleton, remaining_nil]
  omega

/-- The fuel given is always enough. -/
theorem search_ne_diverged (lt : s < graph.idToNode.length) :
    graph.search health model s g ≠ .diverged := by
  intro diverged
  have spec := search_spec health model g lt
  rw [diverged] at spec
  exact spec

/-! ### The path -/

section

omit [Rounding]

variable {previous p : List ℕ} {n : ℕ}

/-- The walk along predecessors gives the path they spell, from its end, up to the first
sentinel. -/
theorem predecessorWalk_eq {fuel : ℕ} (back : BackPath (fun n => previous.getD n u32Max) s n p)
    (enough : p.length ≤ fuel) :
    predecessorWalk previous s fuel n = some (p.reverse.takeWhile (· ≠ u32Max)) := by
  induction back generalizing fuel with
  | source =>
      obtain ⟨fuel, rfl⟩ : ∃ k, fuel = k + 1 := ⟨fuel - 1, by simp at enough; omega⟩
      unfold predecessorWalk
      split_ifs with sentinel source
      · simp [sentinel]
      · simp [sentinel]
      · exact absurd rfl source
  | @pred n p ne back ih =>
      rw [List.length_append, List.length_singleton] at enough
      obtain ⟨fuel, rfl⟩ : ∃ k, fuel = k + 1 := ⟨fuel - 1, by omega⟩
      unfold predecessorWalk
      rw [List.reverse_concat]
      split_ifs with sentinel
      · simp [sentinel]
      · rw [ih (by omega)]
        simp [sentinel]

end

variable {start goal : NodeId} {route : Route}

/-- A route between different nodes is a least walk between their indices, along a path
that passes no node twice.  Its nodes are those of the path after the last sentinel. -/
theorem exists_path_of_shortestPath (ne : start ≠ goal)
    (found : graph.shortestPath health model start goal = some route) :
    ∃ (s g : ℕ) (c : Cost) (p : List ℕ),
      graph.nodeToId.lookup start = some s ∧ graph.nodeToId.lookup goal = some g ∧
      graph.CostWalk health model s g c p ∧
      (∀ d q, graph.CostWalk health model s g d q → c ≤ d) ∧
      p.Nodup ∧ (∀ n ∈ p, n < graph.idToNode.length) ∧
      route =
        { nodes := ((p.reverse.takeWhile (· ≠ u32Max)).map graph.nodeName).reverse
          totalCost := .finite c.value
          cacheHit := false } := by
  unfold shortestPath at found
  rw [if_neg ne] at found
  simp only [Option.bind_eq_bind, Option.bind_eq_some_iff] at found
  obtain ⟨s, startId, g, goalId, found⟩ := found
  have spec := search_spec health model g
    (graph.ids_lt start s startId)
  cases outcome : graph.search health model s g with
  | exhausted => simp [outcome] at found
  | diverged => simp [outcome] at found
  | reached previous cost =>
      rw [outcome] at found spec
      obtain ⟨c, p, rfl, walk, least, back, bound, inside⟩ := spec
      obtain ⟨ids, walked, rfl⟩ := Option.map_eq_some_iff.mp found
      obtain rfl := Option.some.inj (walked.symm.trans (predecessorWalk_eq back (by omega)))
      exact ⟨s, g, c, p, startId, goalId, walk, least, back.nodup, inside, rfl⟩

/-- While no index is the sentinel, the nodes of a route are those of the walk. -/
theorem shortestPath_eq_some (ne : start ≠ goal)
    (found : graph.shortestPath health model start goal = some route) :
    ∃ (s g : ℕ) (c : Cost) (p : List ℕ),
      graph.nodeToId.lookup start = some s ∧ graph.nodeToId.lookup goal = some g ∧
      graph.CostWalk health model s g c p ∧
      (∀ d q, graph.CostWalk health model s g d q → c ≤ d) ∧
      route.totalCost = .finite c.value ∧ route.cacheHit = false ∧
      (graph.idToNode.length ≤ u32Max → route.nodes = p.map graph.nodeName) := by
  obtain ⟨s, g, c, p, startId, goalId, walk, least, -, inside, rfl⟩ :=
    exists_path_of_shortestPath ne found
  refine ⟨s, g, c, p, startId, goalId, walk, least, rfl, rfl, fun small => ?_⟩
  have inUse : ∀ m ∈ p.reverse, decide (m ≠ u32Max) = true := by
    intro m mem
    have lt := inside m (List.mem_reverse.mp mem)
    exact decide_eq_true (lt.trans_le small).ne
  show (List.map _ (List.takeWhile _ _)).reverse = _
  rw [List.takeWhile_eq_self_iff.mpr inUse, List.map_reverse, List.reverse_reverse]

/-- Where there is no route there is no walk. -/
theorem not_costWalk_of_shortestPath_eq_none
    (absent : graph.shortestPath health model start goal = none) :
    start ≠ goal ∧ ∀ s g c p, graph.nodeToId.lookup start = some s →
      graph.nodeToId.lookup goal = some g → ¬ graph.CostWalk health model s g c p := by
  unfold shortestPath at absent
  split_ifs at absent with same
  refine ⟨same, fun s g c p startId goalId => ?_⟩
  have spec := search_spec health model g
    (graph.ids_lt start s startId)
  simp only [startId, goalId, Option.bind_eq_bind, Option.bind_some] at absent
  cases outcome : graph.search health model s g with
  | exhausted =>
      rw [outcome] at spec
      exact spec c p
  | diverged =>
      rw [outcome] at spec
      exact spec.elim
  | reached previous cost =>
      rw [outcome] at absent spec
      obtain ⟨_, p, -, -, -, back, bound, -⟩ := spec
      have walked : predecessorWalk previous s (graph.idToNode.length + 1) g = some _ :=
        predecessorWalk_eq back (by omega)
      cases walked.symm.trans (Option.map_eq_none_iff.mp absent)

end ToolGraph

end TrustRouter
