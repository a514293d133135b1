import Mathlib.Data.List.Nodup
import Mathlib.Order.WithBot
import Mathlib.Logic.Function.Basic

/-!
# Label-setting search

The reasoning of Dijkstra's algorithm, apart from any program that runs it.

Costs are an arbitrary linear order and an edge does not carry a number: it
carries a *relation* between the cost on entering it and the cost on leaving it.
Two laws are asked (`EdgeSystem`): an edge never lowers a cost, and it takes a
lower cost to a lower one.  Rounded addition of a non-negative weight satisfies
both, so the results below hold for a search over machine numbers, where
addition is neither associative nor strictly monotone.

* `Walk` is reachability with the accumulated cost.
* `Labels` is what a search knows: a tentative cost and a predecessor for each
  node, and the queue.
* `Invariant` is what every step keeps.  Its third argument is the list of the
  nodes already settled, latest first; the search does not store it.
* `Invariant.settle`, `Invariant.skip` and `Invariant.improve` are the three
  things a step can do: take a fresh entry off the queue, drop a stale one, and
  improve a label over an edge.
* `least_of_walk` and `not_walk_of_exhausted` are what the search is for, and
  `Invariant.exists_backPath` says that following predecessors spells out a walk
  of the labelled cost.
-/

namespace LabelSetting

universe u v

variable {ν : Type u} {α : Type v}

/-- Edges acting on costs. -/
structure EdgeSystem (ν : Type u) (α : Type v) [LinearOrder α] where
  /-- Some edge from the first node to the second turns the first cost into the
  second. -/
  Step : ν → ν → α → α → Prop
  /-- An edge never lowers the cost. -/
  le_of_step : ∀ {n m c c'}, Step n m c c' → c ≤ c'
  /-- An edge that can be taken at some cost can be taken at every lower one, and
  leads to a lower one. -/
  step_mono : ∀ {n m c d d'}, c ≤ d → Step n m d d' → ∃ c' ≤ d', Step n m c c'

section Walk

variable [LinearOrder α]

/-- `Walk E s a n c p`: starting at `s` with cost `a`, the nodes `p` lead to `n`
at the accumulated cost `c`. -/
inductive Walk (E : EdgeSystem ν α) (s : ν) (a : α) : ν → α → List ν → Prop
  | source : Walk E s a s a [s]
  | snoc {n m : ν} {c c' : α} {p : List ν} :
      Walk E s a n c p → E.Step n m c c' → Walk E s a m c' (p ++ [m])

variable {E : EdgeSystem ν α} {s : ν} {a : α}

theorem Walk.getLast? {n : ν} {c : α} {p : List ν} (walk : Walk E s a n c p) :
    p.getLast? = some n := by
  cases walk <;> simp

theorem Walk.ne_nil {n : ν} {c : α} {p : List ν} (walk : Walk E s a n c p) : p ≠ [] := by
  cases walk <;> simp

end Walk

/-! ### Legs -/

section Legs

variable {nodes : List ν}

/-- The legs of a path, each with its two ends. -/
def legs (nodes : List ν) : List (ν × ν) := nodes.zip nodes.tail

theorem legs_concat {last : ν} (isLast : nodes.getLast? = some last) (next : ν) :
    legs (nodes ++ [next]) = legs nodes ++ [(last, next)] := by
  induction nodes with
  | nil => cases isLast
  | cons node nodes ih =>
      cases nodes with
      | nil =>
          obtain rfl := Option.some.inj isLast
          rfl
      | cons second nodes =>
          rw [List.getLast?_cons_cons] at isLast
          exact congrArg ((node, second) :: ·) (ih isLast)

theorem legs_map {ν' : Type*} (f : ν → ν') (nodes : List ν) :
    legs (nodes.map f) = (legs nodes).map (Prod.map f f) := by
  rw [legs, ← List.map_tail, List.zip_map]
  rfl

/-- The end of a path has no other legs than the path. -/
theorem mem_legs_of_suffix {rest : List ν} (ends : rest <:+ nodes) {leg : ν × ν}
    (mem : leg ∈ legs rest) : leg ∈ legs nodes := by
  obtain ⟨front, rfl⟩ := ends
  induction front with
  | nil => exact mem
  | cons node front ih =>
      rw [List.cons_append]
      cases tail : front ++ rest with
      | nil => simp [tail, legs] at ih
      | cons second others =>
          rw [tail] at ih
          exact List.mem_cons_of_mem _ ih

/-- A walk takes an edge on each of its legs. -/
theorem Walk.exists_step [LinearOrder α] {E : EdgeSystem ν α} {s n : ν} {a c : α}
    (walk : Walk E s a n c nodes) {leg : ν × ν} (mem : leg ∈ legs nodes) :
    ∃ c c', E.Step leg.1 leg.2 c c' := by
  induction walk with
  | source => cases mem
  | snoc walk step ih =>
      rw [legs_concat walk.getLast?] at mem
      rcases List.mem_append.mp mem with mem | last
      · exact ih mem
      · obtain rfl := List.mem_singleton.mp last
        exact ⟨_, _, step⟩

end Legs

/-- The state of a search. -/
structure Labels (ν : Type u) (α : Type v) where
  /-- The tentative cost of each node; `⊤` where none is known. -/
  dist : ν → WithTop α
  /-- The node a label came from. -/
  prev : ν → ν
  /-- Nodes to visit, each with the cost it was queued at. -/
  queue : List (ν × α)

variable [DecidableEq ν]

/-- A shorter way to `m`, through `n`, is recorded and queued. -/
def Labels.improve (L : Labels ν α) (n m : ν) (c : α) : Labels ν α where
  dist := Function.update L.dist m c
  prev := Function.update L.prev m n
  queue := (m, c) :: L.queue

section

variable [DecidableEq α]

/-- One entry is taken off the queue. -/
def Labels.pop (L : Labels ν α) (n : ν) (c : α) : Labels ν α :=
  { L with queue := L.queue.erase (n, c) }

end

variable [LinearOrder α]

/-- The labels a search starts from. -/
def Labels.start (s : ν) (a : α) : Labels ν α where
  dist := Function.update (fun _ => ⊤) s a
  prev := fun _ => s
  queue := [(s, a)]

/-- What holds between two steps of a search from `s` at cost `a` that has
settled the nodes `done`, latest first. -/
structure Invariant (E : EdgeSystem ν α) (s : ν) (a : α) (done : List ν)
    (L : Labels ν α) : Prop where
  /-- The source keeps its label. -/
  source : L.dist s = a
  /-- Nothing is settled before the source. -/
  source_mem : done ≠ [] → s ∈ done
  /-- No node is settled twice. -/
  done_nodup : done.Nodup
  /-- A settled node has a label. -/
  done_ne_top : ∀ n ∈ done, L.dist n ≠ ⊤
  /-- No entry is queued twice. -/
  queue_nodup : L.queue.Nodup
  /-- Labels only improve after an entry was queued. -/
  dist_le : ∀ n c, (n, c) ∈ L.queue → L.dist n ≤ c
  /-- An entry of a settled node is stale. -/
  dist_lt : ∀ n c, (n, c) ∈ L.queue → n ∈ done → L.dist n < c
  /-- Settled labels are at most those still queued. -/
  done_le : ∀ n ∈ done, ∀ m c, (m, c) ∈ L.queue → L.dist n ≤ c
  /-- A labelled node is settled or queued at its label. -/
  queued : ∀ n (d : α), L.dist n = d → n ∉ done → (n, d) ∈ L.queue
  /-- A label other than the source's came over an edge from a settled node. -/
  tree : ∀ n, L.dist n ≠ ⊤ → n ≠ s → L.prev n ∈ done ∧
    ∃ c d : α, L.dist (L.prev n) = c ∧ L.dist n = d ∧ E.Step (L.prev n) n c d
  /-- The predecessor of a settled node was settled before it. -/
  tree_order : ∀ newer n older, done = newer ++ n :: older → n ≠ s → L.prev n ∈ older

/-- Every edge out of `n` has been considered at the label of `n`. -/
def Relaxed (E : EdgeSystem ν α) (L : Labels ν α) (n : ν) : Prop :=
  ∀ m (c c' : α), L.dist n = c → E.Step n m c c' → L.dist m ≤ c'

variable {E : EdgeSystem ν α} {s : ν} {a : α} {done : List ν} {L : Labels ν α}

/-! ### The steps -/

theorem Invariant.start (E : EdgeSystem ν α) (s : ν) (a : α) :
    Invariant E s a [] (Labels.start s a) where
  source := by simp [Labels.start]
  source_mem := fun nonempty => absurd rfl nonempty
  done_nodup := List.nodup_nil
  done_ne_top := by simp
  queue_nodup := List.nodup_singleton _
  dist_le := by simp [Labels.start]
  dist_lt := by simp
  done_le := by simp
  queued := by
    intro n d label _
    by_cases same : n = s
    · subst same
      simpa [Labels.start, eq_comm] using label
    · simp [Labels.start, same] at label
  tree := by
    intro n labelled ne
    simp [Labels.start, ne] at labelled
  tree_order := by simp

/-- A stale entry can be dropped. -/
theorem Invariant.skip (I : Invariant E s a done L) {n : ν} {c : α}
    (stale : L.dist n < c) : Invariant E s a done (L.pop n c) where
  source := I.source
  source_mem := I.source_mem
  done_nodup := I.done_nodup
  done_ne_top := I.done_ne_top
  queue_nodup := I.queue_nodup.erase _
  dist_le := fun m d mem => I.dist_le m d (List.mem_of_mem_erase mem)
  dist_lt := fun m d mem => I.dist_lt m d (List.mem_of_mem_erase mem)
  done_le := fun m settled k d mem => I.done_le m settled k d (List.mem_of_mem_erase mem)
  queued := by
    intro m d label unsettled
    refine (List.mem_erase_of_ne ?_).mpr (I.queued m d label unsettled)
    rintro ⟨rfl, rfl⟩
    exact absurd label stale.ne
  tree := I.tree
  tree_order := I.tree_order

omit [DecidableEq ν] in
/-- A fresh entry belongs to a node that is not settled. -/
theorem Invariant.notMem_of_fresh (I : Invariant E s a done L) {n : ν} {c : α}
    (mem : (n, c) ∈ L.queue) (fresh : ¬ L.dist n < c) : n ∉ done :=
  fun settled => fresh (I.dist_lt n c mem settled)

omit [DecidableEq ν] in
theorem Invariant.dist_eq_of_fresh (I : Invariant E s a done L) {n : ν} {c : α}
    (mem : (n, c) ∈ L.queue) (fresh : ¬ L.dist n < c) : L.dist n = c :=
  le_antisymm (I.dist_le n c mem) (not_lt.mp fresh)

/-- A fresh entry of least cost can be settled. -/
theorem Invariant.settle (I : Invariant E s a done L) {n : ν} {c : α}
    (mem : (n, c) ∈ L.queue) (least : ∀ m d, (m, d) ∈ L.queue → c ≤ d)
    (fresh : ¬ L.dist n < c) : Invariant E s a (n :: done) (L.pop n c) where
  source := I.source
  source_mem := by
    intro _
    by_cases empty : done = []
    · -- the first node settled is the source: any other label needs a settled predecessor
      subst empty
      by_contra other
      have label : L.dist n ≠ ⊤ := by simp [I.dist_eq_of_fresh mem fresh]
      have pred := (I.tree n label fun same => other (by simp [same])).1
      simp at pred
    · exact List.mem_cons_of_mem _ (I.source_mem empty)
  done_nodup := List.nodup_cons.mpr ⟨I.notMem_of_fresh mem fresh, I.done_nodup⟩
  done_ne_top := by
    intro m settled
    rcases List.mem_cons.mp settled with rfl | settled
    · show L.dist m ≠ ⊤
      simp [I.dist_eq_of_fresh mem fresh]
    · exact I.done_ne_top m settled
  queue_nodup := I.queue_nodup.erase _
  dist_le := fun m d queued => I.dist_le m d (List.mem_of_mem_erase queued)
  dist_lt := by
    intro m d queued settled
    rcases List.mem_cons.mp settled with rfl | settled
    · have queued' := (I.queue_nodup.mem_erase_iff.mp queued)
      have ne : d ≠ c := fun same => queued'.1 (by rw [same])
      refine lt_of_le_of_ne (I.dist_le m d queued'.2) ?_
      show L.dist m ≠ d
      rw [I.dist_eq_of_fresh mem fresh]
      exact fun same => ne (WithTop.coe_injective same).symm
    · exact I.dist_lt m d (List.mem_of_mem_erase queued) settled
  done_le := by
    intro m settled k d queued
    have queued' := List.mem_of_mem_erase queued
    rcases List.mem_cons.mp settled with rfl | settled
    · show L.dist m ≤ d
      rw [I.dist_eq_of_fresh mem fresh]
      exact WithTop.coe_le_coe.mpr (least k d queued')
    · exact I.done_le m settled k d queued'
  queued := by
    intro m d label unsettled
    have ne : m ≠ n := fun same => unsettled (by simp [same])
    refine (List.mem_erase_of_ne fun same => ne (Prod.mk.inj same).1).mpr ?_
    exact I.queued m d label fun settled => unsettled (List.mem_cons_of_mem _ settled)
  tree := by
    intro m labelled ne
    obtain ⟨settled, edge⟩ := I.tree m labelled ne
    exact ⟨List.mem_cons_of_mem _ settled, edge⟩
  tree_order := by
    intro newer m older split ne
    cases newer with
    | nil =>
        -- the node is the one settled now, and its predecessor was settled before
        obtain ⟨rfl, rfl⟩ := List.cons.inj split
        exact (I.tree n (by simp [I.dist_eq_of_fresh mem fresh]) ne).1
    | cons head newer =>
        exact I.tree_order newer m older (List.cons.inj split).2 ne

/-- A label can be improved over an edge from the node settled last.  The node
improved is not settled: settled labels are at most the cost the edge starts
from. -/
theorem Invariant.improve (I : Invariant E s a done L) {n m : ν} {c c' : α}
    (settled : n ∈ done) (label : L.dist n = c) (top : ∀ k ∈ done, L.dist k ≤ c)
    (step : E.Step n m c c') (better : (c' : WithTop α) < L.dist m) :
    Invariant E s a done (L.improve n m c') := by
  have le : (c : WithTop α) ≤ c' := WithTop.coe_le_coe.mpr (E.le_of_step step)
  have unsettled : m ∉ done := fun mem => absurd (le.trans_lt better) (not_lt.mpr (top m mem))
  have keep : ∀ k ∈ done, (L.improve n m c').dist k = L.dist k := by
    intro k mem
    exact Function.update_of_ne (fun same : k = m => unsettled (same ▸ mem)) _ _
  have keepPrev : ∀ k ∈ done, (L.improve n m c').prev k = L.prev k := by
    intro k mem
    exact Function.update_of_ne (fun same : k = m => unsettled (same ▸ mem)) _ _
  have source : s ∈ done := I.source_mem fun empty => by simp [empty] at settled
  refine
    { source := (keep s source).trans I.source
      source_mem := I.source_mem
      done_nodup := I.done_nodup
      done_ne_top := fun k mem => by rw [keep k mem]; exact I.done_ne_top k mem
      queue_nodup := ?_
      dist_le := ?_
      dist_lt := ?_
      done_le := ?_
      queued := ?_
      tree := ?_
      tree_order := ?_ }
  -- a queued entry for `m` is no better than its label, so the new one is new
  · refine List.nodup_cons.mpr ⟨fun mem => ?_, I.queue_nodup⟩
    exact absurd better (not_lt.mpr (I.dist_le m c' mem))
  · intro k d mem
    by_cases same : k = m
    · subst same
      rcases List.mem_cons.mp mem with entry | mem
      · simp [Labels.improve, (Prod.mk.inj entry).2]
      · simpa [Labels.improve] using (better.trans_le (I.dist_le k d mem)).le
    · rcases List.mem_cons.mp mem with entry | mem
      · exact absurd (Prod.mk.inj entry).1 same
      · simpa [Labels.improve, same] using I.dist_le k d mem
  · intro k d mem settledK
    rw [keep k settledK]
    rcases List.mem_cons.mp mem with entry | mem
    · exact absurd ((Prod.mk.inj entry).1 ▸ settledK) unsettled
    · exact I.dist_lt k d mem settledK
  · intro k settledK k' d mem
    rw [keep k settledK]
    rcases List.mem_cons.mp mem with entry | mem
    · rw [(Prod.mk.inj entry).2]
      exact (top k settledK).trans le
    · exact I.done_le k settledK k' d mem
  · intro k d labelK unsettledK
    by_cases same : k = m
    · subst same
      have value : (c' : WithTop α) = d := by simpa [Labels.improve] using labelK
      simp [Labels.improve, WithTop.coe_injective value]
    · refine List.mem_cons_of_mem _ (I.queued k d ?_ unsettledK)
      simpa [Labels.improve, same] using labelK
  · intro k labelled ne
    by_cases same : k = m
    · subst same
      have pred : (L.improve n k c').prev k = n := by simp [Labels.improve]
      rw [pred, keep n settled]
      exact ⟨settled, c, c', label, by simp [Labels.improve], step⟩
    · have labelK : (L.improve n m c').dist k = L.dist k := Function.update_of_ne same _ _
      have pred : (L.improve n m c').prev k = L.prev k := Function.update_of_ne same _ _
      rw [labelK] at labelled
      obtain ⟨mem, d, d', labelPred, label', step'⟩ := I.tree k labelled ne
      rw [pred, keep _ mem, labelK]
      exact ⟨mem, d, d', labelPred, label', step'⟩
  · intro newer k older split ne
    rw [keepPrev k (by simp [split])]
    exact I.tree_order newer k older split ne

/-- Improving a label undoes no relaxation of a settled node. -/
theorem Relaxed.improve {n m k : ν} {c' : α} (relaxed : Relaxed E L k)
    (ne : k ≠ m) (better : (c' : WithTop α) < L.dist m) :
    Relaxed E (L.improve n m c') k := by
  intro j d d' label step
  have labelK : L.dist k = d := by simpa [Labels.improve, ne] using label
  have le := relaxed j d d' labelK step
  by_cases same : j = m
  · subst same
    simpa [Labels.improve] using better.le.trans le
  · simpa [Labels.improve, same] using le

/-- The labels while the edges out of `n`, settled at `c`, are gone through: those
at the beginning, improved over some of the edges. -/
inductive Scan (E : EdgeSystem ν α) (n : ν) (c : α) (L : Labels ν α) : Labels ν α → Prop
  | refl : Scan E n c L L
  | improve {L' : Labels ν α} {m : ν} {c' : α} : Scan E n c L L' → E.Step n m c c' →
      (c' : WithTop α) < L'.dist m → Scan E n c L (L'.improve n m c')

theorem Scan.trans {L' L'' : Labels ν α} {n : ν} {c : α}
    (first : Scan E n c L L') (second : Scan E n c L' L'') : Scan E n c L L'' := by
  induction second with
  | refl => exact first
  | improve _ step better ih => exact ih.improve step better

theorem Scan.dist_le {L' : Labels ν α} {n : ν} {c : α} (scan : Scan E n c L L') (m : ν) :
    L'.dist m ≤ L.dist m := by
  induction scan with
  | refl => exact le_rfl
  | @improve L' k c' _ _ better ih =>
      by_cases equal : m = k
      · subst equal
        simpa [Labels.improve] using better.le.trans ih
      · simpa [Labels.improve, equal] using ih

/-- A scan from a node whose label is the highest among the settled ones keeps the
invariant and the settled labels. -/
theorem Scan.spec {L' : Labels ν α} {n : ν} {c : α} (scan : Scan E n c L L')
    (I : Invariant E s a done L) (settled : n ∈ done) (label : L.dist n = c)
    (top : ∀ k ∈ done, L.dist k ≤ c) :
    Invariant E s a done L' ∧ (∀ k ∈ done, L'.dist k = L.dist k) ∧
      ∀ k ∈ done, Relaxed E L k → Relaxed E L' k := by
  induction scan with
  | refl => exact ⟨I, fun _ _ => rfl, fun _ _ relaxed => relaxed⟩
  | @improve L' m c' _ step better ih =>
      obtain ⟨I', same, relaxed⟩ := ih
      have top' : ∀ k ∈ done, L'.dist k ≤ c := fun k mem => (same k mem).le.trans (top k mem)
      have le : (c : WithTop α) ≤ c' := WithTop.coe_le_coe.mpr (E.le_of_step step)
      have unsettled : ∀ k ∈ done, k ≠ m := by
        rintro k mem rfl
        exact absurd (le.trans_lt better) (not_lt.mpr (top' k mem))
      refine ⟨I'.improve settled ((same n settled).trans label) top' step better, ?_, ?_⟩
      · intro k mem
        rw [← same k mem]
        exact Function.update_of_ne (unsettled k mem) _ _
      · intro k mem relaxedK
        exact (relaxed k mem relaxedK).improve (unsettled k mem) better

/-! ### What the labels say -/

/-- **The frontier.**  A walk either ends at a settled node whose label is at
most its cost, or some queued entry costs no more than it. -/
theorem Invariant.frontier (I : Invariant E s a done L)
    (relaxed : ∀ n ∈ done, Relaxed E L n) {n : ν} {c : α} {p : List ν}
    (walk : Walk E s a n c p) :
    (n ∈ done ∧ L.dist n ≤ c) ∨ ∃ m d, (m, d) ∈ L.queue ∧ d ≤ c := by
  induction walk with
  | source =>
      by_cases settled : s ∈ done
      · exact Or.inl ⟨settled, I.source.le⟩
      · exact Or.inr ⟨s, a, I.queued s a I.source settled, le_rfl⟩
  | @snoc n m c c' p _ step ih =>
      rcases ih with ⟨settled, le⟩ | ⟨k, d, mem, le⟩
      · obtain ⟨d, label⟩ := WithTop.ne_top_iff_exists.mp (I.done_ne_top n settled)
        rw [← label] at le
        -- the same edge, entered at the settled label, ends at most where the walk does
        obtain ⟨d', le', step'⟩ := E.step_mono (WithTop.coe_le_coe.mp le) step
        have reached : L.dist m ≤ c' :=
          (relaxed n settled m d d' label.symm step').trans (WithTop.coe_le_coe.mpr le')
        by_cases settledM : m ∈ done
        · exact Or.inl ⟨settledM, reached⟩
        · obtain ⟨e, labelM⟩ := WithTop.ne_top_iff_exists.mp
            (reached.trans_lt (WithTop.coe_lt_top c')).ne
          refine Or.inr ⟨m, e, I.queued m e labelM.symm settledM, ?_⟩
          rwa [← labelM, WithTop.coe_le_coe] at reached
      · exact Or.inr ⟨k, d, mem, le.trans (E.le_of_step step)⟩

/-- When a node that is not settled has a queued entry of least cost, no walk to
it is cheaper. -/
theorem Invariant.least_of_walk (I : Invariant E s a done L)
    (relaxed : ∀ n ∈ done, Relaxed E L n) {g : ν} {c : α} (unsettled : g ∉ done)
    (least : ∀ m d, (m, d) ∈ L.queue → c ≤ d) {c' : α} {p : List ν}
    (walk : Walk E s a g c' p) : c ≤ c' := by
  rcases I.frontier relaxed walk with ⟨settled, _⟩ | ⟨m, d, mem, le⟩
  · exact absurd settled unsettled
  · exact (least m d mem).trans le

/-- When the queue is empty there is no walk to a node that is not settled. -/
theorem Invariant.not_walk_of_exhausted (I : Invariant E s a done L)
    (relaxed : ∀ n ∈ done, Relaxed E L n) {g : ν} (unsettled : g ∉ done)
    (exhausted : L.queue = []) {c : α} {p : List ν} : ¬ Walk E s a g c p := by
  intro walk
  rcases I.frontier relaxed walk with ⟨settled, _⟩ | ⟨m, d, mem, _⟩
  · exact unsettled settled
  · simp [exhausted] at mem

/-! ### Following predecessors -/

/-- `BackPath prev s n p`: the predecessors of `n` lead back to `s`, and `p`
lists them from `s` to `n`. -/
inductive BackPath (prev : ν → ν) (s : ν) : ν → List ν → Prop
  | source : BackPath prev s s [s]
  | pred {n : ν} {p : List ν} : n ≠ s → BackPath prev s (prev n) p →
      BackPath prev s n (p ++ [n])

omit [DecidableEq ν] in
/-- Only the predecessors of the nodes on the way matter. -/
theorem BackPath.congr {prev prev' : ν → ν} {n : ν} {p : List ν}
    (back : BackPath prev s n p) (same : ∀ m ∈ p, m ≠ s → prev m = prev' m) :
    BackPath prev' s n p := by
  induction back with
  | source => exact .source
  | @pred n p ne back ih =>
      refine .pred ne ?_
      rw [← same n (by simp) ne]
      exact ih fun m mem => same m (by simp [mem])

omit [DecidableEq ν] in
/-- The way back ends at the source. -/
theorem BackPath.head?_eq {prev : ν → ν} {n : ν} {p : List ν} (back : BackPath prev s n p) :
    p.head? = some s := by
  induction back with
  | source => rfl
  | pred _ _ ih => rw [List.head?_append, ih, Option.some_or]

omit [DecidableEq ν] in
/-- Predecessors lead back in one way only. -/
theorem BackPath.unique {prev : ν → ν} {n : ν} {p q : List ν} (back : BackPath prev s n p)
    (other : BackPath prev s n q) : p = q := by
  induction back generalizing q with
  | source =>
      cases other with
      | source => rfl
      | pred ne _ => exact absurd rfl ne
  | pred ne _ ih =>
      cases other with
      | source => exact absurd rfl ne
      | pred _ other => rw [ih other]

omit [DecidableEq ν] in
/-- The path to a node on the way is where the path begins. -/
theorem BackPath.exists_prefix {prev : ν → ν} {n m : ν} {p : List ν}
    (back : BackPath prev s n p) (mem : m ∈ p) : ∃ q, q <+: p ∧ BackPath prev s m q := by
  induction back with
  | source =>
      obtain rfl := List.mem_singleton.mp mem
      exact ⟨_, List.prefix_rfl, .source⟩
  | @pred n p ne back ih =>
      rcases List.mem_append.mp mem with mem | last
      · obtain ⟨q, begins, back'⟩ := ih mem
        exact ⟨q, begins.trans (List.prefix_append _ _), back'⟩
      · obtain rfl := List.mem_singleton.mp last
        exact ⟨_, List.prefix_rfl, .pred ne back⟩

omit [DecidableEq ν] in
/-- The way back passes no node twice: from there it would go on for ever. -/
theorem BackPath.nodup {prev : ν → ν} {n : ν} {p : List ν} (back : BackPath prev s n p) :
    p.Nodup := by
  induction back with
  | source => exact List.nodup_singleton _
  | @pred n p ne back ih =>
      refine List.nodup_append.mpr ⟨ih, List.nodup_singleton _, fun m mem last inLast same => ?_⟩
      obtain rfl := List.mem_singleton.mp inLast
      subst same
      -- the path to the node would be a proper part of itself
      obtain ⟨q, begins, back'⟩ := back.exists_prefix mem
      have length := congrArg List.length (back'.unique (.pred ne back))
      have shorter := begins.length_le
      rw [List.length_append, List.length_singleton] at length
      omega

/-- From a settled node the predecessors lead back to the source, through nodes
settled no later, along a walk of the labelled cost. -/
theorem Invariant.exists_backPath_of_mem (I : Invariant E s a done L) :
    ∀ (older newer : List ν) (n : ν), done = newer ++ n :: older →
      ∃ (p : List ν) (c : α), BackPath L.prev s n p ∧ L.dist n = c ∧ Walk E s a n c p ∧
        p.length ≤ older.length + 1 ∧ ∀ m ∈ p, m ∈ n :: older := by
  intro older
  induction length : older.length using Nat.strong_induction_on generalizing older with
  | _ k ih =>
      intro newer n split
      by_cases same : n = s
      · subst same
        exact ⟨[n], a, .source, I.source, .source, by simp, by simp⟩
      · obtain ⟨older₁, older₂, split'⟩ :=
          List.append_of_mem (I.tree_order newer n older split same)
        have shorter : older₂.length < k := by
          rw [← length, split', List.length_append, List.length_cons]
          omega
        obtain ⟨p, c, back, label, walk, bound, mem⟩ := ih older₂.length shorter older₂ rfl
          (newer ++ n :: older₁) (L.prev n) (by simp [split, split'])
        obtain ⟨_, c', d, label', labelN, step⟩ := I.tree n (I.done_ne_top n (by simp [split])) same
        obtain rfl : c = c' := WithTop.coe_injective (label.symm.trans label')
        refine ⟨p ++ [n], d, .pred same back, labelN, .snoc walk step, ?_, ?_⟩
        · simp only [List.length_append, List.length_singleton]
          omega
        · intro m inPath
          rcases List.mem_append.mp inPath with inPath | last
          · rw [split']
            exact List.mem_cons_of_mem _ (List.mem_append_right _ (mem m inPath))
          · rw [List.mem_singleton.mp last]
            exact List.mem_cons_self

/-- From a labelled node that is not settled the predecessors lead back to the
source, through settled nodes, along a walk of the labelled cost. -/
theorem Invariant.exists_backPath (I : Invariant E s a done L) {n : ν} {d : α}
    (label : L.dist n = d) :
    ∃ p, BackPath L.prev s n p ∧ Walk E s a n d p ∧ p.length ≤ done.length + 1 ∧
      ∀ m ∈ p, m ∈ n :: done := by
  by_cases same : n = s
  · subst same
    obtain rfl : a = d := WithTop.coe_injective (I.source.symm.trans label)
    exact ⟨[n], .source, .source, by simp, by simp⟩
  · obtain ⟨settled, c, d', labelPred, label', step⟩ := I.tree n (by simp [label]) same
    obtain rfl : d = d' := WithTop.coe_injective (label.symm.trans label')
    obtain ⟨older₁, older₂, split⟩ := List.append_of_mem settled
    obtain ⟨p, c', back, labelP, walk, bound, mem⟩ :=
      I.exists_backPath_of_mem older₂ older₁ (L.prev n) split
    obtain rfl : c' = c := WithTop.coe_injective (labelP.symm.trans labelPred)
    refine ⟨p ++ [n], .pred same back, .snoc walk step, ?_, ?_⟩
    · simp only [split, List.length_append, List.length_cons, List.length_nil]
      omega
    · intro m inPath
      rcases List.mem_append.mp inPath with inPath | last
      · rw [split]
        exact List.mem_cons_of_mem _ (List.mem_append_right _ (mem m inPath))
      · rw [List.mem_singleton.mp last]
        exact List.mem_cons_self

end LabelSetting
