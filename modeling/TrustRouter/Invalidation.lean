import TrustRouter.AuditTrail
import TrustRouter.Eviction

/-!
# What an invalidation touches

Recording a result, forcing a node half-open and probing all tenants update trackers and then
drop cached routes, the probe after it has collected the nodes it moved from all tenants.
For one tenant all three come to the same thing: new trackers, and one invalidation for each
node whose state has changed (`invalidates_foldl`).

So what goes from the cache are exactly the routes through such a node, the others keep their
order, and everything else is left alone (`invalidation_scoped`).
-/

namespace TrustRouter

/-- A sublist of a list without repetition is what is left when the others are dropped. -/
theorem eq_filter_of_sublist {α : Type*} [DecidableEq α] {kept all : List α}
    (sub : kept.Sublist all) (nodup : all.Nodup) : kept = all.filter (· ∈ kept) := by
  have left : kept.Sublist (all.filter (· ∈ kept)) := by
    have filtered := sub.filter (· ∈ kept)
    rwa [List.filter_eq_self.mpr (by simp)] at filtered
  have subset : all.filter (· ∈ kept) ⊆ kept := fun item mem => by
    simpa using (List.mem_filter.mp mem).2
  exact left.eq_of_length_le (List.subperm_of_subset (nodup.filter _) subset).length_le

/-- A map none of whose values is changed stays the same. -/
theorem HashMap.mapValues_eq_self {κ : Type*} {ν : Type*} [DecidableEq κ] {f : κ → ν → ν}
    {m : HashMap κ ν} (same : ∀ k x, m.lookup k = some x → f k x = x) : m.mapValues f = m := by
  apply AList.ext
  refine (List.map_congr_left fun entry mem => ?_).trans (List.map_id _)
  rw [same entry.1 entry.2 (HashMap.lookup_eq_some_iff.mpr mem)]
  rfl

namespace TenantState

variable {tenant : TenantState}

/-- The state of the node has changed.  A node without a tracker counts as healthy. -/
def StateChanges (tenant later : TenantState) (node : NodeId) : Prop :=
  (later.health.getOrDefault node).state ≠ (tenant.health.getOrDefault node).state

/-- What becomes of a tenant when the trackers of some nodes are updated: the routes through a
node whose state has changed are dropped from the cache, the others stay in their order, and
nothing else changes. -/
structure Invalidates (tenant later : TenantState) (touches : NodeId → Prop) : Prop where
  graph : later.graph = tenant.graph
  costModel : later.costModel = tenant.costModel
  healthPolicy : later.healthPolicy = tenant.healthPolicy
  trackers : ∀ node, ¬ touches node → later.health.lookup node = tenant.health.lookup node
  cache : ∀ key cached, later.cache.lookup key = some cached ↔
    tenant.cache.lookup key = some cached ∧
      ∀ node ∈ cached.path, ¬ StateChanges tenant later node
  cacheOrder : later.cacheOrder = tenant.cacheOrder.filter later.cache.containsKey
  unchanged : (∀ node, ¬ StateChanges tenant later node) →
    later.cache = tenant.cache ∧ later.cacheOrder = tenant.cacheOrder

/-- The cache and its order list the same keys, and an entry touches the nodes of its path. -/
structure CacheConsistent (tenant : TenantState) : Prop where
  lists : tenant.ListsKeys
  nodup : tenant.cacheOrder.Nodup
  touched : ∀ key cached, tenant.cache.lookup key = some cached →
    cached.touchedNodes = cached.path.toFinset

/-- **New trackers, and an invalidation for each node whose state has changed.** -/
theorem invalidates_foldl (consistent : tenant.CacheConsistent) (nodes : List NodeId)
    {touches : NodeId → Prop} {health : HashMap NodeId HealthTracker}
    (changed : ∀ node, node ∈ nodes ↔ StateChanges tenant { tenant with health := health } node)
    (trackers : ∀ node, ¬ touches node → health.lookup node = tenant.health.lookup node) :
    tenant.Invalidates (nodes.foldl invalidateForNode { tenant with health := health })
      touches := by
  have drops : Drops tenant (nodes.foldl invalidateForNode { tenant with health := health }) :=
    (drops_health health).trans (drops_foldl_invalidateForNode nodes)
  have changes : ∀ node, StateChanges tenant
      (nodes.foldl invalidateForNode { tenant with health := health }) node ↔ node ∈ nodes := by
    intro node
    rw [changed, StateChanges, foldl_invalidateForNode_health, StateChanges]
  refine ⟨foldl_invalidateForNode_graph nodes, foldl_invalidateForNode_costModel nodes,
    foldl_invalidateForNode_healthPolicy nodes, fun node untouched => ?_, fun key cached => ?_,
    ?_, fun none => ?_⟩
  · rw [foldl_invalidateForNode_health]
    exact trackers node untouched
  · rw [lookup_foldl_invalidateForNode]
    refine and_congr_right fun found => ?_
    -- the nodes an entry touches are those of its path
    have touched := consistent.touched key cached found
    simp only [changes, touched, List.mem_toFinset]
    exact ⟨fun apart node onPath mem => apart node mem onPath,
      fun apart node mem onPath => apart node onPath mem⟩
  · refine (eq_filter_of_sublist drops.sublist consistent.nodup).trans
      (List.filter_congr fun key _ => ?_)
    rw [HashMap.containsKey, Bool.eq_iff_iff, decide_eq_true_eq,
      drops.lists consistent.lists key, Option.isSome_iff_ne_none]
  · have nobody : nodes = [] :=
      List.eq_nil_iff_forall_not_mem.mpr fun node mem => none node ((changes node).mpr mem)
    rw [nobody]
    exact ⟨rfl, rfl⟩

theorem Invalidates.refl (consistent : tenant.CacheConsistent) (touches : NodeId → Prop) :
    tenant.Invalidates tenant touches :=
  invalidates_foldl consistent [] (by simp [StateChanges]) fun _ _ => rfl

/-- A tracker that is put in place of a node's own. -/
theorem stateChanges_insert_iff {node node' : NodeId} {tracker : HealthTracker} :
    StateChanges tenant { tenant with health := tenant.health.insert node tracker } node' ↔
      node' = node ∧ tracker.state ≠ (tenant.health.getOrDefault node).state := by
  unfold StateChanges HashMap.getOrDefault
  rw [HashMap.lookup_insert_eq]
  split_ifs with same
  · subst same
    simp
  · simp [same]

theorem invalidates_recordResult [Rounding] (consistent : tenant.CacheConsistent) (node : NodeId)
    (success : Bool) (latencyMs : ℕ) (now : Instant) :
    tenant.Invalidates (tenant.recordResult node success latencyMs now) (· = node) := by
  have flag : (tenant.recorded node success latencyMs now).2 = true ↔
      (tenant.recorded node success latencyMs now).1.state ≠
        (tenant.health.getOrDefault node).state :=
    bne_iff_ne.trans ne_comm
  have trackers : ∀ node', ¬ node' = node →
      (tenant.health.insert node (tenant.recorded node success latencyMs now).1).lookup node' =
        tenant.health.lookup node' := fun node' other => by
    rw [HashMap.lookup_insert_eq, if_neg other]
  unfold recordResult
  dsimp only
  split_ifs with changes
  · exact invalidates_foldl consistent [node]
      (by simp [stateChanges_insert_iff, flag.mp changes]) trackers
  · exact invalidates_foldl consistent []
      (by simp [stateChanges_insert_iff, not_not.mp (flag.not.mp changes)]) trackers

theorem invalidates_forceHalfOpen (consistent : tenant.CacheConsistent) (node : NodeId) :
    tenant.Invalidates (tenant.forceHalfOpen node).1 (· = node) := by
  rcases tenant.forceHalfOpen_cases node with ⟨-, eq⟩ | ⟨tracker, found, isOpen, eq⟩
  · rw [eq]
    exact .refl consistent _
  · rw [eq]
    refine invalidates_foldl consistent [node] (fun node' => ?_) fun node' other => ?_
    · rw [stateChanges_insert_iff, HashMap.getOrDefault, found]
      simp [isOpen]
    · rw [HashMap.lookup_insert_eq, if_neg other]

/-- A node that is forced half-open changes its state. -/
theorem stateChanges_forceHalfOpen {node : NodeId} (moved : (tenant.forceHalfOpen node).2 = true) :
    StateChanges tenant (tenant.forceHalfOpen node).1 node := by
  rcases tenant.forceHalfOpen_cases node with ⟨-, eq⟩ | ⟨tracker, found, isOpen, eq⟩
  · rw [eq] at moved
    cases moved
  · rw [eq]
    refine stateChanges_insert_iff.mpr ⟨rfl, ?_⟩
    rw [HashMap.getOrDefault, found]
    simp [isOpen]

/-- The nodes a probe moves are those whose state it changes. -/
theorem mem_readyNodes_iff_stateChanges {cooldown : Duration} {now : Instant} {node : NodeId} :
    node ∈ tenant.readyNodes cooldown now ↔
      StateChanges tenant (tenant.probeTrackers cooldown now) node := by
  have tracker : (tenant.probeTrackers cooldown now).health.getOrDefault node =
      ((tenant.health.getOrDefault node).transitionToHalfOpenIfReady cooldown now).1 :=
    HashMap.getOrDefault_mapValues _ _ rfl
  rw [StateChanges, tracker, HealthTracker.transitionToHalfOpenIfReady_state, readyNodes,
    HashMap.mem_keysWhere, HashMap.getOrDefault]
  cases found : tenant.health.lookup node with
  | none => simp [HealthTracker.transitionToHalfOpenIfReady, default]
  | some tracker =>
      cases moved : (tracker.transitionToHalfOpenIfReady cooldown now).2 with
      | true => simp [moved, HealthTracker.state_of_transitionToHalfOpenIfReady moved]
      | false => simp [moved]

theorem invalidates_recoveryProbe (consistent : tenant.CacheConsistent) (cooldown : Duration)
    (now : Instant) :
    tenant.Invalidates (tenant.recoveryProbe cooldown now)
      (· ∈ tenant.readyNodes cooldown now) := by
  refine invalidates_foldl consistent _ (fun node => mem_readyNodes_iff_stateChanges)
    fun node stays => ?_
  rw [HashMap.lookup_mapValues]
  cases found : tenant.health.lookup node with
  | none => rfl
  | some tracker =>
      rcases tracker.transitionToHalfOpenIfReady_cases cooldown now with eq | ⟨-, eq⟩
      · rw [Option.map_some, eq]
      · exact absurd (HashMap.mem_keysWhere.mpr ⟨tracker, found, by rw [eq]⟩) stays

/-- A probe that moves no node of a tenant leaves it alone. -/
theorem recoveryProbe_eq_self {cooldown : Duration} {now : Instant}
    (nobody : ∀ node, node ∉ tenant.readyNodes cooldown now) :
    tenant.recoveryProbe cooldown now = tenant := by
  rw [recoveryProbe, List.eq_nil_iff_forall_not_mem.mpr nobody, List.foldl_nil, probeTrackers]
  rw [HashMap.mapValues_eq_self]
  intro node tracker found
  rcases tracker.transitionToHalfOpenIfReady_cases cooldown now with eq | ⟨-, eq⟩
  · rw [eq]
  · exact absurd (HashMap.mem_keysWhere.mpr ⟨tracker, found, by rw [eq]⟩) (nobody node)

end TenantState

namespace RouterState

open TenantState

variable [Rounding]

omit [Rounding] in
/-- The update reaches the trackers of the nodes `touches`, drops the cached routes of their
tenants through nodes whose state has changed, and does nothing else. -/
structure Scoped [Rounding] (state later : RouterState) (touches : TenantId → NodeId → Prop) :
    Prop where
  tenant : ∀ tenantId, (state.tenants.getOrDefault tenantId).Invalidates
    (later.tenants.getOrDefault tenantId) (touches tenantId)
  untouched : ∀ tenantId, (∀ node, ¬ touches tenantId node) →
    later.tenants.lookup tenantId = state.tenants.lookup tenantId

/-- Every cache that is reached is consistent. -/
theorem cacheConsistent_after (ops : List Op) (tenantId : TenantId) :
    ((after ops).tenants.getOrDefault tenantId).CacheConsistent := by
  unfold HashMap.getOrDefault
  cases found : (after ops).tenants.lookup tenantId with
  | none => exact ⟨listsKeys_default, List.nodup_nil, fun _ _ cached => by cases cached⟩
  | some tenant =>
      have ordered := ordered_after ops found
      exact ⟨ordered.lists, ordered.nodup, fun _ _ hit => (exists_insertedAt ops found hit).1⟩

/-- What a probe does to a tenant, by lookup. -/
theorem getOrDefault_step_probe (state : RouterState) (cooldown : Duration) (now : Instant)
    (order : IterationOrder (TenantId × NodeId)) (tenantId : TenantId) :
    (∃ tenant, state.tenants.lookup tenantId = some tenant ∧
      state.tenants.getOrDefault tenantId = tenant ∧
      (state.step (.runRecoveryProbeOnce cooldown now order)).tenants.lookup tenantId =
        some (tenant.recoveryProbe cooldown now)) ∨
    (state.tenants.lookup tenantId = none ∧
      (state.step (.runRecoveryProbeOnce cooldown now order)).tenants.lookup tenantId = none) := by
  have probed : (state.step (.runRecoveryProbeOnce cooldown now order)).tenants.lookup tenantId =
      _ := lookup_runRecoveryProbeOnce state cooldown now order tenantId
  cases found : state.tenants.lookup tenantId with
  | none => exact Or.inr ⟨rfl, by rw [probed, found]; rfl⟩
  | some tenant =>
      exact Or.inl ⟨tenant, rfl, by rw [HashMap.getOrDefault, found, Option.getD_some],
        by rw [probed, found]; rfl⟩

/-- The nodes of a tenant that a probe moves. -/
theorem movesToHalfOpen_step_iff {state : RouterState} {cooldown : Duration} {now : Instant}
    {order : IterationOrder (TenantId × NodeId)} {tenantId : TenantId} {tenant : TenantState}
    (found : state.tenants.lookup tenantId = some tenant) (nodeId : NodeId) :
    MovesToHalfOpen state (state.step (.runRecoveryProbeOnce cooldown now order)) tenantId nodeId ↔
      nodeId ∈ tenant.readyNodes cooldown now := by
  refine (movesToHalfOpen_runRecoveryProbeOnce state).trans ?_
  rw [mem_readyNodes, found]
  simp

/-- A probe reaches the nodes it moves. -/
theorem scoped_probe (ops : List Op) (cooldown : Duration) (now : Instant)
    (order : IterationOrder (TenantId × NodeId)) :
    Scoped (after ops) ((after ops).step (.runRecoveryProbeOnce cooldown now order))
      (MovesToHalfOpen (after ops)
        ((after ops).step (.runRecoveryProbeOnce cooldown now order))) where
  tenant tenantId := by
    have consistent := cacheConsistent_after ops tenantId
    rcases (after ops).getOrDefault_step_probe cooldown now order tenantId with
      ⟨tenant, found, place, probed⟩ | ⟨absent, absent'⟩
    · have reaches : MovesToHalfOpen (after ops)
          ((after ops).step (.runRecoveryProbeOnce cooldown now order)) tenantId =
            (· ∈ tenant.readyNodes cooldown now) :=
        funext fun nodeId => propext (movesToHalfOpen_step_iff found nodeId)
      rw [place] at consistent ⊢
      rw [HashMap.getOrDefault, probed, Option.getD_some, reaches]
      exact invalidates_recoveryProbe consistent cooldown now
    · have same : ((after ops).step (.runRecoveryProbeOnce cooldown now order)).tenants.getOrDefault
          tenantId = (after ops).tenants.getOrDefault tenantId := by
        rw [HashMap.getOrDefault, absent', HashMap.getOrDefault, absent]
      rw [same]
      exact .refl consistent _
  untouched tenantId nobody := by
    rcases (after ops).getOrDefault_step_probe cooldown now order tenantId with
      ⟨tenant, found, -, probed⟩ | ⟨absent, absent'⟩
    · rw [probed, found, recoveryProbe_eq_self]
      exact fun node ready => nobody node ((movesToHalfOpen_step_iff found node).mpr ready)
    · rw [absent, absent']

/-- A node that a probe moves changes its state. -/
theorem stateChanges_probe {state : RouterState} {cooldown : Duration} {now : Instant}
    {order : IterationOrder (TenantId × NodeId)} {tenantId : TenantId} {nodeId : NodeId}
    (moves : MovesToHalfOpen state (state.step (.runRecoveryProbeOnce cooldown now order)) tenantId
      nodeId) :
    StateChanges (state.tenants.getOrDefault tenantId)
      ((state.step (.runRecoveryProbeOnce cooldown now order)).tenants.getOrDefault tenantId)
      nodeId := by
  rcases state.getOrDefault_step_probe cooldown now order tenantId with
    ⟨tenant, found, place, probed⟩ | ⟨absent, -⟩
  · have ready := (movesToHalfOpen_step_iff found nodeId).mp moves
    rw [place, HashMap.getOrDefault, probed, Option.getD_some, StateChanges, recoveryProbe_health]
    exact mem_readyNodes_iff_stateChanges.mp ready
  · have isOpen := moves.1
    rw [nodeState, absent] at isOpen
    cases isOpen

/-- What is addressed to one tenant leaves the others alone. -/
theorem scoped_of_addressed {ops : List Op} {op : Op} {tenantId : TenantId} {nodeId : NodeId}
    (addressed : op.tenant = some tenantId)
    (invalidates : ∀ tenant : TenantState, tenant.CacheConsistent →
      tenant.Invalidates (tenant.apply op) (· = nodeId)) :
    Scoped (after ops) ((after ops).step op) fun tenantId' nodeId' =>
      tenantId' = tenantId ∧ nodeId' = nodeId where
  tenant tenantId' := by
    have consistent := cacheConsistent_after ops tenantId'
    rcases (after ops).getOrDefault_step op tenantId' with same | ⟨reaches, applied⟩
    · rw [same]
      exact .refl consistent _
    · rw [applied]
      obtain rfl := (Op.reaches_iff addressed tenantId').mp reaches
      simpa using invalidates _ consistent
  untouched tenantId' nobody := by
    refine (lookup_step _ op tenantId').trans (if_neg fun reaches => nobody nodeId ⟨?_, rfl⟩)
    exact (Op.reaches_iff addressed tenantId').mp reaches

/-- **Node-scoped invalidation.**  In every state that is reached: recording a result reaches
the tracker of its node and no other, forcing a node half-open too, and if it succeeds it
changes the node's state; a probe reaches the trackers of the nodes it moves, and those it
changes.  The routes through a node whose state has changed are dropped, the others stay in
their order, and nothing else changes. -/
theorem invalidation_scoped (ops : List Op) :
    (∀ tenantId nodeId success latencyMs now,
      Scoped (after ops) ((after ops).step (.recordResult tenantId nodeId success latencyMs now))
        fun tenantId' nodeId' => tenantId' = tenantId ∧ nodeId' = nodeId) ∧
    (∀ tenantId nodeId,
      Scoped (after ops) ((after ops).step (.forceHalfOpen tenantId nodeId))
          (fun tenantId' nodeId' => tenantId' = tenantId ∧ nodeId' = nodeId) ∧
        (((after ops).forceHalfOpen tenantId nodeId).answer = true →
          StateChanges ((after ops).tenants.getOrDefault tenantId)
            (((after ops).step (.forceHalfOpen tenantId nodeId)).tenants.getOrDefault tenantId)
            nodeId)) ∧
    (∀ cooldown now order,
      Scoped (after ops) ((after ops).step (.runRecoveryProbeOnce cooldown now order))
          (MovesToHalfOpen (after ops)
            ((after ops).step (.runRecoveryProbeOnce cooldown now order))) ∧
        ∀ tenantId nodeId,
          MovesToHalfOpen (after ops)
              ((after ops).step (.runRecoveryProbeOnce cooldown now order)) tenantId nodeId →
            StateChanges ((after ops).tenants.getOrDefault tenantId)
              (((after ops).step
                (.runRecoveryProbeOnce cooldown now order)).tenants.getOrDefault tenantId)
              nodeId) := by
  refine ⟨fun tenantId nodeId success latencyMs now => ?_,
    fun tenantId nodeId => ⟨?_, fun forced => ?_⟩, fun cooldown now order =>
      ⟨scoped_probe ops cooldown now order, fun tenantId nodeId => stateChanges_probe⟩⟩
  · exact scoped_of_addressed rfl fun _ consistent =>
      invalidates_recordResult consistent nodeId success latencyMs now
  · exact scoped_of_addressed rfl fun _ consistent => invalidates_forceHalfOpen consistent nodeId
  · rw [forceHalfOpen_answer] at forced
    cases found : (after ops).tenants.lookup tenantId with
    | none => simp [found] at forced
    | some tenant =>
        rw [found, Option.map_some, Option.getD_some] at forced
        have moved : ((after ops).step (.forceHalfOpen tenantId nodeId)).tenants.lookup tenantId =
            some (tenant.forceHalfOpen nodeId).1 := by
          refine (lookup_forceHalfOpen (after ops) tenantId tenantId nodeId).trans ?_
          rw [if_pos rfl, found, Option.map_some]
        rw [HashMap.getOrDefault, found, Option.getD_some, HashMap.getOrDefault, moved,
          Option.getD_some]
        exact stateChanges_forceHalfOpen forced

end RouterState

end TrustRouter
