import Mathlib.Data.Finset.Basic
import Mathlib.Data.String.Basic
import TrustRouter.ToolGraph

/-!
# The state of a tenant

A tenant owns a graph, the health of its nodes, a cost model, a health policy and
a cache of routes.  `cacheOrder` lists the cached keys in the order in which they are
evicted; the cache itself is a map.

The lemmas say what each cache operation leaves in the map, by lookup, and that
node-scoped invalidations commute.  The latter is why the recovery probe, which
walks two nested hash maps, does not depend on the order of its walk.
-/

namespace TrustRouter

def routeCacheLimit : ℕ := 1024

structure RouteKey where
  start : NodeId
  goal : NodeId
  deriving DecidableEq

structure CachedPath where
  path : List NodeId
  weight : F64
  touchedNodes : Finset NodeId
  deriving DecidableEq

structure TenantState where
  graph : ToolGraph
  health : HashMap NodeId HealthTracker
  cache : HashMap RouteKey CachedPath
  cacheOrder : List RouteKey
  costModel : TenantCostModel
  healthPolicy : HealthPolicy

namespace TenantState

instance [Rounding] : Inhabited TenantState where
  default :=
    { graph := default
      health := ∅
      cache := ∅
      cacheOrder := []
      costModel := default
      healthPolicy := default }

def invalidateAllCache (tenant : TenantState) : TenantState :=
  { tenant with cache := ∅, cacheOrder := [] }

def invalidateForNode (tenant : TenantState) (node : NodeId) : TenantState :=
  let cache := tenant.cache.retain fun _ cached => decide (node ∉ cached.touchedNodes)
  { tenant with cache := cache, cacheOrder := tenant.cacheOrder.filter cache.containsKey }

/-- The key becomes the last to be evicted. -/
def refresh (tenant : TenantState) (key : RouteKey) : TenantState :=
  { tenant with cacheOrder := tenant.cacheOrder.filter (· ≠ key) ++ [key] }

def getCached (tenant : TenantState) (key : RouteKey) : TenantState × Option CachedPath :=
  match tenant.cache.lookup key with
  | none => (tenant, none)
  | some cached => (tenant.refresh key, some cached)

/-- The eviction of `insertCache`: the first key of the order goes when the cache is full
and the key is new. -/
def evict (tenant : TenantState) (key : RouteKey) : TenantState :=
  if tenant.cache.containsKey key = false ∧ tenant.cache.len = routeCacheLimit then
    match tenant.cacheOrder with
    | [] => tenant
    | evicted :: rest =>
        { tenant with cache := tenant.cache.erase evicted, cacheOrder := rest }
  else tenant

def insertCache (tenant : TenantState) (key : RouteKey) (cached : CachedPath) : TenantState :=
  let tenant := (tenant.evict key).refresh key
  { tenant with cache := tenant.cache.insert key cached }

def blockedNodes (tenant : TenantState) : List NodeId :=
  (tenant.health.keysWhere fun tracker => tracker.state = .open).insertionSort (· ≤ ·)

/-- The state of a node's tracker, where there is one. -/
def nodeState (tenant : TenantState) (node : NodeId) : Option NodeState :=
  (tenant.health.lookup node).map HealthTracker.state

variable {tenant : TenantState}

/-! ### Frame lemmas -/

@[simp] theorem invalidateForNode_graph (node : NodeId) :
    (tenant.invalidateForNode node).graph = tenant.graph := rfl

@[simp] theorem invalidateForNode_health (node : NodeId) :
    (tenant.invalidateForNode node).health = tenant.health := rfl

@[simp] theorem invalidateForNode_costModel (node : NodeId) :
    (tenant.invalidateForNode node).costModel = tenant.costModel := rfl

@[simp] theorem invalidateForNode_healthPolicy (node : NodeId) :
    (tenant.invalidateForNode node).healthPolicy = tenant.healthPolicy := rfl

@[simp] theorem refresh_graph (key : RouteKey) : (tenant.refresh key).graph = tenant.graph := rfl

@[simp] theorem refresh_health (key : RouteKey) :
    (tenant.refresh key).health = tenant.health := rfl

@[simp] theorem refresh_costModel (key : RouteKey) :
    (tenant.refresh key).costModel = tenant.costModel := rfl

@[simp] theorem refresh_healthPolicy (key : RouteKey) :
    (tenant.refresh key).healthPolicy = tenant.healthPolicy := rfl

@[simp] theorem refresh_cache (key : RouteKey) : (tenant.refresh key).cache = tenant.cache := rfl

@[simp] theorem evict_graph (key : RouteKey) : (tenant.evict key).graph = tenant.graph := by
  unfold evict
  split_ifs
  · split <;> rfl
  · rfl

@[simp] theorem evict_health (key : RouteKey) : (tenant.evict key).health = tenant.health := by
  unfold evict
  split_ifs
  · split <;> rfl
  · rfl

@[simp] theorem evict_costModel (key : RouteKey) :
    (tenant.evict key).costModel = tenant.costModel := by
  unfold evict
  split_ifs
  · split <;> rfl
  · rfl

@[simp] theorem evict_healthPolicy (key : RouteKey) :
    (tenant.evict key).healthPolicy = tenant.healthPolicy := by
  unfold evict
  split_ifs
  · split <;> rfl
  · rfl

@[simp] theorem insertCache_graph (key : RouteKey) (cached : CachedPath) :
    (tenant.insertCache key cached).graph = tenant.graph := by
  simp [insertCache]

@[simp] theorem insertCache_health (key : RouteKey) (cached : CachedPath) :
    (tenant.insertCache key cached).health = tenant.health := by
  simp [insertCache]

@[simp] theorem insertCache_costModel (key : RouteKey) (cached : CachedPath) :
    (tenant.insertCache key cached).costModel = tenant.costModel := by
  simp [insertCache]

@[simp] theorem insertCache_healthPolicy (key : RouteKey) (cached : CachedPath) :
    (tenant.insertCache key cached).healthPolicy = tenant.healthPolicy := by
  simp [insertCache]

/-! ### What is in the cache -/

theorem lookup_invalidateForNode {node : NodeId} {key : RouteKey} {cached : CachedPath} :
    (tenant.invalidateForNode node).cache.lookup key = some cached ↔
      tenant.cache.lookup key = some cached ∧ node ∉ cached.touchedNodes := by
  simp [invalidateForNode, HashMap.lookup_retain_eq_some]

/-- Eviction only takes entries away. -/
theorem lookup_of_lookup_evict {key key' : RouteKey} {cached : CachedPath}
    (found : (tenant.evict key).cache.lookup key' = some cached) :
    tenant.cache.lookup key' = some cached := by
  unfold evict at found
  split_ifs at found
  · split at found
    · exact found
    · rw [HashMap.lookup_erase_eq] at found
      split_ifs at found
      exact found
  · exact found

/-- After an insertion the cache holds the new entry and, apart from it, nothing it
did not hold before. -/
theorem lookup_insertCache {key key' : RouteKey} {cached cached' : CachedPath}
    (found : (tenant.insertCache key cached).cache.lookup key' = some cached') :
    (key' = key ∧ cached' = cached) ∨ tenant.cache.lookup key' = some cached' := by
  simp only [insertCache, refresh_cache] at found
  rw [HashMap.lookup_insert_eq] at found
  split_ifs at found with same
  · exact Or.inl ⟨same, (Option.some.inj found).symm⟩
  · exact Or.inr (lookup_of_lookup_evict found)

@[simp] theorem lookup_insertCache_self (key : RouteKey) (cached : CachedPath) :
    (tenant.insertCache key cached).cache.lookup key = some cached := by
  simp [insertCache]

/-! ### Invalidations commute -/

/-- Two invalidations amount to one walk over the cache and one over its order. -/
theorem invalidateForNode_invalidateForNode (node node' : NodeId) :
    (tenant.invalidateForNode node).invalidateForNode node' =
      let cache := tenant.cache.retain fun _ cached =>
        decide (node ∉ cached.touchedNodes) && decide (node' ∉ cached.touchedNodes)
      { tenant with cache := cache, cacheOrder := tenant.cacheOrder.filter cache.containsKey } := by
  have sub : ∀ key, HashMap.containsKey (tenant.cache.retain fun _ cached =>
      decide (node ∉ cached.touchedNodes) && decide (node' ∉ cached.touchedNodes)) key = true →
      HashMap.containsKey (tenant.cache.retain fun _ cached =>
        decide (node ∉ cached.touchedNodes)) key = true := by
    intro key present
    rw [HashMap.containsKey, Option.isSome_iff_exists] at present ⊢
    obtain ⟨cached, found⟩ := present
    rw [HashMap.lookup_retain_eq_some, Bool.and_eq_true] at found
    exact ⟨cached, HashMap.lookup_retain_eq_some.mpr ⟨found.1, found.2.1⟩⟩
  unfold invalidateForNode
  simp only [HashMap.retain_retain, List.filter_filter]
  congr 1
  refine List.filter_congr fun key _ => ?_
  rw [Bool.and_eq_left_iff_imp]
  exact sub key

/-- The order of two invalidations does not matter. -/
theorem invalidateForNode_comm (tenant : TenantState) (node node' : NodeId) :
    (tenant.invalidateForNode node).invalidateForNode node' =
      (tenant.invalidateForNode node').invalidateForNode node := by
  simp only [invalidateForNode_invalidateForNode, Bool.and_comm]

instance : RightCommutative invalidateForNode := ⟨invalidateForNode_comm⟩

/-- What survives a list of invalidations touches none of the nodes. -/
theorem lookup_foldl_invalidateForNode {nodes : List NodeId} {key : RouteKey}
    {cached : CachedPath} :
    (nodes.foldl invalidateForNode tenant).cache.lookup key = some cached ↔
      tenant.cache.lookup key = some cached ∧ ∀ node ∈ nodes, node ∉ cached.touchedNodes := by
  induction nodes generalizing tenant with
  | nil => simp
  | cons node nodes ih =>
      rw [List.foldl_cons, ih, lookup_invalidateForNode, List.forall_mem_cons, and_assoc]

@[simp] theorem foldl_invalidateForNode_graph (nodes : List NodeId) :
    (nodes.foldl invalidateForNode tenant).graph = tenant.graph := by
  induction nodes generalizing tenant with
  | nil => rfl
  | cons node nodes ih => exact ih

@[simp] theorem foldl_invalidateForNode_health (nodes : List NodeId) :
    (nodes.foldl invalidateForNode tenant).health = tenant.health := by
  induction nodes generalizing tenant with
  | nil => rfl
  | cons node nodes ih => exact ih

@[simp] theorem foldl_invalidateForNode_costModel (nodes : List NodeId) :
    (nodes.foldl invalidateForNode tenant).costModel = tenant.costModel := by
  induction nodes generalizing tenant with
  | nil => rfl
  | cons node nodes ih => exact ih

@[simp] theorem foldl_invalidateForNode_healthPolicy (nodes : List NodeId) :
    (nodes.foldl invalidateForNode tenant).healthPolicy = tenant.healthPolicy := by
  induction nodes generalizing tenant with
  | nil => rfl
  | cons node nodes ih => exact ih

/-! ### Blocked nodes -/

theorem mem_blockedNodes {node : NodeId} :
    node ∈ tenant.blockedNodes ↔ tenant.nodeState node = some .open := by
  simp [blockedNodes, HashMap.mem_keysWhere, nodeState, Option.map_eq_some_iff]

theorem blockedNodes_sorted (tenant : TenantState) :
    tenant.blockedNodes.Pairwise (· ≤ ·) := List.pairwise_insertionSort _ _

theorem blockedNodes_nodup (tenant : TenantState) : tenant.blockedNodes.Nodup :=
  (List.perm_insertionSort _ _).nodup_iff.mpr (HashMap.keysWhere_nodup _ _)

end TenantState

end TrustRouter
