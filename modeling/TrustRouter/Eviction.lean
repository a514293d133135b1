import TrustRouter.IdSpace
import TrustRouter.RouteCache

/-!
# What the cache evicts

`cacheOrder` is kept by the operations that insert and that drop entries.  A hit is answered
under the read lock and leaves it alone, and the path that would refresh it is only taken
after a miss.  So along every run the order is that of the last insertions
(`ordered_after`), and the entry evicted is the one inserted first.

That is the entry used least recently unless it has been hit since: the theorem about an
eviction says exactly this, in terms of the calls of the run.
-/

namespace TrustRouter

namespace TenantState

variable {tenant : TenantState}

/-- The order lists the keys of the cache. -/
def ListsKeys (tenant : TenantState) : Prop :=
  ∀ key, key ∈ tenant.cacheOrder ↔ tenant.cache.lookup key ≠ none

theorem listsKeys_default [Rounding] : (default : TenantState).ListsKeys := by
  intro key
  simp [default]

theorem listsKeys_invalidateAllCache : tenant.invalidateAllCache.ListsKeys := by
  intro key
  simp [invalidateAllCache]

theorem ListsKeys.invalidateForNode (lists : tenant.ListsKeys) (node : NodeId) :
    (tenant.invalidateForNode node).ListsKeys := by
  intro key
  have sub : ∀ {keep : RouteKey → CachedPath → Bool},
      (tenant.cache.retain keep).lookup key ≠ none → key ∈ tenant.cacheOrder := by
    intro keep kept
    refine (lists key).mpr fun gone => kept ?_
    rw [HashMap.lookup_retain, gone]
    rfl
  simp only [TenantState.invalidateForNode, List.mem_filter, HashMap.containsKey,
    Option.isSome_iff_ne_none]
  exact and_iff_right_of_imp sub

/-- What an operation may do to the order without inserting anything. -/
structure Drops (before later : TenantState) : Prop where
  sublist : later.cacheOrder.Sublist before.cacheOrder
  lists : before.ListsKeys → later.ListsKeys

theorem Drops.refl (tenant : TenantState) : Drops tenant tenant := ⟨.refl _, id⟩

theorem drops_invalidateAllCache {later : TenantState} :
    Drops tenant later.invalidateAllCache :=
  ⟨List.nil_sublist _, fun _ => listsKeys_invalidateAllCache⟩

theorem drops_invalidateForNode (node : NodeId) :
    Drops tenant (tenant.invalidateForNode node) :=
  ⟨List.filter_sublist, fun lists => lists.invalidateForNode node⟩

theorem Drops.trans {first second third : TenantState} (drops : Drops first second)
    (drops' : Drops second third) : Drops first third :=
  ⟨drops'.sublist.trans drops.sublist, fun lists => drops'.lists (drops.lists lists)⟩

theorem drops_health (health : HashMap NodeId HealthTracker) :
    Drops tenant { tenant with health := health } :=
  ⟨.refl _, id⟩

theorem drops_foldl_invalidateForNode (nodes : List NodeId) :
    Drops tenant (nodes.foldl TenantState.invalidateForNode tenant) := by
  induction nodes generalizing tenant with
  | nil => exact .refl _
  | cons node nodes ih => exact (drops_invalidateForNode node).trans ih

/-- An insertion leaves the rest of the order as it was, but for what it evicts. -/
theorem evict_sublist (key : RouteKey) :
    (tenant.evict key).cacheOrder.Sublist tenant.cacheOrder := by
  unfold evict
  split_ifs
  · split
    · exact .refl _
    · next order => exact order ▸ List.sublist_cons_self _ _
  · exact .refl _

theorem ListsKeys.evict (lists : tenant.ListsKeys) (nodup : tenant.cacheOrder.Nodup)
    (key : RouteKey) : (tenant.evict key).ListsKeys := by
  unfold TenantState.evict
  split_ifs
  · split
    · exact lists
    · next first rest order =>
        rw [order] at nodup
        intro key'
        have listed := lists key'
        rw [order, List.mem_cons] at listed
        dsimp only
        rw [HashMap.lookup_erase_eq]
        split_ifs with same
        · exact iff_of_false (same ▸ (List.nodup_cons.mp nodup).1) fun h => h rfl
        · exact (or_iff_right same).symm.trans listed
  · exact lists

theorem ListsKeys.notMem (lists : tenant.ListsKeys) {key : RouteKey}
    (miss : tenant.cache.lookup key = none) : key ∉ tenant.cacheOrder :=
  fun mem => (lists key).mp mem miss

/-- A key that is not cached becomes the last of the order. -/
theorem ListsKeys.insertCache_cacheOrder (lists : tenant.ListsKeys) {key : RouteKey}
    (miss : tenant.cache.lookup key = none) (cached : CachedPath) :
    (tenant.insertCache key cached).cacheOrder = (tenant.evict key).cacheOrder ++ [key] := by
  have fresh : key ∉ (tenant.evict key).cacheOrder :=
    fun mem => lists.notMem miss ((evict_sublist key).subset mem)
  have kept : (tenant.evict key).cacheOrder.filter (· ≠ key) = (tenant.evict key).cacheOrder :=
    List.filter_eq_self.mpr fun key' mem => by
      simpa using fun same : key' = key => fresh (same ▸ mem)
  exact congrArg (· ++ [key]) kept

theorem lookup_cache_insertCache (key key' : RouteKey) (cached : CachedPath) :
    (tenant.insertCache key cached).cache.lookup key' =
      if key' = key then some cached else (tenant.evict key).cache.lookup key' := by
  rw [insertCache, refresh_cache]
  exact HashMap.lookup_insert_eq _ _ _ _

theorem ListsKeys.insertCache (lists : tenant.ListsKeys) (nodup : tenant.cacheOrder.Nodup)
    {key : RouteKey} (miss : tenant.cache.lookup key = none) (cached : CachedPath) :
    (tenant.insertCache key cached).ListsKeys := by
  intro key'
  rw [lists.insertCache_cacheOrder miss, lookup_cache_insertCache, List.mem_append,
    List.mem_singleton, lists.evict nodup key key']
  split_ifs with same <;> simp [same]

/-- The eviction of an insertion into a full cache takes the first key of the order. -/
theorem evict_of_full {key first : RouteKey} {rest : List RouteKey}
    (miss : tenant.cache.lookup key = none) (full : tenant.cache.len = routeCacheLimit)
    (order : tenant.cacheOrder = first :: rest) :
    tenant.evict key = { tenant with cache := tenant.cache.erase first, cacheOrder := rest } := by
  unfold evict
  rw [if_pos ⟨by rw [HashMap.containsKey, miss]; rfl, full⟩, order]

theorem evict_of_len_lt {key : RouteKey} (room : tenant.cache.len < routeCacheLimit) :
    tenant.evict key = tenant := if_neg fun full => room.ne full.2

/-- Something is in a full cache, and so there is something to evict. -/
theorem ListsKeys.exists_first (lists : tenant.ListsKeys)
    (full : tenant.cache.len = routeCacheLimit) :
    ∃ first rest, tenant.cacheOrder = first :: rest := by
  refine List.exists_cons_of_ne_nil fun empty => ?_
  have none_ : tenant.cache.entries = [] := by
    refine List.eq_nil_iff_forall_not_mem.mpr fun entry mem => ?_
    have found := HashMap.lookup_eq_some_iff.mpr mem
    have listed := (lists entry.1).mpr (by rw [found]; exact Option.some_ne_none _)
    rw [empty] at listed
    exact absurd listed List.not_mem_nil
  rw [HashMap.len, none_] at full
  exact absurd full (by decide)

variable [Rounding]

/-- **One step.**  An operation only drops keys from the order, or it is a call of `route`
that has missed and puts its key at the end. -/
theorem cacheOrder_apply (tenant : TenantState) (op : Op) :
    Drops tenant (tenant.apply op) ∨
      ∃ key cached, tenant.cache.lookup key = none ∧
        tenant.apply op = tenant.insertCache key cached := by
  have configured : ∀ {valid : Prop} [Decidable valid] {changed : TenantState},
      tenant.apply op = (if valid then changed.invalidateAllCache else tenant) →
      Drops tenant (tenant.apply op) := by
    intro valid _ changed eq
    rw [eq]
    split_ifs
    · exact drops_invalidateAllCache
    · exact .refl _
  cases op with
  | addTenant => exact Or.inl (.refl _)
  | setCostModel | trySetCostModel | trySetHealthPolicy => exact Or.inl (configured rfl)
  | addEdge => exact Or.inl drops_invalidateAllCache
  | recordResult _ node success latencyMs now =>
      refine Or.inl ?_
      show Drops tenant (tenant.recordResult node success latencyMs now)
      unfold recordResult
      dsimp only
      split_ifs
      · exact (drops_health _).trans (drops_invalidateForNode node)
      · exact drops_health _
  | forceHalfOpen _ node =>
      refine Or.inl ?_
      show Drops tenant (tenant.forceHalfOpen node).1
      rcases tenant.forceHalfOpen_cases node with ⟨-, eq⟩ | ⟨_, -, -, eq⟩
      · rw [eq]
        exact .refl _
      · rw [eq]
        exact (drops_health _).trans (drops_invalidateForNode node)
  | runRecoveryProbeOnce cooldown now _ =>
      exact Or.inl ((drops_health _).trans (drops_foldl_invalidateForNode _))
  | route _ start goal =>
      show Drops tenant (tenant.route ⟨start, goal⟩).1 ∨ _
      rcases tenant.route_cases ⟨start, goal⟩ with ⟨_, -, eq⟩ | ⟨_, miss, -, eq⟩ | ⟨-, -, eq⟩
      · rw [eq]
        exact Or.inl (.refl _)
      · exact Or.inr ⟨_, _, miss, congrArg Prod.fst eq⟩
      · rw [eq]
        exact Or.inl (.refl _)

end TenantState

namespace RouterState

variable [Rounding]

/-- The entry a tenant's cache holds for a key. -/
def cached (state : RouterState) (tenantId : TenantId) (key : RouteKey) : Option CachedPath :=
  (state.tenants.lookup tenantId).bind fun tenant => tenant.cache.lookup key

/-- The operation is a call of `route` for the key, hit or miss. -/
def Routes (tenantId : TenantId) (key : RouteKey) (_ : RouterState) (op : Op) : Prop :=
  op = .route tenantId key.start key.goal

/-- The call is answered from the cache. -/
def Hits (tenantId : TenantId) (key : RouteKey) (state : RouterState) (op : Op) : Prop :=
  Routes tenantId key state op ∧ state.cached tenantId key ≠ none

/-- The operation puts an entry for the key into the cache, where there was none. -/
def Inserts (tenantId : TenantId) (key : RouteKey) (state : RouterState) (op : Op) : Prop :=
  state.cached tenantId key = none ∧ (state.step op).cached tenantId key ≠ none

/-- The operation takes the entry for the key out of the cache. -/
def Evicts (tenantId : TenantId) (key : RouteKey) (state : RouterState) (op : Op) : Prop :=
  state.cached tenantId key ≠ none ∧ (state.step op).cached tenantId key = none

/-- The next call of `route` for the key inserts it into a full cache. -/
def InsertsIntoFull (state : RouterState) (tenantId : TenantId) (key : RouteKey) : Prop :=
  (∃ tenant, state.tenants.lookup tenantId = some tenant ∧
    tenant.cache.len = routeCacheLimit) ∧
  Inserts tenantId key state (.route tenantId key.start key.goal)

/-- Of all the keys in the cache, this is the one whose most recent call of `route` is the
oldest. -/
def LeastRecent (ops : List Op) (tenantId : TenantId) (key : RouteKey) : Prop :=
  ∀ other, other ≠ key → (after ops).cached tenantId other ≠ none →
    LastBefore step (Routes tenantId key) (Routes tenantId other) default ops

/-- Of all the keys in the cache, this is the one that was inserted first. -/
def FirstInserted (ops : List Op) (tenantId : TenantId) (key : RouteKey) : Prop :=
  (after ops).cached tenantId key ≠ none ∧
    ∀ other, other ≠ key → (after ops).cached tenantId other ≠ none →
      LastBefore step (Inserts tenantId key) (Inserts tenantId other) default ops

/-- The call of `route` that comes next evicts one key, and that is the least recent. -/
def EvictsLeastRecent (ops : List Op) (tenantId : TenantId) (key : RouteKey) : Prop :=
  ∃ victim, (∀ key', Evicts tenantId key' (after ops) (.route tenantId key.start key.goal) ↔
    key' = victim) ∧ LeastRecent ops tenantId victim

variable {state : RouterState} {tenantId : TenantId} {key : RouteKey}

omit [Rounding] in
theorem cached_of_lookup {tenant : TenantState}
    (found : state.tenants.lookup tenantId = some tenant) :
    state.cached tenantId key = tenant.cache.lookup key := by
  rw [cached, found, Option.bind_some]

/-- Where there is no tenant, nothing is cached, and a new tenant has nothing cached either. -/
theorem cached_eq_getD :
    state.cached tenantId key =
      ((state.tenants.lookup tenantId).getD default).cache.lookup key := by
  cases found : state.tenants.lookup tenantId with
  | none => rw [cached, found]; rfl
  | some tenant => exact cached_of_lookup found

/-- Only a call of `route` for a key inserts it. -/
theorem Inserts.routes {op : Op} (inserts : Inserts tenantId key state op) :
    Routes tenantId key state op := by
  obtain ⟨absent, present⟩ := inserts
  obtain ⟨entry, present⟩ := Option.ne_none_iff_exists'.mp present
  obtain ⟨later, found, present⟩ := Option.bind_eq_some_iff.mp present
  obtain ⟨tenant, place, survives | ⟨routes, -⟩⟩ := lookup_cache_step found present
  · rw [cached_of_lookup place, survives.found] at absent
    cases absent
  · exact routes

/-- The order of a tenant's cache after a run. -/
structure Ordered (ops : List Op) (tenantId : TenantId) (tenant : TenantState) : Prop where
  lists : tenant.ListsKeys
  /-- Of two keys, the first was inserted first. -/
  pairwise : tenant.cacheOrder.Pairwise fun key key' =>
    LastBefore step (Inserts tenantId key) (Inserts tenantId key') default ops

theorem Ordered.nodup {ops : List Op} {tenant : TenantState}
    (ordered : Ordered ops tenantId tenant) : tenant.cacheOrder.Nodup :=
  ordered.pairwise.imp fun {key key'} before (same : key = key') =>
    not_lastBefore_self (same ▸ before)

/-- An operation does not change in which order the keys it leaves in the cache were
inserted. -/
theorem Ordered.concat {ops : List Op} {tenant : TenantState}
    (ordered : Ordered ops tenantId tenant) {op : Op}
    (here : ∀ key, (after ops).cached tenantId key = tenant.cache.lookup key)
    {kept : List RouteKey} (sublist : kept.Sublist tenant.cacheOrder) :
    (∀ key ∈ kept, ¬ Inserts tenantId key (after ops) op) ∧
      kept.Pairwise fun key key' =>
        LastBefore step (Inserts tenantId key) (Inserts tenantId key') default (ops ++ [op]) := by
  have cached : ∀ key ∈ kept, ¬ Inserts tenantId key (after ops) op := fun key mem inserts =>
    (ordered.lists key).mp (sublist.subset mem) ((here key).symm.trans inserts.1)
  refine ⟨cached, (ordered.pairwise.sublist sublist).imp_of_mem fun {key _} mem _ before => ?_⟩
  exact lastBefore_concat_iff.mpr ⟨cached key mem, Or.inr before⟩

/-- **The order of the cache is the order of insertion.** -/
theorem ordered_after (ops : List Op) {tenant : TenantState}
    (found : (after ops).tenants.lookup tenantId = some tenant) :
    Ordered ops tenantId tenant := by
  induction ops using List.reverseRecOn generalizing tenant with
  | nil => cases found
  | append_singleton ops op ih =>
      rw [after, run_concat] at found
      -- a tenant that is created starts out with nothing in its cache
      have before : Ordered ops tenantId (((after ops).tenants.lookup tenantId).getD default) := by
        cases place : (after ops).tenants.lookup tenantId with
        | none => exact ⟨TenantState.listsKeys_default, .nil⟩
        | some tenant => exact ih place
      have here : ∀ key, (after ops).cached tenantId key =
          (((after ops).tenants.lookup tenantId).getD default).cache.lookup key :=
        fun _ => cached_eq_getD
      rcases eq_of_lookup_step _ found with same | ⟨-, rfl⟩
      · rw [same, Option.getD_some] at before here
        exact ⟨before.lists, (before.concat here (.refl _)).2⟩
      generalize ((after ops).tenants.lookup tenantId).getD default = tenant at before here found
      rcases tenant.cacheOrder_apply op with drops | ⟨key, entry, miss, eq⟩
      · exact ⟨drops.lists before.lists, (before.concat here drops.sublist).2⟩
      · obtain ⟨others, pairwise⟩ := before.concat here (TenantState.evict_sublist key)
        have inserts : Inserts tenantId key (after ops) op := by
          refine ⟨(here key).trans miss, ?_⟩
          rw [cached_of_lookup found, eq, TenantState.lookup_insertCache_self]
          exact Option.some_ne_none _
        rw [eq]
        refine ⟨before.lists.insertCache before.nodup miss entry, ?_⟩
        rw [before.lists.insertCache_cacheOrder miss, List.pairwise_append]
        refine ⟨pairwise, List.pairwise_singleton _ _, fun key' mem last lastMem => ?_⟩
        obtain rfl := List.mem_singleton.mp lastMem
        exact lastBefore_concat_iff.mpr ⟨others key' mem, Or.inl inserts⟩

/-! ### The eviction -/

theorem lookup_step_route {tenant : TenantState}
    (found : state.tenants.lookup tenantId = some tenant) (key : RouteKey) :
    (state.step (.route tenantId key.start key.goal)).tenants.lookup tenantId =
      some (tenant.route key).1 := by
  rw [RouterState.lookup_step, if_pos ((Op.reaches_iff rfl tenantId).mpr rfl), found]
  rfl

/-- A call that inserts its key is a miss for which a route is found. -/
theorem Inserts.lookup_step {tenant : TenantState}
    (found : state.tenants.lookup tenantId = some tenant)
    (inserts : Inserts tenantId key state (.route tenantId key.start key.goal)) :
    tenant.cache.lookup key = none ∧ ∃ entry,
      (state.step (.route tenantId key.start key.goal)).tenants.lookup tenantId =
        some (tenant.insertCache key entry) := by
  obtain ⟨miss, present⟩ := inserts
  rw [cached_of_lookup found] at miss
  have later := lookup_step_route found key
  rw [cached_of_lookup later] at present
  refine ⟨miss, ?_⟩
  rcases tenant.route_cases key with ⟨_, hit, -⟩ | ⟨_, -, -, eq⟩ | ⟨-, -, eq⟩
  · rw [miss] at hit
    cases hit
  · exact ⟨_, later.trans (congrArg (some ·.1) eq)⟩
  · rw [eq] at present
    exact absurd miss present

/-- An insertion into a full cache evicts the first key of the order, and no other. -/
theorem evicts_iff_of_full {tenant : TenantState} {first : RouteKey} {rest : List RouteKey}
    (found : state.tenants.lookup tenantId = some tenant) (lists : tenant.ListsKeys)
    (full : tenant.cache.len = routeCacheLimit) (order : tenant.cacheOrder = first :: rest)
    (inserts : Inserts tenantId key state (.route tenantId key.start key.goal))
    (key' : RouteKey) :
    Evicts tenantId key' state (.route tenantId key.start key.goal) ↔ key' = first := by
  obtain ⟨miss, entry, later⟩ := inserts.lookup_step found
  have cached : tenant.cache.lookup first ≠ none := (lists first).mp (by simp [order])
  rw [Evicts, cached_of_lookup found, cached_of_lookup later,
    TenantState.lookup_cache_insertCache, TenantState.evict_of_full miss full order,
    HashMap.lookup_erase_eq]
  split_ifs with new old
  · subst new
    exact iff_of_false (fun evicted => evicted.1 miss) fun same => cached (same ▸ miss)
  · subst old
    exact iff_of_true ⟨cached, rfl⟩ rfl
  · exact iff_of_false (fun evicted => evicted.1 evicted.2) old

/-- The first key of the order was inserted first, and no other was. -/
theorem Ordered.firstInserted_iff {ops : List Op} {tenant : TenantState}
    (ordered : Ordered ops tenantId tenant)
    (found : (after ops).tenants.lookup tenantId = some tenant) {first : RouteKey}
    {rest : List RouteKey} (order : tenant.cacheOrder = first :: rest) :
    FirstInserted ops tenantId key ↔ key = first := by
  have listed : ∀ other, other ∈ first :: rest ↔ (after ops).cached tenantId other ≠ none := by
    intro other
    rw [cached_of_lookup found, ← ordered.lists, order]
  have before := ordered.pairwise
  rw [order, List.pairwise_cons] at before
  constructor
  · rintro ⟨cached, first'⟩
    rcases List.mem_cons.mp ((listed key).mpr cached) with same | mem
    · exact same
    -- two keys cannot both have been inserted before the other
    by_contra ne
    exact (before.1 key mem).not_lastBefore
      (first' first (Ne.symm ne) ((listed first).mp List.mem_cons_self))
  · rintro rfl
    refine ⟨(listed key).mp List.mem_cons_self, fun other ne cached => before.1 other ?_⟩
    exact (List.mem_cons.mp ((listed other).mpr cached)).resolve_left ne

/-- A key that is cached and has not been inserted by the last operation was cached before. -/
theorem cached_of_not_inserts {op : Op} (cached : (state.step op).cached tenantId key ≠ none)
    (notInserts : ¬ Inserts tenantId key state op) : state.cached tenantId key ≠ none :=
  fun absent => notInserts ⟨absent, cached⟩

/-- A key that is still in the cache has been hit by the last call for it, if another key has
been inserted since its own insertion. -/
theorem lastBefore_hits {ops : List Op} {other : RouteKey}
    (cached : (after ops).cached tenantId key ≠ none)
    (inserted : LastBefore step (Inserts tenantId key) (Inserts tenantId other) default ops)
    (routed : LastBefore step (Routes tenantId other) (Routes tenantId key) default ops) :
    LastBefore step (Routes tenantId other) (Hits tenantId key) default ops := by
  induction ops using List.reverseRecOn with
  | nil => exact absurd routed not_lastBefore_nil
  | append_singleton ops op ih =>
      rw [lastBefore_concat_iff] at inserted routed ⊢
      obtain ⟨notInserts, inserted⟩ := inserted
      obtain ⟨notOther, routed⟩ := routed
      rw [after, run_concat] at cached
      have before := cached_of_not_inserts cached notInserts
      have inserted := inserted.resolve_left fun inserts => notOther inserts.routes
      exact ⟨notOther, routed.imp (fun routes => ⟨routes, before⟩) (ih before inserted)⟩

/-- Of two keys in the cache, the one inserted first is also the one used less recently,
unless it has been hit since. -/
theorem lastBefore_routes_iff {ops : List Op} {other : RouteKey} (ne : other ≠ key)
    (cached : (after ops).cached tenantId key ≠ none)
    (inserted : LastBefore step (Inserts tenantId key) (Inserts tenantId other) default ops) :
    LastBefore step (Routes tenantId key) (Routes tenantId other) default ops ↔
      ¬ LastBefore step (Routes tenantId other) (Hits tenantId key) default ops := by
  have apart : ∀ state op, Routes tenantId key state op → ¬ Routes tenantId other state op := by
    rintro state op rfl same
    injection same with _ start goal
    cases key
    cases other
    cases start
    cases goal
    exact ne rfl
  constructor
  · exact fun routed hit => routed.not_lastBefore (hit.mono fun _ _ hits => hits.1)
  · intro notHit
    have some_ := inserted.mono fun _ _ inserts => inserts.routes
    exact (lastBefore_or apart some_).resolve_right fun routed =>
      notHit (lastBefore_hits cached inserted routed)

/-- **What an eviction takes.**  After any run, a call of `route` that inserts into a full
cache evicts the key used least recently if and only if the key inserted first has not been
hit since the last call for any other key in the cache. -/
theorem evictsLeastRecent_iff (ops : List Op) (full : InsertsIntoFull (after ops) tenantId key) :
    EvictsLeastRecent ops tenantId key ↔
      ∀ first, FirstInserted ops tenantId first →
        ∀ other, other ≠ first → (after ops).cached tenantId other ≠ none →
          ¬ LastBefore step (Routes tenantId other) (Hits tenantId first) default ops := by
  obtain ⟨⟨tenant, found, limit⟩, inserts⟩ := full
  have ordered := ordered_after ops found
  obtain ⟨victim, rest, order⟩ := ordered.lists.exists_first limit
  have evicts := evicts_iff_of_full found ordered.lists limit order inserts
  have first : FirstInserted ops tenantId victim :=
    (ordered.firstInserted_iff found order).mpr rfl
  have recent : LeastRecent ops tenantId victim ↔
      ∀ other, other ≠ victim → (after ops).cached tenantId other ≠ none →
        ¬ LastBefore step (Routes tenantId other) (Hits tenantId victim) default ops :=
    forall₃_congr fun other ne cached =>
      lastBefore_routes_iff ne first.1 (first.2 other ne cached)
  constructor
  · rintro ⟨victim', evicts', least⟩ first' isFirst
    obtain rfl := (ordered.firstInserted_iff found order).mp isFirst
    obtain rfl := (evicts' first').mp ((evicts first').mpr rfl)
    exact recent.mp least
  · exact fun condition => ⟨victim, evicts, recent.mpr (condition victim first)⟩

/-! ### A full cache -/

/-- The key of a route from a node to itself. -/
def loopKey (n : ℕ) : RouteKey := ⟨ToolGraph.nodeNamed n, ToolGraph.nodeNamed n⟩

omit [Rounding] in
theorem loopKey_injective : Function.Injective loopKey :=
  fun _ _ same => ToolGraph.nodeNamed_injective (congrArg RouteKey.start same)

def routeLoop (n : ℕ) : Op := .route "acme" (loopKey n).start (loopKey n).goal

/-- A new tenant, and a call of `route` for each of `n` keys. -/
def loops (n : ℕ) : List Op := .addTenant "acme" :: (List.range n).map routeLoop

omit [Rounding] in
theorem loops_succ (n : ℕ) : loops (n + 1) = loops n ++ [routeLoop n] := by
  rw [loops, List.range_succ, List.map_append]
  rfl

/-- A route from a node to itself is always found, and inserted if it is not cached. -/
theorem inserts_routeLoop {tenant : TenantState} {n : ℕ}
    (found : state.tenants.lookup "acme" = some tenant)
    (miss : tenant.cache.lookup (loopKey n) = none) :
    Inserts "acme" (loopKey n) state (routeLoop n) := by
  refine ⟨(cached_of_lookup found).trans miss, ?_⟩
  rw [routeLoop, cached_of_lookup (lookup_step_route found (loopKey n))]
  rcases tenant.route_cases (loopKey n) with ⟨_, hit, -⟩ | ⟨_, -, -, eq⟩ | ⟨-, nowhere, -⟩
  · rw [miss] at hit
    cases hit
  · rw [eq, TenantState.lookup_insertCache_self]
    exact Option.some_ne_none _
  · have same : (loopKey n).start = (loopKey n).goal := rfl
    rw [ToolGraph.shortestPath, if_pos same] at nowhere
    cases nowhere

omit [Rounding] in
theorem lookup_loopKey {tenant : TenantState} {n : ℕ} (lists : tenant.ListsKeys)
    (order : tenant.cacheOrder = (List.range n).map loopKey) :
    tenant.cache.lookup (loopKey n) = none := by
  by_contra cached
  have mem := (lists _).mpr cached
  rw [order] at mem
  obtain ⟨m, below, same⟩ := List.mem_map.mp mem
  exact absurd (loopKey_injective same) (List.mem_range.mp below).ne

/-- The cache fills up in the order of the calls. -/
theorem exists_tenant_after_loops {n : ℕ} (fits : n ≤ routeCacheLimit) :
    ∃ tenant, (after (loops n)).tenants.lookup "acme" = some tenant ∧
      tenant.cacheOrder = (List.range n).map loopKey ∧ tenant.cache.len = n := by
  induction n with
  | zero => exact ⟨default, rfl, rfl, rfl⟩
  | succ n ih =>
      obtain ⟨tenant, found, order, size⟩ := ih (by omega)
      have lists := (ordered_after _ found).lists
      have miss := lookup_loopKey lists order
      obtain ⟨-, entry, later⟩ := (inserts_routeLoop found miss).lookup_step found
      have room : tenant.evict (loopKey n) = tenant :=
        TenantState.evict_of_len_lt (size.trans_lt (by omega))
      refine ⟨tenant.insertCache (loopKey n) entry, ?_, ?_, ?_⟩
      · rw [loops_succ, after, run_concat]
        exact later
      · rw [lists.insertCache_cacheOrder miss, room, order, List.range_succ, List.map_append]
        rfl
      · rw [TenantState.insertCache, TenantState.refresh_cache, room,
          HashMap.len_insert_of_lookup_eq_none miss, size]

/-- Filling the cache, no call hits. -/
theorem not_lastBefore_hits_loops {n : ℕ} (fits : n ≤ routeCacheLimit)
    (P : RouterState → Op → Prop) (first : RouteKey) :
    ¬ LastBefore step P (Hits "acme" first) default (loops n) := by
  induction n with
  | zero =>
      intro last
      rw [show loops 0 = [] ++ [.addTenant "acme"] from rfl, lastBefore_concat_iff] at last
      rcases last with ⟨-, hits | last⟩
      · cases hits.1
      · exact not_lastBefore_nil last
  | succ n ih =>
      obtain ⟨tenant, found, order, -⟩ := exists_tenant_after_loops (n := n) (by omega)
      rw [loops_succ, lastBefore_concat_iff]
      rintro ⟨-, ⟨routes, cached⟩ | last⟩
      · obtain rfl : loopKey n = first := by
          injection routes with _ start goal
          cases first
          cases start
          cases goal
          rfl
        have miss := lookup_loopKey (ordered_after _ found).lists order
        exact cached ((cached_of_lookup found).trans miss)
      · exact ih (by omega) last

omit [Rounding] in
/-- Where nothing has been hit, the first of as many calls as the cache has places is the
first to go. -/
theorem evictsLeastRecent_loops :
    letI := Rounding.exact
    EvictsLeastRecent (loops routeCacheLimit) "acme" (loopKey routeCacheLimit) := by
  let _ := Rounding.exact
  obtain ⟨tenant, found, order, size⟩ := exists_tenant_after_loops le_rfl
  have miss := lookup_loopKey (ordered_after _ found).lists order
  have full : InsertsIntoFull (after (loops routeCacheLimit)) "acme" (loopKey routeCacheLimit) :=
    ⟨⟨tenant, found, size⟩, inserts_routeLoop found miss⟩
  exact (evictsLeastRecent_iff _ full).mpr fun first _ _ _ _ =>
    not_lastBefore_hits_loops le_rfl _ first

omit [Rounding] in
/-- The first of the calls is made once more, and its key is still the first to go. -/
theorem not_evictsLeastRecent :
    letI := Rounding.exact
    let ops := loops routeCacheLimit ++ [routeLoop 0]
    InsertsIntoFull (after ops) "acme" (loopKey routeCacheLimit) ∧
      ¬ EvictsLeastRecent ops "acme" (loopKey routeCacheLimit) := by
  let _ := Rounding.exact
  obtain ⟨tenant, found, order, size⟩ := exists_tenant_after_loops le_rfl
  have lists := (ordered_after _ found).lists
  have miss := lookup_loopKey lists order
  have order' : tenant.cacheOrder = loopKey 0 :: (List.range 1023).map (loopKey ∘ Nat.succ) := by
    rw [order, routeCacheLimit, List.range_succ_eq_map, List.map_cons, List.map_map]
  have mem : ∀ m < routeCacheLimit, tenant.cache.lookup (loopKey m) ≠ none := fun m below =>
    (lists _).mp (order ▸ List.mem_map.mpr ⟨m, List.mem_range.mpr below, rfl⟩)
  intro ops
  -- the hit changes nothing
  have found' : (after ops).tenants.lookup "acme" = some tenant := by
    rw [after, run_concat]
    refine (lookup_step_route found (loopKey 0)).trans (congrArg some ?_)
    rcases tenant.route_cases (loopKey 0) with ⟨_, -, eq⟩ | ⟨_, absent, -, -⟩ | ⟨absent, -, -⟩
    · rw [eq]
    · exact absurd absent (mem 0 (by decide))
    · exact absurd absent (mem 0 (by decide))
  have inserts := inserts_routeLoop found' miss
  refine ⟨⟨⟨tenant, found', size⟩, inserts⟩, ?_⟩
  rintro ⟨victim, evicts, least⟩
  obtain rfl := (evicts (loopKey 0)).mp
    ((evicts_iff_of_full found' lists size order' inserts (loopKey 0)).mpr rfl)
  have cached : (after ops).cached "acme" (loopKey 1) ≠ none := by
    rw [cached_of_lookup found']
    exact mem 1 (by decide)
  have other := least (loopKey 1) (loopKey_injective.ne (by decide)) cached
  exact (lastBefore_concat_iff.mp other).1 rfl

end RouterState

end TrustRouter
