import TrustRouter.Concurrency
import TrustRouter.Eviction

/-!
# The representation of a route cache

A tenant keeps its cached routes in a map and their keys in a queue, and the two are changed
side by side.  `WellKept` is what ties them: the queue lists every key of the map once and no
other, there are at most `ROUTE_CACHE_LIMIT` of them, and an entry touches the nodes of its
path.

The test for a full cache is an equality.  It works because the queue is as long as the map is
large (`len_eq_length`), so that a full cache has a key to evict and an eviction makes room for
one.

The invariant holds whenever a thread holds the lock: calls may overlap, and between the two
sections of a call of `route` another call may have inserted its key (`wellKept_of_steps`).
-/

namespace TrustRouter

namespace TenantState

/-- The map of a cache and its queue agree. -/
structure WellKept (tenant : TenantState) : Prop where
  nodup : tenant.cacheOrder.Nodup
  lists : tenant.ListsKeys
  bounded : tenant.cache.len ≤ routeCacheLimit
  touched : ∀ key cached, tenant.cache.lookup key = some cached →
    cached.touchedNodes = cached.path.toFinset

variable {tenant : TenantState}

/-- The queue is as long as the map is large. -/
theorem ListsKeys.len_eq_length (lists : tenant.ListsKeys) (nodup : tenant.cacheOrder.Nodup) :
    tenant.cache.len = tenant.cacheOrder.length := by
  have keys : tenant.cache.keys.Perm tenant.cacheOrder :=
    (List.perm_ext_iff_of_nodup tenant.cache.nodupKeys nodup).mpr fun key => by
      rw [lists key, ne_eq, AList.lookup_eq_none, not_not]
      exact AList.mem_keys.symm
  rw [← keys.length_eq]
  exact (List.length_map _).symm

theorem wellKept_default [Rounding] : (default : TenantState).WellKept where
  nodup := .nil
  lists := listsKeys_default
  bounded := Nat.zero_le _
  touched _ _ found := by cases found

/-- Dropping entries. -/
theorem WellKept.drops {later : TenantState} (kept : tenant.WellKept)
    (drops : Drops tenant later)
    (sub : ∀ key cached, later.cache.lookup key = some cached →
      tenant.cache.lookup key = some cached) : later.WellKept where
  nodup := kept.nodup.sublist drops.sublist
  lists := drops.lists kept.lists
  bounded := by
    have before := kept.lists.len_eq_length kept.nodup
    have after := (drops.lists kept.lists).len_eq_length (kept.nodup.sublist drops.sublist)
    exact after.trans_le (drops.sublist.length_le.trans (before.symm.trans_le kept.bounded))
  touched key cached found := kept.touched key cached (sub key cached found)

/-- Moving a key that is cached to the end of the queue. -/
theorem WellKept.refresh (kept : tenant.WellKept) {key : RouteKey}
    (hit : tenant.cache.lookup key ≠ none) : (tenant.refresh key).WellKept where
  nodup := by
    refine List.nodup_append.mpr ⟨kept.nodup.filter _, List.nodup_singleton _, ?_⟩
    intro key' mem last lastMem
    rw [List.mem_singleton.mp lastMem]
    simpa using (List.mem_filter.mp mem).2
  lists key' := by
    show key' ∈ tenant.cacheOrder.filter (· ≠ key) ++ [key] ↔ tenant.cache.lookup key' ≠ none
    rw [List.mem_append, List.mem_filter, List.mem_singleton, kept.lists key']
    by_cases same : key' = key
    · subst same
      simp [hit]
    · simp [same]
  bounded := kept.bounded
  touched := kept.touched

/-! ### Inserting -/

/-- There is room after an eviction for a key that is not cached. -/
theorem WellKept.length_evict_lt (kept : tenant.WellKept) {key : RouteKey}
    (miss : tenant.cache.lookup key = none) :
    (tenant.evict key).cacheOrder.length < routeCacheLimit := by
  have length := kept.lists.len_eq_length kept.nodup
  rcases Nat.lt_or_eq_of_le kept.bounded with room | full
  · rw [evict_of_len_lt room, ← length]
    exact room
  · obtain ⟨first, rest, order⟩ := kept.lists.exists_first full
    rw [evict_of_full miss full order]
    rw [order, List.length_cons, full] at length
    exact length ▸ Nat.lt_succ_self _

theorem WellKept.insertCache (kept : tenant.WellKept) {key : RouteKey} {cached : CachedPath}
    (miss : tenant.cache.lookup key = none)
    (touched : cached.touchedNodes = cached.path.toFinset) :
    (tenant.insertCache key cached).WellKept := by
  have order := kept.lists.insertCache_cacheOrder miss cached
  have lists := kept.lists.insertCache kept.nodup miss cached
  have nodup : (tenant.insertCache key cached).cacheOrder.Nodup := by
    rw [order]
    refine List.nodup_append.mpr
      ⟨kept.nodup.sublist (evict_sublist key), List.nodup_singleton _, ?_⟩
    intro key' mem last lastMem same
    rw [same, List.mem_singleton.mp lastMem] at mem
    exact kept.lists.notMem miss ((evict_sublist key).subset mem)
  refine ⟨nodup, lists, ?_, ?_⟩
  · rw [lists.len_eq_length nodup, order, List.length_append, List.length_singleton]
    exact kept.length_evict_lt miss
  · intro key' cached' found
    rcases lookup_insertCache found with ⟨-, rfl⟩ | before
    · exact touched
    · exact kept.touched key' cached' before

/-- **An insertion into a full cache** takes exactly one entry out, which is not the new one. -/
theorem WellKept.exists_evicted (kept : tenant.WellKept) {key : RouteKey}
    (miss : tenant.cache.lookup key = none) (full : tenant.cache.len = routeCacheLimit)
    (cached : CachedPath) :
    ∃ evicted, evicted ≠ key ∧ tenant.cache.lookup evicted ≠ none ∧
      ∀ key', (tenant.insertCache key cached).cache.lookup key' =
        if key' = key then some cached
        else if key' = evicted then none
        else tenant.cache.lookup key' := by
  obtain ⟨first, rest, order⟩ := kept.lists.exists_first full
  have present : tenant.cache.lookup first ≠ none := (kept.lists first).mp (by simp [order])
  refine ⟨first, fun same => present (same ▸ miss), present, fun key' => ?_⟩
  rw [lookup_cache_insertCache, evict_of_full miss full order, HashMap.lookup_erase_eq]

/-! ### Operations -/

/-- **One step.**  Every operation keeps the cache of a tenant. -/
theorem WellKept.apply [Rounding] (kept : tenant.WellKept) (op : Op) :
    (tenant.apply op).WellKept := by
  have provenance : ∀ key cached, (tenant.apply op).cache.lookup key = some cached →
      tenant.cache.lookup key = some cached ∨
        tenant.cache.lookup key = none ∧ cached.touchedNodes = cached.path.toFinset := by
    intro key cached found
    rcases lookup_cache_apply found with survives | ⟨-, inserted⟩
    · exact .inl survives.found
    · obtain ⟨route, rfl, -⟩ := inserted.computed
      exact .inr ⟨inserted.miss, rfl⟩
  rcases tenant.cacheOrder_apply op with drops | ⟨key, cached, miss, eq⟩
  · refine kept.drops drops fun key cached found => ?_
    rcases provenance key cached found with before | ⟨miss, -⟩
    · exact before
    · -- nothing has been inserted, for the key would be in the queue
      have later := (drops.lists kept.lists key).mpr (by rw [found]; exact Option.some_ne_none _)
      exact absurd (drops.sublist.subset later) (kept.lists.notMem miss)
  · have found : (tenant.apply op).cache.lookup key = some cached := by
      rw [eq, lookup_insertCache_self]
    rcases provenance key cached found with before | ⟨-, touched⟩
    · rw [miss] at before
      cases before
    · rw [eq]
      exact kept.insertCache miss touched

end TenantState

namespace RouterState

open TenantState

variable [Rounding]

omit [Rounding] in
/-- The caches of all tenants are well kept. -/
def CachesKept (state : RouterState) : Prop :=
  ∀ tenantId tenant, state.tenants.lookup tenantId = some tenant → tenant.WellKept

variable {state : RouterState}

theorem CachesKept.step (kept : state.CachesKept) (op : Op) : (state.step op).CachesKept := by
  intro tenantId later found
  rcases eq_of_lookup_step _ found with before | ⟨-, rfl⟩
  · exact kept tenantId later before
  · refine WellKept.apply ?_ op
    cases place : state.tenants.lookup tenantId with
    | none => exact wellKept_default
    | some tenant => exact kept tenantId tenant place

/-- An atomic call keeps the caches, also one that refreshes the place of its entry. -/
theorem CachesKept.atomicCall (kept : state.CachesKept) {op : Op} {later : RouterState}
    {answer : Answer} (call : AtomicCall state op later answer) : later.CachesKept := by
  cases call with
  | perform => exact kept.step op
  | @refresh tenantId start goal tenant cached place entry =>
      intro tenantId' tenant' found
      rw [HashMap.lookup_insert_eq] at found
      split_ifs at found
      · cases found
        refine (kept tenantId tenant place).refresh ?_
        rw [entry]
        exact Option.some_ne_none _
      · exact kept tenantId' tenant' found

theorem cachesKept_atomicRun {calls : List (Op × Answer)}
    (atomicRun : AtomicRun AtomicCall default calls state) : state.CachesKept := by
  induction atomicRun with
  | nil => exact fun _ _ found => by cases found
  | snoc _ call ih => exact ih.atomicCall call

/-- **The representation of a route cache.**  In every state that a router can come to, with
calls of any number of threads one section after the other, the cache of every tenant is well
kept, and the insertion of a new key into a full one removes exactly one other entry. -/
theorem wellKept_of_steps {events : List (CallEvent Op)}
    {shared : Shared RouterState Op Op.Place Answer}
    (steps : Steps lockedSections (Shared.init default) events shared) {tenantId : TenantId}
    {tenant : TenantState} (found : shared.state.tenants.lookup tenantId = some tenant) :
    tenant.WellKept ∧
      ∀ key cached, tenant.cache.lookup key = none → tenant.cache.len = routeCacheLimit →
        ∃ evicted, evicted ≠ key ∧ tenant.cache.lookup evicted ≠ none ∧
          ∀ key', (tenant.insertCache key cached).cache.lookup key' =
            if key' = key then some cached
            else if key' = evicted then none
            else tenant.cache.lookup key' := by
  obtain ⟨order, linearized⟩ := steps.exists_order lockedSections_refines
  have kept := cachesKept_atomicRun linearized.atomicRun tenantId tenant found
  exact ⟨kept, fun key cached miss full => kept.exists_evicted miss full cached⟩

omit [Rounding] in
/-- The same call of `route` made by two threads, both of which miss: the second finds the entry
of the first. -/
theorem wellKept_of_steps_twice :
    letI := Rounding.exact
    ∃ (shared : Shared RouterState Op Op.Place Answer) (tenant : TenantState),
      Steps lockedSections (Shared.init default)
        [.invoke 0 (.addEdge "acme" (Edge.new "a" "b")), .section_ 0,
          .invoke 1 (.route "acme" "a" "b"), .section_ 1,
          .invoke 2 (.route "acme" "a" "b"), .section_ 2, .section_ 1, .section_ 2] shared ∧
      shared.state.tenants.lookup "acme" = some tenant ∧ tenant.cacheOrder = [⟨"a", "b"⟩] ∧
      tenant.WellKept := by
  let _ := Rounding.exact
  have order : ([.invoke 0 (.addEdge "acme" (Edge.new "a" "b")), .section_ 0,
        .invoke 1 (.route "acme" "a" "b"), .section_ 1,
        .invoke 2 (.route "acme" "a" "b"), .section_ 2, .section_ 1, .section_ 2].foldlM
      (Shared.next lockedSections) (Shared.init default)).bind (fun shared =>
        (shared.state.tenants.lookup "acme").map TenantState.cacheOrder) =
      some [⟨"a", "b"⟩] := by decide +kernel
  obtain ⟨shared, ran, order⟩ := Option.bind_eq_some_iff.mp order
  obtain ⟨tenant, found, queue⟩ := Option.map_eq_some_iff.mp order
  have steps := steps_of_foldlM lockedSections ran
  exact ⟨shared, tenant, steps, found, queue, (wellKept_of_steps steps found).1⟩

end RouterState

end TrustRouter
