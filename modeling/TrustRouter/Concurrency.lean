import TrustRouter.Prelude.Linearization
import TrustRouter.Router

/-!
# Concurrent calls

The router is shared by threads.  Every call is one section under its lock, except that
`route` is two: the look-up under the read lock and, after a miss, everything else under
the write lock.  Between the two, other calls may trip nodes, change costs or insert the
very entry that was missed.

`lockedSections` is this program.  It refines the router that performs each call at once
(`lockedSections_refines`): the look-up that misses leaves nothing behind, and the
write-locked section looks up again, so that what it does is what `route` would do if it
began there.  The one trace of the splitting is in `cache_order`.  A call of `route` that
finds its entry hits it under the read lock and does not refresh its place, unless the
entry has been inserted between its sections, when the hit is under the write lock and
does.  So an atomic hit may do either (`AtomicCall`).
-/

namespace TrustRouter

variable [Rounding]

/-- How far a call has got. -/
inductive Op.Place where
  /-- Before its only section or, for `route`, before the read-locked look-up. -/
  | start (op : Op)
  /-- After a look-up that missed. -/
  | missed (tenantId : TenantId) (start goal : NodeId)

namespace RouterState

/-- A section of a call, under its lock. -/
def lockedSection (state : RouterState) : Op.Place → RouterState × (Op.Place ⊕ Answer)
  | .start (.route tenantId start goal) =>
      match state.routeFast tenantId start goal with
      | some hit => (hit.state, .inr (.decision hit.answer))
      | none => (state, .inl (.missed tenantId start goal))
  | .start op =>
      let effect := state.perform op
      (effect.state, .inr effect.answer)
  | .missed tenantId start goal =>
      let effect := state.routeSlow tenantId start goal
      (effect.state, .inr (.decision effect.answer))

/-- The router's calls, section by section. -/
def lockedSections : Sections RouterState Op Op.Place Answer where
  enter := .start
  section_ := lockedSection

/-- What a call may do when nothing comes between its sections.  It performs its
operation, but a hit of `route` may also refresh the entry's place in `cache_order`. -/
inductive AtomicCall (state : RouterState) : Op → RouterState → Answer → Prop
  | perform (op : Op) : AtomicCall state op (state.perform op).state (state.perform op).answer
  | refresh {tenantId : TenantId} {start goal : NodeId} {tenant : TenantState}
      {cached : CachedPath} :
      state.tenants.lookup tenantId = some tenant →
      tenant.cache.lookup ⟨start, goal⟩ = some cached →
      AtomicCall state (.route tenantId start goal)
        ⟨state.tenants.insert tenantId (tenant.refresh ⟨start, goal⟩)⟩
        (.decision (.routed
          { nodes := cached.path, totalCost := cached.weight, cacheHit := true }))

/-- The places a call can have got to. -/
def CanReach (op : Op) (place : Op.Place) : Prop :=
  place = .start op ∨
    ∃ tenantId start goal, op = .route tenantId start goal ∧
      place = .missed tenantId start goal

variable {state : RouterState}

/-- A hit under the read lock is `route`. -/
theorem perform_of_routeFast {tenantId : TenantId} {start goal : NodeId}
    {hit : Effect RouteDecision} (found : state.routeFast tenantId start goal = some hit) :
    state.perform (.route tenantId start goal) = hit.map .decision := by
  rw [perform, route, found, Option.getD_some]

/-- After a miss, the write-locked section is `route`. -/
theorem perform_of_miss {tenantId : TenantId} {start goal : NodeId}
    (miss : state.routeFast tenantId start goal = none) :
    state.perform (.route tenantId start goal) =
      (state.routeSlow tenantId start goal).map .decision := by
  rw [perform, route, miss, Option.getD_none]

omit [Rounding] in
/-- A look-up finds what is in the tenant's cache. -/
theorem routeFast_eq_some {tenantId : TenantId} {start goal : NodeId}
    {hit : Effect RouteDecision} (found : state.routeFast tenantId start goal = some hit) :
    ∃ tenant cached, state.tenants.lookup tenantId = some tenant ∧
      tenant.cache.lookup ⟨start, goal⟩ = some cached := by
  unfold routeFast at found
  cases place : state.tenants.lookup tenantId with
  | none => simp [place] at found
  | some tenant =>
      cases entry : tenant.cache.lookup ⟨start, goal⟩ with
      | none => simp [place, TenantState.routeFast, entry] at found
      | some cached => exact ⟨tenant, cached, rfl, entry⟩

/-- A hit under the write lock refreshes the entry. -/
theorem routeSlow_of_cached {tenantId : TenantId} {start goal : NodeId} {tenant : TenantState}
    {cached : CachedPath} (found : state.tenants.lookup tenantId = some tenant)
    (entry : tenant.cache.lookup ⟨start, goal⟩ = some cached) :
    state.routeSlow tenantId start goal =
      routed ⟨state.tenants.insert tenantId (tenant.refresh ⟨start, goal⟩)⟩ tenantId start goal
        { nodes := cached.path, totalCost := cached.weight, cacheHit := true } := by
  have slow : tenant.routeSlow ⟨start, goal⟩ = (tenant.refresh ⟨start, goal⟩,
      some { nodes := cached.path, totalCost := cached.weight, cacheHit := true }) := by
    rcases tenant.routeSlow_cases ⟨start, goal⟩ with ⟨_, hit, eq⟩ | ⟨_, miss, -⟩ | ⟨miss, -⟩
    · rw [eq, Option.some.inj (hit.symm.trans entry)]
    · rw [entry] at miss
      cases miss
    · rw [entry] at miss
      cases miss
  rw [routeSlow, found]
  simp only [slow]

/-- **The write-locked section** has the effect of the whole of `route`, whatever has
happened since the look-up. -/
theorem atomicCall_routeSlow (tenantId : TenantId) (start goal : NodeId) :
    AtomicCall state (.route tenantId start goal) (state.routeSlow tenantId start goal).state
      (.decision (state.routeSlow tenantId start goal).answer) := by
  cases look : state.routeFast tenantId start goal with
  | none =>
      -- nobody has inserted the entry: the section is `route` from its beginning
      have whole : AtomicCall state (.route tenantId start goal) _ _ := .perform _
      rwa [perform_of_miss look] at whole
  | some hit =>
      -- another call has: the section hits, and refreshes the entry
      obtain ⟨tenant, cached, found, entry⟩ := routeFast_eq_some look
      rw [routeSlow_of_cached found entry]
      exact .refresh found entry

/-- The split router refines the atomic one. -/
theorem lockedSections_refines : lockedSections.Refines AtomicCall CanReach where
  enter := fun _ => Or.inl rfl
  goOn := by
    intro op place state state' place' reached step
    rcases reached with rfl | ⟨tenantId, start, goal, rfl, rfl⟩
    · cases op with
      | route tenantId start goal =>
          cases look : state.routeFast tenantId start goal with
          | none =>
              simp only [lockedSections, lockedSection, look, Prod.mk.injEq,
                Sum.inl.injEq] at step
              obtain ⟨rfl, rfl⟩ := step
              exact ⟨rfl, Or.inr ⟨tenantId, start, goal, rfl, rfl⟩⟩
          | some hit => simp [lockedSections, lockedSection, look] at step
      | _ => simp [lockedSections, lockedSection] at step
    · simp [lockedSections, lockedSection] at step
  answer := by
    intro op place state state' answer reached step
    rcases reached with rfl | ⟨tenantId, start, goal, rfl, rfl⟩
    · cases op with
      | route tenantId start goal =>
          cases look : state.routeFast tenantId start goal with
          | none => simp [lockedSections, lockedSection, look] at step
          | some hit =>
              simp only [lockedSections, lockedSection, look, Prod.mk.injEq,
                Sum.inr.injEq] at step
              obtain ⟨rfl, rfl⟩ := step
              have whole : AtomicCall state (.route tenantId start goal) _ _ := .perform _
              rwa [perform_of_routeFast look] at whole
      | _ =>
          simp only [lockedSections, lockedSection, Prod.mk.injEq, Sum.inr.injEq] at step
          obtain ⟨rfl, rfl⟩ := step
          exact .perform _
    · simp only [lockedSections, lockedSection, Prod.mk.injEq, Sum.inr.injEq] at step
      obtain ⟨rfl, rfl⟩ := step
      exact atomicCall_routeSlow tenantId start goal

/-- **Linearizability of the router.**  After every run of concurrent calls, from any
state, the calls whose last section has been executed can be put in an order that respects
the order of calls that do not overlap, and in which executing each call atomically gives
every call its answer and ends in the very state the run has ended in. -/
theorem linearizable {init : RouterState} {events : List (CallEvent Op)}
    {shared : Shared RouterState Op Op.Place Answer}
    (steps : Steps lockedSections (Shared.init init) events shared) :
    ∃ order : List (CallId × Op × Answer),
      AtomicRun AtomicCall init (order.map Prod.snd) shared.state ∧
      (order.map Prod.fst).Nodup ∧
      (∀ call op answer, (call, op, answer) ∈ order ↔
        shared.calls call = some (.answered op answer) ∨
          shared.calls call = some (.returned op answer)) ∧
      ∀ call call', ReturnedBefore events call call' →
        ListedBefore (order.map Prod.fst) call call' := by
  obtain ⟨order, L⟩ := steps.exists_order lockedSections_refines
  exact ⟨order, L.atomicRun, L.nodup, L.mem_iff, L.realTime⟩

omit [Rounding] in
/-- Between the sections of a call of `route`, another call adds an edge. -/
theorem linearizable_of_edge_after_miss :
    letI := Rounding.exact
    ∃ shared : Shared RouterState Op Op.Place Answer,
      Steps lockedSections (Shared.init default)
        [.invoke 0 (.route "acme" "a" "b"), .section_ 0,
          .invoke 1 (.addEdge "acme" (Edge.new "a" "b")), .section_ 1, .return_ 1,
          .section_ 0, .return_ 0] shared ∧
      ∃ order : List (CallId × Op × Answer),
        AtomicRun AtomicCall default (order.map Prod.snd) shared.state := by
  let _ := Rounding.exact
  have happens : ([.invoke 0 (.route "acme" "a" "b"), .section_ 0,
      .invoke 1 (.addEdge "acme" (Edge.new "a" "b")), .section_ 1, .return_ 1,
      .section_ 0, .return_ 0].foldlM
        (Shared.next lockedSections) (Shared.init default)).isSome = true := by decide +kernel
  obtain ⟨shared, ran⟩ := Option.isSome_iff_exists.mp happens
  have steps := steps_of_foldlM lockedSections ran
  obtain ⟨order, atomicRun, -⟩ := linearizable steps
  exact ⟨shared, steps, order, atomicRun⟩

end RouterState

end TrustRouter
