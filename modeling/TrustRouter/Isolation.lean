import TrustRouter.TenantRuns

/-!
# Tenants do not interfere

The operations addressed to other tenants can be deleted from a run without anyone
who looks at tenant `A` noticing: the answers to the operations addressed to `A` are
the same, and so is the health of its nodes at every point.

A recovery probe is addressed to every tenant and stays.  The walk it makes over the
hash maps need not be the same in the two runs, so the comparison forgets it
(`Op.withoutOrder`).

The proof gives `A` a machine of its own (`Op.applyAt`, `Op.answerAt`), which sees
only the operations that reach `A`, and shows that the router's entry for `A` is a
view of the router that runs this machine.
-/

namespace TrustRouter

variable [Rounding]

namespace Op

omit [Rounding] in
/-- The operation, with the order in which a recovery probe walks the hash maps
forgotten. -/
def withoutOrder : Op → Op
  | runRecoveryProbeOnce cooldown now _ => runRecoveryProbeOnce cooldown now default
  | op => op

omit [Rounding] in
/-- What the machine of one tenant sees of an operation. -/
def visible (tenantId : TenantId) (op : Op) : Option Op :=
  if op.Reaches tenantId then some op.withoutOrder else none

/-- The answer to an operation, from the state of the tenant it is addressed to. -/
def answerAt (place : Option TenantState) : Op → Option Answer
  | addTenant _ | setCostModel _ _ | addEdge _ _ | recordResult _ _ _ _ _ => some .unit
  | trySetCostModel _ costModel => some (.configured costModel.validate)
  | trySetHealthPolicy _ policy => some (.configured policy.validate)
  | forceHalfOpen _ nodeId =>
      some (.moved ((place.map fun tenant => (tenant.forceHalfOpen nodeId).2).getD false))
  | route tenantId start goal =>
      some (.decision ((place.map fun tenant =>
        tenant.decision tenantId ⟨start, goal⟩ (tenant.route ⟨start, goal⟩).2).getD
          (.escalate
            { tenantId := tenantId
              start := start
              goal := goal
              reason := .tenantNotFound
              failedOrBlockedNodes := [] })))
  | runRecoveryProbeOnce _ _ _ => none

theorem applyAt_withoutOrder (op : Op) : op.withoutOrder.applyAt = op.applyAt := by
  funext place
  cases op <;> rfl

theorem answerAt_withoutOrder (op : Op) (place : Option TenantState) :
    op.withoutOrder.answerAt place = op.answerAt place := by
  cases op <;> rfl

theorem answerAt_eq_none_iff {op : Op} {place : Option TenantState} :
    op.answerAt place = none ↔ op.tenant = none := by
  cases op <;> simp [answerAt, tenant]

end Op

namespace RouterState

/-- The answer to an operation, if it is addressed to the tenant. -/
def answerFor (tenantId : TenantId) (state : RouterState) (op : Op) : Option Answer :=
  if op.tenant = some tenantId then some (state.perform op).answer else none

/-- The answers a tenant gets in a run from a new router. -/
def answersFor (tenantId : TenantId) (ops : List Op) : List Answer :=
  (outputs step (answerFor tenantId) default ops).reduceOption

variable (tenantId : TenantId)

/-- An answer depends on the tenant the operation is addressed to. -/
theorem perform_answer (state : RouterState) {op : Op} (addressed : op.tenant = some tenantId) :
    some (state.perform op).answer = op.answerAt (state.tenants.lookup tenantId) := by
  cases op with
  | addTenant | setCostModel | addEdge | recordResult => rfl
  | trySetCostModel tenantId₀ costModel =>
      simp only [perform, Effect.map, trySetCostModel, Op.answerAt]
      split <;> simp_all
  | trySetHealthPolicy tenantId₀ policy =>
      simp only [perform, Effect.map, trySetHealthPolicy, Op.answerAt]
      split <;> simp_all
  | forceHalfOpen tenantId₀ nodeId =>
      obtain rfl := Option.some.inj addressed
      simp only [perform, Effect.map, forceHalfOpen_answer, Op.answerAt]
  | runRecoveryProbeOnce => cases addressed
  | route tenantId₀ start goal =>
      obtain rfl := Option.some.inj addressed
      simp only [perform, Effect.map, Op.answerAt]
      cases found : state.tenants.lookup tenantId₀ with
      | none => simp [route, routeFast_eq, routeSlow, found, escalated]
      | some tenant => rw [route_answer state found]; rfl

/-- The entry of a tenant is a view of the router. -/
theorem lookup_step_visible (state : RouterState) (op : Op) :
    (state.step op).tenants.lookup tenantId =
      ((op.visible tenantId).map fun seen => seen.applyAt (state.tenants.lookup tenantId)).getD
        (state.tenants.lookup tenantId) := by
  rw [lookup_step, Op.visible]
  split_ifs
  · rw [Option.map_some, Op.applyAt_withoutOrder]
    rfl
  · rfl

theorem answerFor_visible (state : RouterState) (op : Op) :
    answerFor tenantId state op =
      (op.visible tenantId).bind fun seen => seen.answerAt (state.tenants.lookup tenantId) := by
  unfold answerFor Op.visible
  by_cases addressed : op.tenant = some tenantId
  · have reaches : op.Reaches tenantId := Or.inr addressed
    rw [if_pos addressed, if_pos reaches, Option.bind_some, Op.answerAt_withoutOrder,
      perform_answer tenantId state addressed]
  · rw [if_neg addressed]
    split_ifs with reaches
    · -- a recovery probe is seen by every tenant and answers none
      have toAll : op.tenant = none := reaches.resolve_right addressed
      rw [Option.bind_some, Op.answerAt_withoutOrder, Op.answerAt_eq_none_iff.mpr toAll]
    · rfl

/-- The machine of one tenant. -/
theorem lookup_after (ops : List Op) :
    (after ops).tenants.lookup tenantId =
      run (fun place op => op.applyAt place) none (ops.filterMap (Op.visible tenantId)) :=
  view_run (fun state : RouterState => state.tenants.lookup tenantId)
    (lookup_step_visible tenantId) ops

theorem answersFor_eq (ops : List Op) :
    answersFor tenantId ops =
      (outputs (fun place op => op.applyAt place) (fun place op => op.answerAt place) none
        (ops.filterMap (Op.visible tenantId))).reduceOption :=
  reduceOption_outputs (fun state : RouterState => state.tenants.lookup tenantId)
    (lookup_step_visible tenantId) (answerFor_visible tenantId) ops

omit [Rounding] in
/-- A run and what is left of it when the operations addressed to other tenants are
deleted look the same to a tenant. -/
theorem filterMap_visible_eq {ops rest : List Op}
    (deleted : rest.map Op.withoutOrder =
      (ops.filter fun op => op.Reaches tenantId).map Op.withoutOrder) :
    rest.filterMap (Op.visible tenantId) = ops.filterMap (Op.visible tenantId) := by
  have reaches : ∀ op : Op, op.withoutOrder.Reaches tenantId ↔ op.Reaches tenantId := by
    intro op
    cases op <;> rfl
  have idem : ∀ op : Op, op.withoutOrder.withoutOrder = op.withoutOrder := by
    intro op
    cases op <;> rfl
  -- what is seen of an operation does not depend on the order it walks in
  have seen : ∀ list : List Op, list.filterMap (Op.visible tenantId) =
      (list.map Op.withoutOrder).filterMap (Op.visible tenantId) := by
    intro list
    rw [List.filterMap_map]
    refine List.filterMap_congr fun op _ => ?_
    simp only [Op.visible, Function.comp_apply, reaches, idem]
  rw [seen rest, deleted, ← seen, List.filterMap_filter]
  refine List.filterMap_congr fun op _ => ?_
  unfold Op.visible
  by_cases here : op.Reaches tenantId <;> simp [here]

/-- **Tenants do not interfere.**  Let `rest` be a run with the operations addressed to
tenants other than `A` deleted (and recovery probes walking in any order).  Then `A`
gets the same answers in both runs, and after every part of the run the health of
`A`'s nodes is what it is after the corresponding part of `rest`. -/
theorem answersFor_deleted {ops rest : List Op}
    (deleted : rest.map Op.withoutOrder =
      (ops.filter fun op => op.Reaches tenantId).map Op.withoutOrder) :
    answersFor tenantId rest = answersFor tenantId ops ∧
      ∀ before later, ops = before ++ later → ∀ nodeId,
        (after (rest.take (before.filter fun op => op.Reaches tenantId).length)).nodeState
            tenantId nodeId =
          (after before).nodeState tenantId nodeId := by
  constructor
  · rw [answersFor_eq, answersFor_eq, filterMap_visible_eq tenantId deleted]
  · rintro before later rfl nodeId
    have part : (rest.take (before.filter fun op => op.Reaches tenantId).length).map
        Op.withoutOrder =
          (before.filter fun op => op.Reaches tenantId).map Op.withoutOrder := by
      rw [List.map_take, deleted, List.filter_append, List.map_append]
      exact List.take_left' (List.length_map _)
    unfold nodeState
    rw [lookup_after, lookup_after, filterMap_visible_eq tenantId part]

omit [Rounding] in
/-- A run of two tenants. -/
theorem answersFor_deleted_two :
    letI := Rounding.exact
    answersFor "acme" [.addEdge "acme" (Edge.new "a" "b"), .route "acme" "a" "b"] =
      answersFor "acme" [.addEdge "acme" (Edge.new "a" "b"),
        .addEdge "other" (Edge.new "a" "b"), .recordResult "other" "b" false 0 0,
        .route "acme" "a" "b"] := by
  let _ := Rounding.exact
  have deleted : List.map Op.withoutOrder
      [.addEdge "acme" (Edge.new "a" "b"), .route "acme" "a" "b"] =
        (List.filter (fun op => op.Reaches "acme") [.addEdge "acme" (Edge.new "a" "b"),
          .addEdge "other" (Edge.new "a" "b"), .recordResult "other" "b" false 0 0,
          .route "acme" "a" "b"]).map Op.withoutOrder := rfl
  exact (answersFor_deleted "acme" deleted).1

end RouterState

end TrustRouter
