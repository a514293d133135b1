import TrustRouter.Cooldown

/-!
# Bringing a node back

An `Open` node is never stuck.  A tracker that is `Open` knows since when (`openedAt_after`),
so a probe late enough moves it to `HalfOpen`, and whatever the history, it starts there with
its success counter at zero.  From then on the node is on trial (`OnTrial`): as long as all
its results are successes, the counter counts them, and the last one that is needed makes it
`Healthy` (`recoverable`).
-/

namespace TrustRouter

variable [Rounding]

namespace HealthTracker

variable {tracker : HealthTracker} {policy : HealthPolicy}

/-- A success takes a half-open tracker to `Healthy` exactly when there have been enough. -/
theorem onSuccess_state_of_halfOpen (halfOpen : tracker.state = .halfOpen) :
    (tracker.onSuccess policy).state =
      if policy.halfOpenSuccessNeeded ≤ tracker.consecutiveSuccesses + 1 then .healthy
      else .halfOpen := by
  unfold onSuccess
  simp only [halfOpen]
  split_ifs <;> rfl

theorem onSuccess_state_of_healthy (healthy : tracker.state = .healthy) :
    (tracker.onSuccess policy).state = .healthy := by
  rcases tracker.onSuccess_state_cases policy with same | ⟨becomes, -⟩
  · exact same.trans healthy
  · exact becomes

end HealthTracker

namespace Op

omit [Rounding] in
/-- The operation records a success of the node. -/
def succeeds (tenantId : TenantId) (nodeId : NodeId) : Op → Bool
  | .recordResult tenantId' nodeId' success _ _ =>
      tenantId' = tenantId && nodeId' = nodeId && success
  | _ => false

omit [Rounding] in
/-- The operation records no result of the node and does not set its tenant's health policy. -/
def spares (tenantId : TenantId) (nodeId : NodeId) : Op → Bool
  | .recordResult tenantId' nodeId' _ _ _ => !(tenantId' = tenantId && nodeId' = nodeId)
  | .trySetHealthPolicy tenantId' _ => tenantId' ≠ tenantId
  | _ => true

end Op

namespace RouterState

variable {state : RouterState} {tenantId : TenantId} {nodeId : NodeId}

/-- Every tenant judges by a valid policy. -/
theorem healthPolicy_valid (ops : List Op) (tenantId : TenantId) :
    ((after ops).tenants.getOrDefault tenantId).healthPolicy.validate = .ok () := by
  have start : ((default : RouterState).tenants.getOrDefault tenantId).healthPolicy.validate =
      .ok () := HealthPolicy.validate_default
  refine run_induction (P := fun state : RouterState =>
    (state.tenants.getOrDefault tenantId).healthPolicy.validate = .ok ()) start
    (fun state op valid => ?_) ops
  rcases state.getOrDefault_step op tenantId with same | ⟨-, applied⟩
  · rwa [same]
  · rw [applied]
    rcases (state.tenants.getOrDefault tenantId).healthPolicy_apply op with
      kept | ⟨-, policy, -, checked, given⟩
    · rwa [kept]
    · rwa [given]

/-- The state of a node that has a tracker. -/
theorem nodeState_eq_some_trackerOf (tracked : (state.nodeState tenantId nodeId).isSome) :
    state.nodeState tenantId nodeId = some (state.trackerOf tenantId nodeId).state := by
  obtain ⟨nodeState, known⟩ := Option.isSome_iff_exists.mp tracked
  obtain ⟨tenant, found, known'⟩ := Option.bind_eq_some_iff.mp known
  obtain ⟨tracker, tracker_found, rfl⟩ := Option.map_eq_some_iff.mp known'
  simp [known, trackerOf, HashMap.getOrDefault, found, tracker_found]

/-- A node that has a tracker keeps one. -/
theorem isSome_nodeState_step (op : Op) (tracked : (state.nodeState tenantId nodeId).isSome) :
    ((state.step op).nodeState tenantId nodeId).isSome := by
  rw [nodeState_step, Option.isSome_or, tracked, Bool.or_true]

/-- The node has come to `HalfOpen`, and since then its results have been so many successes. -/
structure OnTrial (state : RouterState) (tenantId : TenantId) (nodeId : NodeId)
    (policy : HealthPolicy) (successes : ℕ) : Prop where
  tracked : (state.nodeState tenantId nodeId).isSome
  judged : (state.tenants.getOrDefault tenantId).healthPolicy = policy
  tracker :
    (successes < policy.halfOpenSuccessNeeded.toNat ∧
      (state.trackerOf tenantId nodeId).state = .halfOpen ∧
      (state.trackerOf tenantId nodeId).consecutiveSuccesses.toNat = successes) ∨
    policy.halfOpenSuccessNeeded.toNat ≤ successes ∧
      (state.trackerOf tenantId nodeId).state = .healthy

namespace OnTrial

variable {policy : HealthPolicy} {successes : ℕ} {op : Op}

theorem nodeState (onTrial : state.OnTrial tenantId nodeId policy successes) :
    state.nodeState tenantId nodeId =
      some (if successes < policy.halfOpenSuccessNeeded.toNat then .halfOpen else .healthy) := by
  rw [nodeState_eq_some_trackerOf onTrial.tracked]
  rcases onTrial.tracker with ⟨few, halfOpen, -⟩ | ⟨enough, healthy⟩
  · rw [if_pos few, halfOpen]
  · rw [if_neg (not_lt.mpr enough), healthy]

theorem closed (onTrial : state.OnTrial tenantId nodeId policy successes) :
    (state.trackerOf tenantId nodeId).state ≠ .open := by
  rcases onTrial.tracker with ⟨-, halfOpen, -⟩ | ⟨-, healthy⟩
  · simp [halfOpen]
  · simp [healthy]

/-- What spares the node changes nothing. -/
theorem step_of_spares (onTrial : state.OnTrial tenantId nodeId policy successes)
    (spares : op.spares tenantId nodeId = true) :
    (state.step op).OnTrial tenantId nodeId policy successes := by
  have tracked := isSome_nodeState_step op onTrial.tracked
  rcases state.getOrDefault_step op tenantId with same | ⟨reaches, applied⟩
  · refine ⟨tracked, by rw [same, onTrial.judged], ?_⟩
    rw [trackerOf, same]
    exact onTrial.tracker
  have tracker : (state.step op).trackerOf tenantId nodeId = state.trackerOf tenantId nodeId := by
    rw [trackerOf, applied]
    refine TenantState.tracker_apply _ ?_ onTrial.closed
    rintro tenantId' success latencyMs now rfl
    obtain rfl : tenantId = tenantId' := (Op.reaches_iff rfl tenantId).mp reaches
    simp [Op.spares] at spares
  refine ⟨tracked, ?_, by rw [tracker]; exact onTrial.tracker⟩
  rw [applied]
  rcases (state.tenants.getOrDefault tenantId).healthPolicy_apply op with
    kept | ⟨tenantId', _, rfl, -, -⟩
  · rw [kept, onTrial.judged]
  · obtain rfl : tenantId = tenantId' := (Op.reaches_iff rfl tenantId).mp reaches
    simp [Op.spares] at spares

/-- A success is counted. -/
theorem step_of_succeeds (onTrial : state.OnTrial tenantId nodeId policy successes)
    (succeeds : op.succeeds tenantId nodeId = true) :
    (state.step op).OnTrial tenantId nodeId policy (successes + 1) := by
  obtain ⟨latencyMs, now, rfl⟩ :
      ∃ latencyMs now, op = .recordResult tenantId nodeId true latencyMs now := by
    cases op <;> simp_all [Op.succeeds]
  have tracked := isSome_nodeState_step (.recordResult tenantId nodeId true latencyMs now)
    onTrial.tracked
  have kept : ((state.step (.recordResult tenantId nodeId true latencyMs now)).tenants.getOrDefault
      tenantId).healthPolicy = policy := by
    rcases state.getOrDefault_step (.recordResult tenantId nodeId true latencyMs now) tenantId with
      same | ⟨-, applied⟩
    · rw [same, onTrial.judged]
    · rw [applied, TenantState.apply, TenantState.recordResult_healthPolicy, onTrial.judged]
  have recorded := state.trackerOf_recordResult tenantId nodeId true latencyMs now
  rw [onTrial.judged] at recorded
  have recorded : (state.step (.recordResult tenantId nodeId true latencyMs now)).trackerOf tenantId
      nodeId = ((state.trackerOf tenantId nodeId).recordLatencySample latencyMs).onSuccess policy :=
    recorded
  refine ⟨tracked, kept, ?_⟩
  rw [recorded]
  rcases onTrial.tracker with ⟨few, halfOpen, counted⟩ | ⟨enough, healthy⟩
  · -- the counter is below what is needed, so it does not wrap around
    have bound := policy.halfOpenSuccessNeeded.toNat_lt
    have next : ((state.trackerOf tenantId nodeId).consecutiveSuccesses + 1).toNat =
        successes + 1 := by
      rw [UInt32.toNat_add, counted, UInt32.toNat_one]
      exact Nat.mod_eq_of_lt (by omega)
    have sampled : ((state.trackerOf tenantId nodeId).recordLatencySample latencyMs).state =
        .halfOpen := halfOpen
    rw [HealthTracker.onSuccess_state_of_halfOpen sampled,
      HealthTracker.onSuccess_consecutiveSuccesses,
      HealthTracker.recordLatencySample_consecutiveSuccesses, next]
    split_ifs with enough
    · exact Or.inr ⟨next ▸ UInt32.le_iff_toNat_le.mp enough, rfl⟩
    · refine Or.inl ⟨not_le.mp fun le => enough ?_, rfl, rfl⟩
      rwa [UInt32.le_iff_toNat_le, next]
  · exact Or.inr ⟨Nat.le_succ_of_le enough, HealthTracker.onSuccess_state_of_healthy healthy⟩

/-- Successes are counted, whatever else happens that spares the node. -/
theorem run (onTrial : state.OnTrial tenantId nodeId policy 0) {later : List Op}
    (undisturbed : ∀ op ∈ later, op.succeeds tenantId nodeId = true ∨
      op.spares tenantId nodeId = true) :
    (TrustRouter.run RouterState.step state later).OnTrial tenantId nodeId policy
      (later.countP (·.succeeds tenantId nodeId)) := by
  induction later using List.reverseRecOn with
  | nil => exact onTrial
  | append_singleton later op ih =>
      have before := ih fun op mem => undisturbed op (List.mem_append_left _ mem)
      rw [run_concat, List.countP_append, List.countP_singleton]
      by_cases succeeds : op.succeeds tenantId nodeId = true
      · rw [if_pos succeeds]
        exact before.step_of_succeeds succeeds
      · rw [if_neg succeeds]
        exact before.step_of_spares
          ((undisturbed op (List.mem_append_right _ List.mem_cons_self)).resolve_left succeeds)

end OnTrial

/-- A node that is moved to `HalfOpen` is on trial, with no successes yet. -/
theorem onTrial_of_moves {op : Op}
    (valid : (state.tenants.getOrDefault tenantId).healthPolicy.validate = .ok ())
    (spares : op.spares tenantId nodeId = true)
    (moves : MovesToHalfOpen state (state.step op) tenantId nodeId) :
    (state.step op).OnTrial tenantId nodeId
      (state.tenants.getOrDefault tenantId).healthPolicy 0 := by
  have tracked : ((state.step op).nodeState tenantId nodeId).isSome := by simp [moves.2]
  have wasOpen := nodeState_eq_open_iff.mp moves.1
  have isHalfOpen : ((state.step op).trackerOf tenantId nodeId).state = .halfOpen :=
    Option.some.inj ((nodeState_eq_some_trackerOf tracked).symm.trans moves.2)
  have needed :
      0 < (state.tenants.getOrDefault tenantId).healthPolicy.halfOpenSuccessNeeded.toNat := by
    obtain ⟨-, -, -, some, -, -⟩ := HealthPolicy.validate_eq_ok_iff.mp valid
    exact Nat.pos_of_ne_zero fun zero => some (UInt32.toNat_inj.mp zero)
  rcases state.getOrDefault_step op tenantId with same | ⟨reaches, applied⟩
  · rw [trackerOf, same, ← trackerOf, wasOpen] at isHalfOpen
    cases isHalfOpen
  refine ⟨tracked, ?_, Or.inl ⟨needed, isHalfOpen, ?_⟩⟩
  · rw [applied]
    rcases (state.tenants.getOrDefault tenantId).healthPolicy_apply op with
      kept | ⟨tenantId', _, rfl, -, -⟩
    · exact kept
    · obtain rfl : tenantId = tenantId' := (Op.reaches_iff rfl tenantId).mp reaches
      simp [Op.spares] at spares
  · rw [trackerOf, applied] at isHalfOpen ⊢
    rcases (state.tenants.getOrDefault tenantId).tracker_apply_cases op nodeId with
      stays | ⟨tenantId', _, _, _, rfl, -⟩ | ⟨-, moved⟩
    · rw [stays, ← trackerOf, wasOpen] at isHalfOpen
      cases isHalfOpen
    · obtain rfl : tenantId = tenantId' := (Op.reaches_iff rfl tenantId).mp reaches
      simp [Op.spares] at spares
    · rw [moved]
      rfl

/-- **Bringing a node back.**  After any operations, a probe that comes at least its argument
after an `Open` node last became so moves the node to `HalfOpen`.  Whatever happens from then
on, as long as no result of the node is a failure and its tenant's policy stays the same, the
node is `HalfOpen` until it has had the successes it needs, and then it is `Healthy`. -/
theorem recoverable (ops : List Op) (tenantId : TenantId) (nodeId : NodeId)
    (isOpen : (after ops).nodeState tenantId nodeId = some .open) (cooldown : Duration)
    (now : Instant) (order : IterationOrder (TenantId × NodeId))
    (late : ∀ time, OpenedAt ops tenantId nodeId time → time + cooldown ≤ now) :
    let probed := (after ops).step (.runRecoveryProbeOnce cooldown now order)
    let needed := ((after ops).tenants.getOrDefault tenantId).healthPolicy.halfOpenSuccessNeeded
    probed.nodeState tenantId nodeId = some .halfOpen ∧
      ∀ later : List Op, (∀ op ∈ later, op.succeeds tenantId nodeId = true ∨
          op.spares tenantId nodeId = true) →
        (run step probed later).nodeState tenantId nodeId =
          some (if later.countP (·.succeeds tenantId nodeId) < needed.toNat then .halfOpen
            else .healthy) := by
  intro probed needed
  have moves : MovesToHalfOpen (after ops) probed tenantId nodeId :=
    (movesToHalfOpen_probe_iff ops cooldown now order).mpr
      ⟨isOpen, fun time opened => Nat.le_sub_of_add_le' (late time opened)⟩
  refine ⟨moves.2, fun later undisturbed => ?_⟩
  exact ((onTrial_of_moves (healthPolicy_valid ops tenantId) rfl moves).run undisturbed).nodeState

omit [Rounding] in
/-- Five failures, a probe as late as its argument says, and three successes. -/
theorem recoverable_default :
    letI := Rounding.exact
    let ops := List.replicate 5 (Op.recordResult "acme" "n" false 0 0)
    (run step ((after ops).step (.runRecoveryProbeOnce 30 30 default))
      (List.replicate 3 (.recordResult "acme" "n" true 0 31))).nodeState "acme" "n" =
        some .healthy := by
  let _ := Rounding.exact
  intro ops
  have isOpen : (after ops).nodeState "acme" "n" = some .open := by decide +kernel
  have late : ∀ time, OpenedAt ops "acme" "n" time → time + 30 ≤ 30 := by
    intro time opened
    obtain ⟨time', openedAt, opened'⟩ := openedAt_after ops isOpen
    have atZero : ((after ops).trackerOf "acme" "n").openedAt = some 0 := by decide +kernel
    obtain rfl := Option.some.inj (atZero.symm.trans openedAt)
    rw [opened.unique opened']
  have recovers := (recoverable ops "acme" "n" isOpen 30 30 default late).2
    (List.replicate 3 (.recordResult "acme" "n" true 0 31)) (by decide)
  rw [recovers]
  decide +kernel

end RouterState

end TrustRouter
