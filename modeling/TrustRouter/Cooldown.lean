import TrustRouter.AuditTrail

/-!
# Cooldowns

A tenant's health policy has a cooldown.  A recovery probe is given one of its own, the same
for all tenants, and never looks at the policy's.

What it does look at is right: `openedAt` of a tracker that is `Open` is the instant of the
result that opened it last (`openedAt_after`), so a probe moves exactly the nodes that have
been `Open` for as long as its argument says (`movesToHalfOpen_probe_iff`).  It honours the
cooldown of every tenant as long as none of these has been `Open` for less.
-/

namespace TrustRouter

namespace HealthTracker

/-- A probe moves a tracker that has been `Open` for long enough. -/
theorem transitionToHalfOpenIfReady_snd_iff {tracker : HealthTracker} {cooldown : Duration}
    {now : Instant} :
    (tracker.transitionToHalfOpenIfReady cooldown now).2 = true ↔
      tracker.state = .open ∧ ∃ time, tracker.openedAt = some time ∧ cooldown ≤ now - time := by
  unfold transitionToHalfOpenIfReady
  by_cases isOpen : tracker.state = .open
  · cases tracker.openedAt with
    | none => simp [isOpen]
    | some time =>
        by_cases early : now - time < cooldown
        · simp [isOpen, early, not_le.mpr early]
        · simp [isOpen, early, not_lt.mp early]
  · simp [isOpen]

variable [Rounding]

/-- A tracker that is `Open` after a result has been so since before, or is from now on. -/
theorem openedAt_recordResultWithPolicy {tracker : HealthTracker} {success : Bool}
    {latencyMs : ℕ} {policy : HealthPolicy} {now : Instant}
    (isOpen : (tracker.recordResultWithPolicy success latencyMs policy now).1.state = .open) :
    (tracker.state = .open ∧
      (tracker.recordResultWithPolicy success latencyMs policy now).1.openedAt =
        tracker.openedAt) ∨
    (tracker.state ≠ .open ∧
      (tracker.recordResultWithPolicy success latencyMs policy now).1.openedAt = some now) := by
  cases success with
  | true =>
      have before : (tracker.recordLatencySample latencyMs).state = .open :=
        onSuccess_state_open_iff.mp isOpen
      exact Or.inl ⟨before, onSuccess_openedAt before⟩
  | false =>
      by_cases before : (tracker.recordLatencySample latencyMs).state = .open
      · exact Or.inl ⟨before, onFailure_openedAt_of_open before⟩
      · exact Or.inr ⟨before, onFailure_openedAt isOpen before⟩

end HealthTracker

variable [Rounding]

namespace RouterState

/-- The operation makes the node `Open`. -/
def Opens (tenantId : TenantId) (nodeId : NodeId) (state : RouterState) (op : Op) : Prop :=
  state.nodeState tenantId nodeId ≠ some .open ∧
    (state.step op).nodeState tenantId nodeId = some .open

omit [Rounding] in
/-- The operation is a result recorded at the instant. -/
def RecordedAt (time : Instant) (op : Op) : Prop :=
  ∃ tenantId nodeId success latencyMs, op = .recordResult tenantId nodeId success latencyMs time

/-- The instant at which the node last became `Open`: a result has opened it then, and none has
opened it at another instant since. -/
def OpenedAt (ops : List Op) (tenantId : TenantId) (nodeId : NodeId) (time : Instant) : Prop :=
  LastBefore step (fun state op => Opens tenantId nodeId state op ∧ ¬ RecordedAt time op)
    (fun state op => Opens tenantId nodeId state op ∧ RecordedAt time op) default ops

variable {state : RouterState} {tenantId : TenantId} {nodeId : NodeId}

/-- A node is `Open` if and only if the tracker that its next result finds is; a node without
a tracker is not, and a new tracker is not either. -/
theorem nodeState_eq_open_iff :
    state.nodeState tenantId nodeId = some .open ↔
      (state.trackerOf tenantId nodeId).state = .open := by
  cases found : state.tenants.lookup tenantId with
  | none =>
      have place : state.tenants.getOrDefault tenantId = default := by
        rw [HashMap.getOrDefault, found, Option.getD_none]
      have fresh : (default : TenantState).health.getOrDefault nodeId = default := rfl
      rw [nodeState, found, trackerOf, place, fresh]
      simp [default]
  | some tenant =>
      have place : state.tenants.getOrDefault tenantId = tenant := by
        rw [HashMap.getOrDefault, found, Option.getD_some]
      rw [nodeState, found, Option.bind_some, trackerOf, place, TenantState.nodeState,
        HashMap.getOrDefault]
      cases tenant.health.lookup nodeId <;> simp [default]

/-- While a node stays `Open`, the instant at which it last became so stays the same. -/
theorem OpenedAt.concat {ops : List Op} {time : Instant} {op : Op}
    (opened : OpenedAt ops tenantId nodeId time)
    (before : (after ops).nodeState tenantId nodeId = some .open) :
    OpenedAt (ops ++ [op]) tenantId nodeId time :=
  lastBefore_concat_iff.mpr ⟨fun opens => opens.1.1 before, Or.inr opened⟩

/-- A result that opens a node is the last to do so. -/
theorem openedAt_concat {ops : List Op} {time : Instant} {op : Op}
    (opens : Opens tenantId nodeId (after ops) op) (recorded : RecordedAt time op) :
    OpenedAt (ops ++ [op]) tenantId nodeId time :=
  lastBefore_concat_iff.mpr ⟨fun other => other.2 recorded, Or.inl ⟨opens, recorded⟩⟩

omit [Rounding] in
theorem RecordedAt.unique {op : Op} {time time' : Instant} (recorded : RecordedAt time op)
    (recorded' : RecordedAt time' op) : time = time' := by
  obtain ⟨_, _, _, _, rfl⟩ := recorded
  obtain ⟨_, _, _, _, same⟩ := recorded'
  cases same
  rfl

/-- There is only one such instant. -/
theorem OpenedAt.unique {ops : List Op} {time time' : Instant}
    (opened : OpenedAt ops tenantId nodeId time) (opened' : OpenedAt ops tenantId nodeId time') :
    time = time' := by
  by_contra ne
  -- what opens the node at one of the instants does not open it at the other
  have first : LastBefore step
      (fun state op => Opens tenantId nodeId state op ∧ RecordedAt time' op)
      (fun state op => Opens tenantId nodeId state op ∧ RecordedAt time op) default ops :=
    opened.weaken fun _ _ opens => ⟨opens.1, fun recorded => ne (recorded.unique opens.2)⟩
  have second : LastBefore step
      (fun state op => Opens tenantId nodeId state op ∧ RecordedAt time op)
      (fun state op => Opens tenantId nodeId state op ∧ RecordedAt time' op) default ops :=
    opened'.weaken fun _ _ opens => ⟨opens.1, fun recorded => ne (opens.2.unique recorded)⟩
  exact first.not_lastBefore second

/-- **A tracker that is `Open` knows since when.** -/
theorem openedAt_after (ops : List Op)
    (isOpen : (after ops).nodeState tenantId nodeId = some .open) :
    ∃ time, ((after ops).trackerOf tenantId nodeId).openedAt = some time ∧
      OpenedAt ops tenantId nodeId time := by
  induction ops using List.reverseRecOn with
  | nil => cases isOpen
  | append_singleton ops op ih =>
      rw [after, run_concat] at isOpen ⊢
      have isOpen' := nodeState_eq_open_iff.mp isOpen
      -- a tracker that was `Open` before and is left alone has kept its instant
      have kept : (after ops).nodeState tenantId nodeId = some .open →
          (((after ops).step op).trackerOf tenantId nodeId).openedAt =
            ((after ops).trackerOf tenantId nodeId).openedAt →
          ∃ time, (((after ops).step op).trackerOf tenantId nodeId).openedAt = some time ∧
            OpenedAt (ops ++ [op]) tenantId nodeId time := by
        intro before same
        obtain ⟨time, openedAt, opened⟩ := ih before
        exact ⟨time, same.trans openedAt, opened.concat before⟩
      rcases getOrDefault_step (after ops) op tenantId with unchanged | ⟨-, applied⟩
      · have same : ((after ops).step op).trackerOf tenantId nodeId =
            (after ops).trackerOf tenantId nodeId := by rw [trackerOf, unchanged, trackerOf]
        exact kept (nodeState_eq_open_iff.mpr (same ▸ isOpen')) (by rw [same])
      have tracker : ((after ops).step op).trackerOf tenantId nodeId =
          (((after ops).tenants.getOrDefault tenantId).apply op).health.getOrDefault nodeId := by
        rw [trackerOf, applied]
      rcases ((after ops).tenants.getOrDefault tenantId).tracker_apply_cases op nodeId with
        same | ⟨tenantId', success, latencyMs, now, rfl, result⟩ | ⟨-, moved⟩
      · have same : ((after ops).step op).trackerOf tenantId nodeId =
            (after ops).trackerOf tenantId nodeId := tracker.trans same
        exact kept (nodeState_eq_open_iff.mpr (same ▸ isOpen')) (congrArg _ same)
      · have result := tracker.trans result
        rw [result] at isOpen'
        rcases HealthTracker.openedAt_recordResultWithPolicy isOpen' with
          ⟨before, same⟩ | ⟨before, opened⟩
        · exact kept (nodeState_eq_open_iff.mpr before) ((congrArg _ result).trans same)
        · have opens : Opens tenantId nodeId (after ops)
              (.recordResult tenantId' nodeId success latencyMs now) :=
            ⟨fun was => before (nodeState_eq_open_iff.mp was), isOpen⟩
          exact ⟨now, (congrArg _ result).trans opened, openedAt_concat opens ⟨_, _, _, _, rfl⟩⟩
      · rw [tracker, moved] at isOpen'
        cases isOpen'

/-! ### Probes -/

/-- **What a probe moves.**  It moves a node if and only if the node has been `Open` for as long
as the probe's argument says. -/
theorem movesToHalfOpen_probe_iff (ops : List Op) (cooldown : Duration) (now : Instant)
    (order : IterationOrder (TenantId × NodeId)) :
    MovesToHalfOpen (after ops) ((after ops).runRecoveryProbeOnce cooldown now order).state
        tenantId nodeId ↔
      (after ops).nodeState tenantId nodeId = some .open ∧
        ∀ time, OpenedAt ops tenantId nodeId time → cooldown ≤ now - time := by
  rw [movesToHalfOpen_runRecoveryProbeOnce, mem_readyNodes]
  constructor
  · rintro ⟨tenant, found, mem⟩
    obtain ⟨tracker, tracked, moved⟩ := HashMap.mem_keysWhere.mp mem
    obtain ⟨isOpen, time, openedAt, enough⟩ :=
      HealthTracker.transitionToHalfOpenIfReady_snd_iff.mp moved
    have here : (after ops).trackerOf tenantId nodeId = tracker := by
      simp [trackerOf, HashMap.getOrDefault, found, tracked]
    have isOpen' := nodeState_eq_open_iff.mpr (here ▸ isOpen)
    refine ⟨isOpen', fun time' opened' => ?_⟩
    obtain ⟨time'', openedAt', opened''⟩ := openedAt_after ops isOpen'
    rw [here, openedAt] at openedAt'
    obtain rfl := Option.some.inj openedAt'
    exact opened'.unique opened'' ▸ enough
  · rintro ⟨isOpen, enough⟩
    obtain ⟨time, openedAt, opened⟩ := openedAt_after ops isOpen
    obtain ⟨tenant, found, tracked⟩ := Option.bind_eq_some_iff.mp isOpen
    obtain ⟨tracker, tracked, isOpen⟩ := Option.map_eq_some_iff.mp tracked
    have here : (after ops).trackerOf tenantId nodeId = tracker := by
      simp [trackerOf, HashMap.getOrDefault, found, tracked]
    rw [here] at openedAt
    exact ⟨tenant, found, HashMap.mem_keysWhere.mpr ⟨tracker, tracked,
      HealthTracker.transitionToHalfOpenIfReady_snd_iff.mpr
        ⟨isOpen, time, openedAt, enough time opened⟩⟩⟩

/-- What holds of every probe of a run, given the run before it. -/
def EveryProbe (ops : List Op)
    (P : List Op → Duration → Instant → IterationOrder (TenantId × NodeId) → Prop) : Prop :=
  ∀ before cooldown now order later,
    ops = before ++ .runRecoveryProbeOnce cooldown now order :: later →
      P before cooldown now order

/-- The probe moves no node that has been `Open` for less than the cooldown of its tenant. -/
def HonoursCooldown (ops : List Op) (cooldown : Duration) (now : Instant)
    (order : IterationOrder (TenantId × NodeId)) : Prop :=
  ∀ tenantId tenant nodeId time, (after ops).tenants.lookup tenantId = some tenant →
    OpenedAt ops tenantId nodeId time →
    MovesToHalfOpen (after ops) ((after ops).runRecoveryProbeOnce cooldown now order).state
      tenantId nodeId →
    tenant.healthPolicy.cooldown ≤ now - time

/-- A probe finds a node that has been `Open` for as long as its argument says, and for less
than the cooldown of the tenant. -/
def FindsTooEarly (ops : List Op) (cooldown : Duration) (now : Instant) : Prop :=
  ∃ tenantId tenant nodeId time, (after ops).tenants.lookup tenantId = some tenant ∧
    (after ops).nodeState tenantId nodeId = some .open ∧ OpenedAt ops tenantId nodeId time ∧
    cooldown ≤ now - time ∧ now - time < tenant.healthPolicy.cooldown

theorem honoursCooldown_iff (ops : List Op) (cooldown : Duration) (now : Instant)
    (order : IterationOrder (TenantId × NodeId)) :
    HonoursCooldown ops cooldown now order ↔ ¬ FindsTooEarly ops cooldown now := by
  constructor
  · rintro honours ⟨tenantId, tenant, nodeId, time, found, isOpen, opened, enough, early⟩
    refine absurd (honours tenantId tenant nodeId time found opened ?_) (not_le.mpr early)
    exact (movesToHalfOpen_probe_iff ops cooldown now order).mpr
      ⟨isOpen, fun time' opened' => opened.unique opened' ▸ enough⟩
  · intro none_ tenantId tenant nodeId time found opened moves
    obtain ⟨isOpen, enough⟩ := (movesToHalfOpen_probe_iff ops cooldown now order).mp moves
    exact not_lt.mp fun early =>
      none_ ⟨tenantId, tenant, nodeId, time, found, isOpen, opened, enough time opened, early⟩

/-- **Probes and cooldowns.**  In a run every probe honours the cooldown of every tenant if and
only if no probe finds a node that has been `Open` for as long as its argument says, and for
less than the cooldown of the tenant. -/
theorem everyProbe_honoursCooldown_iff (ops : List Op) :
    EveryProbe ops HonoursCooldown ↔
      EveryProbe ops fun before cooldown now _ => ¬ FindsTooEarly before cooldown now := by
  unfold EveryProbe
  simp only [honoursCooldown_iff]

/-- So a probe whose argument is at least every tenant's cooldown always does. -/
theorem honoursCooldown_of_le {ops : List Op} {cooldown : Duration} (now : Instant)
    (order : IterationOrder (TenantId × NodeId))
    (longest : ∀ tenantId tenant, (after ops).tenants.lookup tenantId = some tenant →
      tenant.healthPolicy.cooldown ≤ cooldown) : HonoursCooldown ops cooldown now order := by
  refine (honoursCooldown_iff ops cooldown now order).mpr ?_
  rintro ⟨tenantId, tenant, nodeId, time, found, -, -, enough, early⟩
  exact absurd (enough.trans_lt early) (not_lt.mpr (longest tenantId tenant found))

omit [Rounding] in
/-- A tenant asks for a minute, and the probe with the default cooldown moves its node after
thirty seconds. -/
theorem not_everyProbe_honoursCooldown :
    letI := Rounding.exact
    let policy : HealthPolicy := { (default : HealthPolicy) with cooldown := 60 * 10 ^ 9 }
    let ops := .trySetHealthPolicy "acme" policy ::
      List.replicate 5 (.recordResult "acme" "n" false 0 0)
    ¬ EveryProbe (ops ++ [.runRecoveryProbeOnce defaultCooldown defaultCooldown default])
      HonoursCooldown := by
  let _ := Rounding.exact
  intro policy ops every
  have honours := every ops defaultCooldown defaultCooldown default [] rfl
  have moves : MovesToHalfOpen (after ops)
      ((after ops).runRecoveryProbeOnce defaultCooldown defaultCooldown default).state
      "acme" "n" := by decide +kernel
  have present : ((after ops).tenants.lookup "acme") ≠ none :=
    Option.isSome_iff_ne_none.mp (by decide +kernel)
  have found := (Option.getD_of_ne_none present default).symm
  have cooldown : (((after ops).tenants.lookup "acme").getD default).healthPolicy.cooldown =
      60 * 10 ^ 9 := by decide +kernel
  obtain ⟨time, -, opened⟩ := openedAt_after ops moves.1
  have kept := honours "acme" _ "n" time found opened moves
  rw [cooldown] at kept
  exact absurd (kept.trans (Nat.sub_le _ _)) (by decide)

end RouterState

end TrustRouter
