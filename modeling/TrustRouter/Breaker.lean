import TrustRouter.HealthRuns

/-!
# The representation of a circuit breaker

What a tracker keeps besides its state is tied to it: at most one of the two counters runs,
the noted instant is there for an `Open` circuit and gone for a `Healthy` one, and no counter
has reached the threshold at which it would have left the state (`Coherent`).  Under a valid
policy every result and every move to half-open keeps these ties, whatever the rounding.

The counters may wrap around.  A success that leaves the state alone has just been found
below the threshold of the state, and a failure that does so below both of its own, so the
ties do not rest on what was counted before.

In exact arithmetic the success rate never leaves the unit interval (`RateBounded`), and the
penalty is a number that is not negative, or infinite.
-/

namespace TrustRouter

namespace HealthTracker

/-! ### What a result does -/

section

variable [Rounding]

/-- The tracker after the counting of a success, before its state is looked at. -/
def countSuccess (tracker : HealthTracker) : HealthTracker :=
  { tracker with
    consecutiveSuccesses := tracker.consecutiveSuccesses + 1
    consecutiveFailures := 0
    successRate := (tracker.successRate * F64.finite 9 + F64.finite 1) / F64.finite 10 }

/-- A success makes a tracker `Healthy`, or it was not enough for that. -/
theorem onSuccess_cases (tracker : HealthTracker) (policy : HealthPolicy) :
    tracker.onSuccess policy =
        { tracker.countSuccess with state := .healthy, openedAt := none } ∨
      tracker.onSuccess policy = tracker.countSuccess ∧
        (tracker.state = .halfOpen →
          tracker.consecutiveSuccesses + 1 < policy.halfOpenSuccessNeeded) ∧
        (tracker.state = .degraded →
          tracker.consecutiveSuccesses + 1 < policy.degradedSuccessNeeded) := by
  unfold onSuccess countSuccess
  cases state : tracker.state with
  | halfOpen =>
      dsimp only
      split_ifs with enough
      · exact .inl rfl
      · exact .inr ⟨rfl, fun _ => UInt32.not_le.mp enough, by simp⟩
  | degraded =>
      dsimp only
      split_ifs with enough
      · exact .inl rfl
      · exact .inr ⟨rfl, by simp, fun _ => UInt32.not_le.mp enough⟩
  | healthy | «open» => exact .inr ⟨rfl, by simp, by simp⟩

/-- The tracker after a failure, but for the instant that is noted. -/
def countFailure (tracker : HealthTracker) (policy : HealthPolicy) : HealthTracker :=
  { tracker with
    consecutiveFailures := tracker.consecutiveFailures + 1
    consecutiveSuccesses := 0
    successRate := tracker.successRate * F64.finite 9 / F64.finite 10
    state := failureState policy (tracker.consecutiveFailures + 1) tracker.state }

/-- A failure that opens a tracker notes when, and no other does. -/
theorem onFailure_cases (tracker : HealthTracker) (policy : HealthPolicy) (now : Instant) :
    (tracker.countFailure policy).state = .open ∧
        tracker.onFailure policy now = { tracker.countFailure policy with openedAt := some now } ∨
      ((tracker.countFailure policy).state = .open → tracker.state = .open) ∧
        tracker.onFailure policy now = tracker.countFailure policy := by
  by_cases opens : (tracker.countFailure policy).state = .open ∧ tracker.state ≠ .open
  · exact .inl ⟨opens.1, if_pos opens⟩
  · exact .inr ⟨fun isOpen => not_not.mp fun closed => opens ⟨isOpen, closed⟩, if_neg opens⟩

end

/-- Where a failure leaves the state below the thresholds. -/
theorem lt_of_failureState (policy : HealthPolicy) (failures : UInt32) (state : NodeState) :
    (failureState policy failures state = .healthy →
      failures < policy.degradedThreshold ∧ state = .healthy) ∧
    (failureState policy failures state = .degraded → failures < policy.openThreshold) := by
  unfold failureState
  split_ifs with opens degrades
  · simp
  · simp [UInt32.not_le.mp opens]
  · simp [UInt32.not_le.mp opens, UInt32.not_le.mp degrades]

/-! ### Coherence -/

/-- What a tracker keeps fits its state. -/
structure Coherent (policy : HealthPolicy) (tracker : HealthTracker) : Prop where
  oneCounter : tracker.consecutiveFailures = 0 ∨ tracker.consecutiveSuccesses = 0
  openedAt_open : tracker.state = .open → tracker.openedAt.isSome
  openedAt_healthy : tracker.state = .healthy → tracker.openedAt = none
  failures_healthy : tracker.state = .healthy →
    tracker.consecutiveFailures < policy.degradedThreshold
  failures_degraded : tracker.state = .degraded →
    tracker.consecutiveFailures < policy.openThreshold
  successes_degraded : tracker.state = .degraded →
    tracker.consecutiveSuccesses < policy.degradedSuccessNeeded
  successes_halfOpen : tracker.state = .halfOpen →
    tracker.consecutiveSuccesses < policy.halfOpenSuccessNeeded
  samples : tracker.latencySamples.length ≤ latencySampleLimit

variable {policy : HealthPolicy} {tracker : HealthTracker}

/-- The thresholds of a valid policy are above a counter at zero. -/
structure Positive (policy : HealthPolicy) : Prop where
  degraded : 0 < policy.degradedThreshold
  «open» : 0 < policy.openThreshold
  degradedSuccess : 0 < policy.degradedSuccessNeeded
  halfOpenSuccess : 0 < policy.halfOpenSuccessNeeded

theorem positive_of_validate (valid : policy.validate = .ok ()) : Positive policy := by
  obtain ⟨degraded, opened, -, halfOpen, success, -⟩ := HealthPolicy.validate_eq_ok_iff.mp valid
  exact ⟨UInt32.pos_iff_ne_zero.mpr degraded, UInt32.pos_iff_ne_zero.mpr opened,
    UInt32.pos_iff_ne_zero.mpr success, UInt32.pos_iff_ne_zero.mpr halfOpen⟩

theorem coherent_default (positive : Positive policy) : Coherent policy default where
  oneCounter := .inl rfl
  openedAt_open := nofun
  openedAt_healthy _ := rfl
  failures_healthy _ := positive.degraded
  failures_degraded := nofun
  successes_degraded := nofun
  successes_halfOpen := nofun
  samples := Nat.zero_le _

/-- A move to half-open. -/
theorem Coherent.halfOpen (positive : Positive policy) (coherent : Coherent policy tracker) :
    Coherent policy { tracker with state := .halfOpen, consecutiveSuccesses := 0 } where
  oneCounter := .inr rfl
  openedAt_open := nofun
  openedAt_healthy := nofun
  failures_healthy := nofun
  failures_degraded := nofun
  successes_degraded := nofun
  successes_halfOpen _ := positive.halfOpenSuccess
  samples := coherent.samples

variable [Rounding]

theorem Coherent.recordLatencySample (coherent : Coherent policy tracker) (latencyMs : ℕ) :
    Coherent policy (tracker.recordLatencySample latencyMs) :=
  { coherent with samples := Ring.length_push_le (by decide) coherent.samples latencyMs }

theorem Coherent.onSuccess (positive : Positive policy) (coherent : Coherent policy tracker) :
    Coherent policy (tracker.onSuccess policy) := by
  rcases tracker.onSuccess_cases policy with eq | ⟨eq, halfOpen, degraded⟩ <;> rw [eq]
  · exact
    { oneCounter := .inl rfl
      openedAt_open := nofun
      openedAt_healthy := fun _ => rfl
      failures_healthy := fun _ => positive.degraded
      failures_degraded := nofun
      successes_degraded := nofun
      successes_halfOpen := nofun
      samples := coherent.samples }
  · exact
    { oneCounter := .inl rfl
      openedAt_open := coherent.openedAt_open
      openedAt_healthy := coherent.openedAt_healthy
      failures_healthy := fun _ => positive.degraded
      failures_degraded := fun _ => positive.open
      successes_degraded := degraded
      successes_halfOpen := halfOpen
      samples := coherent.samples }

/-- A failure keeps all ties but those of the noted instant. -/
theorem Coherent.countFailure (positive : Positive policy) (coherent : Coherent policy tracker)
    {openedAt : Option Instant}
    (noted : (tracker.countFailure policy).state = .open → openedAt.isSome)
    (cleared : (tracker.countFailure policy).state = .healthy → openedAt = none) :
    Coherent policy { tracker.countFailure policy with openedAt := openedAt } := by
  obtain ⟨healthy, degraded⟩ :=
    lt_of_failureState policy (tracker.consecutiveFailures + 1) tracker.state
  exact
  { oneCounter := .inr rfl
    openedAt_open := noted
    openedAt_healthy := cleared
    failures_healthy := fun same => (healthy same).1
    failures_degraded := degraded
    successes_degraded := fun _ => positive.degradedSuccess
    successes_halfOpen := fun _ => positive.halfOpenSuccess
    samples := coherent.samples }

theorem Coherent.onFailure (positive : Positive policy) (coherent : Coherent policy tracker)
    (now : Instant) : Coherent policy (tracker.onFailure policy now) := by
  rcases tracker.onFailure_cases policy now with ⟨opens, eq⟩ | ⟨stays, eq⟩ <;> rw [eq]
  · refine coherent.countFailure positive (fun _ => rfl) fun same => ?_
    cases opens.symm.trans same
  · -- the instant is that of the tracker, whose state it fits
    refine coherent.countFailure positive (fun isOpen => coherent.openedAt_open (stays isOpen))
      fun same => coherent.openedAt_healthy ?_
    exact ((lt_of_failureState policy (tracker.consecutiveFailures + 1) tracker.state).1 same).2

theorem Coherent.step (positive : Positive policy) (coherent : Coherent policy tracker)
    (input : HealthStep) : Coherent policy (tracker.step policy input) := by
  cases input with
  | recordResult success latencyMs now =>
      have sampled := coherent.recordLatencySample latencyMs
      cases success with
      | true => exact sampled.onSuccess positive
      | false => exact sampled.onFailure positive now
  | transitionToHalfOpenIfReady cooldown now =>
      rcases tracker.transitionToHalfOpenIfReady_cases cooldown now with eq | ⟨-, eq⟩
      · rw [HealthTracker.step, eq]
        exact coherent
      · rw [HealthTracker.step, eq]
        exact coherent.halfOpen positive
  | forceHalfOpen =>
      rcases tracker.forceHalfOpen_cases with ⟨-, eq⟩ | ⟨-, eq⟩
      · rw [HealthTracker.step, eq]
        exact coherent
      · rw [HealthTracker.step, eq]
        exact coherent.halfOpen positive

/-! ### The success rate -/

omit [Rounding] in
/-- The success rate is a number in the unit interval. -/
def RateBounded (tracker : HealthTracker) : Prop :=
  ∃ rate, tracker.successRate = .finite rate ∧ 0 ≤ rate ∧ rate ≤ 1

theorem onSuccess_successRate (tracker : HealthTracker) (policy : HealthPolicy) :
    (tracker.onSuccess policy).successRate =
      (tracker.successRate * F64.finite 9 + F64.finite 1) / F64.finite 10 := by
  rcases tracker.onSuccess_cases policy with eq | ⟨eq, -⟩ <;> rw [eq] <;> rfl

theorem onFailure_successRate (tracker : HealthTracker) (policy : HealthPolicy)
    (now : Instant) :
    (tracker.onFailure policy now).successRate =
      tracker.successRate * F64.finite 9 / F64.finite 10 := by
  rcases tracker.onFailure_cases policy now with ⟨-, eq⟩ | ⟨-, eq⟩ <;> rw [eq] <;> rfl

omit [Rounding] in
/-- In exact arithmetic the new rate is a mean of the old one and the result. -/
theorem RateBounded.step (bounded : tracker.RateBounded) (policy : HealthPolicy)
    (input : HealthStep) :
    letI := Rounding.exact
    (tracker.step policy input).RateBounded := by
  let _ := Rounding.exact
  obtain ⟨rate, eq, nonneg, le⟩ := bounded
  have ten : (10 : ℚ) ≠ 0 := by norm_num
  cases input with
  | recordResult success latencyMs now =>
      have sampled : (tracker.recordLatencySample latencyMs).successRate = .finite rate := eq
      cases success with
      | true =>
          refine ⟨(rate * 9 + 1) / 10, ?_, by linarith, by linarith⟩
          rw [step_success, onSuccess_successRate, sampled]
          exact F64.finite_div_finite _ ten
      | false =>
          refine ⟨rate * 9 / 10, ?_, by linarith, by linarith⟩
          rw [step_failure, onFailure_successRate, sampled]
          exact F64.finite_div_finite _ ten
  | transitionToHalfOpenIfReady cooldown now =>
      rcases tracker.transitionToHalfOpenIfReady_cases cooldown now with same | ⟨-, same⟩ <;>
        exact ⟨rate, by rw [HealthTracker.step, same]; exact eq, nonneg, le⟩
  | forceHalfOpen =>
      rcases tracker.forceHalfOpen_cases with ⟨-, same⟩ | ⟨-, same⟩ <;>
        exact ⟨rate, by rw [HealthTracker.step, same]; exact eq, nonneg, le⟩

omit [Rounding] in
theorem rateBounded_run (policy : HealthPolicy) (steps : List HealthStep) :
    letI := Rounding.exact
    (run (step policy) default steps).RateBounded := by
  let _ := Rounding.exact
  exact run_induction (P := RateBounded) ⟨1, rfl, zero_le_one, le_rfl⟩
    (fun _ input bounded => bounded.step policy input) steps

omit [Rounding] in
/-- The penalty of a rate in the unit interval is not negative, nor is it NaN. -/
theorem RateBounded.penalty (bounded : tracker.RateBounded) :
    letI := Rounding.exact
    tracker.penalty = .posInf ∨ ∃ penalty, tracker.penalty = .finite penalty ∧ 0 ≤ penalty := by
  let _ := Rounding.exact
  obtain ⟨rate, eq, nonneg, le⟩ := bounded
  have clamped : tracker.successRate.clamp (.finite 0) (.finite 1) = .finite rate := by
    rw [eq, F64.clamp, if_neg (by simpa using nonneg), if_neg (by simpa using le)]
  have latency : F64.ofRat tracker.p99LatencyMs / F64.finite 10000 =
      .finite (tracker.p99LatencyMs / 10000) := F64.finite_div_finite _ (by norm_num)
  have success : F64.finite 1 - F64.finite rate = .finite (1 - rate) :=
    F64.finite_sub_finite 1 rate
  have latencyNonneg : (0 : ℚ) ≤ tracker.p99LatencyMs / 10000 := by positivity
  unfold HealthTracker.penalty
  rw [clamped, latency, success]
  cases tracker.state with
  | healthy => exact .inr ⟨_, rfl, by linarith⟩
  | degraded => exact .inr ⟨1 / 2 + _ + (1 - rate), rfl, by linarith⟩
  | halfOpen => exact .inr ⟨3 / 10 + _ + (1 - rate), rfl, by linarith⟩
  | «open» => exact .inl rfl

/-! ### Every tracker -/

omit [Rounding] in
/-- **The representation of a circuit breaker.**  Under a valid policy what a tracker keeps fits
its state after every run of results and moves to half-open.  In exact arithmetic its success
rate is in the unit interval and its penalty not negative. -/
theorem breaker (valid : policy.validate = .ok ()) (steps : List HealthStep) :
    (∀ [Rounding], Coherent policy (run (step policy) default steps)) ∧
      letI := Rounding.exact
      (run (step policy) default steps).RateBounded ∧
        ((run (step policy) default steps).penalty = .posInf ∨
          ∃ penalty, (run (step policy) default steps).penalty = .finite penalty ∧
            0 ≤ penalty) := by
  have positive := positive_of_validate valid
  refine ⟨?_, rateBounded_run policy steps, (rateBounded_run policy steps).penalty⟩
  intro rounding
  exact run_induction (P := Coherent policy) (coherent_default positive)
    (fun _ input coherent => coherent.step positive input) steps

omit [Rounding] in
/-- Two failures degrade a node under the default policy. -/
theorem breaker_twoFailures :
    letI := Rounding.exact
    let tracker := run (step default) default
      [.recordResult false 10 0, .recordResult false 10 0]
    tracker.state = .degraded ∧ Coherent default tracker := by
  let _ := Rounding.exact
  exact ⟨by decide +kernel, (breaker HealthPolicy.validate_default _).1⟩

end HealthTracker

end TrustRouter
