import TrustRouter.Health
import TrustRouter.Prelude.Binary64
import TrustRouter.Prelude.Run

/-!
# Runs of a health tracker

A tracker is driven by results and by the two transitions to half-open.  Two laws a
circuit breaker is expected to obey are followed over runs of any length:

* an `Open` circuit is left only through half-open (`KeepsOpen`);
* a failed probe, that is a failure reported while half-open, opens the circuit again
  (`Reopens`).

Both fail, for one reason.  The failure branch sets the state from the failure counter
alone, and a success clears the counter without changing the state of an `Open` or
`HalfOpen` tracker.  From then on the counter no longer says how the tracker got into
its state: on an `Open` one a few failures make it `Degraded` again, on a `HalfOpen`
one they leave it where it is.

The conditions under which a run obeys the laws are exact (`allSteps_keepsOpen_iff`,
`allSteps_reopens_iff`).  The first law holds of every run of a policy only if the
policy has no degraded range at all (`forall_keepsOpen_iff`).
-/

namespace TrustRouter

/-- A call of one of the tracker's methods. -/
inductive HealthStep where
  | recordResult (success : Bool) (latencyMs : ℕ) (now : Instant)
  | transitionToHalfOpenIfReady (cooldown : Duration) (now : Instant)
  | forceHalfOpen

namespace HealthTracker

variable [Rounding]

/-- The tracker after a call, under one policy. -/
def step (policy : HealthPolicy) (tracker : HealthTracker) : HealthStep → HealthTracker
  | .recordResult success latencyMs now =>
      (tracker.recordResultWithPolicy success latencyMs policy now).1
  | .transitionToHalfOpenIfReady cooldown now =>
      (tracker.transitionToHalfOpenIfReady cooldown now).1
  | .forceHalfOpen => tracker.forceHalfOpen.1

omit [Rounding] in
/-- A call and the policy it is made under. -/
abbrev Call := HealthPolicy × HealthStep

/-- The tracker after a call under a policy of its own. -/
def after (tracker : HealthTracker) (call : Call) : HealthTracker := tracker.step call.1 call.2

variable {policy : HealthPolicy}

theorem step_success (tracker : HealthTracker) (latencyMs : ℕ) (now : Instant) :
    tracker.step policy (.recordResult true latencyMs now) =
      (tracker.recordLatencySample latencyMs).onSuccess policy := rfl

theorem step_failure (tracker : HealthTracker) (latencyMs : ℕ) (now : Instant) :
    tracker.step policy (.recordResult false latencyMs now) =
      (tracker.recordLatencySample latencyMs).onFailure policy now := rfl

@[simp] theorem step_failure_state (tracker : HealthTracker) (latencyMs : ℕ) (now : Instant) :
    (tracker.step policy (.recordResult false latencyMs now)).state =
      failureState policy (tracker.consecutiveFailures + 1) tracker.state := by
  simp [step_failure]

@[simp] theorem step_failure_consecutiveFailures (tracker : HealthTracker) (latencyMs : ℕ)
    (now : Instant) :
    (tracker.step policy (.recordResult false latencyMs now)).consecutiveFailures =
      tracker.consecutiveFailures + 1 := by
  simp [step_failure]

/-! ### Leaving `Open` -/

/-- Recording a result on an `Open` tracker leaves it `Open`. -/
def KeepsOpen (policy : HealthPolicy) (tracker : HealthTracker) (input : HealthStep) : Prop :=
  ∀ success latencyMs now, input = .recordResult success latencyMs now →
    tracker.state = .open → (tracker.step policy input).state = .open

omit [Rounding] in
/-- A failure finds an `Open` tracker with a failure counter that, increased by one,
lies in the degraded range of the policy. -/
def FailsInDegradedRange (policy : HealthPolicy) (tracker : HealthTracker)
    (input : HealthStep) : Prop :=
  tracker.state = .open ∧ (∃ latencyMs now, input = .recordResult false latencyMs now) ∧
    policy.degradedThreshold ≤ tracker.consecutiveFailures + 1 ∧
    tracker.consecutiveFailures + 1 < policy.openThreshold

omit [Rounding] in
/-- What a failure makes of `Open`. -/
theorem failureState_open_eq_open_iff {failures : UInt32} :
    failureState policy failures .open = .open ↔
      ¬ (policy.degradedThreshold ≤ failures ∧ failures < policy.openThreshold) := by
  unfold failureState
  split_ifs with opens degrades
  · simp [UInt32.not_lt.mpr opens]
  · simp [degrades, UInt32.not_le.mp opens]
  · simp [degrades]

theorem keepsOpen_iff (tracker : HealthTracker) (input : HealthStep) :
    tracker.KeepsOpen policy input ↔ ¬ tracker.FailsInDegradedRange policy input := by
  cases input with
  | transitionToHalfOpenIfReady => simp [KeepsOpen, FailsInDegradedRange]
  | forceHalfOpen => simp [KeepsOpen, FailsInDegradedRange]
  | recordResult success latencyMs now =>
      cases success with
      | true =>
          -- a success leaves `Open` alone
          simp [KeepsOpen, FailsInDegradedRange, step_success, onSuccess_state_open_iff]
      | false =>
          constructor
          · rintro keeps ⟨isOpen, -, range⟩
            have stays := keeps false latencyMs now rfl isOpen
            rw [step_failure_state, isOpen, failureState_open_eq_open_iff] at stays
            exact stays range
          · intro outside _ _ _ _ isOpen
            rw [step_failure_state, isOpen, failureState_open_eq_open_iff]
            exact fun range => outside ⟨isOpen, ⟨latencyMs, now, rfl⟩, range⟩

/-- **Leaving `Open`.**  In a run every result recorded on an `Open` tracker leaves it
`Open` if and only if no failure in it finds an `Open` tracker in the degraded range. -/
theorem allSteps_keepsOpen_iff (policy : HealthPolicy) (steps : List HealthStep) :
    AllSteps (step policy) (KeepsOpen policy) default steps ↔
      AllSteps (step policy)
        (fun tracker input => ¬ tracker.FailsInDegradedRange policy input) default steps :=
  allSteps_congr (P := fun _ => True) trivial
    (fun tracker input _ => keepsOpen_iff tracker input) fun _ _ _ _ => trivial

omit [Rounding] in
/-- Five failures, a success reported by a call still in flight, and one more failure. -/
private def lateSuccess : List HealthStep :=
  List.replicate 5 (.recordResult false 10 0) ++
    [.recordResult true 10 0, .recordResult false 10 0]

omit [Rounding] in
/-- A late success and two failures: under the default policy an `Open` circuit becomes
`Degraded`. -/
theorem not_keepsOpen :
    letI := Rounding.nearestEven
    ¬ ∀ (policy : HealthPolicy) (steps : List HealthStep), policy.validate = .ok () →
      AllSteps (step policy) (KeepsOpen policy) default steps := by
  let _ := Rounding.nearestEven
  intro always
  have keeps := always default (lateSuccess ++ [.recordResult false 10 0])
    HealthPolicy.validate_default
  have isOpen : (run (step default) default lateSuccess).state = .open := by decide +kernel
  have degrades : ((run (step default) default lateSuccess).step default
      (.recordResult false 10 0)).state = .degraded := by decide +kernel
  have stays := allSteps_iff.mp keeps lateSuccess _ [] rfl false 10 0 rfl isOpen
  rw [degrades] at stays
  cases stays

/-! ### Reopening -/

/-- A failure recorded on a `HalfOpen` tracker opens it and notes when. -/
def Reopens (policy : HealthPolicy) (tracker : HealthTracker) (input : HealthStep) : Prop :=
  ∀ latencyMs now, input = .recordResult false latencyMs now → tracker.state = .halfOpen →
    (tracker.step policy input).state = .open ∧ (tracker.step policy input).openedAt = some now

omit [Rounding] in
/-- A failure finds a `HalfOpen` tracker with a failure counter that, increased by one,
is still below the open threshold. -/
def FailsBelowOpenThreshold (policy : HealthPolicy) (tracker : HealthTracker)
    (input : HealthStep) : Prop :=
  tracker.state = .halfOpen ∧ (∃ latencyMs now, input = .recordResult false latencyMs now) ∧
    tracker.consecutiveFailures + 1 < policy.openThreshold

omit [Rounding] in
/-- A failure opens a circuit that is not open at the threshold. -/
theorem failureState_eq_open_iff {failures : UInt32} {state : NodeState}
    (closed : state ≠ .open) :
    failureState policy failures state = .open ↔ ¬ failures < policy.openThreshold := by
  unfold failureState
  split_ifs with opens degrades
  · simp [UInt32.not_lt.mpr opens]
  · simp [UInt32.not_le.mp opens]
  · simp [UInt32.not_le.mp opens, closed]

theorem reopens_iff (tracker : HealthTracker) (input : HealthStep) :
    tracker.Reopens policy input ↔ ¬ tracker.FailsBelowOpenThreshold policy input := by
  cases input with
  | transitionToHalfOpenIfReady => simp [Reopens, FailsBelowOpenThreshold]
  | forceHalfOpen => simp [Reopens, FailsBelowOpenThreshold]
  | recordResult success latencyMs now =>
      cases success with
      | true => simp [Reopens, FailsBelowOpenThreshold]
      | false =>
          constructor
          · rintro reopens ⟨isHalfOpen, -, below⟩
            have closed : tracker.state ≠ .open := by simp [isHalfOpen]
            have opened := (reopens latencyMs now rfl isHalfOpen).1
            rw [step_failure_state, failureState_eq_open_iff closed] at opened
            exact opened below
          · intro above latencyMs' now' same isHalfOpen
            cases same
            have closed : tracker.state ≠ .open := by simp [isHalfOpen]
            have opened : (tracker.step policy (.recordResult false latencyMs now)).state =
                .open := by
              rw [step_failure_state, failureState_eq_open_iff closed]
              exact fun below => above ⟨isHalfOpen, ⟨latencyMs, now, rfl⟩, below⟩
            exact ⟨opened, onFailure_openedAt opened closed⟩

/-- **Reopening.**  In a run every failure recorded on a `HalfOpen` tracker opens it
afresh if and only if none finds a `HalfOpen` tracker below the open threshold. -/
theorem allSteps_reopens_iff (policy : HealthPolicy) (steps : List HealthStep) :
    AllSteps (step policy) (Reopens policy) default steps ↔
      AllSteps (step policy)
        (fun tracker input => ¬ tracker.FailsBelowOpenThreshold policy input) default steps :=
  allSteps_congr (P := fun _ => True) trivial
    (fun tracker input _ => reopens_iff tracker input) fun _ _ _ _ => trivial

omit [Rounding] in
/-- Five failures, a forced transition and a successful probe. -/
private def probedOnce : List HealthStep :=
  List.replicate 5 (.recordResult false 10 0) ++ [.forceHalfOpen, .recordResult true 10 0]

omit [Rounding] in
/-- A successful probe and a failed one: under the default policy the circuit stays
`HalfOpen`. -/
theorem not_reopens :
    letI := Rounding.nearestEven
    ¬ ∀ (policy : HealthPolicy) (steps : List HealthStep), policy.validate = .ok () →
      AllSteps (step policy) (Reopens policy) default steps := by
  let _ := Rounding.nearestEven
  intro always
  have reopens := always default (probedOnce ++ [.recordResult false 10 0])
    HealthPolicy.validate_default
  have isHalfOpen : (run (step default) default probedOnce).state = .halfOpen := by
    decide +kernel
  have stays : ((run (step default) default probedOnce).step default
      (.recordResult false 10 0)).state = .halfOpen := by decide +kernel
  have opened := (allSteps_iff.mp reopens probedOnce _ [] rfl 10 0 rfl isHalfOpen).1
  rw [stays] at opened
  cases opened

/-! ### Policies without a degraded range -/

omit [Rounding] in
/-- Failures in a row. -/
def failures (n : ℕ) : List HealthStep := List.replicate n (.recordResult false 0 0)

omit [Rounding] in
theorem failures_succ (n : ℕ) :
    failures (n + 1) = failures n ++ [.recordResult false 0 0] := List.replicate_succ'

/-- Failures in a row are counted. -/
theorem consecutiveFailures_run_failures (tracker : HealthTracker) (n : ℕ) :
    (run (step policy) tracker (failures n)).consecutiveFailures =
      tracker.consecutiveFailures + UInt32.ofNat n := by
  induction n with
  | zero => exact (UInt32.add_zero _).symm
  | succ n ih =>
      rw [failures_succ, run_concat, step_failure_consecutiveFailures, ih, UInt32.add_assoc,
        UInt32.ofNat_add]
      rfl

variable (policy) in
/-- The last of some failures sets the state by the count. -/
theorem state_run_failures (tracker : HealthTracker) {threshold : UInt32} (pos : threshold ≠ 0) :
    ∃ state, (run (step policy) tracker (failures threshold.toNat)).state =
      failureState policy (tracker.consecutiveFailures + threshold) state := by
  obtain ⟨n, count⟩ : ∃ n, threshold.toNat = n + 1 :=
    Nat.exists_eq_succ_of_ne_zero fun zero => pos (UInt32.toNat_inj.mp zero)
  refine ⟨(run (step policy) tracker (failures n)).state, ?_⟩
  rw [count, failures_succ, run_concat, step_failure_state, consecutiveFailures_run_failures,
    UInt32.add_assoc]
  congr 2
  rw [← UInt32.ofNat_toNat (x := threshold), count, UInt32.ofNat_add]
  rfl

/-- Results recorded on an `Open` tracker keep it `Open` as long as each of them does. -/
theorem state_run_of_keepsOpen {tracker : HealthTracker} (isOpen : tracker.state = .open) (n : ℕ)
    (keeps : AllSteps (step policy) (KeepsOpen policy) tracker (failures n)) :
    (run (step policy) tracker (failures n)).state = .open := by
  induction n with
  | zero => exact isOpen
  | succ n ih =>
      rw [failures_succ, allSteps_append] at keeps
      rw [failures_succ, run_concat]
      exact keeps.2.1 false 0 0 rfl (ih keeps.1)

/-- **Policies.**  An `Open` circuit is left only through half-open in every run of a
valid policy if and only if the policy has no degraded range: its two failure
thresholds are equal. -/
theorem forall_keepsOpen_iff (valid : policy.validate = .ok ()) :
    (∀ steps, AllSteps (step policy) (KeepsOpen policy) default steps) ↔
      policy.degradedThreshold = policy.openThreshold := by
  obtain ⟨degradedPos, openPos, le, -⟩ := HealthPolicy.validate_eq_ok_iff.mp valid
  constructor
  · intro always
    by_contra ne
    have lt : policy.degradedThreshold < policy.openThreshold :=
      UInt32.lt_of_le_of_ne le ne
    -- open the circuit, clear the counter with a success, and fail into the degraded range
    have keeps := always (failures policy.openThreshold.toNat ++
      (.recordResult true 0 0 :: failures policy.degradedThreshold.toNat))
    have opened : (run (step policy) default (failures policy.openThreshold.toNat)).state =
        .open := by
      obtain ⟨state, eq⟩ := state_run_failures policy default openPos
      rw [eq]
      simp [failureState, default]
    have later := (allSteps_append.mp keeps).2
    generalize run (step policy) default (failures policy.openThreshold.toNat) = tracker
      at opened later
    have cleared : (tracker.step policy (.recordResult true 0 0)).state = .open :=
      later.1 true 0 0 rfl opened
    have counter : (tracker.step policy (.recordResult true 0 0)).consecutiveFailures = 0 := by
      rw [step_success, onSuccess_consecutiveFailures]
    have stays := state_run_of_keepsOpen cleared _ later.2
    obtain ⟨state, eq⟩ := state_run_failures policy
      (tracker.step policy (.recordResult true 0 0)) degradedPos
    rw [eq, counter, UInt32.zero_add, failureState, if_neg (UInt32.not_le.mpr lt),
      if_pos (UInt32.le_refl _)] at stays
    cases stays
  · intro equal steps
    refine allSteps_iff.mpr fun before input after _ => (keepsOpen_iff _ _).mpr ?_
    rintro ⟨-, -, above, below⟩
    rw [equal] at above
    exact absurd below (UInt32.not_lt.mpr above)

end HealthTracker

end TrustRouter
