import Mathlib.Data.List.Sort
import TrustRouter.Prelude.F64
import TrustRouter.Prelude.Ring

/-!
# Health policies and trackers

The circuit breaker of one node: `HealthTracker` turns reported results into one
of four states, under the thresholds of a `HealthPolicy`.

Instants and durations are nanosecond counts, and a method that reads the clock
takes the reading as an argument.  The two counters are `u32` as in the source;
their increments wrap, which is what a build without overflow checks does.
-/

namespace TrustRouter

/-- A point on the monotonic clock, in nanoseconds. -/
abbrev Instant := ℕ

/-- A span of time, in nanoseconds. -/
abbrev Duration := ℕ

def openThreshold : UInt32 := 5

def degradedThreshold : UInt32 := 2

def halfOpenSuccessNeeded : UInt32 := 3

def degradedSuccessNeeded : UInt32 := 2

/-- Thirty seconds. -/
def defaultCooldown : Duration := 30 * 10 ^ 9

def latencySampleLimit : ℕ := 128

/-- Why a configuration was refused. -/
inductive RouterError where
  | invalidCostModel (message : String)
  | invalidHealthPolicy (message : String)
  deriving DecidableEq

/-! ## Policies -/

structure HealthPolicy where
  openThreshold : UInt32
  degradedThreshold : UInt32
  halfOpenSuccessNeeded : UInt32
  degradedSuccessNeeded : UInt32
  cooldown : Duration
  deriving DecidableEq

namespace HealthPolicy

instance : Inhabited HealthPolicy where
  default :=
    { openThreshold := TrustRouter.openThreshold
      degradedThreshold := TrustRouter.degradedThreshold
      halfOpenSuccessNeeded := TrustRouter.halfOpenSuccessNeeded
      degradedSuccessNeeded := TrustRouter.degradedSuccessNeeded
      cooldown := defaultCooldown }

def validate (policy : HealthPolicy) : Except RouterError Unit :=
  if policy.degradedThreshold = 0 ∨ policy.openThreshold = 0 then
    .error (.invalidHealthPolicy "failure thresholds must be greater than zero")
  else if policy.openThreshold < policy.degradedThreshold then
    .error (.invalidHealthPolicy "degraded_threshold cannot exceed open_threshold")
  else if policy.halfOpenSuccessNeeded = 0 ∨ policy.degradedSuccessNeeded = 0 then
    .error (.invalidHealthPolicy "success thresholds must be greater than zero")
  else if policy.cooldown = 0 then
    .error (.invalidHealthPolicy "cooldown must be greater than zero")
  else
    .ok ()

/-- What a policy that passes `validate` satisfies. -/
theorem validate_eq_ok_iff {policy : HealthPolicy} :
    policy.validate = .ok () ↔
      policy.degradedThreshold ≠ 0 ∧ policy.openThreshold ≠ 0 ∧
        policy.degradedThreshold ≤ policy.openThreshold ∧
        policy.halfOpenSuccessNeeded ≠ 0 ∧ policy.degradedSuccessNeeded ≠ 0 ∧
        policy.cooldown ≠ 0 := by
  unfold validate
  split_ifs with zero order success cooldown
  · simp only [false_iff]
    tauto
  · simp only [false_iff]
    intro ⟨_, _, le, _⟩
    exact absurd order (UInt32.not_lt.mpr le)
  · simp only [false_iff]
    tauto
  · simp only [false_iff]
    tauto
  · simp only [true_iff]
    have le := UInt32.not_lt.mp order
    tauto

/-- The default policy is valid. -/
theorem validate_default : (default : HealthPolicy).validate = .ok () := by decide

end HealthPolicy

/-! ## Trackers -/

inductive NodeState where
  | healthy
  | degraded
  | «open»
  | halfOpen
  deriving DecidableEq

structure HealthTracker where
  state : NodeState
  consecutiveFailures : UInt32
  consecutiveSuccesses : UInt32
  p99LatencyMs : ℕ
  successRate : F64
  openedAt : Option Instant
  latencySamples : List ℕ
  deriving DecidableEq

namespace HealthTracker

instance : Inhabited HealthTracker where
  default :=
    { state := .healthy
      consecutiveFailures := 0
      consecutiveSuccesses := 0
      p99LatencyMs := 0
      successRate := .finite 1
      openedAt := none
      latencySamples := [] }

variable [Rounding]

def recordLatencySample (tracker : HealthTracker) (latencyMs : ℕ) : HealthTracker :=
  let latencySamples := Ring.push latencySampleLimit tracker.latencySamples latencyMs
  let samples := latencySamples.insertionSort (· ≤ ·)
  let index := (F64.ofRat (samples.length - 1 : ℕ) * F64.ofRat (99 / 100)).roundAway.toUsize
  { tracker with
    latencySamples := latencySamples
    p99LatencyMs := samples[index]?.getD latencyMs }

/-- The success branch of `recordResultWithPolicy`, after the latency sample. -/
def onSuccess (tracker : HealthTracker) (policy : HealthPolicy) : HealthTracker :=
  let tracker :=
    { tracker with
      consecutiveSuccesses := tracker.consecutiveSuccesses + 1
      consecutiveFailures := 0
      successRate := (tracker.successRate * F64.finite 9 + F64.finite 1) / F64.finite 10 }
  match tracker.state with
  | .halfOpen =>
      if policy.halfOpenSuccessNeeded ≤ tracker.consecutiveSuccesses then
        { tracker with state := .healthy, openedAt := none }
      else tracker
  | .degraded =>
      if policy.degradedSuccessNeeded ≤ tracker.consecutiveSuccesses then
        { tracker with state := .healthy, openedAt := none }
      else tracker
  | _ => tracker

/-- The state a failure leads to, from the failure counter after it. -/
def failureState (policy : HealthPolicy) (failures : UInt32) (state : NodeState) : NodeState :=
  if policy.openThreshold ≤ failures then .open
  else if policy.degradedThreshold ≤ failures then .degraded
  else state

/-- The failure branch of `recordResultWithPolicy`, after the latency sample. -/
def onFailure (tracker : HealthTracker) (policy : HealthPolicy) (now : Instant) :
    HealthTracker :=
  let previousState := tracker.state
  let failures := tracker.consecutiveFailures + 1
  let tracker :=
    { tracker with
      consecutiveFailures := failures
      consecutiveSuccesses := 0
      successRate := tracker.successRate * F64.finite 9 / F64.finite 10
      state := failureState policy failures tracker.state }
  if tracker.state = .open ∧ previousState ≠ .open then
    { tracker with openedAt := some now }
  else tracker

/-- The new tracker, and whether its state changed. -/
def recordResultWithPolicy (tracker : HealthTracker) (success : Bool) (latencyMs : ℕ)
    (policy : HealthPolicy) (now : Instant) : HealthTracker × Bool :=
  let sampled := tracker.recordLatencySample latencyMs
  let recorded := if success then sampled.onSuccess policy else sampled.onFailure policy now
  (recorded, tracker.state != recorded.state)

omit [Rounding] in
/-- The new tracker, and whether it moved to half-open. -/
def transitionToHalfOpenIfReady (tracker : HealthTracker) (cooldown : Duration)
    (now : Instant) : HealthTracker × Bool :=
  if tracker.state ≠ .open then (tracker, false)
  else
    match tracker.openedAt with
    | none => (tracker, false)
    | some openedAt =>
        -- `duration_since` saturates at zero, as subtraction on `ℕ` does
        if now - openedAt < cooldown then (tracker, false)
        else ({ tracker with state := .halfOpen, consecutiveSuccesses := 0 }, true)

omit [Rounding] in
/-- The new tracker, and whether it moved to half-open. -/
def forceHalfOpen (tracker : HealthTracker) : HealthTracker × Bool :=
  if tracker.state ≠ .open then (tracker, false)
  else ({ tracker with state := .halfOpen, consecutiveSuccesses := 0 }, true)

def penalty (tracker : HealthTracker) : F64 :=
  let latencyPenalty := F64.ofRat tracker.p99LatencyMs / F64.finite 10000
  let successPenalty := F64.finite 1 - tracker.successRate.clamp (.finite 0) (.finite 1)
  match tracker.state with
  | .healthy => latencyPenalty + successPenalty
  | .degraded => F64.ofRat (1 / 2) + latencyPenalty + successPenalty
  | .halfOpen => F64.ofRat (3 / 10) + latencyPenalty + successPenalty
  | .open => .posInf

/-! ### What the operations do to the state -/

@[simp] theorem recordLatencySample_state (tracker : HealthTracker) (latencyMs : ℕ) :
    (tracker.recordLatencySample latencyMs).state = tracker.state := rfl

@[simp] theorem recordLatencySample_consecutiveFailures (tracker : HealthTracker)
    (latencyMs : ℕ) :
    (tracker.recordLatencySample latencyMs).consecutiveFailures =
      tracker.consecutiveFailures := rfl

@[simp] theorem recordLatencySample_consecutiveSuccesses (tracker : HealthTracker)
    (latencyMs : ℕ) :
    (tracker.recordLatencySample latencyMs).consecutiveSuccesses =
      tracker.consecutiveSuccesses := rfl

@[simp] theorem onSuccess_consecutiveFailures (tracker : HealthTracker)
    (policy : HealthPolicy) : (tracker.onSuccess policy).consecutiveFailures = 0 := by
  unfold onSuccess
  dsimp only
  split <;> first | rfl | (split_ifs <;> rfl)

@[simp] theorem onSuccess_consecutiveSuccesses (tracker : HealthTracker)
    (policy : HealthPolicy) :
    (tracker.onSuccess policy).consecutiveSuccesses = tracker.consecutiveSuccesses + 1 := by
  unfold onSuccess
  dsimp only
  split <;> first | rfl | (split_ifs <;> rfl)

/-- A success leaves the state alone, or it is one too many for it. -/
theorem onSuccess_state_cases (tracker : HealthTracker) (policy : HealthPolicy) :
    (tracker.onSuccess policy).state = tracker.state ∨
      (tracker.onSuccess policy).state = .healthy ∧
        (tracker.state = .halfOpen ∧
            policy.halfOpenSuccessNeeded ≤ tracker.consecutiveSuccesses + 1 ∨
          tracker.state = .degraded ∧
            policy.degradedSuccessNeeded ≤ tracker.consecutiveSuccesses + 1) := by
  unfold onSuccess
  cases state : tracker.state <;> dsimp only
  case halfOpen => split_ifs with enough <;> simp [enough]
  case degraded => split_ifs with enough <;> simp [enough]
  all_goals exact Or.inl rfl

/-- A success never opens a circuit and never takes one out of `Open`. -/
theorem onSuccess_state_open_iff {tracker : HealthTracker} {policy : HealthPolicy} :
    (tracker.onSuccess policy).state = .open ↔ tracker.state = .open := by
  unfold onSuccess
  cases state : tracker.state <;> simp <;> split_ifs <;> simp

@[simp] theorem onFailure_consecutiveFailures (tracker : HealthTracker)
    (policy : HealthPolicy) (now : Instant) :
    (tracker.onFailure policy now).consecutiveFailures = tracker.consecutiveFailures + 1 := by
  unfold onFailure
  dsimp only
  split_ifs <;> rfl

@[simp] theorem onFailure_consecutiveSuccesses (tracker : HealthTracker)
    (policy : HealthPolicy) (now : Instant) :
    (tracker.onFailure policy now).consecutiveSuccesses = 0 := by
  unfold onFailure
  dsimp only
  split_ifs <;> rfl

@[simp] theorem onFailure_state (tracker : HealthTracker) (policy : HealthPolicy)
    (now : Instant) :
    (tracker.onFailure policy now).state =
      failureState policy (tracker.consecutiveFailures + 1) tracker.state := by
  unfold onFailure
  dsimp only
  split_ifs <;> rfl

/-- A failure that opens a circuit notes when. -/
theorem onFailure_openedAt {tracker : HealthTracker} {policy : HealthPolicy} {now : Instant}
    (opened : (tracker.onFailure policy now).state = .open) (closed : tracker.state ≠ .open) :
    (tracker.onFailure policy now).openedAt = some now := by
  rw [onFailure_state] at opened
  simp [onFailure, opened, closed]

/-- As long as a circuit stays open, no result changes what is noted. -/
theorem onSuccess_openedAt {tracker : HealthTracker} {policy : HealthPolicy}
    (isOpen : tracker.state = .open) :
    (tracker.onSuccess policy).openedAt = tracker.openedAt := by
  simp [onSuccess, isOpen]

theorem onFailure_openedAt_of_open {tracker : HealthTracker} {policy : HealthPolicy}
    {now : Instant} (isOpen : tracker.state = .open) :
    (tracker.onFailure policy now).openedAt = tracker.openedAt := by
  simp [onFailure, isOpen]

omit [Rounding] in
/-- What moves to half-open was `Open`, and only its state and its success
counter change. -/
theorem transitionToHalfOpenIfReady_cases (tracker : HealthTracker) (cooldown : Duration)
    (now : Instant) :
    tracker.transitionToHalfOpenIfReady cooldown now = (tracker, false) ∨
      (tracker.state = .open ∧ tracker.transitionToHalfOpenIfReady cooldown now =
        ({ tracker with state := .halfOpen, consecutiveSuccesses := 0 }, true)) := by
  unfold transitionToHalfOpenIfReady
  split_ifs with notOpen
  · exact Or.inl rfl
  · have isOpen : tracker.state = .open := not_not.mp notOpen
    split
    · exact Or.inl rfl
    · split_ifs
      · exact Or.inl rfl
      · exact Or.inr ⟨isOpen, rfl⟩

omit [Rounding] in
@[simp] theorem transitionToHalfOpenIfReady_state (tracker : HealthTracker)
    (cooldown : Duration) (now : Instant) :
    (tracker.transitionToHalfOpenIfReady cooldown now).1.state =
      if (tracker.transitionToHalfOpenIfReady cooldown now).2 then .halfOpen
      else tracker.state := by
  rcases tracker.transitionToHalfOpenIfReady_cases cooldown now with eq | ⟨-, eq⟩ <;> simp [eq]

omit [Rounding] in
theorem state_of_transitionToHalfOpenIfReady {tracker : HealthTracker} {cooldown : Duration}
    {now : Instant} (moved : (tracker.transitionToHalfOpenIfReady cooldown now).2 = true) :
    tracker.state = .open := by
  rcases tracker.transitionToHalfOpenIfReady_cases cooldown now with eq | ⟨isOpen, -⟩
  · simp [eq] at moved
  · exact isOpen

omit [Rounding] in
theorem forceHalfOpen_cases (tracker : HealthTracker) :
    (tracker.state ≠ .open ∧ tracker.forceHalfOpen = (tracker, false)) ∨
      (tracker.state = .open ∧ tracker.forceHalfOpen =
        ({ tracker with state := .halfOpen, consecutiveSuccesses := 0 }, true)) := by
  unfold forceHalfOpen
  split_ifs with notOpen
  · exact Or.inl ⟨notOpen, rfl⟩
  · exact Or.inr ⟨not_not.mp notOpen, rfl⟩

/-- The penalty of a node is never negative. -/
theorem penalty_notNeg (tracker : HealthTracker) : tracker.penalty.NotNeg := by
  have latency : (F64.ofRat tracker.p99LatencyMs / F64.finite 10000).NotNeg :=
    (F64.notNeg_round (by positivity)).div (F64.notNeg_finite.mpr (by norm_num))
  have success :
      (F64.finite 1 - tracker.successRate.clamp (.finite 0) (.finite 1)).NotNeg :=
    F64.notNeg_one_sub (F64.not_lt_clamp (by norm_num) _)
  unfold penalty
  cases tracker.state with
  | healthy => exact latency.add success
  | degraded => exact ((F64.notNeg_round (by norm_num)).add latency).add success
  | halfOpen => exact ((F64.notNeg_round (by norm_num)).add latency).add success
  | «open» => exact F64.notNeg_posInf

/-- An `Open` node is priced out of every route. -/
theorem penalty_of_open {tracker : HealthTracker} (isOpen : tracker.state = .open) :
    tracker.penalty = .posInf := by
  simp [penalty, isOpen]

end HealthTracker

end TrustRouter
