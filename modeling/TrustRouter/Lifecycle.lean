import TrustRouter.Prelude.Run
import TrustRouter.WorldState

/-!
# The lifecycle of a node

`NodeLifecycle` of the fabric: a node is in one of six states, results move it between
them, an operator can drain it, and a node that has failed can be sent into recovery.

Successes bring back only the nodes of three states, which the source lists; a failure is
handed to the first of three branches whose threshold the failure counter has reached, and
the first of these asks only that the node has not failed yet.  So a drained node that still
reports failures becomes `Failed`, and a recovery then takes it back into service
(`allSteps_outOfService_iff`).

The two counters are `u32`, and their increments wrap, as in `HealthTracker`.
-/

namespace TrustRouter

inductive NodeLifecycleState where
  | healthy
  | degraded
  | suspect
  | draining
  | failed
  | recovering
  deriving DecidableEq

structure NodeLifecycleTransition where
  «from» : NodeLifecycleState
  «to» : NodeLifecycleState
  reason : String
  timestamp : SystemTime
  revision : ℕ
  deriving DecidableEq

structure NodeLifecycle where
  state : NodeLifecycleState
  consecutiveFailures : UInt32
  consecutiveSuccesses : UInt32
  transitions : List NodeLifecycleTransition
  maxTransitions : ℕ
  revision : ℕ
  deriving DecidableEq

namespace NodeLifecycle

def new (maxTransitions : ℕ) : NodeLifecycle where
  state := .healthy
  consecutiveFailures := 0
  consecutiveSuccesses := 0
  transitions := []
  maxTransitions := min (max maxTransitions 1) 1000
  revision := 0

def transition (node : NodeLifecycle) (target : NodeLifecycleState) (reason : String)
    (now : SystemTime) : NodeLifecycle :=
  let record : NodeLifecycleTransition :=
    { «from» := node.state
      «to» := target
      reason := reason
      timestamp := now
      revision := node.revision + 1 }
  { node with
    revision := node.revision + 1
    transitions := Ring.pushBounded node.maxTransitions node.transitions record
    state := target }

/-- The counters after a success. -/
def countSuccess (node : NodeLifecycle) : NodeLifecycle :=
  { node with
    consecutiveSuccesses := node.consecutiveSuccesses + 1
    consecutiveFailures := 0 }

/-- The counters after a failure. -/
def countFailure (node : NodeLifecycle) : NodeLifecycle :=
  { node with
    consecutiveFailures := node.consecutiveFailures + 1
    consecutiveSuccesses := 0 }

def recordSuccess (node : NodeLifecycle) (now : SystemTime) : NodeLifecycle :=
  let node := node.countSuccess
  if node.state = .recovering ∧ 3 ≤ node.consecutiveSuccesses then
    node.transition .healthy "recovery_complete" now
  else if node.state = .degraded ∧ 2 ≤ node.consecutiveSuccesses then
    node.transition .healthy "degraded_recovery" now
  else if node.state = .suspect ∧ 1 ≤ node.consecutiveSuccesses then
    node.transition .degraded "suspect_improving" now
  else node

def recordFailure (node : NodeLifecycle) (now : SystemTime) : NodeLifecycle :=
  let node := node.countFailure
  if 5 ≤ node.consecutiveFailures ∧ node.state ≠ .failed then
    node.transition .failed "failure_threshold" now
  else if 3 ≤ node.consecutiveFailures ∧ node.state = .healthy then
    node.transition .suspect "repeated_failures" now
  else if 2 ≤ node.consecutiveFailures ∧ (node.state = .healthy ∨ node.state = .degraded) then
    node.transition .degraded "failures_increasing" now
  else node

def drain (node : NodeLifecycle) (now : SystemTime) : NodeLifecycle :=
  if node.state ≠ .draining then node.transition .draining "manual_drain" now else node

def beginRecovery (node : NodeLifecycle) (now : SystemTime) : NodeLifecycle :=
  if node.state = .failed then
    { node.transition .recovering "recovery_initiated" now with
      consecutiveFailures := 0
      consecutiveSuccesses := 0 }
  else node

variable (node : NodeLifecycle) (target : NodeLifecycleState) (reason : String)
  (now : SystemTime)

@[simp] theorem transition_state : (node.transition target reason now).state = target := rfl

@[simp] theorem countSuccess_state : node.countSuccess.state = node.state := rfl

@[simp] theorem countFailure_state : node.countFailure.state = node.state := rfl

@[simp] theorem drain_state : (node.drain now).state = .draining := by
  unfold drain
  split_ifs with serving
  · rfl
  · exact not_not.mp serving

@[simp] theorem beginRecovery_state :
    (node.beginRecovery now).state =
      if node.state = .failed then .recovering else node.state := by
  unfold beginRecovery
  split_ifs <;> rfl

end NodeLifecycle

/-! ## Runs -/

/-- A call of one of the methods, with the reading of the clock in it. -/
inductive LifecycleCall where
  | recordSuccess (now : SystemTime)
  | recordFailure (now : SystemTime)
  | drain (now : SystemTime)
  | beginRecovery (now : SystemTime)
  deriving DecidableEq

/-- The call is one of `begin_recovery`. -/
def LifecycleCall.IsRecovery : LifecycleCall → Prop
  | beginRecovery _ => True
  | _ => False

/-- A node in one of these states is given no work: it waits for an operator. -/
def NodeLifecycleState.OutOfService (state : NodeLifecycleState) : Prop :=
  state = .draining ∨ state = .failed

namespace NodeLifecycle

def step (node : NodeLifecycle) : LifecycleCall → NodeLifecycle
  | .recordSuccess now => node.recordSuccess now
  | .recordFailure now => node.recordFailure now
  | .drain now => node.drain now
  | .beginRecovery now => node.beginRecovery now

/-- A node that has been used for a while. -/
def after (maxTransitions : ℕ) (calls : List LifecycleCall) : NodeLifecycle :=
  run step (new maxTransitions) calls

variable {node : NodeLifecycle} {now : SystemTime}

/-- Successes do not bring back a node that is out of service. -/
theorem recordSuccess_of_outOfService (out : node.state.OutOfService) :
    (node.recordSuccess now).state = node.state := by
  unfold recordSuccess
  rcases out with draining | failed
  · simp [draining]
  · simp [failed]

/-- A failure may fail a drained node, but it does not bring it back. -/
theorem recordFailure_of_outOfService (out : node.state.OutOfService) :
    (node.recordFailure now).state.OutOfService := by
  unfold recordFailure
  rcases out with draining | failed
  · by_cases reached : 5 ≤ node.countFailure.consecutiveFailures
    · simp [draining, reached, NodeLifecycleState.OutOfService]
    · simp [draining, reached, NodeLifecycleState.OutOfService]
  · simp [failed, NodeLifecycleState.OutOfService]

/-- The one call that takes a node out of service back into it. -/
theorem step_outOfService_iff (out : node.state.OutOfService) (call : LifecycleCall) :
    (node.step call).state.OutOfService ↔ ¬ (call.IsRecovery ∧ node.state = .failed) := by
  cases call with
  | recordSuccess now =>
      show (node.recordSuccess now).state.OutOfService ↔ _
      rw [recordSuccess_of_outOfService out]
      exact iff_of_true out fun recovery => recovery.1
  | recordFailure now =>
      exact iff_of_true (recordFailure_of_outOfService out) fun recovery => recovery.1
  | drain now => exact iff_of_true (.inl (drain_state node now)) fun recovery => recovery.1
  | beginRecovery now =>
      show (node.beginRecovery now).state.OutOfService ↔ _
      rw [beginRecovery_state]
      split_ifs with failed
      · refine iff_of_false ?_ (not_not.mpr ⟨trivial, failed⟩)
        rintro (impossible | impossible) <;> cases impossible
      · exact iff_of_true out fun recovery => failed recovery.2

/-- **When a drained node stays out of service.**  It does for exactly as long as it is not
sent into recovery after it has failed. -/
theorem allSteps_outOfService_iff (maxTransitions : ℕ) (before calls : List LifecycleCall)
    (now : SystemTime) :
    AllSteps step (fun node call => (node.step call).state.OutOfService)
        ((after maxTransitions before).drain now) calls ↔
      AllSteps step (fun node call => ¬ (call.IsRecovery ∧ node.state = .failed))
        ((after maxTransitions before).drain now) calls :=
  allSteps_congr (P := fun node => node.state.OutOfService) (.inl (drain_state _ _))
    (fun _ call out => step_outOfService_iff out call) fun _ _ _ kept => kept

/-- Five failures fail a drained node, and a recovery takes it back into service. -/
theorem not_outOfService_after_drain :
    ¬ ∀ (maxTransitions : ℕ) (before calls : List LifecycleCall) (now : SystemTime),
      (∀ call ∈ calls, ∀ t, call ≠ .drain t) →
        (run step ((after maxTransitions before).drain now) calls).state.OutOfService := by
  intro all
  have out := all 10 [] [.recordFailure 1, .recordFailure 2, .recordFailure 3,
    .recordFailure 4, .recordFailure 5, .beginRecovery 6] 0 (by simp)
  have state : (run step ((after 10 []).drain 0) [.recordFailure 1, .recordFailure 2,
      .recordFailure 3, .recordFailure 4, .recordFailure 5, .beginRecovery 6]).state =
      .recovering := by decide
  rw [state] at out
  rcases out with impossible | impossible <;> cases impossible

end NodeLifecycle

end TrustRouter
