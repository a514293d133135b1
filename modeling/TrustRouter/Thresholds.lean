import Mathlib.Data.List.DropRight
import TrustRouter.HealthRuns

/-!
# What the thresholds of a circuit breaker count

A tracker has two counters for all four of its states.  Over a run they are related to the
results that were recorded: the failure counter is never more than the failures since the
last success (`consecutiveFailures_le`), and while the tracker is `HalfOpen` or `Degraded`
the success counter is never more than the successes in a row since it entered that state
(`exists_holdsSince_streak`).  They may be less, where a counter has wrapped around.

So a threshold that is reached by a counter is reached by the history (`thresholds`).
-/

namespace TrustRouter

namespace HealthTracker

/-! ### Histories -/

/-- The results among some calls. -/
def results (steps : List HealthStep) : List Bool :=
  steps.filterMap fun
    | .recordResult success _ _ => some success
    | _ => none

/-- The failures that were recorded since the last success. -/
def failuresSinceSuccess (steps : List HealthStep) : ℕ :=
  ((results steps).rtakeWhile (!·)).length

/-- The successes in a row that were recorded last. -/
def successStreak (steps : List HealthStep) : ℕ := ((results steps).rtakeWhile id).length

theorem results_concat (steps : List HealthStep) (success : Bool) (latencyMs : ℕ)
    (now : Instant) :
    results (steps ++ [.recordResult success latencyMs now]) = results steps ++ [success] := by
  simp [results]

theorem results_transition (steps : List HealthStep) {input : HealthStep}
    (transition : ∀ success latencyMs now, input ≠ .recordResult success latencyMs now) :
    results (steps ++ [input]) = results steps := by
  cases input with
  | recordResult success latencyMs now => exact absurd rfl (transition success latencyMs now)
  | transitionToHalfOpenIfReady => simp [results]
  | forceHalfOpen => simp [results]

@[simp] theorem failuresSinceSuccess_failure (steps : List HealthStep) (latencyMs : ℕ)
    (now : Instant) :
    failuresSinceSuccess (steps ++ [.recordResult false latencyMs now]) =
      failuresSinceSuccess steps + 1 := by
  rw [failuresSinceSuccess, results_concat, List.rtakeWhile_concat_pos _ _ _ rfl,
    List.length_append, List.length_singleton, failuresSinceSuccess]

@[simp] theorem successStreak_success (steps : List HealthStep) (latencyMs : ℕ) (now : Instant) :
    successStreak (steps ++ [.recordResult true latencyMs now]) = successStreak steps + 1 := by
  rw [successStreak, results_concat, List.rtakeWhile_concat_pos _ _ _ rfl,
    List.length_append, List.length_singleton, successStreak]

/-- A streak says how many of the last results were successes. -/
theorem replicate_suffix_of_le_streak {steps : List HealthStep} {n : ℕ}
    (le : n ≤ successStreak steps) : List.replicate n true <:+ results steps := by
  have streak : (results steps).rtakeWhile id = List.replicate (successStreak steps) true :=
    List.eq_replicate_iff.mpr ⟨rfl, fun _ mem => List.mem_rtakeWhile_imp mem⟩
  have last : List.replicate (successStreak steps) true <:+ results steps :=
    streak ▸ List.rtakeWhile_suffix _ _
  rw [← Nat.sub_add_cancel le, List.replicate_add] at last
  exact (List.suffix_append _ _).trans last

variable [Rounding] {policy : HealthPolicy}

/-! ### The failure counter -/

/-- The failure counter is at most the failures since the last success. -/
theorem consecutiveFailures_le (policy : HealthPolicy) (steps : List HealthStep) :
    (run (step policy) default steps).consecutiveFailures.toNat ≤ failuresSinceSuccess steps := by
  induction steps using List.reverseRecOn with
  | nil => exact Nat.zero_le _
  | append_singleton steps input ih =>
      rw [run_concat]
      cases input with
      | recordResult success latencyMs now =>
          cases success with
          | true =>
              rw [step_success, onSuccess_consecutiveFailures]
              exact Nat.zero_le _
          | false =>
              rw [step_failure_consecutiveFailures, failuresSinceSuccess_failure,
                UInt32.toNat_add]
              -- the counter may have wrapped around
              exact (Nat.mod_le _ _).trans (Nat.succ_le_succ ih)
      | transitionToHalfOpenIfReady cooldown now =>
          rw [failuresSinceSuccess, results_transition _ (by simp), ← failuresSinceSuccess]
          rcases (run (step policy) default steps).transitionToHalfOpenIfReady_cases cooldown now
            with eq | ⟨-, eq⟩ <;> simpa [step, eq] using ih
      | forceHalfOpen =>
          rw [failuresSinceSuccess, results_transition _ (by simp), ← failuresSinceSuccess]
          rcases (run (step policy) default steps).forceHalfOpen_cases with ⟨-, eq⟩ | ⟨-, eq⟩ <;>
            simpa [step, eq] using ih

/-! ### The success counter -/

omit [Rounding] in
/-- The states that a number of successes leads out of. -/
def Recovering (state : NodeState) : Prop := state = .halfOpen ∨ state = .degraded

/-- A tracker comes to recover with its success counter at zero. -/
theorem consecutiveSuccesses_of_enters {tracker : HealthTracker} {input : HealthStep}
    {state : NodeState} (recovering : Recovering state) (outside : tracker.state ≠ state)
    (inside : (tracker.step policy input).state = state) :
    (tracker.step policy input).consecutiveSuccesses = 0 := by
  cases input with
  | recordResult success latencyMs now =>
      cases success with
      | true =>
          -- no success leads to `HalfOpen` or `Degraded`
          rw [step_success] at inside
          rcases onSuccess_state_cases (tracker.recordLatencySample latencyMs) policy with
            same | ⟨healthy, -⟩
          · exact absurd (same.symm.trans inside) outside
          · rw [healthy] at inside
            subst inside
            rcases recovering with other | other <;> cases other
      | false => exact onFailure_consecutiveSuccesses _ _ _
  | transitionToHalfOpenIfReady cooldown now =>
      rcases tracker.transitionToHalfOpenIfReady_cases cooldown now with eq | ⟨-, eq⟩
      · exact absurd (by rw [← inside, step, eq]) outside
      · rw [step, eq]
  | forceHalfOpen =>
      rcases tracker.forceHalfOpen_cases with ⟨-, eq⟩ | ⟨-, eq⟩
      · exact absurd (by rw [← inside, step, eq]) outside
      · rw [step, eq]

/-- Once it recovers, the success counter counts the streak. -/
theorem consecutiveSuccesses_step_le {tracker : HealthTracker} {since : List HealthStep}
    (recovering : Recovering tracker.state)
    (le : tracker.consecutiveSuccesses.toNat ≤ successStreak since) (input : HealthStep) :
    (tracker.step policy input).consecutiveSuccesses.toNat ≤ successStreak (since ++ [input]) := by
  have closed : tracker.state ≠ .open := by rcases recovering with eq | eq <;> simp [eq]
  cases input with
  | recordResult success latencyMs now =>
      cases success with
      | true =>
          rw [step_success, onSuccess_consecutiveSuccesses, successStreak_success,
            UInt32.toNat_add]
          exact (Nat.mod_le _ _).trans (Nat.succ_le_succ le)
      | false =>
          rw [step_failure, onFailure_consecutiveSuccesses]
          exact Nat.zero_le _
  | transitionToHalfOpenIfReady cooldown now =>
      rwa [successStreak, results_transition _ (by simp), step, transitionToHalfOpenIfReady,
        if_pos closed]
  | forceHalfOpen =>
      rwa [successStreak, results_transition _ (by simp), step, forceHalfOpen, if_pos closed]

/-- While a tracker recovers, its success counter is at most the successes in a row since it
began to. -/
theorem exists_holdsSince_streak {state : NodeState} (recovering : Recovering state)
    {steps : List HealthStep} (inside : (run (step policy) default steps).state = state) :
    ∃ prior input since, steps = prior ++ input :: since ∧
      HoldsSince (step policy) (·.state = state) default prior input since ∧
      (run (step policy) default steps).consecutiveSuccesses.toNat ≤ successStreak since := by
  have start : (default : HealthTracker).state ≠ state := by
    rcases recovering with rfl | rfl <;> simp [default]
  refine exists_holdsSince (P := fun tracker : HealthTracker => tracker.state = state)
    (I := fun since tracker => tracker.consecutiveSuccesses.toNat ≤ successStreak since) start
    (fun tracker input outside inside => ?_) (fun tracker input since held le _ => ?_) inside
  · rw [consecutiveSuccesses_of_enters recovering outside inside]
    exact Nat.zero_le _
  · exact consecutiveSuccesses_step_le (held ▸ recovering) le input

/-! ### Thresholds -/

/-- The tracker comes from `state` to `Healthy` with a success that makes the last `needed`
results all successes, recorded since it entered `state`. -/
def RecoversAfter (policy : HealthPolicy) (state : NodeState) (needed : UInt32)
    (before : List HealthStep) (input : HealthStep) : Prop :=
  (∃ latencyMs now, input = .recordResult true latencyMs now) ∧
    ∃ prior entry since, before = prior ++ entry :: since ∧
      HoldsSince (step policy) (·.state = state) default prior entry since ∧
      List.replicate needed.toNat true <:+ results (since ++ [input])

/-- The thresholds of the policy count what they say, in the step after `before`. -/
structure ThresholdsCount (policy : HealthPolicy) (before : List HealthStep)
    (input : HealthStep) : Prop where
  «open» : (run (step policy) default before).state ≠ .open →
    (run (step policy) default (before ++ [input])).state = .open →
    (∃ latencyMs now, input = .recordResult false latencyMs now) ∧
      policy.openThreshold.toNat ≤ failuresSinceSuccess (before ++ [input])
  halfOpen : (run (step policy) default before).state = .halfOpen →
    (run (step policy) default (before ++ [input])).state = .healthy →
    RecoversAfter policy .halfOpen policy.halfOpenSuccessNeeded before input
  degraded : (run (step policy) default before).state = .degraded →
    (run (step policy) default (before ++ [input])).state = .healthy →
    RecoversAfter policy .degraded policy.degradedSuccessNeeded before input

/-- What opens a tracker is a failure that takes the counter to the threshold. -/
theorem opens_of_step {tracker : HealthTracker} {input : HealthStep}
    (closed : tracker.state ≠ .open) (isOpen : (tracker.step policy input).state = .open) :
    (∃ latencyMs now, input = .recordResult false latencyMs now) ∧
      policy.openThreshold ≤ (tracker.step policy input).consecutiveFailures := by
  cases input with
  | recordResult success latencyMs now =>
      cases success with
      | true => exact absurd (onSuccess_state_open_iff.mp isOpen) closed
      | false =>
          rw [step_failure_state, failureState_eq_open_iff closed, UInt32.not_lt] at isOpen
          exact ⟨⟨latencyMs, now, rfl⟩, by rwa [step_failure_consecutiveFailures]⟩
  | transitionToHalfOpenIfReady cooldown now =>
      rw [step, transitionToHalfOpenIfReady, if_pos closed] at isOpen
      exact absurd isOpen closed
  | forceHalfOpen =>
      rw [step, forceHalfOpen, if_pos closed] at isOpen
      exact absurd isOpen closed

/-- What makes a recovering tracker `Healthy` is a success that takes the counter to what is
needed. -/
theorem recovers_of_step {tracker : HealthTracker} {input : HealthStep}
    (recovering : Recovering tracker.state)
    (healthy : (tracker.step policy input).state = .healthy) :
    (∃ latencyMs now, input = .recordResult true latencyMs now) ∧
      (tracker.state = .halfOpen ∧
          policy.halfOpenSuccessNeeded ≤ (tracker.step policy input).consecutiveSuccesses ∨
        tracker.state = .degraded ∧
          policy.degradedSuccessNeeded ≤ (tracker.step policy input).consecutiveSuccesses) := by
  have closed : tracker.state ≠ .open := by rcases recovering with eq | eq <;> simp [eq]
  have unhealthy : tracker.state ≠ .healthy := by rcases recovering with eq | eq <;> simp [eq]
  cases input with
  | recordResult success latencyMs now =>
      cases success with
      | true =>
          refine ⟨⟨latencyMs, now, rfl⟩, ?_⟩
          rw [step_success] at healthy
          rcases onSuccess_state_cases (tracker.recordLatencySample latencyMs) policy with
            same | ⟨-, enough⟩
          · exact absurd (same.symm.trans healthy) unhealthy
          · simpa [step_success] using enough
      | false =>
          rw [step_failure_state] at healthy
          unfold failureState at healthy
          split_ifs at healthy
          exact absurd healthy unhealthy
  | transitionToHalfOpenIfReady cooldown now =>
      rw [step, transitionToHalfOpenIfReady, if_pos closed] at healthy
      exact absurd healthy unhealthy
  | forceHalfOpen =>
      rw [step, forceHalfOpen, if_pos closed] at healthy
      exact absurd healthy unhealthy

/-- A recovering tracker that becomes `Healthy` has had its successes. -/
theorem recoversAfter {state : NodeState} {needed : UInt32} (recovering : Recovering state)
    {before : List HealthStep} {input : HealthStep}
    (inside : (run (step policy) default before).state = state)
    (success : ∃ latencyMs now, input = .recordResult true latencyMs now)
    (enough : needed ≤ (run (step policy) default (before ++ [input])).consecutiveSuccesses) :
    RecoversAfter policy state needed before input := by
  refine ⟨success, ?_⟩
  obtain ⟨prior, entry, since, split, holdsSince, le⟩ := exists_holdsSince_streak recovering inside
  refine ⟨prior, entry, since, split, holdsSince, replicate_suffix_of_le_streak ?_⟩
  rw [run_concat] at enough
  exact (UInt32.le_iff_toNat_le.mp enough).trans
    (consecutiveSuccesses_step_le (inside ▸ recovering) le input)

/-- **Thresholds.**  Under every policy and in every run, a tracker becomes `Open` only with a
failure that is at least the `openThreshold`-th since the last success, and leaves `HalfOpen`
and `Degraded` for `Healthy` only with a success that completes a row of as many as are
needed, all recorded since it entered that state. -/
theorem thresholds (policy : HealthPolicy) (before : List HealthStep) (input : HealthStep) :
    ThresholdsCount policy before input where
  «open» closed isOpen := by
    rw [run_concat] at isOpen
    obtain ⟨failure, reached⟩ := opens_of_step closed isOpen
    have counted := consecutiveFailures_le policy (before ++ [input])
    rw [run_concat] at counted
    exact ⟨failure, (UInt32.le_iff_toNat_le.mp reached).trans counted⟩
  halfOpen inside healthy := by
    rw [run_concat] at healthy
    obtain ⟨success, ⟨-, enough⟩ | ⟨other, -⟩⟩ := recovers_of_step (Or.inl inside) healthy
    · exact recoversAfter (Or.inl rfl) inside success (by rwa [run_concat])
    · rw [inside] at other
      cases other
  degraded inside healthy := by
    rw [run_concat] at healthy
    obtain ⟨success, ⟨other, -⟩ | ⟨-, enough⟩⟩ := recovers_of_step (Or.inr inside) healthy
    · rw [inside] at other
      cases other
    · exact recoversAfter (Or.inr rfl) inside success (by rwa [run_concat])

end HealthTracker

end TrustRouter
