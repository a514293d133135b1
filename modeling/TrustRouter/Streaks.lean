import TrustRouter.HealthRuns
import TrustRouter.Prelude.Streak

/-!
# How far the result counters run

The two counters of a tracker have 32 bits and are counted up by `+= 1`.  Each is cleared by
the opposite result, the success counter also by a move to half-open; no threshold stops
them, and in states that do not read them they run on.  So a counter overflows as soon as its
results come `2 ^ 32` times without what clears it, and not before (`allSteps_not_overflows_iff`).

The policy may change from call to call, since it only says which state a result leads to.
-/

namespace TrustRouter

namespace HealthTracker

/-- What a call does to the counters. -/
inductive Effect where
  | success
  | failure
  | halfOpen
  | none
  deriving DecidableEq

/-- What a call does to the counters of a tracker. -/
def effect (tracker : HealthTracker) : Call → Effect
  | (_, .recordResult true _ _) => .success
  | (_, .recordResult false _ _) => .failure
  | (_, .transitionToHalfOpenIfReady cooldown now) =>
      if (tracker.transitionToHalfOpenIfReady cooldown now).2 then .halfOpen else .none
  | (_, .forceHalfOpen) => if tracker.forceHalfOpen.2 then .halfOpen else .none

/-- The increment that the call makes does not fit the counter. -/
inductive Overflows (tracker : HealthTracker) : Call → Prop where
  | successes {policy latencyMs now} (full : tracker.consecutiveSuccesses.toNat + 1 = 2 ^ 32) :
      Overflows tracker (policy, .recordResult true latencyMs now)
  | failures {policy latencyMs now} (full : tracker.consecutiveFailures.toNat + 1 = 2 ^ 32) :
      Overflows tracker (policy, .recordResult false latencyMs now)

variable [Rounding]

/-- What the calls of a run do to the counters. -/
def effects (calls : List Call) : List Effect := outputs after effect default calls

/-! ### The counters count streaks -/

omit [Rounding] in
def Effect.isSuccess (effect : Effect) : Bool := effect = .success

omit [Rounding] in
def Effect.isFailure (effect : Effect) : Bool := effect = .failure

omit [Rounding] in
/-- What clears the success counter. -/
def Effect.endsSuccesses (effect : Effect) : Bool := effect = .failure ∨ effect = .halfOpen

theorem toNat_consecutiveSuccesses_after (tracker : HealthTracker) (call : Call) :
    (tracker.after call).consecutiveSuccesses.toNat =
      Streak.next Effect.endsSuccesses Effect.isSuccess tracker.consecutiveSuccesses.toNat
        (tracker.effect call) % 2 ^ 32 := by
  have small := Nat.mod_eq_of_lt tracker.consecutiveSuccesses.toNat_lt
  obtain ⟨policy, input⟩ := call
  cases input with
  | recordResult success latencyMs now =>
      cases success with
      | true =>
          rw [after, step_success, onSuccess_consecutiveSuccesses, UInt32.toNat_add]
          rfl
      | false =>
          rw [after, step_failure, onFailure_consecutiveSuccesses]
          rfl
  | transitionToHalfOpenIfReady cooldown now =>
      rcases tracker.transitionToHalfOpenIfReady_cases cooldown now with eq | ⟨-, eq⟩
      · simp only [after, step, effect, eq]
        exact small.symm
      · simp [after, step, effect, eq, Streak.next, Effect.endsSuccesses]
  | forceHalfOpen =>
      rcases tracker.forceHalfOpen_cases with ⟨-, eq⟩ | ⟨-, eq⟩
      · simp only [after, step, effect, eq]
        exact small.symm
      · simp [after, step, effect, eq, Streak.next, Effect.endsSuccesses]

theorem toNat_consecutiveFailures_after (tracker : HealthTracker) (call : Call) :
    (tracker.after call).consecutiveFailures.toNat =
      Streak.next Effect.isSuccess Effect.isFailure tracker.consecutiveFailures.toNat
        (tracker.effect call) % 2 ^ 32 := by
  have small := Nat.mod_eq_of_lt tracker.consecutiveFailures.toNat_lt
  obtain ⟨policy, input⟩ := call
  cases input with
  | recordResult success latencyMs now =>
      cases success with
      | true =>
          rw [after, step_success, onSuccess_consecutiveFailures]
          rfl
      | false =>
          rw [after, step_failure, onFailure_consecutiveFailures, UInt32.toNat_add]
          rfl
  | transitionToHalfOpenIfReady cooldown now =>
      rcases tracker.transitionToHalfOpenIfReady_cases cooldown now with eq | ⟨-, eq⟩ <;>
      · simp only [after, step, effect, eq]
        exact small.symm
  | forceHalfOpen =>
      rcases tracker.forceHalfOpen_cases with ⟨-, eq⟩ | ⟨-, eq⟩ <;>
      · simp only [after, step, effect, eq]
        exact small.symm

omit [Rounding] in
/-- A call overflows neither counter exactly if neither gets to `2 ^ 32`. -/
theorem not_overflows_iff (tracker : HealthTracker) (call : Call) :
    ¬ tracker.Overflows call ↔
      Streak.next Effect.endsSuccesses Effect.isSuccess tracker.consecutiveSuccesses.toNat
          (tracker.effect call) < 2 ^ 32 ∧
        Streak.next Effect.isSuccess Effect.isFailure tracker.consecutiveFailures.toNat
          (tracker.effect call) < 2 ^ 32 := by
  have successes := tracker.consecutiveSuccesses.toNat_lt
  have failures := tracker.consecutiveFailures.toNat_lt
  obtain ⟨policy, input⟩ := call
  cases input with
  | recordResult success latencyMs now =>
      cases success with
      | true =>
          show _ ↔ tracker.consecutiveSuccesses.toNat + 1 < 2 ^ 32 ∧ 0 < 2 ^ 32
          constructor
          · intro fits
            have notFull : tracker.consecutiveSuccesses.toNat + 1 ≠ 2 ^ 32 :=
              fun full => fits (.successes full)
            omega
          · rintro short ⟨full⟩
            omega
      | false =>
          show _ ↔ 0 < 2 ^ 32 ∧ tracker.consecutiveFailures.toNat + 1 < 2 ^ 32
          constructor
          · intro fits
            have notFull : tracker.consecutiveFailures.toNat + 1 ≠ 2 ^ 32 :=
              fun full => fits (.failures full)
            omega
          · rintro short ⟨full⟩
            omega
  | transitionToHalfOpenIfReady cooldown now =>
      refine ⟨fun _ => ?_, fun _ => nofun⟩
      cases moved : (tracker.transitionToHalfOpenIfReady cooldown now).2 <;> rw [effect, moved]
      · exact ⟨successes, failures⟩
      · exact ⟨Nat.two_pow_pos 32, failures⟩
  | forceHalfOpen =>
      refine ⟨fun _ => ?_, fun _ => nofun⟩
      cases moved : tracker.forceHalfOpen.2 <;> rw [effect, moved]
      · exact ⟨successes, failures⟩
      · exact ⟨Nat.two_pow_pos 32, failures⟩

/-! ### When they overflow -/

omit [Rounding] in
/-- No counter is counted up `2 ^ 32` times without being cleared. -/
structure ShortStreaks (effects : List Effect) : Prop where
  successes : ∀ part, part <:+: effects → Effect.failure ∉ part → Effect.halfOpen ∉ part →
    part.count Effect.success < 2 ^ 32
  failures : ∀ part, part <:+: effects → Effect.success ∉ part →
    part.count Effect.failure < 2 ^ 32

omit [Rounding] in
theorem countP_isSuccess (part : List Effect) :
    part.countP Effect.isSuccess = part.count Effect.success :=
  List.countP_congr fun effect _ => by simp [Effect.isSuccess]

omit [Rounding] in
theorem countP_isFailure (part : List Effect) :
    part.countP Effect.isFailure = part.count Effect.failure :=
  List.countP_congr fun effect _ => by simp [Effect.isFailure]

omit [Rounding] in
/-- The two conditions of `ShortStreaks`, as what the counters count. -/
theorem shortStreaks_iff (effects : List Effect) :
    ShortStreaks effects ↔
      (∀ part, part <:+: effects → (∀ effect ∈ part, effect.endsSuccesses = false) →
        part.countP Effect.isSuccess < 2 ^ 32) ∧
      ∀ part, part <:+: effects → (∀ effect ∈ part, effect.isSuccess = false) →
        part.countP Effect.isFailure < 2 ^ 32 := by
  simp only [countP_isSuccess, countP_isFailure]
  constructor
  · rintro ⟨successes, failures⟩
    refine ⟨fun part inside kept => successes part inside ?_ ?_,
      fun part inside kept => failures part inside ?_⟩
    · exact fun mem => Bool.noConfusion (kept _ mem)
    · exact fun mem => Bool.noConfusion (kept _ mem)
    · exact fun mem => Bool.noConfusion (kept _ mem)
  · rintro ⟨successes, failures⟩
    refine ⟨fun part inside noFailure noMove => successes part inside fun effect mem => ?_,
      fun part inside noSuccess => failures part inside fun effect mem => ?_⟩
    · cases effect with
      | failure => exact absurd mem noFailure
      | halfOpen => exact absurd mem noMove
      | success | none => rfl
    · cases effect with
      | success => exact absurd mem noSuccess
      | failure | halfOpen | none => rfl

/-- **No increment of a result counter overflows** in a run of results and moves to half-open,
each call under a policy of its own, if and only if no counter is counted up `2 ^ 32` times
without being cleared. -/
theorem allSteps_not_overflows_iff (calls : List Call) :
    AllSteps after (fun tracker call => ¬ tracker.Overflows call) default calls ↔
      ShortStreaks (effects calls) := by
  have successes := Streak.allSteps_not_wraps_iff
    (fun tracker : HealthTracker => tracker.consecutiveSuccesses.toNat) (Nat.two_pow_pos 32)
    (show (default : HealthTracker).consecutiveSuccesses.toNat = 0 from rfl)
    toNat_consecutiveSuccesses_after calls
  have failures := Streak.allSteps_not_wraps_iff
    (fun tracker : HealthTracker => tracker.consecutiveFailures.toNat) (Nat.two_pow_pos 32)
    (show (default : HealthTracker).consecutiveFailures.toNat = 0 from rfl)
    toNat_consecutiveFailures_after calls
  simp only [not_overflows_iff, allSteps_and]
  rw [shortStreaks_iff]
  exact and_congr successes failures

/-- On a `Healthy` tracker nothing stops the successes. -/
theorem toNat_consecutiveSuccesses_run (call : Call) {latencyMs : ℕ} {now : Instant}
    (success : call.2 = .recordResult true latencyMs now) (n : ℕ) :
    (run after default (List.replicate n call)).consecutiveSuccesses.toNat = n % 2 ^ 32 := by
  induction n with
  | zero => rfl
  | succ n ih =>
      rw [List.replicate_succ', run_concat, after, success, step_success,
        onSuccess_consecutiveSuccesses, UInt32.toNat_add]
      show ((run after default (List.replicate n call)).consecutiveSuccesses.toNat + 1) % 2 ^ 32 = _
      rw [ih, Nat.mod_add_mod]

omit [Rounding] in
/-- The last of `2 ^ 32` successes in a row. -/
theorem not_allSteps_not_overflows :
    letI := Rounding.nearestEven
    ¬ ∀ calls : List Call,
      AllSteps after (fun tracker call => ¬ tracker.Overflows call) default calls := by
  let _ := Rounding.nearestEven
  intro always
  obtain ⟨n, full⟩ : ∃ n, n % 2 ^ 32 + 1 = 2 ^ 32 := ⟨2 ^ 32 - 1, by norm_num⟩
  let success : Call := (default, .recordResult true 10 0)
  have fits := allSteps_iff.mp (always (List.replicate n success ++ [success])) _ success [] rfl
  rw [← toNat_consecutiveSuccesses_run success rfl] at full
  exact fits (.successes full)

end HealthTracker

end TrustRouter
