import Mathlib.Algebra.Order.Archimedean.Basic
import TrustRouter.RateLimit

/-!
# Clocks that go back

`TokenBucket::refill` takes a reading that is earlier than the last one for no time at all,
and still makes it the instant it counts from.  The next reading that is later is then
credited with time that has been credited before.

In exact arithmetic the calls that return `Ok` are bounded by what the configuration allows
up to the latest reading as long as no reading goes forward again after one has gone back.
A clock that goes back and forth often enough breaks that bound, under every configuration
that is accepted.
-/

namespace TrustRouter

namespace TokenBucket

/-- The number of calls that return `Ok`. -/
def okCount [Rounding] (bucket : TokenBucket) (calls : List Instant) : ℕ :=
  (bucket.answers calls).countP fun (_, answer) => answer = .ok ()

/-- The largest of the instant of creation and those of the calls. -/
def latest (created : Instant) (calls : List Instant) : Instant := calls.foldl max created

/-- What the configuration allows up to an instant. -/
def allowance (config : RateLimitConfig) (created stop : Instant) : ℚ :=
  config.size + config.rate * (seconds stop - seconds created)

theorem latest_append (created : Instant) (first second : List Instant) :
    latest created (first ++ second) = latest (latest created first) second :=
  List.foldl_append

theorem le_latest (created : Instant) (calls : List Instant) :
    created ≤ latest created calls ∧ ∀ now ∈ calls, now ≤ latest created calls := by
  induction calls generalizing created with
  | nil => exact ⟨le_rfl, by simp⟩
  | cons now rest ih =>
      obtain ⟨first, others⟩ := ih (max created now)
      refine ⟨(le_max_left _ _).trans first, fun now' mem => ?_⟩
      rcases List.mem_cons.mp mem with rfl | mem
      · exact (le_max_right _ _).trans first
      · exact others now' mem

theorem latest_le {created stop : Instant} {calls : List Instant} (running : created ≤ stop)
    (within : ∀ now ∈ calls, now ≤ stop) : latest created calls ≤ stop := by
  induction calls generalizing created with
  | nil => exact running
  | cons now rest ih =>
      obtain ⟨first, others⟩ := List.forall_mem_cons.mp within
      exact ih (max_le running first) others

variable {config : RateLimitConfig} {bucket : TokenBucket}

theorem okCount_append [Rounding] (first second : List Instant) :
    bucket.okCount (first ++ second) =
      bucket.okCount first + (run acquire bucket first).okCount second := by
  unfold okCount answers
  rw [outputs_append, List.countP_append]

/-- The calls answered with `Ok` are the callers served, whenever they come. -/
theorem okCount_exact (calls : List Instant) :
    letI := Rounding.exact
    bucket.WellFormed config →
      bucket.okCount calls =
        (bucket.toBucket.served config.size config.rate (calls.map seconds)).length := by
  let _ := Rounding.exact
  have := Rounding.countsExactly_exact
  induction calls generalizing bucket with
  | nil => exact fun _ => rfl
  | cons now rest ih =>
      intro formed
      obtain ⟨state, answer⟩ := tryAcquireAt_exact now formed
      rw [List.map_cons, Bucket.served, ← state, List.length_append, ← ih (formed.acquire now),
        okCount, answers, outputs, List.countP_cons, add_comm]
      congr 1
      simp only [← answer]
      by_cases accepted : (bucket.tryAcquireAt now).2 = .ok () <;> simp [accepted]

theorem allowance_mono {created stop stop' : Instant} (le : stop ≤ stop') :
    allowance config created stop ≤ allowance config created stop' := by
  have later := mul_le_mul_of_nonneg_left (seconds_mono le) config.rate_nonneg
  unfold allowance
  linarith

theorem seconds_strictMono : StrictMono seconds := fun _ _ less =>
  lt_of_not_ge fun le => not_le.mpr less (seconds_le_seconds.mp le)

theorem toBucket_inBounds_run (config : RateLimitConfig) (created : Instant)
    (calls : List Instant) :
    letI := Rounding.exact
    (run acquire (new config created) calls).toBucket.InBounds config.size := by
  let _ := Rounding.exact
  have := Rounding.countsExactly_exact
  obtain ⟨-, -, level, tokens, -, bounds⟩ := wellFormed_run config created calls
  rw [toBucket, tokens]
  exact bounds

theorem map_backAndForth (prev now : Instant) (n : ℕ) :
    (Bucket.backAndForth prev now n).map seconds =
      Bucket.backAndForth (seconds prev) (seconds now) n := by
  induction n with
  | zero => rfl
  | succ n ih => rw [Bucket.backAndForth, List.map_cons, List.map_cons, ih, Bucket.backAndForth]

theorem le_of_mem_backAndForth {prev now time : Instant} (later : prev < now) {n : ℕ}
    (mem : time ∈ Bucket.backAndForth prev now n) : time ≤ now := by
  induction n with
  | zero => exact absurd mem List.not_mem_nil
  | succ n ih =>
      rcases List.mem_cons.mp mem with rfl | mem
      · exact later.le
      rcases List.mem_cons.mp mem with rfl | mem
      · exact le_rfl
      · exact ih mem

/-- However small the time is that a clock goes back and forth, it is worth any number of
calls in the end. -/
theorem exists_lt_okCount_backAndForth (valid : config.validate = .ok ()) (created : Instant)
    (calls : List Instant) {prev now : Instant} (later : prev < now) (bound : ℚ) :
    letI := Rounding.exact
    ∃ n, bound < (new config created).okCount (calls ++ Bucket.backAndForth prev now n) := by
  let _ := Rounding.exact
  have := Rounding.countsExactly_exact
  obtain ⟨capacity_pos, rate_pos⟩ := RateLimitConfig.validate_eq_ok_iff.mp valid
  have capacity : 1 ≤ config.size := Nat.one_le_cast.mpr capacity_pos
  have rate : 0 < config.rate := Nat.cast_pos.mpr rate_pos
  have later' : seconds prev < seconds now := seconds_strictMono later
  have gain : 0 < min ((seconds now - seconds prev) * config.rate) 1 :=
    lt_min (mul_pos (sub_pos.mpr later') rate) one_pos
  obtain ⟨n, enough⟩ := exists_nat_gt
    (((config.size + 1) * bound + config.size) / min ((seconds now - seconds prev) * config.rate) 1)
  have bounds := toBucket_inBounds_run config created calls
  have filled := Bucket.level_add_le_served_backAndForth rate.le bounds capacity later' n
  rw [← map_backAndForth, ← okCount_exact _ (wellFormed_run config created calls)] at filled
  rw [div_lt_iff₀ gain] at enough
  refine ⟨n, ?_⟩
  rw [okCount_append, Nat.cast_add]
  have before : (0 : ℚ) ≤ (new config created).okCount calls := Nat.cast_nonneg _
  have served : (config.size + 1) * bound < (config.size + 1) *
      ((run acquire (new config created) calls).okCount (Bucket.backAndForth prev now n) : ℚ) := by
    linarith [bounds.1]
  have := lt_of_mul_lt_mul_left served (by linarith)
  linarith

/-- **Calls and clocks that go back.**  In exact arithmetic, as long as the clock never goes
forward again once it has gone back, the calls that return `Ok` are no more than the
configuration allows up to the latest instant; whatever calls have been made, a clock that
goes back and forth between two instants for long enough lets through more. -/
theorem okCount_le_allowance (config : RateLimitConfig) (valid : config.validate = .ok ())
    (created : Instant) :
    letI := Rounding.exact
    (∀ calls, Bucket.NoReturn (created :: calls) →
      ((new config created).okCount calls : ℚ) ≤
        allowance config created (latest created calls)) ∧
    ∀ calls prev now, prev < now → ∃ n,
      allowance config created (latest created (calls ++ Bucket.backAndForth prev now n)) <
        (new config created).okCount (calls ++ Bucket.backAndForth prev now n) := by
  let _ := Rounding.exact
  have := Rounding.countsExactly_exact
  refine ⟨fun calls noReturn => ?_, fun calls prev now later => ?_⟩
  · obtain ⟨running, within⟩ := le_latest created calls
    have served := Bucket.length_served_le config.rate_nonneg
      (toBucket_inBounds_run config created []) (calls.map seconds)
    have elapsed : Bucket.forward (seconds created) (calls.map seconds) ≤
        seconds (latest created calls) - seconds created :=
      (noReturn.map seconds_strictMono).forward_le (seconds_mono running) fun _ mem => by
        obtain ⟨now, among, rfl⟩ := List.mem_map.mp mem
        exact seconds_mono (within now among)
    have flow := mul_le_mul_of_nonneg_right elapsed config.rate_nonneg
    rw [okCount_exact calls (wellFormed_new config created), allowance, mul_comm config.rate]
    exact served.trans (add_le_add le_rfl flow)
  · -- the latest instant stays where it is, whatever the number of rounds
    obtain ⟨n, more⟩ := exists_lt_okCount_backAndForth valid created calls later
      (allowance config created (max (latest created calls) now))
    refine ⟨n, lt_of_le_of_lt (allowance_mono ?_) more⟩
    rw [latest_append]
    exact latest_le (le_max_left _ _) fun time mem =>
      (le_of_mem_backAndForth later mem).trans (le_max_right _ _)

/-- A clock that is set back once, under the default configuration. -/
theorem okCount_le_allowance_default :
    letI := Rounding.exact
    ((new default 0).okCount [10 ^ 9, 0] : ℚ) ≤
      allowance default 0 (latest 0 [10 ^ 9, 0]) := by
  refine (okCount_le_allowance default (by decide) 0).1 _ ?_
  intro before prev now after split later
  -- it only goes forward at the first call, with nothing before it
  rcases before with _ | ⟨_, _ | ⟨_, before⟩⟩
  · simp
  · obtain ⟨-, -, rfl, -⟩ : 0 = _ ∧ 10 ^ 9 = prev ∧ 0 = now ∧ after = [] := by simpa using split
    exact absurd later (Nat.not_lt_zero prev)
  · have length := congrArg List.length split
    simp only [List.length_append, List.length_cons, List.length_nil] at length
    omega

/-- One token and one second: three calls return `Ok` within the first second, where two are
allowed. -/
theorem allowance_lt_okCount :
    letI := Rounding.exact
    let config : RateLimitConfig := ⟨1, 1⟩
    let calls := [10 ^ 9, 0, 10 ^ 9, 0, 10 ^ 9]
    config.validate = .ok () ∧
      allowance config 0 (latest 0 calls) < (new config 0).okCount calls := by
  let _ := Rounding.exact
  have := Rounding.countsExactly_exact
  intro config calls
  have one : config.size = 1 ∧ config.rate = 1 := ⟨rfl, rfl⟩
  have times : calls.map seconds = [1, 0, 1, 0, 1] := by norm_num [calls, seconds]
  have bucket : (new config 0).toBucket = ⟨1, 0⟩ := by
    ext
    · rfl
    · norm_num [new, toBucket, seconds]
  refine ⟨by decide, ?_⟩
  rw [okCount_exact calls (wellFormed_new config 0), bucket, times, one.1, one.2]
  have allowed : allowance config 0 (latest 0 calls) = 2 := by
    have second : latest 0 calls = 10 ^ 9 := by norm_num [calls, latest]
    norm_num [allowance, one, second, seconds]
  rw [allowed]
  norm_num [Bucket.served, Bucket.fill, Bucket.acquire, Bucket.take]

end TokenBucket

end TrustRouter
