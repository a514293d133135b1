import TrustRouter.Prelude.Binary64
import TrustRouter.Prelude.Bucket
import TrustRouter.SidecarConfig

/-!
# The rate limiter

`TokenBucket` counts tokens and seconds in `f64`.  Two things are proved of it.

In every arithmetic that counts exactly, so in binary64 too, the tokens of a bucket are a
finite number between zero and the capacity (`WellFormed`), and taking a token leaves
exactly one less.  In exact arithmetic it is a `Bucket` over the rationals (`toBucket`),
and the bound on every window is a fact about those.

A bucket is only made from a configuration that has been validated, and so its rate is not
zero.  That is what keeps `Duration::from_secs_f64` from panicking
(`tryFromSecsF64_retryAfter`).
-/

namespace TrustRouter

/-- Nanoseconds as seconds. -/
def seconds (nanos : ℕ) : ℚ := nanos / 10 ^ 9

theorem seconds_mono {a b : ℕ} (le : a ≤ b) : seconds a ≤ seconds b :=
  div_le_div_of_nonneg_right (Nat.cast_le.mpr le) (by norm_num)

theorem seconds_le_seconds {a b : ℕ} : seconds a ≤ seconds b ↔ a ≤ b := by
  rw [seconds, seconds, div_le_div_iff_of_pos_right (by norm_num), Nat.cast_le]

/-- The seconds between two instants, saturating. -/
theorem seconds_sub (a b : ℕ) : seconds (a - b) = max (seconds a - seconds b) 0 := by
  rcases le_total b a with le | le
  · rw [max_eq_left (sub_nonneg.mpr (seconds_mono le)), seconds, seconds, seconds,
      Nat.cast_sub le, sub_div]
  · rw [Nat.sub_eq_zero_of_le le, max_eq_right (sub_nonpos.mpr (seconds_mono le))]
    simp [seconds]

/-- The capacity, as a number. -/
def RateLimitConfig.size (config : RateLimitConfig) : ℚ := config.capacity.toNat

/-- The refill rate, as a number. -/
def RateLimitConfig.rate (config : RateLimitConfig) : ℚ := config.refillPerSecond.toNat

theorem RateLimitConfig.size_nonneg (config : RateLimitConfig) : 0 ≤ config.size :=
  Nat.cast_nonneg _

theorem RateLimitConfig.rate_nonneg (config : RateLimitConfig) : 0 ≤ config.rate :=
  Nat.cast_nonneg _

/-- `Duration::try_from_secs_f64`: to the nearest nanosecond, ties to even. -/
def tryFromSecsF64 : F64 → Option Duration
  | .finite secs =>
      let nanos := (Binary64.roundTies (secs * 10 ^ 9)).toNat
      if secs < 0 ∨ 2 ^ 64 * 10 ^ 9 ≤ nanos then none else some nanos
  | _ => none

/-- `Duration::from_secs_f64`, which panics where there is no duration. -/
def fromSecsF64 (secs : F64) : Duration := (tryFromSecsF64 secs).getD 0

structure RateLimitExceeded where
  retryAfter : Duration
  deriving DecidableEq

structure TokenBucket where
  capacity : F64
  refillPerSecond : F64
  tokens : F64
  lastRefill : Instant
  deriving DecidableEq

section

variable [Rounding]

/-- `Duration::as_secs_f64`. -/
def asSecsF64 (duration : Duration) : F64 :=
  .ofRat (duration / 10 ^ 9 : ℕ) + .ofRat (duration % 10 ^ 9 : ℕ) / .ofRat (10 ^ 9 : ℕ)

namespace TokenBucket

def new (config : RateLimitConfig) (now : Instant) : TokenBucket where
  capacity := .ofRat config.capacity.toNat
  refillPerSecond := .ofRat config.refillPerSecond.toNat
  tokens := .ofRat config.capacity.toNat
  lastRefill := now

def refill (bucket : TokenBucket) (now : Instant) : TokenBucket :=
  let elapsed := asSecsF64 (now - bucket.lastRefill)
  { bucket with
    tokens := (bucket.tokens + elapsed * bucket.refillPerSecond).min bucket.capacity
    lastRefill := now }

def tryAcquireAt (bucket : TokenBucket) (now : Instant) :
    TokenBucket × Except RateLimitExceeded Unit :=
  let bucket := bucket.refill now
  if .finite 1 ≤ bucket.tokens then
    ({ bucket with tokens := bucket.tokens - .finite 1 }, .ok ())
  else
    let missingTokens := .finite 1 - bucket.tokens
    let waitSeconds := missingTokens / bucket.refillPerSecond
    (bucket, .error ⟨fromSecsF64 (waitSeconds.max (.ofRat (1 / 1000)))⟩)

/-- The bucket after a call. -/
def acquire (bucket : TokenBucket) (now : Instant) : TokenBucket := (bucket.tryAcquireAt now).1

/-- The calls made at some instants, and how each was answered. -/
def answers (bucket : TokenBucket) (calls : List Instant) :
    List (Instant × Except RateLimitExceeded Unit) :=
  outputs acquire (fun bucket now => (now, (bucket.tryAcquireAt now).2)) bucket calls

/-- The number of calls between two instants that return `Ok`. -/
def okIn (bucket : TokenBucket) (calls : List Instant) (start stop : Instant) : ℕ :=
  (bucket.answers calls).countP fun (now, answer) =>
    start ≤ now ∧ now ≤ stop ∧ answer = .ok ()

end TokenBucket

end

namespace TokenBucket

/-! ## Buckets of a configuration -/

section

variable [Rounding]

/-- The tokens of a bucket: a number that is an `f64`, between zero and the capacity. -/
structure WellFormed (config : RateLimitConfig) (bucket : TokenBucket) : Prop where
  capacity : bucket.capacity = .finite config.size
  refillPerSecond : bucket.refillPerSecond = .finite config.rate
  tokens : ∃ level : ℚ, bucket.tokens = .finite level ∧ Rounding.round level = .finite level ∧
    0 ≤ level ∧ level ≤ config.size

variable [Rounding.CountsExactly] {config : RateLimitConfig} {bucket : TokenBucket}

omit [Rounding.CountsExactly] in
theorem WellFormed.bounds (formed : bucket.WellFormed config) {level : ℚ}
    (tokens : bucket.tokens = .finite level) : 0 ≤ level ∧ level ≤ config.size := by
  obtain ⟨-, -, level', tokens', -, bounds⟩ := formed
  exact F64.finite.inj (tokens'.symm.trans tokens) ▸ bounds

theorem ofRat_toNat (n : UInt32) : F64.ofRat n.toNat = .finite n.toNat :=
  Rounding.CountsExactly.round_natCast (n.toNat_lt.trans (by norm_num))

theorem wellFormed_new (config : RateLimitConfig) (now : Instant) :
    (new config now).WellFormed config where
  capacity := ofRat_toNat _
  refillPerSecond := ofRat_toNat _
  tokens := ⟨_, ofRat_toNat _, ofRat_toNat _, Nat.cast_nonneg _, le_rfl⟩

omit [Rounding.CountsExactly] in
theorem asSecsF64_notNeg (duration : Duration) : (asSecsF64 duration).NotNeg :=
  F64.NotNeg.add (F64.notNeg_round (Nat.cast_nonneg _))
    (F64.NotNeg.div (F64.notNeg_round (Nat.cast_nonneg _)) (F64.notNeg_round (Nat.cast_nonneg _)))

/-- Whatever flows into a bucket, its tokens stay a number within the capacity. -/
theorem exists_min_capacity {level : ℚ} {flow : F64} {capacity : ℕ} (nonneg : 0 ≤ level)
    (notNeg : flow.NotNeg) (small : capacity < 2 ^ 53) :
    ∃ level' : ℚ, (F64.finite level + flow).min (.finite capacity) = .finite level' ∧
      Rounding.round level' = .finite level' ∧ 0 ≤ level' ∧ level' ≤ capacity := by
  have full := Rounding.CountsExactly.round_natCast small
  have sum : (F64.finite level + flow).NotNeg := (F64.notNeg_finite.mpr nonneg).add notNeg
  -- the sum may be rounded to an infinity, which the capacity cuts off
  by_cases below : F64.finite level + flow < .finite capacity
  · have value : (F64.finite level + flow).min (.finite capacity) = F64.finite level + flow := by
      simp [F64.min, below]
    -- below the capacity the sum is a number, and one that has been rounded already
    rcases sum.cases with total | total | ⟨level', total, nonneg'⟩
    · simp [total] at below
    · simp [total] at below
    · obtain ⟨_, b, same, rfl⟩ := F64.exists_finite_of_add total
      cases same
      rw [total] at below
      exact ⟨level', value.trans total, Rounding.round_idem total, nonneg',
        (F64.finite_lt_finite.mp below).le⟩
  · refine ⟨capacity, ?_, full, Nat.cast_nonneg _, le_rfl⟩
    simp [F64.min, below]

theorem WellFormed.refill (formed : bucket.WellFormed config) (now : Instant) :
    (bucket.refill now).WellFormed config := by
  obtain ⟨capacity, rate, level, tokens, -, nonneg, -⟩ := formed
  have flow : (asSecsF64 (now - bucket.lastRefill) * bucket.refillPerSecond).NotNeg :=
    (asSecsF64_notNeg _).mul (rate ▸ F64.notNeg_finite.mpr (Nat.cast_nonneg _))
  refine ⟨capacity, rate, ?_⟩
  unfold TokenBucket.refill
  rw [tokens, capacity]
  exact exists_min_capacity nonneg flow (config.capacity.toNat_lt.trans (by norm_num))

/-- Taking a token leaves exactly one less. -/
theorem WellFormed.sub_one (formed : bucket.WellFormed config) {level : ℚ}
    (tokens : bucket.tokens = .finite level) (enough : 1 ≤ level) :
    bucket.tokens - .finite 1 = .finite (level - 1) ∧
      Rounding.round (level - 1) = .finite (level - 1) := by
  obtain ⟨-, -, level', tokens', representable, -, bounded⟩ := formed
  obtain rfl := F64.finite.inj (tokens.symm.trans tokens')
  have small : level < 2 ^ 53 := by
    refine bounded.trans_lt ?_
    unfold RateLimitConfig.size
    exact_mod_cast config.capacity.toNat_lt.trans (by norm_num)
  have exact_ := Rounding.CountsExactly.round_sub_one representable enough small
  exact ⟨by rw [tokens, F64.finite_sub_finite, exact_], exact_⟩

/-- A call that finds a token takes it. -/
theorem WellFormed.tryAcquireAt_of_one_le (formed : bucket.WellFormed config) {now : Instant}
    {level : ℚ} (tokens : (bucket.refill now).tokens = .finite level) (enough : 1 ≤ level) :
    bucket.tryAcquireAt now =
      ({ bucket.refill now with tokens := .finite (level - 1) }, .ok ()) := by
  have taken := ((formed.refill now).sub_one tokens enough).1
  unfold tryAcquireAt
  dsimp only
  rw [if_pos (tokens ▸ F64.finite_le_finite.mpr enough), taken]

omit [Rounding.CountsExactly] in
/-- A call that finds none is refused, and leaves the bucket refilled. -/
theorem tryAcquireAt_of_lt_one {now : Instant} {level : ℚ}
    (tokens : (bucket.refill now).tokens = .finite level) (short : level < 1) :
    ∃ exceeded, bucket.tryAcquireAt now = (bucket.refill now, .error exceeded) := by
  have none_ : ¬ F64.finite 1 ≤ (bucket.refill now).tokens := by
    rw [tokens, F64.finite_le_finite]
    exact not_le.mpr short
  exact ⟨_, if_neg none_⟩

theorem WellFormed.acquire (formed : bucket.WellFormed config) (now : Instant) :
    (bucket.acquire now).WellFormed config := by
  have filled := formed.refill now
  obtain ⟨capacity, rate, level, tokens, -, nonneg, bounded⟩ := filled
  rcases le_or_gt 1 level with enough | short
  · obtain ⟨-, representable⟩ := (formed.refill now).sub_one tokens enough
    rw [TokenBucket.acquire, formed.tryAcquireAt_of_one_le tokens enough]
    exact ⟨capacity, rate, level - 1, rfl, representable, by linarith, by linarith⟩
  · obtain ⟨_, refused⟩ := tryAcquireAt_of_lt_one tokens short
    rw [TokenBucket.acquire, refused]
    exact formed.refill now

/-! ### Calls at one instant -/

theorem asSecsF64_zero : asSecsF64 0 = .finite 0 := by
  have zero : F64.ofRat ((0 : ℕ) : ℚ) = .finite 0 := by
    rw [F64.ofRat, Nat.cast_zero, Rounding.round_zero]
  have billion : F64.ofRat ((10 ^ 9 : ℕ) : ℚ) = .finite ((10 ^ 9 : ℕ) : ℚ) :=
    Rounding.CountsExactly.round_natCast (by norm_num)
  rw [asSecsF64, Nat.zero_div, Nat.zero_mod, zero, billion,
    F64.finite_div_finite _ (by norm_num), zero_div, Rounding.round_zero, F64.finite_add_finite,
    add_zero, Rounding.round_zero]

/-- A bucket that has just been refilled is full enough. -/
theorem WellFormed.refill_lastRefill (formed : bucket.WellFormed config) :
    bucket.refill bucket.lastRefill = bucket := by
  obtain ⟨capacity, rate, level, tokens, representable, -, bounded⟩ := formed
  have flow : asSecsF64 (bucket.lastRefill - bucket.lastRefill) * bucket.refillPerSecond =
      .finite 0 := by
    rw [Nat.sub_self, asSecsF64_zero, rate, F64.finite_mul_finite, zero_mul, Rounding.round_zero]
  have kept : (bucket.tokens + .finite 0).min bucket.capacity = bucket.tokens := by
    rw [tokens, capacity, F64.finite_add_finite, add_zero, representable, F64.finite_min_finite,
      min_eq_left bounded]
  unfold TokenBucket.refill
  dsimp only
  rw [flow, kept]

theorem WellFormed.refill_refill (formed : bucket.WellFormed config) (now : Instant) :
    (bucket.refill now).refill now = bucket.refill now :=
  (formed.refill now).refill_lastRefill

/-- **The tokens of a bucket stay within its capacity.** -/
theorem wellFormed_run (config : RateLimitConfig) (created : Instant) (calls : List Instant) :
    (run TokenBucket.acquire (new config created) calls).WellFormed config :=
  run_induction (wellFormed_new config created) (fun _ now formed => formed.acquire now) calls

/-! ### What a refusal announces -/

theorem round_unit {q : ℚ} (nonneg : 0 ≤ q) (le : q ≤ 1) :
    ∃ r : ℚ, Rounding.round q = .finite r ∧ 0 ≤ r ∧ r ≤ 1 := by
  have one : Rounding.round 1 = .finite 1 := by
    simpa using Rounding.CountsExactly.round_natCast (n := 1) (by norm_num)
  have below := Rounding.round_mono nonneg
  have above := Rounding.round_mono le
  rw [Rounding.round_zero] at below
  rw [one] at above
  cases value : Rounding.round q with
  | nan => simp [value] at below
  | negInf => simp [value] at below
  | posInf => simp [value] at above
  | finite r => exact ⟨r, rfl, by simpa [value] using below, by simpa [value] using above⟩

/-- The wait for the token that is missing is a duration of at most one second, because a
validated rate is at least one token a second. -/
theorem tryFromSecsF64_wait (valid : config.validate = .ok ()) {level : ℚ} (nonneg : 0 ≤ level)
    (short : level < 1) :
    ∃ wait ≤ 10 ^ 9, tryFromSecsF64
      (((F64.finite 1 - .finite level) / .finite config.rate).max (.ofRat (1 / 1000))) =
        some wait := by
  have rate : 1 ≤ config.rate := by
    have positive := (RateLimitConfig.validate_eq_ok_iff.mp valid).2
    unfold RateLimitConfig.rate
    exact_mod_cast positive
  obtain ⟨missing, missing_eq, missing_nonneg, missing_le⟩ :=
    round_unit (by linarith : 0 ≤ 1 - level) (by linarith)
  obtain ⟨wait, wait_eq, wait_nonneg, wait_le⟩ :=
    round_unit (div_nonneg missing_nonneg config.rate_nonneg)
      ((div_le_one (by linarith)).mpr (missing_le.trans rate))
  obtain ⟨least, least_eq, least_nonneg, least_le⟩ :=
    round_unit (by norm_num : (0 : ℚ) ≤ 1 / 1000) (by norm_num)
  have nonneg' : 0 ≤ max wait least := wait_nonneg.trans (le_max_left _ _)
  have nanos : Binary64.roundTies (max wait least * 10 ^ 9) ≤ 10 ^ 9 := by
    refine Binary64.roundTies_le ?_
    push_cast
    have le : max wait least ≤ 1 := max_le wait_le least_le
    linarith
  have nanos' : (Binary64.roundTies (max wait least * 10 ^ 9)).toNat ≤ 10 ^ 9 :=
    Int.toNat_le.mpr (by exact_mod_cast nanos)
  refine ⟨_, nanos', ?_⟩
  rw [F64.finite_sub_finite, missing_eq, F64.finite_div_finite _ (by linarith), wait_eq,
    F64.ofRat, least_eq, F64.finite_max_finite, tryFromSecsF64]
  -- `from_secs_f64` panics on what is negative or too long, and the wait is neither
  refine if_neg ?_
  rintro (negative | big)
  · exact absurd nonneg' (not_le.mpr negative)
  · exact absurd (big.trans nanos') (by norm_num)

/-- **A refusal announces a wait of at most one second.** -/
theorem retryAfter_le (valid : config.validate = .ok ()) (formed : bucket.WellFormed config)
    {now : Instant} {exceeded : RateLimitExceeded}
    (refused : (bucket.tryAcquireAt now).2 = .error exceeded) :
    exceeded.retryAfter ≤ 10 ^ 9 := by
  obtain ⟨-, rate, level, tokens, -, nonneg, -⟩ := formed.refill now
  unfold tryAcquireAt at refused
  dsimp only at refused
  rw [tokens, rate] at refused
  split_ifs at refused with enough
  cases refused
  have short : level < 1 := not_le.mp fun le => enough (F64.finite_le_finite.mpr le)
  obtain ⟨wait, le, value⟩ := tryFromSecsF64_wait valid nonneg short
  show fromSecsF64 _ ≤ _
  rw [fromSecsF64, value]
  exact le

end

/-! ## Exact arithmetic -/

section Exact

/-- What a bucket holds in exact arithmetic. -/
def toBucket (bucket : TokenBucket) : Bucket ℚ := ⟨bucket.tokens.toRat, seconds bucket.lastRefill⟩

variable {config : RateLimitConfig} {bucket : TokenBucket}

theorem asSecsF64_exact (duration : Duration) :
    letI := Rounding.exact
    asSecsF64 duration = .finite (seconds duration) := by
  let _ := Rounding.exact
  have whole : ((duration / 10 ^ 9 : ℕ) : ℚ) + (duration % 10 ^ 9 : ℕ) / 10 ^ 9 =
      seconds duration := by
    rw [seconds, eq_div_iff (by norm_num), add_mul, div_mul_cancel₀ _ (by norm_num)]
    exact_mod_cast Nat.div_add_mod' duration (10 ^ 9)
  show F64.finite _ + F64.finite _ / F64.finite _ = _
  rw [F64.finite_div_finite _ (by norm_num)]
  exact congrArg F64.finite (by exact_mod_cast whole)

theorem tokens_refill (now : Instant) :
    letI := Rounding.exact
    bucket.WellFormed config →
      (bucket.refill now).tokens =
        .finite (bucket.toBucket.fill config.size config.rate (seconds now)).level := by
  let _ := Rounding.exact
  rintro ⟨capacity, rate, level, tokens, -⟩
  have flow : asSecsF64 (now - bucket.lastRefill) * bucket.refillPerSecond =
      .finite (max (seconds now - seconds bucket.lastRefill) 0 * config.rate) := by
    rw [asSecsF64_exact, rate, F64.finite_mul_finite, seconds_sub]
    rfl
  show (bucket.tokens + asSecsF64 (now - bucket.lastRefill) * bucket.refillPerSecond).min
    bucket.capacity = _
  rw [flow, toBucket, tokens, capacity]
  exact F64.finite_min_finite _ _

/-- Refilling is filling. -/
theorem toBucket_refill (now : Instant) :
    letI := Rounding.exact
    bucket.WellFormed config →
      (bucket.refill now).toBucket =
        bucket.toBucket.fill config.size config.rate (seconds now) := by
  let _ := Rounding.exact
  intro formed
  rw [toBucket, tokens_refill now formed]
  rfl

/-- A call is a caller of the bucket, who is served if the call returns `Ok`. -/
theorem tryAcquireAt_exact (now : Instant) :
    letI := Rounding.exact
    bucket.WellFormed config →
      (bucket.acquire now).toBucket =
          bucket.toBucket.acquire config.size config.rate (seconds now) ∧
        ((bucket.tryAcquireAt now).2 = .ok () ↔
          1 ≤ (bucket.toBucket.fill config.size config.rate (seconds now)).level) := by
  let _ := Rounding.exact
  intro formed
  have := Rounding.countsExactly_exact
  obtain ⟨level, tokens, -⟩ := (formed.refill now).tokens
  have filled := toBucket_refill now formed
  have value : (bucket.refill now).toBucket = ⟨level, seconds now⟩ := by
    rw [toBucket, tokens]
    rfl
  -- the comparison of `f64` values is the one of numbers, and so is taking one token
  rw [Bucket.acquire, ← filled, value, acquire, tryAcquireAt]
  dsimp only
  rw [tokens]
  by_cases enough : 1 ≤ level
  · rw [if_pos (F64.finite_le_finite.mpr enough)]
    have less : F64.finite level - .finite 1 = .finite (level - 1) := F64.finite_sub_finite _ _
    refine ⟨?_, by simp [enough]⟩
    rw [Bucket.take, if_pos enough, less]
    rfl
  · rw [if_neg fun le => enough (F64.finite_le_finite.mp le)]
    refine ⟨?_, by simp [enough]⟩
    rw [Bucket.take, if_neg enough, ← value]

/-- The calls answered with `Ok` are the callers served. -/
theorem okIn_exact (calls : List Instant) (start stop : Instant) :
    letI := Rounding.exact
    bucket.WellFormed config →
      bucket.okIn calls start stop =
        bucket.toBucket.servedIn config.size config.rate (calls.map seconds) (seconds start)
          (seconds stop) := by
  let _ := Rounding.exact
  have := Rounding.countsExactly_exact
  induction calls generalizing bucket with
  | nil => exact fun _ => rfl
  | cons now rest ih =>
      intro formed
      obtain ⟨state, answer⟩ := tryAcquireAt_exact now formed
      rw [List.map_cons, Bucket.servedIn_cons, ← state, ← ih (formed.acquire now), okIn, answers,
        outputs, List.countP_cons, add_comm]
      congr 1
      simp only [seconds_le_seconds, ← answer]
      by_cases accepted : (bucket.tryAcquireAt now).2 = .ok () <;> simp [accepted]

/-- **The bucket enforces its rate over every window.**  In exact arithmetic, whatever
calls are made at instants that do not decrease: the tokens stay between zero and the
capacity, no window lets through more than the capacity and what flows in during it, and
a call that comes `1 / rate` seconds after the one before it is let through. -/
theorem rate_enforced (config : RateLimitConfig) (valid : config.validate = .ok ())
    (created : Instant) (calls : List Instant) (ordered : calls.Pairwise (· ≤ ·)) :
    letI := Rounding.exact
    let bucket := run TokenBucket.acquire (new config created) calls
    (.finite 0 ≤ bucket.tokens ∧ bucket.tokens ≤ bucket.capacity ∧
        bucket.capacity = .finite config.size) ∧
      (∀ start stop, start ≤ stop →
        ((new config created).okIn calls start stop : ℚ) ≤
          config.size + config.rate * (seconds stop - seconds start)) ∧
      ∀ previous ∈ calls.getLast?, ∀ now,
        1 / config.rate ≤ seconds now - seconds previous →
          (bucket.tryAcquireAt now).2 = .ok () := by
  let _ := Rounding.exact
  have := Rounding.countsExactly_exact
  obtain ⟨capacity_pos, rate_pos⟩ := RateLimitConfig.validate_eq_ok_iff.mp valid
  have formed := wellFormed_run config created calls
  obtain ⟨capacity, -, level, tokens, -, nonneg, bounded⟩ := formed
  refine ⟨?_, ?_, ?_⟩
  · rw [tokens, capacity]
    exact ⟨F64.finite_le_finite.mpr nonneg, F64.finite_le_finite.mpr bounded, rfl⟩
  · intro start stop window
    have fresh := wellFormed_new config created
    have bounds : (new config created).toBucket.InBounds config.size :=
      ⟨config.size_nonneg, le_rfl⟩
    rw [okIn_exact calls start stop fresh, mul_comm config.rate]
    exact Bucket.served_window_le config.rate_nonneg (seconds_mono window) _ bounds
      (List.pairwise_map.mpr (ordered.imp seconds_mono))
  · intro previous last now waited
    obtain ⟨before, rfl⟩ := List.getLast?_eq_some_iff.mp last
    -- every call moves the bucket to its instant, whether or not it is answered with `Ok`
    have filledAt : (run TokenBucket.acquire (new config created)
        (before ++ [previous])).lastRefill = previous := by
      rw [run_concat, acquire, tryAcquireAt]
      split_ifs <;> rfl
    have rate_pos' : 0 < config.rate := Nat.cast_pos.mpr rate_pos
    refine (tryAcquireAt_exact now (wellFormed_run config created _)).2.mpr ?_
    refine Bucket.one_le_fill_level ?_ (Nat.one_le_cast.mpr capacity_pos) ?_ config.rate_nonneg
    · rw [toBucket, tokens]
      exact nonneg
    · rw [toBucket, filledAt]
      exact (div_le_iff₀ rate_pos').mp waited

/-- Three calls half a second apart, under the default configuration. -/
theorem rate_enforced_default :
    letI := Rounding.exact
    let calls := [0, 5 * 10 ^ 8, 10 ^ 9]
    (((new default 0).okIn calls 0 (10 ^ 9) : ℚ) ≤ 120 + 60 * 1) ∧
      ((run TokenBucket.acquire (new default 0) calls).tryAcquireAt (2 * 10 ^ 9)).2 = .ok () := by
  have size : (default : RateLimitConfig).size = 120 := rfl
  have rate : (default : RateLimitConfig).rate = 60 := rfl
  have enforced := rate_enforced default (by decide) 0 [0, 5 * 10 ^ 8, 10 ^ 9] (by decide)
  have window := enforced.2.1 0 (10 ^ 9) (by norm_num)
  have waited := enforced.2.2 (10 ^ 9) rfl (2 * 10 ^ 9) (by norm_num [seconds, rate])
  have span : seconds (10 ^ 9) - seconds 0 = 1 := by norm_num [seconds]
  rw [size, rate, span] at window
  exact ⟨window, waited⟩

end Exact

end TokenBucket

end TrustRouter
