import TrustRouter.BatchRouting

/-!
# What a rate limit costs, and when it ends

A request that is answered 429 should have cost nothing, and should be let through once the
time it was told to wait has passed.  Both hold of a request for one token.  A batch takes its
tokens one by one and stops at the first that is missing, which leaves it with none for all it
has taken, and the wait it is told is the wait for one token.

Requests are served at one instant here, so that taking their tokens is `Bucket.takes`
(`acquireTokens_replicate`), and a request is rate limited exactly if it passes its checks and
the bucket, filled up to that instant, holds fewer tokens than it takes
(`status_eq_429_iff`).
-/

namespace TrustRouter

/-- `Duration::from_secs`. -/
def fromSecs (secs : ℕ) : Duration := secs * 10 ^ 9

/-- The clock shows `now` throughout the request. -/
def RequestEnvironment.atInstant (env : RequestEnvironment) (now : Instant) :
    RequestEnvironment :=
  { env with acquireAt := fun _ => now }

/-! ## Programs that do not limit rates -/

namespace App

variable {α β : Type} {first : App α} {next : α → App β}

/-- The program ends in no 429. -/
def Unlimited (program : App α) : Prop :=
  ∀ state secs, (program state).1 ≠ .error (.rateLimited secs)

theorem Unlimited.bind (unlimited : first.Unlimited) (rest : ∀ a, (next a).Unlimited) :
    (first >>= next).Unlimited := by
  intro state secs
  cases answer : first state with
  | mk result state' =>
      cases result with
      | ok a =>
          rw [bind_of_ok answer]
          exact rest a state' secs
      | error error =>
          rw [bind_of_error answer]
          intro limited
          have same : (Except.error error : Except SidecarError α) = .error (.rateLimited secs) :=
            congrArg _ (Except.error.inj limited)
          exact unlimited state secs (answer ▸ same)

theorem unlimited_pure (a : α) : (pure a : App α).Unlimited := fun _ _ => nofun

theorem unlimited_lift (program : StateM AppState α) : Unlimited (program : App α) := by
  intro state secs
  have runs : program state = ((program state).1, (program state).2) := rfl
  rw [lift_apply runs]
  exact nofun

theorem Unlimited.map (unlimited : first.Unlimited) (f : α → β) : (f <$> first).Unlimited := by
  rw [map_eq_pure_bind]
  exact unlimited.bind fun a => unlimited_pure (f a)

/-- The program is a check: it reads the key and the tenants, changes nothing, and ends in no
429. -/
structure IsCheck (program : App α) : Prop where
  keeps : ∀ state, program.Keeps state
  reads : ∀ state state' : AppState, state.apiKey = state'.apiKey →
    state.allowedTenants = state'.allowedTenants → (program state).1 = (program state').1
  unlimited : program.Unlimited

theorem IsCheck.bind (isCheck : first.IsCheck) (rest : ∀ a, (next a).IsCheck) :
    (first >>= next).IsCheck where
  keeps state := by
    have kept := isCheck.keeps state
    cases answer : first state with
    | mk result state' =>
        obtain rfl : state' = state := by simpa [Keeps, answer] using kept
        cases result with
        | ok a =>
            unfold Keeps
            rw [bind_of_ok answer]
            exact (rest a).keeps state'
        | error error =>
            unfold Keeps
            rw [bind_of_error answer]
  reads state state' key tenants := by
    have same := isCheck.reads state state' key tenants
    cases answer : (first state).1 with
    | ok a =>
        rw [bind_of_ok (Prod.ext answer (isCheck.keeps state)),
          bind_of_ok (Prod.ext (same ▸ answer) (isCheck.keeps state'))]
        exact (rest a).reads state state' key tenants
    | error error =>
        rw [bind_of_error (Prod.ext answer (isCheck.keeps state)),
          bind_of_error (Prod.ext (same ▸ answer) (isCheck.keeps state'))]
  unlimited := isCheck.unlimited.bind fun a => (rest a).unlimited

theorem isCheck_check {result : Except SidecarError α}
    (unlimited : ∀ secs, result ≠ .error (.rateLimited secs)) : (check result).IsCheck where
  keeps _ := rfl
  reads _ _ _ _ := rfl
  unlimited _ := unlimited

/-- Checks in sequence. -/
theorem check_bind (first : Except SidecarError α) (next : α → Except SidecarError β) :
    check (first >>= next) = check first >>= fun a => check (next a) := by
  cases first <;> rfl

end App

namespace AppState

open App

/-! ## The checks of a request -/

theorem isCheck_validateIdentifier (field value : String) :
    (check (validateIdentifier field value)).IsCheck := by
  refine isCheck_check fun secs => ?_
  unfold validateIdentifier checkIdentifier
  split_ifs <;> exact nofun

theorem isCheck_checkSize (requests : List BatchRouteItem) :
    (check (checkSize requests)).IsCheck := by
  refine isCheck_check fun secs => ?_
  unfold checkSize
  split_ifs <;> exact nofun

theorem isCheck_validate_route (query : RouteQuery) : (check query.validate).IsCheck := by
  simp only [RouteQuery.validate, check_bind]
  exact (isCheck_validateIdentifier _ _).bind fun _ =>
    (isCheck_validateIdentifier _ _).bind fun _ => isCheck_validateIdentifier _ _

theorem isCheck_validate_item (item : BatchRouteItem) : (check item.validate).IsCheck :=
  isCheck_validate_route item.query

theorem isCheck_validate_result (query : ResultQuery) : (check query.validate).IsCheck := by
  simp only [ResultQuery.validate, check_bind]
  refine (isCheck_validateIdentifier _ _).bind fun _ =>
    (isCheck_validateIdentifier _ _).bind fun _ => isCheck_check fun secs => ?_
  split_ifs <;> exact nofun

theorem isCheck_validate_forceHalfOpen (query : ForceHalfOpenQuery) :
    (check query.validate).IsCheck := by
  simp only [ForceHalfOpenQuery.validate, check_bind]
  exact (isCheck_validateIdentifier _ _).bind fun _ => isCheck_validateIdentifier _ _

theorem isCheck_checkTenant (tenant : TenantId) : (checkTenant tenant).IsCheck where
  keeps _ := rfl
  reads state state' _ tenants := by simp only [checkTenant, tenants]
  unlimited state secs := by
    unfold checkTenant
    dsimp only
    split_ifs <;> exact nofun

theorem isCheck_checkItems (requests : List BatchRouteItem) : (checkItems requests).IsCheck := by
  induction requests with
  | nil => exact isCheck_check fun _ => nofun
  | cons item rest ih =>
      exact (isCheck_validate_item item).bind fun _ =>
        (isCheck_checkTenant item.tenant).bind fun _ => ih

variable [HeaderText] (headers : HeaderMap)

theorem isCheck_checkApiKey : (checkApiKey headers).IsCheck where
  keeps _ := rfl
  reads state state' key _ := by simp only [checkApiKey, key]
  unlimited state secs := by
    show requireApiKey headers state.apiKey ≠ _
    unfold requireApiKey
    cases (headers.lookup "x-api-key").bind HeaderText.toStr with
    | none => exact nofun
    | some actual =>
        dsimp only
        split_ifs <;> exact nofun

theorem isCheck_checks (call : ApiCall) : (checks headers call).IsCheck := by
  have key := isCheck_checkApiKey headers
  cases call with
  | metrics => exact key
  | route query =>
      exact (isCheck_validate_route query).bind fun _ => key.bind fun _ => isCheck_checkTenant _
  | batch requests =>
      exact (isCheck_checkSize requests).bind fun _ => key.bind fun _ => isCheck_checkItems requests
  | plan query =>
      exact (isCheck_validate_route query).bind fun _ => key.bind fun _ => isCheck_checkTenant _
  | result query =>
      exact (isCheck_validate_result query).bind fun _ => key.bind fun _ => isCheck_checkTenant _
  | forceHalfOpen query =>
      exact (isCheck_validate_forceHalfOpen query).bind fun _ =>
        key.bind fun _ => isCheck_checkTenant _

/-- The request passes its checks. -/
def Passes (call : ApiCall) (state : AppState) : Prop := (checks headers call state).1 = .ok ()

variable {headers} {call : ApiCall} {state state' : AppState}

theorem Passes.congr (passes : Passes headers call state) (apiKey : state'.apiKey = state.apiKey)
    (tenants : state'.allowedTenants = state.allowedTenants) : Passes headers call state' :=
  ((isCheck_checks headers call).reads state' state apiKey tenants).trans passes

theorem Passes.checks_eq (passes : Passes headers call state) :
    checks headers call state = (.ok (), state) :=
  Prod.ext passes ((isCheck_checks headers call).keeps state)

/-- A request that passes its checks takes a token. -/
theorem Passes.tokens_pos (passes : Passes headers call state) : 0 < call.tokens := by
  cases call with
  | batch requests =>
      refine List.length_pos_of_ne_nil ?_
      rintro rfl
      cases passes
  | metrics | route | plan | result | forceHalfOpen => exact one_pos

/-! ## What is done for a request that has its tokens -/

section Perform

variable [Rounding] (render : Json → String) (env : RequestEnvironment)

omit [Rounding] [HeaderText] in
theorem unlimited_persistBeforeResponse (event : AuditEvent) :
    (persistBeforeResponse render env event).Unlimited := by
  refine (unlimited_lift _).bind fun result => ?_
  cases result with
  | ok _ => exact unlimited_pure ()
  | error error => exact fun _ _ => nofun

omit [HeaderText] in
theorem unlimited_handleRoute (query : RouteQuery) :
    (handleRoute render env query).Unlimited := by
  refine (unlimited_lift _).bind fun decision => (unlimited_lift _).bind fun event => ?_
  cases event with
  | none => exact fun _ _ => nofun
  | some event =>
      exact (unlimited_persistBeforeResponse render env event).bind fun _ =>
        (unlimited_lift _).bind fun _ => unlimited_pure _

omit [HeaderText] in
theorem unlimited_handlePlan (query : RouteQuery) : (handlePlan render env query).Unlimited := by
  refine (unlimited_lift _).bind fun planned => ?_
  cases planned with
  | error error => exact fun _ _ => nofun
  | ok outcome =>
      refine (unlimited_lift _).bind fun event => ?_
      cases event with
      | none => exact fun _ _ => nofun
      | some event =>
          exact (unlimited_persistBeforeResponse render env event).bind fun _ =>
            Unlimited.bind (fun _ _ => nofun) fun _ => unlimited_pure _

omit [HeaderText] in
theorem unlimited_routeBatch (requests : List BatchRouteItem) :
    (routeBatch render env requests).Unlimited := by
  refine (unlimited_lift _).bind fun progress => (unlimited_lift _).bind fun appended => ?_
  cases appended with
  | ok _ => exact unlimited_pure _
  | error error => exact fun _ _ => nofun

omit [HeaderText] in
/-- A request that has its tokens is not rate limited. -/
theorem unlimited_perform (call : ApiCall) : (perform render env call).Unlimited := by
  cases call with
  | metrics => exact fun _ _ => nofun
  | route query => exact (unlimited_handleRoute render env query).map _
  | batch requests => exact (unlimited_routeBatch render env requests).map _
  | plan query => exact (unlimited_handlePlan render env query).map _
  | result query => exact fun _ _ => nofun
  | forceHalfOpen query => exact fun _ _ => nofun

end Perform

/-! ## The tokens of a request -/

variable [Rounding] [Rounding.CountsExactly] {config : RateLimitConfig} {now : Instant} {level : ℚ}

omit [HeaderText] in
theorem tryAcquire_of_one_le (formed : state.rateLimiter.WellFormed config)
    (tokens : (state.rateLimiter.refill now).tokens = .finite level) (enough : 1 ≤ level) :
    tryAcquire now state = (.ok (), { state with
      rateLimiter := { state.rateLimiter.refill now with tokens := .finite (level - 1) } }) := by
  unfold tryAcquire
  simp only [formed.tryAcquireAt_of_one_le tokens enough]

omit [HeaderText] in
theorem tryAcquire_of_lt_one (valid : config.validate = .ok ())
    (formed : state.rateLimiter.WellFormed config)
    (tokens : (state.rateLimiter.refill now).tokens = .finite level) (short : level < 1) :
    tryAcquire now state = (.error (.rateLimited 1),
      { state with rateLimiter := state.rateLimiter.refill now }) := by
  obtain ⟨exceeded, refused⟩ := TokenBucket.tryAcquireAt_of_lt_one tokens short
  have wait : max (exceeded.retryAfter / 10 ^ 9) 1 = 1 := by
    have le := TokenBucket.retryAfter_le valid formed (congrArg Prod.snd refused)
    exact max_eq_right (Nat.div_le_of_le_mul (by simpa using le))
  unfold tryAcquire
  simp only [refused, wait]

omit [HeaderText] in
/-- **Taking the tokens of a request at one instant.** -/
theorem acquireTokens_replicate (valid : config.validate = .ok ())
    (formed : state.rateLimiter.WellFormed config)
    (tokens : (state.rateLimiter.refill now).tokens = .finite level) (n : ℕ) :
    acquireTokens (List.replicate (n + 1) now) state =
      (if (Bucket.takes (n + 1) level).2 then .ok () else .error (.rateLimited 1),
        { state with rateLimiter :=
          { state.rateLimiter.refill now with
            tokens := .finite (Bucket.takes (n + 1) level).1 } }) := by
  induction n generalizing state level with
  | zero =>
      rw [List.replicate_one, acquireTokens_singleton, Bucket.takes]
      rcases le_or_gt 1 level with enough | short
      · rw [if_pos enough, tryAcquire_of_one_le formed tokens enough]
        rfl
      · rw [if_neg (not_le.mpr short), tryAcquire_of_lt_one valid formed tokens short, ← tokens]
        rfl
  | succ n ih =>
      rw [List.replicate_succ, acquireTokens, Bucket.takes]
      rcases le_or_gt 1 level with enough | short
      · let bucket := { state.rateLimiter.refill now with tokens := .finite (level - 1) }
        have taken : state.rateLimiter.acquire now = bucket :=
          congrArg Prod.fst (formed.tryAcquireAt_of_one_le tokens enough)
        have formed' : bucket.WellFormed config := taken ▸ formed.acquire now
        -- no time passes between two calls, so nothing flows in
        have filled : bucket.refill now = bucket := formed'.refill_lastRefill
        have rest := @ih { state with rateLimiter := bucket } _ formed'
          (congrArg TokenBucket.tokens filled)
        rw [if_pos enough, App.bind_of_ok (tryAcquire_of_one_le formed tokens enough), rest, filled]
      · rw [if_neg (not_le.mpr short),
          App.bind_of_error (tryAcquire_of_lt_one valid formed tokens short), ← tokens]
        rfl

/-! ## A request at one instant -/

variable (render : Json → String) (env : RequestEnvironment)

omit [HeaderText] [Rounding] [Rounding.CountsExactly] in
theorem status_intoResponse_eq_429 {requestId : String} {error : SidecarError} :
    (error.intoResponse requestId).status = 429 ↔ ∃ secs, error = .rateLimited secs := by
  cases error <;> simp [SidecarError.intoResponse]

omit [Rounding.CountsExactly] in
/-- A program that ends in no 429 is not answered 429. -/
theorem status_handle_ne_429
    (unlimited : ∀ secs, (serve render env headers call
      { state with nextRequestId := state.nextRequestId + 1 }).1 ≠ .error (.rateLimited secs)) :
    (handle render env headers call state).1.status ≠ 429 := by
  unfold handle
  dsimp only
  cases served : (serve render env headers call
      { state with nextRequestId := state.nextRequestId + 1 }).1 with
  | ok body => simp
  | error error =>
      intro limited
      obtain ⟨secs, rfl⟩ := status_intoResponse_eq_429.mp limited
      exact unlimited secs served

/-- A request takes its tokens at the instant it is served. -/
theorem acquireTokens_atInstant (valid : config.validate = .ok ())
    (formed : state.rateLimiter.WellFormed config)
    (tokens : (state.rateLimiter.refill now).tokens = .finite level)
    (passes : Passes headers call state) :
    acquireTokens ((List.range call.tokens).map (env.atInstant now).acquireAt) state =
      (if (Bucket.takes call.tokens level).2 then .ok () else .error (.rateLimited 1),
        { state with rateLimiter :=
          { state.rateLimiter.refill now with
            tokens := .finite (Bucket.takes call.tokens level).1 } }) := by
  have instants : (List.range call.tokens).map (env.atInstant now).acquireAt =
      List.replicate call.tokens now := by
    simp [RequestEnvironment.atInstant]
  obtain ⟨n, count⟩ := Nat.exists_eq_add_one_of_ne_zero passes.tokens_pos.ne'
  rw [instants, count]
  exact acquireTokens_replicate valid formed tokens n

/-- A request that passes its checks and finds too few tokens is told to wait for a second,
and the tokens it has found are gone. -/
theorem handle_of_lt (valid : config.validate = .ok ())
    (formed : state.rateLimiter.WellFormed config)
    (tokens : (state.rateLimiter.refill now).tokens = .finite level)
    (passes : Passes headers call state) (short : level < call.tokens) :
    handle render (env.atInstant now) headers call state =
      (SidecarError.intoResponse state.requestId (.rateLimited 1),
        { state with
          nextRequestId := state.nextRequestId + 1
          rateLimiter :=
            { state.rateLimiter.refill now with tokens := .finite (Int.fract level) } }) := by
  let counted : AppState := { state with nextRequestId := state.nextRequestId + 1 }
  have passes' : Passes headers call counted := passes.congr rfl rfl
  have formed' : counted.rateLimiter.WellFormed config := formed
  have taken := acquireTokens_atInstant env valid formed' tokens passes'
  rw [Bucket.takes_of_lt ((formed.refill now).bounds tokens).1 short,
    if_neg Bool.false_ne_true] at taken
  rw [handle, serve_eq, App.bind_of_ok passes'.checks_eq, App.bind_of_error taken]

/-- **When a request is rate limited.** -/
theorem status_eq_429_iff (valid : config.validate = .ok ())
    (formed : state.rateLimiter.WellFormed config)
    (tokens : (state.rateLimiter.refill now).tokens = .finite level) :
    (handle render (env.atInstant now) headers call state).1.status = 429 ↔
      Passes headers call state ∧ level < call.tokens := by
  let counted : AppState := { state with nextRequestId := state.nextRequestId + 1 }
  constructor
  · intro limited
    by_contra admitted
    refine status_handle_ne_429 render _ (fun secs => ?_) limited
    rw [serve_eq]
    by_cases passes : Passes headers call counted
    · have enough : (call.tokens : ℚ) ≤ level := not_lt.mp fun short =>
        admitted ⟨passes.congr rfl rfl, short⟩
      have formed' : counted.rateLimiter.WellFormed config := formed
      have taken := acquireTokens_atInstant env valid formed' tokens passes
      rw [Bucket.takes_of_le enough, if_pos rfl] at taken
      rw [App.bind_of_ok passes.checks_eq, App.bind_of_ok taken]
      exact unlimited_perform render _ call _ secs
    -- it fails its checks, and those never answer 429
    · have isCheck := isCheck_checks headers call
      cases answer : (checks headers call counted).1 with
      | ok _ => exact absurd answer passes
      | error error =>
          rw [App.bind_of_error (Prod.ext answer (isCheck.keeps counted))]
          exact fun limited => isCheck.unlimited counted secs
            (answer.trans (congrArg Except.error (Except.error.inj limited)))
  · rintro ⟨passes, short⟩
    rw [handle_of_lt render env valid formed tokens passes short]
    rfl

/-! ## What a refused batch costs -/

variable (headers) in
/-- **What a refused batch costs.**  A batch that is answered 429 has consumed nothing, and
stands in the way of no smaller request, exactly if it fails its checks, its first token is
missing already, or none is.  Between the first token and the last, all that it has taken is
lost. -/
theorem batch_costs_nothing_iff (requests : List BatchRouteItem)
    (valid : config.validate = .ok ()) (formed : state.rateLimiter.WellFormed config)
    (now : Instant) :
    let filled := state.rateLimiter.refill now
    let batch := handle render (env.atInstant now) headers (.batch requests) state
    (batch.1.status = 429 →
        batch.2.rateLimiter = filled ∧
          ∀ smaller : ApiCall, smaller.tokens < requests.length →
            (handle render (env.atInstant now) headers smaller state).1.status ≠ 429 →
              (handle render (env.atInstant now) headers smaller batch.2).1.status ≠ 429) ↔
      ¬ Passes headers (.batch requests) state ∨ filled.tokens < .finite 1 ∨
        .finite requests.length ≤ filled.tokens := by
  intro filled batch
  obtain ⟨level, tokens, -, nonneg, -⟩ := (formed.refill now).tokens
  have limited : batch.1.status = 429 ↔ Passes headers (.batch requests) state ∧
      level < requests.length := status_eq_429_iff render env valid formed tokens
  rw [limited, tokens, F64.finite_lt_finite, F64.finite_le_finite]
  constructor
  · intro free
    by_contra! ⟨passes, one, short⟩
    have served : batch = _ := handle_of_lt render env valid formed tokens passes short
    have kept := (free ⟨passes, short⟩).1
    rw [served] at kept
    -- all whole tokens are gone, so the level that is left is a fraction of one
    have fraction : F64.finite (Int.fract level) = .finite level :=
      (congrArg TokenBucket.tokens kept).trans tokens
    exact absurd (F64.finite.inj fraction ▸ Int.fract_lt_one level) (not_lt.mpr one)
  · rintro cheap ⟨passes, short⟩
    have first : level < 1 := by
      rcases cheap with fails | first | enough
      · exact absurd passes fails
      · exact first
      · exact absurd short (not_lt.mpr enough)
    have served : batch = _ := handle_of_lt render env valid formed tokens passes short
    have kept : batch.2.rateLimiter = filled := by
      rw [served, Int.fract_eq_self.mpr ⟨nonneg, first⟩, ← tokens]
    -- the bucket is as it was, so a request that is refused now was refused before
    refine ⟨kept, fun smaller _ admitted limited' => admitted ?_⟩
    have formed' : batch.2.rateLimiter.WellFormed config := kept ▸ formed.refill now
    have tokens' : (batch.2.rateLimiter.refill now).tokens = .finite level := by
      rw [kept, formed.refill_refill now, tokens]
    obtain ⟨passes', short'⟩ := (status_eq_429_iff render env valid formed' tokens').mp limited'
    refine (status_eq_429_iff render env valid formed tokens).mpr ⟨passes'.congr ?_ ?_, short'⟩
    · rw [served]
    · rw [served]

omit [HeaderText] [Rounding] [Rounding.CountsExactly] in
/-- Two items, and half a token. -/
theorem batch_costs_nothing_half :
    let _ := Rounding.nearestEven
    let _ := HeaderText.visibleAscii
    let headers := [("x-api-key", asBytes "key")]
    let item : BatchRouteItem := ⟨"acme", "start", "goal"⟩
    let state : AppState :=
      { sample with rateLimiter := ⟨.finite 2, .finite 1, .finite (1 / 2), 0⟩ }
    let batch := handle (fun _ => "") default headers (.batch [item, item]) state
    batch.1.status = 429 ∧ batch.2.rateLimiter = state.rateLimiter.refill 0 := by
  let _ := Rounding.nearestEven
  have := Rounding.countsExactly_nearestEven
  intro _ _ headers item state batch
  let config : RateLimitConfig := ⟨2, 1⟩
  have valid : config.validate = .ok () := by decide
  have formed : state.rateLimiter.WellFormed config :=
    ⟨rfl, rfl, 1 / 2, rfl, by decide +kernel, by decide +kernel, by decide +kernel⟩
  have refused : batch.1.status = 429 := by decide +kernel
  have short : (state.rateLimiter.refill 0).tokens < .finite 1 := by decide +kernel
  have free := batch_costs_nothing_iff headers (fun _ => "") default [item, item] valid formed 0
  exact ⟨refused, (free.mpr (.inr (.inl short)) refused).1⟩

omit [HeaderText] [Rounding] [Rounding.CountsExactly] in
/-- Three items and two tokens, both of which are lost, and missed by a single request that
would have found them. -/
theorem batch_costs_two_tokens :
    let _ := Rounding.nearestEven
    let _ := HeaderText.visibleAscii
    let headers := [("x-api-key", asBytes "key")]
    let item : BatchRouteItem := ⟨"acme", "start", "goal"⟩
    let state : AppState := { sample with rateLimiter := .new ⟨2, 1⟩ 0 }
    let batch := handle (fun _ => "") default headers (.batch [item, item, item]) state
    let single := handle (fun _ => "") default headers (.route item.query)
    batch.1.status = 429 ∧ batch.2.rateLimiter ≠ state.rateLimiter.refill 0 ∧
      (single state).1.status = 200 ∧ (single batch.2).1.status = 429 := by
  decide +kernel

end AppState

/-! ## What a refusal promises -/

/-- What flows in during some seconds. -/
theorem TokenBucket.tokens_refill_fromSecs {config : RateLimitConfig} {bucket : TokenBucket}
    (secs : ℕ) :
    letI := Rounding.exact
    bucket.WellFormed config →
      (bucket.refill (bucket.lastRefill + fromSecs secs)).tokens =
        .finite (min (bucket.tokens.toRat + secs * config.rate) config.size) := by
  let _ := Rounding.exact
  intro formed
  have elapsed : max (seconds (bucket.lastRefill + fromSecs secs) - seconds bucket.lastRefill) 0 =
      secs := by
    rw [← seconds_sub, Nat.add_sub_cancel_left, seconds, fromSecs]
    norm_num
  rw [tokens_refill _ formed, Bucket.fill, toBucket, elapsed]

namespace AppState

variable [HeaderText] {headers : HeaderMap} {state : AppState} {call : ApiCall}
variable {config : RateLimitConfig} (render : Json → String)

/-- The retry of a request that has been refused, a second later. -/
theorem retry_eq_429_iff (valid : config.validate = .ok ()) (env env' : RequestEnvironment)
    (now : Instant) :
    letI := Rounding.exact
    state.rateLimiter.WellFormed config →
      let level := (state.rateLimiter.refill now).tokens.toRat
      let first := handle render (env.atInstant now) headers call state
      first.1.status = 429 → first.1.retryAfter = some 1 ∧
        ((handle render (env'.atInstant (now + fromSecs 1)) headers call first.2).1.status = 429 ↔
          min (Int.fract level + config.rate) config.size < call.tokens) := by
  let _ := Rounding.exact
  have := Rounding.countsExactly_exact
  intro formed level first limited
  obtain ⟨level', tokens, -, bounds⟩ := (formed.refill now).tokens
  obtain rfl : level = level' := congrArg F64.toRat tokens
  obtain ⟨passes, short⟩ := (status_eq_429_iff render env valid formed tokens).mp limited
  have served : first = _ := handle_of_lt render env valid formed tokens passes short
  let drained := { state.rateLimiter.refill now with tokens := .finite (Int.fract level) }
  -- the refusal has drained the bucket to a fraction of a token, within its bounds still
  have emptier : Int.fract level ≤ level := by
    have whole : (0 : ℚ) ≤ ⌊level⌋ := Int.cast_nonneg (Int.floor_nonneg.mpr bounds.1)
    linarith [Int.self_sub_floor level]
  have formed' : drained.WellFormed config :=
    ⟨formed.capacity, formed.refillPerSecond, _, rfl, rfl, Int.fract_nonneg level,
      emptier.trans bounds.2⟩
  have tokens' : (drained.refill (now + fromSecs 1)).tokens =
      .finite (min (Int.fract level + config.rate) config.size) := by
    have later := TokenBucket.tokens_refill_fromSecs 1 formed'
    rwa [Nat.cast_one, one_mul] at later
  rw [served]
  refine ⟨rfl, (status_eq_429_iff render env' valid formed' tokens').trans ?_⟩
  exact and_iff_right (passes.congr rfl rfl)

variable (headers) in
/-- **When a refusal tells the truth.**  In exact arithmetic, a request that is answered 429
and sent again once it has waited for as long as it was told to is let through exactly if it
was not refused for want of tokens in the first place, or takes no more of them than the
bucket can hold, and than flow in during a second on top of the fraction of one that the
refusal has left. -/
theorem retryAfter_iff (valid : config.validate = .ok ()) (env env' : RequestEnvironment)
    (now : Instant) (call : ApiCall) :
    letI := Rounding.exact
    state.rateLimiter.WellFormed config →
      let level := (state.rateLimiter.refill now).tokens.toRat
      let first := handle render (env.atInstant now) headers call state
      (first.1.status = 429 → ∀ secs ∈ first.1.retryAfter,
          (handle render (env'.atInstant (now + fromSecs secs)) headers call first.2).1.status ≠
            429) ↔
        ¬ Passes headers call state ∨ call.tokens ≤ level ∨
          call.tokens ≤ min (Int.fract level + config.rate) config.size := by
  let _ := Rounding.exact
  have := Rounding.countsExactly_exact
  intro formed level first
  obtain ⟨level', tokens, -⟩ := (formed.refill now).tokens
  obtain rfl : level = level' := congrArg F64.toRat tokens
  have limited : first.1.status = 429 ↔ Passes headers call state ∧ level < call.tokens :=
    status_eq_429_iff render env valid formed tokens
  have retry : first.1.status = 429 → first.1.retryAfter = some 1 ∧ (_ ↔ _) :=
    retry_eq_429_iff render valid env env' now formed
  constructor
  · intro honest
    by_contra! ⟨passes, short, short'⟩
    have refused := limited.mpr ⟨passes, short⟩
    obtain ⟨wait, again⟩ := retry refused
    have told : 1 ∈ first.1.retryAfter := wait
    exact honest refused 1 told (again.mpr short')
  · intro fair refused secs told
    obtain ⟨passes, short⟩ := limited.mp refused
    obtain ⟨wait, again⟩ := retry refused
    obtain rfl : secs = 1 := Option.some.inj (told.symm.trans wait)
    intro refusedAgain
    rcases fair with fails | enough | enough
    · exact fails passes
    · exact not_lt.mpr enough short
    · exact not_lt.mpr enough (again.mp refusedAgain)

omit [HeaderText] in
/-- Half a token, and two more within the second. -/
theorem retryAfter_half :
    let _ := Rounding.exact
    let _ := HeaderText.visibleAscii
    let headers := [("x-api-key", asBytes "key")]
    let query : RouteQuery := ⟨"acme", "start", "goal"⟩
    let state : AppState :=
      { sample with rateLimiter := ⟨.finite 2, .finite 2, .finite (1 / 2), 0⟩ }
    let send := fun now : Instant =>
      handle (fun _ => "") (RequestEnvironment.atInstant default now) headers (.route query)
    (send 0 state).1.status = 429 ∧ (send (0 + fromSecs 1) (send 0 state).2).1.status ≠ 429 := by
  let _ := Rounding.exact
  intro _ _ headers query state send
  let config : RateLimitConfig := ⟨2, 2⟩
  have valid : config.validate = .ok () := by decide
  have formed : state.rateLimiter.WellFormed config :=
    ⟨rfl, rfl, 1 / 2, rfl, rfl, by decide +kernel, by decide +kernel⟩
  have refused : (send 0 state).1.status = 429 := by decide +kernel
  have told : (send 0 state).1.retryAfter = some 1 := by decide +kernel
  have enough : ((ApiCall.route query).tokens : ℚ) ≤
      min (Int.fract (state.rateLimiter.refill 0).tokens.toRat + config.rate) config.size := by
    decide +kernel
  have honest := retryAfter_iff headers (fun _ => "") valid default default 0 (.route query) formed
  exact ⟨refused, honest.mpr (.inr (.inr enough)) refused 1 told⟩

/-- **A request for one token is told the truth**: whatever is missing of it flows in during
a second. -/
theorem retryAfter_of_tokens_eq_one (valid : config.validate = .ok ())
    (env env' : RequestEnvironment) (now : Instant) (single : call.tokens = 1) :
    letI := Rounding.exact
    state.rateLimiter.WellFormed config →
      let first := handle render (env.atInstant now) headers call state
      first.1.status = 429 → first.1.retryAfter = some 1 ∧
        (handle render (env'.atInstant (now + fromSecs 1)) headers call first.2).1.status ≠
          429 := by
  let _ := Rounding.exact
  intro formed first refused
  obtain ⟨told, again⟩ := retry_eq_429_iff render valid env env' now formed refused
  obtain ⟨size, rate⟩ := RateLimitConfig.validate_eq_ok_iff.mp valid
  have size' : 1 ≤ config.size := Nat.one_le_cast.mpr size
  have rate' : 1 ≤ config.rate := Nat.one_le_cast.mpr rate
  refine ⟨told, fun refusedAgain => ?_⟩
  have short := again.mp refusedAgain
  rw [single, Nat.cast_one] at short
  have flow := Int.fract_nonneg (state.rateLimiter.refill now).tokens.toRat
  exact absurd short (not_lt.mpr (le_min (by linarith) size'))

omit [HeaderText] in
/-- Two items, and a bucket that can hold one token. -/
theorem retryAfter_beyond_capacity :
    let _ := Rounding.exact
    let _ := HeaderText.visibleAscii
    let headers := [("x-api-key", asBytes "key")]
    let item : BatchRouteItem := ⟨"acme", "start", "goal"⟩
    let state : AppState := { sample with rateLimiter := .new ⟨1, 1⟩ 0 }
    let first := handle (fun _ => "") default headers (.batch [item, item]) state
    first.1.status = 429 ∧ first.1.retryAfter = some 1 ∧
      (handle (fun _ => "") (RequestEnvironment.atInstant default (fromSecs 1)) headers
        (.batch [item, item]) first.2).1.status = 429 := by
  decide +kernel

end AppState

end TrustRouter
