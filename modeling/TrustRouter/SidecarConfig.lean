import Mathlib.Data.List.DropRight
import TrustRouter.CostModel
import TrustRouter.Decision
import TrustRouter.Planner

/-!
# Start-up configuration

`SidecarConfig.load` puts a configuration together from an optional file, the environment
and the arguments, in this order of increasing precedence, and refuses what it cannot use.
What it reads is an `Environment`: variables, files, the parser of the file, and what the
standard library makes of a socket address.

The one thing later modules need to know is `SidecarConfig.Checked`: what is loaded has
passed every check, so a rate limit has a capacity and a rate, and the cost model and
the health policy are ones the router accepts.
-/

namespace TrustRouter

def RouterError.display : RouterError → String
  | invalidCostModel message => s!"invalid cost model: {message}"
  | invalidHealthPolicy message => s!"invalid health policy: {message}"

/-- What a sequence of fallible steps has done when it succeeds. -/
theorem exceptBind_eq_ok {κ α β : Type} {first : Except κ α} {next : α → Except κ β} {b : β} :
    first >>= next = .ok b ↔ ∃ a, first = .ok a ∧ next a = .ok b := by
  cases first with
  | error error =>
      constructor
      · intro same
        cases same
      · rintro ⟨_, same, _⟩
        cases same
  | ok a =>
      constructor
      · exact fun same => ⟨a, rfl, same⟩
      · rintro ⟨_, same, rest⟩
        cases same
        exact rest

namespace SidecarConfig

def defaultAddress : String := "127.0.0.1:7878"

def defaultAuditPath : String := "sidecar-audit.jsonl"

def defaultDemoApiKey : String := "trust-router-demo-key"

def defaultTenant : TenantId := "yc-demo"

end SidecarConfig

inductive DeploymentMode where
  | development
  | production
  deriving DecidableEq

/-- A path, as the text it is given by. -/
abbrev PathBuf := String

inductive ConfigError where
  | readFile (path : PathBuf) (source : String)
  | parseFile (path : PathBuf) (source : String)
  | invalid (message : String)
  deriving DecidableEq

/-- A refusal by the router, as a configuration error. -/
def ConfigError.ofRouterError (error : RouterError) : ConfigError := .invalid error.display

/-! ## What is read -/

structure RateLimitConfig where
  capacity : UInt32
  refillPerSecond : UInt32
  deriving DecidableEq

namespace RateLimitConfig

instance : Inhabited RateLimitConfig := ⟨⟨120, 60⟩⟩

def validate (config : RateLimitConfig) : Except ConfigError Unit :=
  if config.capacity = 0 ∨ config.refillPerSecond = 0 then
    .error (.invalid
      "rate_limit.capacity and rate_limit.refill_per_second must be greater than zero")
  else .ok ()

theorem validate_eq_ok_iff {config : RateLimitConfig} :
    config.validate = .ok () ↔ 0 < config.capacity.toNat ∧ 0 < config.refillPerSecond.toNat := by
  have positive : ∀ n : UInt32, n ≠ 0 ↔ 0 < n.toNat := fun n => by
    rw [Nat.pos_iff_ne_zero, ne_eq, ne_eq, ← UInt32.toNat_inj, UInt32.toNat_zero]
  rw [← positive, ← positive, ← not_or]
  unfold validate
  split_ifs with zero <;> simp [zero]

end RateLimitConfig

structure RawCostModel where
  wDollar : F64
  wLatency : F64
  wRisk : F64
  wBase : F64
  maxDollar : F64
  maxLatencyMs : ℕ
  maxBase : F64

namespace RawCostModel

instance [Rounding] : Inhabited RawCostModel where
  default :=
    let model : TenantCostModel := default
    { wDollar := model.weights.wDollar
      wLatency := model.weights.wLatency
      wRisk := model.weights.wRisk
      wBase := model.weights.wBase
      maxDollar := model.ceilings.maxDollar
      maxLatencyMs := model.ceilings.maxLatencyMs
      maxBase := model.ceilings.maxBase }

def intoModel (raw : RawCostModel) : TenantCostModel where
  weights :=
    { wDollar := raw.wDollar, wLatency := raw.wLatency, wRisk := raw.wRisk, wBase := raw.wBase }
  ceilings :=
    { maxDollar := raw.maxDollar, maxLatencyMs := raw.maxLatencyMs, maxBase := raw.maxBase }

end RawCostModel

structure RawHealthPolicy where
  openThreshold : UInt32
  degradedThreshold : UInt32
  halfOpenSuccessNeeded : UInt32
  degradedSuccessNeeded : UInt32
  cooldownMs : ℕ

namespace RawHealthPolicy

instance : Inhabited RawHealthPolicy where
  default :=
    let policy : HealthPolicy := default
    { openThreshold := policy.openThreshold
      degradedThreshold := policy.degradedThreshold
      halfOpenSuccessNeeded := policy.halfOpenSuccessNeeded
      degradedSuccessNeeded := policy.degradedSuccessNeeded
      cooldownMs := policy.cooldown / 10 ^ 6 }

def intoPolicy (raw : RawHealthPolicy) : HealthPolicy where
  openThreshold := raw.openThreshold
  degradedThreshold := raw.degradedThreshold
  halfOpenSuccessNeeded := raw.halfOpenSuccessNeeded
  degradedSuccessNeeded := raw.degradedSuccessNeeded
  cooldown := raw.cooldownMs * 10 ^ 6

end RawHealthPolicy

structure RawConfig where
  mode : DeploymentMode
  bindAddress : Option String
  auditPath : Option PathBuf
  apiKey : Option String
  apiKeyFile : Option PathBuf
  allowedTenants : List TenantId
  rateLimit : RateLimitConfig
  cost : RawCostModel
  health : RawHealthPolicy
  recoveryScanIntervalMs : ℕ

instance [Rounding] : Inhabited RawConfig where
  default :=
    { mode := .development
      bindAddress := none
      auditPath := none
      apiKey := none
      apiKeyFile := none
      allowedTenants := []
      rateLimit := default
      cost := default
      health := default
      recoveryScanIntervalMs := 1000 }

/-- What start-up finds around it. -/
structure Environment where
  /-- `env::var(name).ok()`. -/
  var : String → Option String
  /-- `env::var_os(name)`. -/
  varOs : String → Option PathBuf
  /-- `fs::read_to_string`. -/
  readToString : PathBuf → Except String String
  /-- `serde_json::from_str`. -/
  fromStr : String → Except String RawConfig
  /-- Whether a text is a `SocketAddr`. -/
  isSocketAddr : String → Bool

/-! ## Numbers and lists in variables -/

/-- The number decimal digits stand for. -/
def decimal (digits : List Char) : ℕ :=
  digits.foldl (fun value digit => 10 * value + (digit.toNat - '0'.toNat)) 0

/-- `str::parse` at an unsigned type with values below a bound: digits after an optional
plus sign. -/
def parseUnsigned (bound : ℕ) (text : String) : Option ℕ :=
  let digits :=
    match text.toList with
    | '+' :: rest => rest
    | all => all
  if digits.isEmpty || !digits.all Char.isDigit || bound ≤ decimal digits then none
  else some (decimal digits)

/-- The optional sign in front of a number, and the rest. -/
def splitSign : List Char → Bool × List Char
  | '-' :: rest => (true, rest)
  | '+' :: rest => (false, rest)
  | rest => (false, rest)

/-- The exponent part of a number, if there is one. -/
def parseExponent : List Char → Option ℤ
  | [] => some 0
  | marker :: rest =>
      let (negative, digits) := splitSign rest
      if marker.toLower ≠ 'e' || digits.isEmpty || !digits.all Char.isDigit then none
      else some (if negative then -decimal digits else decimal digits)

/-- `str::parse` at `f64`. -/
def parseF64 [Rounding] (text : String) : Option F64 :=
  let (negative, rest) := splitSign text.toList
  let name := String.ofList (rest.map Char.toLower)
  if name = "nan" then some .nan
  else if name = "inf" ∨ name = "infinity" then some (if negative then .negInf else .posInf)
  else
    let (whole, rest) := rest.span Char.isDigit
    let (fraction, rest) :=
      match rest with
      | '.' :: rest => rest.span Char.isDigit
      | rest => ([], rest)
    if whole.isEmpty && fraction.isEmpty then none
    else
      (parseExponent rest).map fun (exponent : ℤ) =>
        let value : ℚ := decimal (whole ++ fraction) * 10 ^ (exponent - (fraction.length : ℤ))
        .ofRat (if negative then -value else value)

def parseMode : String → Except ConfigError DeploymentMode
  | "development" => .ok .development
  | "production" => .ok .production
  | _ => .error (.invalid "TRUST_ROUTER_MODE must be development or production")

/-- `char::is_whitespace`. -/
def isWhitespace (c : Char) : Bool :=
  let code := c.toNat
  (0x09 ≤ code && code ≤ 0x0D) || code = 0x20 || code = 0x85 || code = 0xA0 || code = 0x1680
    || (0x2000 ≤ code && code ≤ 0x200A) || code = 0x2028 || code = 0x2029 || code = 0x202F
    || code = 0x205F || code = 0x3000

/-- `str::trim_end_matches`. -/
def trimEndMatches (strip : Char → Bool) (text : String) : String :=
  .ofList (text.toList.rdropWhile strip)

/-- `str::trim`. -/
def trim (text : String) : String :=
  .ofList ((text.toList.dropWhile isWhitespace).rdropWhile isWhitespace)

def splitTenants (value : String) : Except ConfigError (List TenantId) :=
  let tenants := ((value.splitOn ",").map trim).filter fun tenant => !tenant.isEmpty
  if tenants.isEmpty then
    .error (.invalid "TRUST_ROUTER_ALLOWED_TENANTS cannot be empty")
  else .ok tenants

/-! ## Loading -/

structure SidecarConfig where
  mode : DeploymentMode
  bindAddress : String
  auditPath : PathBuf
  apiKey : String
  allowedTenants : List TenantId
  rateLimit : RateLimitConfig
  costModel : TenantCostModel
  healthPolicy : HealthPolicy
  recoveryScanInterval : Duration

namespace SidecarConfig

/-- `validate_identifier` of the configuration. -/
def validateIdentifier : String → String → Except ConfigError Unit :=
  checkIdentifier .invalid

/-- The refusal of a configuration that breaks a rule. -/
def ensure (rule : Prop) [Decidable rule] (message : String) : Except ConfigError Unit :=
  if rule then .ok () else .error (.invalid message)

/-- A character below the space, or DEL. -/
def isAsciiControl (c : Char) : Bool := c.toNat < 0x20 || c.toNat = 0x7F

/-- The length is in bytes; a byte of a character outside ASCII is not a control byte. -/
def validateApiKey (mode : DeploymentMode) (key : String) : Except ConfigError Unit :=
  if key.isEmpty then .error (.invalid "API key cannot be empty")
  else if 512 < key.utf8ByteSize || key.toList.any isAsciiControl then
    .error (.invalid "API key must be at most 512 printable characters")
  else if mode = .production ∧ (key = defaultDemoApiKey ∨ key.utf8ByteSize < 32) then
    .error (.invalid "production API key must be a non-demo secret of at least 32 characters")
  else .ok ()

variable (env : Environment)

/-- `override_u32`, `override_u64` and `override_f64`: a variable that is set replaces the
value, and must be one. -/
def overrideWith {α : Type} (parse : String → Option α) (expected name : String) (target : α) :
    Except ConfigError α :=
  match env.var name with
  | none => .ok target
  | some value =>
      match parse value with
      | none => .error (.invalid s!"{name} must be {expected}")
      | some value => .ok value

def overrideU32 : String → UInt32 → Except ConfigError UInt32 :=
  overrideWith env (fun text => (parseUnsigned (2 ^ 32) text).map .ofNat) "an unsigned integer"

def overrideU64 : String → ℕ → Except ConfigError ℕ :=
  overrideWith env (parseUnsigned (2 ^ 64)) "an unsigned integer"

variable [Rounding]

def overrideF64 : String → F64 → Except ConfigError F64 :=
  overrideWith env parseF64 "a number"

/-- The overrides at the head of `from_raw`. -/
def overrides (raw : RawConfig) : Except ConfigError RawConfig := do
  let mode ← ((env.var "TRUST_ROUTER_MODE").map parseMode).getD (.ok raw.mode)
  let allowedTenants ←
    ((env.var "TRUST_ROUTER_ALLOWED_TENANTS").map splitTenants).getD (.ok raw.allowedTenants)
  let rateLimit : RateLimitConfig := {
    capacity := ← overrideU32 env "TRUST_ROUTER_RATE_LIMIT_CAPACITY" raw.rateLimit.capacity
    refillPerSecond :=
      ← overrideU32 env "TRUST_ROUTER_RATE_LIMIT_REFILL_PER_SECOND" raw.rateLimit.refillPerSecond }
  let cost : RawCostModel := {
    wDollar := ← overrideF64 env "TRUST_ROUTER_W_DOLLAR" raw.cost.wDollar
    wLatency := ← overrideF64 env "TRUST_ROUTER_W_LATENCY" raw.cost.wLatency
    wRisk := ← overrideF64 env "TRUST_ROUTER_W_RISK" raw.cost.wRisk
    wBase := ← overrideF64 env "TRUST_ROUTER_W_BASE" raw.cost.wBase
    maxDollar := ← overrideF64 env "TRUST_ROUTER_MAX_DOLLAR" raw.cost.maxDollar
    maxLatencyMs := ← overrideU64 env "TRUST_ROUTER_MAX_LATENCY_MS" raw.cost.maxLatencyMs
    maxBase := ← overrideF64 env "TRUST_ROUTER_MAX_BASE" raw.cost.maxBase }
  let health : RawHealthPolicy := {
    openThreshold := ← overrideU32 env "TRUST_ROUTER_OPEN_THRESHOLD" raw.health.openThreshold
    degradedThreshold :=
      ← overrideU32 env "TRUST_ROUTER_DEGRADED_THRESHOLD" raw.health.degradedThreshold
    halfOpenSuccessNeeded :=
      ← overrideU32 env "TRUST_ROUTER_HALF_OPEN_SUCCESS_NEEDED" raw.health.halfOpenSuccessNeeded
    degradedSuccessNeeded :=
      ← overrideU32 env "TRUST_ROUTER_DEGRADED_SUCCESS_NEEDED" raw.health.degradedSuccessNeeded
    cooldownMs := ← overrideU64 env "TRUST_ROUTER_COOLDOWN_MS" raw.health.cooldownMs }
  let recoveryScanIntervalMs ←
    overrideU64 env "TRUST_ROUTER_RECOVERY_SCAN_INTERVAL_MS" raw.recoveryScanIntervalMs
  return { raw with
    mode, allowedTenants, rateLimit, cost, health, recoveryScanIntervalMs
    bindAddress := (env.var "TRUST_ROUTER_BIND_ADDRESS").or raw.bindAddress
    auditPath := (env.var "TRUST_ROUTER_AUDIT_PATH").or raw.auditPath }

omit [Rounding] in
def apiKeyFromSources (raw : RawConfig) : Except ConfigError String :=
  match env.var "TRUST_ROUTER_API_KEY" with
  | some value => .ok value
  | none =>
      match (env.varOs "TRUST_ROUTER_API_KEY_FILE").or raw.apiKeyFile with
      | some path =>
          match env.readToString path with
          | .ok value => .ok (trimEndMatches (fun c => c = '\r' || c = '\n') value)
          | .error source => .error (.readFile path source)
      | none =>
          match raw.apiKey with
          | some value => .ok value
          | none =>
              if raw.mode = .development then .ok defaultDemoApiKey
              else .error (.invalid
                "production mode requires TRUST_ROUTER_API_KEY or TRUST_ROUTER_API_KEY_FILE")

variable [Formatter]

def fromRaw (raw : RawConfig) (args : List String) : Except ConfigError SidecarConfig := do
  let raw ← overrides env raw
  -- the argument goes before the variable and the file, and those before `PORT`
  let bindSource :=
    args[1]?.or (raw.bindAddress.or ((env.var "PORT").map fun port => s!"0.0.0.0:{port}"))
      |>.getD defaultAddress
  ensure (env.isSocketAddr bindSource)
    s!"bind_address must be a socket address, got {Formatter.strDebug bindSource}"
  let auditPath := (args[2]?.or raw.auditPath).getD defaultAuditPath
  let apiKey ← apiKeyFromSources env raw
  validateApiKey raw.mode apiKey
  raw.rateLimit.validate
  ensure (raw.recoveryScanIntervalMs ≠ 0) "recovery_scan_interval_ms must be greater than zero"
  let allowedTenants :=
    if raw.allowedTenants.isEmpty ∧ raw.mode = .development then [defaultTenant]
    else raw.allowedTenants
  ensure (allowedTenants ≠ []) "allowed_tenants cannot be empty"
  allowedTenants.forM (validateIdentifier "allowed_tenants entry")
  let costModel := raw.cost.intoModel
  costModel.validate.mapError .ofRouterError
  let healthPolicy := raw.health.intoPolicy
  healthPolicy.validate.mapError .ofRouterError
  return {
    mode := raw.mode
    bindAddress := bindSource
    auditPath, apiKey, allowedTenants
    rateLimit := raw.rateLimit
    costModel, healthPolicy
    recoveryScanInterval := raw.recoveryScanIntervalMs * 10 ^ 6 }

omit [Formatter] in
/-- The configuration file, if the environment names one. -/
def rawConfig : Except ConfigError RawConfig :=
  match env.varOs "TRUST_ROUTER_CONFIG" with
  | some path => do
      let contents ← (env.readToString path).mapError (.readFile path)
      (env.fromStr contents).mapError (.parseFile path)
  | none => .ok default

def load (args : List String) : Except ConfigError SidecarConfig := do
  fromRaw env (← rawConfig env) args

/-! ### What is loaded has been checked -/

/-- What start-up promises of a configuration. -/
structure Checked (config : SidecarConfig) : Prop where
  rateLimit : config.rateLimit.validate = .ok ()
  costModel : config.costModel.validate = .ok ()
  healthPolicy : config.healthPolicy.validate = .ok ()
  tenants : config.allowedTenants ≠ []
  identifiers : ∀ tenant ∈ config.allowedTenants,
    validateIdentifier "allowed_tenants entry" tenant = .ok ()

omit [Rounding] [Formatter] in
theorem of_ensure {rule : Prop} [Decidable rule] {message : String}
    (passed : ensure rule message = .ok ()) : rule := by
  unfold ensure at passed
  split_ifs at passed with holds
  exact holds

omit [Rounding] [Formatter] in
theorem of_mapError {κ κ' : Type} {wrap : κ → κ'} {check : Except κ Unit}
    (passed : check.mapError wrap = .ok ()) : check = .ok () := by
  cases check with
  | error error => cases passed
  | ok _ => rfl

omit [Rounding] [Formatter] in
theorem forall_of_forM {α : Type} {check : α → Except ConfigError Unit} {items : List α}
    (passed : items.forM check = .ok ()) : ∀ item ∈ items, check item = .ok () := by
  induction items with
  | nil => simp
  | cons item items ih =>
      change (check item >>= fun _ => items.forM check) = .ok () at passed
      obtain ⟨_, first, rest⟩ := exceptBind_eq_ok.mp passed
      exact List.forall_mem_cons.mpr ⟨first, ih rest⟩

theorem checked_of_fromRaw {raw : RawConfig} {args : List String} {config : SidecarConfig}
    (loaded : fromRaw env raw args = .ok config) : config.Checked := by
  unfold fromRaw at loaded
  -- one step for each `?` of `from_raw`, in its order
  obtain ⟨raw, -, loaded⟩ := exceptBind_eq_ok.mp loaded
  obtain ⟨_, -, loaded⟩ := exceptBind_eq_ok.mp loaded
  obtain ⟨apiKey, -, loaded⟩ := exceptBind_eq_ok.mp loaded
  obtain ⟨_, -, loaded⟩ := exceptBind_eq_ok.mp loaded
  obtain ⟨_, rateLimit, loaded⟩ := exceptBind_eq_ok.mp loaded
  obtain ⟨_, -, loaded⟩ := exceptBind_eq_ok.mp loaded
  obtain ⟨_, tenants, loaded⟩ := exceptBind_eq_ok.mp loaded
  obtain ⟨_, identifiers, loaded⟩ := exceptBind_eq_ok.mp loaded
  obtain ⟨_, costModel, loaded⟩ := exceptBind_eq_ok.mp loaded
  obtain ⟨_, healthPolicy, loaded⟩ := exceptBind_eq_ok.mp loaded
  cases loaded
  exact {
    rateLimit
    costModel := of_mapError costModel
    healthPolicy := of_mapError healthPolicy
    tenants := of_ensure tenants
    identifiers := forall_of_forM identifiers }

/-- **A configuration that is loaded has passed every check.** -/
theorem checked_of_load {args : List String} {config : SidecarConfig}
    (loaded : load env args = .ok config) : config.Checked := by
  unfold load at loaded
  obtain ⟨_, -, loaded⟩ := exceptBind_eq_ok.mp loaded
  exact checked_of_fromRaw env loaded

end SidecarConfig

end TrustRouter
