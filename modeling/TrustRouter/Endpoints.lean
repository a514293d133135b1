import TrustRouter.Metrics
import TrustRouter.RateLimit
import TrustRouter.Sidecar

/-!
# The endpoints of the sidecar

What a request to the sidecar goes through from its headers to its response, one request at
a time: the checks of its fields, of the API key and of the tenant, the tokens it takes, and
what its handler does to the router, the audit file and the metrics.  A handler is a program
on `AppState` that may end in a `SidecarError` (`App`), and `AppState.handle` is the answer to
a request.  How handlers run next to each other is the subject of the module on the sidecar.

`ApiCall.check` are the checks of a request that touch nothing, and `ApiCall.tokens` is the
number of tokens it takes.  A request is its checks, its tokens and the rest, in this order
(`serve_eq`).

Requests are decoded, and what is read of a header is a parameter (`HeaderText`), because
neither is part of the repository.  Telemetry is left out.
-/

namespace TrustRouter

/-! ## Headers -/

/-- The headers of a request, their names in lower case. -/
abbrev HeaderMap := List (String × List UInt8)

def asBytes (text : String) : List UInt8 := text.toUTF8.data.toList

/-- `HeaderValue::to_str`.  Where it gives a text, the text has the bytes of the value. -/
class HeaderText where
  toStr : List UInt8 → Option String
  asBytes_of_toStr : ∀ value text, toStr value = some text → asBytes text = value

/-- The values a request may well have: visible characters of ASCII, and tabs. -/
@[reducible] def HeaderText.visibleAscii : HeaderText where
  toStr value :=
    if value.all fun byte => byte = 9 || (32 ≤ byte && byte < 127) then
      String.fromUTF8? ⟨value.toArray⟩
    else none
  asBytes_of_toStr value text given := by
    split_ifs at given
    unfold String.fromUTF8? at given
    split_ifs at given
    cases given
    rfl

/-- Compare two texts byte by byte, to the end of the longer one. -/
def constantTimeEq (left right : List UInt8) : Bool :=
  let maxLen := max left.length right.length
  let diff := (List.range maxLen).foldl
    (fun diff index => diff ||| (left.getD index 0 ^^^ right.getD index 0).toNat)
    (left.length ^^^ right.length)
  diff == 0

def requireApiKey [HeaderText] (headers : HeaderMap) (expected : String) :
    Except SidecarError Unit :=
  match (headers.lookup "x-api-key").bind HeaderText.toStr with
  | none => .error .unauthorized
  | some actual =>
      if constantTimeEq (asBytes actual) (asBytes expected) then .ok () else .error .unauthorized

/-! ## Fields -/

def validateIdentifier : String → String → Except SidecarError Unit :=
  checkIdentifier .badRequest

def RouteQuery.validate (query : RouteQuery) : Except SidecarError Unit := do
  validateIdentifier "tenant" query.tenant
  validateIdentifier "start" query.start
  validateIdentifier "goal" query.goal

def BatchRouteItem.validate (item : BatchRouteItem) : Except SidecarError Unit := do
  validateIdentifier "tenant" item.tenant
  validateIdentifier "start" item.start
  validateIdentifier "goal" item.goal

def ResultQuery.validate (query : ResultQuery) : Except SidecarError Unit := do
  validateIdentifier "tenant" query.tenant
  validateIdentifier "node" query.node
  if 600000 < query.latencyMs then throw (.badRequest "latency_ms is too large")

def ForceHalfOpenQuery.validate (query : ForceHalfOpenQuery) : Except SidecarError Unit := do
  validateIdentifier "tenant" query.tenant
  validateIdentifier "node" query.node

/-! ## The state -/

structure AppState where
  router : Router
  /-- The lines of the file at `audit_path`. -/
  auditFile : List String
  apiKey : String
  allowedTenants : Finset TenantId
  rateLimiter : TokenBucket
  nextRequestId : UInt64
  metrics : Metrics

/-- What a request finds around it. -/
structure RequestEnvironment where
  /-- What the clock shows at each `try_acquire`. -/
  acquireAt : ℕ → Instant
  /-- What it shows when a result is recorded. -/
  resultAt : Instant
  /-- How long each decision takes. -/
  elapsed : ℕ → Duration
  /-- The failure of a write, if it fails. -/
  fault : Option (ℕ × String)

instance : Inhabited RequestEnvironment := ⟨⟨fun _ => 0, 0, fun _ => 0, none⟩⟩

/-- The state of a sidecar that has just been started. -/
def AppState.new [Rounding] (config : SidecarConfig) (router : Router) (auditFile : List String)
    (now : Instant) : AppState where
  router := router
  auditFile := auditFile
  apiKey := config.apiKey
  allowedTenants := config.allowedTenants.toFinset
  rateLimiter := .new config.rateLimit now
  nextRequestId := 1
  metrics := {}

/-- A sidecar with one tenant, of which its router knows nothing yet. -/
def AppState.sample [Rounding] : AppState where
  router := .new
  auditFile := []
  apiKey := "key"
  allowedTenants := {"acme"}
  rateLimiter := .new default 0
  nextRequestId := 1
  metrics := {}

/-- A program that serves a request. -/
abbrev App := ExceptT SidecarError (StateM AppState)

namespace App

variable {α β : Type}

/-- A check that touches nothing. -/
def check (result : Except SidecarError α) : App α := fun state => (result, state)

theorem check_of_ok {result : Except SidecarError α} {a : α} (passes : result = .ok a)
    (state : AppState) : check result state = (.ok a, state) :=
  congrArg (·, state) passes

theorem bind_of_ok {first : App α} {next : α → App β} {state state' : AppState} {a : α}
    (succeeds : first state = (.ok a, state')) : (first >>= next) state = next a state' := by
  show (ExceptT.bindCont next (first state).1) (first state).2 = _
  rw [succeeds]
  rfl

theorem bind_of_error {first : App α} {next : α → App β} {state state' : AppState}
    {error : SidecarError} (fails : first state = (.error error, state')) :
    (first >>= next) state = (.error error, state') := by
  show (ExceptT.bindCont next (first state).1) (first state).2 = _
  rw [fails]
  rfl

theorem map_of_ok {first : App α} {f : α → β} {state state' : AppState} {a : α}
    (succeeds : first state = (.ok a, state')) : (f <$> first) state = (.ok (f a), state') := by
  rw [map_eq_pure_bind, bind_of_ok succeeds]
  rfl

/-- A program that cannot fail. -/
theorem lift_apply {program : StateM AppState α} {state state' : AppState} {a : α}
    (runs : program state = (a, state')) : (program : App α) state = (.ok a, state') :=
  congrArg (fun ran : α × AppState => (Except.ok ran.1, ran.2)) runs

end App

namespace AppState

variable [Rounding]

/-! ## Calls of the router and of the audit file -/

def callRoute (tenantId : TenantId) (start goal : NodeId) : StateM AppState RouteDecision :=
  fun state =>
    ((state.router.inner.route tenantId start goal).answer,
      { state with router := state.router.step (.route tenantId start goal) })

omit [Rounding] in
def callLastAuditEvent : StateM AppState (Option AuditEvent) :=
  fun state => (state.router.lastAuditEvent, state)

variable (render : Json → String)

omit [Rounding] in
def callAppendEventsJsonl (fault : Option (ℕ × String)) (events : List AuditEvent) :
    StateM AppState (Except String ℕ) := fun state =>
  let appended := appendEventsJsonl render fault state.auditFile events
  (appended.2, { state with auditFile := appended.1 })

/-- Run a handler of the router while no other runs. -/
def play {α : Type} (fault : Option (ℕ × String)) : Handler AuditEvent α → StateM AppState α
  | .done answer => pure answer
  | .route tenantId start goal next => do
      let decision ← callRoute tenantId start goal
      play fault (next decision)
  | .lastAuditEvent next => do
      let event ← callLastAuditEvent
      play fault (next event)
  | .appendEventsJsonl events next => do
      let result ← callAppendEventsJsonl render fault events
      play fault (next result)

/-! ## Authorization -/

def tryAcquire (now : Instant) : App Unit := fun state =>
  let acquired := state.rateLimiter.tryAcquireAt now
  let answer := match acquired.2 with
    | .ok _ => .ok ()
    | .error error => .error (.rateLimited (max (error.retryAfter / 10 ^ 9) 1))
  (answer, { state with rateLimiter := acquired.1 })

variable [HeaderText] (headers : HeaderMap)

omit [Rounding] in
def checkTenant (tenant : TenantId) : App Unit := fun state =>
  (if tenant ∈ state.allowedTenants then .ok () else .error .forbidden, state)

omit [Rounding] in
def checkApiKey : App Unit := fun state => (requireApiKey headers state.apiKey, state)

def authorizeRequest (now : Instant) (tenant : Option TenantId) : App Unit := do
  checkApiKey headers
  match tenant with
  | none => pure ()
  | some tenant => checkTenant tenant
  tryAcquire now

/-! ## Handlers -/

variable (env : RequestEnvironment)

def metricsHandler : App MetricsResponse := do
  authorizeRequest headers (env.acquireAt 0) none
  let state ← get
  return state.metrics.toResponse state.router

omit [Rounding] [HeaderText] in
def persistBeforeResponse (event : AuditEvent) : App Unit := do
  match ← callAppendEventsJsonl render env.fault [event] with
  | .ok _ => return ()
  | .error error => throw (.internal s!"audit persistence failed: {error}")

omit [Rounding] [HeaderText] in
def recordRoute (tenant : TenantId) (decision : RouteDecision) (latency : Duration) :
    StateM AppState RouteMetricOutcome := fun state =>
  let recorded := state.metrics.recordRoute tenant decision latency state.router
  (recorded.2, { state with metrics := recorded.1 })

def handleRoute (query : RouteQuery) : App RouteResponse := do
  let decision ← callRoute query.tenant query.start query.goal
  match ← callLastAuditEvent with
  | none => throw (.internal "route did not create an audit event")
  | some event =>
      persistBeforeResponse render env event
      let _ ← recordRoute query.tenant decision (env.elapsed 0)
      return .fromDecision decision

def routeHandler (query : RouteQuery) : App RouteResponse := do
  App.check query.validate
  authorizeRequest headers (env.acquireAt 0) (some query.tenant)
  handleRoute render env query

def handlePlan (query : RouteQuery) : App PlanResponse := do
  let planned ← (play render env.fault
    (Planner.new.plan ⟨query.tenant, query.start, query.goal⟩).run : StateM AppState _)
  match planned with
  | .error error => throw (.badRequest error.display)
  | .ok outcome =>
      match ← callLastAuditEvent with
      | none => throw (.internal "planner did not create an audit event")
      | some event =>
          persistBeforeResponse render env event
          modify fun state =>
            { state with metrics := state.metrics.recordPlan outcome (env.elapsed 0) }
          return .fromOutcome outcome

def planHandler (query : RouteQuery) : App PlanResponse := do
  App.check query.validate
  authorizeRequest headers (env.acquireAt 0) (some query.tenant)
  handlePlan render env query

def resultHandler (query : ResultQuery) : App Unit := do
  App.check query.validate
  authorizeRequest headers (env.acquireAt 0) (some query.tenant)
  modify fun state => { state with
    router := state.router.step
      (.recordResult query.tenant query.node query.success query.latencyMs env.resultAt) }

def forceHalfOpenHandler (query : ForceHalfOpenQuery) : App Bool := do
  App.check query.validate
  authorizeRequest headers (env.acquireAt 0) (some query.tenant)
  let state ← get
  set { state with router := state.router.step (.forceHalfOpen query.tenant query.node) }
  return (state.router.inner.forceHalfOpen query.tenant query.node).answer

/-! ### Batches -/

omit [Rounding] [HeaderText] in
def checkSize (requests : List BatchRouteItem) : Except SidecarError Unit :=
  if requests.isEmpty then .error (.badRequest "batch requests list must not be empty")
  else if 1024 < requests.length then .error (.badRequest "batch size exceeds limit of 1024")
  else .ok ()

omit [Rounding] [HeaderText] in
/-- Every item is valid, and of an allowed tenant. -/
def checkItems : List BatchRouteItem → App Unit
  | [] => return ()
  | item :: rest => do
      App.check item.validate
      checkTenant item.tenant
      checkItems rest

/-- A token for each of some readings of the clock.  The first that is missing ends the
loop. -/
def acquireTokens : List Instant → App Unit
  | [] => return ()
  | now :: rest => do
      tryAcquire now
      acquireTokens rest

/-- The loop over the items of a batch, each with the time its decision takes. -/
def routeBatchItems : List (BatchRouteItem × Duration) → BatchProgress AuditEvent →
    StateM AppState (BatchProgress AuditEvent)
  | [], progress => return progress
  | (item, elapsed) :: rest, progress => do
      let decision ← callRoute item.tenant item.start item.goal
      let event ← callLastAuditEvent
      let _ ← recordRoute item.tenant decision elapsed
      routeBatchItems rest (progress.record decision event)

/-- What is done for a batch that has its tokens. -/
def routeBatch (requests : List BatchRouteItem) : App BatchRouteResponse := do
  let progress ← routeBatchItems (requests.mapIdx fun k item => (item, env.elapsed k)) {}
  match ← callAppendEventsJsonl render env.fault progress.newAuditEvents with
  | .error error => throw (.internal s!"batch audit persistence failed: {error}")
  | .ok _ =>
      return {
        results := progress.results
        totalRouted := progress.totalRouted
        totalEscalated := progress.totalEscalated }

def batchRouteHandler (requests : List BatchRouteItem) : App BatchRouteResponse := do
  App.check (checkSize requests)
  checkApiKey headers
  checkItems requests
  acquireTokens ((List.range requests.length).map env.acquireAt)
  routeBatch render env requests

end AppState

/-! ## Requests and responses -/

/-- A decoded request. -/
inductive ApiCall where
  | metrics
  | route (query : RouteQuery)
  | batch (requests : List BatchRouteItem)
  | plan (query : RouteQuery)
  | result (query : ResultQuery)
  | forceHalfOpen (query : ForceHalfOpenQuery)

structure ErrorBody where
  code : String
  message : String
  requestId : String

/-- The body of a response. -/
inductive Body where
  | metrics (response : MetricsResponse)
  | route (response : RouteResponse)
  | batch (response : BatchRouteResponse)
  | plan (response : PlanResponse)
  | ok (ok : Bool)
  | forceHalfOpen (changed : Bool)
  | error (error : ErrorBody)

structure HttpResponse where
  status : ℕ
  body : Body
  retryAfter : Option ℕ := none
  requestId : String

def SidecarError.intoResponse (requestId : String) : SidecarError → HttpResponse
  | badRequest message =>
      { status := 400
        body := .error ⟨"invalid_request", message, requestId⟩
        requestId := requestId }
  | unauthorized =>
      { status := 401
        body := .error ⟨"unauthorized", "missing or invalid API key", requestId⟩
        requestId := requestId }
  | forbidden =>
      { status := 403
        body := .error ⟨"tenant_not_authorized", "API key is not authorized for this tenant",
          requestId⟩
        requestId := requestId }
  | rateLimited retryAfterSecs =>
      { status := 429
        body := .error ⟨"rate_limited", "request rate limit exceeded", requestId⟩
        retryAfter := some retryAfterSecs
        requestId := requestId }
  | internal _ =>
      { status := 500
        body := .error ⟨"internal_error", "internal service error", requestId⟩
        requestId := requestId }

namespace AppState

/-- `tr-` and 16 hexadecimal digits. -/
def requestId (state : AppState) : String :=
  "tr-" ++ String.ofList (List.leftpad 16 '0' (Nat.toDigits 16 state.nextRequestId.toNat))

variable [Rounding] [HeaderText] (render : Json → String)

/-- The handler of a request. -/
def serve (env : RequestEnvironment) (headers : HeaderMap) : ApiCall → App Body
  | .metrics => Body.metrics <$> metricsHandler headers env
  | .route query => Body.route <$> routeHandler render headers env query
  | .batch requests => Body.batch <$> batchRouteHandler render headers env requests
  | .plan query => Body.plan <$> planHandler render headers env query
  | .result query => (fun _ => Body.ok true) <$> resultHandler headers env query
  | .forceHalfOpen query => Body.forceHalfOpen <$> forceHalfOpenHandler headers env query

/-- The answer to a request, and the state it leaves. -/
def handle (env : RequestEnvironment) (headers : HeaderMap) (call : ApiCall) (state : AppState) :
    HttpResponse × AppState :=
  let served := serve render env headers call
    { state with nextRequestId := state.nextRequestId + 1 }
  match served.1 with
  | .ok body => ({ status := 200, body := body, requestId := state.requestId }, served.2)
  | .error error => (error.intoResponse state.requestId, served.2)

/-! ## Checks, tokens, and the rest -/

/-- The checks of a request that touch nothing. -/
def checks (headers : HeaderMap) : ApiCall → App Unit
  | .metrics => checkApiKey headers
  | .route query => do
      App.check query.validate
      checkApiKey headers
      checkTenant query.tenant
  | .batch requests => do
      App.check (checkSize requests)
      checkApiKey headers
      checkItems requests
  | .plan query => do
      App.check query.validate
      checkApiKey headers
      checkTenant query.tenant
  | .result query => do
      App.check query.validate
      checkApiKey headers
      checkTenant query.tenant
  | .forceHalfOpen query => do
      App.check query.validate
      checkApiKey headers
      checkTenant query.tenant

/-- What is done for a request that has passed its checks and has its tokens. -/
def perform (env : RequestEnvironment) : ApiCall → App Body
  | .metrics => do
      let state ← get
      return .metrics (state.metrics.toResponse state.router)
  | .route query => Body.route <$> handleRoute render env query
  | .batch requests => Body.batch <$> routeBatch render env requests
  | .plan query => Body.plan <$> handlePlan render env query
  | .result query => do
      modify fun state => { state with
        router := state.router.step
          (.recordResult query.tenant query.node query.success query.latencyMs env.resultAt) }
      return .ok true
  | .forceHalfOpen query => do
      let state ← get
      set { state with router := state.router.step (.forceHalfOpen query.tenant query.node) }
      return .forceHalfOpen (state.router.inner.forceHalfOpen query.tenant query.node).answer

end AppState

/-- The number of tokens a request takes. -/
def ApiCall.tokens : ApiCall → ℕ
  | batch requests => requests.length
  | metrics | route _ | plan _ | result _ | forceHalfOpen _ => 1

namespace AppState

variable [Rounding] [HeaderText] (render : Json → String)

omit [HeaderText] in
theorem acquireTokens_singleton (now : Instant) : acquireTokens [now] = tryAcquire now :=
  bind_pure _

/-- **A request is its checks, its tokens and the rest**, in this order. -/
theorem serve_eq (env : RequestEnvironment) (headers : HeaderMap) (call : ApiCall) :
    serve render env headers call = (do
      checks headers call
      acquireTokens ((List.range call.tokens).map env.acquireAt)
      perform render env call) := by
  cases call with
  | metrics =>
      simp [serve, metricsHandler, authorizeRequest, checks, perform, ApiCall.tokens,
        acquireTokens_singleton]
  | route query =>
      simp [serve, routeHandler, authorizeRequest, checks, perform, ApiCall.tokens,
        acquireTokens_singleton]
  | batch requests =>
      simp [serve, batchRouteHandler, checks, perform, ApiCall.tokens]
  | plan query =>
      simp [serve, planHandler, authorizeRequest, checks, perform, ApiCall.tokens,
        acquireTokens_singleton]
  | result query =>
      simp [serve, resultHandler, authorizeRequest, checks, perform, ApiCall.tokens,
        acquireTokens_singleton]
  | forceHalfOpen query =>
      simp [serve, forceHalfOpenHandler, authorizeRequest, checks, perform, ApiCall.tokens,
        acquireTokens_singleton]

end AppState

end TrustRouter
