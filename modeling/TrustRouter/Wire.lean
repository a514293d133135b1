import TrustRouter.Agents
import TrustRouter.AuditLines
import TrustRouter.Http

/-!
# Over the wire

A request of the SDK is the method, the path and the query of an URL, and the response is a
status and a JSON text.  The sidecar takes what it needs from the query, and those who call the
client take what they need from the text.

A client's request arrives as it was meant, whatever characters are in its names, and a response
is read as what the handler has returned: the cost of a route is a number, and no error is mistaken
for an answer.  A client whose key cannot be sent raises, and the sidecar hears nothing of it
(`client_exchange`).

The responses are those of serde: the fields of a structure, and the variant of an enumeration in
a field `decision` before them.  Hash maps are written in the order in which they are listed here.
What is relied on of the libraries on both sides is in `SerdeJson`, `JsonReader`, `HttpLibrary` and
`Axum`.
-/

namespace TrustRouter

open JsonText JsonText.Value SerdeJson

/-! ## Requests -/

/-- A client of the SDK, and the HTTP library it has been written for. -/
structure TrustRouterClient where
  tenant : TenantId
  apiKey : String
  library : HttpLibrary

namespace TrustRouterClient

variable (client : TrustRouterClient)

/-- None if the key cannot be sent. -/
def headers : Option HeaderMap :=
  (client.library.headerValue client.apiKey).map fun value => [("x-api-key", value)]

/-- The request that is sent, unless the library raises. -/
def request (method : HttpMethod) (path : String) (params : List (String × String)) :
    Option HttpRequest :=
  client.headers.map fun headers =>
    { method := method, path := path, query := client.library.query params, headers := headers }

def routeRequest (start goal : NodeId) : Option HttpRequest :=
  client.request .get "/route" [("tenant", client.tenant), ("start", start), ("goal", goal)]

def planRequest (start goal : NodeId) : Option HttpRequest :=
  client.request .get "/plan" [("tenant", client.tenant), ("start", start), ("goal", goal)]

def reportResultRequest (node : NodeId) (success : Bool) (latencyMs : ℕ) : Option HttpRequest :=
  client.request .post "/result"
    [("tenant", client.tenant), ("node", node), ("success", toString success),
      ("latency_ms", toString latencyMs)]

end TrustRouterClient

/-! ### What the sidecar makes of them -/

/-- A field of a derived `Deserialize`, which must be there once. -/
def param (pairs : List (String × String)) (name : String) : Option String :=
  match pairs.filter (·.1 = name) with
  | [(_, value)] => some value
  | _ => none

def RouteQuery.ofPairs (pairs : List (String × String)) : Option RouteQuery := do
  return {
    tenant := ← param pairs "tenant"
    start := ← param pairs "start"
    goal := ← param pairs "goal" }

def ResultQuery.ofPairs [Axum] (pairs : List (String × String)) : Option ResultQuery := do
  return {
    tenant := ← param pairs "tenant"
    node := ← param pairs "node"
    success := ← (param pairs "success").bind Axum.bool
    latencyMs := ← (param pairs "latency_ms").bind Axum.u64 }

def ForceHalfOpenQuery.ofPairs (pairs : List (String × String)) : Option ForceHalfOpenQuery := do
  return {
    tenant := ← param pairs "tenant"
    node := ← param pairs "node" }

/-- The handler of a request and its parameters, if there is one and no extractor refuses it. -/
def ApiCall.ofRequest [Axum] (request : HttpRequest) : Option ApiCall :=
  let pairs := Axum.pairs request.query
  match request.method, request.path with
  | .get, "/metrics" => some .metrics
  | _, "/route" => (RouteQuery.ofPairs pairs).map .route
  | .get, "/plan" => (RouteQuery.ofPairs pairs).map .plan
  | .post, "/result" => (ResultQuery.ofPairs pairs).map .result
  | .post, "/force-half-open" => (ForceHalfOpenQuery.ofPairs pairs).map .forceHalfOpen
  | _, _ => none

section Requests

variable [Axum]

/-- A request arrives as it was meant. -/
def Arrives (request : Option HttpRequest) (headers : HeaderMap) (call : ApiCall) : Prop :=
  ∃ sent, request = some sent ∧ sent.headers = headers ∧ ApiCall.ofRequest sent = some call

variable (client : TrustRouterClient) {headers : HeaderMap} (sends : client.headers = some headers)

include sends

/-- It is enough to look at the pairs of the query. -/
theorem arrives_request {method : HttpMethod} {path : String} {params : List (String × String)}
    {call : ApiCall}
    (taken : ∀ query, Axum.pairs query = params →
      ApiCall.ofRequest ⟨method, path, query, headers⟩ = some call) :
    Arrives (client.request method path params) headers call := by
  rw [TrustRouterClient.request, sends]
  exact ⟨_, rfl, rfl, taken _ (client.library.pairs_query params)⟩

/-- **A request for a route arrives as it was meant**, whatever characters are in its names. -/
theorem arrives_routeRequest (start goal : NodeId) :
    Arrives (client.routeRequest start goal) headers (.route ⟨client.tenant, start, goal⟩) := by
  refine arrives_request client sends fun query pairs => ?_
  unfold ApiCall.ofRequest
  dsimp only
  rw [pairs]
  rfl

theorem arrives_planRequest (start goal : NodeId) :
    Arrives (client.planRequest start goal) headers (.plan ⟨client.tenant, start, goal⟩) := by
  refine arrives_request client sends fun query pairs => ?_
  unfold ApiCall.ofRequest
  dsimp only
  rw [pairs]
  rfl

theorem arrives_reportResultRequest (node : NodeId) (success : Bool) {latencyMs : ℕ}
    (small : latencyMs < 2 ^ 64) :
    Arrives (client.reportResultRequest node success latencyMs) headers
      (.result ⟨client.tenant, node, success, latencyMs⟩) := by
  refine arrives_request client sends fun query pairs => ?_
  unfold ApiCall.ofRequest
  dsimp only
  rw [pairs]
  show Option.map ApiCall.result (do
    let success ← (some (toString success)).bind Axum.bool
    let latencyMs ← (some (toString latencyMs)).bind Axum.u64
    some (ResultQuery.mk client.tenant node success latencyMs)) = _
  rw [Option.bind_some, Axum.bool_toString, Option.bind_some, Axum.u64_toString _ small]
  rfl

end Requests

/-! ## Responses -/

def Json.strings (items : List String) : Json := .array (items.map .string)

def RouteResponse.json : RouteResponse → Json
  | routed path totalCost cacheHit =>
      .object
        [("decision", .string "routed"), ("path", .strings path),
          ("total_cost", .number totalCost), ("cache_hit", .bool cacheHit)]
  | escalate reason failedOrBlockedNodes =>
      .object
        [("decision", .string "escalate"), ("reason", .string reason),
          ("failed_or_blocked_nodes", .strings failedOrBlockedNodes)]

def PlanResponse.json : PlanResponse → Json
  | execute schemaVersion path totalCost cacheHit steps =>
      .object
        [("decision", .string "execute"), ("schema_version", .unsigned schemaVersion),
          ("path", .strings path), ("total_cost", .number totalCost),
          ("cache_hit", .bool cacheHit), ("steps", .strings steps)]
  | recover reason failedOrBlockedNodes recoverySteps =>
      .object
        [("decision", .string "recover"), ("reason", .string reason),
          ("failed_or_blocked_nodes", .strings failedOrBlockedNodes),
          ("recovery_steps", .strings recoverySteps)]

def LatencyPercentiles.json (percentiles : LatencyPercentiles) : Json :=
  .object
    [("p50", .unsigned percentiles.p50), ("p95", .unsigned percentiles.p95),
      ("p99", .unsigned percentiles.p99)]

def TenantMetricsResponse.fields (response : TenantMetricsResponse) : List (String × Json) :=
  [("total_routes", .unsigned response.totalRoutes),
    ("total_successful_routes", .unsigned response.totalSuccessfulRoutes),
    ("total_reroutes", .unsigned response.totalReroutes),
    ("total_escalations", .unsigned response.totalEscalations),
    ("escalation_rate", .number response.escalationRate),
    ("llm_calls_avoided", .unsigned response.llmCallsAvoided),
    ("false_escalations", .unsigned response.falseEscalations),
    ("false_escalation_rate", .number response.falseEscalationRate),
    ("cache_hits", .unsigned response.cacheHits),
    ("cache_misses", .unsigned response.cacheMisses),
    ("cache_hit_ratio", .number response.cacheHitRatio),
    ("node_health", .object (response.nodeHealth.map fun entry => (entry.1, .string entry.2))),
    ("route_latency_us", response.routeLatencyUs.json)]

def MetricsResponse.json (response : MetricsResponse) : Json :=
  .object (response.toTenantMetricsResponse.fields ++
    [("total_plans", .unsigned response.totalPlans),
      ("successful_plans", .unsigned response.successfulPlans),
      ("recovery_plans", .unsigned response.recoveryPlans),
      ("plan_latency_us", response.planLatencyUs.json),
      ("tenants", .object (response.tenants.map fun entry => (entry.1, .object entry.2.fields)))])

def ErrorBody.json (error : ErrorBody) : Json :=
  .object [("error", .object
    [("code", .string error.code), ("message", .string error.message),
      ("request_id", .string error.requestId)])]

/-- A body.  How long a batch has taken is not part of the model. -/
def Body.json (durationUs : ℕ) : Body → Json
  | .metrics response => response.json
  | .route response => response.json
  | .batch response =>
      .object
        [("results", .array (response.results.map RouteResponse.json)),
          ("total_routed", .unsigned response.totalRouted),
          ("total_escalated", .unsigned response.totalEscalated),
          ("duration_us", .unsigned durationUs)]
  | .plan response => response.json
  | .ok flag => .object [("ok", .bool flag)]
  | .forceHalfOpen changed => .object [("changed", .bool changed)]
  | .error body => body.json

def HttpResponse.onWire [SerdeJson] (response : HttpResponse) (durationUs : ℕ) : WireResponse where
  status := response.status
  text := (toText (response.body.json durationUs)).toList

/-! ### What the clients make of them -/

/-- A natural number. -/
def JsonText.Value.asNat : Value ℚ → Option ℕ
  | .number value => if value.den = 1 ∧ 0 ≤ value then some value.num.toNat else none
  | _ => none

/-- The fields of a `RouteDecision` of the TypeScript SDK; the one of Python is a dictionary with
the same entries. -/
def RouteResponse.ofFields (fields : List (String × Value ℚ)) : Option RouteResponse :=
  match stringAt fields "decision" with
  | some "routed" => do
      return .routed (← (field fields "path").bind asStrings)
        (← (field fields "total_cost").bind asF64) (← (field fields "cache_hit").bind asBool)
  | some "escalate" => do
      return .escalate (← stringAt fields "reason")
        (← (field fields "failed_or_blocked_nodes").bind asStrings)
  | _ => none

def PlanResponse.ofFields (fields : List (String × Value ℚ)) : Option PlanResponse :=
  match stringAt fields "decision" with
  | some "execute" => do
      return .execute (← (field fields "schema_version").bind asNat)
        (← (field fields "path").bind asStrings) (← (field fields "total_cost").bind asF64)
        (← (field fields "cache_hit").bind asBool) (← (field fields "steps").bind asStrings)
  | some "recover" => do
      return .recover (← stringAt fields "reason")
        (← (field fields "failed_or_blocked_nodes").bind asStrings)
        (← (field fields "recovery_steps").bind asStrings)
  | _ => none

/-- A `ResultResponse`.  Those who report a result only learn whether it raises. -/
def readReport (fields : List (String × Value ℚ)) : Option Unit :=
  ((field fields "ok").bind asBool).map fun _ => ()

/-- The fields of the response, if its status is not that of an error. -/
def WireResponse.fields [SerdeJson] [JsonReader] (response : WireResponse) :
    Option (List (String × Value ℚ)) :=
  if 400 ≤ response.status then none
  else
    match JsonReader.read response.text with
    | some (.object fields) => some fields
    | _ => none

/-- What a method of the client returns, as its caller reads it, or that it raises. -/
def WireResponse.result [SerdeJson] [JsonReader] {α : Type} (response : WireResponse)
    (read : List (String × Value ℚ) → Option α) : Except AgentError α :=
  ((response.fields.bind read).map Except.ok).getD (.error .request)

/-! ### Reading what has been written -/

theorem asNat_natCast (n : ℕ) : asNat (.number n) = some n := by
  simp [asNat]

/-- What is read of some fields, in whatever order they stand. -/
def ReadsAs {α : Type} (read : List (String × Value ℚ) → Option α) (json : Json) (answer : α) :
    Prop :=
  ∃ fields, json.value = .object fields ∧ read fields = some answer

theorem reads_object {α : Type} {read : List (String × Value ℚ) → Option α}
    (forgets : ∀ {fields : List (String × Value ℚ)}, (fields.map Prod.fst).Nodup →
      read (BTreeMap.ofList fields).entries = read fields)
    {fields : List (String × Json)} (nodup : (fields.map Prod.fst).Nodup) {answer : α}
    (reads : read (Json.fieldValues fields) = some answer) :
    ReadsAs read (.object fields) answer := by
  refine ⟨_, rfl, (forgets ?_).trans reads⟩
  rw [Json.fieldValues_eq_map, List.map_map]
  exact nodup

/-- A cost in the response is a number. -/
def RouteResponse.FiniteCost : RouteResponse → Prop
  | routed _ totalCost _ => ∃ cost, totalCost = .finite cost
  | escalate _ _ => True

def PlanResponse.FiniteCost : PlanResponse → Prop
  | execute _ _ totalCost _ _ => ∃ cost, totalCost = .finite cost
  | recover _ _ _ => True

theorem RouteResponse.ofFields_ofList {fields : List (String × Value ℚ)}
    (nodup : (fields.map Prod.fst).Nodup) :
    ofFields (BTreeMap.ofList fields).entries = ofFields fields := by
  have same := field_ofList nodup
  simp only [ofFields, stringAt, same]

theorem PlanResponse.ofFields_ofList {fields : List (String × Value ℚ)}
    (nodup : (fields.map Prod.fst).Nodup) :
    ofFields (BTreeMap.ofList fields).entries = ofFields fields := by
  have same := field_ofList nodup
  simp only [ofFields, stringAt, same]

theorem asStrings_strings (items : List String) :
    asStrings (Json.strings items).value = some items := by
  rw [Json.strings, Json.value, Json.values_map_string, asStrings_array]

theorem RouteResponse.reads_json {response : RouteResponse} (finite : response.FiniteCost) :
    ReadsAs ofFields response.json response := by
  cases response with
  | routed path totalCost cacheHit =>
      obtain ⟨cost, rfl⟩ := finite
      refine reads_object ofFields_ofList (by simp) ?_
      show (do
        let path ← asStrings (Json.strings path).value
        some (RouteResponse.routed path (.finite cost) cacheHit)) = _
      rw [asStrings_strings]
      rfl
  | escalate reason failedOrBlockedNodes =>
      refine reads_object ofFields_ofList (by simp) ?_
      show (do
        let failedOrBlockedNodes ← asStrings (Json.strings failedOrBlockedNodes).value
        some (RouteResponse.escalate reason failedOrBlockedNodes)) = _
      rw [asStrings_strings]
      rfl

theorem PlanResponse.reads_json {response : PlanResponse} (finite : response.FiniteCost) :
    ReadsAs ofFields response.json response := by
  cases response with
  | execute schemaVersion path totalCost cacheHit steps =>
      obtain ⟨cost, rfl⟩ := finite
      refine reads_object ofFields_ofList (by simp) ?_
      show (do
        let schemaVersion ← asNat (.number schemaVersion)
        let path ← asStrings (Json.strings path).value
        let steps ← asStrings (Json.strings steps).value
        some (PlanResponse.execute schemaVersion path (.finite cost) cacheHit steps)) = _
      rw [asStrings_strings, asStrings_strings, asNat_natCast]
      rfl
  | recover reason failedOrBlockedNodes recoverySteps =>
      refine reads_object ofFields_ofList (by simp) ?_
      show (do
        let failedOrBlockedNodes ← asStrings (Json.strings failedOrBlockedNodes).value
        let recoverySteps ← asStrings (Json.strings recoverySteps).value
        some (PlanResponse.recover reason failedOrBlockedNodes recoverySteps)) = _
      rw [asStrings_strings, asStrings_strings]
      rfl

theorem reads_ok (flag : Bool) : ReadsAs readReport (.object [("ok", .bool flag)]) () :=
  ⟨_, rfl, rfl⟩

/-! ## Costs in responses -/

section Costs

variable [Rounding]

/-- The cost of a route is a number, in whatever state the router has got into. -/
theorem RouterState.finite_totalCost_answer (ops : List Op) {tenantId : TenantId}
    {start goal : NodeId} {route : Route}
    (answered : ((after ops).route tenantId start goal).answer = .routed route) :
    ∃ cost, route.totalCost = .finite cost := by
  have finite := finiteCosts_trail (ops ++ [.route tenantId start goal])
  have pushed : ((after ops).perform (.route tenantId start goal)).pushed =
      [.reroute tenantId start goal route.nodes route.totalCost route.cacheHit] := by
    have pushed := route_pushed (after ops) tenantId start goal
    rwa [answered] at pushed
  rw [trail_concat, pushed] at finite
  exact finite _ (List.mem_append_right _ (.head _))

theorem finiteCost_fromDecision (ops : List Op) (tenantId : TenantId) (start goal : NodeId) :
    (RouteResponse.fromDecision
      ((RouterState.after ops).route tenantId start goal).answer).FiniteCost := by
  cases answered : ((RouterState.after ops).route tenantId start goal).answer with
  | routed route => exact RouterState.finite_totalCost_answer ops answered
  | escalate context => exact trivial

omit [Rounding] in
/-- A plan is not made from a route whose cost is no number. -/
theorem finiteCost_fromOutcome {planner : Planner} {request : PlanningRequest} {route : Route}
    {outcome : PlanOutcome} (made : planner.executionPlan request route = .ok outcome) :
    (PlanResponse.fromOutcome outcome).FiniteCost := by
  obtain ⟨plan, rfl, -, -, candidate, cost, -, finite⟩ := Planner.executionPlan_ok made
  refine ⟨cost, ?_⟩
  rw [candidate]
  exact finite

namespace AppState

variable (render : Json → String) (env : RequestEnvironment) (state : AppState)

theorem finiteCost_of_plan {request : PlanningRequest} {fault : Option (ℕ × String)}
    {outcome : PlanOutcome} {later : AppState}
    (planned : play render fault (Planner.new.plan request).run state = (.ok outcome, later)) :
    (PlanResponse.fromOutcome outcome).FiniteCost := by
  unfold Planner.plan at planned
  cases valid : request.validate with
  | error error =>
      rw [valid] at planned
      cases planned
  | ok _ =>
      rw [valid] at planned
      cases called : callRoute request.tenantId request.start request.goal state with
      | mk decision decided =>
        have played : play render fault
            (Handler.callRoute request.tenantId request.start request.goal) state =
              (decision, decided) := called
        have checked : play render fault
            (liftM (Except.ok () : Except PlanningError Unit) :
              ExceptT PlanningError (Handler AuditEvent) Unit).run state = (.ok (), state) := rfl
        rw [play_bind_of_ok render checked, play_bind_of_ok render (play_lift render played)]
          at planned
        cases decision with
        | routed route =>
            have made : (Planner.new.executionPlan request route, decided) = (.ok outcome, later) :=
              planned
            exact finiteCost_fromOutcome (congrArg Prod.fst made)
        | escalate context =>
            obtain rfl := Except.ok.inj (congrArg Prod.fst planned)
            exact trivial

theorem finiteCost_handlePlan {query : RouteQuery} {response : PlanResponse} {served : AppState}
    (succeeds : handlePlan render env query state = (.ok response, served)) :
    response.FiniteCost := by
  cases planned : play render env.fault
      (Planner.new.plan ⟨query.tenant, query.start, query.goal⟩).run state with
  | mk answer later =>
    rw [handlePlan, App.bind_of_ok (App.lift_apply planned)] at succeeds
    cases answer with
    | error error => cases succeeds
    | ok outcome =>
        dsimp only at succeeds
        rw [lastAuditEvent_bind] at succeeds
        cases last : later.router.lastAuditEvent with
        | none =>
            rw [last] at succeeds
            cases succeeds
        | some event =>
            rw [last] at succeeds
            dsimp only at succeeds
            cases appended : callAppendEventsJsonl render env.fault [event] later with
            | mk result written =>
              cases result with
              | error error =>
                  rw [App.bind_of_error (persistBeforeResponse_of_error render appended)]
                    at succeeds
                  cases succeeds
              | ok count =>
                  rw [App.bind_of_ok (persistBeforeResponse_of_ok render appended)] at succeeds
                  obtain rfl : PlanResponse.fromOutcome outcome = response :=
                    Except.ok.inj (congrArg Prod.fst succeeds)
                  exact finiteCost_of_plan render state planned

variable [HeaderText] (headers : HeaderMap)

theorem finiteCost_planHandler {query : RouteQuery} {response : PlanResponse} {served : AppState}
    (succeeds : planHandler render headers env query state = (.ok response, served)) :
    response.FiniteCost := by
  rcases handler_cases env headers state query.validate query.tenant
      (handlePlan render env query) with ⟨error, failed, fails, -⟩ | ⟨ready, -, rest⟩
  · cases fails.symm.trans succeeds
  · exact finiteCost_handlePlan render env ready (rest.symm.trans succeeds)

theorem finiteCost_routeHandler {ops : List Op} (reached : state.router.inner = .after ops)
    {query : RouteQuery} {response : RouteResponse} {served : AppState}
    (succeeds : routeHandler render headers env query state = (.ok response, served)) :
    response.FiniteCost := by
  rcases handler_cases env headers state query.validate query.tenant
      (handleRoute render env query) with ⟨error, failed, fails, -⟩ | ⟨ready, untouched, rest⟩
  · cases fails.symm.trans succeeds
  rcases handleRoute_cases render env ready query with ⟨error, failed, fails, -⟩ |
    ⟨done, answers, -⟩
  · cases (rest.trans fails).symm.trans succeeds
  · have same := (rest.trans answers).symm.trans succeeds
    obtain rfl : RouteResponse.fromDecision (ready.decide query).decision = response :=
      Except.ok.inj (congrArg Prod.fst same)
    show (RouteResponse.fromDecision (ready.router.inner.route _ _ _).answer).FiniteCost
    rw [untouched, reached]
    exact finiteCost_fromDecision ops query.tenant query.start query.goal

end AppState

end Costs

/-! ## Exchanges -/

/-- What the client of the SDK returns or raises for the response to `plan`. -/
def HttpResponse.clientPlan (response : HttpResponse) : Except AgentError PlanResponse :=
  match response.status, response.body with
  | 200, .plan response => .ok response
  | _, _ => .error .request

section Exchanges

variable [SerdeJson] [JsonReader]

theorem result_of_error {α : Type} (read : List (String × Value ℚ) → Option α)
    (error : SidecarError) (requestId : String) (durationUs : ℕ) :
    ((error.intoResponse requestId).onWire durationUs).result read = .error .request := by
  have refused : 400 ≤ (error.intoResponse requestId).status := by
    cases error <;> simp [SidecarError.intoResponse]
  rw [WireResponse.result, WireResponse.fields, HttpResponse.onWire, if_pos refused]
  rfl

theorem result_of_ok {α : Type} {read : List (String × Value ℚ) → Option α} {body : Body}
    {requestId : String} {durationUs : ℕ} {answer : α}
    (reads : ReadsAs read (body.json durationUs) answer) :
    (HttpResponse.onWire { status := 200, body := body, requestId := requestId }
      durationUs).result read = .ok answer := by
  obtain ⟨fields, value, answers⟩ := reads
  rw [WireResponse.result, WireResponse.fields, HttpResponse.onWire, if_neg (by simp),
    JsonReader.read_toText, value]
  dsimp only
  rw [Option.bind_some, answers]
  rfl

namespace AppState

variable [Rounding] [HeaderText]
variable (env : RequestEnvironment) (headers : HeaderMap) (state : AppState) (durationUs : ℕ)

omit [JsonReader] in
theorem handle_cases (call : ApiCall) :
    (∃ error : SidecarError, (handle toText env headers call state).1 =
        error.intoResponse state.requestId) ∨
      ∃ body served, serve toText env headers call
          { state with nextRequestId := state.nextRequestId + 1 } = (.ok body, served) ∧
        (handle toText env headers call state).1 =
          { status := 200, body := body, requestId := state.requestId } := by
  cases ends : serve toText env headers call
      { state with nextRequestId := state.nextRequestId + 1 } with
  | mk answer served =>
    cases answer with
    | error error =>
        exact Or.inl ⟨error, congrArg Prod.fst (handle_of_error toText env headers state ends)⟩
    | ok body =>
        exact Or.inr ⟨body, served, rfl,
          congrArg Prod.fst (handle_of_ok toText env headers state ends)⟩

omit [SerdeJson] [JsonReader] [Rounding] [HeaderText] in
/-- The body of an answer is what its handler returns. -/
theorem exists_of_map {α : Type} {handler : App α} {f : α → Body} {body : Body}
    {served : AppState} (succeeds : (f <$> handler) state = (.ok body, served)) :
    ∃ answer, handler state = (.ok answer, served) ∧ f answer = body := by
  rw [map_eq_pure_bind] at succeeds
  cases ends : handler state with
  | mk answer later =>
    cases answer with
    | error error =>
        rw [App.bind_of_error ends] at succeeds
        cases succeeds
    | ok answer =>
        rw [App.bind_of_ok ends] at succeeds
        obtain ⟨same, rfl⟩ := Prod.mk.inj succeeds
        exact ⟨answer, rfl, Except.ok.inj same⟩

theorem result_handle_route {ops : List Op} (reached : state.router.inner = .after ops)
    (query : RouteQuery) :
    let response := (handle toText env headers (.route query) state).1
    (response.onWire durationUs).result RouteResponse.ofFields = response.clientRoute := by
  intro response
  rcases handle_cases env headers state (.route query) with ⟨error, eq⟩ | ⟨body, served, ok, eq⟩
  · rw [show response = _ from eq, result_of_error, (error.client_intoResponse _).1]
  · let counted : AppState := { state with nextRequestId := state.nextRequestId + 1 }
    have reached : counted.router.inner = .after ops := reached
    obtain ⟨answer, returned, rfl⟩ := exists_of_map counted ok
    have finite := finiteCost_routeHandler toText env counted headers reached returned
    rw [show response = _ from eq, result_of_ok (RouteResponse.reads_json finite)]
    rfl

theorem result_handle_plan (query : RouteQuery) :
    let response := (handle toText env headers (.plan query) state).1
    (response.onWire durationUs).result PlanResponse.ofFields = response.clientPlan := by
  intro response
  rcases handle_cases env headers state (.plan query) with ⟨error, eq⟩ | ⟨body, served, ok, eq⟩
  · rw [show response = _ from eq, result_of_error]
    cases error <;> rfl
  · obtain ⟨answer, returned, rfl⟩ := exists_of_map _ ok
    have finite := finiteCost_planHandler toText env _ headers returned
    rw [show response = _ from eq, result_of_ok (PlanResponse.reads_json finite)]
    rfl

theorem result_handle_result (query : ResultQuery) :
    let response := (handle toText env headers (.result query) state).1
    (response.onWire durationUs).result readReport = response.clientReportResult := by
  intro response
  rcases handle_cases env headers state (.result query) with ⟨error, eq⟩ | ⟨body, served, ok, eq⟩
  · rw [show response = _ from eq, result_of_error, (error.client_intoResponse _).2]
  · obtain ⟨answer, -, rfl⟩ := exists_of_map _ ok
    rw [show response = _ from eq, result_of_ok (reads_ok true)]
    rfl

variable [Axum]

/-- A request is answered by its handler, if it has one. -/
def exchange (request : HttpRequest) : WireResponse × AppState :=
  match ApiCall.ofRequest request with
  | none => (Axum.refusal request, state)
  | some call =>
      let handled := handle toText env request.headers call state
      (handled.1.onWire durationUs, handled.2)

/-- What a client gets for a request, and what the sidecar is left in. -/
def ask {α : Type} (request : Option HttpRequest) (read : List (String × Value ℚ) → Option α) :
    Except AgentError α × AppState :=
  match request with
  | none => (.error .request, state)
  | some request =>
      let exchanged := exchange env state durationUs request
      (exchanged.1.result read, exchanged.2)

theorem ask_of_arrives {α : Type} {request : Option HttpRequest}
    {read : List (String × Value ℚ) → Option α} {headers : HeaderMap} {call : ApiCall}
    {result : Except AgentError α} (arrives : Arrives request headers call)
    (returned : ((handle toText env headers call state).1.onWire durationUs).result read =
      result) :
    ask env state durationUs request read =
      (result, (handle toText env headers call state).2) := by
  obtain ⟨sent, rfl, rfl, taken⟩ := arrives
  rw [← returned]
  simp only [ask, exchange, taken]

variable (client : TrustRouterClient)

theorem ask_routeRequest {ops : List Op} (reached : state.router.inner = .after ops)
    {headers : HeaderMap} (sends : client.headers = some headers) (start goal : NodeId) :
    let answered := handle toText env headers (.route ⟨client.tenant, start, goal⟩) state
    ask env state durationUs (client.routeRequest start goal) RouteResponse.ofFields =
      (answered.1.clientRoute, answered.2) :=
  ask_of_arrives env state durationUs (arrives_routeRequest client sends start goal)
    (result_handle_route env headers state durationUs reached _)

theorem ask_planRequest {headers : HeaderMap} (sends : client.headers = some headers)
    (start goal : NodeId) :
    let answered := handle toText env headers (.plan ⟨client.tenant, start, goal⟩) state
    ask env state durationUs (client.planRequest start goal) PlanResponse.ofFields =
      (answered.1.clientPlan, answered.2) :=
  ask_of_arrives env state durationUs (arrives_planRequest client sends start goal)
    (result_handle_plan env headers state durationUs _)

theorem ask_reportResultRequest {headers : HeaderMap} (sends : client.headers = some headers)
    (node : NodeId) (success : Bool) {latencyMs : ℕ} (small : latencyMs < 2 ^ 64) :
    let answered :=
      handle toText env headers (.result ⟨client.tenant, node, success, latencyMs⟩) state
    ask env state durationUs (client.reportResultRequest node success latencyMs) readReport =
      (answered.1.clientReportResult, answered.2) :=
  ask_of_arrives env state durationUs
    (arrives_reportResultRequest client sends node success small)
    (result_handle_result env headers state durationUs _)

/-- Nothing is sent. -/
theorem ask_of_unsent (unsent : client.headers = none) (method : HttpMethod) (path : String)
    (params : List (String × String)) {α : Type}
    (read : List (String × Value ℚ) → Option α) :
    ask env state durationUs (client.request method path params) read =
      (.error .request, state) := by
  rw [TrustRouterClient.request, unsent]
  rfl

/-- **What a client reads is what the sidecar answers to what it has asked for**, and a client
whose key cannot be sent raises. -/
theorem client_exchange {ops : List Op} (reached : state.router.inner = .after ops) :
    (∀ headers, client.headers = some headers →
      let handled := fun call => handle toText env headers call state
      (∀ start goal,
        let answered := handled (.route ⟨client.tenant, start, goal⟩)
        ask env state durationUs (client.routeRequest start goal) RouteResponse.ofFields =
          (answered.1.clientRoute, answered.2)) ∧
      (∀ start goal,
        let answered := handled (.plan ⟨client.tenant, start, goal⟩)
        ask env state durationUs (client.planRequest start goal) PlanResponse.ofFields =
          (answered.1.clientPlan, answered.2)) ∧
      ∀ node success latencyMs, latencyMs < 2 ^ 64 →
        let answered := handled (.result ⟨client.tenant, node, success, latencyMs⟩)
        ask env state durationUs (client.reportResultRequest node success latencyMs) readReport =
          (answered.1.clientReportResult, answered.2)) ∧
    (client.headers = none →
      (∀ start goal,
        ask env state durationUs (client.routeRequest start goal) RouteResponse.ofFields =
          (.error .request, state)) ∧
      (∀ start goal,
        ask env state durationUs (client.planRequest start goal) PlanResponse.ofFields =
          (.error .request, state)) ∧
      ∀ node success latencyMs,
        ask env state durationUs (client.reportResultRequest node success latencyMs) readReport =
          (.error .request, state)) := by
  constructor
  · intro headers sends handled
    refine ⟨fun start goal => ?_, fun start goal => ?_, fun node success latencyMs small => ?_⟩
    · exact ask_routeRequest env state durationUs client reached sends start goal
    · exact ask_planRequest env state durationUs client sends start goal
    · exact ask_reportResultRequest env state durationUs client sends node success small
  · intro unsent
    have raises := ask_of_unsent env state durationUs client unsent
    exact ⟨fun start goal => raises .., fun start goal => raises ..,
      fun node success latencyMs => raises ..⟩

omit [SerdeJson] [JsonReader] [Rounding] [HeaderText] [Axum] in
/-- A client in Python asks for a route and a plan and reports a result.  One in a browser has a
key that cannot be sent. -/
theorem client_exchange_of_two_clients :
    letI := Rounding.exact
    letI := HeaderText.visibleAscii
    letI := UrlEncoded.Utf8Lossy.strict
    let _ := Axum.formUrlEncoded
    let _ := SerdeJson.ofTable sampleNumbers
    let _ := JsonReader.ofTable sampleNumbers
    let state : AppState := { AppState.sample with
      router := AppState.sample.router.step (.addEdge "acme" (Edge.new "a" "b")) }
    let python : TrustRouterClient := ⟨"acme", "key", .requests⟩
    let browser : TrustRouterClient := ⟨"acme", "ключ", .fetch⟩
    let handled := handle toText default [("x-api-key", asBytes "key")]
    let routed := handled (.route ⟨"acme", "a", "b"⟩) state
    let planned := handled (.plan ⟨"acme", "a", "b"⟩) state
    let reported := handled (.result ⟨"acme", "b", true, 250⟩) state
    (routed.1.status = 200 ∧ planned.1.status = 200 ∧ reported.1.status = 200) ∧
      ask default state 0 (python.routeRequest "a" "b") RouteResponse.ofFields =
        (routed.1.clientRoute, routed.2) ∧
      ask default state 0 (python.planRequest "a" "b") PlanResponse.ofFields =
        (planned.1.clientPlan, planned.2) ∧
      ask default state 0 (python.reportResultRequest "b" true 250) readReport =
        (reported.1.clientReportResult, reported.2) ∧
      ask default state 0 (browser.routeRequest "a" "b") RouteResponse.ofFields =
        (.error .request, state) := by
  let _ := Rounding.exact
  let _ := HeaderText.visibleAscii
  let _ := UrlEncoded.Utf8Lossy.strict
  intro _ _ _ state python browser handled routed planned reported
  have reached : state.router.inner = .after [.addEdge "acme" (Edge.new "a" "b")] := rfl
  have sends : python.headers = some [("x-api-key", asBytes "key")] := by decide +kernel
  have unsent : browser.headers = none := by decide +kernel
  obtain ⟨route, plan, report⟩ := (client_exchange default state 0 python reached).1 _ sends
  have raises := (client_exchange default state 0 browser reached).2 unsent
  exact ⟨⟨by decide +kernel, by decide +kernel, by decide +kernel⟩, route "a" "b", plan "a" "b",
    report "b" true 250 (by decide), raises.1 "a" "b"⟩

end AppState

end Exchanges

end TrustRouter
