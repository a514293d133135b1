import TrustRouter.Testimony
import TrustRouter.Wire

/-!
# Agents over the wire

The agents of the SDK, where each has a client with a key and an HTTP library of its own, and every
call goes over the wire: a request may get lost, or be refused, or have its response lost.  Others
send requests of all kinds as well.  Requests are served one after the other.

Every run of them is one of `Agents`, who share a router and nothing else: the same calls are made
and answered in the same way, and the router is left in the same state (`exists_agents_run`).  So
what holds of the runs of `Agents` holds of agents that talk to the sidecar.
-/

namespace TrustRouter

open Program SerdeJson

/-! ## What requests do to the router -/

namespace App

variable [Rounding] {α β : Type} (P : Op → Prop)

/-- What the program does to the router are some operations of which `P` holds. -/
def Operates (program : App α) : Prop :=
  ∀ state, ∃ ops, (∀ op ∈ ops, P op) ∧
    (program state).2.router.inner = run RouterState.step state.router.inner ops

variable {P}

theorem operates_of_untouched {program : App α}
    (untouched : ∀ state, (program state).2.router = state.router) : program.Operates P :=
  fun state => ⟨[], List.forall_mem_nil _, congrArg Router.inner (untouched state)⟩

theorem Operates.bind {first : App α} {next : α → App β} (operates : first.Operates P)
    (rest : ∀ a, (next a).Operates P) : (first >>= next).Operates P := by
  intro state
  obtain ⟨ops, all, before⟩ := operates state
  cases ran : first state with
  | mk answer later =>
      rw [ran] at before
      cases answer with
      | error error =>
          rw [bind_of_error ran]
          exact ⟨ops, all, before⟩
      | ok a =>
          obtain ⟨ops', all', after⟩ := rest a later
          rw [bind_of_ok ran]
          exact ⟨ops ++ ops', List.forall_mem_append.mpr ⟨all, all'⟩,
            by rw [after, run_append, ← before]⟩

theorem Operates.map {program : App α} (operates : program.Operates P) (f : α → β) :
    (f <$> program).Operates P := by
  rw [map_eq_pure_bind]
  exact operates.bind fun _ => operates_of_untouched fun _ => rfl

end App

/-- The operations that a request may do. -/
def ApiCall.Does (env : RequestEnvironment) : ApiCall → Op → Prop
  | .route _, .route _ _ _ | .plan _, .route _ _ _ | .batch _, .route _ _ _ => True
  | .result query, op =>
      op = .recordResult query.tenant query.node query.success query.latencyMs env.resultAt
  | .forceHalfOpen query, op => op = .forceHalfOpen query.tenant query.node
  | _, _ => False

namespace AppState

open App

variable [Rounding] {P : Op → Prop}

section Checks

variable [HeaderText] (headers : HeaderMap)

omit [HeaderText] in
theorem operates_checkItems (requests : List BatchRouteItem) :
    (checkItems requests).Operates P := by
  induction requests with
  | nil => exact operates_of_untouched fun _ => rfl
  | cons item rest ih =>
      have valid : (check item.validate).Operates P := operates_of_untouched fun _ => rfl
      have allowed : (checkTenant item.tenant).Operates P := operates_of_untouched fun _ => rfl
      exact valid.bind fun _ => allowed.bind fun _ => ih

theorem operates_checks (request : ApiCall) : (checks headers request).Operates P := by
  have key : (checkApiKey headers).Operates P := operates_of_untouched fun _ => rfl
  have valid : ∀ result, (check result : App Unit).Operates P := fun _ =>
    operates_of_untouched fun _ => rfl
  have allowed : ∀ tenant, (checkTenant tenant).Operates P := fun _ =>
    operates_of_untouched fun _ => rfl
  cases request with
  | metrics => exact key
  | batch requests =>
      exact (valid _).bind fun _ => key.bind fun _ => operates_checkItems requests
  | _ => exact (valid _).bind fun _ => key.bind fun _ => allowed _

omit [HeaderText] in
theorem operates_acquireTokens (calls : List Instant) : (acquireTokens calls).Operates P := by
  induction calls with
  | nil => exact operates_of_untouched fun _ => rfl
  | cons now rest ih =>
      have acquire : (tryAcquire now).Operates P := operates_of_untouched fun _ => rfl
      exact acquire.bind fun _ => ih

end Checks

variable (render : Json → String) (env : RequestEnvironment)

theorem operates_handleRoute (decides : ∀ tenant start goal, P (.route tenant start goal))
    (query : RouteQuery) : (handleRoute render env query).Operates P := by
  intro state
  refine ⟨[.route query.tenant query.start query.goal], List.forall_mem_singleton.mpr
    (decides _ _ _), ?_⟩
  rcases handleRoute_cases render env state query with ⟨_, _, fails, same⟩ | ⟨_, succeeds, same⟩
  · rw [fails, same]
    rfl
  · rw [succeeds, same]
    rfl

theorem operates_handlePlan (decides : ∀ tenant start goal, P (.route tenant start goal))
    (query : RouteQuery) : (handlePlan render env query).Operates P := by
  let played := play render env.fault
    (Planner.new.plan ⟨query.tenant, query.start, query.goal⟩).run
  have planned : App.Operates P (liftM played) := by
    intro state
    have decided := List.forall_mem_singleton.mpr (decides query.tenant query.start query.goal)
    rcases play_plan_cases render env.fault query state with
      ⟨error, played⟩ | ⟨error, played⟩ | ⟨outcome, played, -⟩
    · exact ⟨[], List.forall_mem_nil _, by rw [App.lift_apply played]; rfl⟩
    · exact ⟨[_], decided, by rw [App.lift_apply played]; rfl⟩
    · exact ⟨[_], decided, by rw [App.lift_apply played]; rfl⟩
  refine planned.bind fun
    | .error _ => operates_of_untouched fun _ => rfl
    | .ok outcome => Operates.bind (operates_of_untouched fun _ => rfl) fun
      | none => operates_of_untouched fun _ => rfl
      | some event => ?_
  have persisted : (persistBeforeResponse render env event).Operates P :=
    Operates.bind (operates_of_untouched fun _ => rfl) fun
      | .ok _ => operates_of_untouched fun _ => rfl
      | .error _ => operates_of_untouched fun _ => rfl
  exact persisted.bind fun _ => operates_of_untouched fun _ => rfl

theorem operates_routeBatchItems (decides : ∀ tenant start goal, P (.route tenant start goal))
    (items : List (BatchRouteItem × Duration)) (progress : BatchProgress AuditEvent) :
    App.Operates P (liftM (routeBatchItems items progress)) := by
  intro state
  induction items generalizing progress state with
  | nil => exact ⟨[], List.forall_mem_nil _, rfl⟩
  | cons entry rest ih =>
      obtain ⟨item, elapsed⟩ := entry
      let decided := state.decide item.query
      obtain ⟨ops, all, eq⟩ := ih (progress.record decided.decision (some decided.event))
        (recordRoute item.tenant decided.decision elapsed decided.state).2
      refine ⟨.route item.tenant item.start item.goal :: ops,
        List.forall_mem_cons.mpr ⟨decides _ _ _, all⟩, ?_⟩
      show (routeBatchItems ((item, elapsed) :: rest) progress state).2.router.inner = _
      rw [routeBatchItems_cons]
      exact eq

theorem operates_perform (call : ApiCall) : (perform render env call).Operates (call.Does env) := by
  cases call with
  | metrics => exact operates_of_untouched fun _ => rfl
  | route query => exact (operates_handleRoute render env (fun _ _ _ => trivial) query).map _
  | plan query => exact (operates_handlePlan render env (fun _ _ _ => trivial) query).map _
  | batch requests =>
      refine Operates.map ?_ _
      refine (operates_routeBatchItems (fun _ _ _ => trivial) _ {}).bind fun progress =>
        Operates.bind (operates_of_untouched fun _ => rfl) fun
          | .ok _ => operates_of_untouched fun _ => rfl
          | .error _ => operates_of_untouched fun _ => rfl
  | result query => exact fun _ => ⟨[_], List.forall_mem_singleton.mpr rfl, rfl⟩
  | forceHalfOpen query => exact fun _ => ⟨[_], List.forall_mem_singleton.mpr rfl, rfl⟩

/-- **What a request does to the router** are operations of its kind. -/
theorem exists_ops_handle [HeaderText] (headers : HeaderMap) (call : ApiCall) (state : AppState) :
    ∃ ops, (∀ op ∈ ops, call.Does env op) ∧
      (handle render env headers call state).2.router.inner =
        run RouterState.step state.router.inner ops := by
  have served : (serve render env headers call).Operates (call.Does env) := by
    rw [serve_eq]
    exact (operates_checks headers call).bind fun _ =>
      (operates_acquireTokens _).bind fun _ => operates_perform render env call
  rw [handle_snd]
  exact served _

end AppState

/-! ## Side by side -/

/-- What a call of an agent meets on its way. -/
structure Passage (ρ : Type) where
  /-- The request gets to the sidecar. -/
  reaches : Bool
  /-- The response gets back. -/
  returns : Bool
  env : RequestEnvironment
  durationUs : ℕ
  /-- What each tool would give. -/
  outcome : NodeId → Option ρ
  latencyMs : ℕ

/-- What becomes of an exchange on its way. -/
def Passage.transmit {ρ α : Type} (passage : Passage ρ) (state : AppState)
    (asked : Except AgentError α × AppState) : Except AgentError α × AppState :=
  (if passage.reaches && passage.returns then asked.1 else .error .request,
    if passage.reaches then asked.2 else state)

/-- An agent makes its next call, or a request or an operation of somebody else comes in. -/
inductive WireAction (ρ : Type) where
  | agent (client : ClientId) (passage : Passage ρ)
  | arrive (arrival : Arrival)

/-- The tool fails whenever it is called, and others neither report on it nor set the policy by
which it is judged. -/
def WireAction.Spares {ρ : Type} (tenantId : TenantId) (node : NodeId) : WireAction ρ → Prop
  | .agent _ passage => passage.outcome node = none
  | .arrive (.request _ _ (.result query)) => ¬ (query.tenant = tenantId ∧ query.node = node)
  | .arrive (.request _ _ _) => True
  | .arrive (.operation op) => op.spares tenantId node = true

/-- What an agent reports is the latency of a call in milliseconds, as a `u64`. -/
def WireAction.Fits {ρ : Type} : WireAction ρ → Prop
  | .agent _ passage => passage.latencyMs < 2 ^ 64
  | .arrive _ => True

abbrev WireAgents (ρ : Type) := Clients (agentInterface ρ) AppState Unit

section Run

variable [Rounding] [HeaderText] [SerdeJson] [JsonReader] [Axum] {ρ : Type}

/-- What an agent gets by its client. -/
def TrustRouterClient.serve (client : TrustRouterClient) (passage : Passage ρ) :
    Server (agentInterface ρ) AppState
  | state, .route start goal => passage.transmit state
      (AppState.ask passage.env state passage.durationUs (client.routeRequest start goal)
        RouteResponse.ofFields)
  | state, .invoke node => (passage.outcome node, state)
  | state, .reportResult node success => passage.transmit state
      (AppState.ask passage.env state passage.durationUs
        (client.reportResultRequest node success passage.latencyMs) readReport)

namespace WireAgents

variable (clients : ClientId → TrustRouterClient)

def step (agents : WireAgents ρ) : WireAction ρ → WireAgents ρ
  | .agent client passage =>
      Clients.step (fun client => (clients client).serve passage) agents client
  | .arrive arrival => { agents with state := agents.state.arrive arrival }

/-- Some programs, before anyone has made a call. -/
def start (state : AppState) (programs : List (Program (agentInterface ρ) Unit)) : WireAgents ρ :=
  Clients.start state fun client => programs.getD client (done ())

end WireAgents

/-! ## The same run without a wire -/

omit [HeaderText] [SerdeJson] [JsonReader] [Axum] in
/-- What gets lost on the way may as well get lost on an occasion. -/
theorem exists_request_eq_transmit {α : Type} {shared : SharedRouter} {state : AppState}
    (same : shared.tenants = state.router.inner) (passage : Passage ρ) {occasion : Occasion ρ}
    {op : Op} {answer : α} {asked : Except AgentError α × AppState}
    (answers : (shared.request occasion op answer).1 = asked.1)
    (left : (shared.request occasion op answer).2.tenants = asked.2.router.inner) :
    ∃ reaches returns,
      let lossy := { occasion with reaches := reaches, answers := returns }
      (shared.request lossy op answer).1 = (passage.transmit state asked).1 ∧
        (shared.request lossy op answer).2.tenants =
          (passage.transmit state asked).2.router.inner := by
  refine ⟨passage.reaches && occasion.reaches, passage.returns && occasion.answers, ?_⟩
  unfold SharedRouter.request at answers left
  unfold SharedRouter.request Passage.transmit
  rw [← answers]
  cases passage.reaches with
  | false => exact ⟨rfl, same⟩
  | true =>
      refine ⟨?_, left⟩
      cases passage.returns <;> cases occasion.reaches <;> cases occasion.answers <;> rfl

variable (client : TrustRouterClient) {passage : Passage ρ} {shared : SharedRouter}
variable {state : AppState}

/-- **A call over the wire** is one on some occasion. -/
theorem exists_serve_eq (fits : passage.latencyMs < 2 ^ 64) {ops : List Op}
    (reached : state.router.inner = .after ops) (same : shared.tenants = state.router.inner)
    (c : AgentCall) :
    ∃ occasion : Occasion ρ, occasion.outcome = passage.outcome ∧
      let served := SharedRouter.serve client.tenant occasion shared c
      served.1 = (client.serve passage state c).1 ∧
        served.2.tenants = (client.serve passage state c).2.router.inner := by
  let occasion : Occasion ρ :=
    { reaches := false
      answers := false
      outcome := passage.outcome
      latencyMs := passage.latencyMs
      now := passage.env.resultAt }
  cases c with
  | invoke node => exact ⟨occasion, rfl, rfl, same⟩
  | route start goal =>
      have asked : ∃ reaches returns,
          let occasion := { occasion with reaches := reaches, answers := returns }
          let served := SharedRouter.serve client.tenant occasion shared (.route start goal)
          let asked := AppState.ask passage.env state passage.durationUs
            (client.routeRequest start goal) RouteResponse.ofFields
          served.1 = asked.1 ∧ served.2.tenants = asked.2.router.inner := by
        cases sends : client.headers with
        | none =>
            have unsent := AppState.ask_of_unsent passage.env state passage.durationUs client sends
            refine ⟨false, false, ?_⟩
            rw [TrustRouterClient.routeRequest, unsent]
            exact ⟨rfl, same⟩
        | some headers =>
            rw [AppState.ask_routeRequest passage.env state passage.durationUs client reached sends]
            exact AppState.serve_of_handle_route toText passage.env headers state occasion same
              ⟨client.tenant, start, goal⟩
      obtain ⟨reaches, returns, answers, left⟩ := asked
      obtain ⟨reaches, returns, both⟩ := exists_request_eq_transmit same passage answers left
      exact ⟨_, rfl, both⟩
  | reportResult node success =>
      have asked : ∃ reaches returns,
          let occasion := { occasion with reaches := reaches, answers := returns }
          let served := SharedRouter.serve client.tenant occasion shared
            (.reportResult node success)
          let asked := AppState.ask passage.env state passage.durationUs
            (client.reportResultRequest node success passage.latencyMs) readReport
          served.1 = asked.1 ∧ served.2.tenants = asked.2.router.inner := by
        cases sends : client.headers with
        | none =>
            have unsent := AppState.ask_of_unsent passage.env state passage.durationUs client sends
            refine ⟨false, false, ?_⟩
            rw [TrustRouterClient.reportResultRequest, unsent]
            exact ⟨rfl, same⟩
        | some headers =>
            rw [AppState.ask_reportResultRequest passage.env state passage.durationUs client sends
              node success fits]
            exact AppState.serve_of_handle_result toText passage.env headers state occasion same
              ⟨client.tenant, node, success, passage.latencyMs⟩
      obtain ⟨reaches, returns, answers, left⟩ := asked
      obtain ⟨reaches, returns, both⟩ := exists_request_eq_transmit same passage answers left
      exact ⟨_, rfl, both⟩

/-- Two runs agree on the calls that have been made, on their answers, and on the router. -/
structure Agree (onWire : WireAgents ρ) (agents : Agents ρ) : Prop where
  rest : agents.rest = onWire.rest
  log : agents.log = onWire.log
  tenants : agents.state.tenants = onWire.state.router.inner

variable {tenantId : TenantId}

omit [HeaderText] [SerdeJson] [JsonReader] [Axum] in
theorem run_operate (tenantId : TenantId) (agents : Agents ρ) (ops : List Op) :
    let later := run (Agents.step tenantId) agents (ops.map .operate)
    later.rest = agents.rest ∧ later.log = agents.log ∧
      later.state.tenants = run RouterState.step agents.state.tenants ops := by
  induction ops generalizing agents with
  | nil => exact ⟨rfl, rfl, rfl⟩
  | cons op ops ih => exact ih (agents.step tenantId (.operate op))

omit [HeaderText] [SerdeJson] [JsonReader] [Axum] in
/-- The router of some agents has come to its state by operations. -/
theorem exists_after_run (tenantId : TenantId) (setup : List Op)
    (programs : List (Program (agentInterface ρ) Unit)) (actions : List (AgentAction ρ)) :
    ∃ ops, (run (Agents.step tenantId) (Agents.start setup programs) actions).state.tenants =
      .after ops := by
  induction actions using List.reverseRecOn with
  | nil => exact ⟨setup, rfl⟩
  | append_singleton actions action ih =>
      rw [run_concat]
      rcases Agents.state_step tenantId (run (Agents.step tenantId) (Agents.start setup programs)
        actions) action with same | ⟨op, performed⟩
      · rwa [same]
      · rw [performed]
        exact SharedRouter.exists_after_perform ih op

omit [Rounding] [HeaderText] [SerdeJson] [JsonReader] [Axum] in
theorem ApiCall.Does.spares {env : RequestEnvironment} {headers : HeaderMap} {call : ApiCall}
    {op : Op} (does : call.Does env op) {node : NodeId}
    (spares : (.arrive (.request env headers call) : WireAction ρ).Spares tenantId node) :
    op.spares tenantId node = true := by
  cases call with
  | result query =>
      obtain rfl := does
      have apart : ¬ (query.tenant = tenantId ∧ query.node = node) := spares
      simpa [Op.spares] using not_and_or.mp apart
  | forceHalfOpen query =>
      obtain rfl := does
      rfl
  | route | plan | batch => cases op <;> first | rfl | cases does
  | metrics => cases op <;> cases does

variable {clients : ClientId → TrustRouterClient}

/-- **One step** is some steps without a wire. -/
theorem Agree.exists_run_eq {onWire : WireAgents ρ} {agents : Agents ρ}
    (agree : Agree onWire agents) (sameTenant : ∀ client, (clients client).tenant = tenantId)
    {ops : List Op} (reached : agents.state.tenants = .after ops) {action : WireAction ρ}
    (fits : action.Fits) :
    ∃ actions : List (AgentAction ρ),
      Agree (onWire.step clients action) (run (Agents.step tenantId) agents actions) ∧
        ∀ node, action.Spares tenantId node →
          ∀ action' ∈ actions, action'.Spares tenantId node := by
  cases action with
  | agent client passage =>
      cases left : onWire.rest client with
      | done result =>
          refine ⟨[], ?_, fun _ _ => List.forall_mem_nil _⟩
          rw [WireAgents.step, Clients.step_of_done left]
          exact agree
      | call c next =>
          obtain ⟨occasion, outcome, answered, tenants⟩ := exists_serve_eq (clients client) fits
            (agree.tenants.symm.trans reached) agree.tenants c
          rw [sameTenant client] at answered tenants
          have left' : agents.rest client = call c next := by rw [agree.rest, left]
          refine ⟨[.agent client occasion], ?_, fun node spares => ?_⟩
          · show Agree (onWire.step clients (.agent client passage))
              (agents.step tenantId (.agent client occasion))
            rw [WireAgents.step, Agents.step, Clients.step_of_call left, Clients.step_of_call left',
              answered, agree.rest, agree.log]
            exact ⟨rfl, rfl, tenants⟩
          · exact List.forall_mem_singleton.mpr ((congrFun outcome node).trans spares)
  | arrive arrival =>
      cases arrival with
      | operation op =>
          refine ⟨[.operate op], ⟨agree.rest, agree.log, ?_⟩, fun node spares =>
            List.forall_mem_singleton.mpr spares⟩
          exact congrArg (RouterState.step · op) agree.tenants
      | request env headers call =>
          obtain ⟨ops, does, left⟩ :=
            AppState.exists_ops_handle toText env headers call onWire.state
          obtain ⟨rest, log, tenants⟩ := run_operate tenantId agents ops
          refine ⟨ops.map .operate, ⟨rest.trans agree.rest, log.trans agree.log, ?_⟩,
            fun node spares => ?_⟩
          · rw [tenants, agree.tenants]
            exact left.symm
          · refine List.forall_mem_map.mpr fun op mem => ?_
            exact (does op mem).spares spares

/-- **Agents over the wire are agents.**  Whatever the agents of a tenant have done by their
clients, and others by requests and operations of their own, the agents have made the same calls,
been given the same answers and left the same router in a run without a wire.  There a tool still
fails whenever it is called, and others still spare it, if they do so here. -/
theorem exists_agents_run (sameTenant : ∀ client, (clients client).tenant = tenantId)
    {state : AppState} {setup : List Op} (reached : state.router.inner = .after setup)
    (programs : List (Program (agentInterface ρ) Unit)) {actions : List (WireAction ρ)}
    (fits : ∀ action ∈ actions, action.Fits) :
    ∃ actions' : List (AgentAction ρ),
      Agree (run (WireAgents.step clients) (WireAgents.start state programs) actions)
        (run (Agents.step tenantId) (Agents.start setup programs) actions') ∧
      ∀ node, (∀ action ∈ actions, action.Spares tenantId node) →
        ∀ action ∈ actions', action.Spares tenantId node := by
  induction actions using List.reverseRecOn with
  | nil => exact ⟨[], ⟨rfl, rfl, reached.symm⟩, fun _ _ => List.forall_mem_nil _⟩
  | append_singleton actions action ih =>
      obtain ⟨before, last⟩ := List.forall_mem_append.mp fits
      obtain ⟨actions', agree, spare⟩ := ih before
      obtain ⟨ops, after⟩ := exists_after_run tenantId setup programs actions'
      obtain ⟨more, agree', spare'⟩ := agree.exists_run_eq sameTenant after (last action (.head _))
      refine ⟨actions' ++ more, ?_, fun node spares => ?_⟩
      · rwa [run_concat, run_append]
      · obtain ⟨earlier, own⟩ := List.forall_mem_append.mp spares
        exact List.forall_mem_append.mpr ⟨spare node earlier, spare' node (own action (.head _))⟩

omit [Rounding] [HeaderText] [SerdeJson] [JsonReader] [Axum] in
/-- Two agents whose tool fails.  The first calls it, reports, and is given the route once more, but
loses the response.  The key of the second cannot be sent.  Somebody else asks for a plan. -/
theorem exists_agents_run_of_two_agents :
    letI := Rounding.exact
    letI := HeaderText.visibleAscii
    letI := UrlEncoded.Utf8Lossy.strict
    let _ := Axum.formUrlEncoded
    let _ := SerdeJson.ofTable sampleNumbers
    let _ := JsonReader.ofTable sampleNumbers
    let setup : List Op := [.addEdge "acme" (Edge.new "a" "b"), .addEdge "acme" (Edge.new "b" "c")]
    let state : AppState := { AppState.sample with
      router := run Router.step AppState.sample.router setup }
    let clients : ClientId → TrustRouterClient := fun client =>
      if client = 0 then ⟨"acme", "key", .requests⟩ else ⟨"acme", "ключ", .fetch⟩
    let passage : Passage Unit :=
      { reaches := true, returns := true, env := default, durationUs := 0, outcome := fun _ => none,
        latencyMs := 250 }
    let jobs : List Job := List.replicate 2 (.run (fun _ => true) "a" "c")
    let actions : List (WireAction Unit) :=
      [.agent 0 passage, .agent 1 passage, .agent 0 passage,
        .arrive (.request default [("x-api-key", asBytes "key")] (.plan ⟨"acme", "a", "b"⟩)),
        .agent 0 passage, .agent 0 { passage with returns := false }]
    let onWire := run (WireAgents.step clients)
      (WireAgents.start state [Job.inTurn jobs, Job.inTurn jobs]) actions
    (onWire.log.length = 5 ∧ onWire.log.countP (fun entry => Agents.invokes "b" entry.2) = 1) ∧
      ∃ actions', Agree onWire (run (Agents.step "acme")
          (Agents.start setup [Job.inTurn jobs, Job.inTurn jobs]) actions') ∧
        ∀ action ∈ actions', action.Spares "acme" "b" := by
  let _ := Rounding.exact
  let _ := HeaderText.visibleAscii
  let _ := UrlEncoded.Utf8Lossy.strict
  intro _ _ _ setup state clients passage jobs actions onWire
  have sameTenant : ∀ client, (clients client).tenant = "acme" := by
    intro client
    simp only [clients]
    split_ifs <;> rfl
  have reached : state.router.inner = .after setup := rfl
  have fits : ∀ action ∈ actions, action.Fits := by
    simp only [actions, List.forall_mem_cons, List.not_mem_nil, false_imp_iff, implies_true,
      WireAction.Fits, passage]
    decide
  obtain ⟨actions', agree, spare⟩ := exists_agents_run sameTenant reached
    [Job.inTurn jobs, Job.inTurn jobs] fits
  refine ⟨⟨by decide +kernel, by decide +kernel⟩, actions', agree, spare "b" ?_⟩
  simp only [actions, List.forall_mem_cons, List.not_mem_nil, false_imp_iff, implies_true]
  exact ⟨rfl, rfl, rfl, trivial, rfl, rfl, trivial⟩

end Run

end TrustRouter
