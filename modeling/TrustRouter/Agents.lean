import TrustRouter.EdgeValidity
import TrustRouter.HandlersAlone
import TrustRouter.HealthRuns
import TrustRouter.Prelude.Program
import TrustRouter.Recoverability
import TrustRouter.RouteCache

/-!
# Agents

The agents of the Python SDK: `RoutedToolExecutor.run` and `McpToolInterceptor.call_tool` ask the
sidecar for a route, call the tools on it one after the other, and report what has become of each.
Many agents may do so side by side, one job after another, while others use the router as well.

A request may go wrong on its way to the sidecar or on its way back, or be refused, and then the
agent finds an exception where it expects an answer.  Of what the handlers do by themselves this
leaves nothing out (`serve_of_handle_route`, `serve_of_handle_result`).

A tool that fails whenever it is called is soon left alone.  A route that is asked for while its
circuit is `Open` does not lead through it (`notOpen_of_route`), and an agent does not call what is
not on its route, nor what it has seen fail (`Heeds`).  So the number of calls of the tool, by all
agents together, is bounded by the open threshold, the number of agents and the number of times
that its circuit has been moved to half-open (`invocations_le`).
-/

namespace TrustRouter

open Program

/-! ## The SDK -/

inductive AgentCall where
  | route (start goal : NodeId)
  | invoke (node : NodeId)
  | reportResult (node : NodeId) (success : Bool)

/-- The exception that ends a run. -/
inductive AgentError where
  | escalation
  | request
  | tool

/-- What an agent gets back: what the client of the sidecar returns or raises, and what a tool
returns, if it does not raise. -/
def AgentCall.Answer (ρ : Type) : AgentCall → Type
  | route _ _ => Except AgentError RouteResponse
  | invoke _ => Option ρ
  | reportResult _ _ => Except AgentError Unit

abbrev agentInterface (ρ : Type) : Interface := ⟨AgentCall, AgentCall.Answer ρ⟩

/-- Something an agent does, which may raise. -/
abbrev Agent (ρ α : Type) := Program (agentInterface ρ) (Except AgentError α)

namespace RoutedToolExecutor

variable {ρ : Type} (tools : NodeId → Bool) (goal : NodeId)

/-- A failure is reported, and raised. -/
def fail {α : Type} (node : NodeId) (error : AgentError) : Agent ρ α :=
  call (I := agentInterface ρ) (.reportResult node false) fun
    | .ok _ => done (.error error)
    | .error error => done (.error error)

/-- The loop over the nodes of a path.  Where the report of a success raises, a failure is
reported. -/
def callTools : List NodeId → List (NodeId × ρ) → Agent ρ (List (NodeId × ρ))
  | [], outputs => done (.ok outputs)
  | node :: rest, outputs =>
      if node = goal ∨ tools node = false then callTools rest outputs
      else call (I := agentInterface ρ) (.invoke node) fun
        | some result => call (I := agentInterface ρ) (.reportResult node true) fun
            | .ok _ => callTools rest (outputs ++ [(node, result)])
            | .error error => fail node error
        | none => fail node .tool

/-- `RoutedToolExecutor.run`, with the names of its tools. -/
def run (start : NodeId) : Agent ρ (List (NodeId × ρ)) :=
  call (I := agentInterface ρ) (.route start goal) fun
    | .ok (.routed path _ _) => callTools tools goal path.tail []
    | .ok (.escalate _ _) => done (.error .escalation)
    | .error error => done (.error error)

end RoutedToolExecutor

/-- `McpToolInterceptor.call_tool`: every node is a tool of the session. -/
def McpToolInterceptor.callTool {ρ : Type} (start goal : NodeId) : Agent ρ (List ρ) :=
  (RoutedToolExecutor.run (fun _ => true) goal start).bind fun results =>
    done (results.map fun outputs => outputs.map Prod.snd)

/-- A job of an agent. -/
inductive Job where
  | run (tools : NodeId → Bool) (start goal : NodeId)
  | callTool (start goal : NodeId)

/-- An agent does its jobs in turn, whatever becomes of them. -/
def Job.inTurn {ρ : Type} : List Job → Program (agentInterface ρ) Unit
  | [] => done ()
  | .run tools start goal :: jobs =>
      (RoutedToolExecutor.run tools goal start).bind fun _ => inTurn jobs
  | .callTool start goal :: jobs =>
      (McpToolInterceptor.callTool start goal).bind fun _ => inTurn jobs

/-! ## Side by side -/

/-- The router that agents and others share, and the events it has pushed since. -/
structure SharedRouter where
  tenants : RouterState
  trail : List AuditEvent

/-- What a call of an agent meets. -/
structure Occasion (ρ : Type) where
  /-- The request gets to the router. -/
  reaches : Bool
  /-- The response gets back, and is not an error. -/
  answers : Bool
  /-- What each tool would give. -/
  outcome : NodeId → Option ρ
  latencyMs : ℕ
  now : Instant

namespace SharedRouter

variable [Rounding] {ρ : Type}

def perform (shared : SharedRouter) (op : Op) : SharedRouter where
  tenants := shared.tenants.step op
  trail := shared.trail ++ (shared.tenants.perform op).pushed

/-- What becomes of a request for an operation of the router. -/
def request {α : Type} (shared : SharedRouter) (occasion : Occasion ρ) (op : Op) (answer : α) :
    Except AgentError α × SharedRouter :=
  (if occasion.reaches && occasion.answers then .ok answer else .error .request,
    if occasion.reaches then shared.perform op else shared)

/-- What an agent of a tenant finds. -/
def serve (tenantId : TenantId) (occasion : Occasion ρ) : Server (agentInterface ρ) SharedRouter
  | shared, .route start goal => shared.request occasion (.route tenantId start goal)
      (.fromDecision (shared.tenants.route tenantId start goal).answer)
  | shared, .invoke node => (occasion.outcome node, shared)
  | shared, .reportResult node success => shared.request occasion
      (.recordResult tenantId node success occasion.latencyMs occasion.now) ()

end SharedRouter

/-- An agent makes its next call, or somebody else uses the router. -/
inductive AgentAction (ρ : Type) where
  | agent (client : ClientId) (occasion : Occasion ρ)
  | operate (op : Op)

/-- The tool fails whenever it is called, and others neither report on it nor set the policy by
which it is judged. -/
def AgentAction.Spares {ρ : Type} (tenantId : TenantId) (node : NodeId) : AgentAction ρ → Prop
  | .agent _ occasion => occasion.outcome node = none
  | .operate op => op.spares tenantId node = true

abbrev Agents (ρ : Type) := Clients (agentInterface ρ) SharedRouter Unit

namespace Agents

variable [Rounding] {ρ : Type} (tenantId : TenantId)

def step (agents : Agents ρ) : AgentAction ρ → Agents ρ
  | .agent client occasion =>
      Clients.step (fun _ => SharedRouter.serve tenantId occasion) agents client
  | .operate op => { agents with state := agents.state.perform op }

/-- Some programs, before anyone has made a call, on a router that has been set up. -/
def start (setup : List Op) (programs : List (Program (agentInterface ρ) Unit)) : Agents ρ :=
  Clients.start ⟨.after setup, []⟩ fun client => programs.getD client (done ())

end Agents

/-! ## The handlers -/

section Handlers

variable [Rounding] [HeaderText]

/-- What the client of the SDK returns or raises for a response. -/
def HttpResponse.clientRoute (response : HttpResponse) : Except AgentError RouteResponse :=
  match response.status, response.body with
  | 200, .route response => .ok response
  | _, _ => .error .request

def HttpResponse.clientReportResult (response : HttpResponse) : Except AgentError Unit :=
  match response.status, response.body with
  | 200, .ok _ => .ok ()
  | _, _ => .error .request

omit [Rounding] [HeaderText] in
/-- No error is mistaken for an answer. -/
theorem SidecarError.client_intoResponse (error : SidecarError) (requestId : String) :
    (error.intoResponse requestId).clientRoute = .error .request ∧
      (error.intoResponse requestId).clientReportResult = .error .request := by
  cases error <;> exact ⟨rfl, rfl⟩

namespace AppState

variable (render : Json → String) (env : RequestEnvironment) (headers : HeaderMap)
variable (state : AppState)

/-- **What an agent finds is what the sidecar does** with its request for a route, if nobody else
is served. -/
theorem serve_of_handle_route {ρ : Type} (occasion : Occasion ρ) {shared : SharedRouter}
    (same : shared.tenants = state.router.inner) (query : RouteQuery) :
    ∃ reaches answers,
      let handled := handle render env headers (.route query) state
      let served := SharedRouter.serve query.tenant
        { occasion with reaches := reaches, answers := answers } shared
        (.route query.start query.goal)
      served.1 = handled.1.clientRoute ∧ served.2.tenants = handled.2.router.inner := by
  let counted : AppState := { state with nextRequestId := state.nextRequestId + 1 }
  have shown : serve render env headers (.route query) counted =
      (Body.route <$> routeHandler render headers env query) counted := rfl
  rcases handler_cases env headers counted query.validate query.tenant
      (handleRoute render env query) with
    ⟨error, failed, fails, untouched⟩ | ⟨ready, untouched, rest⟩
  · have fails : routeHandler render headers env query counted = (.error error, failed) := fails
    rw [map_eq_pure_bind, App.bind_of_error fails] at shown
    refine ⟨false, false, ?_⟩
    rw [handle_of_error render env headers state shown]
    exact ⟨(error.client_intoResponse _).1.symm, same.trans (congrArg Router.inner untouched.symm)⟩
  · have rest : routeHandler render headers env query counted =
        handleRoute render env query ready := rest
    have inner : ready.router.inner = shared.tenants := by rw [untouched, same]
    rcases handleRoute_cases render env ready query with ⟨error, failed, fails, router⟩ |
      ⟨done, succeeds, router⟩
    · rw [map_eq_pure_bind, App.bind_of_error (rest.trans fails)] at shown
      refine ⟨true, false, ?_⟩
      rw [handle_of_error render env headers state shown]
      refine ⟨(error.client_intoResponse _).1.symm, ?_⟩
      rw [router]
      show shared.tenants.step _ = ready.router.inner.step _
      rw [inner]
    · rw [App.map_of_ok (rest.trans succeeds)] at shown
      refine ⟨true, true, ?_⟩
      rw [handle_of_ok render env headers state shown]
      constructor
      · show Except.ok (RouteResponse.fromDecision (shared.tenants.route _ _ _).answer) = _
        rw [← inner]
        rfl
      · rw [router]
        show shared.tenants.step _ = ready.router.inner.step _
        rw [inner]

/-- The same of a report. -/
theorem serve_of_handle_result {ρ : Type} (occasion : Occasion ρ) {shared : SharedRouter}
    (same : shared.tenants = state.router.inner) (query : ResultQuery) :
    ∃ reaches answers,
      let handled := handle render env headers (.result query) state
      let served := SharedRouter.serve query.tenant
        { occasion with
          reaches := reaches
          answers := answers
          latencyMs := query.latencyMs
          now := env.resultAt } shared (.reportResult query.node query.success)
      served.1 = handled.1.clientReportResult ∧ served.2.tenants = handled.2.router.inner := by
  let counted : AppState := { state with nextRequestId := state.nextRequestId + 1 }
  have shown : serve render env headers (.result query) counted =
      ((fun _ => Body.ok true) <$> resultHandler headers env query) counted := rfl
  let record : App Unit := modify fun state => { state with
    router := state.router.step
      (.recordResult query.tenant query.node query.success query.latencyMs env.resultAt) }
  rcases handler_cases env headers counted query.validate query.tenant record with
    ⟨error, failed, fails, untouched⟩ | ⟨ready, untouched, rest⟩
  · have fails : resultHandler headers env query counted = (.error error, failed) := fails
    rw [map_eq_pure_bind, App.bind_of_error fails] at shown
    refine ⟨false, false, ?_⟩
    rw [handle_of_error render env headers state shown]
    exact ⟨(error.client_intoResponse _).2.symm, same.trans (congrArg Router.inner untouched.symm)⟩
  · have rest : resultHandler headers env query counted = record ready := rest
    have inner : ready.router.inner = shared.tenants := by rw [untouched, same]
    rw [App.map_of_ok (rest.trans rfl)] at shown
    refine ⟨true, true, ?_⟩
    rw [handle_of_ok render env headers state shown]
    refine ⟨rfl, ?_⟩
    show shared.tenants.step _ = ready.router.inner.step _
    rw [inner]

end AppState

end Handlers

/-! ## Agents that heed what they are told -/

section Heeds

variable {ρ α β : Type} (node : NodeId)

/-- The program may still call the tool, or report on it, before it asks for a route. -/
def Holds : Program (agentInterface ρ) α → Prop
  | done _ => False
  | call (.route _ _) _ => False
  | call (.invoke node') next => node' = node ∨ ∃ answer, Holds (next answer)
  | call (.reportResult node' _) next => node' = node ∨ ∃ answer, Holds (next answer)

/-- The nodes that a route tells an agent to call. -/
def toCall : Except AgentError RouteResponse → List NodeId
  | .ok (.routed path _ _) => path.tail
  | _ => []

/-- The program only calls a tool that is on the route it has been given last, reports the failure
of the tool at once, and does not call it again without asking for a route. -/
def Heeds : Program (agentInterface ρ) α → Prop
  | done _ => True
  | call (.route _ _) next =>
      ∀ answer, Heeds (next answer) ∧ (Holds node (next answer) → node ∈ toCall answer)
  | call (.invoke node') next =>
      if node' = node then
        Heeds (next none) ∧ (next none).head = some (.reportResult node false)
      else ∀ answer, Heeds (next answer)
  | call (.reportResult node' success) next =>
      (∀ answer, Heeds (next answer)) ∧
        (node' = node → success = false ∧ ∀ answer, ¬ Holds node (next answer))

variable {node} {program : Program (agentInterface ρ) α} {f : α → Program (agentInterface ρ) β}

theorem holds_bind (never : ∀ result, ¬ Holds node (f result))
    (holds : Holds node (program.bind f)) : Holds node program := by
  induction program with
  | done result => exact absurd holds (never result)
  | call c next ih =>
      cases c with
      | route start goal => exact holds
      | invoke node' => exact holds.imp_right fun ⟨answer, later⟩ => ⟨answer, ih answer later⟩
      | reportResult node' success =>
          exact holds.imp_right fun ⟨answer, later⟩ => ⟨answer, ih answer later⟩

theorem head_bind {c : AgentCall} (head : program.head = some c) :
    (program.bind f).head = some c := by
  obtain ⟨next, rfl⟩ := head_eq_some.mp head
  rfl

theorem Heeds.bind (heeds : Heeds node program) (rest : ∀ result, Heeds node (f result))
    (never : ∀ result, ¬ Holds node (f result)) : Heeds node (program.bind f) := by
  induction program with
  | done result => exact rest result
  | call c next ih =>
      cases c with
      | route start goal =>
          exact fun answer => ⟨ih answer (heeds answer).1, fun holds =>
            (heeds answer).2 (holds_bind never holds)⟩
      | invoke node' =>
          unfold Heeds at heeds ⊢
          simp only [call_bind]
          split_ifs at heeds ⊢ with same
          · exact ⟨ih none heeds.1, head_bind heeds.2⟩
          · exact fun answer => ih answer (heeds answer)
      | reportResult node' success =>
          exact ⟨fun answer => ih answer (heeds.1 answer), fun same =>
            ⟨(heeds.2 same).1, fun answer holds =>
              (heeds.2 same).2 answer (holds_bind never holds)⟩⟩

/-! ### The agents of the SDK -/

section

open RoutedToolExecutor

variable {tools : NodeId → Bool} {goal : NodeId} {path : List NodeId}

theorem heeds_fail (node' : NodeId) (error : AgentError) :
    Heeds node (fail node' error : Agent ρ α) := by
  constructor
  · intro answer
    cases answer <;> exact trivial
  · refine fun _ => ⟨rfl, fun answer => ?_⟩
    cases answer <;> exact id

theorem holds_fail {node' : NodeId} {error : AgentError}
    (holds : Holds node (fail node' error : Agent ρ α)) : node' = node := by
  refine holds.resolve_right ?_
  rintro ⟨answer, later⟩
  cases answer <;> cases later

/-- Only what is on the path is called. -/
theorem holds_callTools {outputs : List (NodeId × ρ)}
    (holds : Holds node (callTools tools goal path outputs)) : node ∈ path := by
  induction path generalizing outputs with
  | nil => cases holds
  | cons first rest ih =>
      rw [callTools] at holds
      split_ifs at holds with skipped
      · exact List.mem_cons_of_mem _ (ih holds)
      rcases holds with rfl | ⟨outcome, holds⟩
      · exact List.mem_cons_self
      cases outcome with
      | none =>
          obtain rfl := holds_fail holds
          exact List.mem_cons_self
      | some result =>
          rcases holds with rfl | ⟨answer, holds⟩
          · exact List.mem_cons_self
          cases answer with
          | ok _ => exact List.mem_cons_of_mem _ (ih holds)
          | error error =>
              obtain rfl := holds_fail holds
              exact List.mem_cons_self

theorem heeds_callTools (path : List NodeId) (outputs : List (NodeId × ρ)) :
    Heeds node (callTools tools goal path outputs) := by
  induction path generalizing outputs with
  | nil => exact trivial
  | cons first rest ih =>
      rw [callTools]
      split_ifs with skipped
      · exact ih outputs
      unfold Heeds
      split_ifs with same
      · subst same
        exact ⟨heeds_fail first .tool, rfl⟩
      · intro outcome
        cases outcome with
        | none => exact heeds_fail first .tool
        | some result =>
            refine ⟨fun answer => ?_, fun same' => absurd same' same⟩
            cases answer with
            | ok _ => exact ih _
            | error error => exact heeds_fail first error

theorem heeds_run (start : NodeId) :
    Heeds node (RoutedToolExecutor.run tools goal start : Agent ρ _) := by
  intro answer
  cases answer with
  | error error => exact ⟨trivial, False.elim⟩
  | ok response =>
      cases response with
      | escalate reason blocked => exact ⟨trivial, False.elim⟩
      | routed path totalCost cacheHit => exact ⟨heeds_callTools _ _, holds_callTools⟩

theorem heeds_callTool (start : NodeId) :
    Heeds node (McpToolInterceptor.callTool start goal : Agent ρ _) :=
  (heeds_run start).bind (fun _ => trivial) fun _ => id

/-- An agent that takes up a job asks for a route. -/
theorem not_holds_inTurn (jobs : List Job) :
    ¬ Holds node (Job.inTurn jobs : Program (agentInterface ρ) Unit) := by
  cases jobs with
  | nil => exact id
  | cons job jobs => cases job <;> exact id

/-- **The agents of the SDK heed what they are told.** -/
theorem heeds_inTurn (jobs : List Job) :
    Heeds node (Job.inTurn jobs : Program (agentInterface ρ) Unit) := by
  induction jobs with
  | nil => exact trivial
  | cons job jobs ih =>
      cases job with
      | run tools start goal =>
          exact (heeds_run start).bind (fun _ => ih) fun _ => not_holds_inTurn jobs
      | callTool start goal =>
          exact (heeds_callTool start).bind (fun _ => ih) fun _ => not_holds_inTurn jobs

end

end Heeds

/-! ## What the router does -/

namespace RouterState

variable [Rounding] {state : RouterState} {tenantId : TenantId} {node : NodeId}

omit [Rounding] in
/-- No node of the tenant has the index that the search keeps for itself. -/
def InIdSpace (state : RouterState) (tenantId : TenantId) : Prop :=
  (state.tenants.getOrDefault tenantId).graph.idToNode.length ≤ u32Max

theorem InIdSpace.of_step {op : Op} (small : (state.step op).InIdSpace tenantId) :
    state.InIdSpace tenantId := by
  rcases state.getOrDefault_step op tenantId with same | ⟨-, applied⟩
  · rwa [InIdSpace, same] at small
  · rw [InIdSpace, applied] at small
    refine le_trans ?_ small
    rcases (state.tenants.getOrDefault tenantId).graph_apply op with ⟨_, edge, -, grown⟩ | same
    · rw [grown]
      exact (ToolGraph.idToNode_prefix_addEdge _ edge).length_le
    · rw [same]

/-- **A route does not lead through a node whose circuit is `Open`.** -/
theorem notOpen_of_route (ops : List Op) (small : (after ops).InIdSpace tenantId)
    {start goal : NodeId} {route : Route}
    (answered : ((after ops).route tenantId start goal).answer = .routed route)
    (on : node ∈ route.nodes.tail) : (after ops).nodeState tenantId node ≠ some .open := by
  cases found : (after ops).tenants.lookup tenantId with
  | none => simp [nodeState, found]
  | some tenant =>
      have place : (after ops).tenants.getOrDefault tenantId = tenant := by
        rw [HashMap.getOrDefault, found, Option.getD_some]
      rw [InIdSpace, place] at small
      obtain ⟨edges, feasible, nodes⟩ : ∃ edges : List Edge,
          (∀ edge ∈ edges, edge.Feasible tenant.health) ∧
            route.nodes = start :: edges.map Edge.to := by
        rw [route_answer _ found] at answered
        rcases tenant.route_cases ⟨start, goal⟩ with ⟨cached, hit, eq⟩ | ⟨route', -, computed, eq⟩ |
          ⟨-, -, eq⟩ <;> rw [eq] at answered <;> cases answered
        · obtain ⟨-, edges, -, feasible, path⟩ := cacheSound_after ops found small _ _ hit
          exact ⟨edges, feasible, path⟩
        · obtain ⟨edges, -, feasible, nodes, -⟩ :=
            ToolGraph.exists_chain_of_shortestPath small computed
          exact ⟨edges, feasible, nodes⟩
      rw [nodes, List.tail_cons] at on
      obtain ⟨edge, mem, rfl⟩ := List.mem_map.mp on
      rw [nodeState, found]
      exact (feasible edge mem).notOpen

/-- What an operation that spares a node does to it: nothing, except that it may move it from
`Open` to half-open, of which there is an event then. -/
theorem nodeState_step_of_spares {op : Op} (spares : op.spares tenantId node = true) :
    (state.step op).nodeState tenantId node = state.nodeState tenantId node ∨
      state.nodeState tenantId node = some .open ∧
        0 < (state.perform op).pushed.count (.recoveryProbeOpened tenantId node) := by
  have quiet (silent : ∀ event ∈ (state.perform op).pushed, event.report tenantId node = none) :
      (state.step op).nodeState tenantId node = state.nodeState tenantId node := by
    rw [nodeState_step, lastReport, List.filterMap_eq_nil_iff.mpr silent]
    rfl
  -- an operation that moves nodes and does nothing else
  have moving
      (moves : (∀ event ∈ (state.perform op).pushed, ∃ tenantId nodeId,
          event = .recoveryProbeOpened tenantId nodeId) ∧
        ∀ tenantId nodeId, (state.perform op).pushed.count (.recoveryProbeOpened tenantId nodeId) =
          if MovesToHalfOpen state (state.perform op).state tenantId nodeId then 1 else 0) :
      (state.step op).nodeState tenantId node = state.nodeState tenantId node ∨
        state.nodeState tenantId node = some .open ∧
          0 < (state.perform op).pushed.count (.recoveryProbeOpened tenantId node) := by
    by_cases moved : MovesToHalfOpen state (state.perform op).state tenantId node
    · exact Or.inr ⟨moved.1, by rw [moves.2, if_pos moved]; exact Nat.one_pos⟩
    · have never : AuditEvent.recoveryProbeOpened tenantId node ∉ (state.perform op).pushed :=
        List.count_eq_zero.mp (by rw [moves.2, if_neg moved])
      refine Or.inl (quiet fun event mem => ?_)
      obtain ⟨tenantId', node', rfl⟩ := moves.1 event mem
      exact if_neg fun same => never (by rwa [same.1, same.2] at mem)
  have accounts := accounted state op
  cases op with
  | forceHalfOpen tenantId' node' => exact moving accounts
  | runRecoveryProbeOnce cooldown now order => exact moving accounts
  | recordResult tenantId' node' success latencyMs now =>
      obtain ⟨nodeState, stateChanged, pushed⟩ := accounts
      refine Or.inl (quiet fun event mem => ?_)
      rw [pushed] at mem
      rw [List.mem_singleton.mp mem]
      exact if_neg fun same => by simp [Op.spares, same] at spares
  | route tenantId' start goal =>
      obtain ⟨decision, -, pushed⟩ := accounts
      refine Or.inl (quiet fun event mem => ?_)
      rw [pushed] at mem
      rw [List.mem_singleton.mp mem]
      cases decision <;> rfl
  | _ => exact Or.inl (quiet fun event mem => by rw [accounts] at mem; cases mem)

variable (state) in
/-- Neither the failures in a row nor the policy by which they are judged change. -/
theorem failures_step_of_spares {op : Op} (spares : op.spares tenantId node = true) :
    ((state.step op).trackerOf tenantId node).consecutiveFailures =
        (state.trackerOf tenantId node).consecutiveFailures ∧
      ((state.step op).tenants.getOrDefault tenantId).healthPolicy =
        (state.tenants.getOrDefault tenantId).healthPolicy := by
  rcases state.getOrDefault_step op tenantId with same | ⟨reaches, applied⟩
  · rw [trackerOf, trackerOf, same]
    exact ⟨rfl, rfl⟩
  rw [trackerOf, applied]
  constructor
  · rcases (state.tenants.getOrDefault tenantId).tracker_apply_cases op node with
      same | ⟨tenantId', _, _, _, rfl, -⟩ | ⟨-, moved⟩
    · rw [same, trackerOf]
    · obtain rfl : tenantId = tenantId' := (Op.reaches_iff rfl tenantId).mp reaches
      simp [Op.spares] at spares
    · rw [moved, trackerOf]
  · rcases (state.tenants.getOrDefault tenantId).healthPolicy_apply op with
      kept | ⟨tenantId', _, rfl, -, -⟩
    · exact kept
    · obtain rfl : tenantId = tenantId' := (Op.reaches_iff rfl tenantId).mp reaches
      simp [Op.spares] at spares

variable (state tenantId node) in
/-- What a failure does. -/
theorem tracker_step_of_failure (latencyMs : ℕ) (now : Instant) :
    let failed := state.step (.recordResult tenantId node false latencyMs now)
    let tracker := state.trackerOf tenantId node
    let policy := (state.tenants.getOrDefault tenantId).healthPolicy
    (failed.trackerOf tenantId node).consecutiveFailures = tracker.consecutiveFailures + 1 ∧
      (failed.trackerOf tenantId node).state =
        HealthTracker.failureState policy (tracker.consecutiveFailures + 1) tracker.state ∧
      (failed.tenants.getOrDefault tenantId).healthPolicy = policy := by
  intro failed tracker policy
  have recorded : failed.trackerOf tenantId node =
      tracker.step policy (.recordResult false latencyMs now) :=
    trackerOf_recordResult state tenantId node false latencyMs now
  refine ⟨?_, ?_, ?_⟩
  · rw [recorded, HealthTracker.step_failure_consecutiveFailures]
  · rw [recorded, HealthTracker.step_failure_state]
  · rcases state.getOrDefault_step (.recordResult tenantId node false latencyMs now) tenantId with
      same | ⟨-, applied⟩
    · exact congrArg TenantState.healthPolicy same
    · exact (congrArg TenantState.healthPolicy applied).trans
        (TenantState.recordResult_healthPolicy _ _ _ _)

end RouterState

/-! ## The books -/

section Books

variable [Rounding] {tenantId : TenantId} {node : NodeId}

/-- How often the node has been moved to half-open. -/
def SharedRouter.probes (shared : SharedRouter) (tenantId : TenantId) (node : NodeId) : ℕ :=
  shared.trail.count (.recoveryProbeOpened tenantId node)

/-- The books on a node of which only failures are reported.  As long as it is `Open`, as many
reports are still to come as there are clients that have a route with the node on it. -/
structure SharedRouter.Reckons (shared : SharedRouter) (tenantId : TenantId) (node : NodeId)
    (clients threshold failures due : ℕ) : Prop where
  reached : ∃ ops, shared.tenants = .after ops
  policy : (shared.tenants.tenants.getOrDefault tenantId).healthPolicy.openThreshold.toNat =
    threshold
  counted : (shared.tenants.trackerOf tenantId node).consecutiveFailures.toNat = failures
  closed : shared.tenants.nodeState tenantId node ≠ some .open →
    failures ≤ threshold - 1 + clients * shared.probes tenantId node
  opened : shared.tenants.nodeState tenantId node = some .open →
    threshold ≤ failures ∧
      failures + due ≤ threshold - 1 + clients * (1 + shared.probes tenantId node)

namespace SharedRouter

variable {shared : SharedRouter} {clients threshold failures due : ℕ}

variable (tenantId node) in
theorem probes_perform (shared : SharedRouter) (op : Op) :
    (shared.perform op).probes tenantId node = shared.probes tenantId node +
      (shared.tenants.perform op).pushed.count (.recoveryProbeOpened tenantId node) :=
  List.count_append

theorem exists_after_perform (reached : ∃ ops, shared.tenants = .after ops) (op : Op) :
    ∃ ops, (shared.perform op).tenants = .after ops := by
  obtain ⟨ops, eq⟩ := reached
  refine ⟨ops ++ [op], ?_⟩
  rw [RouterState.after, run_concat, ← RouterState.after, ← eq]
  rfl

/-- What spares the node leaves the books as they are. -/
theorem Reckons.of_spares (reckons : shared.Reckons tenantId node clients threshold failures due)
    {op : Op} (spares : op.spares tenantId node = true) :
    (shared.perform op).Reckons tenantId node clients threshold failures due := by
  obtain ⟨reached, policy, counted, closed, opened⟩ := reckons
  obtain ⟨kept, judged⟩ := RouterState.failures_step_of_spares shared.tenants spares
  have more := Nat.mul_le_mul_left clients
    (Nat.le.intro (probes_perform tenantId node shared op).symm)
  refine ⟨exists_after_perform reached op, judged ▸ policy, kept ▸ counted, fun isClosed => ?_,
    fun isOpen => ?_⟩
  · rcases RouterState.nodeState_step_of_spares spares with same | ⟨wasOpen, moved⟩
    · have wasClosed : shared.tenants.nodeState tenantId node ≠ some .open := same ▸ isClosed
      have := closed wasClosed
      omega
    · obtain ⟨-, bound⟩ := opened wasOpen
      have probed : 1 + shared.probes tenantId node ≤ (shared.perform op).probes tenantId node := by
        rw [probes_perform]
        omega
      have := Nat.mul_le_mul_left clients probed
      omega
  · have wasOpen : shared.tenants.nodeState tenantId node = some .open := by
      rcases RouterState.nodeState_step_of_spares spares with same | ⟨wasOpen, -⟩
      · exact same ▸ isOpen
      · exact wasOpen
    obtain ⟨enough, bound⟩ := opened wasOpen
    refine ⟨enough, ?_⟩
    rw [Nat.mul_add] at bound ⊢
    omega

/-- A failure that is recorded is one report less that is still to come.  If it opens the circuit,
every other client may have a route with the node on it. -/
theorem Reckons.of_failure (reckons : shared.Reckons tenantId node clients threshold failures due)
    (fits : threshold - 1 + clients * (1 + shared.probes tenantId node) < 2 ^ 32) {due' : ℕ}
    (others : shared.tenants.nodeState tenantId node ≠ some .open → due' + 1 ≤ clients)
    (fewer : shared.tenants.nodeState tenantId node = some .open → due' + 1 ≤ due)
    (latencyMs : ℕ) (now : Instant) :
    (shared.perform (.recordResult tenantId node false latencyMs now)).Reckons tenantId node clients
      threshold (failures + 1) due' := by
  obtain ⟨reached, policy, counted, closed, opened⟩ := reckons
  obtain ⟨counted', state', policy'⟩ := RouterState.tracker_step_of_failure
    shared.tenants tenantId node latencyMs now
  have same : (shared.perform (.recordResult tenantId node false latencyMs now)).probes tenantId
      node = shared.probes tenantId node := by
    obtain ⟨nodeState, stateChanged, pushed⟩ := RouterState.accounted shared.tenants
      (.recordResult tenantId node false latencyMs now)
    rw [probes_perform, pushed]
    rfl
  -- the counter does not wrap around
  have room : failures + 1 ≤ threshold - 1 + clients * (1 + shared.probes tenantId node) := by
    rw [Nat.mul_add]
    by_cases isOpen : shared.tenants.nodeState tenantId node = some .open
    · have := (opened isOpen).2
      have := fewer isOpen
      rw [Nat.mul_add] at *
      omega
    · have := closed isOpen
      have := others isOpen
      omega
  have next : ((shared.tenants.trackerOf tenantId node).consecutiveFailures + 1).toNat =
      failures + 1 := by
    rw [UInt32.toNat_add, counted, UInt32.toNat_one]
    exact Nat.mod_eq_of_lt (by omega)
  have below : (shared.tenants.trackerOf tenantId node).consecutiveFailures + 1 <
      (shared.tenants.tenants.getOrDefault tenantId).healthPolicy.openThreshold ↔
        failures + 1 < threshold := by
    rw [UInt32.lt_iff_toNat_lt, next, policy]
  have opens : (shared.perform (.recordResult tenantId node false latencyMs now)).tenants.nodeState
      tenantId node = some .open ↔
        HealthTracker.failureState (shared.tenants.tenants.getOrDefault tenantId).healthPolicy
          ((shared.tenants.trackerOf tenantId node).consecutiveFailures + 1)
          (shared.tenants.trackerOf tenantId node).state = .open := by
    rw [← state']
    exact RouterState.nodeState_eq_open_iff
  refine ⟨exists_after_perform reached _, ?_, ?_, fun isClosed => ?_, fun isOpen => ?_⟩
  · rw [← policy, ← policy']
    rfl
  · rw [← next, ← counted']
    rfl
  · rw [same]
    by_cases wasOpen : shared.tenants.nodeState tenantId node = some .open
    · -- a circuit that has been opened by as many failures as it takes stays `Open`
      have enough := (opened wasOpen).1
      rw [Ne, opens, RouterState.nodeState_eq_open_iff.mp wasOpen,
        HealthTracker.failureState_open_eq_open_iff, not_not, below] at isClosed
      omega
    · have wasClosed := fun isOpen => wasOpen (RouterState.nodeState_eq_open_iff.mpr isOpen)
      rw [Ne, opens, HealthTracker.failureState_eq_open_iff wasClosed, not_not, below] at isClosed
      omega
  · rw [same, Nat.mul_add]
    by_cases wasOpen : shared.tenants.nodeState tenantId node = some .open
    · obtain ⟨enough, bound⟩ := opened wasOpen
      have := fewer wasOpen
      rw [Nat.mul_add] at bound
      omega
    · have wasClosed := fun isOpen => wasOpen (RouterState.nodeState_eq_open_iff.mpr isOpen)
      rw [opens, HealthTracker.failureState_eq_open_iff wasClosed, below] at isOpen
      have := closed wasOpen
      have := others wasOpen
      omega

end SharedRouter

namespace Agents

variable {ρ : Type}

omit [Rounding] in
/-- The call is one of the tool. -/
def invokes (node : NodeId) : (agentInterface ρ).Event → Bool
  | ⟨.invoke node', _⟩ => node' = node
  | _ => false

omit [Rounding] in
/-- The call is a report on the tool, and has raised. -/
def losesReport (node : NodeId) : (agentInterface ρ).Event → Bool
  | ⟨.reportResult node' _, .error _⟩ => node' = node
  | _ => false

omit [Rounding] in
/-- How often the tool has been called. -/
def invocations (agents : Agents ρ) (node : NodeId) : ℕ :=
  agents.log.countP fun entry => invokes node entry.2

omit [Rounding] in
/-- How many reports on it have raised. -/
def lostReports (agents : Agents ρ) (node : NodeId) : ℕ :=
  agents.log.countP fun entry => losesReport node entry.2

/-- The books on the agents: those who may have a route with the node on it, as long as the node is
`Open`, and those who have called the tool and have not reported yet. -/
structure Accounts (agents : Agents ρ) (tenantId : TenantId) (node : NodeId)
    (clients threshold failures : ℕ) (holders owing : Finset ClientId) : Prop where
  reckons : agents.state.Reckons tenantId node clients threshold failures holders.card
  heeds : ∀ client, Heeds node (agents.rest client)
  idle : ∀ client, clients ≤ client → agents.rest client = done ()
  holds : agents.state.tenants.nodeState tenantId node = some .open →
    ∀ client, Holds node (agents.rest client) → client ∈ holders
  owes : ∀ client ∈ owing, (agents.rest client).head = some (.reportResult node false)
  invoked : agents.invocations node ≤ failures + agents.lostReports node + owing.card

variable {agents : Agents ρ} {clients threshold failures : ℕ} {holders owing : Finset ClientId}
variable {client : ClientId} {c : AgentCall}
variable {next : AgentCall.Answer ρ c → Program (agentInterface ρ) Unit}

omit [Rounding] in
theorem holds_of_head {program : Program (agentInterface ρ) Unit}
    (head : program.head = some (.reportResult node false)) : Holds node program := by
  obtain ⟨next, rfl⟩ := head_eq_some.mp head
  exact Or.inl rfl

/-- **The bound**, read off the books. -/
theorem Accounts.calls_le
    (accounts : agents.Accounts tenantId node clients threshold failures holders owing) :
    agents.invocations node ≤ threshold - 1 + clients * (1 + agents.state.probes tenantId node) +
      agents.lostReports node := by
  have invoked := accounts.invoked
  rw [Nat.mul_add]
  by_cases isOpen : agents.state.tenants.nodeState tenantId node = some .open
  · have owing_le : owing.card ≤ holders.card := Finset.card_le_card fun client mem =>
      accounts.holds isOpen client (holds_of_head (accounts.owes client mem))
    have bound := (accounts.reckons.opened isOpen).2
    rw [Nat.mul_add] at bound
    omega
  · have owing_le : owing.card ≤ (Finset.range clients).card := by
      refine Finset.card_le_card fun client mem => Finset.mem_range.mpr (not_le.mp fun idle => ?_)
      have head := accounts.owes client mem
      rw [accounts.idle client idle] at head
      cases head
    rw [Finset.card_range] at owing_le
    have bound := accounts.reckons.closed isOpen
    omega

/-- A client that makes a call is one of those there are. -/
theorem Accounts.lt
    (accounts : agents.Accounts tenantId node clients threshold failures holders owing)
    (left : agents.rest client = call (I := agentInterface ρ) c next) : client < clients := by
  by_contra idle
  cases left.symm.trans (accounts.idle client (not_lt.mp idle))

/-- What somebody else does. -/
theorem Accounts.operate
    (accounts : agents.Accounts tenantId node clients threshold failures holders owing) {op : Op}
    (spares : op.spares tenantId node = true) :
    Accounts { agents with state := agents.state.perform op } tenantId node clients threshold
      failures holders owing := by
  refine { accounts with reckons := accounts.reckons.of_spares spares, holds := fun isOpen => ?_ }
  rcases RouterState.nodeState_step_of_spares spares with same | ⟨wasOpen, -⟩
  · exact accounts.holds (same.symm.trans isOpen)
  · exact accounts.holds wasOpen

/-- A call that has nothing to do with the tool. -/
theorem Accounts.quiet
    (accounts : agents.Accounts tenantId node clients threshold failures holders owing)
    (left : agents.rest client = call (I := agentInterface ρ) c next) {answer : c.Answer ρ}
    (heeds : Heeds node (next answer))
    (holds : agents.state.tenants.nodeState tenantId node = some .open →
      Holds node (next answer) → client ∈ holders)
    (other : c ≠ .reportResult node false) (calls : invokes node ⟨c, answer⟩ = false)
    (loses : losesReport node ⟨c, answer⟩ = false) :
    Accounts { agents with
      rest := Function.update agents.rest client (next answer)
      log := agents.log ++ [(client, ⟨c, answer⟩)] } tenantId node clients threshold failures
        holders owing := by
  have here := accounts.lt left
  refine { accounts with
    heeds := fun client' => ?_
    idle := fun client' idle => ?_
    holds := fun isOpen client' holds' => ?_
    owes := fun client' mem => ?_
    invoked := ?_ }
  · by_cases same : client' = client
    · subst same
      simpa using heeds
    · simpa [same] using accounts.heeds client'
  · exact (Function.update_of_ne (here.trans_le idle).ne' _ _).trans (accounts.idle client' idle)
  · by_cases same : client' = client
    · subst same
      exact holds isOpen (by simpa using holds')
    · exact accounts.holds isOpen client' (by simpa [same] using holds')
  · have ne : client' ≠ client := by
      rintro rfl
      have head := accounts.owes client' mem
      rw [left] at head
      exact other (Option.some.inj head)
    simpa [ne] using accounts.owes client' mem
  · have invoked := accounts.invoked
    simpa [invocations, lostReports, calls, loses] using invoked

/-- The tool is called, and fails. -/
theorem Accounts.invoke {next : Option ρ → Program (agentInterface ρ) Unit}
    (accounts : agents.Accounts tenantId node clients threshold failures holders owing)
    (left : agents.rest client = call (I := agentInterface ρ) (.invoke node) next) :
    Accounts { agents with
      rest := Function.update agents.rest client (next none)
      log := agents.log ++ [(client, ⟨.invoke node, none⟩)] } tenantId node clients threshold
        failures holders (insert client owing) := by
  have here := accounts.lt left
  have heeds := accounts.heeds client
  rw [left] at heeds
  obtain ⟨heeds, head⟩ := (if_pos rfl).mp heeds
  have fresh : client ∉ owing := by
    intro mem
    have head' := accounts.owes client mem
    rw [left] at head'
    cases head'
  refine { accounts with
    heeds := fun client' => ?_
    idle := fun client' idle => ?_
    holds := fun isOpen client' holds' => ?_
    owes := fun client' mem => ?_
    invoked := ?_ }
  · by_cases same : client' = client
    · subst same
      simpa using heeds
    · simpa [same] using accounts.heeds client'
  · exact (Function.update_of_ne (here.trans_le idle).ne' _ _).trans (accounts.idle client' idle)
  · by_cases same : client' = client
    · subst same
      refine accounts.holds isOpen client' ?_
      rw [left]
      exact Or.inl rfl
    · exact accounts.holds isOpen client' (by simpa [same] using holds')
  · by_cases same : client' = client
    · subst same
      simpa using head
    · simpa [same] using accounts.owes client' ((Finset.mem_insert.mp mem).resolve_left same)
  · have invoked := accounts.invoked
    rw [Finset.card_insert_of_notMem fresh]
    simp only [invocations, lostReports, List.countP_append, List.countP_singleton, invokes,
      losesReport] at invoked ⊢
    simp
    omega

/-- A failure of the tool is reported, and recorded or lost or both. -/
theorem Accounts.report {next : Except AgentError Unit → Program (agentInterface ρ) Unit}
    (accounts : agents.Accounts tenantId node clients threshold failures holders owing)
    (left : agents.rest client = call (I := agentInterface ρ) (.reportResult node false) next)
    {answer : Except AgentError Unit} {shared : SharedRouter} {failures' : ℕ}
    {holders' : Finset ClientId}
    (reckons : shared.Reckons tenantId node clients threshold failures' holders'.card)
    (holds : shared.tenants.nodeState tenantId node = some .open → ∀ other, other ≠ client →
      Holds node (agents.rest other) → other ∈ holders')
    (told : failures + 1 ≤
      failures' + if losesReport (ρ := ρ) node ⟨.reportResult node false, answer⟩ then 1 else 0) :
    Accounts
      { state := shared
        rest := Function.update agents.rest client (next answer)
        log := agents.log ++ [(client, ⟨.reportResult node false, answer⟩)] } tenantId node clients
        threshold failures' holders' (owing.erase client) := by
  have here := accounts.lt left
  have heeds := accounts.heeds client
  rw [left] at heeds
  refine ⟨reckons, fun client' => ?_, fun client' idle => ?_, fun isOpen client' holds' => ?_,
    fun client' mem => ?_, ?_⟩
  · by_cases same : client' = client
    · subst same
      simpa using heeds.1 answer
    · simpa [same] using accounts.heeds client'
  · exact (Function.update_of_ne (here.trans_le idle).ne' _ _).trans (accounts.idle client' idle)
  · by_cases same : client' = client
    · subst same
      exact absurd (by simpa using holds') ((heeds.2 rfl).2 answer)
    · exact holds isOpen client' same (by simpa [same] using holds')
  · obtain ⟨ne, mem⟩ := Finset.mem_erase.mp mem
    simpa [ne] using accounts.owes client' mem
  · have invoked := accounts.invoked
    have fewer := Finset.pred_card_le_card_erase (s := owing) (a := client)
    simp only [invocations, lostReports, List.countP_append, List.countP_singleton] at invoked ⊢
    have : invokes (ρ := ρ) node ⟨.reportResult node false, answer⟩ = false := rfl
    simp only [this]
    simp
    omega

variable {occasion : Occasion ρ}

/-- A request for an operation that spares the node. -/
theorem Accounts.request
    (accounts : agents.Accounts tenantId node clients threshold failures holders owing) {op : Op}
    (spares : op.spares tenantId node = true) {α : Type} (answer : α) :
    Accounts { agents with state := (agents.state.request occasion op answer).2 } tenantId node
      clients threshold failures holders owing := by
  unfold SharedRouter.request
  cases occasion.reaches with
  | false => exact accounts
  | true => exact accounts.operate spares

/-- An agent asks for a route.  It gets none with the node on it while the node is `Open`. -/
theorem Accounts.route {start goal : NodeId}
    {next : Except AgentError RouteResponse → Program (agentInterface ρ) Unit}
    (accounts : agents.Accounts tenantId node clients threshold failures holders owing)
    (small : agents.state.tenants.InIdSpace tenantId)
    (left : agents.rest client = call (I := agentInterface ρ) (.route start goal) next) :
    let answered := SharedRouter.serve tenantId occasion agents.state (.route start goal)
    Accounts
      { state := answered.2
        rest := Function.update agents.rest client (next answered.1)
        log := agents.log ++ [(client, ⟨.route start goal, answered.1⟩)] } tenantId node clients
        threshold failures holders owing := by
  intro answered
  have heeds := accounts.heeds client
  rw [left] at heeds
  have asked := accounts.quiet left (heeds answered.1).1 (fun isOpen holds => ?_)
    (by simp) rfl rfl
  · exact asked.request (rfl : Op.spares tenantId node (.route tenantId start goal) = true) _
  have on := (heeds answered.1).2 holds
  obtain ⟨ops, reached⟩ := accounts.reckons.reached
  cases replies : occasion.reaches && occasion.answers with
  | false =>
      have reply : answered.1 = .error .request := if_neg (by simp [replies])
      rw [reply] at on
      cases on
  | true =>
      have reply : answered.1 = .ok (.fromDecision
          (agents.state.tenants.route tenantId start goal).answer) := if_pos (by simp [replies])
      rw [reply] at on
      cases decision : (agents.state.tenants.route tenantId start goal).answer with
      | escalate context =>
          rw [decision] at on
          cases on
      | routed route =>
          rw [decision] at on
          rw [reached] at decision small isOpen
          exact absurd isOpen (RouterState.notOpen_of_route ops small decision on)

/-- An agent reports that the tool has failed. -/
theorem Accounts.reportFailure
    {next : Except AgentError Unit → Program (agentInterface ρ) Unit}
    (accounts : agents.Accounts tenantId node clients threshold failures holders owing)
    (fits : threshold - 1 + clients * (1 + agents.state.probes tenantId node) < 2 ^ 32)
    (left : agents.rest client = call (I := agentInterface ρ) (.reportResult node false) next) :
    let answered := SharedRouter.serve tenantId occasion agents.state (.reportResult node false)
    ∃ failures' holders' owing', Accounts
      { state := answered.2
        rest := Function.update agents.rest client (next answered.1)
        log := agents.log ++ [(client, ⟨.reportResult node false, answered.1⟩)] } tenantId node
        clients threshold failures' holders' owing' := by
  intro answered
  have here := accounts.lt left
  cases reaches : occasion.reaches with
  | false =>
      have lost : answered.1 = .error .request := if_neg (by simp [reaches])
      have stays : answered.2 = agents.state := if_neg (by simp [reaches])
      refine ⟨failures, holders, owing.erase client, ?_⟩
      rw [stays]
      refine accounts.report left accounts.reckons
        (fun isOpen other _ holds => accounts.holds isOpen other holds) ?_
      rw [lost]
      simp [losesReport]
  | true =>
      have recorded : answered.2 = agents.state.perform
          (.recordResult tenantId node false occasion.latencyMs occasion.now) := if_pos reaches
      by_cases isOpen : agents.state.tenants.nodeState tenantId node = some .open
      · have mine : client ∈ holders := accounts.holds isOpen client (by
          rw [left]
          exact Or.inl rfl)
        have card := Finset.card_erase_add_one mine
        refine ⟨failures + 1, holders.erase client, owing.erase client, ?_⟩
        rw [recorded]
        refine accounts.report left (accounts.reckons.of_failure fits
          (fun isClosed => absurd isOpen isClosed) (fun _ => card.le) _ _) (fun _ other ne holds =>
            Finset.mem_erase.mpr ⟨ne, accounts.holds isOpen other holds⟩) (Nat.le_add_right _ _)
      · have card := Finset.card_erase_add_one (Finset.mem_range.mpr here)
        rw [Finset.card_range] at card
        refine ⟨failures + 1, (Finset.range clients).erase client, owing.erase client, ?_⟩
        rw [recorded]
        refine accounts.report left (accounts.reckons.of_failure fits (fun _ => card.le)
          (fun isOpen' => absurd isOpen' isOpen) _ _) (fun _ other ne holds => ?_)
            (Nat.le_add_right _ _)
        refine Finset.mem_erase.mpr ⟨ne, Finset.mem_range.mpr (not_le.mp fun idle => ?_)⟩
        rw [accounts.idle other idle] at holds
        exact holds

/-- **One step.** -/
theorem Accounts.step
    (accounts : agents.Accounts tenantId node clients threshold failures holders owing)
    (small : agents.state.tenants.InIdSpace tenantId)
    (fits : threshold - 1 + clients * (1 + agents.state.probes tenantId node) < 2 ^ 32)
    {action : AgentAction ρ} (spares : action.Spares tenantId node) :
    ∃ failures' holders' owing', (agents.step tenantId action).Accounts tenantId node clients
      threshold failures' holders' owing' := by
  cases action with
  | operate op => exact ⟨failures, holders, owing, accounts.operate spares⟩
  | agent client occasion =>
      have served : agents.step tenantId (.agent client occasion) =
          Clients.step (fun _ => SharedRouter.serve tenantId occasion) agents client := rfl
      rw [served]
      cases left : agents.rest client with
      | done result =>
          rw [Clients.step_of_done left]
          exact ⟨failures, holders, owing, accounts⟩
      | call c next =>
          rw [Clients.step_of_call left]
          cases c with
          | route start goal => exact ⟨failures, holders, owing, accounts.route small left⟩
          | invoke node' =>
              have heeds := accounts.heeds client
              rw [left] at heeds
              by_cases same : node' = node
              · subst same
                have fails : occasion.outcome node' = none := spares
                have invoked := accounts.invoke left
                rw [← fails] at invoked
                exact ⟨failures, holders, insert client owing, invoked⟩
              · refine ⟨failures, holders, owing, accounts.quiet left
                  ((if_neg same).mp heeds _) (fun isOpen holds => ?_) (by simp)
                  (decide_eq_false same) rfl⟩
                refine accounts.holds isOpen client ?_
                rw [left]
                exact Or.inr ⟨_, holds⟩
          | reportResult node' success =>
              have heeds := accounts.heeds client
              rw [left] at heeds
              by_cases same : node' = node
              · subst same
                obtain rfl : success = false := (heeds.2 rfl).1
                exact accounts.reportFailure fits left
              · let answered := SharedRouter.serve tenantId occasion agents.state
                  (.reportResult node' success)
                have told := accounts.quiet left (heeds.1 answered.1) (fun isOpen holds => ?_)
                  (by simp [same]) rfl ?_
                · exact ⟨failures, holders, owing, told.request (by simp [Op.spares, same]) _⟩
                · refine accounts.holds isOpen client ?_
                  rw [left]
                  exact Or.inr ⟨_, holds⟩
                · cases answered.1 with
                  | ok _ => rfl
                  | error _ => exact decide_eq_false same

/-- The books when nobody has made a call yet. -/
theorem accounts_start (setup : List Op) {programs : List (Program (agentInterface ρ) Unit)}
    (heed : ∀ program ∈ programs, Heeds node program)
    (fresh : ((RouterState.after setup).trackerOf tenantId node).consecutiveFailures = 0)
    (closed : (RouterState.after setup).nodeState tenantId node ≠ some .open) :
    (start setup programs).Accounts tenantId node programs.length
      ((RouterState.after setup).tenants.getOrDefault tenantId).healthPolicy.openThreshold.toNat
      0 ∅ ∅ where
  reckons :=
    { reached := ⟨setup, rfl⟩
      policy := rfl
      counted := congrArg UInt32.toNat fresh
      closed := fun _ => Nat.zero_le _
      opened := fun isOpen => absurd isOpen closed }
  heeds client := by
    show Heeds node (programs.getD client (done ()))
    by_cases given : client < programs.length
    · rw [List.getD_eq_getElem?_getD, List.getElem?_eq_getElem given]
      exact heed _ (List.getElem_mem given)
    · rw [List.getD_eq_getElem?_getD, List.getElem?_eq_none (not_lt.mp given)]
      exact trivial
  idle client idle := by
    show programs.getD client (done ()) = done ()
    rw [List.getD_eq_getElem?_getD, List.getElem?_eq_none idle, Option.getD_none]
  holds isOpen := absurd isOpen closed
  owes client mem := absurd mem (Finset.notMem_empty client)
  invoked := Nat.zero_le _

variable (tenantId) in
/-- An action is an operation of the router, or does not touch it. -/
theorem state_step (agents : Agents ρ) (action : AgentAction ρ) :
    (agents.step tenantId action).state = agents.state ∨
      ∃ op, (agents.step tenantId action).state = agents.state.perform op := by
  have asks : ∀ (occasion : Occasion ρ) (op : Op) {α : Type} (answer : α),
      (agents.state.request occasion op answer).2 = agents.state ∨
        ∃ op', (agents.state.request occasion op answer).2 = agents.state.perform op' := by
    intro occasion op α answer
    unfold SharedRouter.request
    cases occasion.reaches with
    | false => exact Or.inl rfl
    | true => exact Or.inr ⟨op, rfl⟩
  cases action with
  | operate op => exact Or.inr ⟨op, rfl⟩
  | agent client occasion =>
      have served : agents.step tenantId (.agent client occasion) =
          Clients.step (fun _ => SharedRouter.serve tenantId occasion) agents client := rfl
      rw [served]
      cases left : agents.rest client with
      | done result =>
          rw [Clients.step_of_done left]
          exact Or.inl rfl
      | call c next =>
          rw [Clients.step_of_call left]
          cases c with
          | route start goal =>
              exact asks occasion (.route tenantId start goal) (RouteResponse.fromDecision
                (agents.state.tenants.route tenantId start goal).answer)
          | invoke node => exact Or.inl rfl
          | reportResult node success =>
              exact asks occasion (.recordResult tenantId node success occasion.latencyMs
                occasion.now) ()

variable (tenantId node) in
theorem probes_le_step (agents : Agents ρ) (action : AgentAction ρ) :
    agents.state.probes tenantId node ≤
      (agents.step tenantId action).state.probes tenantId node := by
  rcases agents.state_step tenantId action with same | ⟨op, performed⟩
  · rw [same]
  · rw [performed, SharedRouter.probes_perform]
    exact Nat.le_add_right _ _

theorem inIdSpace_of_step {action : AgentAction ρ}
    (small : (agents.step tenantId action).state.tenants.InIdSpace tenantId) :
    agents.state.tenants.InIdSpace tenantId := by
  rcases agents.state_step tenantId action with same | ⟨op, performed⟩
  · rwa [same] at small
  · rw [performed] at small
    exact RouterState.InIdSpace.of_step small

/-- **The books are kept** in every run. -/
theorem exists_accounts (setup : List Op) {programs : List (Program (agentInterface ρ) Unit)}
    (heed : ∀ program ∈ programs, Heeds node program)
    (fresh : ((RouterState.after setup).trackerOf tenantId node).consecutiveFailures = 0)
    (closed : (RouterState.after setup).nodeState tenantId node ≠ some .open)
    {actions : List (AgentAction ρ)} (spares : ∀ action ∈ actions, action.Spares tenantId node) :
    let later := run (step tenantId) (start setup programs) actions
    let threshold :=
      ((RouterState.after setup).tenants.getOrDefault tenantId).healthPolicy.openThreshold.toNat
    later.state.tenants.InIdSpace tenantId →
    threshold - 1 + programs.length * (1 + later.state.probes tenantId node) < 2 ^ 32 →
      ∃ failures holders owing, later.Accounts tenantId node programs.length threshold failures
        holders owing := by
  induction actions using List.reverseRecOn with
  | nil => exact fun _ _ => ⟨0, ∅, ∅, accounts_start setup heed fresh closed⟩
  | append_singleton actions action ih =>
      intro later threshold small fits
      have split : later = (run (step tenantId) (start setup programs) actions).step tenantId
          action := run_concat _ _
      rw [split] at small fits ⊢
      have fewer := Nat.mul_le_mul_left programs.length (Nat.add_le_add_left
        (probes_le_step tenantId node
          (run (step tenantId) (start setup programs) actions) action) 1)
      have small' := inIdSpace_of_step small
      have fits' := (Nat.add_le_add_left fewer _).trans_lt fits
      obtain ⟨failures, holders, owing, accounts⟩ :=
        ih (fun action mem => spares action (List.mem_append_left _ mem)) small' fits'
      exact accounts.step small' fits' (spares action (by simp))

end Agents

/-- **A tool that fails for good is left alone.**  Some agents of the SDK and others use a router,
in whatever order, and requests may get lost or be refused.  A tool fails whenever it is called,
none of its failures has been counted before, and nobody but the agents reports on it.  Then at any
time the agents together have called it at most `open_threshold - 1` times and, for each time that
its circuit may have been opened, once each, and some times more for which the report has raised. -/
theorem invocations_le {ρ : Type} (setup : List Op) (jobs : List (List Job))
    (fresh : ((RouterState.after setup).trackerOf tenantId node).consecutiveFailures = 0)
    (closed : (RouterState.after setup).nodeState tenantId node ≠ some .open)
    {actions : List (AgentAction ρ)} (spares : ∀ action ∈ actions, action.Spares tenantId node) :
    let agents := run (Agents.step tenantId) (Agents.start setup (jobs.map Job.inTurn)) actions
    let threshold :=
      ((RouterState.after setup).tenants.getOrDefault tenantId).healthPolicy.openThreshold.toNat
    let bound := threshold - 1 + jobs.length * (1 + agents.state.probes tenantId node)
    agents.state.tenants.InIdSpace tenantId → bound < 2 ^ 32 →
      agents.invocations node ≤ bound + agents.lostReports node := by
  intro agents threshold bound small fits
  have heed : ∀ program ∈ jobs.map Job.inTurn,
      Heeds node (program : Program (agentInterface ρ) Unit) := by
    intro program mem
    obtain ⟨own, -, rfl⟩ := List.mem_map.mp mem
    exact heeds_inTurn own
  have length : (jobs.map (Job.inTurn : _ → Program (agentInterface ρ) Unit)).length =
      jobs.length := List.length_map _
  obtain ⟨failures, holders, owing, accounts⟩ :=
    Agents.exists_accounts setup heed fresh closed spares small (length.symm ▸ fits)
  rw [length] at accounts
  exact accounts.calls_le

omit [Rounding] in
/-- Two agents side by side, whose only tool fails.  Both call it three times until its circuit is
`Open`, and once more after a recovery probe, which is as often as they may. -/
theorem invocations_le_of_two_agents :
    letI := Rounding.exact
    let occasion : Occasion Unit :=
      { reaches := true, answers := true, outcome := fun _ => none, latencyMs := 0, now := 0 }
    let round : List (AgentAction Unit) := [.agent 0 occasion, .agent 1 occasion]
    let jobs : List Job := List.replicate 5 (.run (fun _ => true) "a" "c")
    let agents := run (Agents.step "acme")
      (Agents.start [.addEdge "acme" (Edge.new "a" "b"), .addEdge "acme" (Edge.new "b" "c")]
        [Job.inTurn jobs, Job.inTurn jobs])
      ((List.replicate 10 round).flatten ++
        .operate (.runRecoveryProbeOnce 0 0 default) :: (List.replicate 3 round).flatten)
    agents.state.probes "acme" "b" = 1 ∧ agents.lostReports "b" = 0 ∧
      agents.invocations "b" = 8 ∧ agents.invocations "b" ≤
        5 - 1 + 2 * (1 + agents.state.probes "acme" "b") + agents.lostReports "b" := by
  let _ := Rounding.exact
  intro occasion round jobs agents
  refine ⟨by decide +kernel, by decide +kernel, by decide +kernel, ?_⟩
  refine invocations_le _ [jobs, jobs] (by decide +kernel) (by decide +kernel)
    (fun action mem => ?_) ?_ ?_
  · have rounds : ∀ n, ∀ action ∈ (List.replicate n round).flatten, action.Spares "acme" "b" := by
      intro n action mem
      obtain ⟨_, isRound, mem⟩ := List.mem_flatten.mp mem
      obtain rfl := List.eq_of_mem_replicate isRound
      rcases List.mem_pair.mp mem with rfl | rfl <;> exact rfl
    rcases List.mem_append.mp mem with mem | mem
    · exact rounds 10 action mem
    · rcases List.mem_cons.mp mem with rfl | mem
      · exact rfl
      · exact rounds 3 action mem
  · show _ ≤ _
    decide +kernel
  · decide +kernel

end Books

end TrustRouter
