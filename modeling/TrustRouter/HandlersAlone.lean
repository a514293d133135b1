import TrustRouter.Endpoints
import TrustRouter.AuditTrail

/-!
# Handlers alone

A decision of the router is followed by the event it has pushed, so a handler that runs
while no other does is given the event of its own decision.  What it then comes to is put
together from `decide`, the decision on a query, and the write and the count that follow.

The handlers that share the sidecar with others are programs of the same calls without the
metrics.  Each of them, played alone, answers what the endpoint answers and leaves what it
leaves (`isPlayed_handleRoute`, `isPlayed_handlePlan`, `isPlayed_routeBatch`).
-/

namespace TrustRouter

/-- The item, as a query of its own. -/
def BatchRouteItem.query (item : BatchRouteItem) : RouteQuery :=
  ⟨item.tenant, item.start, item.goal⟩

namespace AppState

variable [Rounding] (render : Json → String)

/-- The last event after a decision is its own. -/
theorem lastAuditEvent_route (router : Router) (tenantId : TenantId) (start goal : NodeId) :
    (router.step (.route tenantId start goal)).lastAuditEvent =
      some ((router.inner.route tenantId start goal).answer.event tenantId start goal) := by
  have pushed : (router.inner.perform (.route tenantId start goal)).pushed = _ :=
    RouterState.route_pushed router.inner tenantId start goal
  unfold Router.step Router.perform Router.lastAuditEvent
  dsimp only
  rw [pushed]
  exact Ring.getLast?_push _ _

/-- The decision on a query, its event, and the state it leaves. -/
structure Decided where
  decision : RouteDecision
  event : AuditEvent
  state : AppState

def decide (state : AppState) (query : RouteQuery) : Decided where
  decision := (state.router.inner.route query.tenant query.start query.goal).answer
  event := (state.router.inner.route query.tenant query.start query.goal).answer.event
    query.tenant query.start query.goal
  state := { state with router := state.router.step (.route query.tenant query.start query.goal) }

section Persist

variable {env : RequestEnvironment} {event : AuditEvent} {state state' : AppState}
variable {written : ℕ} {error : String}

omit [Rounding] in
theorem persistBeforeResponse_of_ok
    (appended : callAppendEventsJsonl render env.fault [event] state = (.ok written, state')) :
    persistBeforeResponse render env event state = (.ok (), state') := by
  unfold persistBeforeResponse
  rw [App.bind_of_ok (App.lift_apply appended)]
  rfl

omit [Rounding] in
theorem persistBeforeResponse_of_error
    (appended : callAppendEventsJsonl render env.fault [event] state = (.error error, state')) :
    persistBeforeResponse render env event state =
      (.error (.internal s!"audit persistence failed: {error}"), state') := by
  unfold persistBeforeResponse
  rw [App.bind_of_ok (App.lift_apply appended)]
  rfl

variable {query : RouteQuery}

/-- A decision is made, and its event is persisted. -/
theorem handleRoute_apply (env : RequestEnvironment) (query : RouteQuery) (state : AppState) :
    handleRoute render env query state = (do
      persistBeforeResponse render env (state.decide query).event
      let _ ← recordRoute query.tenant (state.decide query).decision (env.elapsed 0)
      return .fromDecision (state.decide query).decision : App RouteResponse)
        (state.decide query).state := by
  have last : (state.decide query).state.router.lastAuditEvent = some (state.decide query).event :=
    lastAuditEvent_route state.router query.tenant query.start query.goal
  have decided : (callRoute query.tenant query.start query.goal : App RouteDecision) state =
      (.ok (state.decide query).decision, (state.decide query).state) := App.lift_apply rfl
  -- the router is asked for its last event, which is the one the decision has pushed
  have found : (callLastAuditEvent : App (Option AuditEvent)) (state.decide query).state =
      (.ok (some (state.decide query).event), (state.decide query).state) :=
    App.lift_apply (Prod.ext last rfl)
  rw [handleRoute, App.bind_of_ok decided, App.bind_of_ok found]

end Persist

/-- One item of a batch: a decision is made and counted. -/
theorem routeBatchItems_cons (item : BatchRouteItem) (elapsed : Duration)
    (rest : List (BatchRouteItem × Duration)) (progress : BatchProgress AuditEvent)
    (state : AppState) :
    let decided := state.decide item.query
    routeBatchItems ((item, elapsed) :: rest) progress state =
      routeBatchItems rest (progress.record decided.decision (some decided.event))
        (recordRoute item.tenant decided.decision elapsed decided.state).2 := by
  intro decided
  have last : decided.state.router.lastAuditEvent = some decided.event :=
    lastAuditEvent_route state.router item.tenant item.start item.goal
  rw [← last]
  rfl

/-! ### Handlers alone

What a handler does to the router and the audit file, and what it answers, is what the
program of the same name does when nobody else is served. -/

section Play

variable {κ α β : Type} {fault : Option (ℕ × String)} {state state' : AppState}
variable {first : ExceptT κ (Handler AuditEvent) α} {next : α → ExceptT κ (Handler AuditEvent) β}
variable {a : α} {error : κ}

theorem play_bind (handler : Handler AuditEvent α) (f : α → Handler AuditEvent β) :
    play render fault (handler.bind f) state =
      play render fault (f (play render fault handler state).1)
        (play render fault handler state).2 := by
  induction handler generalizing state with
  | done answer => rfl
  | route tenantId start goal next ih => exact ih _
  | lastAuditEvent next ih => exact ih _
  | appendEventsJsonl events next ih => exact ih _

theorem play_bind_of_ok (succeeds : play render fault first.run state = (.ok a, state')) :
    play render fault (first >>= next).run state = play render fault (next a).run state' := by
  have run : play render fault (first >>= next).run state = _ :=
    play_bind render first.run (ExceptT.bindCont next)
  rw [run, succeeds]
  rfl

theorem play_bind_of_error (fails : play render fault first.run state = (.error error, state')) :
    play render fault (first >>= next).run state = (.error error, state') := by
  have run : play render fault (first >>= next).run state = _ :=
    play_bind render first.run (ExceptT.bindCont next)
  rw [run, fails]
  rfl

theorem play_lift {handler : Handler AuditEvent α}
    (played : play render fault handler state = (a, state')) :
    play render fault (handler : ExceptT κ (Handler AuditEvent) α).run state = (.ok a, state') := by
  have run : play render fault (handler : ExceptT κ (Handler AuditEvent) α).run state = _ :=
    play_bind render handler fun a => .done (Except.ok a)
  rw [run, played]
  rfl

theorem play_adapt {μ : Type} (f : κ → μ) {answer : Except κ α}
    (played : play render fault first.run state = (answer, state')) :
    play render fault (ExceptT.adapt f first).run state = (answer.mapError f, state') := by
  have run : play render fault (ExceptT.adapt f first).run state = _ :=
    play_bind render first.run fun answer => .done (answer.mapError f)
  rw [run, played]
  rfl

/-- A handler leaves the metrics alone. -/
theorem metrics_play (handler : Handler AuditEvent α) :
    (play render fault handler state).2.metrics = state.metrics := by
  induction handler generalizing state with
  | done answer => rfl
  | route tenantId start goal next ih => exact ih _
  | lastAuditEvent next ih => exact ih _
  | appendEventsJsonl events next ih => exact ih _

/-- A handler of the router decides, and is given the event of its decision. -/
theorem play_decide (query : RouteQuery)
    (next : RouteDecision → Option AuditEvent → Handler AuditEvent α) :
    play render fault (.route query.tenant query.start query.goal fun decision =>
        .lastAuditEvent (next decision)) state =
      play render fault (next (state.decide query).decision (some (state.decide query).event))
        (state.decide query).state :=
  congrArg (fun event => play render fault (next (state.decide query).decision event)
    (state.decide query).state)
    (lastAuditEvent_route state.router query.tenant query.start query.goal)

/-- It is given how its write has ended. -/
theorem play_append (events : List AuditEvent) (next : Except String ℕ → Handler AuditEvent α) :
    play render fault (.appendEventsJsonl events next) state =
      play render fault (next (callAppendEventsJsonl render fault events state).1)
        (callAppendEventsJsonl render fault events state).2 := rfl

theorem play_persist_of_ok {event : AuditEvent} {written : ℕ}
    (appended : callAppendEventsJsonl render fault [event] state = (.ok written, state')) :
    play render fault (TrustRouter.persistBeforeResponse event).run state = (.ok (), state') := by
  refine (play_append render [event] _).trans ?_
  rw [appended]
  rfl

theorem play_persist_of_error {event : AuditEvent} {error : String}
    (appended : callAppendEventsJsonl render fault [event] state = (.error error, state')) :
    play render fault (TrustRouter.persistBeforeResponse event).run state =
      (.error (.internal s!"audit persistence failed: {error}"), state') := by
  refine (play_append render [event] _).trans ?_
  rw [appended]
  rfl

/-- `served` is what comes of a handler that is played alone, but for the metrics. -/
def IsPlayed (handler : ExceptT SidecarError (Handler AuditEvent) α) (env : RequestEnvironment)
    (state : AppState) (served : Except SidecarError α × AppState) : Prop :=
  play render env.fault handler.run state =
    (served.1, { served.2 with metrics := state.metrics })

/-- The end of a handler: the event is persisted, and the metrics are brought up to date. -/
theorem isPlayed_persist {env : RequestEnvironment} {event : AuditEvent} {state : AppState}
    {metrics : Metrics} {rest : App α} {answer : α} (same : state.metrics = metrics)
    (ends : ∀ state, ∃ metrics, rest state = (.ok answer, { state with metrics := metrics })) :
    let served := (persistBeforeResponse render env event >>= fun _ => rest) state
    play render env.fault (TrustRouter.persistBeforeResponse event >>= fun _ => pure answer :
        ExceptT SidecarError (Handler AuditEvent) α).run state =
      (served.1, { served.2 with metrics := metrics }) := by
  subst same
  intro served
  cases appended : callAppendEventsJsonl render env.fault [event] state with
  | mk result after =>
    have metrics : after.metrics = state.metrics := by
      have kept : (callAppendEventsJsonl render env.fault [event] state).2.metrics =
        state.metrics := rfl
      rwa [appended] at kept
    cases result with
    | error error =>
        have fails : served = _ :=
          App.bind_of_error (persistBeforeResponse_of_error render appended)
        rw [play_bind_of_error render (play_persist_of_error render appended), fails, ← metrics]
    | ok written =>
        have succeeds : served = _ := App.bind_of_ok (persistBeforeResponse_of_ok render appended)
        obtain ⟨recorded, ended⟩ := ends after
        rw [play_bind_of_ok render (play_persist_of_ok render appended), succeeds, ended, ← metrics]
        rfl

theorem isPlayed_handleRoute (env : RequestEnvironment) (query : RouteQuery) (state : AppState) :
    IsPlayed render (TrustRouter.handleRoute query) env state
      (handleRoute render env query state) := by
  unfold IsPlayed
  rw [handleRoute_apply]
  refine (play_decide render query _).trans ?_
  exact isPlayed_persist render rfl fun state => ⟨_, rfl⟩

theorem play_lastAuditEvent_bind
    (next : Option AuditEvent → ExceptT SidecarError (Handler AuditEvent) α) :
    play render fault ((Handler.callLastAuditEvent : Handler AuditEvent _) >>= next :
      ExceptT SidecarError (Handler AuditEvent) α).run state =
      play render fault (next state.router.lastAuditEvent).run state := rfl

theorem play_append_bind (events : List AuditEvent)
    (next : Except String ℕ → ExceptT SidecarError (Handler AuditEvent) α) :
    play render fault ((Handler.callAppendEventsJsonl events : Handler AuditEvent _) >>= next :
      ExceptT SidecarError (Handler AuditEvent) α).run state =
      play render fault (next (callAppendEventsJsonl render fault events state).1).run
        (callAppendEventsJsonl render fault events state).2 := rfl

omit [Rounding] in
theorem append_bind (events : List AuditEvent) (next : Except String ℕ → App α) :
    (callAppendEventsJsonl render fault events >>= next : App α) state =
      next (callAppendEventsJsonl render fault events state).1
        (callAppendEventsJsonl render fault events state).2 := rfl

omit [Rounding] in
theorem lastAuditEvent_bind (next : Option AuditEvent → App α) :
    (callLastAuditEvent >>= next : App α) state = next state.router.lastAuditEvent state := rfl

theorem isPlayed_handlePlan (env : RequestEnvironment) (query : RouteQuery) (state : AppState) :
    IsPlayed render (TrustRouter.handlePlan query) env state
      (handlePlan render env query state) := by
  let request : PlanningRequest := ⟨query.tenant, query.start, query.goal⟩
  have metrics : (play render env.fault (Planner.new.plan request).run state).2.metrics =
    state.metrics := metrics_play render _
  cases planned : play render env.fault (Planner.new.plan request).run state with
  | mk answer after =>
    -- a plan may fail once the router has decided, and what has been pushed stays
    have adapted := play_adapt render
      (fun error : PlanningError => SidecarError.badRequest error.display) planned
    rw [planned] at metrics
    unfold IsPlayed TrustRouter.handlePlan handlePlan
    rw [App.bind_of_ok (App.lift_apply planned)]
    cases answer with
    | error error =>
        rw [play_bind_of_error render adapted, ← metrics]
        rfl
    | ok outcome =>
        rw [play_bind_of_ok render adapted, play_lastAuditEvent_bind]
        dsimp only
        rw [lastAuditEvent_bind]
        cases after.router.lastAuditEvent with
        | none =>
            rw [← metrics]
            rfl
        | some event => exact isPlayed_persist render metrics fun state => ⟨_, rfl⟩

theorem play_routeItems (env : RequestEnvironment) (items : List (BatchRouteItem × Duration))
    (progress : BatchProgress AuditEvent) (state : AppState) (metrics : Metrics) :
    let served := routeBatchItems items progress state
    play render env.fault (routeItems (items.map Prod.fst) progress)
      { state with metrics := metrics } = (served.1, { served.2 with metrics := metrics }) := by
  induction items generalizing progress state with
  | nil => rfl
  | cons entry rest ih =>
      obtain ⟨item, elapsed⟩ := entry
      rw [routeBatchItems_cons]
      let decided := state.decide item.query
      exact (play_decide render item.query _).trans
        (ih (progress.record decided.decision (some decided.event))
          (recordRoute item.tenant decided.decision elapsed decided.state).2)

theorem isPlayed_routeBatch (env : RequestEnvironment) (requests : List BatchRouteItem)
    (state : AppState) :
    IsPlayed render (TrustRouter.batchRouteHandler requests) env state
      (routeBatch render env requests state) := by
  have items : (requests.mapIdx fun k item => (item, env.elapsed k)).map Prod.fst = requests := by
    rw [map_mapIdx]
    exact List.ext_getElem (by simp) fun k _ _ => by simp
  have routed := play_routeItems render env (requests.mapIdx fun k item => (item, env.elapsed k))
    {} state state.metrics
  rw [items] at routed
  unfold IsPlayed TrustRouter.batchRouteHandler routeBatch
  cases ran : routeBatchItems (requests.mapIdx fun k item => (item, env.elapsed k)) {} state with
  | mk progress after =>
    rw [ran] at routed
    have appended : callAppendEventsJsonl render env.fault progress.newAuditEvents
        { after with metrics := state.metrics } =
          ((callAppendEventsJsonl render env.fault progress.newAuditEvents after).1,
            { (callAppendEventsJsonl render env.fault progress.newAuditEvents after).2 with
              metrics := state.metrics }) := rfl
    rw [App.bind_of_ok (App.lift_apply ran), play_bind_of_ok render (play_lift render routed),
      append_bind, play_append_bind]
    dsimp only
    rw [appended]
    dsimp only
    cases (callAppendEventsJsonl render env.fault progress.newAuditEvents after).1 <;> rfl

end Play

/-! ### Whole requests -/

section Requests

variable [HeaderText] (env : RequestEnvironment) (headers : HeaderMap) (state : AppState)

/-- Authorization leaves the router alone. -/
theorem router_authorizeRequest (now : Instant) (tenant : TenantId) :
    (authorizeRequest headers now (some tenant) state).2.router = state.router := by
  cases key : requireApiKey headers state.apiKey with
  | error error =>
      have fails : checkApiKey headers state = (.error error, state) := congrArg (·, state) key
      rw [authorizeRequest, App.bind_of_error fails]
  | ok _ =>
      have passes : checkApiKey headers state = (.ok (), state) := congrArg (·, state) key
      rw [authorizeRequest, App.bind_of_ok passes]
      by_cases allowed : tenant ∈ state.allowedTenants
      · have passes : checkTenant tenant state = (.ok (), state) :=
          congrArg (·, state) (if_pos allowed)
        show ((checkTenant tenant >>= fun _ => tryAcquire now : App Unit) state).2.router = _
        rw [App.bind_of_ok passes]
        rfl
      · have fails : checkTenant tenant state = (.error .forbidden, state) :=
          congrArg (·, state) (if_neg allowed)
        show ((checkTenant tenant >>= fun _ => tryAcquire now : App Unit) state).2.router = _
        rw [App.bind_of_error fails]

/-- A request fails before the router is called, or gets as far as that. -/
theorem handler_cases {α : Type} (valid : Except SidecarError Unit) (tenant : TenantId)
    (rest : App α) :
    let handler : App α := do
      App.check valid
      authorizeRequest headers (env.acquireAt 0) (some tenant)
      rest
    (∃ error failed, handler state = (.error error, failed) ∧ failed.router = state.router) ∨
      ∃ ready, ready.router = state.router ∧ handler state = rest ready := by
  intro handler
  cases valid with
  | error error => exact Or.inl ⟨error, state, App.bind_of_error rfl, rfl⟩
  | ok _ =>
      have untouched := router_authorizeRequest headers state (env.acquireAt 0) tenant
      have checked : handler state =
          (authorizeRequest headers (env.acquireAt 0) (some tenant) >>= fun _ => rest) state :=
        App.bind_of_ok rfl
      rw [checked]
      cases authorized : authorizeRequest headers (env.acquireAt 0) (some tenant) state with
      | mk answer ready =>
          rw [authorized] at untouched
          cases answer with
          | error error =>
              exact Or.inl ⟨error, ready, App.bind_of_error authorized, untouched⟩
          | ok _ => exact Or.inr ⟨ready, untouched, App.bind_of_ok authorized⟩

omit [HeaderText] in
/-- A decision is returned, or its event cannot be written. -/
theorem handleRoute_cases (query : RouteQuery) :
    (∃ error failed, handleRoute render env query state = (.error error, failed) ∧
        failed.router = (state.decide query).state.router) ∨
      ∃ counted, handleRoute render env query state =
          (.ok (.fromDecision (state.decide query).decision), counted) ∧
        counted.router = (state.decide query).state.router := by
  rw [handleRoute_apply]
  cases appended : callAppendEventsJsonl render env.fault [(state.decide query).event]
      (state.decide query).state with
  | mk answer written =>
      have untouched : written.router = (state.decide query).state.router :=
        congrArg (fun ran : _ × AppState => ran.2.router) appended.symm
      cases answer with
      | error error =>
          have fails := persistBeforeResponse_of_error render appended
          exact Or.inl ⟨_, written, App.bind_of_error fails, untouched⟩
      | ok count =>
          refine Or.inr ⟨(recordRoute query.tenant (state.decide query).decision (env.elapsed 0)
            written).2, ?_, untouched⟩
          rw [App.bind_of_ok (persistBeforeResponse_of_ok render appended)]
          rfl

theorem handle_of_error {call : ApiCall} {error : SidecarError} {failed : AppState}
    (fails : serve render env headers call { state with nextRequestId := state.nextRequestId + 1 } =
      (.error error, failed)) :
    handle render env headers call state = (error.intoResponse state.requestId, failed) := by
  unfold handle
  rw [fails]

theorem handle_of_ok {call : ApiCall} {body : Body} {served : AppState}
    (succeeds : serve render env headers call
      { state with nextRequestId := state.nextRequestId + 1 } = (.ok body, served)) :
    handle render env headers call state =
      ({ status := 200, body := body, requestId := state.requestId }, served) := by
  unfold handle
  rw [succeeds]

/-- Whatever is answered, the state is what the handler leaves. -/
theorem handle_snd (call : ApiCall) :
    (handle render env headers call state).2 =
      (serve render env headers call
        { state with nextRequestId := state.nextRequestId + 1 }).2 := by
  cases ran : serve render env headers call
      { state with nextRequestId := state.nextRequestId + 1 } with
  | mk answer later =>
    cases answer with
    | error error => exact congrArg Prod.snd (handle_of_error render env headers state ran)
    | ok body => exact congrArg Prod.snd (handle_of_ok render env headers state ran)

end Requests

end AppState

end TrustRouter
