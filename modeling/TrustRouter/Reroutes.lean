import TrustRouter.HandlersAlone
import TrustRouter.Prelude.Program

/-!
# What counts as a reroute

`/route` and `/route/batch` requests are served side by side, and each decision is counted
by `record_route` under the lock of the metrics: by `/route` after its event is persisted, by
a batch at once.  A run is a list of calls of requests and of operations of others on the
router (`SidecarAction`), and its `records` are the decisions counted, in this order.

One path is remembered of a tenant, its last, whatever it led from and to.  A decision that
misses the cache is a reroute if its path is another, and so a tenant that asks for two
pairs in turn is counted as rerouted (`not_reroutesGenuine`).  What is counted is right
exactly as long as no decision is `Confused` with one for another pair (`reroutesGenuine_iff`).
-/

namespace TrustRouter

open Program

deriving instance DecidableEq for RouteQuery

/-! ## Calls of the sidecar -/

inductive SidecarCall where
  /-- The checks of a request and its tokens. -/
  | authorize (call : ApiCall)
  | route (query : RouteQuery)
  | lastAuditEvent
  | appendEventsJsonl (events : List AuditEvent)
  /-- `record_route` of the decision on a query, of which it is given the tenant. -/
  | recordRoute (query : RouteQuery) (decision : RouteDecision) (latency : Duration)

def SidecarCall.Answer : SidecarCall → Type
  | authorize _ => Except SidecarError Unit
  | route _ => RouteDecision
  | lastAuditEvent => Option AuditEvent
  | appendEventsJsonl _ => Except String ℕ
  | recordRoute _ _ _ => RouteMetricOutcome

abbrev sidecarInterface : Interface := ⟨SidecarCall, SidecarCall.Answer⟩

namespace SidecarCall

def handleRoute (query : RouteQuery) (elapsed : Duration) :
    Program sidecarInterface (Except SidecarError RouteResponse) :=
  call (.route query) fun decision =>
  call .lastAuditEvent fun
    | none => done (.error (.internal "route did not create an audit event"))
    | some event => call (.appendEventsJsonl [event]) fun
        | .error error => done (.error (.internal s!"audit persistence failed: {error}"))
        | .ok _ => call (.recordRoute query decision elapsed) fun _ =>
            done (.ok (.fromDecision decision))

/-- The loop over the items of a batch, each with the time its decision takes. -/
def routeBatchItems : List (BatchRouteItem × Duration) → BatchProgress AuditEvent →
    Program sidecarInterface (BatchProgress AuditEvent)
  | [], progress => done progress
  | (item, elapsed) :: rest, progress =>
      call (.route item.query) fun decision =>
      call .lastAuditEvent fun event =>
      call (.recordRoute item.query decision elapsed) fun _ =>
        routeBatchItems rest (progress.record decision event)

def routeBatch (requests : List BatchRouteItem) (elapsed : ℕ → Duration) :
    Program sidecarInterface (Except SidecarError BatchRouteResponse) :=
  (routeBatchItems (requests.mapIdx fun k item => (item, elapsed k)) {}).bind fun progress =>
  call (.appendEventsJsonl progress.newAuditEvents) fun
    | .error error => done (.error (.internal s!"batch audit persistence failed: {error}"))
    | .ok _ => done (.ok {
        results := progress.results
        totalRouted := progress.totalRouted
        totalEscalated := progress.totalEscalated })

end SidecarCall

/-- A request for routes, with what it is served with. -/
inductive RoutingRequest where
  | route (query : RouteQuery)
  | batch (requests : List BatchRouteItem)

def RoutingRequest.apiCall : RoutingRequest → ApiCall
  | route query => .route query
  | batch requests => .batch requests

structure SidecarTask where
  env : RequestEnvironment
  headers : HeaderMap
  request : RoutingRequest

def SidecarTask.program (task : SidecarTask) :
    Program sidecarInterface (Except SidecarError Body) :=
  call (.authorize task.request.apiCall) fun
    | .error error => done (.error error)
    | .ok _ =>
        match task.request with
        | .route query => (SidecarCall.handleRoute query (task.env.elapsed 0)).bind fun answer =>
            done (answer.map Body.route)
        | .batch requests => (SidecarCall.routeBatch requests task.env.elapsed).bind fun answer =>
            done (answer.map Body.batch)

section

variable [Rounding] [HeaderText] (render : Json → String)

/-- What the sidecar answers to a call, with the clock and the disk a task finds. -/
def AppState.serveCall (task : SidecarTask) : Server sidecarInterface AppState
  | state, .authorize request =>
      (AppState.checks task.headers request >>= fun _ =>
        AppState.acquireTokens ((List.range request.tokens).map task.env.acquireAt) : App Unit)
        state
  | state, .route query => AppState.callRoute query.tenant query.start query.goal state
  | state, .lastAuditEvent => AppState.callLastAuditEvent state
  | state, .appendEventsJsonl events =>
      AppState.callAppendEventsJsonl render task.env.fault events state
  | state, .recordRoute query decision latency =>
      AppState.recordRoute query.tenant decision latency state

/-! ### Requests alone -/

variable (task : SidecarTask) {α : Type}

/-- What a program comes to when nobody else is served. -/
def AppState.alone (program : Program sidecarInterface (Except SidecarError α)) : App α :=
  fun state =>
    let played := Program.play (serveCall render task) state program
    (played.result, played.state)

namespace AppState

theorem alone_call {c : SidecarCall}
    {next : c.Answer → Program sidecarInterface (Except SidecarError α)} (state : AppState) :
    alone render task (call (I := sidecarInterface) c next) state =
      alone render task (next (serveCall render task state c).1)
        (serveCall render task state c).2 := rfl

theorem alone_handleRoute (query : RouteQuery) :
    alone render task (SidecarCall.handleRoute query (task.env.elapsed 0)) =
      handleRoute render task.env query := by
  funext state
  unfold SidecarCall.handleRoute handleRoute
  let decided := callRoute query.tenant query.start query.goal state
  have runs : (callRoute query.tenant query.start query.goal : App RouteDecision) state =
      (.ok decided.1, decided.2) := App.lift_apply rfl
  have routed : serveCall render task state (.route query) = (decided.1, decided.2) := rfl
  have last : serveCall render task decided.2 .lastAuditEvent =
    (decided.2.router.lastAuditEvent, decided.2) := rfl
  rw [alone_call, alone_call, App.bind_of_ok runs, lastAuditEvent_bind, routed, last]
  cases decided.2.router.lastAuditEvent with
  | none => rfl
  | some event =>
      rw [alone_call]
      show _ = (persistBeforeResponse render task.env event >>= _) decided.2
      cases appended : callAppendEventsJsonl render task.env.fault [event] decided.2 with
      | mk result after =>
          have served : serveCall render task decided.2 (.appendEventsJsonl [event]) =
            (result, after) := appended
          rw [served]
          cases result with
          | error error =>
              rw [App.bind_of_error (persistBeforeResponse_of_error render appended)]
              rfl
          | ok written =>
              rw [App.bind_of_ok (persistBeforeResponse_of_ok render appended)]
              rfl

theorem play_routeBatchItems (items : List (BatchRouteItem × Duration))
    (progress : BatchProgress AuditEvent) (state : AppState) :
    let played := Program.play (serveCall render task) state
      (SidecarCall.routeBatchItems items progress)
    (played.result, played.state) = routeBatchItems items progress state := by
  induction items generalizing progress state with
  | nil => rfl
  | cons entry rest ih => exact ih _ _

theorem alone_bind {β : Type} (program : Program sidecarInterface β)
    (next : β → Program sidecarInterface (Except SidecarError α)) (state : AppState) :
    alone render task (program.bind next) state =
      alone render task (next (Program.play (serveCall render task) state program).result)
        (Program.play (serveCall render task) state program).state := by
  unfold alone
  simp only [Program.play_bind]

theorem alone_map {β : Type} (f : α → β)
    (program : Program sidecarInterface (Except SidecarError α)) :
    alone render task (program.bind fun answer => done (answer.map f)) =
      f <$> alone render task program := by
  funext state
  rw [alone_bind, map_eq_pure_bind]
  cases played : alone render task program state with
  | mk answer after =>
      obtain ⟨result, left⟩ := Prod.mk.inj played
      rw [result, left]
      cases answer with
      | error error => exact (App.bind_of_error played).symm
      | ok a => exact Eq.symm ((App.bind_of_ok played).trans rfl)

theorem alone_routeBatch (requests : List BatchRouteItem) :
    alone render task (SidecarCall.routeBatch requests task.env.elapsed) =
      routeBatch render task.env requests := by
  funext state
  let items := requests.mapIdx fun k item => (item, task.env.elapsed k)
  have played : (_, _) = _ := play_routeBatchItems render task items {} state
  obtain ⟨progress, after⟩ := Prod.mk.inj played
  have runs : (routeBatchItems items {} : App _) state = (.ok _, _) := App.lift_apply rfl
  unfold SidecarCall.routeBatch routeBatch
  rw [alone_bind, progress, after, App.bind_of_ok runs, append_bind]
  rw [alone_call]
  dsimp only [serveCall]
  cases (callAppendEventsJsonl render task.env.fault
    (routeBatchItems items {} state).1.newAuditEvents (routeBatchItems items {} state).2).1 <;> rfl

/-- **A request that is served alone** is served as by its handler. -/
theorem alone_program (task : SidecarTask) :
    alone render task task.program =
      serve render task.env task.headers task.request.apiCall := by
  funext state
  rw [serve_eq, ← bind_assoc]
  unfold SidecarTask.program
  rw [alone_call]
  cases authorized : serveCall render task state (.authorize task.request.apiCall) with
  | mk answer after =>
      have runs : (checks task.headers task.request.apiCall >>= fun _ =>
        acquireTokens ((List.range task.request.apiCall.tokens).map task.env.acquireAt) : App Unit)
          state = (answer, after) := authorized
      cases answer with
      | error error => exact (App.bind_of_error runs).symm
      | ok _ =>
          refine Eq.trans ?_ (App.bind_of_ok runs).symm
          cases task.request with
          | route query =>
              have same := alone_map render task Body.route
                (SidecarCall.handleRoute query (task.env.elapsed 0))
              rw [alone_handleRoute] at same
              exact congrFun same after
          | batch requests =>
              have same := alone_map render task Body.batch
                (SidecarCall.routeBatch requests task.env.elapsed)
              rw [alone_routeBatch] at same
              exact congrFun same after

end AppState

end

/-! ## Records -/

/-- A decision that has been counted, with what it has been counted as. -/
structure RouteRecord where
  query : RouteQuery
  decision : RouteDecision
  outcome : RouteMetricOutcome

def RouteDecision.path : RouteDecision → Option (List NodeId)
  | routed route => some route.nodes
  | escalate _ => none

def recordedRoute : sidecarInterface.Event → Option RouteRecord
  | ⟨.recordRoute query decision _, outcome⟩ => some ⟨query, decision, outcome⟩
  | _ => none

/-- The last successful decision on a query of some kind, with its path. -/
def lastSuccess (concerns : RouteQuery → Bool) (records : List RouteRecord) :
    Option (RouteQuery × List NodeId) :=
  (records.reverse.filterMap fun record => record.decision.path.map (Prod.mk record.query)).find?
    fun success => concerns success.1

section

variable {concerns narrow wide : RouteQuery → Bool} {records : List RouteRecord}
variable {record : RouteRecord}

theorem lastSuccess_concat (concerns : RouteQuery → Bool) (records : List RouteRecord)
    (record : RouteRecord) :
    lastSuccess concerns (records ++ [record]) =
      match record.decision.path with
      | none => lastSuccess concerns records
      | some path =>
          if concerns record.query then some (record.query, path)
          else lastSuccess concerns records := by
  unfold lastSuccess
  cases path : record.decision.path with
  | none => simp [path]
  | some nodes => cases concerned : concerns record.query <;> simp [path, concerned]

/-- The last of all that concern something wider is the last of the narrower, if it is one. -/
theorem lastSuccess_of_wider {success : RouteQuery × List NodeId}
    (wider : ∀ query, narrow query = true → wide query = true)
    (last : lastSuccess wide records = some success) (concerned : narrow success.1 = true) :
    lastSuccess narrow records = some success := by
  obtain ⟨-, before, after, split, none⟩ := List.find?_eq_some_iff_append.mp last
  refine List.find?_eq_some_iff_append.mpr ⟨concerned, before, after, split, fun other mem => ?_⟩
  have notWide := none other mem
  cases narrowed : narrow other.1 with
  | false => rfl
  | true => simp [wider other.1 narrowed] at notWide

end

namespace RouteRecord

/-- The last success of the tenant, whatever it was for. -/
def lastOfTenant (record : RouteRecord) (before : List RouteRecord) :
    Option (RouteQuery × List NodeId) :=
  lastSuccess (fun query => query.tenant = record.query.tenant) before

/-- The last success of the tenant for the same start and goal. -/
def lastOfPair (record : RouteRecord) (before : List RouteRecord) :
    Option (RouteQuery × List NodeId) :=
  lastSuccess (fun query => query = record.query) before

/-- The path has changed since the last success for the same tenant, start and goal. -/
def PathChanged (record : RouteRecord) (before : List RouteRecord) : Prop :=
  ∃ path last, record.decision.path = some path ∧ record.lastOfPair before = some last ∧
    last.2 ≠ path

/-- The decision has missed the cache, the tenant's last success was for another pair and
took another path, and the last success for this pair, if there is one, took this one. -/
def Confused (record : RouteRecord) (before : List RouteRecord) : Prop :=
  ∃ route last, record.decision = .routed route ∧ route.cacheHit = false ∧
    record.lastOfTenant before = some last ∧ last.1 ≠ record.query ∧ last.2 ≠ route.nodes ∧
    ∀ own ∈ record.lastOfPair before, own.2 = route.nodes

/-- What `record_route` has made of a decision. -/
def Judged (record : RouteRecord) (before : List RouteRecord) : Prop :=
  record.outcome.rerouted = true ↔
    ∃ route last, record.decision = .routed route ∧ route.cacheHit = false ∧
      record.lastOfTenant before = some last ∧ last.2 ≠ route.nodes

variable {record : RouteRecord} {before : List RouteRecord}

/-- **A reroute is genuine unless the decision is confused with another.** -/
theorem Judged.genuine_iff (judged : record.Judged before) :
    (record.outcome.rerouted = true → record.PathChanged before) ↔ ¬ record.Confused before := by
  rw [show record.outcome.rerouted = true ↔ _ from judged]
  constructor
  · rintro genuine ⟨route, last, routed, missed, ofTenant, -, differs, same⟩
    obtain ⟨path, own, isPath, ofPair, changed⟩ :=
      genuine ⟨route, last, routed, missed, ofTenant, differs⟩
    rw [routed] at isPath
    cases isPath
    exact changed (same own ofPair)
  · rintro clear ⟨route, last, routed, missed, ofTenant, differs⟩
    by_cases samePair : last.1 = record.query
    · -- the tenant's last success was for this pair
      have ofPair : record.lastOfPair before = some last :=
        lastSuccess_of_wider (fun query same => by simp_all) ofTenant (by simpa using samePair)
      exact ⟨route.nodes, last, by rw [routed]; rfl, ofPair, differs⟩
    · by_contra unchanged
      refine clear ⟨route, last, routed, missed, ofTenant, samePair, differs, fun own ofPair => ?_⟩
      by_contra changed
      exact unchanged ⟨route.nodes, own, by rw [routed]; rfl, ofPair, changed⟩

end RouteRecord

/-! ## Runs -/

namespace App

variable {α β : Type}

/-- The program leaves the metrics as they are. -/
def SparesMetrics (program : App α) : Prop := ∀ state, (program state).2.metrics = state.metrics

theorem SparesMetrics.bind {first : App α} {next : α → App β} (spares : first.SparesMetrics)
    (rest : ∀ a, (next a).SparesMetrics) : (first >>= next).SparesMetrics := by
  intro state
  have before := spares state
  cases ran : first state with
  | mk answer after =>
      rw [ran] at before
      cases answer with
      | error error => rwa [bind_of_error ran]
      | ok a => rw [bind_of_ok ran, rest a after, before]

theorem sparesMetrics_check (result : Except SidecarError α) : (check result).SparesMetrics :=
  fun _ => rfl

end App

namespace AppState

section

variable [Rounding]

theorem sparesMetrics_acquireTokens (calls : List Instant) :
    (acquireTokens calls).SparesMetrics := by
  induction calls with
  | nil => exact fun _ => rfl
  | cons now rest ih => exact App.SparesMetrics.bind (fun _ => rfl) fun _ => ih

omit [Rounding] in
theorem sparesMetrics_checkItems (requests : List BatchRouteItem) :
    (checkItems requests).SparesMetrics := by
  induction requests with
  | nil => exact fun _ => rfl
  | cons item rest ih =>
      exact (App.sparesMetrics_check _).bind fun _ =>
        App.SparesMetrics.bind (fun _ => rfl) fun _ => ih

omit [Rounding] in
theorem sparesMetrics_checks [HeaderText] (headers : HeaderMap) (request : ApiCall) :
    (checks headers request).SparesMetrics := by
  have key : (checkApiKey headers).SparesMetrics := fun _ => rfl
  have tenant (tenant : TenantId) : (checkTenant tenant).SparesMetrics := fun _ => rfl
  cases request with
  | metrics => exact key
  | batch requests =>
      exact (App.sparesMetrics_check _).bind fun _ => key.bind fun _ =>
        sparesMetrics_checkItems requests
  | _ => exact (App.sparesMetrics_check _).bind fun _ => key.bind fun _ => tenant _

end

end AppState

/-- A request makes its next call, or somebody else uses the router. -/
inductive SidecarAction where
  | request (client : ClientId)
  | operate (op : Op)

section

variable [Rounding]

def SidecarAction.turn : SidecarAction → Turn AppState
  | request client => .served client
  | operate op => .changed fun state => { state with router := state.router.step op }

variable [HeaderText] (render : Json → String)

abbrev Requests := Clients sidecarInterface AppState (Except SidecarError Body)

/-- A run of a sidecar that has counted nothing yet. -/
def AppState.serveRequests (state : AppState) (tasks : ClientId → SidecarTask)
    (actions : List SidecarAction) : Requests :=
  run (Clients.turn fun client => AppState.serveCall render (tasks client))
    (Clients.start { state with metrics := {} } fun client => (tasks client).program)
    (actions.map SidecarAction.turn)

/-- The decisions that have been counted, in order. -/
def Requests.records (requests : Requests) : List RouteRecord :=
  requests.log.filterMap fun entry => recordedRoute entry.2

/-- The metrics remember the last path of each tenant, and every decision has been counted
by what was remembered then. -/
structure Remembers (metrics : Metrics) (records : List RouteRecord) : Prop where
  last : ∀ tenant, (metrics.perTenant.getOrDefault tenant).lastSuccessfulPath =
    (lastSuccess (fun query => query.tenant = tenant) records).map Prod.snd
  judged : ∀ before record after, records = before ++ record :: after → record.Judged before

omit [Rounding] [HeaderText] in
theorem remembers_new : Remembers {} [] where
  last _ := rfl
  judged before _ _ split := by simp at split

omit [Rounding] [HeaderText] in
/-- What `record_route` does to what is remembered. -/
theorem Remembers.recordRoute {metrics : Metrics} {records : List RouteRecord}
    (remembers : Remembers metrics records) (query : RouteQuery) (decision : RouteDecision)
    (latency : Duration) (router : Router) :
    let counted := metrics.recordRoute query.tenant decision latency router
    Remembers counted.1 (records ++ [⟨query, decision, counted.2⟩]) := by
  intro counted
  constructor
  · intro tenant
    have own : (counted.1.perTenant.getOrDefault tenant).lastSuccessfulPath =
        if query.tenant = tenant then
          (decision.path.or (metrics.perTenant.getOrDefault tenant).lastSuccessfulPath)
        else (metrics.perTenant.getOrDefault tenant).lastSuccessfulPath := by
      show (HashMap.getOrDefault (metrics.perTenant.insert query.tenant _)
        tenant).lastSuccessfulPath = _
      unfold HashMap.getOrDefault
      rw [HashMap.lookup_insert_eq]
      by_cases same : query.tenant = tenant
      · subst same
        rw [if_pos rfl, if_pos rfl]
        cases decision <;> rfl
      · rw [if_neg same, if_neg (Ne.symm same)]
    rw [own, lastSuccess_concat, remembers.last]
    cases decision.path with
    | none => simp
    | some path => by_cases same : query.tenant = tenant <;> simp [same]
  · intro before record after split
    rcases after.eq_nil_or_concat with rfl | ⟨rest, last, rfl⟩
    · obtain ⟨rfl, same⟩ := List.append_inj' split rfl
      obtain rfl := (List.cons.inj same).1
      have path := remembers.last query.tenant
      unfold RouteRecord.Judged RouteRecord.lastOfTenant
      show ((metrics.perTenant.getOrDefault query.tenant).outcome query.tenant router
        decision).rerouted = true ↔ _
      cases decision with
      | escalate context => simp [TenantMetrics.outcome]
      | routed route =>
          dsimp only [TenantMetrics.outcome]
          rw [path]
          cases lastSuccess (fun query' => query'.tenant = query.tenant) records with
          | none => simp
          | some last => simp [and_comm]
    · rw [List.concat_eq_append, ← List.cons_append, ← List.append_assoc] at split
      obtain ⟨rfl, -⟩ := List.append_inj' split rfl
      exact remembers.judged before record rest rfl

variable (state : AppState) (tasks : ClientId → SidecarTask) (actions : List SidecarAction)

theorem remembers_serveRequests :
    let requests := state.serveRequests render tasks actions
    Remembers requests.state.metrics requests.records := by
  refine Clients.turns_induction (P := fun (state : AppState) log =>
    Remembers state.metrics (log.filterMap fun entry => recordedRoute entry.2)) ?_ ?_ ?_
  · exact remembers_new
  · intro client state log c remembers
    rw [List.filterMap_append]
    have silent {served : AppState} (same : served.metrics = state.metrics) :
        Remembers served.metrics ((log.filterMap fun entry => recordedRoute entry.2) ++ []) := by
      rwa [same, List.append_nil]
    cases c with
    | authorize request =>
        exact silent ((AppState.sparesMetrics_checks (tasks client).headers request).bind
          (fun _ => AppState.sparesMetrics_acquireTokens _) state)
    | recordRoute query decision latency =>
        exact remembers.recordRoute query decision latency state.router
    | _ => exact silent rfl
  · intro change mem state log remembers
    obtain ⟨action, -, same⟩ := List.mem_map.mp mem
    cases action with
    | request client => cases same
    | operate op =>
        cases same
        exact remembers

/-- **A reroute is genuine as long as no decision is confused with one for another pair**, and
no longer. -/
theorem reroutesGenuine_iff :
    let records := (state.serveRequests render tasks actions).records
    (∀ before record after, records = before ++ record :: after →
      record.outcome.rerouted = true → record.PathChanged before) ↔
      ∀ before record after, records = before ++ record :: after → ¬ record.Confused before := by
  intro records
  have remembers := remembers_serveRequests render state tasks actions
  refine forall_congr' fun before => forall_congr' fun record => forall_congr' fun after => ?_
  exact forall_congr' fun split => (remembers.judged before record after split).genuine_iff

end

/-- A tenant asks for the way to `b` and then, for the first time, for the way to `c`. -/
theorem not_reroutesGenuine :
    let _ := Rounding.nearestEven
    let _ := HeaderText.visibleAscii
    ¬ ∀ (state : AppState) (tasks : ClientId → SidecarTask) (actions : List SidecarAction),
      ∀ before record after,
        (state.serveRequests (fun _ => "") tasks actions).records = before ++ record :: after →
        record.outcome.rerouted = true → record.PathChanged before := by
  intro _ _ genuine
  let edges : List Op := [.addEdge "acme" (.new "a" "b"), .addEdge "acme" (.new "a" "c")]
  let state : AppState := { AppState.sample with router := run Router.step .new edges }
  let ask (goal : NodeId) : SidecarTask :=
    ⟨default, [("x-api-key", asBytes "key")], .route ⟨"acme", "a", goal⟩⟩
  let tasks (client : ClientId) : SidecarTask := if client = 0 then ask "b" else ask "c"
  let actions := (List.replicate 5 0 ++ List.replicate 5 1).map SidecarAction.request
  let records := (state.serveRequests (fun _ => "") tasks actions).records
  have counted : (records[1]?.any fun second =>
      second.outcome.rerouted && (second.lastOfPair (records.take 1)).isNone) = true := by
    decide +kernel
  obtain ⟨second, found, judged⟩ := (Option.any_eq_true _ _).mp counted
  obtain ⟨rerouted, unasked⟩ := (Bool.and_eq_true _ _).mp judged
  obtain ⟨below, isSecond⟩ := List.getElem?_eq_some_iff.mp found
  have split : records = records.take 1 ++ second :: records.drop 2 := by
    rw [← isSecond, ← List.drop_eq_getElem_cons below, List.take_append_drop]
  obtain ⟨path, last, -, ofPair, -⟩ := genuine state tasks actions _ second _ split rerouted
  rw [Option.isNone_iff_eq_none.mp unasked] at ofPair
  cases ofPair

end TrustRouter
