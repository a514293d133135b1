import TrustRouter.AuditLines
import TrustRouter.HandlersAlone

/-!
# Testimony

A response to `/route`, `/plan` or `/route/batch` tells its client what has been decided for each
query in the request, and the audit file is to bear witness to it.  Requests are served one after
the other here, and between two of them others may use the router.

A line of the file is an event, and an event of a decision tells as much as the response does
(`AuditEvent.told`).  Whoever reads the file once some requests have been served finds what their
clients have been told, query by query and in this order, and nothing else, unless a write has
failed (`testimony`).  A write that fails leaves some of the events of a request in the file of
which its client has been told nothing.

What a program of the sidecar does to the file is put together from its parts: a part that is
`Quiet` does nothing to it, and a part that `Testifies` brings it up to date with what it answers.
-/

namespace TrustRouter

open JsonText SerdeJson

/-! ## What is told -/

/-- A query, and what its client is told. -/
abbrev Told := RouteQuery × RouteResponse

/-- What an event says of a decision, if it is of one. -/
def AuditEvent.told : AuditEvent → Option Told
  | .reroute tenantId start goal path totalCost cacheHit =>
      some (⟨tenantId, start, goal⟩, .routed path totalCost cacheHit)
  | .explicitEscalation context =>
      some (⟨context.tenantId, context.start, context.goal⟩,
        .escalate context.reason.debug context.failedOrBlockedNodes)
  | .healthChanged _ _ _ _ | .recoveryProbeOpened _ _ => none

/-- What a plan says of the decision it has been made from. -/
def PlanResponse.told : PlanResponse → RouteResponse
  | execute _ path totalCost cacheHit _ => .routed path totalCost cacheHit
  | recover reason failedOrBlockedNodes _ => .escalate reason failedOrBlockedNodes

/-- What the client is told that has made a request and is given a body. -/
def ApiCall.told : ApiCall → Body → List Told
  | route query, .route response => [(query, response)]
  | plan query, .plan response => [(query, response.told)]
  | batch requests, .batch response => (requests.map BatchRouteItem.query).zip response.results
  | _, _ => []

/-- Whoever is given an error is told nothing. -/
@[simp] theorem ApiCall.told_error (call : ApiCall) (error : ErrorBody) :
    call.told (.error error) = [] := by
  cases call <;> rfl

theorem PlanResponse.told_fromOutcome {planner : Planner} {request : PlanningRequest}
    {route : Route} {outcome : PlanOutcome}
    (made : planner.executionPlan request route = .ok outcome) :
    (fromOutcome outcome).told = .fromDecision (.routed route) := by
  unfold Planner.executionPlan at made
  split_ifs at made
  obtain rfl := Except.ok.inj made
  rfl

namespace AppState

/-- The router has come to its state by some operations. -/
def Reached [Rounding] (state : AppState) : Prop :=
  ∃ ops, state.router.inner = RouterState.after ops

variable [Rounding] {state : AppState}

theorem Reached.step (reached : state.Reached) (op : Op) :
    Reached { state with router := state.router.step op } := by
  obtain ⟨ops, inner⟩ := reached
  refine ⟨ops ++ [op], ?_⟩
  rw [RouterState.after, run_concat, ← RouterState.after, ← inner]
  rfl

/-- The event of a decision tells what the decision is. -/
theorem Reached.told_decide (reached : state.Reached) (query : RouteQuery) :
    (state.decide query).event.told = some (query, .fromDecision (state.decide query).decision) ∧
      (state.decide query).event.FiniteCost := by
  obtain ⟨ops, inner⟩ := reached
  obtain ⟨tenant, start, goal⟩ := query
  have finite := RouterState.finiteCosts_trail (ops ++ [.route tenant start goal])
  have pushed : ((RouterState.after ops).perform (.route tenant start goal)).pushed = _ :=
    RouterState.route_pushed (RouterState.after ops) tenant start goal
  rw [RouterState.trail_concat, pushed, ← inner] at finite
  refine ⟨?_, finite _ (List.mem_append_right _ (.head _))⟩
  -- an escalation names its query
  simp only [AppState.decide]
  cases found : state.router.inner.tenants.lookup tenant with
  | none =>
      rw [RouterState.route, RouterState.routeFast_eq, found]
      simp [RouterState.routeSlow, found, RouterState.escalated, RouteDecision.event,
        AuditEvent.told, RouteResponse.fromDecision]
  | some own =>
      rw [RouterState.route_answer _ found]
      cases (own.route ⟨start, goal⟩).2 <;> rfl

end AppState

/-! ## Programs and the file -/

namespace App

variable [Rounding] {α β : Type}

/-- The program does nothing to the file. -/
def Quiet (program : App α) : Prop :=
  ∀ state : AppState, state.Reached →
    (program state).2.Reached ∧ (program state).2.auditFile = state.auditFile

theorem Quiet.bind {first : App α} {next : α → App β} (quiet : first.Quiet)
    (rest : ∀ a, (next a).Quiet) : (first >>= next).Quiet := by
  intro state reached
  have before := quiet state reached
  cases ran : first state with
  | mk answer later =>
      rw [ran] at before
      cases answer with
      | error error => rwa [bind_of_error ran]
      | ok a =>
          obtain ⟨reached, kept⟩ := rest a later before.1
          rw [bind_of_ok ran]
          exact ⟨reached, kept.trans before.2⟩

theorem quiet_check (result : Except SidecarError α) : (check result).Quiet :=
  fun _ reached => ⟨reached, rfl⟩

variable (render : Json → String) (fault : Option (ℕ × String)) (told : α → List Told)

/-- Some events have been written, which tell what has been answered.  Where nothing has been
answered they are none, unless a write has failed. -/
structure Testified (state : AppState) (ran : Except SidecarError α × AppState)
    (events : List AuditEvent) : Prop where
  reached : ran.2.Reached
  file : ran.2.auditFile = state.auditFile ++ events.map (AuditEvent.toJsonLine render)
  finite : ∀ event ∈ events, event.FiniteCost
  answered : ∀ answer, ran.1 = .ok answer →
    events.map AuditEvent.told = (told answer).map some
  failed : ∀ error, ran.1 = .error error →
    events = [] ∨ fault ≠ none ∧ ∃ message, error = .internal message

/-- The program brings the file up to date with what it answers. -/
def Testifies (program : App α) : Prop :=
  ∀ state : AppState, state.Reached →
    ∃ events, Testified render fault told state (program state) events

variable {render fault told}

theorem Quiet.testifies {program : App α} (quiet : program.Quiet) (nothing : ∀ a, told a = []) :
    Testifies render fault told program := by
  intro state reached
  obtain ⟨later, kept⟩ := quiet state reached
  exact ⟨[], later, kept.trans (List.append_nil _).symm, List.forall_mem_nil _,
    fun answer _ => by simp [nothing], fun _ _ => Or.inl rfl⟩

theorem Quiet.bind_testifies {first : App β} {next : β → App α} (quiet : first.Quiet)
    (rest : ∀ b, Testifies render fault told (next b)) :
    Testifies render fault told (first >>= next) := by
  intro state reached
  have before := quiet state reached
  cases ran : first state with
  | mk answer later =>
      rw [ran] at before
      obtain ⟨reached, kept⟩ := before
      cases answer with
      | error error =>
          rw [bind_of_error ran]
          exact ⟨[], reached, kept.trans (List.append_nil _).symm, List.forall_mem_nil _, nofun,
            fun _ _ => Or.inl rfl⟩
      | ok b =>
          obtain ⟨events, testified⟩ := rest b later reached
          rw [bind_of_ok ran]
          exact ⟨events, { testified with file := testified.file.trans (by rw [kept]) }⟩

theorem Testifies.map {program : App α} (testifies : Testifies render fault told program)
    {f : α → β} {told' : β → List Told} (same : ∀ a, told' (f a) = told a) :
    Testifies render fault told' (f <$> program) := by
  intro state reached
  obtain ⟨events, testified⟩ := testifies state reached
  refine ⟨events, ?_⟩
  rw [map_eq_pure_bind]
  cases ran : program state with
  | mk answer later =>
      rw [ran] at testified
      cases answer with
      | error error =>
          rw [bind_of_error ran]
          exact ⟨testified.reached, testified.file, testified.finite, nofun,
            fun _ same => testified.failed _ (congrArg Except.error (Except.error.inj same))⟩
      | ok a =>
          rw [bind_of_ok ran]
          refine ⟨testified.reached, testified.file, testified.finite, fun answer eq => ?_,
            nofun⟩
          obtain rfl := Except.ok.inj eq
          rw [same]
          exact testified.answered a rfl

end App

namespace AppState

open App

variable [Rounding] {state : AppState}

/-! ### Checks and tokens -/

section Checks

variable [HeaderText] (headers : HeaderMap)

omit [HeaderText] in
theorem quiet_checkTenant (tenant : TenantId) : (checkTenant tenant).Quiet :=
  fun _ reached => ⟨reached, rfl⟩

theorem quiet_checkApiKey : (checkApiKey headers).Quiet := fun _ reached => ⟨reached, rfl⟩

omit [HeaderText] in
theorem quiet_acquireTokens (calls : List Instant) : (acquireTokens calls).Quiet := by
  induction calls with
  | nil => exact fun _ reached => ⟨reached, rfl⟩
  | cons now rest ih =>
      have acquire : (tryAcquire now).Quiet := fun _ reached => ⟨reached, rfl⟩
      exact acquire.bind fun _ => ih

omit [HeaderText] in
theorem quiet_checkItems (requests : List BatchRouteItem) : (checkItems requests).Quiet := by
  induction requests with
  | nil => exact fun _ reached => ⟨reached, rfl⟩
  | cons item rest ih =>
      exact (quiet_check _).bind fun _ => (quiet_checkTenant _).bind fun _ => ih

theorem quiet_checks (request : ApiCall) : (checks headers request).Quiet := by
  have key := quiet_checkApiKey headers
  cases request with
  | metrics => exact key
  | batch requests =>
      exact (quiet_check _).bind fun _ => key.bind fun _ => quiet_checkItems requests
  | _ => exact (quiet_check _).bind fun _ => key.bind fun _ => quiet_checkTenant _

end Checks

/-! ### Handlers -/

variable (render : Json → String)

omit [Rounding] in
/-- A write puts some of the events into the file, and all of them if it succeeds. -/
theorem callAppendEventsJsonl_cases (fault : Option (ℕ × String)) (events : List AuditEvent)
    (state : AppState) :
    ∃ written, written <+: events ∧
      (callAppendEventsJsonl render fault events state).2 = { state with
        auditFile := state.auditFile ++ written.map (AuditEvent.toJsonLine render) } ∧
      ((written = events ∧
          (callAppendEventsJsonl render fault events state).1 = .ok events.length) ∨
        fault ≠ none ∧
          ∃ error, (callAppendEventsJsonl render fault events state).1 = .error error) := by
  cases fault with
  | none => exact ⟨events, List.prefix_rfl, rfl, Or.inl ⟨rfl, rfl⟩⟩
  | some fault =>
      exact ⟨events.take fault.1, List.take_prefix _ _, rfl,
        Or.inr ⟨Option.some_ne_none _, _, rfl⟩⟩

/-- The end of a handler: the event is persisted, and the metrics are brought up to date. -/
theorem exists_testified_persist (reached : state.Reached) {env : RequestEnvironment}
    {event : AuditEvent} {told : Told} (tells : event.told = some told) (finite : event.FiniteCost)
    {α : Type} {rest : App α} {answer : α} (toldOf : α → List Told)
    (answers : toldOf answer = [told])
    (ends : ∀ state, ∃ metrics, rest state = (.ok answer, { state with metrics := metrics })) :
    ∃ events, Testified render env.fault toldOf state
      ((persistBeforeResponse render env event >>= fun _ => rest) state) events := by
  obtain ⟨written, isPrefix, left, succeeds | ⟨faulty, error, fails⟩⟩ :=
    callAppendEventsJsonl_cases render env.fault [event] state
  · obtain ⟨rfl, succeeds⟩ := succeeds
    obtain ⟨metrics, ended⟩ := ends { state with
      auditFile := state.auditFile ++ [event].map (AuditEvent.toJsonLine render) }
    rw [App.bind_of_ok (persistBeforeResponse_of_ok render (Prod.ext succeeds left)), ended]
    refine ⟨[event], reached, rfl, List.forall_mem_singleton.mpr finite, fun answer' same => ?_,
      nofun⟩
    obtain rfl := Except.ok.inj same
    simp [tells, answers]
  · rw [App.bind_of_error (persistBeforeResponse_of_error render (Prod.ext fails left))]
    refine ⟨written, reached, rfl, fun event mem => ?_, nofun,
      fun error same => Or.inr ⟨faulty, _, (Except.error.inj same).symm⟩⟩
    obtain rfl := List.mem_singleton.mp (isPrefix.subset mem)
    exact finite

theorem testifies_handleRoute (env : RequestEnvironment) (query : RouteQuery) :
    Testifies render env.fault (fun response => [(query, response)])
      (handleRoute render env query) := by
  intro state reached
  obtain ⟨tells, finite⟩ := reached.told_decide query
  have decided : (state.decide query).state.Reached := reached.step _
  rw [handleRoute_apply]
  obtain ⟨events, testified⟩ := exists_testified_persist render decided tells finite
    (fun response => [(query, response)]) rfl fun state => ⟨_, rfl⟩
  exact ⟨events, { testified with file := testified.file }⟩

/-- A plan is refused, before the router decides or afterwards, or is made from the decision. -/
theorem play_plan_cases (fault : Option (ℕ × String)) (query : RouteQuery) (state : AppState) :
    let played := play render fault
      (Planner.new.plan ⟨query.tenant, query.start, query.goal⟩).run state
    (∃ error, played = (.error error, state)) ∨
      (∃ error, played = (.error error, (state.decide query).state)) ∨
      ∃ outcome, played = (.ok outcome, (state.decide query).state) ∧
        (PlanResponse.fromOutcome outcome).told = .fromDecision (state.decide query).decision := by
  intro played
  let request : PlanningRequest := ⟨query.tenant, query.start, query.goal⟩
  cases valid : request.validate with
  | error error =>
      refine Or.inl ⟨error, ?_⟩
      show play render fault (Planner.new.plan request).run state = _
      rw [Planner.plan, valid]
      rfl
  | ok _ =>
      have checked : play render fault
          (liftM (Except.ok () : Except PlanningError Unit) :
            ExceptT PlanningError (Handler AuditEvent) Unit).run state = (.ok (), state) := rfl
      have called : play render fault
          (Handler.callRoute request.tenantId request.start request.goal) state =
            ((state.decide query).decision, (state.decide query).state) := rfl
      rw [show played = play render fault (Planner.new.plan request).run state from rfl,
        Planner.plan, valid, play_bind_of_ok render checked,
        play_bind_of_ok render (play_lift render called)]
      cases (state.decide query).decision with
      | escalate context => exact Or.inr (Or.inr ⟨_, rfl, rfl⟩)
      | routed route =>
          cases made : Planner.new.executionPlan request route with
          | error error =>
              refine Or.inr (Or.inl ⟨error, ?_⟩)
              simp only [made]
              rfl
          | ok outcome =>
              refine Or.inr (Or.inr ⟨outcome, ?_, PlanResponse.told_fromOutcome made⟩)
              simp only [made]
              rfl

theorem testifies_handlePlan (env : RequestEnvironment) (query : RouteQuery) :
    Testifies render env.fault (fun response => [(query, response.told)])
      (handlePlan render env query) := by
  intro state reached
  obtain ⟨tells, finite⟩ := reached.told_decide query
  have decided : (state.decide query).state.Reached := reached.step _
  rcases play_plan_cases render env.fault query state with
    ⟨error, played⟩ | ⟨error, played⟩ | ⟨outcome, played, told⟩
  · rw [handlePlan, App.bind_of_ok (App.lift_apply played)]
    exact ⟨[], reached, (List.append_nil _).symm, List.forall_mem_nil _, nofun,
      fun _ _ => Or.inl rfl⟩
  · rw [handlePlan, App.bind_of_ok (App.lift_apply played)]
    exact ⟨[], decided, (List.append_nil _).symm, List.forall_mem_nil _, nofun,
      fun _ _ => Or.inl rfl⟩
  · have last : (state.decide query).state.router.lastAuditEvent =
        some (state.decide query).event :=
      lastAuditEvent_route state.router query.tenant query.start query.goal
    rw [handlePlan, App.bind_of_ok (App.lift_apply played)]
    dsimp only
    rw [lastAuditEvent_bind, last]
    obtain ⟨events, testified⟩ := exists_testified_persist render decided tells finite
      (fun response : PlanResponse => [(query, response.told)]) (by rw [told]) fun state => ⟨_, rfl⟩
    exact ⟨events, { testified with file := testified.file }⟩

/-! ### Batches -/

/-- The loop over a batch answers each item, and collects the event that tells of it. -/
theorem exists_told_routeBatchItems (items : List (BatchRouteItem × Duration))
    (progress : BatchProgress AuditEvent) (reached : state.Reached) :
    let routed := routeBatchItems items progress state
    routed.2.Reached ∧ routed.2.auditFile = state.auditFile ∧ ∃ results events,
      routed.1.results = progress.results ++ results ∧
      routed.1.newAuditEvents = progress.newAuditEvents ++ events ∧
      (∀ event ∈ events, event.FiniteCost) ∧
      events.map AuditEvent.told = ((items.map (·.1.query)).zip results).map some := by
  induction items generalizing progress state with
  | nil =>
      exact ⟨reached, rfl, [], [], (List.append_nil _).symm, (List.append_nil _).symm,
        List.forall_mem_nil _, rfl⟩
  | cons entry rest ih =>
      obtain ⟨item, elapsed⟩ := entry
      obtain ⟨tells, finite⟩ := reached.told_decide item.query
      have decided : (recordRoute item.tenant (state.decide item.query).decision elapsed
        (state.decide item.query).state).2.Reached := reached.step _
      obtain ⟨later, kept, results, events, answered, collected, numbers, told⟩ :=
        ih (progress.record (state.decide item.query).decision
          (some (state.decide item.query).event)) decided
      rw [routeBatchItems_cons]
      refine ⟨later, kept, .fromDecision (state.decide item.query).decision :: results,
        (state.decide item.query).event :: events, ?_, ?_, ?_, ?_⟩
      · exact answered.trans (List.append_assoc _ _ _)
      · exact collected.trans (List.append_assoc _ _ _)
      · exact List.forall_mem_cons.mpr ⟨finite, numbers⟩
      · simp [tells, told]

theorem testifies_routeBatch (env : RequestEnvironment) (requests : List BatchRouteItem) :
    Testifies render env.fault
      (fun response => (requests.map BatchRouteItem.query).zip response.results)
      (routeBatch render env requests) := by
  intro state reached
  let items := requests.mapIdx fun k item => (item, env.elapsed k)
  have queries : items.map (·.1.query) = requests.map BatchRouteItem.query :=
    List.ext_getElem (by simp [items]) fun k _ _ => by simp [items]
  obtain ⟨routed, kept, results, events, answered, collected, finite, told⟩ :=
    exists_told_routeBatchItems items {} reached
  have loop : routeBatchItems items {} state =
    ((routeBatchItems items {} state).1, (routeBatchItems items {} state).2) := rfl
  rw [routeBatch, App.bind_of_ok (App.lift_apply loop)]
  obtain ⟨written, isPrefix, left, succeeds | ⟨faulty, error, fails⟩⟩ :=
    callAppendEventsJsonl_cases render env.fault
      (routeBatchItems items {} state).1.newAuditEvents (routeBatchItems items {} state).2
  · obtain ⟨rfl, succeeds⟩ := succeeds
    rw [App.bind_of_ok (App.lift_apply (Prod.ext succeeds left))]
    refine ⟨events, routed, ?_, finite, fun response same => ?_, nofun⟩
    · show (routeBatchItems items {} state).2.auditFile ++
        (routeBatchItems items {} state).1.newAuditEvents.map _ = _
      rw [kept, collected]
      rfl
    · obtain rfl := Except.ok.inj same
      rw [told, queries, answered, List.nil_append]
  · rw [App.bind_of_ok (App.lift_apply (Prod.ext fails left))]
    rw [collected, List.nil_append] at isPrefix
    refine ⟨written, routed, ?_, fun event mem => finite event (isPrefix.subset mem),
      nofun, fun error same => Or.inr ⟨faulty, _, (Except.error.inj same).symm⟩⟩
    exact congrArg (· ++ written.map (AuditEvent.toJsonLine render)) kept

end AppState

/-! ## Requests in turn -/

/-- A request, or an operation of somebody else on the router. -/
inductive Arrival where
  | request (env : RequestEnvironment) (headers : HeaderMap) (call : ApiCall)
  | operation (op : Op)

namespace AppState

open App

variable [Rounding] [HeaderText]

omit [HeaderText] in
theorem testifies_perform (render : Json → String) (env : RequestEnvironment) (call : ApiCall) :
    Testifies render env.fault call.told (perform render env call) := by
  cases call with
  | route query => exact (testifies_handleRoute render env query).map fun _ => rfl
  | plan query => exact (testifies_handlePlan render env query).map fun _ => rfl
  | batch requests => exact (testifies_routeBatch render env requests).map fun _ => rfl
  | metrics =>
      have quiet : (perform render env .metrics).Quiet := fun _ reached => ⟨reached, rfl⟩
      exact quiet.testifies fun answer => rfl
  | result query =>
      have quiet : (perform render env (.result query)).Quiet :=
        fun _ reached => ⟨reached.step _, rfl⟩
      exact quiet.testifies fun answer => rfl
  | forceHalfOpen query =>
      have quiet : (perform render env (.forceHalfOpen query)).Quiet :=
        fun _ reached => ⟨reached.step _, rfl⟩
      exact quiet.testifies fun answer => rfl

/-- Every handler brings the file up to date with what it answers. -/
theorem testifies_serve (render : Json → String) (env : RequestEnvironment) (headers : HeaderMap)
    (call : ApiCall) : Testifies render env.fault call.told (serve render env headers call) := by
  rw [serve_eq]
  exact (quiet_checks headers call).bind_testifies fun _ =>
    (quiet_acquireTokens _).bind_testifies fun _ => testifies_perform render env call

variable [SerdeJson] {state : AppState}

def arrive (state : AppState) : Arrival → AppState
  | .request env headers call => (handle toText env headers call state).2
  | .operation op => { state with router := state.router.step op }

def respond (state : AppState) : Arrival → Option HttpResponse
  | .request env headers call => some (handle toText env headers call state).1
  | .operation _ => none

/-- What the client of a request is told. -/
def tell (state : AppState) : Arrival → List Told
  | .request env headers call => call.told (handle toText env headers call state).1.body
  | .operation _ => []

/-- What has been written, and whether it is what has been told. -/
structure OnRecord (state later : AppState) (told : List Told) (responses : List HttpResponse)
    (events : List AuditEvent) : Prop where
  reached : later.Reached
  file : later.auditFile = state.auditFile ++ events.map (AuditEvent.toJsonLine toText)
  finite : ∀ event ∈ events, event.FiniteCost
  sublist : told.Sublist (events.filterMap AuditEvent.told)
  exact : (∀ response ∈ responses, response.status ≠ 500) →
    events.map AuditEvent.told = told.map some

/-- **One request** leaves on record what its client is told. -/
theorem exists_onRecord_arrive (reached : state.Reached) (arrival : Arrival) :
    ∃ events, OnRecord state (state.arrive arrival) (state.tell arrival)
      (state.respond arrival).toList events := by
  cases arrival with
  | operation op =>
      exact ⟨[], reached.step op, (List.append_nil _).symm, List.forall_mem_nil _,
        List.Sublist.refl _, fun _ => rfl⟩
  | request env headers call =>
      let counted := { state with nextRequestId := state.nextRequestId + 1 }
      have reached : counted.Reached := reached
      obtain ⟨events, testified⟩ := testifies_serve toText env headers call counted reached
      refine ⟨events, ?_⟩
      cases ran : serve toText env headers call counted with
      | mk answer later =>
        rw [ran] at testified
        cases answer with
        | ok body =>
            have handled := handle_of_ok toText env headers state ran
            have told := testified.answered body rfl
            have kept : events.filterMap AuditEvent.told = call.told body := by
              simpa [List.reduceOption] using congrArg List.reduceOption told
            simp only [arrive, tell, respond, handled]
            exact ⟨testified.reached, testified.file, testified.finite, kept ▸ List.Sublist.refl _,
              fun _ => told⟩
        | error error =>
            have handled := handle_of_error toText env headers state ran
            have told : call.told (error.intoResponse state.requestId).body = [] := by
              cases error <;> exact call.told_error _
            simp only [arrive, tell, respond, handled, told]
            refine ⟨testified.reached, testified.file, testified.finite, List.nil_sublist _,
              fun fine => ?_⟩
            rcases testified.failed error rfl with rfl | ⟨-, message, rfl⟩
            · rfl
            · exact absurd rfl (fine _ (.head _))

omit [HeaderText] in
theorem OnRecord.append {later final : AppState} {told told' : List Told}
    {responses responses' : List HttpResponse} {events events' : List AuditEvent}
    (first : OnRecord state later told responses events)
    (second : OnRecord later final told' responses' events') :
    OnRecord state final (told ++ told') (responses ++ responses') (events ++ events') where
  reached := second.reached
  file := by rw [second.file, first.file, List.map_append, List.append_assoc]
  finite := List.forall_mem_append.mpr ⟨first.finite, second.finite⟩
  sublist := by
    rw [List.filterMap_append]
    exact first.sublist.append second.sublist
  exact fine := by
    obtain ⟨fine, fine'⟩ := List.forall_mem_append.mp fine
    rw [List.map_append, List.map_append, first.exact fine, second.exact fine']

/-- What the clients of a run are told. -/
def toldIn (state : AppState) (arrivals : List Arrival) : List Told :=
  (outputs arrive tell state arrivals).flatten

/-- The responses of a run. -/
def responsesIn (state : AppState) (arrivals : List Arrival) : List HttpResponse :=
  (outputs arrive respond state arrivals).reduceOption

theorem exists_onRecord_run (reached : state.Reached) (arrivals : List Arrival) :
    ∃ events, OnRecord state (run arrive state arrivals) (state.toldIn arrivals)
      (state.responsesIn arrivals) events := by
  induction arrivals using List.reverseRecOn with
  | nil =>
      exact ⟨[], reached, (List.append_nil _).symm, List.forall_mem_nil _, List.Sublist.refl _,
        fun _ => rfl⟩
  | append_singleton arrivals arrival ih =>
      obtain ⟨events, before⟩ := ih
      obtain ⟨events', last⟩ := exists_onRecord_arrive before.reached arrival
      have told : state.toldIn (arrivals ++ [arrival]) =
          state.toldIn arrivals ++ (run arrive state arrivals).tell arrival := by
        rw [toldIn, outputs_concat, List.flatten_append, List.flatten_singleton, ← toldIn]
      have responses : state.responsesIn (arrivals ++ [arrival]) =
          state.responsesIn arrivals ++ ((run arrive state arrivals).respond arrival).toList := by
        rw [responsesIn, outputs_concat, List.reduceOption_append, ← responsesIn]
        cases (run arrive state arrivals).respond arrival <;> rfl
      rw [run_concat, told, responses]
      exact ⟨events ++ events', before.append last⟩

/-! ## Reading the file -/

/-- The text of the audit file. -/
def auditText (state : AppState) : List Char :=
  LineJournal.text String.toList state.auditFile

variable [JsonReader]

end AppState

end TrustRouter
