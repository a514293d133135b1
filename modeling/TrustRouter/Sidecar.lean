import TrustRouter.AuditTrail
import TrustRouter.Planner

/-!
# The sidecar

The handlers of `/route`, `/plan` and `/route/batch`, from the point where a request has
been authorized and its identifiers and size have been checked: a request refused before
that touches neither the router nor the audit file.  Metrics and telemetry are left out
for the same reason, and so is the time a batch took.

The handlers run next to each other and to the handlers of `/result` and
`/force-half-open`, which are one call of the router each, and to the recovery loop.
`Sidecar.step` is one step of this: a new request, the next call of one handler, or an
operation of the others.

An event is told from an equal one by its place among all pushes (`PushedEvent`).  The
places, the history of pushes and the events whose lines have been written are history
variables.  No handler can look at them, and nothing the sidecar does depends on them.
-/

namespace TrustRouter

/-! ## Requests and responses -/

inductive SidecarError where
  | badRequest (message : String)
  | unauthorized
  | forbidden
  | rateLimited (retryAfterSecs : ℕ)
  | internal (message : String)
  deriving DecidableEq

structure RouteQuery where
  tenant : TenantId
  start : NodeId
  goal : NodeId

structure BatchRouteItem where
  tenant : TenantId
  start : NodeId
  goal : NodeId

structure ResultQuery where
  tenant : TenantId
  node : NodeId
  success : Bool
  latencyMs : ℕ

structure ForceHalfOpenQuery where
  tenant : TenantId
  node : NodeId

inductive RouteResponse where
  | routed (path : List NodeId) (totalCost : F64) (cacheHit : Bool)
  | escalate (reason : String) (failedOrBlockedNodes : List NodeId)

def RouteResponse.fromDecision : RouteDecision → RouteResponse
  | .routed route => .routed route.nodes route.totalCost route.cacheHit
  | .escalate context => .escalate context.reason.debug context.failedOrBlockedNodes

inductive PlanResponse where
  | execute (schemaVersion : ℕ) (path : List NodeId) (totalCost : F64) (cacheHit : Bool)
      (steps : List NodeId)
  | recover (reason : String) (failedOrBlockedNodes : List NodeId) (recoverySteps : List String)

def PlanResponse.fromOutcome : PlanOutcome → PlanResponse
  | .execute plan =>
      .execute plan.schemaVersion plan.candidate.nodes plan.candidate.score
        plan.snapshot.cacheHit (plan.steps.map ExecutionStep.node)
  | .recover _ escalation recovery =>
      .recover escalation.reason.debug escalation.failedOrBlockedNodes recovery.steps

structure BatchRouteResponse where
  results : List RouteResponse
  totalRouted : ℕ
  totalEscalated : ℕ

/-- A request with decisions in its response. -/
inductive Request where
  | route (query : RouteQuery)
  | plan (query : RouteQuery)
  | batch (requests : List BatchRouteItem)

/-- The body of a successful response. -/
inductive Response where
  | route (response : RouteResponse)
  | plan (response : PlanResponse)
  | batch (response : BatchRouteResponse)

/-! ## Handlers -/

section

variable [Rounding] {ε : Type}

def persistBeforeResponse (event : ε) : ExceptT SidecarError (Handler ε) Unit := do
  match ← (Handler.callAppendEventsJsonl [event] : Handler ε _) with
  | .ok _ => return ()
  | .error error => throw (.internal s!"audit persistence failed: {error}")

def handleRoute (query : RouteQuery) : ExceptT SidecarError (Handler ε) RouteResponse := do
  let decision ← (Handler.callRoute query.tenant query.start query.goal : Handler ε _)
  match ← (Handler.callLastAuditEvent : Handler ε _) with
  | none => throw (.internal "route did not create an audit event")
  | some event =>
      persistBeforeResponse event
      return .fromDecision decision

def handlePlan (query : RouteQuery) : ExceptT SidecarError (Handler ε) PlanResponse := do
  let outcome ← ExceptT.adapt (fun error => .badRequest error.display)
    (Planner.new.plan ⟨query.tenant, query.start, query.goal⟩)
  match ← (Handler.callLastAuditEvent : Handler ε _) with
  | none => throw (.internal "planner did not create an audit event")
  | some event =>
      persistBeforeResponse event
      return .fromOutcome outcome

/-- What the loop over a batch has collected. -/
structure BatchProgress (ε : Type) where
  results : List RouteResponse := []
  totalRouted : ℕ := 0
  totalEscalated : ℕ := 0
  newAuditEvents : List ε := []

def BatchProgress.record (progress : BatchProgress ε) (decision : RouteDecision)
    (event : Option ε) : BatchProgress ε where
  results := progress.results ++ [.fromDecision decision]
  totalRouted :=
    match decision with
    | .routed _ => progress.totalRouted + 1
    | .escalate _ => progress.totalRouted
  totalEscalated :=
    match decision with
    | .routed _ => progress.totalEscalated
    | .escalate _ => progress.totalEscalated + 1
  newAuditEvents := progress.newAuditEvents ++ event.toList

/-- The loop over the items of a batch. -/
def routeItems : List BatchRouteItem → BatchProgress ε → Handler ε (BatchProgress ε)
  | [], progress => return progress
  | item :: rest, progress => do
      let decision ← Handler.callRoute item.tenant item.start item.goal
      let event ← Handler.callLastAuditEvent
      routeItems rest (progress.record decision event)

def batchRouteHandler (requests : List BatchRouteItem) :
    ExceptT SidecarError (Handler ε) BatchRouteResponse := do
  let progress ← (routeItems requests {} : Handler ε _)
  match ← (Handler.callAppendEventsJsonl progress.newAuditEvents : Handler ε _) with
  | .error error => throw (.internal s!"batch audit persistence failed: {error}")
  | .ok _ =>
      return {
        results := progress.results
        totalRouted := progress.totalRouted
        totalEscalated := progress.totalEscalated }

/-- The handler of a request. -/
def Request.handler : Request → Handler ε (Except SidecarError Response)
  | route query => (Response.route <$> handleRoute query).run
  | plan query => (Response.plan <$> handlePlan query).run
  | batch requests => (Response.batch <$> batchRouteHandler requests).run

/-! ### By itself, every handler persists its events -/

theorem persists_handleRoute (query : RouteQuery) :
    ((Request.route query).handler : Handler ε _).Persists [] [] :=
  ⟨rfl, fun _ event => ⟨event, rfl, rfl, fun _ => ⟨_, rfl⟩, fun _ => ⟨_, rfl⟩⟩⟩

theorem persists_handlePlan (query : RouteQuery) :
    ((Request.plan query).handler : Handler ε _).Persists [] [] := by
  show ((Response.plan <$> handlePlan query).run : Handler ε _).Persists [] []
  unfold handlePlan Planner.plan
  cases PlanningRequest.validate ⟨query.tenant, query.start, query.goal⟩ with
  | error error => exact trivial
  | ok _ =>
      refine ⟨rfl, fun decision event => ?_⟩
      cases decision with
      | escalate context => exact ⟨event, rfl, rfl, fun _ => ⟨_, rfl⟩, fun _ => ⟨_, rfl⟩⟩
      | routed route =>
          simp only [Handler.bind, Function.comp_apply, ExceptT.bindCont]
          -- a route that makes no plan is refused before its event is asked for
          cases Planner.new.executionPlan ⟨query.tenant, query.start, query.goal⟩ route with
          | error error => exact trivial
          | ok outcome => exact ⟨event, rfl, rfl, fun _ => ⟨_, rfl⟩, fun _ => ⟨_, rfl⟩⟩

omit [Rounding] in
/-- The loop over a batch keeps up: after each item it has been given the events of all
its decisions. -/
theorem persists_routeItems {α κ : Type} {next : BatchProgress ε → Handler ε (Except κ α)}
    (rest : ∀ progress, (next progress).Persists progress.newAuditEvents progress.newAuditEvents)
    (items : List BatchRouteItem) (progress : BatchProgress ε) :
    ((routeItems items progress).bind next).Persists progress.newAuditEvents
      progress.newAuditEvents := by
  induction items generalizing progress with
  | nil => exact rest progress
  | cons item items ih =>
      exact ⟨rfl, fun decision event =>
        ⟨event, rfl, ih (progress.record decision (some event))⟩⟩

theorem persists_batchRouteHandler (requests : List BatchRouteItem) :
    ((Request.batch requests).handler : Handler ε _).Persists [] [] := by
  show ((Response.batch <$> batchRouteHandler requests).run : Handler ε _).Persists [] []
  unfold batchRouteHandler
  show ((((routeItems requests {}).bind _).bind _).bind _).Persists [] []
  rw [Handler.bind_assoc, Handler.bind_assoc]
  refine persists_routeItems (fun progress => ?_) requests {}
  exact ⟨rfl, fun _ => ⟨_, rfl⟩, fun _ => ⟨_, rfl⟩⟩

/-- **By itself every handler persists its own events.** -/
theorem Request.persists_handler (request : Request) :
    (request.handler : Handler ε _).Persists [] [] := by
  cases request with
  | route query => exact persists_handleRoute query
  | plan query => exact persists_handlePlan query
  | batch requests => exact persists_batchRouteHandler requests

end

/-! ## The sidecar -/

/-- An event and its place among all events pushed. -/
structure PushedEvent where
  place : ℕ
  event : AuditEvent
  deriving DecidableEq

/-- How far a request has got. -/
inductive TaskStatus where
  | running (program : Handler PushedEvent (Except SidecarError Response))
  | responded (answer : Except SidecarError Response)

/-- A request that is being served or has been, with the events of the decisions made
for it so far. -/
structure Task where
  status : TaskStatus
  decided : List PushedEvent

abbrev TaskId := ℕ

structure Sidecar where
  router : Router
  /-- The lines of the audit file. -/
  file : List String
  tasks : TaskId → Option Task
  /-- Every event pushed so far. -/
  trail : List AuditEvent
  /-- The events whose lines the handlers have written, in order. -/
  written : List PushedEvent

/-- One step: a request arrives, its handler makes its next call or sends its response, a
result is reported, a node is forced half-open, or the recovery loop ticks. -/
inductive SidecarStep where
  | arrive (id : TaskId) (request : Request)
  /-- `fault` is the failure of a write, if the call is one that fails. -/
  | advance (id : TaskId) (fault : Option (ℕ × String))
  | result (query : ResultQuery) (now : Instant)
  | forceHalfOpen (query : ForceHalfOpenQuery)
  | recoveryTick (cooldown : Duration) (now : Instant)
      (order : IterationOrder (TenantId × NodeId))

namespace Sidecar

variable [Rounding]

/-- A sidecar whose router has been set up by some operations, and whose audit file has
some lines already. -/
def start (setup : List Op) (file : List String) : Sidecar where
  router := run Router.step Router.new setup
  file := file
  tasks := fun _ => none
  trail := RouterState.trail setup
  written := []

omit [Rounding] in
def setTask (sidecar : Sidecar) (id : TaskId) (task : Task) : Sidecar :=
  { sidecar with tasks := Function.update sidecar.tasks id (some task) }

/-- A call of a `Router` method. -/
def perform (sidecar : Sidecar) (op : Op) : Sidecar :=
  { sidecar with
    router := sidecar.router.step op
    trail := sidecar.trail ++ (sidecar.router.inner.perform op).pushed }

omit [Rounding] in
/-- The last audit event, with its place. -/
def lastAuditEvent (sidecar : Sidecar) : Option PushedEvent :=
  sidecar.router.lastAuditEvent.map fun event => ⟨sidecar.trail.length - 1, event⟩

variable (render : Json → String)

omit [Rounding] in
/-- A call of `append_events_jsonl`. -/
def append (sidecar : Sidecar) (fault : Option (ℕ × String)) (events : List PushedEvent) :
    Sidecar × Except String ℕ :=
  let result := appendEventsJsonl render fault sidecar.file (events.map PushedEvent.event)
  let written := match fault with
    | none => events
    | some (k, _) => events.take k
  ({ sidecar with file := result.1, written := sidecar.written ++ written }, result.2)

/-- The next call of a handler, or its response. -/
def advance (sidecar : Sidecar) (id : TaskId) (task : Task) (fault : Option (ℕ × String)) :
    Sidecar :=
  match task.status with
  | .running (.done answer) => sidecar.setTask id { task with status := .responded answer }
  | .running (.route tenantId start goal next) =>
      let decision := (sidecar.router.inner.route tenantId start goal).answer
      (sidecar.perform (.route tenantId start goal)).setTask id
        { status := .running (next decision)
          decided := task.decided ++
            [⟨sidecar.trail.length, decision.event tenantId start goal⟩] }
  | .running (.lastAuditEvent next) =>
      sidecar.setTask id { task with status := .running (next sidecar.lastAuditEvent) }
  | .running (.appendEventsJsonl events next) =>
      let result := sidecar.append render fault events
      result.1.setTask id { task with status := .running (next result.2) }
  | .responded _ => sidecar

def step (sidecar : Sidecar) : SidecarStep → Sidecar
  | .arrive id request =>
      match sidecar.tasks id with
      | none => sidecar.setTask id { status := .running request.handler, decided := [] }
      | some _ => sidecar
  | .advance id fault =>
      match sidecar.tasks id with
      | none => sidecar
      | some task => sidecar.advance render id task fault
  | .result query now =>
      sidecar.perform
        (.recordResult query.tenant query.node query.success query.latencyMs now)
  | .forceHalfOpen query => sidecar.perform (.forceHalfOpen query.tenant query.node)
  | .recoveryTick cooldown now order =>
      sidecar.perform (.runRecoveryProbeOnce cooldown now order)

end Sidecar

end TrustRouter
