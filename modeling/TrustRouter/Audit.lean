import TrustRouter.CostModel

/-!
# Decisions and the audit pipeline

What `route` answers, the events it and the health operations leave behind, the
ring buffer that keeps them in memory and the file they are appended to.

A line of the file is an event rendered as JSON.  `serde_json` is not part of the
repository, so the rendering of a JSON value is a parameter; nothing is asked of it.
-/

namespace TrustRouter

def auditEventMemoryLimit : ℕ := 10000

/-- A route, as found or as read from the cache. -/
structure Route where
  nodes : List NodeId
  totalCost : F64
  cacheHit : Bool
  deriving DecidableEq

inductive EscalationReason where
  | noFeasiblePath
  | tenantNotFound
  deriving DecidableEq

structure EscalationContext where
  tenantId : TenantId
  start : NodeId
  goal : NodeId
  reason : EscalationReason
  failedOrBlockedNodes : List NodeId
  deriving DecidableEq

inductive RouteDecision where
  | routed (route : Route)
  | escalate (context : EscalationContext)
  deriving DecidableEq

inductive AuditEvent where
  | reroute (tenantId : TenantId) (start goal : NodeId) (path : List NodeId) (totalCost : F64)
      (cacheHit : Bool)
  | explicitEscalation (context : EscalationContext)
  | healthChanged (tenantId : TenantId) (nodeId : NodeId) (state : NodeState)
      (stateChanged : Bool)
  | recoveryProbeOpened (tenantId : TenantId) (nodeId : NodeId)
  deriving DecidableEq

/-! ## Lines -/

/-- A JSON value, as the `json!` macro builds it, or as a structure is serialized. -/
inductive Json where
  | null
  | bool (value : Bool)
  | unsigned (value : ℕ)
  | number (value : F64)
  | string (value : String)
  | array (items : List Json)
  | object (fields : List (String × Json))

/-- The derived `Debug`. -/
def EscalationReason.debug : EscalationReason → String
  | noFeasiblePath => "NoFeasiblePath"
  | tenantNotFound => "TenantNotFound"

/-- The derived `Debug`. -/
def NodeState.debug : NodeState → String
  | healthy => "Healthy"
  | degraded => "Degraded"
  | «open» => "Open"
  | halfOpen => "HalfOpen"

namespace AuditEvent

/-- The value `to_json_line` serializes. -/
def toJson : AuditEvent → Json
  | reroute tenantId start goal path totalCost cacheHit =>
      .object
        [("event", .string "reroute"),
          ("tenant_id", .string tenantId),
          ("start", .string start),
          ("goal", .string goal),
          ("path", .array (path.map Json.string)),
          ("total_cost", .number totalCost),
          ("cache_hit", .bool cacheHit)]
  | explicitEscalation context =>
      .object
        [("event", .string "explicit_escalation"),
          ("tenant_id", .string context.tenantId),
          ("start", .string context.start),
          ("goal", .string context.goal),
          ("reason", .string context.reason.debug),
          ("failed_or_blocked_nodes", .array (context.failedOrBlockedNodes.map Json.string))]
  | healthChanged tenantId nodeId state stateChanged =>
      .object
        [("event", .string "health_changed"),
          ("tenant_id", .string tenantId),
          ("node_id", .string nodeId),
          ("state", .string state.debug),
          ("state_changed", .bool stateChanged)]
  | recoveryProbeOpened tenantId nodeId =>
      .object
        [("event", .string "recovery_probe_opened"),
          ("tenant_id", .string tenantId),
          ("node_id", .string nodeId)]

def toJsonLine (render : Json → String) (event : AuditEvent) : String := render event.toJson

end AuditEvent

/-- `append_events_jsonl`: the lines of the file afterwards, and the number of
events written.  `fault = some (k, error)` is a run in which an I/O operation fails
with `error` once `k` lines have been written. -/
def appendEventsJsonl (render : Json → String) (fault : Option (ℕ × String))
    (file : List String) (events : List AuditEvent) : List String × Except String ℕ :=
  match fault with
  | none => (file ++ events.map (AuditEvent.toJsonLine render), .ok events.length)
  | some (k, error) =>
      (file ++ (events.take k).map (AuditEvent.toJsonLine render), .error error)

/-! ## The ring buffer -/

structure AuditPipeline where
  events : List AuditEvent
  capacity : ℕ
  /-- A buffer that can hold anything never holds more than its capacity. -/
  bounded : 0 < capacity → events.length ≤ capacity

namespace AuditPipeline

def new (capacity : ℕ) : AuditPipeline where
  events := []
  capacity := capacity
  bounded := fun _ => Nat.zero_le _

def push (pipeline : AuditPipeline) (event : AuditEvent) : AuditPipeline where
  events := Ring.push pipeline.capacity pipeline.events event
  capacity := pipeline.capacity
  bounded := fun pos => Ring.length_push_le pos (pipeline.bounded pos) event

def lastEvent (pipeline : AuditPipeline) : Option AuditEvent := pipeline.events.getLast?

/-- The pushes of one operation, in order. -/
def pushAll (pipeline : AuditPipeline) (events : List AuditEvent) : AuditPipeline :=
  events.foldl push pipeline

@[simp] theorem capacity_pushAll (pipeline : AuditPipeline) (events : List AuditEvent) :
    (pipeline.pushAll events).capacity = pipeline.capacity := by
  unfold pushAll
  induction events generalizing pipeline with
  | nil => rfl
  | cons event events ih => exact ih (pipeline.push event)

theorem events_pushAll (pipeline : AuditPipeline) (events : List AuditEvent) :
    (pipeline.pushAll events).events =
      events.foldl (Ring.push pipeline.capacity) pipeline.events := by
  unfold pushAll
  induction events generalizing pipeline with
  | nil => rfl
  | cons event events ih => exact ih (pipeline.push event)

/-- The pipeline is a router's, and has been pushed this history. -/
structure Holds (pipeline : AuditPipeline) (history : List AuditEvent) : Prop where
  capacity : pipeline.capacity = auditEventMemoryLimit
  events : pipeline.events = Ring.latest auditEventMemoryLimit history

theorem holds_new : (new auditEventMemoryLimit).Holds [] := ⟨rfl, rfl⟩

/-- **The pipeline holds the latest of its history**, whatever is pushed. -/
theorem Holds.pushAll {pipeline : AuditPipeline} {history : List AuditEvent}
    (holds : pipeline.Holds history) (events : List AuditEvent) :
    (pipeline.pushAll events).Holds (history ++ events) where
  capacity := (capacity_pushAll _ _).trans holds.capacity
  events := by
    have pos : 0 < auditEventMemoryLimit := by decide
    rw [events_pushAll, holds.capacity, holds.events, ← Ring.foldl_push pos,
      ← Ring.foldl_push pos, List.foldl_append]

/-- The last event is the last one pushed. -/
theorem Holds.lastEvent {pipeline : AuditPipeline} {history : List AuditEvent}
    (holds : pipeline.Holds history) : pipeline.lastEvent = history.getLast? := by
  have pos : 0 < auditEventMemoryLimit := by decide
  rw [AuditPipeline.lastEvent, holds.events, ← Ring.foldl_push pos]
  rcases List.eq_nil_or_concat history with rfl | ⟨history, event, rfl⟩ <;> simp

/-- **The pipeline keeps exactly the newest events** if and only if it can keep any, or none is
pushed. -/
theorem events_pushAll_new_iff (capacity : ℕ) (events : List AuditEvent) :
    ((new capacity).pushAll events).events = events.rtake (min events.length capacity) ↔
      capacity ≠ 0 ∨ events = [] := by
  rw [events_pushAll, ← Ring.latest_eq_rtake, ← Nat.pos_iff_ne_zero]
  exact Ring.foldl_push_eq_latest_iff events

/-- One event in a pipeline that is to keep none. -/
theorem not_events_pushAll_new :
    ¬ ∀ (capacity : ℕ) (events : List AuditEvent),
      ((new capacity).pushAll events).events = events.rtake (min events.length capacity) := by
  intro always
  exact absurd (always 0 [.recoveryProbeOpened "acme" "done"]) (by decide)

end AuditPipeline

end TrustRouter
