import TrustRouter.AuditTrail
import TrustRouter.Optimality
import TrustRouter.Prelude.LineJournal
import TrustRouter.RouteCache
import TrustRouter.Serde

/-!
# Lines of the audit file

What `to_json_line` writes, and what a reader makes of it.  What is relied on of the writer and of
the reader is in `SerdeJson` and `JsonReader`.

A line is read back as the event it was written for (`ofLine_line`), except that a cost that
is not finite is written as `null`, which does not tell the infinities from NaN.  A router
never pushes such a cost (`finiteCosts_trail`).  No event breaks its line, whatever the names
in it, so a file is read back line by line (`readFile_fileText`), and since the trail of a run
determines the health of every node, so does the file (`readFile_trail`).
-/

namespace TrustRouter

open JsonText SerdeJson

/-! ## Reading -/

namespace JsonText.Value

def asString : Value ℚ → Option String
  | .string value => some value
  | _ => none

def asBool : Value ℚ → Option Bool
  | .bool value => some value
  | _ => none

/-- A number, or the `null` that stands for one that is not finite. -/
def asF64 : Value ℚ → Option F64
  | .number value => some (.finite value)
  | .null => some .nan
  | _ => none

def asStrings : Value ℚ → Option (List String)
  | .array items => items.mapM asString
  | _ => none

/-- A field of an object. -/
def field (fields : List (String × Value ℚ)) (key : String) : Option (Value ℚ) :=
  (fields.find? fun entry => entry.1 = key).map Prod.snd

def stringAt (fields : List (String × Value ℚ)) (key : String) : Option String :=
  (field fields key).bind asString

theorem field_eq_some_iff {fields : List (String × Value ℚ)}
    (nodup : (fields.map Prod.fst).Nodup) {key : String} {value : Value ℚ} :
    field fields key = some value ↔ (key, value) ∈ fields := by
  induction fields with
  | nil => simp [field]
  | cons entry fields ih =>
      obtain ⟨absent, nodup⟩ := List.nodup_cons.mp nodup
      by_cases same : entry.1 = key
      · have once : (key, value) ∉ fields := fun mem =>
          absent (same ▸ List.mem_map_of_mem mem)
        simp [field, once, Prod.ext_iff, same, eq_comm]
      · have other : (key, value) ≠ entry := fun eq => same (congrArg Prod.fst eq).symm
        rw [List.mem_cons, or_iff_right other, ← ih nodup]
        simp [field, same]

theorem field_cons_self (key : String) (value : Value ℚ) (fields : List (String × Value ℚ)) :
    field ((key, value) :: fields) key = some value := by
  simp [field]

theorem field_cons_ne {key key' : String} (other : key' ≠ key) (value : Value ℚ)
    (fields : List (String × Value ℚ)) :
    field ((key', value) :: fields) key = field fields key := by
  simp [field, other]

/-- Sorting the fields does not change what is found under a key. -/
theorem field_ofList {fields : List (String × Value ℚ)} (nodup : (fields.map Prod.fst).Nodup)
    (key : String) : field (BTreeMap.ofList fields).entries key = field fields key := by
  ext value
  rw [field_eq_some_iff nodup]
  exact BTreeMap.get_ofList nodup

theorem asStrings_array (items : List String) :
    asStrings (.array (items.map Value.string)) = some items := by
  induction items with
  | nil => rfl
  | cons item items ih =>
      simp only [asStrings, List.map_cons, List.mapM_cons] at ih ⊢
      rw [ih]
      rfl

end JsonText.Value

open JsonText.Value

def EscalationReason.ofDebug (name : String) : Option EscalationReason :=
  [EscalationReason.noFeasiblePath, .tenantNotFound].find? (·.debug = name)

def NodeState.ofDebug (name : String) : Option NodeState :=
  [NodeState.healthy, .degraded, .open, .halfOpen].find? (·.debug = name)

theorem EscalationReason.ofDebug_debug (reason : EscalationReason) :
    ofDebug reason.debug = some reason := by
  cases reason <;> decide

theorem NodeState.ofDebug_debug (state : NodeState) : ofDebug state.debug = some state := by
  cases state <;> decide

namespace AuditEvent

def ofReroute (fields : List (String × Value ℚ)) : Option AuditEvent := do
  let tenantId ← stringAt fields "tenant_id"
  let start ← stringAt fields "start"
  let goal ← stringAt fields "goal"
  let path ← (field fields "path").bind asStrings
  let totalCost ← (field fields "total_cost").bind asF64
  let cacheHit ← (field fields "cache_hit").bind asBool
  return .reroute tenantId start goal path totalCost cacheHit

def ofExplicitEscalation (fields : List (String × Value ℚ)) : Option AuditEvent := do
  let tenantId ← stringAt fields "tenant_id"
  let start ← stringAt fields "start"
  let goal ← stringAt fields "goal"
  let reason ← (stringAt fields "reason").bind EscalationReason.ofDebug
  let failedOrBlockedNodes ← (field fields "failed_or_blocked_nodes").bind asStrings
  return .explicitEscalation ⟨tenantId, start, goal, reason, failedOrBlockedNodes⟩

def ofHealthChanged (fields : List (String × Value ℚ)) : Option AuditEvent := do
  let tenantId ← stringAt fields "tenant_id"
  let nodeId ← stringAt fields "node_id"
  let state ← (stringAt fields "state").bind NodeState.ofDebug
  let stateChanged ← (field fields "state_changed").bind asBool
  return .healthChanged tenantId nodeId state stateChanged

def ofRecoveryProbeOpened (fields : List (String × Value ℚ)) : Option AuditEvent := do
  let tenantId ← stringAt fields "tenant_id"
  let nodeId ← stringAt fields "node_id"
  return .recoveryProbeOpened tenantId nodeId

/-- The fields of an event, as they are listed. -/
def fields (event : AuditEvent) : List (String × Json) :=
  match event.toJson with
  | .object fields => fields
  | _ => []

theorem toJson_eq (event : AuditEvent) : event.toJson = .object event.fields := by
  cases event <;> rfl

theorem nodup_fields (event : AuditEvent) : (event.fields.map Prod.fst).Nodup := by
  cases event <;> simp [fields, toJson]

/-- The event whose value has these fields. -/
def ofFields (fields : List (String × Value ℚ)) : Option AuditEvent :=
  match stringAt fields "event" with
  | some "reroute" => ofReroute fields
  | some "explicit_escalation" => ofExplicitEscalation fields
  | some "health_changed" => ofHealthChanged fields
  | some "recovery_probe_opened" => ofRecoveryProbeOpened fields
  | _ => none

def ofValue : Value ℚ → Option AuditEvent
  | .object fields => ofFields fields
  | _ => none

/-- What is left of an event in its line: of a cost that is not finite, that it is not. -/
def readable : AuditEvent → AuditEvent
  | reroute tenantId start goal path totalCost cacheHit =>
      .reroute tenantId start goal path (if totalCost.isFinite then totalCost else .nan) cacheHit
  | event => event

theorem asF64_numberValue (cost : F64) :
    asF64 (Json.numberValue cost) = some (if cost.isFinite then cost else .nan) := by
  cases cost <;> rfl

/-- An event is read from the fields of its value, in whatever order they stand. -/
theorem ofValue_ofList {fields : List (String × Value ℚ)} (nodup : (fields.map Prod.fst).Nodup) :
    ofValue (.object (BTreeMap.ofList fields).entries) = ofFields fields := by
  have same := field_ofList nodup
  simp only [ofValue, ofFields, ofReroute, ofExplicitEscalation, ofHealthChanged,
    ofRecoveryProbeOpened, stringAt, same]

theorem ofValue_toJson (event : AuditEvent) : ofValue event.toJson.value = some event.readable := by
  have nodup : ((Json.fieldValues event.fields).map Prod.fst).Nodup := by
    rw [Json.fieldValues_eq_map, List.map_map]
    exact event.nodup_fields
  rw [toJson_eq, Json.value, ofValue_ofList nodup]
  cases event with
  | reroute tenantId start goal path totalCost cacheHit =>
      simp only [fields, toJson, Json.value, Json.fieldValues, Json.values_map_string]
      show ofReroute _ = _
      simp (disch := decide) only [ofReroute, stringAt, field_cons_self, field_cons_ne,
        Option.bind_some, asStrings_array, asF64_numberValue]
      rfl
  | explicitEscalation context =>
      simp only [fields, toJson, Json.value, Json.fieldValues, Json.values_map_string]
      show ofExplicitEscalation _ = _
      simp (disch := decide) only [ofExplicitEscalation, stringAt, field_cons_self, field_cons_ne,
        Option.bind_some, asString, asStrings_array, EscalationReason.ofDebug_debug]
      rfl
  | healthChanged tenantId nodeId state stateChanged =>
      simp only [fields, toJson, Json.value, Json.fieldValues]
      show ofHealthChanged _ = _
      simp (disch := decide) only [ofHealthChanged, stringAt, field_cons_self, field_cons_ne,
        Option.bind_some, asString, NodeState.ofDebug_debug]
      rfl
  | recoveryProbeOpened tenantId nodeId => rfl

/-! ## Lines -/

/-- The line `to_json_line` returns. -/
def line (render : Json → String) (event : AuditEvent) : List Char :=
  (event.toJsonLine render).toList

theorem line_eq (render : Json → String) (event : AuditEvent) :
    event.line render = (render event.toJson).toList := rfl

variable [SerdeJson]

/-- A line is one line, whatever is in the names. -/
theorem unbroken_line (event : AuditEvent) : LineJournal.Unbroken (event.line toText) := by
  intro mem
  rw [line_eq] at mem
  exact absurd (notControl_of_mem _ _ mem) (by decide)

section Reader

variable [JsonReader]

/-- The event a line is of. -/
def ofLine (line : List Char) : Option AuditEvent := (JsonReader.read line).bind ofValue

/-- **An event is read back** from its line. -/
theorem ofLine_line (event : AuditEvent) : ofLine (event.line toText) = some event.readable := by
  rw [ofLine, line_eq, JsonReader.read_toText]
  exact ofValue_toJson event

/-- Events that have the same line differ only in the way in which their costs are not finite. -/
theorem readable_eq_of_line_eq {event event' : AuditEvent}
    (same : event.line toText = event'.line toText) : event.readable = event'.readable := by
  have read := congrArg ofLine same
  simpa only [ofLine_line, Option.some.injEq] using read

end Reader

/-! ### What the durability test asks of a line -/

omit [SerdeJson] in
/-- `has_balanced_json_string_quotes`. -/
def hasBalancedJsonStringQuotes (line : List Char) : Bool :=
  let scan := Scan.outside.after line
  !scan.inString && !scan.escaped

omit [SerdeJson] in
/-- The texts of which `assert_valid_audit_json_line` wants one. -/
def tags : List String :=
  ["\"event\":\"reroute\"", "\"event\":\"explicit_escalation\"",
    "\"event\":\"health_changed\"", "\"event\":\"recovery_probe_opened\""]

omit [SerdeJson] in
/-- `assert_valid_audit_json_line`. -/
structure ValidLine (line : List Char) : Prop where
  startsWith : line.head? = some '{'
  endsWith : line.getLast? = some '}'
  contains : ∃ tag ∈ tags, tag.toList <:+: line
  noNul : '\x00' ∉ line
  balanced : hasBalancedJsonStringQuotes line = true

omit [SerdeJson] in
/-- The kind of an event is written as one of the tags. -/
theorem exists_tag (event : AuditEvent) :
    ∃ kind, ("event", Json.string kind) ∈ event.fields ∧ Plain kind ∧
      String.ofList (quoted "event" ++ ':' :: quoted kind) ∈ tags := by
  cases event with
  | reroute => exact ⟨"reroute", .head _, by decide⟩
  | explicitEscalation => exact ⟨"explicit_escalation", .head _, by decide⟩
  | healthChanged => exact ⟨"health_changed", .head _, by decide⟩
  | recoveryProbeOpened => exact ⟨"recovery_probe_opened", .head _, by decide⟩

/-- **Every line is valid**, whatever is in the names. -/
theorem validLine_line [JsonReader] (event : AuditEvent) : ValidLine (event.line toText) := by
  obtain ⟨kind, mem, plain, isTag⟩ := event.exists_tag
  have inner := isInfix_toText_object event.nodup_fields mem
  obtain ⟨head, last⟩ := ends_toText_object event.nodup_fields
  rw [← toJson_eq] at inner head last
  refine ⟨head, last, ⟨_, isTag, ?_⟩, fun nul => ?_, ?_⟩
  · rw [String.toList_ofList]
    rwa [fieldText, toText_of_plain (s := "event") (by decide), toText_of_plain plain] at inner
  · exact absurd (notControl_of_mem _ _ nul) (by decide)
  · rw [hasBalancedJsonStringQuotes, line_eq, (shaped_toText event.toJson).scan_after]
    rfl

end AuditEvent

/-! ## Files -/

/-- A file to which some events have been appended. -/
def fileText (render : Json → String) (events : List AuditEvent) : List Char :=
  LineJournal.text (AuditEvent.line render) events

section Reader

variable [SerdeJson] [JsonReader]

/-- The events of a file.  Lines that are none are passed over. -/
def readFile (text : List Char) : List AuditEvent :=
  (LineJournal.lines text).filterMap AuditEvent.ofLine

/-- A file is read back line by line. -/
theorem readFile_fileText (events : List AuditEvent) :
    readFile (fileText toText events) = events.map AuditEvent.readable := by
  have read := LineJournal.splitLines_text AuditEvent.unbroken_line events
    LineJournal.unbroken_nil
  rw [List.append_nil] at read
  have lines : LineJournal.lines (fileText toText events) = events.map (AuditEvent.line toText) :=
    congrArg Prod.fst read
  rw [readFile, lines, List.filterMap_map]
  simp [AuditEvent.ofLine_line]

end Reader

/-! ## Costs -/

/-- A cost in the event is a number. -/
def AuditEvent.FiniteCost : AuditEvent → Prop
  | reroute _ _ _ _ totalCost _ => ∃ value, totalCost = .finite value
  | _ => True

theorem AuditEvent.FiniteCost.readable {event : AuditEvent} (finite : event.FiniteCost) :
    event.readable = event := by
  cases event with
  | reroute =>
      obtain ⟨value, rfl⟩ := finite
      rfl
  | _ => rfl

namespace RouterState

variable [Rounding]

/-- **A cached cost is a number.** -/
theorem finite_weight_after (ops : List Op) {tenantId : TenantId} {tenant : TenantState}
    (found : (after ops).tenants.lookup tenantId = some tenant) {key : RouteKey}
    {cached : CachedPath} (hit : tenant.cache.lookup key = some cached) :
    ∃ value, cached.weight = .finite value := by
  induction ops using List.reverseRecOn generalizing tenant with
  | nil => cases found
  | append_singleton ops op ih =>
      rw [after, run_concat] at found
      obtain ⟨before, place, survives | ⟨-, inserted⟩⟩ := lookup_cache_step found hit
      · exact ih place survives.found
      · obtain ⟨route, rfl, computed⟩ := inserted.computed
        exact ToolGraph.exists_totalCost_of_shortestPath computed

/-- The route returned for a tenant has a number for its cost. -/
theorem finite_totalCost_route (ops : List Op) {tenantId : TenantId} {tenant : TenantState}
    (found : (after ops).tenants.lookup tenantId = some tenant) (key : RouteKey) {route : Route}
    (routed : (tenant.route key).2 = some route) : ∃ value, route.totalCost = .finite value := by
  rcases tenant.route_cases key with
    ⟨cached, hit, eq⟩ | ⟨computed, -, search, eq⟩ | ⟨-, -, eq⟩ <;> rw [eq] at routed
  · obtain rfl := Option.some.inj routed
    exact finite_weight_after ops found hit
  · obtain rfl := Option.some.inj routed
    exact ToolGraph.exists_totalCost_of_shortestPath search
  · cases routed

/-- **The costs in the trail of a run are numbers.** -/
theorem finiteCosts_trail (ops : List Op) : ∀ event ∈ trail ops, event.FiniteCost := by
  induction ops using List.reverseRecOn with
  | nil => exact List.forall_mem_nil _
  | append_singleton ops op ih =>
      rw [trail_concat]
      refine List.forall_mem_append.mpr ⟨ih, ?_⟩
      have accounts := (after ops).accounted op
      cases op with
      | addTenant | addEdge | setCostModel | trySetCostModel | trySetHealthPolicy =>
          rw [show ((after ops).perform _).pushed = [] from accounts]
          exact List.forall_mem_nil _
      | recordResult =>
          obtain ⟨_, _, pushed⟩ := accounts
          rw [pushed]
          exact List.forall_mem_singleton.mpr trivial
      | forceHalfOpen | runRecoveryProbeOnce =>
          intro event mem
          obtain ⟨_, _, rfl⟩ := accounts.1 event mem
          trivial
      | route tenantId start goal =>
          show ∀ event ∈ ((after ops).route tenantId start goal).pushed, event.FiniteCost
          rw [route_pushed]
          refine List.forall_mem_singleton.mpr ?_
          cases found : (after ops).tenants.lookup tenantId with
          | none =>
              rw [route, routeFast_eq, found]
              simp [routeSlow, found, escalated, RouteDecision.event, AuditEvent.FiniteCost]
          | some tenant =>
              rw [route_answer _ found]
              cases routed : (tenant.route ⟨start, goal⟩).2 with
              | none => trivial
              | some route => exact finite_totalCost_route ops found _ routed

variable [SerdeJson] [JsonReader]

/-- **The file of a run** is read back as its trail, and tells the health of every node. -/
theorem readFile_trail (ops : List Op) :
    (∀ event ∈ trail ops, AuditEvent.ValidLine (event.line toText)) ∧
      readFile (fileText toText (trail ops)) = trail ops ∧
        ∀ tenantId nodeId, (after ops).nodeState tenantId nodeId =
          lastReport tenantId nodeId (readFile (fileText toText (trail ops))) := by
  have read : readFile (fileText toText (trail ops)) = trail ops := by
    rw [readFile_fileText]
    exact (List.map_congr_left fun event mem => (finiteCosts_trail ops event mem).readable).trans
      (List.map_id' _)
  refine ⟨fun event _ => event.validLine_line, read, fun tenantId nodeId => ?_⟩
  rw [read]
  exact nodeState_eq_lastReport ops tenantId nodeId

omit [Rounding] [SerdeJson] [JsonReader] in
/-- A route, and a failure on it. -/
theorem readFile_trail_of_failure :
    letI := Rounding.exact
    let _ := SerdeJson.ofTable sampleNumbers
    let _ := JsonReader.ofTable sampleNumbers
    let ops : List Op := [.addEdge "acme" (Edge.new "a" "b"), .route "acme" "a" "b",
      .recordResult "acme" "b" false 5 0]
    (trail ops).length = 2 ∧ (∀ event ∈ trail ops, AuditEvent.ValidLine (event.line toText)) ∧
      readFile (fileText toText (trail ops)) = trail ops ∧
      (after ops).nodeState "acme" "b" =
        lastReport "acme" "b" (readFile (fileText toText (trail ops))) := by
  let _ := Rounding.exact
  intro _ _ ops
  obtain ⟨valid, read, reported⟩ := readFile_trail ops
  exact ⟨by decide +kernel, valid, read, reported "acme" "b"⟩

end RouterState

end TrustRouter
