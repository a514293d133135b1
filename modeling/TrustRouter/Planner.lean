import TrustRouter.Handler
import TrustRouter.Kv

/-!
# The planner

A planning request is validated, routed, and turned into an execution plan or, where the
router escalates, into a bounded recovery plan.  The planner calls the router once and
keeps nothing of its own, so it is a `Handler`.
-/

namespace TrustRouter

def maxExecutionPlanSteps : ℕ := 64

structure PlanningRequest where
  tenantId : TenantId
  start : NodeId
  goal : NodeId

inductive PlanningError where
  | invalidRequest (message : String)
  | routeExceedsStepLimit (steps limit : ℕ)
  deriving DecidableEq

/-- The `Display` of an error. -/
def PlanningError.display : PlanningError → String
  | invalidRequest message => s!"invalid planning request: {message}"
  | routeExceedsStepLimit steps limit =>
      s!"route has {steps} steps, above execution-plan limit {limit}"

/-- `validate_identifier`, up to the error it wraps its message in.  The length is in
bytes; a character outside ASCII has only bytes that are refused. -/
def checkIdentifier {κ : Type} (wrap : String → κ) (field value : String) : Except κ Unit :=
  if value.isEmpty || 128 < value.utf8ByteSize then
    .error (wrap s!"{field} must be 1-128 characters")
  else if !value.toList.all isIdentifierChar then
    .error (wrap s!"{field} contains invalid characters")
  else .ok ()

theorem checkIdentifier_eq_ok_iff {κ : Type} {wrap : String → κ} {field value : String} :
    checkIdentifier wrap field value = .ok () ↔ isIdentifier value = true := by
  unfold checkIdentifier isIdentifier
  cases value.isEmpty <;> cases value.toList.all isIdentifierChar <;>
    by_cases long : 128 < value.utf8ByteSize <;> simp [long]
  omega

/-- The planner's `validate_identifier`. -/
def Planner.validateIdentifier : String → String → Except PlanningError Unit :=
  checkIdentifier .invalidRequest

def PlanningRequest.validate (request : PlanningRequest) : Except PlanningError Unit := do
  Planner.validateIdentifier "tenant_id" request.tenantId
  Planner.validateIdentifier "start" request.start
  Planner.validateIdentifier "goal" request.goal

/-- The routing inputs and decision facts that generated a plan. -/
structure SystemSnapshot where
  tenantId : TenantId
  start : NodeId
  goal : NodeId
  cacheHit : Bool

/-- The route a plan is made from. -/
structure Candidate where
  nodes : List NodeId
  score : F64

structure ExecutionStep where
  ordinal : ℕ
  node : NodeId

structure ExecutionPlan where
  schemaVersion : ℕ
  snapshot : SystemSnapshot
  candidate : Candidate
  steps : List ExecutionStep
  kv : KvPlanMetadata

/-- A bounded suggestion for an escalation. -/
structure RecoveryPlan where
  blockedNodes : List NodeId
  steps : List String

inductive PlanOutcome where
  | execute (plan : ExecutionPlan)
  | recover (snapshot : SystemSnapshot) (escalation : EscalationContext)
      (recovery : RecoveryPlan)

structure BoundedRecoveryAdapter where
  maxSteps : ℕ

namespace BoundedRecoveryAdapter

def new (maxSteps : ℕ) : BoundedRecoveryAdapter := ⟨max maxSteps 1⟩

def plan (adapter : BoundedRecoveryAdapter) (context : EscalationContext) : RecoveryPlan :=
  let steps := (context.failedOrBlockedNodes.take adapter.maxSteps).map fun node =>
    s!"Inspect or replace blocked tool: {node}"
  let steps :=
    if steps.length < adapter.maxSteps then
      steps ++ ["Ask the recovery planner for a bounded alternate workflow."]
    else steps
  { blockedNodes := context.failedOrBlockedNodes
    steps := steps.take adapter.maxSteps }

end BoundedRecoveryAdapter

structure Planner where
  maxSteps : ℕ
  recoveryAdapter : BoundedRecoveryAdapter
  kv : KvIntelligence

namespace Planner

def withLimits [Rounding] (maxSteps maxRecoverySteps : ℕ) : Planner where
  maxSteps := max 1 (min maxSteps maxExecutionPlanSteps)
  recoveryAdapter := .new maxRecoverySteps
  kv := default

def new [Rounding] : Planner := withLimits maxExecutionPlanSteps 4

def executionPlan (planner : Planner) (request : PlanningRequest) (route : Route) :
    Except PlanningError PlanOutcome :=
  if planner.maxSteps < route.nodes.length then
    .error (.routeExceedsStepLimit route.nodes.length planner.maxSteps)
  else if !route.totalCost.isFinite || route.totalCost < .finite 0 then
    .error (.invalidRequest "routing core returned an invalid candidate score")
  else
    .ok (.execute
      { schemaVersion := 1
        snapshot :=
          { tenantId := request.tenantId
            start := request.start
            goal := request.goal
            cacheHit := route.cacheHit }
        candidate := { nodes := route.nodes, score := route.totalCost }
        steps := route.nodes.mapIdx fun ordinal node => { ordinal := ordinal, node := node }
        kv := planner.kv.normal })

/-- Validate, route, and make a plan. -/
def plan {ε : Type} (planner : Planner) (request : PlanningRequest) :
    ExceptT PlanningError (Handler ε) PlanOutcome := do
  request.validate
  let decision ← (Handler.callRoute request.tenantId request.start request.goal : Handler ε _)
  match decision with
  | .routed route => planner.executionPlan request route
  | .escalate escalation =>
      return .recover
        { tenantId := request.tenantId
          start := request.start
          goal := request.goal
          cacheHit := false }
        escalation (planner.recoveryAdapter.plan escalation)

/-! ## What a plan is -/

/-- **An execution plan is the route it is made from**: its steps are the route's nodes in
order, at most as many as the planner allows, at a finite cost that is not negative. -/
theorem executionPlan_ok {planner : Planner} {request : PlanningRequest} {route : Route}
    {outcome : PlanOutcome} (made : planner.executionPlan request route = .ok outcome) :
    ∃ plan, outcome = .execute plan ∧ plan.steps.map ExecutionStep.node = route.nodes ∧
      plan.steps.length ≤ planner.maxSteps ∧ plan.candidate = ⟨route.nodes, route.totalCost⟩ ∧
      ∃ cost, 0 ≤ cost ∧ route.totalCost = .finite cost := by
  unfold executionPlan at made
  split_ifs at made with long invalid
  simp only [Bool.or_eq_true, Bool.not_eq_true', decide_eq_true_eq, not_or] at invalid
  obtain ⟨finite, notNeg⟩ := invalid
  obtain ⟨cost, eq⟩ := F64.isFinite_iff.mp (by simpa using finite)
  refine ⟨_, (Except.ok.inj made).symm, ?_, ?_, rfl, cost, ?_, eq⟩
  · exact List.ext_getElem? fun i => by simp [Function.comp_def]
  · simpa using long
  · simpa [eq] using notNeg

end Planner

end TrustRouter
