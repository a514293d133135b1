import TrustRouter.Course
import TrustRouter.SystemPlanning

/-!
# Decision traces

A trace explains a decision: what was selected, what was rejected and why.  It is to be
bounded, and to admit where it leaves something out.  Traces are made in two places, of a
decision of the system planner (`fromSystemDecision`) and of a call of the pipeline
(`traceFinish`), from lists as long as there are nodes, backends and strategies.

The first truncates the rejections and says so, and passes on every unavailable node; the
second leaves nothing out.  So the first is bounded as long as few nodes are unavailable, and
the second as long as few candidates are rejected (`boundedOf_iff`).
-/

namespace TrustRouter

open Program

/-! ## Of a decision of the system planner -/

/-- `MAX_TRACE_REJECTIONS`. -/
def maxTraceRejections : ℕ := 64

inductive TraceError where
  | invalidRequestId
  deriving DecidableEq

namespace DecisionTrace

/-- The `valid_identifier` of the module. -/
def validIdentifier : String → Bool := isIdentifier

def capacityReason : CapacityRejection → String
  | .unhealthy => "node_unhealthy"
  | .regionMismatch => "region_mismatch"
  | .modelNotResident => "model_not_resident"
  | .insufficientMemory => "insufficient_memory"
  | .queueLimit => "queue_limit"

def rejectionReason : PlacementRejection → String
  | .invalidCandidate => "invalid_candidate"
  | .modelMismatch => "model_mismatch"
  | .unknownComputeNode => "unknown_compute_node"
  | .capacity reason => capacityReason reason
  | .unknownBackend => "unknown_backend"
  | .unsupportedBackendCapability => "unsupported_backend_capability"
  | .inference .invalidEstimate => "invalid_estimate"
  | .inference .latencyConstraint => "latency_constraint"
  | .inference .costConstraint => "cost_constraint"
  | .inference .qualityConstraint => "quality_constraint"
  | .inference .invalidPlanningConfig => "invalid_planning_config"

def configErrorReason : DecisionError → String
  | .invalidConstraints => "invalid_constraints"
  | .invalidObjective => "invalid_objective"

def ofRejected (rejected : PlacementCandidate F64 × PlacementRejection) : TraceRejection where
  backendId := rejected.1.backendId
  computeNodeId := rejected.1.computeNodeId
  reason := rejectionReason rejected.2

def ofUnavailable (unavailable : String × CapacityRejection) : TraceRejection where
  backendId := ""
  computeNodeId := unavailable.1
  reason := capacityReason unavailable.2

def fromSystemDecision (requestId : String) (decision : SystemDecision F64)
    (capacityRevision backendRevision maxRejections : ℕ) : Except TraceError DecisionTrace :=
  if !validIdentifier requestId then .error .invalidRequestId
  else
    let limit := min (max maxRejections 1) maxTraceRejections
    .ok
      { schemaVersion := decisionTraceSchemaVersion
        requestId := requestId
        capacityRevision := capacityRevision
        backendRevision := backendRevision
        selected := decision.selected.map fun value =>
          { backendId := value.backendId
            computeNodeId := value.computeNodeId
            model := value.scored.candidate.model
            strategy := value.scored.candidate.strategy
            score := value.scored.score
            fallback := value.fallback }
        rejected := (decision.rejected.take limit).map ofRejected
        rejectedTruncated := limit < decision.rejected.length
        unavailableNodes := decision.unavailableNodes.map ofUnavailable
        configError := decision.configError.map configErrorReason }

/-- The trace is bounded, its rejections are the first of all there are, and it says whether it
has left some out. -/
structure BoundedOf (trace : DecisionTrace) (all : List TraceRejection) : Prop where
  rejected : trace.rejected.length ≤ maxTraceRejections
  unavailable : trace.unavailableNodes.length ≤ maxTraceRejections
  isPrefix : trace.rejected <+: all
  truncated : trace.rejectedTruncated = true ↔ trace.rejected ≠ all

theorem boundedOf_fromSystemDecision {requestId : String} {decision : SystemDecision F64}
    {capacityRevision backendRevision maxRejections : ℕ} {trace : DecisionTrace}
    (traced : fromSystemDecision requestId decision capacityRevision backendRevision maxRejections =
      .ok trace) :
    trace.BoundedOf (decision.rejected.map ofRejected) ↔
      decision.unavailableNodes.length ≤ maxTraceRejections := by
  unfold fromSystemDecision at traced
  split_ifs at traced
  obtain rfl := Except.ok.inj traced
  refine ⟨fun bounded => by simpa using bounded.unavailable, fun few => ⟨?_, by simpa using few,
    (List.take_prefix _ _).map _, ?_⟩⟩
  · simp only [List.length_map, List.length_take]
    exact (min_le_left _ _).trans (min_le_right _ _)
  · simp only [decide_eq_true_eq]
    constructor
    · intro longer same
      have lengths := congrArg List.length same
      simp only [List.length_map, List.length_take] at lengths
      omega
    · intro differs
      by_contra short
      exact differs (congrArg (List.map ofRejected) (List.take_of_length_le (not_lt.mp short)))

end DecisionTrace

/-! ## Of a call of the pipeline -/

/-- However a dispatch ends, its trace has the rejections of the selection. -/
theorem Dispatched.trace [Rounding] [Formatter] [Md5] {engine : PipelineEngine}
    {env : PipelineEnvironment} {req : PipelineRequest} {transport : InferenceTransport}
    {kvTransport : Option KvTransport} {selection : Selection}
    {played : Played pipelineInterface PipelineEngine PipelineOutcome}
    (dispatched : Dispatched engine env req transport kvTransport selection played) :
    ∃ success reason, played.result.trace =
      req.traceFinish success reason selection.rejected := by
  cases dispatched <;> exact ⟨_, _, rfl⟩

namespace PipelineRequest

variable [Rounding] [Formatter]

/-- Why a candidate is rejected, if it is. -/
def refusal (engine : PipelineEngine) (env : PipelineEnvironment) (req : PipelineRequest)
    (candidate : CounterfactualEstimate) : Option TraceRejection :=
  match req.brokenLimit candidate with
  | some reason => some ⟨candidate.backendId, candidate.computeNodeId, reason⟩
  | none =>
      match engine.firewall.evaluateCandidate candidate engine.worldStateManager.state .high
        (env.clock (.firewall candidate.candidateId)) with
      | .approved => none
      | .rejected _ =>
          some ⟨candidate.backendId, candidate.computeNodeId, "Rejected by DecisionFirewall"⟩

/-- The request comes to the limits and the firewall. -/
def comesToGates (engine : PipelineEngine) (env : PipelineEnvironment) (req : PipelineRequest) :
    Bool :=
  !req.authenticationFails && (engine.admissionController.admitTenant req.tenantId).isOk &&
    (engine.worldStateManager.snapshot (env.clock .snapshot)).isOk && !req.forceStaleWorldState

/-- The candidates in the order in which they are checked. -/
def candidates (engine : PipelineEngine) (env : PipelineEnvironment) (req : PipelineRequest) :
    List (CounterfactualEstimate × KvAction) :=
  sortBy (fun a b => compare a.1.candidateId.value b.1.candidateId.value)
    ((req.placements env).map fun placement => (placement.estimate engine req, req.kvDecision.1))

/-- All rejections, in order. -/
def rejections (engine : PipelineEngine) (env : PipelineEnvironment) (req : PipelineRequest) :
    List TraceRejection :=
  if req.comesToGates engine env then
    (req.candidates engine env).filterMap fun candidate => req.refusal engine env candidate.1
  else []

variable {engine : PipelineEngine} {env : PipelineEnvironment} {req : PipelineRequest}

/-- As many candidates are rejected as placements. -/
theorem length_rejections :
    (req.rejections engine env).length =
      if req.comesToGates engine env then
        (req.placements env).countP fun placement =>
          (req.refusal engine env (placement.estimate engine req)).isSome
      else 0 := by
  unfold rejections candidates
  split_ifs
  · rw [List.length_filterMap_eq_countP, (perm_sortBy _ _).countP_eq, List.countP_map]
    rfl
  · rfl

variable [Md5]

/-- A candidate is valid, or rejected with a reason. -/
theorem result_checkCandidate (candidate : CounterfactualEstimate × KvAction) :
    (play (PipelineEngine.serve env) engine
        (req.checkCandidate engine.worldStateManager.state candidate)).result =
      [match req.refusal engine env candidate.1 with
        | none => .ok candidate
        | some rejection => .error rejection] := by
  unfold checkCandidate refusal
  cases req.brokenLimit candidate.1 with
  | some reason => rfl
  | none =>
      simp only [perform, bind_eq_bind, call_bind, done_bind, play_call, PipelineEngine.serve]
      cases engine.firewall.evaluateCandidate candidate.1 engine.worldStateManager.state .high
        (env.clock (.firewall candidate.1.candidateId)) <;> rfl

omit [Formatter] [Md5] in
/-- The rejections of a choice are carried on, whether anything is chosen or not. -/
theorem rejected_choose {worldState : WorldState}
    {verdicts : List (Except TraceRejection (CounterfactualEstimate × KvAction))} :
    let rejected := verdicts.filterMap fun verdict =>
      match verdict with
      | .ok _ => none
      | .error rejection => some rejection
    match req.choose worldState verdicts with
    | .error outcome => ∃ reason, outcome.trace = req.traceFinish false reason rejected
    | .ok selection => selection.rejected = rejected := by
  unfold choose
  cases verdicts.filterMap Except.toOption with
  | nil => exact ⟨_, rfl⟩
  | cons first others => rfl

/-- The rejections among the verdicts. -/
theorem rejected_verdicts (engine : PipelineEngine) (env : PipelineEnvironment)
    (req : PipelineRequest) :
    ((play (PipelineEngine.serve env) engine (Program.collect (req.candidates engine env)
        (req.checkCandidate engine.worldStateManager.state))).result.filterMap fun verdict =>
      match verdict with
      | .ok _ => none
      | .error rejection => some rejection) =
      (req.candidates engine env).filterMap
        fun candidate => req.refusal engine env candidate.1 := by
  have reads := PipelineCall.serve_reads env
  rw [result_play_collect (fun c _ => only_checkCandidate (fun _ _ _ => trivial) _ c) reads]
  simp only [result_checkCandidate, ← List.map_eq_flatMap, List.filterMap_map]
  refine List.filterMap_congr fun candidate _ => ?_
  cases refused : req.refusal engine env candidate.1 <;> simp [refused]

/-- What has been rejected when the selection is over. -/
theorem rejected_select (engine : PipelineEngine) (env : PipelineEnvironment)
    (req : PipelineRequest) :
    let rejected :=
      if (engine.worldStateManager.snapshot (env.clock .snapshot)).isOk &&
          !req.forceStaleWorldState then
        (req.candidates engine env).filterMap fun candidate => req.refusal engine env candidate.1
      else []
    match (play (PipelineEngine.serve env) engine req.select).result with
    | .error outcome => ∃ reason, outcome.trace = req.traceFinish false reason rejected
    | .ok selection => selection.rejected = rejected := by
  simp only [select, bind_eq_bind, perform, call_bind, done_bind, play_call, PipelineEngine.serve]
  cases fresh : engine.worldStateManager.snapshot (env.clock .snapshot) with
  | error error => exact ⟨_, rfl⟩
  | ok worldState =>
      obtain ⟨-, rfl⟩ := WorldStateManager.snapshot_eq_ok_iff.mp fresh
      cases forced : req.forceStaleWorldState with
      | true => exact ⟨_, rfl⟩
      | false =>
          have stays := req.state_generateCandidates engine env
          have generated := result_generateCandidates engine env req
          simp only [Bool.false_eq_true, if_false, play_call, PipelineEngine.serve]
          unfold PipelineEnvironment.backends PipelineEnvironment.nodes at stays generated
          by_cases none : (env.registry.toOption.getD default).backendIds.isEmpty = true
          · have nothing : req.placements env = [] := by
              unfold placements PipelineEnvironment.backends
              rw [List.isEmpty_iff.mp none]
              rfl
            simp only [none, if_true, candidates, nothing]
            exact ⟨_, rfl⟩
          · have checked := rejected_verdicts engine env req
            unfold candidates at checked ⊢
            simp only [none, Bool.false_eq_true, if_false, play_bind, stays, generated]
            exact checked ▸ rejected_choose

/-- The trace of a call has all rejections in it, in order. -/
theorem trace_processRequest (engine : PipelineEngine) (env : PipelineEnvironment)
    (req : PipelineRequest) (transport : InferenceTransport) (kvTransport : Option KvTransport) :
    ∃ success reason, (engine.processRequest env req transport kvTransport).result.trace =
      req.traceFinish success reason (req.rejections engine env) := by
  unfold PipelineEngine.processRequest PipelineRequest.processRequest rejections comesToGates
  cases fails : req.authenticationFails with
  | true => exact ⟨_, _, rfl⟩
  | false =>
      simp only [Bool.false_eq_true, if_false, bind_eq_bind, perform, call_bind, done_bind,
        play_call, PipelineEngine.serve]
      cases admitted : engine.admissionController.admitTenant req.tenantId with
      | error error => exact ⟨_, _, rfl⟩
      | ok granted =>
          obtain ⟨permit, controller⟩ := granted
          have rejected := rejected_select { engine with admissionController := controller } env req
          obtain ⟨result, reads, -, selected⟩ :=
            req.play_select { engine with admissionController := controller } env
          rw [selected] at rejected
          simp only [PipelineRequest.admitted, bind_eq_bind, play_bind, selected]
          cases result with
          | error outcome =>
              obtain ⟨reason, trace⟩ := rejected
              exact ⟨_, reason, trace⟩
          | ok selection =>
              have dispatched := dispatched { engine with admissionController := controller } env
                req transport kvTransport selection
              obtain ⟨success, reason, trace⟩ := dispatched.trace
              exact ⟨success, reason,
                trace.trans (congrArg (req.traceFinish success reason) rejected)⟩

end PipelineRequest

section

variable [Rounding] [Formatter] [Md5]

/-- **Traces are bounded** of decisions that find few nodes unavailable, and of calls that
reject few candidates, and of no others.  All of them admit what they leave out. -/
theorem boundedOf_iff :
    (∀ (requestId : String) (decision : SystemDecision F64)
        (capacityRevision backendRevision maxRejections : ℕ) (trace : DecisionTrace),
      DecisionTrace.fromSystemDecision requestId decision capacityRevision backendRevision
          maxRejections = .ok trace →
        (trace.BoundedOf (decision.rejected.map DecisionTrace.ofRejected) ↔
          decision.unavailableNodes.length ≤ maxTraceRejections)) ∧
    ∀ (engine : PipelineEngine) (env : PipelineEnvironment) (req : PipelineRequest)
        (transport : InferenceTransport) (kvTransport : Option KvTransport),
      (engine.processRequest env req transport kvTransport).result.trace.BoundedOf
          (req.rejections engine env) ↔
        (req.comesToGates engine env = true →
          (req.placements env).countP (fun placement =>
            (req.refusal engine env (placement.estimate engine req)).isSome) ≤
              maxTraceRejections) := by
  refine ⟨fun _ _ _ _ _ _ => DecisionTrace.boundedOf_fromSystemDecision, ?_⟩
  intro engine env req transport kvTransport
  obtain ⟨success, reason, traced⟩ := req.trace_processRequest engine env transport kvTransport
  have few : (req.rejections engine env).length ≤ maxTraceRejections ↔
      (req.comesToGates engine env = true → (req.placements env).countP (fun placement =>
        (req.refusal engine env (placement.estimate engine req)).isSome) ≤ maxTraceRejections) := by
    rw [PipelineRequest.length_rejections]
    split_ifs with comes <;> simp [comes]
  rw [traced, ← few]
  exact ⟨fun bounded => bounded.rejected, fun short =>
    ⟨short, Nat.zero_le _, List.prefix_rfl, by simp [PipelineRequest.traceFinish]⟩⟩

end

/-- A decision that finds sixty-five nodes unhealthy. -/
theorem not_boundedOf :
    ¬ ∀ (requestId : String) (decision : SystemDecision F64)
        (capacityRevision backendRevision maxRejections : ℕ) (trace : DecisionTrace),
      DecisionTrace.fromSystemDecision requestId decision capacityRevision backendRevision
          maxRejections = .ok trace →
        trace.BoundedOf (decision.rejected.map DecisionTrace.ofRejected) := by
  intro bounded
  let decision : SystemDecision F64 :=
    ⟨none, [], (List.range 65).map fun k => (s!"node-{k}", .unhealthy), none⟩
  have unavailable := (bounded "req-1" decision 0 0 64 _ rfl).unavailable
  exact absurd unavailable (by decide)

end TrustRouter
