import TrustRouter.Admission
import TrustRouter.Fabric
import TrustRouter.Planner
import TrustRouter.Prelude.Program

/-!
# The inference pipeline

`processRequest` takes a request through its ten stages: authentication, admission, a
snapshot of the world, the candidates with their key-value cache decision and predictions,
the hard constraints and the firewall, the ranking, the plan, the transports, and the
feedback.  It shares its components with every other request, and touches them by method
calls only, so it is a `Program` of those calls (`PipelineCall`).  `PipelineEngine` holds the
components and `serve` answers the calls.

What the engine does not decide comes with each call of the pipeline: the transports it is
given, and in its `PipelineEnvironment` the readings of the clock and what the state store
returns.

The control plane and the health monitor of the engine are left out; nothing reads them.
Sums of tokens are those of a build without overflow checks, and wrap.
-/

namespace TrustRouter

structure PipelineRequest where
  requestId : String
  tenantId : String
  apiKey : Option String
  model : String
  modelVersion : Option String
  promptTokens : UInt64
  maxTokens : UInt64
  promptPrefixHash : Option String
  maxTtftMs : Option UInt64
  maxE2eMs : Option UInt64
  minQuality : Option F64
  maxCost : Option F64
  forceStaleWorldState : Bool
  observedKvSizeMb : Option UInt64
  observedTransferLatencyMs : Option UInt64
  observedNetworkCost : Option F64
  observedRecomputationMs : Option UInt64
  observedSourceNode : Option String

def PipelineRequest.new [Rounding] (requestId tenantId model : String) : PipelineRequest where
  requestId := requestId
  tenantId := tenantId
  apiKey := none
  model := model
  modelVersion := none
  promptTokens := 128
  maxTokens := 256
  promptPrefixHash := none
  maxTtftMs := some 500
  maxE2eMs := some 2000
  minQuality := some (.ofRat (8 / 10))
  maxCost := some (.ofRat (5 / 100))
  forceStaleWorldState := false
  observedKvSizeMb := none
  observedTransferLatencyMs := none
  observedNetworkCost := none
  observedRecomputationMs := none
  observedSourceNode := none

structure PipelineOutcome where
  success : Bool
  requestId : String
  decisionId : String
  selectedBackend : Option String
  selectedNode : Option String
  selectedStrategy : Option String
  selectedKvAction : Option KvAction
  executionPlan : Option ExecutionPlan
  compiledPlan : Option CompiledExecutionPlan
  executionResult : Option BackendResult
  rejectionReason : Option String
  trace : DecisionTrace
  worldRevision : ℕ

/-! ## The engine and the calls to it -/

structure PipelineEngine where
  worldStateManager : WorldStateManager
  kvIntelligence : KvIntelligence
  admissionController : AdmissionController
  firewall : DecisionFirewall
  auditChain : AuditChain
  decisionMemory : DecisionMemory
  predictionTracker : PredictionErrorTracker
  predictionEngine : PredictionEngine

/-- The admission policy is a valid one, so that there is a controller for it. -/
def PipelineEngine.new [Rounding] (worldStateManager : WorldStateManager)
    (kvIntelligence : KvIntelligence) : PipelineEngine where
  worldStateManager := worldStateManager
  kvIntelligence := kvIntelligence
  admissionController := ⟨{ globalInFlight := 1000, perTenantInFlight := 100 }, default⟩
  firewall :=
    { config :=
        { weightLatency := .ofRat (3 / 10)
          weightThroughput := .ofRat (2 / 10)
          weightReliability := .ofRat (2 / 10)
          weightQuality := .ofRat (15 / 100)
          weightCost := .ofRat (1 / 10)
          weightKvTransfer := .ofRat (5 / 100)
          maxTtft := 1000
          maxTpot := 200
          maxE2e := 5000
          minQuality := .ofRat (1 / 2)
          maxCost := .finite 1
          maxFailureProbability := .ofRat (2 / 10) }
      maxWorldStateAge := 300 * 10 ^ 9 }
  auditChain := .new 1000
  decisionMemory := .new 500
  predictionTracker := .new 500
  predictionEngine := .new (.ofRat (3 / 10)) 5

example [Rounding] (manager : WorldStateManager) (kv : KvIntelligence) :
    AdmissionController.new ⟨1000, 100⟩ =
      .ok (PipelineEngine.new manager kv).admissionController := rfl

/-- A method call on a component of the engine, or on a transport. -/
inductive PipelineCall where
  | admitTenant (tenant : String)
  | release (permit : AdmissionPermit)
  | snapshot
  | fetchRegistry
  | fetchCapacity
  | predict (key : String) (sourceRevision : ℕ)
  | evaluateCandidate (candidate : CounterfactualEstimate) (worldState : WorldState)
      (confidence : DecisionConfidence)
  | transfer (kvTransport : KvTransport) (source dest : String)
  | execute (transport : InferenceTransport) (request : TransportRequest)
  | append (eventId actor : String) (worldRevision : ℕ)
  | now
  | ingest (obs : InferenceObservation)
  | record (error : PredictionError)

/-- The calls, with what they return. -/
abbrev pipelineInterface : Interface where
  Call := PipelineCall
  Answer
    | .admitTenant _ => Except AdmissionError AdmissionPermit
    | .release _ => Unit
    | .snapshot => Except IntelligenceError WorldState
    | .fetchRegistry => Except FabricError BackendRegistry
    | .fetchCapacity => Except FabricError CapacitySnapshot
    | .predict _ _ => Except IntelligenceError Prediction
    | .evaluateCandidate _ _ _ => FirewallDecision
    | .transfer _ _ _ => Except FabricError Unit
    | .execute _ _ => Except FabricError TransportResponse
    | .append _ _ _ => Unit
    | .now => SystemTime
    | .ingest _ => Except IntelligenceError ℕ
    | .record _ => Unit

/-- The readings of the clock in a call of the pipeline. -/
inductive ClockReading where
  | snapshot
  | firewall (candidate : CandidateId)
  | append
  | observation
  | ingest
  deriving DecidableEq

/-- What the clock and the state store return in a call of the pipeline. -/
structure PipelineEnvironment where
  clock : ClockReading → SystemTime
  registry : Except FabricError BackendRegistry
  capacity : Except FabricError CapacitySnapshot

/-- The components answer. -/
def PipelineEngine.serve [Rounding] [Md5] (env : PipelineEnvironment) :
    Server pipelineInterface PipelineEngine := fun engine call =>
  match call with
  | .admitTenant tenant =>
      match engine.admissionController.admitTenant tenant with
      | .error error => (.error error, engine)
      | .ok (permit, controller) => (.ok permit, { engine with admissionController := controller })
  | .release permit =>
      ((), { engine with admissionController := engine.admissionController.release permit })
  | .snapshot => (engine.worldStateManager.snapshot (env.clock .snapshot), engine)
  | .fetchRegistry => (env.registry, engine)
  | .fetchCapacity => (env.capacity, engine)
  | .predict key sourceRevision => (engine.predictionEngine.predict key sourceRevision, engine)
  | .evaluateCandidate candidate worldState confidence =>
      (engine.firewall.evaluateCandidate candidate worldState confidence
        (env.clock (.firewall candidate.candidateId)), engine)
  | .transfer kvTransport source dest => (kvTransport.transfer source dest, engine)
  | .execute transport request => (transport.execute request, engine)
  | .append eventId actor worldRevision =>
      ((), { engine with
        auditChain := engine.auditChain.append eventId actor worldRevision (env.clock .append) })
  | .now => (env.clock .observation, engine)
  | .ingest obs =>
      let (recorded, manager) := engine.worldStateManager.ingest obs (env.clock .ingest)
      (recorded, { engine with worldStateManager := manager })
  | .record error =>
      ((), { engine with predictionTracker := engine.predictionTracker.record error })

/-- A part of the pipeline. -/
abbrev Pipeline := Program pipelineInterface

/-- Make a call. -/
abbrev Pipeline.perform (c : PipelineCall) : Pipeline (pipelineInterface.Answer c) :=
  Program.perform (I := pipelineInterface) c

/-! ## Stages -/

variable [Rounding] [Formatter]

namespace PipelineRequest

variable (req : PipelineRequest)

/-- Stage 1. -/
def authenticationFails : Bool := req.apiKey.any fun apiKey => apiKey == "invalid" || apiKey.isEmpty

/-- The model the candidates are checked for. -/
def modelRef : ModelReference := ⟨req.model, req.modelVersion.getD "1"⟩

def requirement : CapacityRequirement where
  model := req.modelRef
  region := none
  minAvailableMemoryMb := 1000
  maxQueueDepth := 10

/-- `trace_finish`. -/
def traceFinish (success : Bool) (reason : String) (rejected : List TraceRejection) :
    DecisionTrace where
  schemaVersion := decisionTraceSchemaVersion
  requestId := req.requestId
  capacityRevision := 0
  backendRevision := 0
  selected := none
  rejected := rejected
  rejectedTruncated := false
  unavailableNodes := []
  configError := if !success then some reason else none

/-- The outcome of a request that is rejected before a candidate is selected. -/
def rejection (traceReason reason : String) (rejected : List TraceRejection)
    (worldRevision : ℕ) : PipelineOutcome where
  success := false
  requestId := req.requestId
  decisionId := "dec-" ++ req.requestId
  selectedBackend := none
  selectedNode := none
  selectedStrategy := none
  selectedKvAction := none
  executionPlan := none
  compiledPlan := none
  executionResult := none
  rejectionReason := some reason
  trace := req.traceFinish false traceReason rejected
  worldRevision := worldRevision

/-- Stage 5.  Whatever the caches are, they are taken to be compatible. -/
def kvDecision : KvAction × String :=
  match req.promptPrefixHash with
  | none => (.recompute, "NO_PREFIX")
  | some _ =>
      let input : KvDecisionInput :=
        { compatible := true
          kvSizeMb := req.observedKvSizeMb.getD 0
          transferLatencyMs := req.observedTransferLatencyMs.getD u64Max
          networkCost := req.observedNetworkCost.getD .maxFinite
          recomputationMs := req.observedRecomputationMs.getD 0
          expectedReuse := .ofRat (8 / 10)
          failureRisk := .ofRat (1 / 100)
          confidence := .ofRat (9 / 10) }
      if input.transferLatencyMs = u64Max || input.networkCost = .maxFinite then
        (.recompute, "MISSING_KV_TELEMETRY")
      else input.decide

/-- What is expected of a candidate, given the predictions for its backend. -/
def estimate (backend : String) (node : ComputeNode) (strategy : KvStrategy)
    (ttft e2e : OperationalValue UInt64) : CounterfactualEstimate where
  candidateId := .new backend node.id strategy.debug
  backendId := backend
  computeNodeId := node.id
  model := req.model
  strategy := strategy.debug
  predictedTtft := ttft
  predictedTpot := .unavailable
  predictedE2e := e2e
  predictedCost := .derived (.ofRat (5 / 1000))
  predictedFailureProbability := .predicted (.ofRat (1 / 100))
  predictedKvTransfer := .unavailable
  qualityRisk := .configured (.finite 1)
  confidence := .derived (.ofRat (9 / 10))
  feasible := true
  rejectionReason := none

end PipelineRequest

/-- A prediction, as what is known of a candidate. -/
def OperationalValue.ofPrediction : Except IntelligenceError Prediction → OperationalValue UInt64
  | .ok prediction => .predicted prediction.value.toU64
  | .error _ => .unavailable

/-- The strategies the backend declares for the model, in the order they are tried. -/
def BackendRegistry.declaredStrategies (backends : BackendRegistry) (backend : String)
    (model : ModelReference) : List KvStrategy :=
  [.none, .prefixCache, .cachedKv, .crossModelKvTransfer].filter fun strategy =>
    (backends.supports backend model strategy).toOption.getD false

namespace PipelineRequest

variable (req : PipelineRequest)

/-- A candidate, with the predictions for it and what is to be done with its cache. -/
def generateCandidate (backend : String) (node : ComputeNode) (strategy : KvStrategy)
    (revision : ℕ) : Pipeline (List (CounterfactualEstimate × KvAction)) := do
  let ttft ← Pipeline.perform (.predict (backend ++ "-ttft") revision)
  let e2e ← Pipeline.perform (.predict (backend ++ "-e2e") revision)
  return [(req.estimate backend node strategy (.ofPrediction ttft) (.ofPrediction e2e),
    req.kvDecision.1)]

/-- Stage 4. -/
def generateCandidates (backends : BackendRegistry) (nodes : List ComputeNode) (revision : ℕ) :
    Pipeline (List (CounterfactualEstimate × KvAction)) :=
  .collect backends.backendIds fun backend =>
    .collect nodes fun node =>
      .collect (backends.declaredStrategies backend req.modelRef) fun strategy =>
        req.generateCandidate backend node strategy revision

/-- The limit of the request that a candidate breaks. -/
def brokenLimit (candidate : CounterfactualEstimate) : Option String :=
  (req.maxTtftMs.filter candidate.predictedTtft.exceeds).map (fun maxTtft =>
      s!"TTFT {candidate.predictedTtft.debug toString} exceeds max {maxTtft}ms") <|>
    (req.maxE2eMs.filter candidate.predictedE2e.exceeds).map (fun maxE2e =>
      s!"E2E {candidate.predictedE2e.debug toString} exceeds max {maxE2e}ms") <|>
    (req.maxCost.filter candidate.predictedCost.exceeds).map fun maxCost =>
      s!"Cost {candidate.predictedCost.debug Formatter.f64Debug} exceeds max " ++
        Formatter.f64Display maxCost

/-- Stage 6, for one candidate. -/
def checkCandidate (worldState : WorldState) (candidate : CounterfactualEstimate × KvAction) :
    Pipeline (List (Except TraceRejection (CounterfactualEstimate × KvAction))) := do
  let rejection (reason : String) : TraceRejection :=
    ⟨candidate.1.backendId, candidate.1.computeNodeId, reason⟩
  match req.brokenLimit candidate.1 with
  | some reason => return [.error (rejection reason)]
  | none =>
      match ← Pipeline.perform (.evaluateCandidate candidate.1 worldState .high) with
      | .approved => return [.ok candidate]
      | .rejected _ => return [.error (rejection "Rejected by DecisionFirewall")]

end PipelineRequest

/-- What the stages up to the seventh come to: a candidate, the snapshot it was selected on,
what is to be done with its cache, and the candidates that were rejected. -/
structure Selection where
  worldState : WorldState
  candidate : CounterfactualEstimate
  kvAction : KvAction
  rejected : List TraceRejection

namespace PipelineRequest

variable (req : PipelineRequest)

/-- Stage 7. -/
def choose (worldState : WorldState)
    (verdicts : List (Except TraceRejection (CounterfactualEstimate × KvAction))) :
    Except PipelineOutcome Selection :=
  let rejected := verdicts.filterMap fun verdict =>
    match verdict with
    | .ok _ => none
    | .error rejection => some rejection
  match verdicts.filterMap Except.toOption with
  | [] =>
      .error (req.rejection "All candidates rejected by hard constraints/firewall"
        "All candidates rejected by hard constraints/firewall" rejected worldState.revision)
  | first :: others =>
      let valid := first :: others
      -- the ranking has a first element, because every candidate of the pipeline is feasible
      let selected := (CounterfactualEngine.evaluate (valid.map Prod.fst)).headD first.1
      let kvAction := (valid.find? (·.1.candidateId = selected.candidateId)).map Prod.snd
      .ok
        { worldState := worldState
          candidate := selected
          kvAction := kvAction.getD .recompute
          rejected := rejected }

/-- Stages 3 to 7. -/
def select : Pipeline (Except PipelineOutcome Selection) := do
  match ← Pipeline.perform .snapshot with
  | .error error =>
      return .error (req.rejection s!"World state error: {error.debug}"
        s!"World state error: {error.display}" [] 0)
  | .ok worldState =>
      if req.forceStaleWorldState then
        return .error (req.rejection "Stale world state revision" "Stale world state revision" []
          worldState.revision)
      else
        let registry ← Pipeline.perform .fetchRegistry
        let capacity ← Pipeline.perform .fetchCapacity
        let backends := registry.toOption.getD default
        let nodes := ((capacity.toOption.getD default).evaluate req.requirement).1
        if backends.backendIds.isEmpty then
          return .error (req.rejection "No declared backends for model"
            "No declared backends for model" [] worldState.revision)
        else
          let candidates ← req.generateCandidates backends nodes worldState.revision
          let sorted :=
            sortBy (fun a b => compare a.1.candidateId.value b.1.candidateId.value) candidates
          let verdicts ← Program.collect sorted (req.checkCandidate worldState)
          return req.choose worldState verdicts

/-! ### Stages 8 to 10 -/

/-- Stage 8. -/
def executionPlan (selection : Selection) : ExecutionPlan where
  schemaVersion := 1
  snapshot :=
    { tenantId := req.tenantId
      start := selection.candidate.computeNodeId
      goal := selection.candidate.computeNodeId
      cacheHit := selection.kvAction = .reuse }
  candidate := { nodes := [selection.candidate.computeNodeId], score := .finite 1 }
  steps := [{ ordinal := 0, node := selection.candidate.computeNodeId }]
  kv :=
    { inferenceStrategy := .normalPrefill
      strategy := .none
      target := some req.modelRef
      source := none
      mappingVersion := none
      modelRevision := 0
      compatibilityRevision := 0
      fallbackReason := none }

def compiledPlan (selection : Selection) : CompiledExecutionPlan :=
  ExecutionCompiler.compile selection.candidate (req.modelVersion.getD "Unknown")
    (selection.kvAction, "Selected deterministic action") (.ofRat (8 / 10))
    selection.worldState.revision 1 1

def transportRequest (selection : Selection) : TransportRequest where
  requestId := req.requestId
  model := req.model
  modelVersion := req.modelVersion.getD "Unknown"
  backendId := selection.candidate.backendId
  timeout := (req.compiledPlan selection).timeout

/-- The outcome of a request whose candidate was selected and not executed. -/
def failure (selection : Selection) (traceReason reason : String) : PipelineOutcome where
  success := false
  requestId := req.requestId
  decisionId := "dec-" ++ req.requestId
  selectedBackend := some selection.candidate.backendId
  selectedNode := some selection.candidate.computeNodeId
  selectedStrategy := some selection.candidate.strategy
  selectedKvAction := some selection.kvAction
  executionPlan := some (req.executionPlan selection)
  compiledPlan := some (req.compiledPlan selection)
  executionResult := none
  rejectionReason := some reason
  trace := req.traceFinish false traceReason selection.rejected
  worldRevision := selection.worldState.revision

/-- What is observed of an execution. -/
def observation (selection : Selection) (resp : TransportResponse) (now : SystemTime) :
    InferenceObservation where
  schemaVersion := 1
  requestId := req.requestId
  tenant := req.tenantId
  model := req.model
  modelVersion := req.modelVersion.getD "Unknown"
  backendId := selection.candidate.backendId
  backendVersion := resp.backendVersion.getD "Unknown"
  computeNodeId := selection.candidate.computeNodeId
  accelerator := resp.accelerator.getD "Unknown"
  region := resp.region.getD "Unknown"
  prefillTokens := req.promptTokens
  decodeTokens := req.maxTokens
  totalTokens := req.promptTokens + req.maxTokens
  queueDelayMs := resp.queueDelayMs.getD 0
  ttftMs := resp.ttftMs.getD 0
  tpotMs := resp.tpotMs.getD 0
  e2eLatencyMs := resp.latencyMs
  gpuUtilization := resp.gpuUtilization.getD (.finite 0)
  gpuMemoryUsedMb := resp.gpuMemoryUsedMb.getD 0
  gpuMemoryTotalMb := resp.gpuMemoryTotalMb.getD 0
  kvHit := selection.kvAction = .reuse
  kvTokens := if selection.kvAction = .reuse then req.promptTokens else 0
  kvMemoryMb := req.observedKvSizeMb.getD 0
  kvTransferMs := req.observedTransferLatencyMs.getD 0
  networkTransferMs := 0
  retries := 0
  failureClass := resp.failureClass
  qualityScore := resp.qualityScore.getD (.finite 1)
  estimatedCost := selection.candidate.predictedCost.value.getD (.finite 0)
  actualCost := resp.actualCost.getD (.finite 0)
  timestamp := now
  worldRevision := selection.worldState.revision

/-- How far the prediction was from what was measured. -/
def predictionError (selection : Selection) (resp : TransportResponse) : PredictionError :=
  .compute "e2e_ms" (.ofU64 (selection.candidate.predictedE2e.value.getD 0))
    (.ofU64 resp.latencyMs) (selection.candidate.confidence.value.getD (.finite 0))
    (req.modelVersion.getD "1") selection.worldState.revision

/-- The outcome of a request that has been executed. -/
def completion (selection : Selection) (resp : TransportResponse) (worldRevision : ℕ) :
    PipelineOutcome where
  success := true
  requestId := req.requestId
  decisionId := "dec-" ++ req.requestId
  selectedBackend := some selection.candidate.backendId
  selectedNode := some selection.candidate.computeNodeId
  selectedStrategy := some selection.candidate.strategy
  selectedKvAction := some selection.kvAction
  executionPlan := some (req.executionPlan selection)
  compiledPlan := some (req.compiledPlan selection)
  executionResult :=
    some
      { backend := selection.candidate.backendId
        success := resp.success
        latencyMs := some resp.latencyMs
        estimatedCost := selection.candidate.predictedCost.value
        failure := none }
  rejectionReason := none
  trace := req.traceFinish true "Execution successful" selection.rejected
  worldRevision := worldRevision

/-- Stage 10, after the record on the audit chain. -/
def feedback (selection : Selection) (resp : TransportResponse) : Pipeline PipelineOutcome := do
  let backend := selection.candidate.backendId
  let revision := selection.worldState.revision
  Pipeline.perform (.append req.requestId backend revision)
  let now ← Pipeline.perform .now
  let recorded ← Pipeline.perform (.ingest (req.observation selection resp now))
  Pipeline.perform (.record (req.predictionError selection resp))
  return req.completion selection resp (recorded.toOption.getD (revision + 1))

/-- Stage 9. -/
def execute (transport : InferenceTransport) (selection : Selection) :
    Pipeline PipelineOutcome := do
  match ← Pipeline.perform (.execute transport (req.transportRequest selection)) with
  | .error error =>
      return req.failure selection s!"Transport execution failed: {error.debug}"
        s!"Transport execution failed: {error.display}"
  | .ok resp => req.feedback selection resp

/-- Where the cache of the request is said to be. -/
def sourceNode : String := req.observedSourceNode.getD "Unknown"

/-- Stages 8 to 10. -/
def dispatch (transport : InferenceTransport) (kvTransport : Option KvTransport)
    (selection : Selection) : Pipeline PipelineOutcome :=
  match selection.kvAction, kvTransport with
  | .transfer, some kvTransport => do
      match ← Pipeline.perform
        (.transfer kvTransport req.sourceNode selection.candidate.computeNodeId) with
      | .error error =>
          return req.failure selection s!"KV Transfer failed: {error.debug}"
            s!"KV Transfer failed: {error.display}"
      | .ok _ => req.execute transport selection
  | _, _ => req.execute transport selection

/-- What is done while the permit is held. -/
def admitted (transport : InferenceTransport) (kvTransport : Option KvTransport) :
    Pipeline PipelineOutcome := do
  match ← req.select with
  | .error outcome => return outcome
  | .ok selection => req.dispatch transport kvTransport selection

/-- `PipelineEngine::process_request`.  The permit is dropped on every return after the
admission. -/
def processRequest (transport : InferenceTransport) (kvTransport : Option KvTransport) :
    Pipeline PipelineOutcome := do
  if req.authenticationFails then
    return req.rejection "Authentication failed" "Authentication failed" [] 0
  else
    match ← Pipeline.perform (.admitTenant req.tenantId) with
    | .error error =>
        let reason := s!"Admission rejected: {error.debug}"
        return req.rejection reason reason [] 0
    | .ok permit =>
        let outcome ← req.admitted transport kvTransport
        Pipeline.perform (.release permit)
        return outcome

end PipelineRequest

end TrustRouter
