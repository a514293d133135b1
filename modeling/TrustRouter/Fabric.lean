import TrustRouter.Decision

/-!
# The inference fabric

What the pipeline reaches the backends through: the transports, as what they answer; the
decision on a request's key-value cache; the compiled plan; and the chain of audit records.

A transport is any function from requests to answers.  It may well have a state of its own,
but it is asked at most once in a call of the pipeline, and each call has its own transports.
-/

namespace TrustRouter

inductive FabricError where
  | timeout
  | capabilityMismatch
  | admissionRejected (message : String)
  | staleLease
  | queueFull
  | backendUnavailable
  | identityMismatch
  | malformedResponse
  | kvTransferFailed
  | staleReadiness
  deriving DecidableEq

namespace FabricError

/-- The derived `Debug`. -/
def debug [Formatter] : FabricError → String
  | timeout => "Timeout"
  | capabilityMismatch => "CapabilityMismatch"
  | admissionRejected message => "AdmissionRejected(" ++ Formatter.strDebug message ++ ")"
  | staleLease => "StaleLease"
  | queueFull => "QueueFull"
  | backendUnavailable => "BackendUnavailable"
  | identityMismatch => "IdentityMismatch"
  | malformedResponse => "MalformedResponse"
  | kvTransferFailed => "KvTransferFailed"
  | staleReadiness => "StaleReadiness"

def display [Formatter] : FabricError → String := debug

end FabricError

/-! ## Transports -/

structure TransportRequest where
  requestId : String
  model : String
  modelVersion : String
  backendId : String
  timeout : Duration
  deriving DecidableEq

structure TransportResponse where
  requestId : String
  backendId : String
  success : Bool
  latencyMs : UInt64
  failureClass : Option String
  ttftMs : Option UInt64
  tpotMs : Option UInt64
  queueDelayMs : Option UInt64
  gpuUtilization : Option F64
  gpuMemoryUsedMb : Option UInt64
  gpuMemoryTotalMb : Option UInt64
  actualCost : Option F64
  qualityScore : Option F64
  accelerator : Option String
  region : Option String
  backendVersion : Option String
  deriving DecidableEq

structure InferenceTransport where
  execute : TransportRequest → Except FabricError TransportResponse

/-- The transport of the tests. -/
structure DeterministicTransport where
  healthy : Bool
  latencyMs : UInt64

/-- `DeterministicTransport::execute`. -/
def DeterministicTransport.transport [Rounding] (transport : DeterministicTransport) :
    InferenceTransport where
  execute request :=
    if !transport.healthy then .error .backendUnavailable
    else
      .ok
        { requestId := request.requestId
          backendId := request.backendId
          success := true
          latencyMs := transport.latencyMs
          failureClass := none
          ttftMs := some (transport.latencyMs / 4)
          tpotMs := some (transport.latencyMs / 20)
          queueDelayMs := some 1
          gpuUtilization := some (.ofRat (1 / 2))
          gpuMemoryUsedMb := some 4000
          gpuMemoryTotalMb := some 80000
          actualCost := some (.ofRat (2 / 1000))
          qualityScore := some (.finite 1)
          accelerator := none
          region := none
          backendVersion := none }

structure KvTransport where
  transfer : (source dest : String) → Except FabricError Unit

/-! ## Key-value cache decisions -/

inductive KvAction where
  | reuse
  | transfer
  | keep
  | evict
  | migrate
  | recompute
  deriving DecidableEq

structure KvDecisionInput where
  compatible : Bool
  kvSizeMb : UInt64
  transferLatencyMs : UInt64
  networkCost : F64
  recomputationMs : UInt64
  expectedReuse : F64
  failureRisk : F64
  confidence : F64

def KvDecisionInput.decide [Rounding] (input : KvDecisionInput) : KvAction × String :=
  if !input.compatible then (.recompute, "INCOMPATIBLE_KV")
  else if input.confidence < .ofRat (1 / 2) then (.recompute, "LOW_CONFIDENCE")
  else if .ofRat (3 / 10) < input.failureRisk then (.recompute, "HIGH_FAILURE_RISK")
  else
    -- a transfer has to pay for its cost and its risk
    let transferCost := F64.ofU64 input.transferLatencyMs + input.networkCost
    let recomputeCost := F64.ofU64 input.recomputationMs
    if transferCost + input.failureRisk * recomputeCost ≤ recomputeCost then
      (.transfer, "TRANSFER_BENEFICIAL")
    else
      (.recompute, "TRANSFER_COST_EXCEEDS_BENEFIT")

/-! ## Compiled plans -/

inductive ExecutionPhase where
  | prefill
  | decode
  | prefillDecode
  deriving DecidableEq

structure CompiledExecutionPlan where
  schemaVersion : ℕ
  model : String
  modelVersion : String
  backend : String
  node : String
  executionPhase : ExecutionPhase
  strategy : String
  timeout : Duration
  retryBudget : UInt32
  kvAction : KvAction
  kvReason : String
  qualityFloor : F64
  worldRevision : ℕ
  leaseEpoch : ℕ
  fencingToken : ℕ

/-- `ExecutionCompiler::compile`. -/
def ExecutionCompiler.compile (candidate : CounterfactualEstimate) (modelVersion : String)
    (kvDecision : KvAction × String) (qualityFloor : F64)
    (worldRevision leaseEpoch fencingToken : ℕ) : CompiledExecutionPlan where
  schemaVersion := 2
  model := candidate.model
  modelVersion := modelVersion
  backend := candidate.backendId
  node := candidate.computeNodeId
  executionPhase := .prefillDecode
  strategy := candidate.strategy
  timeout := 5000 * 10 ^ 6
  retryBudget := 3
  kvAction := kvDecision.1
  kvReason := kvDecision.2
  qualityFloor := qualityFloor
  worldRevision := worldRevision
  leaseEpoch := leaseEpoch
  fencingToken := fencingToken

/-! ## The audit chain -/

/-- The MD5 digest of a text, in lower-case hexadecimal. -/
class Md5 where
  hex : String → String

structure AuditRecord where
  schemaVersion : ℕ
  eventId : String
  previousHash : String
  currentHash : String
  timestamp : SystemTime
  actor : String
  worldRevision : ℕ
  deriving DecidableEq

def AuditRecord.computeHash [Md5] (eventId previousHash actor : String) : String :=
  Md5.hex (eventId ++ "-" ++ previousHash ++ "-" ++ actor)

structure AuditChain where
  records : List AuditRecord
  maxRecords : ℕ

namespace AuditChain

def new (maxRecords : ℕ) : AuditChain := ⟨[], min (max maxRecords 1) 100000⟩

def append [Md5] (chain : AuditChain) (eventId actor : String) (worldRevision : ℕ)
    (now : SystemTime) : AuditChain :=
  let previousHash := (chain.records.getLast?.map (·.currentHash)).getD "genesis"
  let record : AuditRecord :=
    { schemaVersion := 1
      eventId := eventId
      previousHash := previousHash
      currentHash := AuditRecord.computeHash eventId previousHash actor
      timestamp := now
      actor := actor
      worldRevision := worldRevision }
  { chain with records := Ring.pushBounded chain.maxRecords chain.records record }

end AuditChain

end TrustRouter
