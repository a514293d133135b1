import TrustRouter.Prediction
import TrustRouter.Registries

/-!
# Decisions

A candidate is a backend, a compute node and a strategy, and a `CounterfactualEstimate` is
what is expected of it.  `CounterfactualEngine.evaluate` ranks the candidates, by their score
and then by their identifier, and `DecisionFirewall.evaluateCandidate` refuses those that
break a limit of the configuration.

The comparisons of the firewall are of `f64` and of `u64`, each as the source writes it: a
limit that is a NaN refuses nothing, which is why the configuration is validated first.
-/

namespace TrustRouter

/-- What the standard library makes of a value in a text, where it has a choice of
digits or of escapes. -/
class Formatter where
  f64Debug : F64 → String
  f64Display : F64 → String
  strDebug : String → String

inductive DecisionConfidence where
  | high
  | medium
  | low
  | unknown
  deriving DecidableEq

namespace DecisionConfidence

def isSafeForOptimization : DecisionConfidence → Bool
  | high | medium => true
  | low | unknown => false

end DecisionConfidence

/-! ## Estimates -/

inductive OperationalValue (α : Type) where
  | observed (value : α)
  | predicted (value : α)
  | derived (value : α)
  | configured (value : α)
  | unknown
  | unavailable
  deriving DecidableEq

namespace OperationalValue

variable {α : Type}

def value : OperationalValue α → Option α
  | observed v | predicted v | derived v | configured v => some v
  | unknown | unavailable => none

/-- The derived `Debug`, where `shown` is that of the value. -/
def debug (shown : α → String) : OperationalValue α → String
  | observed v => "Observed(" ++ shown v ++ ")"
  | predicted v => "Predicted(" ++ shown v ++ ")"
  | derived v => "Derived(" ++ shown v ++ ")"
  | configured v => "Configured(" ++ shown v ++ ")"
  | unknown => "Unknown"
  | unavailable => "Unavailable"

/-- `self.value().is_some_and(|v| v > limit)`. -/
def exceeds [LT α] [DecidableLT α] (estimate : OperationalValue α) (limit : α) : Bool :=
  estimate.value.any (limit < ·)

theorem exceeds_eq_false_iff [LT α] [DecidableLT α] {estimate : OperationalValue α} {limit : α} :
    estimate.exceeds limit = false ↔ ∀ v ∈ estimate.value, ¬ limit < v := by
  unfold exceeds
  cases estimate.value <;> simp

end OperationalValue

structure CandidateId where
  value : String
  deriving DecidableEq

def CandidateId.new (backendId computeNodeId strategy : String) : CandidateId :=
  ⟨backendId ++ ":" ++ computeNodeId ++ ":" ++ strategy⟩

/-- An identifier of a candidate names its backend, its node and its strategy. -/
theorem CandidateId.new_inj {backend node strategy backend' node' strategy' : String}
    (identifiers : isIdentifier backend = true ∧ isIdentifier node = true)
    (identifiers' : isIdentifier backend' = true ∧ isIdentifier node' = true)
    (same : new backend node strategy = new backend' node' strategy') :
    backend = backend' ∧ node = node' ∧ strategy = strategy' := by
  have written : backend.toList ++ ':' :: (node.toList ++ ':' :: strategy.toList) =
      backend'.toList ++ ':' :: (node'.toList ++ ':' :: strategy'.toList) := by
    simpa [new, List.append_assoc] using congrArg (fun id => id.value.toList) same
  obtain ⟨backends, rest⟩ := append_separator_inj
    (colon_notMem_of_isIdentifier identifiers.1) (colon_notMem_of_isIdentifier identifiers'.1)
    written
  obtain ⟨nodes, strategies⟩ := append_separator_inj
    (colon_notMem_of_isIdentifier identifiers.2) (colon_notMem_of_isIdentifier identifiers'.2) rest
  exact ⟨String.toList_inj.mp backends, String.toList_inj.mp nodes, String.toList_inj.mp strategies⟩

structure CounterfactualEstimate where
  candidateId : CandidateId
  backendId : String
  computeNodeId : String
  model : String
  strategy : String
  predictedTtft : OperationalValue UInt64
  predictedTpot : OperationalValue UInt64
  predictedE2e : OperationalValue UInt64
  predictedCost : OperationalValue F64
  predictedFailureProbability : OperationalValue F64
  predictedKvTransfer : OperationalValue UInt64
  qualityRisk : OperationalValue F64
  confidence : OperationalValue F64
  feasible : Bool
  rejectionReason : Option String
  deriving DecidableEq

/-- `u64::MAX`. -/
def u64Max : UInt64 := .ofNat (2 ^ 64 - 1)

namespace CounterfactualEstimate

variable [Rounding]

/-- Lower is better. -/
def score (c : CounterfactualEstimate) : F64 :=
  let latency := F64.ofU64 (c.predictedE2e.value.getD u64Max) / .finite 1000
  let cost := c.predictedCost.value.getD .posInf
  let risk := c.predictedFailureProbability.value.getD (.finite 1)
  let quality := c.qualityRisk.value.getD (.finite 1)
  let qualityPenalty := .finite 1 - quality.clamp (.finite 0) (.finite 1)
  latency + cost + risk + qualityPenalty

/-- The comparison the candidates are ranked by. -/
def cmpRank (a b : CounterfactualEstimate) : Ordering :=
  (a.score.totalCmp b.score).then (compare a.candidateId.value b.candidateId.value)

/-- The place of a candidate in the ranking. -/
def rank (c : CounterfactualEstimate) : (ℕ ×ₗ ℚ) ×ₗ String :=
  toLex (c.score.totalKey, c.candidateId.value)

theorem isLE_cmpRank {a b : CounterfactualEstimate} :
    (cmpRank a b).isLE = true ↔ a.rank ≤ b.rank := by
  rw [cmpRank, rank, rank, Prod.Lex.toLex_le_toLex, F64.totalCmp]
  rcases lt_trichotomy a.score.totalKey b.score.totalKey with lt | same | gt
  · simp [compare_lt_iff_lt.mpr lt, lt]
  · have ids : (compare a.candidateId.value b.candidateId.value).isLE = true ↔
        a.candidateId.value ≤ b.candidateId.value :=
      Ordering.isLE_iff_ne_gt.trans compare_le_iff_le
    simpa [same] using ids
  · simp [compare_gt_iff_gt.mpr gt, gt.not_gt, gt.ne']

/-- The ranking goes by the score. -/
theorem not_score_lt_of_rank_le {a b : CounterfactualEstimate} (le : a.rank ≤ b.rank) :
    ¬ b.score < a.score := by
  intro lt
  have below : b.rank < a.rank := Prod.Lex.toLex_lt_toLex.mpr (.inl (F64.totalKey_lt_of_lt lt))
  exact le.not_gt below

end CounterfactualEstimate

/-- `CounterfactualEngine::evaluate`. -/
def CounterfactualEngine.evaluate [Rounding] (candidates : List CounterfactualEstimate) :
    List CounterfactualEstimate :=
  sortBy CounterfactualEstimate.cmpRank (candidates.filter (·.feasible))

/-! ## The firewall -/

structure UtilityConfig where
  weightLatency : F64
  weightThroughput : F64
  weightReliability : F64
  weightQuality : F64
  weightCost : F64
  weightKvTransfer : F64
  maxTtft : UInt64
  maxTpot : UInt64
  maxE2e : UInt64
  minQuality : F64
  maxCost : F64
  maxFailureProbability : F64

def UtilityConfig.validate (config : UtilityConfig) : Except IntelligenceError Unit :=
  if [config.weightLatency, config.weightThroughput, config.weightReliability,
      config.weightQuality, config.weightCost, config.weightKvTransfer].any
      fun w => !w.isFinite || w < .finite 0 then
    .error (.invalidConfiguration "weights must be finite and non-negative")
  else if !config.minQuality.isRatio then
    .error (.invalidConfiguration "min_quality must be 0.0..=1.0")
  else if !config.maxCost.isFinite || config.maxCost < .finite 0 then
    .error (.invalidConfiguration "max_cost must be finite and non-negative")
  else if !config.maxFailureProbability.isRatio then
    .error (.invalidConfiguration "max_failure_probability must be 0.0..=1.0")
  else .ok ()

/-- The cost limit of a valid configuration. -/
theorem UtilityConfig.isFinite_maxCost {config : UtilityConfig} (valid : config.validate = .ok ()) :
    config.maxCost.isFinite = true := by
  unfold validate at valid
  split_ifs at valid with _ _ cost
  simp only [Bool.or_eq_true, Bool.not_eq_true', not_or, Bool.not_eq_false] at cost
  exact cost.1

inductive FirewallDecision where
  | approved
  | rejected (reason : String)
  deriving DecidableEq

theorem FirewallDecision.ite_eq_approved {refused : Prop} [Decidable refused] {reason : String}
    {decision : FirewallDecision} :
    (if refused then rejected reason else decision) = approved ↔
      ¬ refused ∧ decision = approved := by
  split_ifs with holds <;> simp [holds]

structure DecisionFirewall where
  config : UtilityConfig
  maxWorldStateAge : Duration

namespace DecisionFirewall

def evaluateCandidate (firewall : DecisionFirewall) (candidate : CounterfactualEstimate)
    (worldState : WorldState) (confidence : DecisionConfidence) (now : SystemTime) :
    FirewallDecision :=
  if firewall.config.validate ≠ .ok () then .rejected "INVALID_CONFIGURATION"
  else if worldState.isStale firewall.maxWorldStateAge now then .rejected "STALE_WORLD_STATE"
  else if !candidate.feasible then .rejected "INFEASIBLE_CANDIDATE"
  else if candidate.predictedTtft.exceeds firewall.config.maxTtft then
    .rejected "SLO_VIOLATION_TTFT"
  else if candidate.predictedTpot.exceeds firewall.config.maxTpot then
    .rejected "SLO_VIOLATION_TPOT"
  else if candidate.predictedE2e.exceeds firewall.config.maxE2e then
    .rejected "SLO_VIOLATION_E2E"
  else if candidate.qualityRisk.value.all (· < firewall.config.minQuality) then
    .rejected "SLO_VIOLATION_QUALITY"
  else if candidate.predictedCost.exceeds firewall.config.maxCost then
    .rejected "SLO_VIOLATION_COST"
  else if candidate.predictedFailureProbability.exceeds firewall.config.maxFailureProbability then
    .rejected "SLO_VIOLATION_RELIABILITY"
  else if !confidence.isSafeForOptimization then .rejected "LOW_CONFIDENCE"
  else .approved

/-- What a candidate has passed that is approved. -/
theorem evaluateCandidate_eq_approved_iff {firewall : DecisionFirewall}
    {candidate : CounterfactualEstimate} {worldState : WorldState}
    {confidence : DecisionConfidence} {now : SystemTime} :
    firewall.evaluateCandidate candidate worldState confidence now = .approved ↔
      firewall.config.validate = .ok () ∧
        worldState.isStale firewall.maxWorldStateAge now = false ∧ candidate.feasible = true ∧
        candidate.predictedTtft.exceeds firewall.config.maxTtft = false ∧
        candidate.predictedTpot.exceeds firewall.config.maxTpot = false ∧
        candidate.predictedE2e.exceeds firewall.config.maxE2e = false ∧
        candidate.qualityRisk.value.all (· < firewall.config.minQuality) = false ∧
        candidate.predictedCost.exceeds firewall.config.maxCost = false ∧
        candidate.predictedFailureProbability.exceeds firewall.config.maxFailureProbability =
          false ∧
        confidence.isSafeForOptimization = true := by
  simp only [evaluateCandidate, FirewallDecision.ite_eq_approved, ne_eq, not_not,
    Bool.not_eq_true, Bool.not_eq_true', Bool.not_eq_false, and_true]

end DecisionFirewall

/-! ## What is kept of decisions -/

structure DecisionRecord where
  requestId : String
  worldRevision : ℕ
  selectedBackend : String
  confidence : DecisionConfidence
  utilityScore : F64
  decisionReason : String
  timestamp : SystemTime

structure DecisionMemory where
  records : List DecisionRecord
  maxRecords : ℕ

namespace DecisionMemory

def new (maxRecords : ℕ) : DecisionMemory := ⟨[], min (max maxRecords 1) 100000⟩

def record (memory : DecisionMemory) (record : DecisionRecord) : DecisionMemory :=
  { memory with records := Ring.pushBounded memory.maxRecords memory.records record }

end DecisionMemory

structure TraceSelection where
  backendId : String
  computeNodeId : String
  model : ModelReference
  strategy : KvStrategy
  score : F64
  fallback : List KvStrategy

structure TraceRejection where
  backendId : String
  computeNodeId : String
  reason : String
  deriving DecidableEq

/-- `DECISION_TRACE_SCHEMA_VERSION`. -/
def decisionTraceSchemaVersion : ℕ := 1

structure DecisionTrace where
  schemaVersion : ℕ
  requestId : String
  capacityRevision : ℕ
  backendRevision : ℕ
  selected : Option TraceSelection
  rejected : List TraceRejection
  rejectedTruncated : Bool
  unavailableNodes : List TraceRejection
  configError : Option String

end TrustRouter
