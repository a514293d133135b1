import TrustRouter.Health
import TrustRouter.Kv

/-!
# The world state

What the intelligence module knows of the world: the nodes and backends that have been
observed, under a revision that grows by one with every observation, and when the last one
was made.  A snapshot of it is refused once that is too long ago.

Wall-clock time is a natural number of nanoseconds, and a reading of the clock is an
argument.  The revision and the counters are natural numbers.  They only ever grow by one, with
an observation, so they are what the `u64`s of the source are until the `2 ^ 64`-th observation.
Token counts are another matter, they come with the request.
-/

namespace TrustRouter

/-- A reading of the wall clock, in nanoseconds. -/
abbrev SystemTime := ℕ

inductive IntelligenceError where
  | invalidObservation (message : String)
  | staleWorldState
  | insufficientData
  | invalidConfiguration (message : String)
  deriving DecidableEq

namespace IntelligenceError

def display : IntelligenceError → String
  | invalidObservation message => "invalid observation: " ++ message
  | staleWorldState => "stale world state"
  | insufficientData => "insufficient data for prediction"
  | invalidConfiguration message => "invalid configuration: " ++ message

/-- The derived `Debug`.  The messages are those of this file, and have nothing to escape. -/
def debug : IntelligenceError → String
  | invalidObservation message => "InvalidObservation(\"" ++ message ++ "\")"
  | staleWorldState => "StaleWorldState"
  | insufficientData => "InsufficientData"
  | invalidConfiguration message => "InvalidConfiguration(\"" ++ message ++ "\")"

end IntelligenceError

/-! ## Observations -/

structure InferenceObservation where
  schemaVersion : ℕ
  requestId : String
  tenant : String
  model : String
  modelVersion : String
  backendId : String
  backendVersion : String
  computeNodeId : String
  accelerator : String
  region : String
  prefillTokens : UInt64
  decodeTokens : UInt64
  totalTokens : UInt64
  queueDelayMs : UInt64
  ttftMs : UInt64
  tpotMs : UInt64
  e2eLatencyMs : UInt64
  gpuUtilization : F64
  gpuMemoryUsedMb : UInt64
  gpuMemoryTotalMb : UInt64
  kvHit : Bool
  kvTokens : UInt64
  kvMemoryMb : UInt64
  kvTransferMs : UInt64
  networkTransferMs : UInt64
  retries : UInt32
  failureClass : Option String
  qualityScore : F64
  estimatedCost : F64
  actualCost : F64
  timestamp : SystemTime
  worldRevision : ℕ

namespace InferenceObservation

/-- `valid_id`. -/
def validId : String → Bool := isIdentifier

/-- `valid_f64_unit`. -/
def validF64Unit : F64 → Bool := F64.isRatio

/-- `valid_f64_nonneg`. -/
def validF64Nonneg : F64 → Bool := F64.isNonNegative

def validate (obs : InferenceObservation) : Except IntelligenceError Unit :=
  if !validId obs.requestId then .error (.invalidObservation "invalid request_id")
  else if !validId obs.tenant then .error (.invalidObservation "invalid tenant")
  else if !validId obs.model then .error (.invalidObservation "invalid model")
  else if !validId obs.backendId then .error (.invalidObservation "invalid backend_id")
  else if !validF64Unit obs.gpuUtilization then
    .error (.invalidObservation "gpu_utilization must be 0.0..=1.0")
  else if !validF64Unit obs.qualityScore then
    .error (.invalidObservation "quality_score must be 0.0..=1.0")
  else if !validF64Nonneg obs.estimatedCost then
    .error (.invalidObservation "estimated_cost must be finite and non-negative")
  else if !validF64Nonneg obs.actualCost then
    .error (.invalidObservation "actual_cost must be finite and non-negative")
  else .ok ()

/-- A check that is passed. -/
theorem ite_error_eq_ok_iff {refused : Prop} [Decidable refused] {error : IntelligenceError}
    {rest : Except IntelligenceError Unit} :
    (if refused then .error error else rest) = .ok () ↔ ¬ refused ∧ rest = .ok () := by
  split_ifs with holds <;> simp [holds]

/-- What is checked of an observation. -/
theorem validate_eq_ok_iff {obs : InferenceObservation} :
    obs.validate = .ok () ↔
      isIdentifier obs.requestId = true ∧ isIdentifier obs.tenant = true ∧
        isIdentifier obs.model = true ∧ isIdentifier obs.backendId = true ∧
        obs.gpuUtilization.isRatio = true ∧ obs.qualityScore.isRatio = true ∧
        obs.estimatedCost.isNonNegative = true ∧ obs.actualCost.isNonNegative = true := by
  simp only [validate, validId, validF64Unit, validF64Nonneg, ite_error_eq_ok_iff,
    Bool.not_eq_true', Bool.not_eq_false, and_true]

end InferenceObservation

/-! ## The state and its manager -/

structure WorldState where
  schemaVersion : ℕ
  revision : ℕ
  observedAt : SystemTime
  nodes : List String
  backends : List String
  healthStates : HashMap String String

namespace WorldState

/-- A clock that has been set back before the last observation counts as stale. -/
def isStale (state : WorldState) (maxAge : Duration) (now : SystemTime) : Bool :=
  now < state.observedAt || maxAge < now - state.observedAt

theorem isStale_eq_false_iff {state : WorldState} {maxAge : Duration} {now : SystemTime} :
    state.isStale maxAge now = false ↔
      state.observedAt ≤ now ∧ now - state.observedAt ≤ maxAge := by
  simp [isStale]

end WorldState

structure WorldStateManager where
  state : WorldState
  maxObservationAge : Duration
  observationsAccepted : ℕ
  observationsRejected : ℕ

namespace WorldStateManager

def new (maxObservationAge : Duration) (now : SystemTime) : WorldStateManager where
  state :=
    { schemaVersion := 1
      revision := 0
      observedAt := now
      nodes := []
      backends := []
      healthStates := ∅ }
  maxObservationAge := maxObservationAge
  observationsAccepted := 0
  observationsRejected := 0

/-- The revision an observation is recorded at, and what becomes of the manager.  An
observation that is refused leaves it alone, and is not counted either. -/
def ingest (manager : WorldStateManager) (obs : InferenceObservation) (now : SystemTime) :
    Except IntelligenceError ℕ × WorldStateManager :=
  match obs.validate with
  | .error error => (.error error, manager)
  | .ok _ =>
      let state := manager.state
      (.ok (state.revision + 1),
        { manager with
          state :=
            { state with
              revision := state.revision + 1
              observedAt := now
              nodes :=
                if obs.computeNodeId ∈ state.nodes then state.nodes
                else state.nodes ++ [obs.computeNodeId]
              backends :=
                if obs.backendId ∈ state.backends then state.backends
                else state.backends ++ [obs.backendId]
              healthStates := state.healthStates.insert obs.backendId "observed" }
          observationsAccepted := manager.observationsAccepted + 1 })

def snapshot (manager : WorldStateManager) (now : SystemTime) :
    Except IntelligenceError WorldState :=
  if manager.state.isStale manager.maxObservationAge now then .error .staleWorldState
  else .ok manager.state

def revision (manager : WorldStateManager) : ℕ := manager.state.revision

def acceptedCount (manager : WorldStateManager) : ℕ := manager.observationsAccepted

def rejectedCount (manager : WorldStateManager) : ℕ := manager.observationsRejected

variable {manager : WorldStateManager} {obs : InferenceObservation} {now : SystemTime}

/-- What a recorded observation does to the revision. -/
theorem ingest_eq_ok {revision : ℕ} (recorded : (manager.ingest obs now).1 = .ok revision) :
    revision = manager.revision + 1 ∧ (manager.ingest obs now).2.revision = revision := by
  unfold ingest at recorded ⊢
  cases valid : obs.validate with
  | error error => simp [valid] at recorded
  | ok _ =>
      rw [valid] at recorded
      obtain rfl := Except.ok.inj recorded
      exact ⟨rfl, rfl⟩

/-- An observation that is not recorded leaves the manager alone. -/
theorem ingest_eq_error {error : IntelligenceError}
    (refused : (manager.ingest obs now).1 = .error error) :
    (manager.ingest obs now).2 = manager := by
  unfold ingest at refused ⊢
  cases valid : obs.validate with
  | error error => rfl
  | ok _ => simp [valid] at refused

/-- What a valid observation does. -/
theorem ingest_of_valid (valid : obs.validate = .ok ()) :
    (manager.ingest obs now).1 = .ok (manager.revision + 1) ∧
      (manager.ingest obs now).2.state.observedAt = now ∧
      (manager.ingest obs now).2.maxObservationAge = manager.maxObservationAge := by
  unfold ingest
  rw [valid]
  exact ⟨rfl, rfl, rfl⟩

theorem snapshot_eq_ok_iff {state : WorldState} :
    manager.snapshot now = .ok state ↔
      manager.state.isStale manager.maxObservationAge now = false ∧ state = manager.state := by
  unfold snapshot
  split_ifs with stale <;> simp [stale, eq_comm]

end WorldStateManager

end TrustRouter
