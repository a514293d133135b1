import Mathlib.Data.Finset.Insert
import TrustRouter.Identifier
import TrustRouter.Prelude.Collections
import TrustRouter.Prelude.F64

/-!
# Key-value cache strategies

Which models are known, which pairs of them are known to have compatible key-value caches,
and what `KvIntelligence::select` makes of it for a request: the strategy asked for, or
normal prefill with the reason it fell back.

The registries are only looked up in, so they are hash maps here, and the sets of
strategies are finite sets.
-/

namespace TrustRouter

structure ModelReference where
  modelId : String
  modelVersion : String
  deriving DecidableEq

inductive InferenceStrategy where
  | normalPrefill
  deriving DecidableEq

inductive KvStrategy where
  | none
  | prefixCache
  | cachedKv
  | crossModelKvTransfer
  deriving DecidableEq

/-- The derived `Debug`. -/
def KvStrategy.debug : KvStrategy → String
  | none => "None"
  | prefixCache => "PrefixCache"
  | cachedKv => "CachedKv"
  | crossModelKvTransfer => "CrossModelKvTransfer"

theorem KvStrategy.debug_injective : Function.Injective debug := by
  intro first second
  cases first <;> cases second <;> decide

structure ModelCapabilities where
  kvStrategies : Finset KvStrategy
  deriving DecidableEq

namespace ModelCapabilities

def normalPrefill : ModelCapabilities := ⟨∅⟩

def withKv (capabilities : ModelCapabilities) (value : KvStrategy) : ModelCapabilities :=
  if value ≠ .none then ⟨insert value capabilities.kvStrategies⟩ else capabilities

def supports (capabilities : ModelCapabilities) (value : KvStrategy) : Bool :=
  value = .none || value ∈ capabilities.kvStrategies

end ModelCapabilities

structure ModelMetadata where
  model : ModelReference
  kvLayout : String
  capabilities : ModelCapabilities
  deriving DecidableEq

inductive KvError where
  | invalid (message : String)
  | duplicateModel (model : ModelReference)
  | unknownModel (modelId : String)
  | unknownVersion (model : ModelReference)
  | duplicateCompatibility
  deriving DecidableEq

/-- The `valid` of the key-value module. -/
def Kv.valid : String → Bool := isIdentifier

/-! ## Registries -/

structure ModelRegistry where
  models : HashMap ModelReference ModelMetadata
  revision : ℕ

namespace ModelRegistry

instance : Inhabited ModelRegistry := ⟨⟨∅, 0⟩⟩

def register (registry : ModelRegistry) (metadata : ModelMetadata) :
    Except KvError ModelRegistry :=
  if !Kv.valid metadata.model.modelId || !Kv.valid metadata.model.modelVersion ||
      !Kv.valid metadata.kvLayout || KvStrategy.none ∈ metadata.capabilities.kvStrategies then
    .error (.invalid "invalid model metadata")
  else if registry.models.containsKey metadata.model then
    .error (.duplicateModel metadata.model)
  else
    .ok
      { models := registry.models.insert metadata.model metadata
        revision := registry.revision + 1 }

def lookup (registry : ModelRegistry) (model : ModelReference) : Except KvError ModelMetadata :=
  match registry.models.lookup model with
  | some metadata => .ok metadata
  | none =>
      if registry.models.entries.any fun entry => entry.1.modelId = model.modelId then
        .error (.unknownVersion model)
      else
        .error (.unknownModel model.modelId)

end ModelRegistry

structure KvCompatibilityRecord where
  source : ModelReference
  target : ModelReference
  supported : Bool
  mappingVersion : Option String
  qualityRetention : Option F64
  qualityVariance : Option F64
  transferLatencyP50Ms : Option F64
  transferLatencyP95Ms : Option F64
  failureRate : Option F64
  sampleCount : Option UInt64
  confidence : Option F64
  deriving DecidableEq

/-- `v.is_finite() && (0.0..=1.0).contains(&v)`. -/
def F64.isRatio (value : F64) : Bool :=
  value.isFinite && .finite 0 ≤ value && value ≤ .finite 1

/-- `v.is_finite() && v >= 0.0`. -/
def F64.isNonNegative (value : F64) : Bool := value.isFinite && .finite 0 ≤ value

namespace KvCompatibilityRecord

def validate (record : KvCompatibilityRecord) : Except KvError Unit :=
  if record.source = record.target || !Kv.valid record.source.modelId ||
      !Kv.valid record.source.modelVersion || !Kv.valid record.target.modelId ||
      !Kv.valid record.target.modelVersion then
    .error (.invalid "invalid source or target model")
  else if record.supported && record.mappingVersion.isNone then
    .error (.invalid "supported transfer requires a mapping version")
  else if record.mappingVersion.any (!Kv.valid ·) then
    .error (.invalid "invalid mapping version")
  else if [record.qualityRetention, record.failureRate, record.confidence].reduceOption.any
      (!·.isRatio) then
    .error (.invalid "invalid ratio measurement")
  else if [record.qualityVariance, record.transferLatencyP50Ms,
      record.transferLatencyP95Ms].reduceOption.any (!·.isNonNegative) then
    .error (.invalid "invalid non-negative measurement")
  else if record.sampleCount = some 0 then
    .error (.invalid "sample_count must be positive")
  else
    match record.transferLatencyP50Ms, record.transferLatencyP95Ms with
    | some p50, some p95 =>
        if p95 < p50 then .error (.invalid "transfer p95 cannot be below p50") else .ok ()
    | _, _ => .ok ()

end KvCompatibilityRecord

structure KvCompatibilityRegistry where
  records : HashMap (ModelReference × ModelReference) KvCompatibilityRecord
  revision : ℕ

namespace KvCompatibilityRegistry

instance : Inhabited KvCompatibilityRegistry := ⟨⟨∅, 0⟩⟩

def register (registry : KvCompatibilityRegistry) (record : KvCompatibilityRecord) :
    Except KvError KvCompatibilityRegistry := do
  record.validate
  if registry.records.containsKey (record.source, record.target) then
    throw .duplicateCompatibility
  return {
    records := registry.records.insert (record.source, record.target) record
    revision := registry.revision + 1 }

def lookup (registry : KvCompatibilityRegistry) (source target : ModelReference) :
    Option KvCompatibilityRecord :=
  registry.records.lookup (source, target)

end KvCompatibilityRegistry

/-! ## Selection -/

structure KvPolicy where
  minQualityRetention : F64
  maxQualityVariance : F64
  minConfidence : F64
  maxFailureRate : F64
  deriving DecidableEq

namespace KvPolicy

instance [Rounding] : Inhabited KvPolicy where
  default :=
    { minQualityRetention := .ofRat (95 / 100)
      maxQualityVariance := .ofRat (2 / 100)
      minConfidence := .ofRat (95 / 100)
      maxFailureRate := .ofRat (1 / 100) }

def validate (policy : KvPolicy) : Except KvError Unit :=
  if [policy.minQualityRetention, policy.maxQualityVariance, policy.minConfidence,
      policy.maxFailureRate].any (!·.isRatio) then
    .error (.invalid "invalid KV policy ratio")
  else .ok ()

end KvPolicy

structure KvPlanningContext where
  target : ModelReference
  source : Option ModelReference
  requested : KvStrategy
  deriving DecidableEq

inductive KvFallbackReason where
  | unknownModel
  | unknownVersion
  | unknownSourceModel
  | unknownSourceVersion
  | unsupportedStrategy
  | missingSource
  | compatibilityUnknown
  | compatibilityNotSupported
  | measurementsUnknown
  | insufficientQuality
  | excessQualityVariance
  | insufficientConfidence
  | unreliableTransfer
  | invalidPolicy
  deriving DecidableEq

structure KvPlanMetadata where
  inferenceStrategy : InferenceStrategy
  strategy : KvStrategy
  target : Option ModelReference
  source : Option ModelReference
  mappingVersion : Option String
  modelRevision : ℕ
  compatibilityRevision : ℕ
  fallbackReason : Option KvFallbackReason
  deriving DecidableEq

structure KvIntelligence where
  models : ModelRegistry
  compatibility : KvCompatibilityRegistry
  policy : KvPolicy

namespace KvIntelligence

instance [Rounding] : Inhabited KvIntelligence := ⟨⟨default, default, default⟩⟩

def normal (kv : KvIntelligence) : KvPlanMetadata where
  inferenceStrategy := .normalPrefill
  strategy := .none
  target := none
  source := none
  mappingVersion := none
  modelRevision := kv.models.revision
  compatibilityRevision := kv.compatibility.revision
  fallbackReason := none

/-- Normal prefill, with the reason why it is not the strategy asked for. -/
def fallback (kv : KvIntelligence) (context : KvPlanningContext) (reason : KvFallbackReason) :
    KvPlanMetadata :=
  { kv.normal with
    target := some context.target
    source := context.source
    fallbackReason := some reason }

/-- The strategy asked for. -/
def granted (kv : KvIntelligence) (context : KvPlanningContext) (mappingVersion : Option String) :
    KvPlanMetadata :=
  { kv.normal with
    strategy := context.requested
    target := some context.target
    source := context.source
    mappingVersion := mappingVersion }

/-- What is checked of the compatibility record for a transfer between models. -/
def checkRecord (kv : KvIntelligence) (record : KvCompatibilityRecord) :
    Except KvFallbackReason String :=
  if !record.supported then .error .compatibilityNotSupported
  else
    match record.mappingVersion, record.qualityRetention, record.qualityVariance,
      record.failureRate, record.sampleCount, record.confidence, record.transferLatencyP50Ms,
      record.transferLatencyP95Ms with
    | some mapping, some quality, some variance, some failure, some samples, some confidence,
      some _, some _ =>
        if samples = 0 then .error .measurementsUnknown
        else if quality < kv.policy.minQualityRetention then .error .insufficientQuality
        else if kv.policy.maxQualityVariance < variance then .error .excessQualityVariance
        else if confidence < kv.policy.minConfidence then .error .insufficientConfidence
        else if kv.policy.maxFailureRate < failure then .error .unreliableTransfer
        else .ok mapping
    | _, _, _, _, _, _, _, _ => .error .measurementsUnknown

/-- A transfer from another model's cache. -/
def selectTransfer (kv : KvIntelligence) (context : KvPlanningContext) : KvPlanMetadata :=
  match context.source with
  | none => kv.fallback context .missingSource
  | some source =>
      match kv.models.lookup source with
      | .error (.unknownVersion _) => kv.fallback context .unknownSourceVersion
      | .error _ => kv.fallback context .unknownSourceModel
      | .ok sourceMetadata =>
          if !sourceMetadata.capabilities.supports context.requested then
            kv.fallback context .unsupportedStrategy
          else
            match kv.compatibility.lookup source context.target with
            | none => kv.fallback context .compatibilityUnknown
            | some record =>
                match kv.checkRecord record with
                | .error reason => kv.fallback context reason
                | .ok mapping => kv.granted context (some mapping)

def select (kv : KvIntelligence) (context : KvPlanningContext) : KvPlanMetadata :=
  match kv.policy.validate with
  | .error _ => kv.fallback context .invalidPolicy
  | .ok _ =>
      match kv.models.lookup context.target with
      | .error (.unknownVersion _) => kv.fallback context .unknownVersion
      | .error _ => kv.fallback context .unknownModel
      | .ok target =>
          if context.requested = .none then kv.normal
          else if !target.capabilities.supports context.requested then
            kv.fallback context .unsupportedStrategy
          else if context.requested ≠ .crossModelKvTransfer then kv.granted context none
          else kv.selectTransfer context

/-- What is asked for is selected, and not something else for a reason. -/
def Grants (kv : KvIntelligence) (context : KvPlanningContext) : Prop :=
  (kv.select context).strategy = context.requested ∧ (kv.select context).fallbackReason = none

/-- A strategy is selected, or there is a reason why not, and then nothing is transferred. -/
theorem strategy_select_of_fallback {kv : KvIntelligence} {context : KvPlanningContext}
    {reason : KvFallbackReason} (fell : (kv.select context).fallbackReason = some reason) :
    (kv.select context).strategy = .none := by
  revert fell
  unfold select selectTransfer
  repeat' split
  all_goals simp [fallback, granted, normal]

end KvIntelligence

end TrustRouter
