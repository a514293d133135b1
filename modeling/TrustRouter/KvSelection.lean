import TrustRouter.Kv
import TrustRouter.Prelude.Run

/-!
# What a key-value selection says

The registries a selection looks into grow by `register` only.  What that gives is
`WellFormed`: every entry is under its own key and has passed its checks, and the
revisions count the entries.

On such registries `select` is the declared policy and nothing else (`selectsAsDeclared`),
and what it grants it grants for good, whatever is registered later (`grantsForGood`).
Both come from one inversion: a selection other than normal prefill is one that
`Grants` a mapping, and only that (`select_cases`).
-/

namespace TrustRouter

theorem F64.isRatio_ne_nan {value : F64} (ratio : value.isRatio = true) : value ≠ .nan := by
  rintro rfl
  cases ratio

theorem F64.isNonNegative_ne_nan {value : F64} (nonNegative : value.isNonNegative = true) :
    value ≠ .nan := by
  rintro rfl
  cases nonNegative

/-! ## What is registered -/

namespace ModelRegistry

/-- The model is registered and declares the strategy. -/
def Declares (registry : ModelRegistry) (model : ModelReference) (strategy : KvStrategy) : Prop :=
  ∃ key metadata, registry.models.lookup key = some metadata ∧ metadata.model = model ∧
    strategy ∈ metadata.capabilities.kvStrategies

/-- The model is registered. -/
def Registered (registry : ModelRegistry) (model : ModelReference) : Prop :=
  ∃ key metadata, registry.models.lookup key = some metadata ∧ metadata.model = model

/-- Every entry is under its own reference and declares strategies proper, and the
revision counts the entries. -/
structure WellFormed (registry : ModelRegistry) : Prop where
  keyed : ∀ model metadata, registry.models.lookup model = some metadata →
    metadata.model = model ∧ .none ∉ metadata.capabilities.kvStrategies
  counted : registry.revision = registry.models.len

variable {registry registry' : ModelRegistry} {metadata : ModelMetadata}

theorem lookup_eq_ok_iff {model : ModelReference} :
    registry.lookup model = .ok metadata ↔ registry.models.lookup model = some metadata := by
  unfold lookup
  split
  · simp [*]
  · split_ifs <;> simp [*]

/-- What a registration that succeeds does. -/
theorem register_eq_ok (registered : registry.register metadata = .ok registry') :
    .none ∉ metadata.capabilities.kvStrategies ∧
      registry.models.lookup metadata.model = none ∧
      registry'.models = registry.models.insert metadata.model metadata ∧
      registry'.revision = registry.revision + 1 := by
  unfold register at registered
  split_ifs at registered with invalid known
  obtain rfl := Except.ok.inj registered
  simp only [Bool.or_eq_true, decide_eq_true_eq, not_or] at invalid
  exact ⟨invalid.2, by simpa [HashMap.containsKey] using known, rfl, rfl⟩

theorem WellFormed.register (wellFormed : registry.WellFormed)
    (registered : registry.register metadata = .ok registry') : registry'.WellFormed := by
  obtain ⟨proper, absent, models, revision⟩ := register_eq_ok registered
  constructor
  · intro model found lookup
    rw [models, HashMap.lookup_insert_eq] at lookup
    split_ifs at lookup with same
    · obtain rfl := Option.some.inj lookup
      exact ⟨same.symm, proper⟩
    · exact wellFormed.keyed model found lookup
  · rw [models, revision, wellFormed.counted, HashMap.len_insert_of_lookup_eq_none absent]

/-- A registration takes nothing away. -/
theorem lookup_register (registered : registry.register metadata = .ok registry')
    {model : ModelReference} {found : ModelMetadata}
    (known : registry.models.lookup model = some found) :
    registry'.models.lookup model = some found := by
  obtain ⟨-, absent, models, -⟩ := register_eq_ok registered
  rw [models, HashMap.lookup_insert_eq, if_neg, known]
  rintro rfl
  rw [absent] at known
  cases known

theorem WellFormed.registered_iff (wellFormed : registry.WellFormed) {model : ModelReference} :
    registry.Registered model ↔ ∃ metadata, registry.models.lookup model = some metadata := by
  constructor
  · rintro ⟨key, metadata, found, rfl⟩
    obtain rfl := (wellFormed.keyed key metadata found).1
    exact ⟨metadata, found⟩
  · rintro ⟨metadata, found⟩
    exact ⟨model, metadata, found, (wellFormed.keyed model metadata found).1⟩

theorem WellFormed.declares_iff (wellFormed : registry.WellFormed) {model : ModelReference}
    {strategy : KvStrategy} :
    registry.Declares model strategy ↔ ∃ metadata, registry.models.lookup model = some metadata ∧
      strategy ∈ metadata.capabilities.kvStrategies := by
  constructor
  · rintro ⟨key, metadata, found, rfl, declared⟩
    obtain rfl := (wellFormed.keyed key metadata found).1
    exact ⟨metadata, found, declared⟩
  · rintro ⟨metadata, found, declared⟩
    exact ⟨model, metadata, found, (wellFormed.keyed model metadata found).1, declared⟩

end ModelRegistry

namespace KvCompatibilityRecord

variable {record : KvCompatibilityRecord}

/-- The facts the checks of a record leave for a selection. -/
theorem of_validate (valid : record.validate = .ok ()) :
    (record.supported = true → record.mappingVersion ≠ none) ∧
      (∀ value ∈ [record.qualityRetention, record.failureRate, record.confidence].reduceOption,
        value.isRatio = true) ∧
      (∀ value ∈ record.qualityVariance, value.isNonNegative = true) ∧
      record.sampleCount ≠ some 0 := by
  unfold validate at valid
  split_ifs at valid with models mapped mapping ratios measured sampled
  · refine ⟨?_, ?_, ?_, sampled⟩
    · simpa using mapped
    · simpa using ratios
    · intro value some
      simp only [List.any_eq_true, not_exists, not_and, Bool.not_eq_true,
        Bool.not_eq_false'] at measured
      exact measured value (by simp [List.reduceOption_mem_iff, Option.mem_def.mp some])

/-- The record is supported, and its measurements are there and within the policy. -/
structure Within (record : KvCompatibilityRecord) (policy : KvPolicy) : Prop where
  supported : record.supported = true
  quality : ∃ quality ∈ record.qualityRetention, policy.minQualityRetention ≤ quality
  variance : ∃ variance ∈ record.qualityVariance, variance ≤ policy.maxQualityVariance
  failure : ∃ failure ∈ record.failureRate, failure ≤ policy.maxFailureRate
  confidence : ∃ confidence ∈ record.confidence, policy.minConfidence ≤ confidence
  sampleCount : record.sampleCount ≠ none
  p50 : record.transferLatencyP50Ms ≠ none
  p95 : record.transferLatencyP95Ms ≠ none

end KvCompatibilityRecord

namespace KvCompatibilityRegistry

/-- The record is registered, for a transfer from `source` to `target`. -/
def Records (registry : KvCompatibilityRegistry) (record : KvCompatibilityRecord)
    (source target : ModelReference) : Prop :=
  (∃ pair, registry.records.lookup pair = some record) ∧ record.source = source ∧
    record.target = target

/-- Every entry is a valid record under its own pair, and the revision counts the entries. -/
structure WellFormed (registry : KvCompatibilityRegistry) : Prop where
  keyed : ∀ pair record, registry.records.lookup pair = some record →
    (record.source, record.target) = pair ∧ record.validate = .ok ()
  counted : registry.revision = registry.records.len

variable {registry registry' : KvCompatibilityRegistry} {record : KvCompatibilityRecord}

/-- What a registration that succeeds does. -/
theorem register_eq_ok (registered : registry.register record = .ok registry') :
    record.validate = .ok () ∧
      registry.records.lookup (record.source, record.target) = none ∧
      registry'.records = registry.records.insert (record.source, record.target) record ∧
      registry'.revision = registry.revision + 1 := by
  unfold register at registered
  cases valid : record.validate with
  | error error => simp [valid, bind, Except.bind] at registered
  | ok _ =>
      rw [valid] at registered
      simp only [bind, Except.bind] at registered
      split_ifs at registered with known
      obtain rfl := Except.ok.inj registered
      exact ⟨rfl, by simpa [HashMap.containsKey] using known, rfl, rfl⟩

theorem WellFormed.register (wellFormed : registry.WellFormed)
    (registered : registry.register record = .ok registry') : registry'.WellFormed := by
  obtain ⟨valid, absent, records, revision⟩ := register_eq_ok registered
  constructor
  · intro pair found lookup
    rw [records, HashMap.lookup_insert_eq] at lookup
    split_ifs at lookup with same
    · obtain rfl := Option.some.inj lookup
      exact ⟨same.symm, valid⟩
    · exact wellFormed.keyed pair found lookup
  · rw [records, revision, wellFormed.counted, HashMap.len_insert_of_lookup_eq_none absent]

/-- A registration takes nothing away. -/
theorem lookup_register (registered : registry.register record = .ok registry')
    {pair : ModelReference × ModelReference} {found : KvCompatibilityRecord}
    (known : registry.records.lookup pair = some found) :
    registry'.records.lookup pair = some found := by
  obtain ⟨-, absent, records, -⟩ := register_eq_ok registered
  rw [records, HashMap.lookup_insert_eq, if_neg, known]
  rintro rfl
  rw [absent] at known
  cases known

theorem WellFormed.records_iff (wellFormed : registry.WellFormed) {source target : ModelReference} :
    registry.Records record source target ↔ registry.lookup source target = some record := by
  unfold Records lookup
  constructor
  · rintro ⟨⟨pair, found⟩, rfl, rfl⟩
    obtain rfl := (wellFormed.keyed pair record found).1
    exact found
  · intro found
    exact ⟨⟨_, found⟩, Prod.ext_iff.mp (wellFormed.keyed _ record found).1⟩

end KvCompatibilityRegistry

/-! ## What is selected -/

namespace KvIntelligence

variable {kv : KvIntelligence} {context : KvPlanningContext}

/-- The conditions under which `select` grants what is asked for, in the terms of its
lookups, and the mapping it grants it with. -/
structure Admits (kv : KvIntelligence) (context : KvPlanningContext) (mapping : Option String) :
    Prop where
  policy : kv.policy.validate = .ok ()
  asked : context.requested ≠ .none
  target : ∃ target, kv.models.models.lookup context.target = some target ∧
    context.requested ∈ target.capabilities.kvStrategies
  within : context.requested ≠ .crossModelKvTransfer → mapping = none
  transfer : context.requested = .crossModelKvTransfer → ∃ source ∈ context.source,
    (∃ metadata, kv.models.models.lookup source = some metadata ∧
      context.requested ∈ metadata.capabilities.kvStrategies) ∧
    ∃ record, kv.compatibility.lookup source context.target = some record ∧
      ∃ version, kv.checkRecord record = .ok version ∧ mapping = some version

theorem supports_iff {capabilities : ModelCapabilities} {strategy : KvStrategy}
    (proper : strategy ≠ .none) :
    capabilities.supports strategy = true ↔ strategy ∈ capabilities.kvStrategies := by
  simp [ModelCapabilities.supports, proper]

/-- What is admitted is granted. -/
theorem select_of_admits {mapping : Option String} (admits : kv.Admits context mapping) :
    kv.select context = kv.granted context mapping := by
  obtain ⟨target, known, declared⟩ := admits.target
  have supported := (supports_iff admits.asked).mpr declared
  unfold select
  simp only [admits.policy, ModelRegistry.lookup_eq_ok_iff.mpr known, admits.asked, supported,
    Bool.not_true, Bool.false_eq_true, if_false, ne_eq, ite_not]
  split_ifs with transfers
  · obtain ⟨source, given, ⟨metadata, sourceKnown, sourceDeclared⟩, record, recorded, version,
      passed, rfl⟩ := admits.transfer transfers
    have sourceSupported := (supports_iff admits.asked).mpr sourceDeclared
    unfold selectTransfer
    simp [Option.mem_def.mp given, ModelRegistry.lookup_eq_ok_iff.mpr sourceKnown,
      sourceSupported, recorded, passed]
  · rw [admits.within transfers]

/-- A transfer that is selected passes every check, one that is not has a reason. -/
theorem selectTransfer_cases (kv : KvIntelligence) (context : KvPlanningContext)
    (asked : context.requested ≠ .none) :
    (∃ reason, kv.selectTransfer context = kv.fallback context reason) ∨
      ∃ source ∈ context.source,
        (∃ metadata, kv.models.models.lookup source = some metadata ∧
          context.requested ∈ metadata.capabilities.kvStrategies) ∧
        ∃ record, kv.compatibility.lookup source context.target = some record ∧
          ∃ version, kv.checkRecord record = .ok version ∧
            kv.selectTransfer context = kv.granted context (some version) := by
  unfold selectTransfer
  cases given : context.source with
  | none => exact Or.inl ⟨_, rfl⟩
  | some source =>
      dsimp only
      split
      · exact Or.inl ⟨_, rfl⟩
      · exact Or.inl ⟨_, rfl⟩
      next metadata known =>
        split_ifs with unsupported
        · exact Or.inl ⟨_, rfl⟩
        split
        · exact Or.inl ⟨_, rfl⟩
        next record recorded =>
          split
          · exact Or.inl ⟨_, rfl⟩
          next version passed =>
            simp only [Bool.not_eq_true', Bool.not_eq_false] at unsupported
            exact Or.inr ⟨source, rfl, ⟨metadata, ModelRegistry.lookup_eq_ok_iff.mp known,
              (supports_iff asked).mp unsupported⟩, record, recorded, version, passed, rfl⟩

/-- The exits of `select`. -/
theorem select_cases (kv : KvIntelligence) (context : KvPlanningContext) :
    (∃ mapping, kv.Admits context mapping) ∨
      (∃ reason, kv.select context = kv.fallback context reason) ∨
      kv.policy.validate = .ok () ∧ context.requested = .none ∧
        (∃ target, kv.models.models.lookup context.target = some target) ∧
        kv.select context = kv.normal := by
  unfold select
  split
  · exact Or.inr (Or.inl ⟨_, rfl⟩)
  next _ policy =>
    split
    · exact Or.inr (Or.inl ⟨_, rfl⟩)
    · exact Or.inr (Or.inl ⟨_, rfl⟩)
    next target known =>
      have known := ModelRegistry.lookup_eq_ok_iff.mp known
      split_ifs with nothing unsupported transfers
      · exact Or.inr (Or.inr ⟨policy, nothing, ⟨target, known⟩, rfl⟩)
      · exact Or.inr (Or.inl ⟨_, rfl⟩)
      · simp only [Bool.not_eq_true', Bool.not_eq_false] at unsupported
        have declared := (supports_iff nothing).mp unsupported
        exact Or.inl ⟨none, policy, nothing, ⟨target, known, declared⟩, fun _ => rfl,
          fun transfer => absurd transfer transfers⟩
      · simp only [Bool.not_eq_true', Bool.not_eq_false] at unsupported
        have declared := (supports_iff nothing).mp unsupported
        rcases kv.selectTransfer_cases context nothing with fell | passes
        · exact Or.inr (Or.inl fell)
        · obtain ⟨source, given, sourceDeclared, record, recorded, version, passed, -⟩ := passes
          exact Or.inl ⟨some version, policy, nothing, ⟨target, known, declared⟩,
            fun within => absurd (not_not.mp transfers) within,
            fun _ => ⟨source, given, sourceDeclared, record, recorded, version, passed, rfl⟩⟩

/-- A strategy is selected exactly where one is admitted. -/
theorem strategy_select_ne_none_iff :
    (kv.select context).strategy ≠ .none ↔ ∃ mapping, kv.Admits context mapping := by
  constructor
  · intro selected
    rcases kv.select_cases context with admits | ⟨reason, fell⟩ | ⟨-, -, -, prefill⟩
    · exact admits
    · exact absurd (by rw [fell]; rfl) selected
    · exact absurd (by rw [prefill]; rfl) selected
  · rintro ⟨mapping, admits⟩
    rw [select_of_admits admits]
    exact admits.asked

/-- What is checked of a valid record, under a valid policy: that it is within it. -/
theorem checkRecord_eq_ok_iff {record : KvCompatibilityRecord} {version : String}
    (policy : kv.policy.validate = .ok ()) (valid : record.validate = .ok ()) :
    kv.checkRecord record = .ok version ↔
      record.Within kv.policy ∧ record.mappingVersion = some version := by
  obtain ⟨-, ratios, nonNegative, sampled⟩ := record.of_validate valid
  simp only [KvPolicy.validate, List.any_cons, List.any_nil, Bool.or_false] at policy
  split_ifs at policy with bounds
  simp only [Bool.or_eq_true, Bool.not_eq_true', not_or, Bool.not_eq_false] at bounds
  obtain ⟨minQuality, maxVariance, minConfidence, maxFailure⟩ := bounds
  unfold checkRecord
  split_ifs with unsupported
  · refine ⟨(fun passed => by cases passed), fun within => ?_⟩
    simp [within.1.supported] at unsupported
  split
  case h_2 missing =>
    -- one of the measurements is not there
    refine ⟨(fun passed => by cases passed), fun ⟨within, mapped⟩ => ?_⟩
    obtain ⟨quality, hasQuality, -⟩ := within.quality
    obtain ⟨variance, hasVariance, -⟩ := within.variance
    obtain ⟨failure, hasFailure, -⟩ := within.failure
    obtain ⟨confidence, hasConfidence, -⟩ := within.confidence
    obtain ⟨samples, hasSamples⟩ := Option.ne_none_iff_exists'.mp within.sampleCount
    obtain ⟨p50, hasP50⟩ := Option.ne_none_iff_exists'.mp within.p50
    obtain ⟨p95, hasP95⟩ := Option.ne_none_iff_exists'.mp within.p95
    exact absurd hasP95 (missing _ _ _ _ _ _ _ _ mapped hasQuality hasVariance hasFailure
      hasSamples hasConfidence hasP50)
  case h_1 mapping quality variance failure samples confidence p50 p95 mapped hasQuality
      hasVariance hasFailure hasSamples hasConfidence hasP50 hasP95 =>
    have isRatio : ∀ value, some value ∈
        [record.qualityRetention, record.failureRate, record.confidence] → value ≠ .nan :=
      fun value mem => F64.isRatio_ne_nan (ratios value (List.reduceOption_mem_iff.mpr mem))
    have someSamples : samples ≠ 0 := by
      rintro rfl
      exact sampled hasSamples
    rw [if_neg someSamples]
    have isSupported : record.supported = true := by simpa using unsupported
    have within : record.Within kv.policy ↔ ¬ quality < kv.policy.minQualityRetention ∧
        ¬ kv.policy.maxQualityVariance < variance ∧ ¬ confidence < kv.policy.minConfidence ∧
        ¬ kv.policy.maxFailureRate < failure := by
      rw [F64.not_lt_iff (F64.isRatio_ne_nan minQuality) (isRatio _ (by simp [hasQuality])),
        F64.not_lt_iff (F64.isNonNegative_ne_nan (nonNegative _ hasVariance))
          (F64.isRatio_ne_nan maxVariance),
        F64.not_lt_iff (F64.isRatio_ne_nan minConfidence) (isRatio _ (by simp [hasConfidence])),
        F64.not_lt_iff (isRatio _ (by simp [hasFailure])) (F64.isRatio_ne_nan maxFailure)]
      constructor
      · rintro ⟨-, qualityOk, varianceOk, failureOk, confidenceOk, -⟩
        simp only [hasQuality, hasVariance, hasFailure, hasConfidence, Option.mem_some_iff,
          exists_eq_left'] at qualityOk varianceOk failureOk confidenceOk
        exact ⟨qualityOk, varianceOk, confidenceOk, failureOk⟩
      · rintro ⟨qualityOk, varianceOk, confidenceOk, failureOk⟩
        exact ⟨isSupported, ⟨_, hasQuality, qualityOk⟩, ⟨_, hasVariance, varianceOk⟩,
          ⟨_, hasFailure, failureOk⟩, ⟨_, hasConfidence, confidenceOk⟩, by simp [hasSamples],
          by simp [hasP50], by simp [hasP95]⟩
    rw [within, mapped, Option.some.injEq]
    split_ifs with lowQuality highVariance lowConfidence highFailure
    · simp [lowQuality]
    · simp [highVariance]
    · simp [lowConfidence]
    · simp [highFailure]
    · simp [lowQuality, highVariance, lowConfidence, highFailure]

/-! ### The declared policy -/

/-- The declared policy: what has to be registered for the strategy asked for. -/
structure Declares (kv : KvIntelligence) (context : KvPlanningContext) : Prop where
  policy : kv.policy.validate = .ok ()
  asked : context.requested ≠ .none
  target : kv.models.Declares context.target context.requested
  transfer : context.requested = .crossModelKvTransfer → ∃ source ∈ context.source,
    kv.models.Declares source context.requested ∧
      ∃ record, kv.compatibility.Records record source context.target ∧ record.Within kv.policy

/-- The request is for no strategy, on a model that is known. -/
def AsksForNothing (kv : KvIntelligence) (context : KvPlanningContext) : Prop :=
  kv.policy.validate = .ok () ∧ context.requested = .none ∧ kv.models.Registered context.target

/-- The mapping is that of the record for the transfer asked for. -/
def MapsTransfer (kv : KvIntelligence) (context : KvPlanningContext) (mapping : String) : Prop :=
  context.requested = .crossModelKvTransfer ∧ ∃ source ∈ context.source,
    ∃ record, kv.compatibility.Records record source context.target ∧
      record.mappingVersion = some mapping

/-- What `select` answers is the declared policy. -/
structure SelectsAsDeclared (kv : KvIntelligence) (context : KvPlanningContext) : Prop where
  strategy_ne_none_iff : (kv.select context).strategy ≠ .none ↔ kv.Declares context
  strategy_eq : kv.Declares context → (kv.select context).strategy = context.requested
  mappingVersion_eq_some_iff : ∀ mapping, (kv.select context).mappingVersion = some mapping ↔
    kv.Declares context ∧ kv.MapsTransfer context mapping
  mappingVersion_ne_none : kv.Declares context → context.requested = .crossModelKvTransfer →
    (kv.select context).mappingVersion ≠ none
  fallbackReason_eq_none_iff : (kv.select context).fallbackReason = none ↔
    kv.Declares context ∨ kv.AsksForNothing context

/-- Both registries are as `register` makes them. -/
structure WellFormed (kv : KvIntelligence) : Prop where
  models : kv.models.WellFormed
  compatibility : kv.compatibility.WellFormed

/-- What is admitted is what is declared, with the mapping of the record. -/
theorem WellFormed.admits_iff (wellFormed : kv.WellFormed) {mapping : Option String} :
    kv.Admits context mapping ↔ kv.Declares context ∧
      (context.requested ≠ .crossModelKvTransfer → mapping = none) ∧
      (context.requested = .crossModelKvTransfer →
        ∃ version, mapping = some version ∧ kv.MapsTransfer context version) := by
  constructor
  · intro admits
    have target := wellFormed.models.declares_iff.mpr admits.target
    have transfer : context.requested = .crossModelKvTransfer → ∃ source ∈ context.source,
        kv.models.Declares source context.requested ∧ ∃ record,
          kv.compatibility.Records record source context.target ∧ record.Within kv.policy ∧
            ∃ version, mapping = some version ∧ record.mappingVersion = some version := by
      intro transfers
      obtain ⟨source, given, declared, record, recorded, version, passed, rfl⟩ :=
        admits.transfer transfers
      have valid := (wellFormed.compatibility.keyed _ record recorded).2
      obtain ⟨within, mapped⟩ := (checkRecord_eq_ok_iff admits.policy valid).mp passed
      exact ⟨source, given, wellFormed.models.declares_iff.mpr declared, record,
        wellFormed.compatibility.records_iff.mpr recorded, within, version, rfl, mapped⟩
    refine ⟨⟨admits.policy, admits.asked, target, fun transfers => ?_⟩, admits.within,
      fun transfers => ?_⟩
    · obtain ⟨source, given, declared, record, recorded, within, -⟩ := transfer transfers
      exact ⟨source, given, declared, record, recorded, within⟩
    · obtain ⟨source, given, -, record, recorded, -, version, eq, mapped⟩ := transfer transfers
      exact ⟨version, eq, transfers, source, given, record, recorded, mapped⟩
  · rintro ⟨declares, within, mapped⟩
    refine ⟨declares.policy, declares.asked, wellFormed.models.declares_iff.mp declares.target,
      within, fun transfers => ?_⟩
    obtain ⟨source, given, declared, record, recorded, limits⟩ := declares.transfer transfers
    obtain ⟨version, rfl, -, source', given', record', recorded', mapping⟩ := mapped transfers
    -- there is one record for the pair
    obtain rfl : source = source' := Option.mem_unique given given'
    rw [wellFormed.compatibility.records_iff] at recorded recorded'
    obtain rfl : record = record' := Option.some.inj (recorded.symm.trans recorded')
    have valid := (wellFormed.compatibility.keyed _ record recorded).2
    exact ⟨source, given, wellFormed.models.declares_iff.mp declared, record, recorded, version,
      (checkRecord_eq_ok_iff declares.policy valid).mpr ⟨limits, mapping⟩, rfl⟩

/-- What is declared is admitted with some mapping: a supported record has one. -/
theorem WellFormed.exists_admits (wellFormed : kv.WellFormed) (declares : kv.Declares context) :
    ∃ mapping, kv.Admits context mapping := by
  by_cases transfers : context.requested = .crossModelKvTransfer
  · obtain ⟨source, given, -, record, recorded, within⟩ := declares.transfer transfers
    have found := wellFormed.compatibility.records_iff.mp recorded
    have valid := (wellFormed.compatibility.keyed _ record found).2
    obtain ⟨version, mapped⟩ :=
      Option.ne_none_iff_exists'.mp ((record.of_validate valid).1 within.supported)
    exact ⟨some version, wellFormed.admits_iff.mpr ⟨declares, fun other => absurd transfers other,
      fun _ => ⟨version, rfl, transfers, source, given, record, recorded, mapped⟩⟩⟩
  · exact ⟨none, wellFormed.admits_iff.mpr ⟨declares, fun _ => rfl,
      fun transfer => absurd transfer transfers⟩⟩

theorem WellFormed.exists_admits_iff (wellFormed : kv.WellFormed) :
    (∃ mapping, kv.Admits context mapping) ↔ kv.Declares context :=
  ⟨fun ⟨_, admits⟩ => (wellFormed.admits_iff.mp admits).1, wellFormed.exists_admits⟩

/-- A mapping is named for the transfers that have one, and only for these. -/
theorem WellFormed.mappingVersion_eq_some_iff (wellFormed : kv.WellFormed) {mapping : String} :
    (kv.select context).mappingVersion = some mapping ↔
      kv.Declares context ∧ kv.MapsTransfer context mapping := by
  constructor
  · intro mapped
    rcases kv.select_cases context with ⟨version, admits⟩ | ⟨reason, fell⟩ | ⟨-, -, -, prefill⟩
    · rw [select_of_admits admits] at mapped
      obtain rfl : version = some mapping := mapped
      obtain ⟨declares, within, transfer⟩ := wellFormed.admits_iff.mp admits
      by_cases transfers : context.requested = .crossModelKvTransfer
      · obtain ⟨version, eq, maps⟩ := transfer transfers
        exact ⟨declares, Option.some.inj eq ▸ maps⟩
      · cases within transfers
    · rw [fell] at mapped
      cases mapped
    · rw [prefill] at mapped
      cases mapped
  · rintro ⟨declares, maps⟩
    have admits : kv.Admits context (some mapping) := wellFormed.admits_iff.mpr
      ⟨declares, fun other => absurd maps.1 other, fun _ => ⟨mapping, rfl, maps⟩⟩
    rw [select_of_admits admits]
    rfl

/-- No reason is given when nothing has been refused: what is asked for is declared, or nothing
is asked for. -/
theorem WellFormed.fallbackReason_eq_none_iff (wellFormed : kv.WellFormed) :
    (kv.select context).fallbackReason = none ↔
      kv.Declares context ∨ kv.AsksForNothing context := by
  constructor
  · intro noReason
    rcases kv.select_cases context with admits | ⟨reason, fell⟩ |
      ⟨policy, nothing, ⟨target, known⟩, -⟩
    · exact Or.inl (wellFormed.exists_admits_iff.mp admits)
    · rw [fell] at noReason
      cases noReason
    · exact Or.inr ⟨policy, nothing, wellFormed.models.registered_iff.mpr ⟨target, known⟩⟩
  · rintro (declares | ⟨policy, nothing, registered⟩)
    · obtain ⟨mapping, admits⟩ := wellFormed.exists_admits declares
      rw [select_of_admits admits]
      rfl
    · obtain ⟨target, known⟩ := wellFormed.models.registered_iff.mp registered
      unfold select
      simp [policy, ModelRegistry.lookup_eq_ok_iff.mpr known, nothing, normal]

theorem WellFormed.selects_declared (wellFormed : kv.WellFormed) (context : KvPlanningContext) :
    kv.SelectsAsDeclared context where
  strategy_ne_none_iff := strategy_select_ne_none_iff.trans wellFormed.exists_admits_iff
  strategy_eq declares := by
    obtain ⟨mapping, admits⟩ := wellFormed.exists_admits declares
    rw [select_of_admits admits]
    rfl
  mappingVersion_eq_some_iff _ := wellFormed.mappingVersion_eq_some_iff
  mappingVersion_ne_none declares transfers := by
    obtain ⟨mapping, admits⟩ := wellFormed.exists_admits declares
    obtain ⟨version, rfl, -⟩ := (wellFormed.admits_iff.mp admits).2.2 transfers
    rw [select_of_admits admits]
    exact Option.some_ne_none version
  fallbackReason_eq_none_iff := wellFormed.fallbackReason_eq_none_iff

/-! ### Registrations -/

/-- A call of one of the two `register`s. -/
inductive Registration where
  | model (metadata : ModelMetadata)
  | compatibility (record : KvCompatibilityRecord)

/-- What a call answers, and what becomes of the registries. -/
def register (kv : KvIntelligence) : Registration → Except KvError Unit × KvIntelligence
  | .model metadata =>
      match kv.models.register metadata with
      | .error error => (.error error, kv)
      | .ok models => (.ok (), { kv with models := models })
  | .compatibility record =>
      match kv.compatibility.register record with
      | .error error => (.error error, kv)
      | .ok compatibility => (.ok (), { kv with compatibility := compatibility })

def step (kv : KvIntelligence) (call : Registration) : KvIntelligence := (kv.register call).2

/-- Nothing is registered yet. -/
def ofPolicy (policy : KvPolicy) : KvIntelligence := ⟨default, default, policy⟩

/-- A call succeeds in one of the registries, or it changes nothing. -/
theorem step_cases (kv : KvIntelligence) (call : Registration) :
    (∃ metadata models, kv.models.register metadata = .ok models ∧
        kv.step call = { kv with models := models }) ∨
      (∃ record compatibility, kv.compatibility.register record = .ok compatibility ∧
        kv.step call = { kv with compatibility := compatibility }) ∨
      kv.step call = kv := by
  cases call with
  | model metadata =>
      cases registered : kv.models.register metadata with
      | error error => exact Or.inr (Or.inr (by simp [step, register, registered]))
      | ok models =>
          exact Or.inl ⟨metadata, models, registered, by simp [step, register, registered]⟩
  | compatibility record =>
      cases registered : kv.compatibility.register record with
      | error error => exact Or.inr (Or.inr (by simp [step, register, registered]))
      | ok compatibility =>
          exact Or.inr (Or.inl
            ⟨record, compatibility, registered, by simp [step, register, registered]⟩)

theorem WellFormed.step (wellFormed : kv.WellFormed) (call : Registration) :
    (kv.step call).WellFormed := by
  rcases kv.step_cases call with ⟨_, _, registered, eq⟩ | ⟨_, _, registered, eq⟩ | eq <;> rw [eq]
  · exact ⟨wellFormed.models.register registered, wellFormed.compatibility⟩
  · exact ⟨wellFormed.models, wellFormed.compatibility.register registered⟩
  · exact wellFormed

/-- Whatever has been registered, the registries are as `register` makes them. -/
theorem wellFormed_after (policy : KvPolicy) (calls : List Registration) :
    (run KvIntelligence.step (ofPolicy policy) calls).WellFormed :=
  run_induction
    ⟨⟨fun _ _ found => (by cases found), rfl⟩, ⟨fun _ _ found => (by cases found), rfl⟩⟩
    (fun _ call wellFormed => wellFormed.step call) calls

/-- **The declared policy.**  Whatever has been registered, every selection is the declared
policy. -/
theorem selectsAsDeclared (policy : KvPolicy) (calls : List Registration)
    (context : KvPlanningContext) :
    (run KvIntelligence.step (ofPolicy policy) calls).SelectsAsDeclared context :=
  (wellFormed_after policy calls).selects_declared context

/-! ### Later registrations -/

/-- What is registered is registered later. -/
structure Extends (kv kv' : KvIntelligence) : Prop where
  policy : kv'.policy = kv.policy
  model : ∀ model metadata, kv.models.models.lookup model = some metadata →
    kv'.models.models.lookup model = some metadata
  record : ∀ pair record, kv.compatibility.records.lookup pair = some record →
    kv'.compatibility.records.lookup pair = some record

theorem Extends.refl (kv : KvIntelligence) : kv.Extends kv := ⟨rfl, fun _ _ => id, fun _ _ => id⟩

theorem Extends.trans {kv' kv'' : KvIntelligence} (first : kv.Extends kv')
    (second : kv'.Extends kv'') : kv.Extends kv'' :=
  ⟨second.policy.trans first.policy,
    fun model metadata found => second.model model metadata (first.model model metadata found),
    fun pair record found => second.record pair record (first.record pair record found)⟩

theorem extends_step (kv : KvIntelligence) (call : Registration) : kv.Extends (kv.step call) := by
  rcases kv.step_cases call with ⟨_, _, registered, eq⟩ | ⟨_, _, registered, eq⟩ | eq <;> rw [eq]
  · exact ⟨rfl, fun _ _ => ModelRegistry.lookup_register registered, fun _ _ => id⟩
  · exact ⟨rfl, fun _ _ => id, fun _ _ => KvCompatibilityRegistry.lookup_register registered⟩
  · exact Extends.refl kv

theorem extends_run (kv : KvIntelligence) (calls : List Registration) :
    kv.Extends (run KvIntelligence.step kv calls) :=
  run_induction (Extends.refl kv) (fun _ call extended => extended.trans (extends_step _ call))
    calls

/-- What is admitted is admitted later, with the same mapping. -/
theorem Admits.mono {kv' : KvIntelligence} {mapping : Option String}
    (admits : kv.Admits context mapping) (extended : kv.Extends kv') :
    kv'.Admits context mapping := by
  have check : kv'.checkRecord = kv.checkRecord := by
    funext record
    unfold checkRecord
    rw [extended.policy]
  obtain ⟨target, known, declared⟩ := admits.target
  refine ⟨extended.policy ▸ admits.policy, admits.asked,
    ⟨target, extended.model _ _ known, declared⟩, admits.within, fun transfers => ?_⟩
  obtain ⟨source, given, ⟨metadata, sourceKnown, sourceDeclared⟩, record, recorded, passed⟩ :=
    admits.transfer transfers
  exact ⟨source, given, ⟨metadata, extended.model _ _ sourceKnown, sourceDeclared⟩, record,
    extended.record _ _ recorded, check ▸ passed⟩

/-- A later selection decides the same, and has no reason not to. -/
def Upholds (later decision : KvPlanMetadata) : Prop :=
  later.strategy = decision.strategy ∧ later.target = decision.target ∧
    later.source = decision.source ∧ later.mappingVersion = decision.mappingVersion ∧
    later.fallbackReason = none

/-- A call that fails leaves its registry, with its revision, as it was. -/
def FailsUnchanged (kv : KvIntelligence) (call : Registration) : Prop :=
  ∀ error, (kv.register call).1 = .error error →
    (kv.step call).models = kv.models ∧ (kv.step call).compatibility = kv.compatibility

theorem failsUnchanged (kv : KvIntelligence) (call : Registration) : kv.FailsUnchanged call := by
  intro error refused
  cases call with
  | model metadata =>
      cases registered : kv.models.register metadata with
      | error error => simp [step, register, registered]
      | ok models => simp [register, registered] at refused
  | compatibility record =>
      cases registered : kv.compatibility.register record with
      | error error => simp [step, register, registered]
      | ok compatibility => simp [register, registered] at refused

/-- **For good.**  What is selected after some registrations is selected after any more of
them; a registration that fails changes nothing, and the revisions count the entries. -/
theorem registrations_uphold (policy : KvPolicy) (before after : List Registration) :
    (∀ context,
      ((run KvIntelligence.step (ofPolicy policy) before).select context).strategy ≠ .none →
      Upholds ((run KvIntelligence.step (ofPolicy policy) (before ++ after)).select context)
        ((run KvIntelligence.step (ofPolicy policy) before).select context)) ∧
      AllSteps KvIntelligence.step FailsUnchanged (ofPolicy policy) (before ++ after) ∧
      (run KvIntelligence.step (ofPolicy policy) before).models.revision =
        (run KvIntelligence.step (ofPolicy policy) before).models.models.len ∧
      (run KvIntelligence.step (ofPolicy policy) before).compatibility.revision =
        (run KvIntelligence.step (ofPolicy policy) before).compatibility.records.len := by
  have wellFormed := wellFormed_after policy before
  refine ⟨fun context selected => ?_, allSteps_of_forall failsUnchanged _,
    wellFormed.models.counted, wellFormed.compatibility.counted⟩
  obtain ⟨mapping, admits⟩ := strategy_select_ne_none_iff.mp selected
  rw [run_append, select_of_admits admits, select_of_admits (admits.mono (extends_run _ after))]
  exact ⟨rfl, rfl, rfl, rfl, rfl⟩

end KvIntelligence

end TrustRouter
