import TrustRouter.Fabric

/-!
# Gates and NaN

`DecisionFirewall.evaluateCandidate` and `KvDecisionInput.decide` refuse where a comparison is
true.  With a NaN every comparison is false, so a NaN is not refused, and what has been let
through need not be within the limits.

A candidate is approved exactly when it breaks no limit (`evaluateCandidate_eq_approved_iff_not`),
and to break none is to be within them all, where none of its estimates is a NaN
(`within_iff_noNan`).  The failure risk of a transfer is safe: the costs are compared last, and
they are not less than a NaN (`failureRisk_ne_nan`).  The confidence is not.
-/

namespace TrustRouter

/-! ## Comparisons that are false -/

namespace F64

/-- What is not above a limit is within it, or is a NaN. -/
theorem not_limit_lt_iff {limit x : F64} (number : limit ≠ nan) :
    ¬ limit < x ↔ x ≤ limit ∨ x = nan := by
  by_cases isNan : x = nan
  · simp [isNan]
  · rw [not_lt_iff isNan number, or_iff_left isNan]

/-- What is not below a limit is within it, or is a NaN. -/
theorem not_lt_limit_iff {limit x : F64} (number : limit ≠ nan) :
    ¬ x < limit ↔ limit ≤ x ∨ x = nan := by
  by_cases isNan : x = nan
  · simp [isNan]
  · rw [not_lt_iff number isNan, or_iff_left isNan]

theorem ne_nan_of_isFinite {x : F64} (finite : x.isFinite = true) : x ≠ nan := by
  rintro rfl
  cases finite

end F64

/-! ## The firewall -/

/-- The limits of a valid configuration are numbers. -/
theorem UtilityConfig.limits_ne_nan {config : UtilityConfig} (valid : config.validate = .ok ()) :
    config.minQuality ≠ .nan ∧ config.maxCost ≠ .nan ∧ config.maxFailureProbability ≠ .nan := by
  have cost := F64.ne_nan_of_isFinite (isFinite_maxCost valid)
  have ratio : ∀ x : F64, ¬ (!x.isRatio) = true → x ≠ .nan := by
    rintro x passes rfl
    exact passes rfl
  unfold validate at valid
  split_ifs at valid with _ quality _ failure
  exact ⟨ratio _ quality, cost, ratio _ failure⟩

namespace CounterfactualEstimate

/-- No estimate is a NaN, of those that are numbers with a point and have a limit. -/
def NoNan (candidate : CounterfactualEstimate) : Prop :=
  (∀ v ∈ candidate.qualityRisk.value, v ≠ .nan) ∧ (∀ v ∈ candidate.predictedCost.value, v ≠ .nan) ∧
    ∀ v ∈ candidate.predictedFailureProbability.value, v ≠ .nan

/-- What is known of the candidate is within the limits, and its quality is known. -/
structure Within (config : UtilityConfig) (candidate : CounterfactualEstimate) : Prop where
  ttft : ∀ v ∈ candidate.predictedTtft.value, v ≤ config.maxTtft
  tpot : ∀ v ∈ candidate.predictedTpot.value, v ≤ config.maxTpot
  e2e : ∀ v ∈ candidate.predictedE2e.value, v ≤ config.maxE2e
  quality : ∃ v ∈ candidate.qualityRisk.value, config.minQuality ≤ v
  cost : ∀ v ∈ candidate.predictedCost.value, v ≤ config.maxCost
  failureProbability :
    ∀ v ∈ candidate.predictedFailureProbability.value, v ≤ config.maxFailureProbability

/-- The candidate breaks a limit: it is beyond it, and so not a NaN. -/
def Breaks (config : UtilityConfig) (candidate : CounterfactualEstimate) : Prop :=
  (∃ v ∈ candidate.predictedTtft.value, config.maxTtft < v) ∨
    (∃ v ∈ candidate.predictedTpot.value, config.maxTpot < v) ∨
    (∃ v ∈ candidate.predictedE2e.value, config.maxE2e < v) ∨
    (∀ v ∈ candidate.qualityRisk.value, v < config.minQuality) ∨
    (∃ v ∈ candidate.predictedCost.value, config.maxCost < v) ∨
    ∃ v ∈ candidate.predictedFailureProbability.value, config.maxFailureProbability < v

/-- To break no limit is to be within them all, or to have a NaN. -/
theorem within_iff_noNan {config : UtilityConfig} {candidate : CounterfactualEstimate}
    (valid : config.validate = .ok ()) (unbroken : ¬ candidate.Breaks config) :
    candidate.Within config ↔ candidate.NoNan := by
  obtain ⟨minQuality, maxCost, maxFailure⟩ := UtilityConfig.limits_ne_nan valid
  simp only [Breaks, not_or, not_exists, not_and, not_forall, exists_prop,
    UInt64.not_lt] at unbroken
  obtain ⟨ttft, tpot, e2e, ⟨quality, known, notBelow⟩, cost, failure⟩ := unbroken
  constructor
  · intro within
    refine ⟨?_, fun v mem isNan => ?_, fun v mem isNan => ?_⟩
    · obtain ⟨v, mem, le⟩ := within.quality
      intro w mem' isNan
      obtain rfl : v = w := Option.mem_unique mem mem'
      exact F64.not_le_nan _ (isNan ▸ le)
    · exact F64.not_nan_le _ (isNan ▸ within.cost v mem)
    · exact F64.not_nan_le _ (isNan ▸ within.failureProbability v mem)
  · rintro ⟨first, second, third⟩
    exact {
      ttft := ttft
      tpot := tpot
      e2e := e2e
      quality := ⟨quality, known,
        ((F64.not_lt_limit_iff minQuality).mp notBelow).resolve_right (first quality known)⟩
      cost := fun v mem =>
        ((F64.not_limit_lt_iff maxCost).mp (cost v mem)).resolve_right (second v mem)
      failureProbability := fun v mem =>
        ((F64.not_limit_lt_iff maxFailure).mp (failure v mem)).resolve_right (third v mem) }

end CounterfactualEstimate

namespace DecisionFirewall

/-- A valid configuration and a fresh world state leave it to the candidate. -/
theorem evaluateCandidate_eq_approved_iff_not {firewall : DecisionFirewall}
    {candidate : CounterfactualEstimate} {worldState : WorldState}
    {confidence : DecisionConfidence} {now : SystemTime}
    (valid : firewall.config.validate = .ok ())
    (fresh : worldState.isStale firewall.maxWorldStateAge now = false) :
    firewall.evaluateCandidate candidate worldState confidence now = .approved ↔
      candidate.feasible = true ∧ confidence.isSafeForOptimization = true ∧
        ¬ candidate.Breaks firewall.config := by
  have quality : candidate.qualityRisk.value.all (· < firewall.config.minQuality) = false ↔
      ¬ ∀ v ∈ candidate.qualityRisk.value, v < firewall.config.minQuality := by
    cases candidate.qualityRisk.value <;> simp
  rw [evaluateCandidate_eq_approved_iff]
  simp only [OperationalValue.exceeds_eq_false_iff, quality, CounterfactualEstimate.Breaks, not_or,
    not_exists, not_and]
  tauto

end DecisionFirewall

/-! ## Transfers -/

namespace KvDecisionInput

variable [Rounding]

/-- A transfer pays for its cost and its risk. -/
def Pays (input : KvDecisionInput) : Prop :=
  F64.ofU64 input.transferLatencyMs + input.networkCost
      + input.failureRisk * F64.ofU64 input.recomputationMs ≤
    F64.ofU64 input.recomputationMs

/-- All that a transfer needs. -/
structure Warranted (input : KvDecisionInput) : Prop where
  compatible : input.compatible = true
  confidence : .ofRat (1 / 2) ≤ input.confidence
  failureRisk : input.failureRisk ≤ .ofRat (3 / 10)
  pays : input.Pays

theorem failureRisk_ne_nan {input : KvDecisionInput} (pays : input.Pays) :
    input.failureRisk ≠ .nan := by
  intro isNan
  have product : F64.nan * F64.ofU64 input.recomputationMs = .nan := rfl
  have sum : ∀ x : F64, x + F64.nan = .nan := by
    intro x
    cases x <;> rfl
  rw [Pays, isNan, product, sum] at pays
  exact F64.not_nan_le _ pays

theorem decide_eq_transfer_iff {input : KvDecisionInput} :
    input.decide.1 = .transfer ↔ input.compatible = true ∧ ¬ input.confidence < .ofRat (1 / 2) ∧
      ¬ .ofRat (3 / 10) < input.failureRisk ∧ input.Pays := by
  unfold KvDecisionInput.decide Pays
  dsimp only
  split_ifs with incompatible <;> simp_all

/-- A transfer is warranted unless the confidence is a NaN. -/
theorem transfer_warranted_iff {input : KvDecisionInput} :
    (input.decide.1 = .transfer → input.Warranted) ↔
      input.confidence ≠ .nan ∨ input.compatible = false ∨
        .ofRat (3 / 10) < input.failureRisk ∨ ¬ input.Pays := by
  rw [decide_eq_transfer_iff]
  constructor
  · intro warranted
    by_contra none
    simp only [not_or, ne_eq, not_not, Bool.not_eq_false] at none
    obtain ⟨isNan, compatible, risk, pays⟩ := none
    have notBelow : ¬ input.confidence < .ofRat (1 / 2) := isNan ▸ F64.not_nan_lt _
    exact F64.not_le_nan _ (isNan ▸ (warranted ⟨compatible, notBelow, risk, pays⟩).confidence)
  · rintro condition ⟨compatible, confidence, risk, pays⟩
    have number : input.confidence ≠ .nan := by
      refine condition.resolve_right ?_
      simp [compatible, risk, pays]
    exact {
      compatible := compatible
      confidence :=
        ((F64.not_lt_limit_iff (F64.ofRat_ne_nan _)).mp confidence).resolve_right number
      failureRisk := ((F64.not_limit_lt_iff (F64.ofRat_ne_nan _)).mp risk).resolve_right
        (failureRisk_ne_nan pays)
      pays := pays }

end KvDecisionInput

/-! ## Both gates -/

namespace DecisionFirewall

variable [Rounding]

/-- Only what truly meets its conditions gets through. -/
def GatesHold (firewall : DecisionFirewall) (candidate : CounterfactualEstimate)
    (worldState : WorldState) (confidence : DecisionConfidence) (now : SystemTime)
    (input : KvDecisionInput) : Prop :=
  (firewall.evaluateCandidate candidate worldState confidence now = .approved →
      candidate.Within firewall.config) ∧
    (input.decide.1 = .transfer → input.Warranted)

/-- **The gates hold exactly when no NaN decides.**  It does not where no estimate is one, or
where the candidate is refused for something else. -/
theorem gatesHold_iff (firewall : DecisionFirewall) (candidate : CounterfactualEstimate)
    (worldState : WorldState) (confidence : DecisionConfidence) (now : SystemTime)
    (input : KvDecisionInput) (valid : firewall.config.validate = .ok ())
    (fresh : worldState.isStale firewall.maxWorldStateAge now = false) :
    firewall.GatesHold candidate worldState confidence now input ↔
      (candidate.NoNan ∨ candidate.feasible = false ∨ confidence.isSafeForOptimization = false ∨
          candidate.Breaks firewall.config) ∧
        (input.confidence ≠ .nan ∨ input.compatible = false ∨
          .ofRat (3 / 10) < input.failureRisk ∨ ¬ input.Pays) := by
  refine and_congr ?_ KvDecisionInput.transfer_warranted_iff
  rw [evaluateCandidate_eq_approved_iff_not valid fresh]
  constructor
  · intro within
    by_contra none
    simp only [not_or, Bool.not_eq_false] at none
    obtain ⟨isNan, feasible, safe, unbroken⟩ := none
    exact isNan ((CounterfactualEstimate.within_iff_noNan valid unbroken).mp
      (within ⟨feasible, safe, unbroken⟩))
  · rintro condition ⟨feasible, safe, unbroken⟩
    refine (CounterfactualEstimate.within_iff_noNan valid unbroken).mpr (condition.resolve_right ?_)
    simp [feasible, safe, unbroken]

omit [Rounding] in
/-- Estimates that are numbers. -/
theorem gatesHold_of_numbers :
    letI := Rounding.exact
    let firewall : DecisionFirewall :=
      ⟨⟨.finite 1, .finite 1, .finite 1, .finite 1, .finite 1, .finite 1, 1000, 100, 5000,
        .finite (9 / 10), .finite 1, .finite (1 / 10)⟩, 10 ^ 10⟩
    let candidate : CounterfactualEstimate :=
      ⟨.new "b-1" "c-1" "prefill-decode", "b-1", "c-1", "m", "prefill-decode", .predicted 100,
        .predicted 10, .predicted 1000, .predicted (.finite (1 / 2)), .unknown, .unknown,
        .predicted (.finite 1), .unknown, true, none⟩
    firewall.GatesHold candidate ⟨1, 1, 0, [], [], ∅⟩ .high 0
      ⟨true, 64, 1, .finite 0, 100, .finite 1, .finite 0, .finite 1⟩ := by
  let _ := Rounding.exact
  intro firewall candidate
  refine (gatesHold_iff firewall candidate ⟨1, 1, 0, [], [], ∅⟩ .high 0
    ⟨true, 64, 1, .finite 0, 100, .finite 1, .finite 0, .finite 1⟩ (by decide +kernel)
    (by decide +kernel)).mpr ⟨.inl ⟨?_, ?_, ?_⟩, .inl (by simp)⟩
  · rintro v ⟨⟩
    simp
  · rintro v ⟨⟩
    simp
  · rintro v ⟨⟩

omit [Rounding] in
/-- A candidate whose cost and whose quality are not numbers, and a confidence that is not. -/
theorem not_gatesHold :
    letI := Rounding.exact
    let firewall : DecisionFirewall :=
      ⟨⟨.finite 1, .finite 1, .finite 1, .finite 1, .finite 1, .finite 1, 1000, 100, 5000,
        .finite (9 / 10), .finite 1, .finite (1 / 10)⟩, 10 ^ 10⟩
    let candidate : CounterfactualEstimate :=
      ⟨.new "b-1" "c-1" "prefill-decode", "b-1", "c-1", "m", "prefill-decode", .predicted 100,
        .predicted 10, .predicted 1000, .predicted .nan, .predicted .nan, .unknown,
        .predicted .nan, .unknown, true, none⟩
    let worldState : WorldState := ⟨1, 1, 0, [], [], ∅⟩
    let input : KvDecisionInput := ⟨true, 64, 1, .finite 0, 100, .finite 1, .finite 0, .nan⟩
    firewall.config.validate = .ok () ∧ worldState.isStale firewall.maxWorldStateAge 0 = false ∧
      firewall.evaluateCandidate candidate worldState .high 0 = .approved ∧
      input.decide.1 = .transfer ∧ ¬ candidate.Within firewall.config ∧ ¬ input.Warranted := by
  let _ := Rounding.exact
  intro firewall candidate worldState input
  refine ⟨by decide +kernel, by decide +kernel, by decide +kernel, by decide +kernel,
    fun within => ?_, fun warranted => ?_⟩
  · exact F64.not_nan_le _ (within.cost .nan rfl)
  · exact F64.not_le_nan _ warranted.confidence

end DecisionFirewall

end TrustRouter
