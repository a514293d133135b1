import TrustRouter.Kv
import TrustRouter.Prelude.Float64

/-!
# Inference estimates

An estimate is checked against constraints and given a normalised score; the one with the
least score is selected, and the others are reported with the first check they fail.

The estimates are `Float64` values.  The checks and `==` look at them as IEEE comparisons
do, and the orders they are sorted by tell all of them apart: `candidateOrder` compares all
six fields, so that only identical estimates are equal in it.
-/

namespace TrustRouter

open Float64

@[ext] structure InferenceCandidate (φ : Type) where
  model : ModelReference
  strategy : KvStrategy
  latencyMs : φ
  cost : φ
  failureRate : φ
  quality : φ
  deriving DecidableEq

structure InferenceConstraints (φ : Type) where
  maxLatencyMs : φ
  maxCost : φ
  minQuality : φ

structure ObjectiveWeights (φ : Type) where
  latency : φ
  cost : φ
  reliability : φ
  quality : φ

inductive DecisionError where
  | invalidConstraints
  | invalidObjective
  deriving DecidableEq

inductive RejectionReason where
  | invalidEstimate
  | latencyConstraint
  | costConstraint
  | qualityConstraint
  | invalidPlanningConfig
  deriving DecidableEq

structure ScoredCandidate (φ : Type) where
  candidate : InferenceCandidate φ
  score : φ
  deriving DecidableEq

structure DecisionExplanation (φ : Type) where
  selected : Option (ScoredCandidate φ)
  rejected : List (InferenceCandidate φ × RejectionReason)
  fallback : List KvStrategy
  configError : Option DecisionError

/-! ## Orders -/

/-- The place of a strategy in the derived order. -/
def KvStrategy.rank : KvStrategy → ℕ
  | none => 0
  | prefixCache => 1
  | cachedKv => 2
  | crossModelKvTransfer => 3

/-- The derived order of models. -/
def ModelReference.cmp (a b : ModelReference) : Ordering :=
  (compare a.modelId b.modelId).then (compare a.modelVersion b.modelVersion)

/-- The place of a reason in the derived order. -/
def RejectionReason.rank : RejectionReason → ℕ
  | invalidEstimate => 0
  | latencyConstraint => 1
  | costConstraint => 2
  | qualityConstraint => 3
  | invalidPlanningConfig => 4

theorem KvStrategy.rank_injective : Function.Injective rank := by
  intro a b
  cases a <;> cases b <;> decide

variable {φ : Type} [Float64 φ]

namespace InferenceConstraints

instance : Inhabited (InferenceConstraints F64) := ⟨⟨.finite 1000, .finite 1, .finite 0⟩⟩

def validate (constraints : InferenceConstraints φ) : Except DecisionError Unit :=
  if !(toF64 constraints.maxLatencyMs).isFinite || toF64 constraints.maxLatencyMs < .finite 0
      || !(toF64 constraints.maxCost).isFinite || toF64 constraints.maxCost < .finite 0
      || !(toF64 constraints.minQuality).isFinite
      || !(.finite 0 ≤ toF64 constraints.minQuality
        && toF64 constraints.minQuality ≤ .finite 1) then
    .error .invalidConstraints
  else .ok ()

end InferenceConstraints

namespace ObjectiveWeights

instance : Inhabited (ObjectiveWeights F64) := ⟨⟨.finite 1, .finite 1, .finite 1, .finite 1⟩⟩

def validate (weights : ObjectiveWeights φ) : Except DecisionError Unit :=
  let all := [weights.latency, weights.cost, weights.reliability, weights.quality]
  if all.any (fun v => !(toF64 v).isFinite || toF64 v < .finite 0)
      || all.all (fun v => toF64 v = .finite 0) then
    .error .invalidObjective
  else .ok ()

end ObjectiveWeights

namespace Inference

def valid (v : φ) : Bool := (toF64 v).isFinite && .finite 0 ≤ toF64 v

def normalized (value ceiling : φ) : φ :=
  if toF64 ceiling = .finite 0 then zero else value / ceiling

def candidateOrder (a b : InferenceCandidate φ) : Ordering :=
  (a.model.cmp b.model).then <|
    (compare a.strategy.rank b.strategy.rank).then <|
      (totalCmp a.latencyMs b.latencyMs).then <|
        (totalCmp a.cost b.cost).then <|
          (totalCmp a.failureRate b.failureRate).then <| totalCmp a.quality b.quality

/-- The derived `==` of candidates. -/
def eq (a b : InferenceCandidate φ) : Bool :=
  a.model = b.model && a.strategy = b.strategy
    && (toF64 a.latencyMs).ieeeEq (toF64 b.latencyMs)
    && (toF64 a.cost).ieeeEq (toF64 b.cost)
    && (toF64 a.failureRate).ieeeEq (toF64 b.failureRate)
    && (toF64 a.quality).ieeeEq (toF64 b.quality)

def fallback : KvStrategy → List KvStrategy
  | .crossModelKvTransfer => [.cachedKv, .prefixCache, .none]
  | .cachedKv => [.prefixCache, .none]
  | .prefixCache => [.none]
  | .none => []

/-- The first check a candidate fails. -/
def rejection (constraints : InferenceConstraints φ) (candidate : InferenceCandidate φ) :
    Option RejectionReason :=
  let estimates := [candidate.latencyMs, candidate.cost, candidate.failureRate, candidate.quality]
  if !estimates.all valid
      || .finite 1 < toF64 candidate.failureRate || .finite 1 < toF64 candidate.quality then
    some .invalidEstimate
  else if toF64 constraints.maxLatencyMs < toF64 candidate.latencyMs then some .latencyConstraint
  else if toF64 constraints.maxCost < toF64 candidate.cost then some .costConstraint
  else if toF64 candidate.quality < toF64 constraints.minQuality then some .qualityConstraint
  else none

def score (constraints : InferenceConstraints φ) (weights : ObjectiveWeights φ)
    (candidate : InferenceCandidate φ) : φ :=
  weights.latency * normalized candidate.latencyMs constraints.maxLatencyMs
    + weights.cost * normalized candidate.cost constraints.maxCost
    + weights.reliability * candidate.failureRate
    + weights.quality * (one - candidate.quality)

def rejectedOrder (a b : InferenceCandidate φ × RejectionReason) : Ordering :=
  (candidateOrder a.1 b.1).then (compare a.2.rank b.2.rank)

def scoredOrder (a b : ScoredCandidate φ) : Ordering :=
  (totalCmp a.score b.score).then (candidateOrder a.candidate b.candidate)

def tryDecide (candidates : List (InferenceCandidate φ)) (constraints : InferenceConstraints φ)
    (weights : ObjectiveWeights φ) : Except DecisionError (DecisionExplanation φ) := do
  constraints.validate
  weights.validate
  let rejected := candidates.filterMap fun candidate =>
    (rejection constraints candidate).map (Prod.mk candidate)
  let feasible := (candidates.filter fun candidate => rejection constraints candidate = none).map
    fun candidate => ⟨candidate, score constraints weights candidate⟩
  let selected := (sortBy scoredOrder feasible).head?
  return {
    fallback := selected.elim [] fun value => fallback value.candidate.strategy
    selected := selected
    rejected := sortBy rejectedOrder rejected
    configError := none }

/-- Invalid configuration fails closed. -/
protected def decide (candidates : List (InferenceCandidate φ))
    (constraints : InferenceConstraints φ) (weights : ObjectiveWeights φ) :
    DecisionExplanation φ :=
  match tryDecide candidates constraints weights with
  | .ok decision => decision
  | .error error =>
      { selected := none
        rejected := sortBy (fun a b => candidateOrder a.1 b.1)
          (candidates.map fun candidate => (candidate, .invalidPlanningConfig))
        fallback := []
        configError := some error }

/-! ### The orders tell everything apart -/

instance : Std.TransCmp ModelReference.cmp :=
  transCmp_then (transCmp_on compare ModelReference.modelId)
    (transCmp_on compare ModelReference.modelVersion)

instance : Std.LawfulEqCmp ModelReference.cmp where
  compare_self := by simp [ModelReference.cmp]
  eq_of_compare {a b} same := by
    obtain ⟨modelId, modelVersion⟩ := Ordering.then_eq_eq.mp same
    exact congrArg₂ ModelReference.mk (Std.LawfulEqOrd.eq_of_compare modelId)
      (Std.LawfulEqOrd.eq_of_compare modelVersion)

instance : Std.TransCmp (candidateOrder (φ := φ)) :=
  transCmp_then (transCmp_on _ InferenceCandidate.model) <|
    transCmp_then (transCmp_on compare fun a : InferenceCandidate φ => a.strategy.rank) <|
      transCmp_then (transCmp_on _ InferenceCandidate.latencyMs) <|
        transCmp_then (transCmp_on _ InferenceCandidate.cost) <|
          transCmp_then (transCmp_on _ InferenceCandidate.failureRate)
            (transCmp_on _ InferenceCandidate.quality)

instance : Std.LawfulEqCmp (candidateOrder (φ := φ)) where
  compare_self := by simp [candidateOrder]
  eq_of_compare {a b} same := by
    simp only [candidateOrder, Ordering.then_eq_eq, Std.LawfulEqCmp.compare_eq_iff_eq] at same
    obtain ⟨model, strategy, latencyMs, cost, failureRate, quality⟩ := same
    exact InferenceCandidate.ext model (KvStrategy.rank_injective strategy) latencyMs cost
      failureRate quality

instance : Std.TransCmp (scoredOrder (φ := φ)) :=
  transCmp_then (transCmp_on _ ScoredCandidate.score) (transCmp_on _ ScoredCandidate.candidate)

/-! ### What `==` tells -/

omit [Float64 φ] in
theorem ieeeEq_iff {x y : F64} : x.ieeeEq y = true ↔ x = y ∧ y ≠ .nan := by
  rw [F64.ieeeEq, Bool.and_eq_true, decide_eq_true_eq, decide_eq_true_eq]
  exact ⟨fun ⟨number, same⟩ => ⟨same, same ▸ number⟩, fun ⟨same, number⟩ => ⟨same ▸ number, same⟩⟩

/-- Equal candidates have equal values, and no NaN among them. -/
theorem eq_iff {a b : InferenceCandidate φ} :
    eq a b = true ↔ a.model = b.model ∧ a.strategy = b.strategy ∧
      (toF64 a.latencyMs = toF64 b.latencyMs ∧ toF64 b.latencyMs ≠ .nan) ∧
      (toF64 a.cost = toF64 b.cost ∧ toF64 b.cost ≠ .nan) ∧
      (toF64 a.failureRate = toF64 b.failureRate ∧ toF64 b.failureRate ≠ .nan) ∧
      toF64 a.quality = toF64 b.quality ∧ toF64 b.quality ≠ .nan := by
  simp only [eq, Bool.and_eq_true, decide_eq_true_eq, ieeeEq_iff, and_assoc]

theorem eq_of_eq {a b : InferenceCandidate φ} (same : eq a b = true) : eq b a = true := by
  rw [eq_iff] at same ⊢
  grind

theorem eq_comm (a b : InferenceCandidate φ) : eq a b = eq b a :=
  Bool.eq_iff_iff.mpr ⟨eq_of_eq, eq_of_eq⟩

theorem eq_trans {a b c : InferenceCandidate φ} (first : eq a b = true) (second : eq b c = true) :
    eq a c = true := by
  rw [eq_iff] at first second ⊢
  grind

/-- None of the estimates is a NaN. -/
def NoNan (candidate : InferenceCandidate φ) : Prop :=
  toF64 candidate.latencyMs ≠ .nan ∧ toF64 candidate.cost ≠ .nan ∧
    toF64 candidate.failureRate ≠ .nan ∧ toF64 candidate.quality ≠ .nan

/-- A candidate with a NaN is not equal to itself, and every other one is. -/
theorem eq_self_iff {a : InferenceCandidate φ} : eq a a = true ↔ NoNan a := by
  rw [eq_iff, NoNan]
  tauto

/-- The checks cannot tell equal candidates apart. -/
theorem rejection_congr {a b : InferenceCandidate φ} (same : eq a b = true)
    (constraints : InferenceConstraints φ) : rejection constraints a = rejection constraints b := by
  obtain ⟨-, -, ⟨latencyMs, -⟩, ⟨cost, -⟩, ⟨failureRate, -⟩, quality, -⟩ := eq_iff.mp same
  -- the checks read values only, and `==` equates those; `-0.0` and `0.0` have one value
  have checks : ∀ {x y : φ}, toF64 x = toF64 y → valid x = valid y := fun same => by
    rw [valid, valid, same]
  simp only [rejection, List.all_cons, checks latencyMs, checks cost, checks failureRate,
    checks quality, latencyMs, cost, failureRate, quality]
  rfl

/-! ### The decision -/

variable {constraints : InferenceConstraints φ} {weights : ObjectiveWeights φ}

/-- The candidates that pass every check, with their scores. -/
def feasible (constraints : InferenceConstraints φ) (weights : ObjectiveWeights φ)
    (candidates : List (InferenceCandidate φ)) : List (ScoredCandidate φ) :=
  (candidates.filter fun candidate => rejection constraints candidate = none).map
    fun candidate => ⟨candidate, score constraints weights candidate⟩

theorem tryDecide_of_valid (candidates : List (InferenceCandidate φ))
    (validConstraints : constraints.validate = .ok ())
    (validWeights : weights.validate = .ok ()) :
    ∃ decision, tryDecide candidates constraints weights = .ok decision ∧
      decision.selected = (sortBy scoredOrder (feasible constraints weights candidates)).head? ∧
      decision.rejected.Perm (candidates.filterMap fun candidate =>
        (rejection constraints candidate).map (Prod.mk candidate)) := by
  unfold tryDecide
  rw [validConstraints, validWeights]
  exact ⟨_, rfl, rfl, perm_sortBy _ _⟩

theorem tryDecide_of_invalid (candidates : List (InferenceCandidate φ))
    (invalid : ¬ (constraints.validate = .ok () ∧ weights.validate = .ok ())) :
    ∃ error, tryDecide candidates constraints weights = .error error := by
  unfold tryDecide
  cases first : constraints.validate with
  | error error => exact ⟨error, rfl⟩
  | ok _ =>
      cases second : weights.validate with
      | error error => exact ⟨error, rfl⟩
      | ok _ => exact absurd ⟨first, second⟩ invalid

end Inference

end TrustRouter
