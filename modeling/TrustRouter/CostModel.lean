import TrustRouter.Health

/-!
# Cost models and edges

What it costs to enter a node over an edge: four quantities, each normalised to
`[0, 1]` against a ceiling of the tenant's and weighted.  An invalid edge or
model makes the weight infinite, which is how the search leaves it out.

The one fact the search needs of all this arithmetic is `weight_notNeg`.  It
holds whatever the edge and the model are, because a valid model has finite
non-negative weights and every normalised quantity is clamped at zero.
-/

namespace TrustRouter

/-- A node, by name. -/
abbrev NodeId := String

/-- A tenant, by name. -/
abbrev TenantId := String

structure CostWeights where
  wDollar : F64
  wLatency : F64
  wRisk : F64
  wBase : F64
  deriving DecidableEq

structure CostCeilings where
  maxDollar : F64
  maxLatencyMs : ℕ
  maxBase : F64
  deriving DecidableEq

structure TenantCostModel where
  weights : CostWeights
  ceilings : CostCeilings
  deriving DecidableEq

/-- A directed edge as callers state it. -/
structure Edge where
  «from» : NodeId
  «to» : NodeId
  baseCost : F64
  dollarCost : F64
  latencyMs : ℕ
  risk : F64
  enabled : Bool
  deriving DecidableEq

/-- An edge as the graph stores it, in the adjacency list of its source; the
target is the index of its name. -/
structure IndexedEdge where
  «to» : ℕ
  baseCost : F64
  dollarCost : F64
  latencyMs : ℕ
  risk : F64
  enabled : Bool
  deriving DecidableEq

namespace Edge

/-- `Edge::new`: the default costs. -/
def new (source target : NodeId) : Edge where
  «from» := source
  «to» := target
  baseCost := .finite 1
  dollarCost := .finite 0
  latencyMs := 0
  risk := .finite 0
  enabled := true

/-- `Edge::with_costs`. -/
def withCosts (edge : Edge) (baseCost dollarCost : F64) (latencyMs : ℕ) (risk : F64) : Edge :=
  { edge with
    baseCost := baseCost
    dollarCost := dollarCost
    latencyMs := latencyMs
    risk := risk }

/-- The edge as the graph stores it, given the index of its target. -/
def indexed (edge : Edge) (target : ℕ) : IndexedEdge where
  «to» := target
  baseCost := edge.baseCost
  dollarCost := edge.dollarCost
  latencyMs := edge.latencyMs
  risk := edge.risk
  enabled := edge.enabled

end Edge

section

variable [Rounding]

instance : Inhabited CostWeights where
  default :=
    { wDollar := F64.ofRat (4 / 10)
      wLatency := F64.ofRat (3 / 10)
      wRisk := F64.ofRat (2 / 10)
      wBase := F64.ofRat (1 / 10) }

instance : Inhabited CostCeilings where
  default :=
    { maxDollar := F64.ofRat (1 / 100)
      maxLatencyMs := 1000
      maxBase := .finite 10 }

instance : Inhabited TenantCostModel := ⟨⟨default, default⟩⟩

end

namespace TenantCostModel

def validate (model : TenantCostModel) : Except RouterError Unit :=
  let weights :=
    [model.weights.wDollar, model.weights.wLatency, model.weights.wRisk, model.weights.wBase]
  if weights.any fun weight => !weight.isFinite || weight < F64.finite 0 then
    .error (.invalidCostModel "weights must be finite and non-negative")
  else if weights.all fun weight => weight = F64.finite 0 then
    .error (.invalidCostModel "at least one weight must be greater than zero")
  else if !model.ceilings.maxDollar.isFinite || !model.ceilings.maxBase.isFinite
      || model.ceilings.maxDollar ≤ F64.finite 0 || model.ceilings.maxBase ≤ F64.finite 0
      || model.ceilings.maxLatencyMs = 0 then
    .error (.invalidCostModel "ceilings must be finite and greater than zero")
  else
    .ok ()

/-- The weights of a valid model are not negative. -/
theorem weights_notNeg {model : TenantCostModel} (valid : model.validate = .ok ()) :
    model.weights.wDollar.NotNeg ∧ model.weights.wLatency.NotNeg ∧
      model.weights.wRisk.NotNeg ∧ model.weights.wBase.NotNeg := by
  unfold validate at valid
  dsimp only at valid
  split_ifs at valid with refused
  simp only [List.any_cons, List.any_nil, Bool.or_false, Bool.or_eq_true, decide_eq_true_eq,
    not_or] at refused
  exact ⟨refused.1.2, refused.2.1.2, refused.2.2.1.2, refused.2.2.2.2⟩

end TenantCostModel

variable [Rounding]

def normalize (value ceiling : F64) : F64 :=
  if ceiling ≤ F64.finite 0 then .finite 1
  else (value / ceiling).clamp (.finite 0) (.finite 1)

/-- A normalised quantity is never negative. -/
theorem normalize_notNeg (value ceiling : F64) : (normalize value ceiling).NotNeg := by
  have one : (F64.finite 1).NotNeg := F64.notNeg_finite.mpr (by norm_num)
  unfold normalize
  split_ifs
  · exact one
  · exact F64.notNeg_clamp_zero _ one

namespace Edge

omit [Rounding] in
/-- The ends need a name, and the costs are finite and not negative. -/
def isValid (edge : Edge) : Bool :=
  !edge.from.isEmpty && !edge.to.isEmpty
    && edge.baseCost.isFinite && edge.dollarCost.isFinite && edge.risk.isFinite
    && F64.finite 0 ≤ edge.baseCost && F64.finite 0 ≤ edge.dollarCost
    && F64.finite 0 ≤ edge.risk

def weight (edge : Edge) (model : TenantCostModel) : F64 :=
  if edge.isValid = false ∨ model.validate ≠ .ok () then .posInf
  else
    let ceilings := model.ceilings
    let weights := model.weights
    let dollar := normalize edge.dollarCost ceilings.maxDollar
    let latency := normalize (F64.ofRat edge.latencyMs) (F64.ofRat ceilings.maxLatencyMs)
    let risk := edge.risk.clamp (.finite 0) (.finite 1)
    let base := normalize edge.baseCost ceilings.maxBase
    weights.wDollar * dollar + weights.wLatency * latency + weights.wRisk * risk
      + weights.wBase * base

end Edge

namespace IndexedEdge

omit [Rounding] in
def isValid (edge : IndexedEdge) : Bool :=
  edge.baseCost.isFinite && edge.dollarCost.isFinite && edge.risk.isFinite
    && F64.finite 0 ≤ edge.baseCost && F64.finite 0 ≤ edge.dollarCost
    && F64.finite 0 ≤ edge.risk

def weight (edge : IndexedEdge) (model : TenantCostModel) : F64 :=
  if edge.isValid = false ∨ model.validate ≠ .ok () then .posInf
  else
    let ceilings := model.ceilings
    let weights := model.weights
    let dollar := normalize edge.dollarCost ceilings.maxDollar
    let latency := normalize (F64.ofRat edge.latencyMs) (F64.ofRat ceilings.maxLatencyMs)
    let risk := edge.risk.clamp (.finite 0) (.finite 1)
    let base := normalize edge.baseCost ceilings.maxBase
    weights.wDollar * dollar + weights.wLatency * latency + weights.wRisk * risk
      + weights.wBase * base

/-- The weight of an edge is never negative. -/
theorem weight_notNeg (edge : IndexedEdge) (model : TenantCostModel) :
    (edge.weight model).NotNeg := by
  unfold weight
  split_ifs with unusable
  · exact F64.notNeg_posInf
  · have valid : model.validate = .ok () := not_not.mp (not_or.mp unusable).2
    obtain ⟨dollar, latency, risk, base⟩ := model.weights_notNeg valid
    have clamped : (edge.risk.clamp (.finite 0) (.finite 1)).NotNeg :=
      F64.notNeg_clamp_zero _ (F64.notNeg_finite.mpr (by norm_num))
    exact (((dollar.mul (normalize_notNeg _ _)).add (latency.mul (normalize_notNeg _ _))).add
      (risk.mul clamped)).add (base.mul (normalize_notNeg _ _))

end IndexedEdge

/-- The default model is valid, in exact and in binary64 arithmetic alike. -/
example : letI := Rounding.exact; (default : TenantCostModel).validate = .ok () := by
  decide +kernel

end TrustRouter
