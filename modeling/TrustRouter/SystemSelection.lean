import TrustRouter.SystemPlanning

/-!
# What is selected

With exact arithmetic and a valid configuration, a placement is selected exactly when some
candidate meets every condition (`Placeable`), it is such a candidate, and no such
candidate has a smaller score.

The conditions are carried through three hand-overs.  A candidate passes the gates when its
node and backend are registered and fit (`firstGate_eq_none_iff`); its estimate passes the
scorer when it is within the constraints (`rejection_eq_none_iff`); and the estimate with
the least score leads back to a candidate because it is a number, so that it is equal to
itself (`eq_of_eq_exact`).
-/

namespace TrustRouter

/-! ## Estimates in exact arithmetic -/

namespace Inference

section Exact

/-- A valid estimate within the constraints. -/
structure Admissible (constraints : InferenceConstraints F64)
    (candidate : InferenceCandidate F64) : Prop where
  latencyMs : .finite 0 ≤ candidate.latencyMs ∧ candidate.latencyMs ≤ constraints.maxLatencyMs
  cost : .finite 0 ≤ candidate.cost ∧ candidate.cost ≤ constraints.maxCost
  failureRate : .finite 0 ≤ candidate.failureRate ∧ candidate.failureRate ≤ .finite 1
  quality : constraints.minQuality ≤ candidate.quality ∧ candidate.quality ≤ .finite 1

/-- Constraints that are valid are numbers. -/
theorem exists_of_validConstraints {constraints : InferenceConstraints F64} :
    letI := Rounding.exact
    constraints.validate = .ok () →
      ∃ latency cost quality : ℚ, constraints = ⟨.finite latency, .finite cost, .finite quality⟩ ∧
        0 ≤ latency ∧ 0 ≤ cost ∧ 0 ≤ quality := by
  let _ := Rounding.exact
  intro valid
  obtain ⟨maxLatencyMs, maxCost, minQuality⟩ := constraints
  simp only [InferenceConstraints.validate, Float64.toF64_self] at valid
  split_ifs at valid with invalid
  simp only [Bool.or_eq_true, Bool.not_eq_true', decide_eq_true_eq, not_or, Bool.not_eq_false,
    Bool.and_eq_true] at invalid
  obtain ⟨⟨⟨⟨⟨latency, latency'⟩, cost⟩, cost'⟩, quality⟩, quality', -⟩ := invalid
  obtain ⟨a, rfl⟩ := F64.isFinite_iff.mp latency
  obtain ⟨b, rfl⟩ := F64.isFinite_iff.mp cost
  obtain ⟨c, rfl⟩ := F64.isFinite_iff.mp quality
  exact ⟨a, b, c, rfl, by simpa using latency', by simpa using cost', by simpa using quality'⟩

/-- Weights that are valid are numbers. -/
theorem exists_of_validWeights {weights : ObjectiveWeights F64} :
    letI := Rounding.exact
    weights.validate = .ok () →
      ∃ latency cost reliability quality : ℚ,
        weights = ⟨.finite latency, .finite cost, .finite reliability, .finite quality⟩ := by
  let _ := Rounding.exact
  intro valid
  obtain ⟨latency, cost, reliability, quality⟩ := weights
  simp only [ObjectiveWeights.validate, Float64.toF64_self] at valid
  split_ifs at valid with invalid
  simp only [List.any_cons, List.any_nil, Bool.or_false, Bool.or_eq_true, Bool.not_eq_true',
    decide_eq_true_eq, not_or, Bool.not_eq_false] at invalid
  obtain ⟨⟨⟨first, -⟩, ⟨second, -⟩, ⟨third, -⟩, fourth, -⟩, -⟩ := invalid
  obtain ⟨a, rfl⟩ := F64.isFinite_iff.mp first
  obtain ⟨b, rfl⟩ := F64.isFinite_iff.mp second
  obtain ⟨c, rfl⟩ := F64.isFinite_iff.mp third
  obtain ⟨d, rfl⟩ := F64.isFinite_iff.mp fourth
  exact ⟨a, b, c, d, rfl⟩

theorem valid_iff {v : F64} :
    letI := Rounding.exact
    valid v = true ↔ ∃ a : ℚ, v = .finite a ∧ 0 ≤ a := by
  let _ := Rounding.exact
  cases v <;> simp [valid, F64.isFinite]

/-- What lies between two numbers is a number between them. -/
theorem exists_of_between {v : F64} {low high : ℚ} (below : .finite low ≤ v)
    (above : v ≤ .finite high) : ∃ a : ℚ, v = .finite a ∧ low ≤ a ∧ a ≤ high := by
  cases v with
  | nan => exact absurd below (F64.not_le_nan _)
  | negInf => exact absurd below (F64.not_finite_le_negInf _)
  | posInf => exact absurd above (F64.not_posInf_le_finite _)
  | finite a => exact ⟨a, rfl, F64.finite_le_finite.mp below, F64.finite_le_finite.mp above⟩

/-- An admissible estimate is made of numbers. -/
theorem Admissible.exists_numbers {a b c : ℚ} {candidate : InferenceCandidate F64}
    (admissible : Admissible ⟨.finite a, .finite b, .finite c⟩ candidate) :
    ∃ x y z w : ℚ, candidate = ⟨candidate.model, candidate.strategy, .finite x, .finite y,
        .finite z, .finite w⟩ ∧
      (0 ≤ x ∧ x ≤ a) ∧ (0 ≤ y ∧ y ≤ b) ∧ (0 ≤ z ∧ z ≤ 1) ∧ c ≤ w ∧ w ≤ 1 := by
  obtain ⟨model, strategy, latencyMs, cost, failureRate, quality⟩ := candidate
  obtain ⟨⟨first, first'⟩, ⟨second, second'⟩, ⟨third, third'⟩, fourth, fourth'⟩ := admissible
  obtain ⟨x, rfl, hx⟩ := exists_of_between first first'
  obtain ⟨y, rfl, hy⟩ := exists_of_between second second'
  obtain ⟨z, rfl, hz⟩ := exists_of_between third third'
  obtain ⟨w, rfl, hw⟩ := exists_of_between fourth fourth'
  exact ⟨x, y, z, w, rfl, hx, hy, hz, hw⟩

/-- The scorer refuses nothing but what is not within the constraints. -/
theorem rejection_eq_none_iff {constraints : InferenceConstraints F64}
    {candidate : InferenceCandidate F64} :
    letI := Rounding.exact
    constraints.validate = .ok () →
      (rejection constraints candidate = none ↔ Admissible constraints candidate) := by
  let _ := Rounding.exact
  intro validConstraints
  obtain ⟨a, b, c, rfl, -, -, nonneg⟩ := exists_of_validConstraints validConstraints
  constructor
  · intro passes
    obtain ⟨model, strategy, latencyMs, cost, failureRate, quality⟩ := candidate
    simp only [rejection, List.all_cons, List.all_nil, Bool.and_true] at passes
    split_ifs at passes with estimates latency dear poor
    simp only [Bool.or_eq_true, Bool.not_eq_true', not_or, Bool.not_eq_false, Bool.and_eq_true,
      decide_eq_true_eq] at estimates
    obtain ⟨⟨⟨first, second, third, fourth⟩, rate⟩, ratio⟩ := estimates
    obtain ⟨x, rfl, hx⟩ := valid_iff.mp first
    obtain ⟨y, rfl, hy⟩ := valid_iff.mp second
    obtain ⟨z, rfl, hz⟩ := valid_iff.mp third
    obtain ⟨w, rfl, hw⟩ := valid_iff.mp fourth
    simp only [Float64.toF64_self, F64.finite_lt_finite, not_lt] at latency dear poor rate ratio
    exact ⟨by simp [hx, latency], by simp [hy, dear], by simp [hz, rate], by simp [poor, ratio]⟩
  · intro admissible
    obtain ⟨x, y, z, w, same, ⟨hx, hx'⟩, ⟨hy, hy'⟩, ⟨hz, hz'⟩, hw, hw'⟩ := admissible.exists_numbers
    rw [same]
    simp [rejection, valid, hx, hy, hz, nonneg.trans hw, not_lt.mpr hx', not_lt.mpr hy',
      not_lt.mpr hz', not_lt.mpr hw, not_lt.mpr hw']

/-- Equal estimates are the same, where they are numbers without a sign of zero. -/
theorem eq_of_eq_exact {a b : InferenceCandidate F64} :
    letI := Rounding.exact
    eq a b = true → a = b := by
  let _ := Rounding.exact
  intro same
  obtain ⟨model, strategy, ⟨latencyMs, -⟩, ⟨cost, -⟩, ⟨failureRate, -⟩, quality, -⟩ :=
    eq_iff.mp same
  exact InferenceCandidate.ext model strategy latencyMs cost failureRate quality

/-- An admissible estimate is equal to itself. -/
theorem eq_self_of_admissible {constraints : InferenceConstraints F64}
    {candidate : InferenceCandidate F64} :
    letI := Rounding.exact
    constraints.validate = .ok () → Admissible constraints candidate →
      eq candidate candidate = true := by
  let _ := Rounding.exact
  intro validConstraints admissible
  obtain ⟨a, b, c, rfl, -⟩ := exists_of_validConstraints validConstraints
  obtain ⟨x, y, z, w, same, -⟩ := admissible.exists_numbers
  rw [same, eq_self_iff]
  simp [NoNan]

/-- The score of an admissible estimate is a number. -/
theorem exists_score {constraints : InferenceConstraints F64} {weights : ObjectiveWeights F64}
    {candidate : InferenceCandidate F64} :
    letI := Rounding.exact
    constraints.validate = .ok () → weights.validate = .ok () →
      Admissible constraints candidate →
        ∃ q : ℚ, score constraints weights candidate = .finite q := by
  let _ := Rounding.exact
  intro validConstraints validWeights admissible
  obtain ⟨a, b, c, rfl, -⟩ := exists_of_validConstraints validConstraints
  obtain ⟨p, q, r, s, rfl⟩ := exists_of_validWeights validWeights
  obtain ⟨x, y, z, w, same, -⟩ := admissible.exists_numbers
  -- `normalized` divides by no zero, so that its quotients are numbers
  have scaled : ∀ value ceiling : ℚ,
      ∃ n : ℚ, normalized (F64.finite value) (F64.finite ceiling) = .finite n := by
    intro value ceiling
    by_cases zero : ceiling = 0
    · exact ⟨0, by simp [normalized, Float64.zero, zero]⟩
    · refine ⟨value / ceiling, ?_⟩
      have notZero : Float64.toF64 (F64.finite ceiling) ≠ .finite 0 := fun same =>
        zero (F64.finite.inj same)
      rw [normalized, if_neg notZero]
      exact F64.finite_div_finite value zero
  obtain ⟨n, hn⟩ := scaled x a
  obtain ⟨m, hm⟩ := scaled y b
  rw [same, score]
  dsimp only
  rw [hn, hm]
  exact ⟨_, rfl⟩

end Exact

end Inference

namespace SystemPlanner

open SystemPlanning

/-! ## Placements in exact arithmetic -/

/-- What a placement has to meet to be selected. -/
structure Placeable (planner : SystemPlanner) (requirement : CapacityRequirement)
    (constraints : InferenceConstraints F64) (candidate : PlacementCandidate F64) : Prop where
  identifiers : isIdentifier candidate.backendId = true ∧
    isIdentifier candidate.computeNodeId = true
  model : candidate.estimate.model = requirement.model
  node : ∃ node, planner.capacity.nodes.get candidate.computeNodeId = some node ∧
    node.healthy = true ∧ (∀ region ∈ requirement.region, region = node.region) ∧
    requirement.model ∈ node.residentModels ∧
    requirement.minAvailableMemoryMb ≤ node.availableMemoryMb ∧
    node.queueDepth ≤ requirement.maxQueueDepth
  backend : ∃ entry, planner.backends.entries.get candidate.backendId = some entry ∧
    entry.descriptor.supports candidate.estimate.model candidate.estimate.strategy = true
  estimate : Inference.Admissible constraints candidate.estimate

/-- The gates, as conditions. -/
theorem firstGate_eq_none_iff {planner : SystemPlanner} {requirement : CapacityRequirement}
    {φ : Type} {candidate : PlacementCandidate φ} :
    planner.firstGate requirement candidate = none ↔
      (isIdentifier candidate.backendId = true ∧ isIdentifier candidate.computeNodeId = true) ∧
        candidate.estimate.model = requirement.model ∧
        (∃ node, planner.capacity.nodes.get candidate.computeNodeId = some node ∧
          requirement.rejection node = none) ∧
        ∃ entry, planner.backends.entries.get candidate.backendId = some entry ∧
          entry.descriptor.supports candidate.estimate.model candidate.estimate.strategy =
            true := by
  unfold firstGate
  split_ifs with invalid model
  · simp only [Bool.or_eq_true, Bool.not_eq_true'] at invalid
    simp only [false_iff]
    rintro ⟨⟨backend, node⟩, -⟩
    simp [backend, node] at invalid
  · simp only [false_iff]
    exact fun ⟨_, same, _⟩ => model same
  · simp only [Bool.or_eq_true, Bool.not_eq_true', not_or, Bool.not_eq_false] at invalid
    rw [and_iff_right invalid, and_iff_right (not_not.mp model)]
    cases found : planner.capacity.nodes.get candidate.computeNodeId with
    | none => simp
    | some node =>
        cases reason : requirement.rejection node with
        | some reason => simp [reason]
        | none =>
            cases registered : planner.backends.entries.get candidate.backendId with
            | none => simp [reason]
            | some entry => simp [reason]

theorem placeable_iff {planner : SystemPlanner} {requirement : CapacityRequirement}
    {constraints : InferenceConstraints F64} {candidate : PlacementCandidate F64} :
    letI := Rounding.exact
    constraints.validate = .ok () →
      (planner.Placeable requirement constraints candidate ↔
        planner.firstGate requirement candidate = none ∧
          Inference.rejection constraints candidate.estimate = none) := by
  let _ := Rounding.exact
  intro validConstraints
  rw [Inference.rejection_eq_none_iff validConstraints, firstGate_eq_none_iff]
  simp only [CapacityRequirement.rejection_eq_none_iff]
  exact ⟨fun ⟨identifiers, model, node, backend, estimate⟩ =>
      ⟨⟨identifiers, model, node, backend⟩, estimate⟩,
    fun ⟨⟨identifiers, model, node, backend⟩, estimate⟩ =>
      ⟨identifiers, model, node, backend, estimate⟩⟩

/-! ## The selection -/

/-- The first of the sorted candidates has the least score, where scores are numbers. -/
theorem score_head_le {scored : List (ScoredCandidate F64)} {least other : ScoredCandidate F64} :
    letI := Rounding.exact
    (sortBy Inference.scoredOrder scored).head? = some least → other ∈ scored →
      ∀ {a b : ℚ}, least.score = .finite a → other.score = .finite b →
        least.score ≤ other.score := by
  let _ := Rounding.exact
  intro first mem a b value value'
  have sorted : (sortBy Inference.scoredOrder scored).Pairwise
      fun a b => (Inference.scoredOrder a b).isLE = true := pairwise_sortBy scored
  rw [← mem_sortBy Inference.scoredOrder] at mem
  cases list : sortBy Inference.scoredOrder scored with
  | nil => simp [list] at first
  | cons head rest =>
      rw [list] at first sorted mem
      obtain rfl : head = least := by simpa using first
      rcases List.mem_cons.mp mem with rfl | mem
      · rw [value]
        exact F64.finite_le_finite.mpr le_rfl
      · have le := List.rel_of_pairwise_cons sorted mem
        -- the score is compared first
        have key : (F64.totalCmp head.score other.score).isLE = true :=
          (Ordering.isLE_then_iff_and.mp le).1
        rw [value, value'] at key ⊢
        have order : F64.totalKey (.finite a) ≤ F64.totalKey (.finite b) :=
          compare_le_iff_le.mp (Ordering.ne_gt_iff_isLE.mpr key)
        exact F64.finite_le_finite.mpr
          (by simpa [F64.totalKey, Prod.Lex.toLex_le_toLex] using order)

theorem decide_selected_of_valid (planner : SystemPlanner) {φ : Type} [Float64 φ]
    (candidates : List (PlacementCandidate φ)) (requirement : CapacityRequirement)
    {constraints : InferenceConstraints φ} {weights : ObjectiveWeights φ}
    (validConstraints : constraints.validate = .ok ()) (validWeights : weights.validate = .ok ()) :
    let feasible := (sortBy candidateOrder candidates).filter fun candidate =>
      planner.firstGate requirement candidate = none
    ∃ fallback, (planner.decide candidates requirement constraints weights).selected =
      (sortBy Inference.scoredOrder (Inference.feasible constraints weights
          (feasible.map PlacementCandidate.estimate))).head?.bind fun scored =>
        (feasible.find? fun candidate => Inference.eq candidate.estimate scored.candidate).map
          fun candidate => ⟨candidate.backendId, candidate.computeNodeId, scored, fallback⟩ := by
  intro feasible
  obtain ⟨decision, decided, selected, -⟩ := Inference.tryDecide_of_valid
    (feasible.map PlacementCandidate.estimate) validConstraints validWeights
  refine ⟨decision.fallback, ?_⟩
  unfold SystemPlanner.decide
  dsimp only
  rw [gate_eq, decided, ← selected]

/-- What is scored are the estimates of the placeable candidates. -/
theorem mem_scored {planner : SystemPlanner} {candidates : List (PlacementCandidate F64)}
    {requirement : CapacityRequirement} {constraints : InferenceConstraints F64}
    {weights : ObjectiveWeights F64} {scored : ScoredCandidate F64} :
    letI := Rounding.exact
    constraints.validate = .ok () →
      (scored ∈ Inference.feasible constraints weights
          (((sortBy candidateOrder candidates).filter fun candidate =>
            planner.firstGate requirement candidate = none).map PlacementCandidate.estimate) ↔
        ∃ candidate ∈ candidates, planner.Placeable requirement constraints candidate ∧
          ⟨candidate.estimate, Inference.score constraints weights candidate.estimate⟩ =
            scored) := by
  let _ := Rounding.exact
  intro validConstraints
  simp only [Inference.feasible, List.mem_map, List.mem_filter, decide_eq_true_eq,
    mem_sortBy, placeable_iff validConstraints]
  constructor
  · rintro ⟨_, ⟨⟨candidate, ⟨mem, gates⟩, rfl⟩, passes⟩, same⟩
    exact ⟨candidate, mem, ⟨gates, passes⟩, same⟩
  · rintro ⟨candidate, mem, ⟨gates, passes⟩, same⟩
    exact ⟨candidate.estimate, ⟨⟨candidate, ⟨mem, gates⟩, rfl⟩, passes⟩, same⟩

/-- A scored estimate leads back to a placeable candidate with that estimate. -/
theorem find_scored {planner : SystemPlanner} {candidates : List (PlacementCandidate F64)}
    {requirement : CapacityRequirement} {constraints : InferenceConstraints F64}
    {candidate : PlacementCandidate F64} :
    letI := Rounding.exact
    constraints.validate = .ok () → candidate ∈ candidates →
      planner.Placeable requirement constraints candidate →
        ∃ found ∈ candidates, planner.Placeable requirement constraints found ∧
          found.estimate = candidate.estimate ∧
          (((sortBy candidateOrder candidates).filter fun candidate =>
            planner.firstGate requirement candidate = none).find? fun other =>
              Inference.eq other.estimate candidate.estimate) = some found := by
  let _ := Rounding.exact
  intro validConstraints mem placeable
  obtain ⟨gates, passes⟩ := (placeable_iff validConstraints).mp placeable
  set feasible := (sortBy candidateOrder candidates).filter fun candidate =>
    planner.firstGate requirement candidate = none
  -- the lookup ends at some candidate, since this one is among those looked through
  have present : candidate ∈ feasible := by
    simpa [feasible, mem_sortBy] using And.intro mem gates
  have itself := Inference.eq_self_of_admissible validConstraints placeable.estimate
  obtain ⟨found, isFound⟩ : ∃ found, feasible.find? (fun other =>
      Inference.eq other.estimate candidate.estimate) = some found :=
    Option.isSome_iff_exists.mp (List.find?_isSome.mpr ⟨candidate, present, itself⟩)
  have equal : Inference.eq found.estimate candidate.estimate = true := by
    simpa using List.find?_some isFound
  have same := Inference.eq_of_eq_exact equal
  have among : found ∈ candidates ∧ planner.firstGate requirement found = none := by
    simpa [feasible, mem_sortBy] using List.mem_of_find?_eq_some isFound
  refine ⟨found, among.1, (placeable_iff validConstraints).mpr ⟨among.2, ?_⟩, same, isFound⟩
  rw [same]
  exact passes

/-- **Selection is sound, complete and optimal.**  With exact arithmetic and a valid
configuration, a placement is selected exactly when some candidate is placeable.  It is a
placeable candidate, with its estimate and score, and no placeable candidate has a smaller
score. -/
theorem selected_sound_complete_optimal (planner : SystemPlanner)
    (candidates : List (PlacementCandidate F64)) (requirement : CapacityRequirement)
    (constraints : InferenceConstraints F64) (weights : ObjectiveWeights F64) :
    letI := Rounding.exact
    constraints.validate = .ok () → weights.validate = .ok () →
      let selected := (planner.decide candidates requirement constraints weights).selected
      (selected.isSome ↔
          ∃ candidate ∈ candidates, planner.Placeable requirement constraints candidate) ∧
        ∀ selection ∈ selected,
          (∃ candidate ∈ candidates, planner.Placeable requirement constraints candidate ∧
            selection.backendId = candidate.backendId ∧
            selection.computeNodeId = candidate.computeNodeId ∧
            selection.scored = ⟨candidate.estimate,
              Inference.score constraints weights candidate.estimate⟩) ∧
          ∀ other ∈ candidates, planner.Placeable requirement constraints other →
            selection.scored.score ≤ Inference.score constraints weights other.estimate := by
  let _ := Rounding.exact
  intro validConstraints validWeights
  obtain ⟨fallback, selected_eq⟩ :=
    planner.decide_selected_of_valid candidates requirement validConstraints validWeights
  dsimp only at selected_eq ⊢
  rw [selected_eq]
  set feasible := (sortBy candidateOrder candidates).filter fun candidate =>
    planner.firstGate requirement candidate = none
  set scored := Inference.feasible constraints weights (feasible.map PlacementCandidate.estimate)
  have mem : ∀ {value}, value ∈ scored ↔ ∃ candidate ∈ candidates,
      planner.Placeable requirement constraints candidate ∧
        ⟨candidate.estimate, Inference.score constraints weights candidate.estimate⟩ = value :=
    mem_scored validConstraints
  cases first : (sortBy Inference.scoredOrder scored).head? with
  | none =>
      -- nothing is scored, and nothing is selected
      have empty : ∀ value, value ∉ scored := by
        intro value mem
        rw [← mem_sortBy Inference.scoredOrder, List.head?_eq_none_iff.mp first] at mem
        exact List.not_mem_nil mem
      refine ⟨⟨fun isSome => by simp at isSome, ?_⟩, fun _ isSelected => by simp at isSelected⟩
      rintro ⟨candidate, among, placeable⟩
      exact absurd (mem.mpr ⟨candidate, among, placeable, rfl⟩) (empty _)
  | some least =>
      have isScored : least ∈ scored := (mem_sortBy _).mp (List.mem_of_mem_head? first)
      obtain ⟨candidate, among, placeable, rfl⟩ := mem.mp isScored
      -- the placement that is found need not be the one that was scored, but their estimates
      -- are the same
      obtain ⟨found, among', placeable', same, isFound⟩ :=
        find_scored validConstraints among placeable
      rw [Option.bind_some, isFound]
      refine ⟨iff_of_true rfl ⟨candidate, among, placeable⟩, ?_⟩
      rintro _ ⟨⟩
      refine ⟨⟨found, among', placeable', rfl, rfl, by rw [same]⟩, fun other mem' other' => ?_⟩
      obtain ⟨a, score⟩ :=
        Inference.exists_score validConstraints validWeights placeable.estimate
      obtain ⟨b, score'⟩ := Inference.exists_score validConstraints validWeights other'.estimate
      exact score_head_le first (mem.mpr ⟨other, mem', other', rfl⟩) score score'

/-- Of two placements on the one node there is, the faster one is selected.  A third would be
faster still, on a node that there is not. -/
theorem selected_of_three :
    letI := Rounding.exact
    let requirement : CapacityRequirement := ⟨⟨"model", "1"⟩, some "region-a", 10, 1⟩
    let placement := fun (node : String) (latencyMs : ℚ) =>
      (⟨"backend", node, ⟨⟨"model", "1"⟩, .none, .finite latencyMs, .finite 0, .finite 0,
        .finite 1⟩⟩ : PlacementCandidate F64)
    let candidates := [placement "node" 9, placement "node" 3, placement "elsewhere" 1]
    let selected := (single.decide candidates requirement default default).selected
    (∃ candidate ∈ candidates, single.Placeable requirement default candidate) ∧
      ∃ selection, selected = some selection ∧ selection.backendId = "backend" ∧
        selection.computeNodeId = "node" ∧
        selection.scored.candidate = (placement "node" 3).estimate ∧
        ∀ other ∈ candidates, single.Placeable requirement default other →
          selection.scored.score ≤ Inference.score default default other.estimate := by
  let _ := Rounding.exact
  intro requirement placement candidates selected
  obtain ⟨complete, sound⟩ := selected_sound_complete_optimal single candidates requirement
    default default (by decide +kernel) (by decide +kernel)
  have decided : (selected.any fun selection =>
      selection.backendId = "backend" ∧ selection.computeNodeId = "node" ∧
        selection.scored.candidate = (placement "node" 3).estimate) = true := by decide +kernel
  obtain ⟨selection, isSelected, which⟩ := (Option.any_eq_true _ _).mp decided
  obtain ⟨backend, node, estimate⟩ := of_decide_eq_true which
  exact ⟨complete.mp (Option.isSome_iff_exists.mpr ⟨selection, isSelected⟩), selection, isSelected,
    backend, node, estimate, (sound selection isSelected).2⟩

end SystemPlanner

end TrustRouter
