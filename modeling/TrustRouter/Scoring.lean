import TrustRouter.SystemSelection

/-!
# The true optimum

The orders that candidates are sorted by tell all of them apart, so what `try_decide` makes
of a list does not depend on the order of the list, and one more candidate is selected itself
or changes nothing in the selection.

In exact arithmetic the score is the number it stands for (`score_eq_weightedScore`), and a
candidate is refused for the first check it fails (`rejection_eq_some_iff`).  So the one that
is selected is the best of those that pass every check (`tryDecide_optimal`).
-/

namespace TrustRouter

namespace Inference

open Float64

variable {φ : Type} [Float64 φ]

/-! ### The orders of the two lists -/

instance : Std.LawfulEqCmp (scoredOrder (φ := φ)) where
  compare_self := by simp [scoredOrder]
  eq_of_compare {a b} same := by
    obtain ⟨score, candidate⟩ := Ordering.then_eq_eq.mp same
    obtain ⟨first, value⟩ := a
    obtain ⟨second, value'⟩ := b
    obtain rfl : value = value' := Std.LawfulEqCmp.eq_of_compare score
    obtain rfl : first = second := Std.LawfulEqCmp.eq_of_compare candidate
    rfl

omit [Float64 φ] in
theorem rank_injective : Function.Injective RejectionReason.rank := by
  intro a b
  cases a <;> cases b <;> decide

instance : Std.TransCmp (rejectedOrder (φ := φ)) :=
  transCmp_then (transCmp_on _ Prod.fst)
    (transCmp_on compare fun a : InferenceCandidate φ × RejectionReason => a.2.rank)

instance : Std.LawfulEqCmp (rejectedOrder (φ := φ)) where
  compare_self := by simp [rejectedOrder]
  eq_of_compare {a b} same := by
    obtain ⟨candidate, reason⟩ := Ordering.then_eq_eq.mp same
    exact Prod.ext (Std.LawfulEqCmp.eq_of_compare candidate)
      (rank_injective (Std.LawfulEqOrd.eq_of_compare reason))

/-! ### What does not matter to a decision -/

/-- The order of the list does not. -/
theorem tryDecide_perm {candidates candidates' : List (InferenceCandidate φ)}
    (perm : candidates'.Perm candidates) (constraints : InferenceConstraints φ)
    (weights : ObjectiveWeights φ) :
    tryDecide candidates' constraints weights = tryDecide candidates constraints weights := by
  have rejected : sortBy rejectedOrder _ = sortBy rejectedOrder _ :=
    sortBy_eq_of_perm (perm.filterMap fun candidate =>
      (rejection constraints candidate).map (Prod.mk candidate))
  have scored : sortBy scoredOrder _ = sortBy scoredOrder _ :=
    sortBy_eq_of_perm ((perm.filter fun candidate =>
      rejection constraints candidate = none).map fun candidate =>
      (⟨candidate, score constraints weights candidate⟩ : ScoredCandidate φ))
  unfold tryDecide
  dsimp only
  rw [rejected, scored]

/-- One more candidate is selected, or it makes no difference to what is. -/
theorem head?_feasible_cons (constraints : InferenceConstraints φ) (weights : ObjectiveWeights φ)
    (candidate : InferenceCandidate φ) (candidates : List (InferenceCandidate φ)) :
    (sortBy scoredOrder (feasible constraints weights (candidate :: candidates))).head? =
        (sortBy scoredOrder (feasible constraints weights candidates)).head? ∨
      (sortBy scoredOrder (feasible constraints weights (candidate :: candidates))).head? =
        some ⟨candidate, score constraints weights candidate⟩ := by
  by_cases passes : rejection constraints candidate = none
  · have more : feasible constraints weights (candidate :: candidates) =
        ⟨candidate, score constraints weights candidate⟩ ::
          feasible constraints weights candidates := by
      simp [feasible, passes]
    rw [more]
    exact head?_sortBy_cons _ _
  · have same : feasible constraints weights (candidate :: candidates) =
        feasible constraints weights candidates := by
      simp [feasible, passes]
    exact Or.inl (by rw [same])

/-- Every candidate is refused or passes. -/
theorem rejected_append_perm (constraints : InferenceConstraints φ)
    (candidates : List (InferenceCandidate φ)) :
    ((candidates.filterMap fun candidate =>
        (rejection constraints candidate).map (Prod.mk candidate)).map Prod.fst ++
      candidates.filter fun candidate => rejection constraints candidate = none).Perm
        candidates := by
  induction candidates with
  | nil => exact .nil
  | cons candidate rest ih =>
      cases refused : rejection constraints candidate with
      | some reason => simpa [refused] using ih
      | none => simpa [refused] using List.perm_middle.trans (ih.cons candidate)

/-! ### Checks and scores, exactly -/

/-- The estimates are numbers in their ranges. -/
def IsEstimate (candidate : InferenceCandidate F64) : Prop :=
  ∃ latencyMs cost failureRate quality : ℚ,
    candidate = ⟨candidate.model, candidate.strategy, .finite latencyMs, .finite cost,
      .finite failureRate, .finite quality⟩ ∧
    0 ≤ latencyMs ∧ 0 ≤ cost ∧ (0 ≤ failureRate ∧ failureRate ≤ 1) ∧ 0 ≤ quality ∧ quality ≤ 1

/-- The candidate fails this check and has passed those before it. -/
def FirstFailed (constraints : InferenceConstraints F64) (candidate : InferenceCandidate F64) :
    RejectionReason → Prop
  | .invalidEstimate => ¬ IsEstimate candidate
  | .latencyConstraint => IsEstimate candidate ∧ constraints.maxLatencyMs < candidate.latencyMs
  | .costConstraint => IsEstimate candidate ∧ candidate.latencyMs ≤ constraints.maxLatencyMs ∧
      constraints.maxCost < candidate.cost
  | .qualityConstraint => IsEstimate candidate ∧ candidate.latencyMs ≤ constraints.maxLatencyMs ∧
      candidate.cost ≤ constraints.maxCost ∧ candidate.quality < constraints.minQuality
  | .invalidPlanningConfig => False

/-- The weighted sum a score stands for.  What has no ceiling does not count: a quotient by
zero is zero. -/
def weightedScore (constraints : InferenceConstraints F64) (weights : ObjectiveWeights F64)
    (candidate : InferenceCandidate F64) : ℚ :=
  weights.latency.toRat * (candidate.latencyMs.toRat / constraints.maxLatencyMs.toRat)
    + weights.cost.toRat * (candidate.cost.toRat / constraints.maxCost.toRat)
    + weights.reliability.toRat * candidate.failureRate.toRat
    + weights.quality.toRat * (1 - candidate.quality.toRat)

/-- What the first check lets through. -/
theorem isEstimate_iff {candidate : InferenceCandidate F64} :
    letI := Rounding.exact
    (¬ (!([candidate.latencyMs, candidate.cost, candidate.failureRate, candidate.quality].all
          valid) || F64.finite 1 < toF64 candidate.failureRate ||
        F64.finite 1 < toF64 candidate.quality) = true) ↔ IsEstimate candidate := by
  let _ := Rounding.exact
  simp only [List.all_cons, List.all_nil, Bool.and_true, Bool.or_eq_true, Bool.not_eq_true',
    not_or, Bool.not_eq_false, Bool.and_eq_true, decide_eq_true_eq, Float64.toF64_self]
  constructor
  · rintro ⟨⟨⟨first, second, third, fourth⟩, rate⟩, ratio⟩
    obtain ⟨model, strategy, latencyMs, cost, failureRate, quality⟩ := candidate
    obtain ⟨x, rfl, hx⟩ := valid_iff.mp first
    obtain ⟨y, rfl, hy⟩ := valid_iff.mp second
    obtain ⟨z, rfl, hz⟩ := valid_iff.mp third
    obtain ⟨w, rfl, hw⟩ := valid_iff.mp fourth
    rw [F64.finite_lt_finite, not_lt] at rate ratio
    exact ⟨x, y, z, w, rfl, hx, hy, ⟨hz, rate⟩, hw, ratio⟩
  · rintro ⟨x, y, z, w, eq, hx, hy, ⟨hz, hz'⟩, hw, hw'⟩
    rw [eq]
    exact ⟨⟨⟨valid_iff.mpr ⟨x, rfl, hx⟩, valid_iff.mpr ⟨y, rfl, hy⟩, valid_iff.mpr ⟨z, rfl, hz⟩,
      valid_iff.mpr ⟨w, rfl, hw⟩⟩, by simpa using hz'⟩, by simpa using hw'⟩

/-- **A candidate is refused for the first check it fails.** -/
theorem rejection_eq_some_iff {constraints : InferenceConstraints F64}
    {candidate : InferenceCandidate F64} {reason : RejectionReason} :
    letI := Rounding.exact
    constraints.validate = .ok () →
      (rejection constraints candidate = some reason ↔
        FirstFailed constraints candidate reason) := by
  let _ := Rounding.exact
  intro validConstraints
  obtain ⟨a, b, c, rfl, -⟩ := exists_of_validConstraints validConstraints
  unfold rejection
  dsimp only
  by_cases estimate : IsEstimate candidate
  · rw [if_neg (isEstimate_iff.mpr estimate)]
    have numbers := estimate
    obtain ⟨x, y, z, w, eq, -⟩ := numbers
    rw [eq] at estimate ⊢
    clear eq
    simp only [Float64.toF64_self, F64.finite_lt_finite]
    split_ifs with slow dear poor
    · cases reason <;> simp [FirstFailed, estimate, slow, not_le.mpr slow]
    · cases reason <;> simp [FirstFailed, estimate, slow, not_lt.mp slow, dear, not_le.mpr dear]
    · cases reason <;>
        simp [FirstFailed, estimate, slow, not_lt.mp slow, dear, not_lt.mp dear, poor]
    · cases reason <;>
        simp [FirstFailed, estimate, slow, not_lt.mp slow, dear, not_lt.mp dear, poor]
  · have fails := not_not.mp (isEstimate_iff.not.mpr estimate)
    rw [if_pos fails]
    cases reason <;> simp [FirstFailed, estimate]

/-- **In exact arithmetic a score is the number it stands for.** -/
theorem score_eq_weightedScore {constraints : InferenceConstraints F64}
    {weights : ObjectiveWeights F64} {candidate : InferenceCandidate F64} :
    letI := Rounding.exact
    constraints.validate = .ok () → weights.validate = .ok () →
      Admissible constraints candidate →
        score constraints weights candidate =
          .finite (weightedScore constraints weights candidate) := by
  let _ := Rounding.exact
  intro validConstraints validWeights admissible
  obtain ⟨a, b, c, rfl, -⟩ := exists_of_validConstraints validConstraints
  obtain ⟨p, q, r, s, rfl⟩ := exists_of_validWeights validWeights
  obtain ⟨x, y, z, w, same, -⟩ := admissible.exists_numbers
  have scaled : ∀ value ceiling : ℚ,
      normalized (F64.finite value) (F64.finite ceiling) = .finite (value / ceiling) := by
    intro value ceiling
    by_cases zero : ceiling = 0
    · simp [normalized, Float64.zero, zero]
    · have notZero : Float64.toF64 (F64.finite ceiling) ≠ .finite 0 := fun same =>
        zero (F64.finite.inj same)
      rw [normalized, if_neg notZero]
      exact F64.finite_div_finite value zero
  rw [same, score, weightedScore]
  dsimp only
  rw [scaled, scaled]
  -- no operation rounds
  have exactly : ∀ q : ℚ, Rounding.round q = .finite q := fun _ => rfl
  have one : (Float64.one : F64) = .finite 1 := rfl
  simp only [one, F64.finite_mul_finite, F64.finite_sub_finite, F64.finite_add_finite, exactly,
    F64.toRat]

/-! ### The decision -/

/-- What a decision makes of the candidates, of which these are the feasible ones. -/
structure Decides [Rounding] (constraints : InferenceConstraints F64)
    (weights : ObjectiveWeights F64) (candidates : List (InferenceCandidate F64))
    (decision : DecisionExplanation F64) (feasible : List (InferenceCandidate F64)) : Prop where
  /-- Every candidate is rejected or feasible, as often as it is there. -/
  splits : (decision.rejected.map Prod.fst ++ feasible).Perm candidates
  rejected : ∀ {candidate reason}, (candidate, reason) ∈ decision.rejected →
    FirstFailed constraints candidate reason
  passes : ∀ candidate ∈ feasible, Admissible constraints candidate
  selected_eq_none : decision.selected = none ↔ feasible = []
  /-- The selected one is the least of the feasible ones, by its score and then by its place
  in the order of the candidates. -/
  least : ∀ best ∈ decision.selected, best.candidate ∈ feasible ∧
    best.score = .finite (weightedScore constraints weights best.candidate) ∧
    ∀ other ∈ feasible,
      weightedScore constraints weights best.candidate < weightedScore constraints weights other ∨
        weightedScore constraints weights best.candidate =
            weightedScore constraints weights other ∧
          (candidateOrder best.candidate other).isLE = true

/-- Scores that are numbers are compared as such. -/
theorem isLE_scoredOrder_iff {a b : InferenceCandidate F64} {x y : ℚ} :
    letI := Rounding.exact
    (scoredOrder ⟨a, F64.finite x⟩ ⟨b, F64.finite y⟩).isLE = true ↔
      x < y ∨ x = y ∧ (candidateOrder a b).isLE = true := by
  let _ := Rounding.exact
  have key : totalCmp (F64.finite x) (F64.finite y) = compare x y := by
    show compare (toLex (1, x) : ℕ ×ₗ ℚ) (toLex (1, y)) = compare x y
    rcases lt_trichotomy x y with lt | rfl | gt
    · rw [compare_lt_iff_lt.mpr lt]
      exact compare_lt_iff_lt.mpr (Prod.Lex.toLex_lt_toLex.mpr (.inr ⟨rfl, lt⟩))
    · simp
    · rw [compare_gt_iff_gt.mpr gt]
      exact compare_gt_iff_gt.mpr (Prod.Lex.toLex_lt_toLex.mpr (.inr ⟨rfl, gt⟩))
  rw [scoredOrder, key, Ordering.isLE_then_iff_or, compare_lt_iff_lt, compare_eq_iff_eq]

theorem tryDecide_decides {constraints : InferenceConstraints F64}
    {weights : ObjectiveWeights F64} (candidates : List (InferenceCandidate F64)) :
    letI := Rounding.exact
    constraints.validate = .ok () → weights.validate = .ok () →
      ∃ decision, tryDecide candidates constraints weights = .ok decision ∧
        decision.selected = (sortBy scoredOrder (feasible constraints weights candidates)).head? ∧
        Decides constraints weights candidates decision
          (candidates.filter fun candidate => rejection constraints candidate = none) := by
  let _ := Rounding.exact
  intro validConstraints validWeights
  obtain ⟨decision, decided, selected, rejected⟩ :=
    tryDecide_of_valid candidates validConstraints validWeights
  have passes : ∀ candidate ∈ candidates.filter fun candidate =>
      rejection constraints candidate = none, Admissible constraints candidate := by
    intro candidate mem
    exact (rejection_eq_none_iff validConstraints).mp (by simpa using (List.mem_filter.mp mem).2)
  refine ⟨decision, decided, selected, ?_, ?_, passes, ?_, ?_⟩
  · exact ((rejected.map Prod.fst).append_right _).trans
      (rejected_append_perm constraints candidates)
  · intro candidate reason mem
    have mem' := rejected.mem_iff.mp mem
    simp only [List.mem_filterMap, Option.map_eq_some_iff, Prod.mk.injEq] at mem'
    obtain ⟨_, -, _, refused, rfl, rfl⟩ := mem'
    exact (rejection_eq_some_iff validConstraints).mp refused
  · rw [selected, head?_sortBy_eq_none_iff, feasible, List.map_eq_nil_iff]
  · intro best first
    rw [selected] at first
    obtain ⟨mem, below⟩ := head?_sortBy_eq_some_iff.mp first
    obtain ⟨candidate, memCandidate, rfl⟩ := List.mem_map.mp mem
    have value : ∀ other ∈ candidates.filter fun candidate =>
        rejection constraints candidate = none, score constraints weights other =
          .finite (weightedScore constraints weights other) := fun other mem =>
      score_eq_weightedScore validConstraints validWeights (passes other mem)
    refine ⟨memCandidate, value candidate memCandidate, fun other memOther => ?_⟩
    have le := below _ (List.mem_map.mpr ⟨other, memOther, rfl⟩)
    rw [value candidate memCandidate, value other memOther] at le
    exact isLE_scoredOrder_iff.mp le

/-- **The best of the feasible candidates is selected, and nothing else matters.**  The order
of the list does not, and one more candidate is selected itself or leaves the selection as it
is. -/
theorem tryDecide_optimal (constraints : InferenceConstraints F64)
    (weights : ObjectiveWeights F64) (candidates : List (InferenceCandidate F64)) :
    letI := Rounding.exact
    constraints.validate = .ok () → weights.validate = .ok () →
      ∃ decision, tryDecide candidates constraints weights = .ok decision ∧
        (∃ feasible, Decides constraints weights candidates decision feasible) ∧
        (∀ candidates' : List (InferenceCandidate F64), candidates'.Perm candidates →
          tryDecide candidates' constraints weights = .ok decision) ∧
        ∀ (candidate : InferenceCandidate F64) (larger : List (InferenceCandidate F64)),
          larger.Perm (candidate :: candidates) →
            ∃ decision', tryDecide larger constraints weights = .ok decision' ∧
              (decision'.selected = decision.selected ∨
                ∃ best ∈ decision'.selected, best.candidate = candidate) := by
  let _ := Rounding.exact
  intro validConstraints validWeights
  obtain ⟨decision, decided, selected, decides⟩ :=
    tryDecide_decides candidates validConstraints validWeights
  refine ⟨decision, decided, ⟨_, decides⟩, fun candidates' perm => ?_,
    fun candidate larger perm => ?_⟩
  · rw [tryDecide_perm perm, decided]
  · obtain ⟨decision', decided', selected', -⟩ :=
      tryDecide_decides (candidate :: candidates) validConstraints validWeights
    refine ⟨decision', by rw [tryDecide_perm perm, decided'], ?_⟩
    rw [selected', selected]
    exact (head?_feasible_cons constraints weights candidate candidates).imp_right fun first =>
      ⟨_, first, rfl⟩

/-- Two candidates, of which one is not good enough, and one more. -/
theorem tryDecide_optimal_three :
    letI := Rounding.exact
    let candidate (id : String) (latencyMs cost quality : ℚ) : InferenceCandidate F64 :=
      ⟨⟨id, "1"⟩, .prefixCache, .finite latencyMs, .finite cost, .finite 0, .finite quality⟩
    let constraints : InferenceConstraints F64 := ⟨.finite 100, .finite 1, .finite (9 / 10)⟩
    let candidates := [candidate "cheap-bad" 1 0 (1 / 2), candidate "b" 10 (1 / 10) (99 / 100)]
    ∃ decision, tryDecide candidates constraints default = .ok decision ∧
      ∃ decision', tryDecide (candidate "a" 10 (1 / 10) (99 / 100) :: candidates) constraints
          default = .ok decision' ∧
        (decision'.selected = decision.selected ∨ ∃ best ∈ decision'.selected,
          best.candidate = candidate "a" 10 (1 / 10) (99 / 100)) := by
  let _ := Rounding.exact
  intro candidate constraints candidates
  obtain ⟨decision, decided, -, -, more⟩ := tryDecide_optimal constraints default candidates
    (by decide +kernel) (by decide +kernel)
  obtain ⟨decision', decided', selected⟩ := more (candidate "a" 10 (1 / 10) (99 / 100)) _ (.refl _)
  exact ⟨decision, decided, decision', decided', selected⟩

end Inference

end TrustRouter
