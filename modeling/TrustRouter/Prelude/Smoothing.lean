import Mathlib.Algebra.Order.Field.Basic
import Mathlib.Analysis.Convex.Combination
import Mathlib.Data.List.GetD
import Mathlib.Tactic.LinearCombination

/-!
# Exponential smoothing

An exponentially weighted mean can be kept without its samples.  A new sample gets a share
`a` of the weight, and all that came before share the rest; so the mean moves towards the
sample by that share of the distance (`mean_succ`).

The variance can be kept as well.  It is the one about the mean, which moves with every
sample; but squares about another point are those about the mean and the square of the
distance (`sum_mul_sub_sq`), and that leaves a step which only looks at the distance between
the old mean and the sample (`variance_succ`).

Samples are counted from one, and the first of them stands for all that would have come before
it: its weight is what the others leave (`sum_weight`).
-/

namespace Smoothing

open Finset

section

variable {K : Type*} [CommRing K] (a : K) (x : ℕ → K)

/-- The weight of the `i`-th of `n` samples. -/
def weight (n i : ℕ) : K := if i = 1 then (1 - a) ^ (n - 1) else a * (1 - a) ^ (n - i)

/-- The weighted mean of `n` samples. -/
def mean (n : ℕ) : K := ∑ i ∈ range n, weight a n (i + 1) * x i

/-- The weighted variance of `n` samples. -/
def variance (n : ℕ) : K := ∑ i ∈ range n, weight a n (i + 1) * (x i - mean a x n) ^ 2

/-! ## A step -/

/-- The next sample scales the weights. -/
theorem weight_succ {n i : ℕ} (below : i < n) :
    weight a (n + 1) (i + 1) = (1 - a) * weight a n (i + 1) := by
  unfold weight
  by_cases first : i = 0
  · simp only [first, zero_add, if_true, Nat.add_sub_cancel]
    rw [← pow_succ', Nat.sub_add_cancel (Nat.one_le_of_lt below)]
  · simp only [Nat.add_eq_right, first, if_false]
    have exponent : n + 1 - (i + 1) = n - (i + 1) + 1 := by omega
    rw [exponent, pow_succ']
    ring

/-- The weight of the last sample. -/
theorem weight_last {n : ℕ} (some : 0 < n) : weight a (n + 1) (n + 1) = a := by
  simp [weight, some.ne']

/-- What the next sample does to a weighted sum. -/
theorem sum_weight_succ (f : ℕ → K) {n : ℕ} (some : 0 < n) :
    ∑ i ∈ range (n + 1), weight a (n + 1) (i + 1) * f i =
      (1 - a) * ∑ i ∈ range n, weight a n (i + 1) * f i + a * f n := by
  rw [sum_range_succ, weight_last a some, mul_sum]
  congr 1
  refine sum_congr rfl fun i mem => ?_
  rw [weight_succ a (mem_range.mp mem), mul_assoc]

theorem sum_weight {n : ℕ} (some : 0 < n) : ∑ i ∈ range n, weight a n (i + 1) = 1 := by
  induction n, some using Nat.le_induction with
  | base => simp [weight]
  | succ n some ih =>
      have step := sum_weight_succ a (fun _ => 1) some
      simp only [mul_one, ih] at step
      rw [step]
      ring

/-- **The mean moves towards a sample.** -/
theorem mean_succ {n : ℕ} (some : 0 < n) :
    mean a x (n + 1) = mean a x n + a * (x n - mean a x n) := by
  rw [mean, sum_weight_succ a x some, ← mean]
  ring

/-- Squares about a point, and about the mean. -/
theorem sum_mul_sub_sq {w : ℕ → K} {s : Finset ℕ} (total : ∑ i ∈ s, w i = 1) (c : K) :
    ∑ i ∈ s, w i * (x i - c) ^ 2 =
      ∑ i ∈ s, w i * (x i - ∑ j ∈ s, w j * x j) ^ 2 + (∑ j ∈ s, w j * x j - c) ^ 2 := by
  generalize centre : ∑ j ∈ s, w j * x j = m
  have expand : ∀ i, w i * (x i - c) ^ 2 =
      w i * (x i - m) ^ 2 + 2 * (m - c) * (w i * x i) + (c ^ 2 - m ^ 2) * w i := by
    intro i
    ring
  rw [sum_congr rfl fun i _ => expand i, sum_add_distrib, sum_add_distrib, ← mul_sum, ← mul_sum,
    centre, total]
  ring

/-- **The variance needs the old mean only.** -/
theorem variance_succ {n : ℕ} (some : 0 < n) :
    variance a x (n + 1) =
      (1 - a) * (variance a x n + a * (x n - mean a x n) * (x n - mean a x n)) := by
  have moved := mean_succ a x some
  have about : ∑ i ∈ range n, weight a n (i + 1) * (x i - mean a x (n + 1)) ^ 2 =
      variance a x n + (mean a x n - mean a x (n + 1)) ^ 2 :=
    sum_mul_sub_sq x (sum_weight a some) (mean a x (n + 1))
  rw [variance, sum_weight_succ a (fun i => (x i - mean a x (n + 1)) ^ 2) some, about, moved]
  ring

theorem mean_one : mean a x 1 = x 0 := by simp [mean, weight]

theorem variance_one : variance a x 1 = 0 := by simp [variance, mean_one]

/-! ## Other samples -/

variable {x} {y : ℕ → K} {n : ℕ}

theorem mean_congr (same : ∀ i < n, x i = y i) : mean a x n = mean a y n :=
  sum_congr rfl fun i mem => by rw [same i (mem_range.mp mem)]

theorem variance_congr (same : ∀ i < n, x i = y i) : variance a x n = variance a y n :=
  sum_congr rfl fun i mem => by rw [same i (mem_range.mp mem), mean_congr a same]

/-- A sum over the samples in a list. -/
theorem sum_range_getD {α : Type*} (xs : List α) (default : α) (f : ℕ → α → K) :
    ∑ i ∈ range xs.length, f i (xs.getD i default) = ∑ i : Fin xs.length, f i xs[i] := by
  rw [sum_range]
  refine sum_congr rfl fun i _ => ?_
  rw [List.getD_eq_getElem _ _ i.isLt]
  rfl

end

/-! ## Bounds -/

section

variable {K : Type*} [Field K] [LinearOrder K] [IsStrictOrderedRing K] {a : K} {x : ℕ → K} {n : ℕ}

theorem weight_nonneg (nonneg : 0 ≤ a) (le_one : a ≤ 1) (i : ℕ) : 0 ≤ weight a n i := by
  have rest : 0 ≤ 1 - a := sub_nonneg.mpr le_one
  unfold weight
  split_ifs
  · exact pow_nonneg rest _
  · exact mul_nonneg nonneg (pow_nonneg rest _)

/-- The mean is where the samples are. -/
theorem mean_mem_Icc (nonneg : 0 ≤ a) (le_one : a ≤ 1) (some : 0 < n) {lo hi : K}
    (between : ∀ i < n, x i ∈ Set.Icc lo hi) : mean a x n ∈ Set.Icc lo hi :=
  (convex_Icc lo hi).sum_mem (fun i _ => weight_nonneg nonneg le_one (i + 1)) (sum_weight a some)
    fun i mem => between i (mem_range.mp mem)

theorem variance_nonneg (nonneg : 0 ≤ a) (le_one : a ≤ 1) : 0 ≤ variance a x n :=
  sum_nonneg fun i _ => mul_nonneg (weight_nonneg nonneg le_one (i + 1)) (sq_nonneg _)

end

end Smoothing
