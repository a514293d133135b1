import Mathlib.Analysis.Real.Sqrt
import Mathlib.Data.EReal.Basic
import TrustRouter.Prediction
import TrustRouter.Prelude.Smoothing

/-!
# Forecasts in real numbers

`EwmaTracker` once more, with real numbers for its `f64`s: nothing is rounded and nothing
overflows.  There are square roots then, and so a prediction has its bounds.  What the source
passes as an `f64` is read as an extended real number, and a NaN as none.

The tracker keeps the exponentially weighted mean and variance of the samples it has counted
(`Summarises`), and values that are no samples leave no trace (`ewma_weighs_samples`).  It is the
tracker of `TrustRouter.Prediction` when that does not round (`Reads`).
-/

namespace TrustRouter

namespace Exact

/-- The time a prediction was made is left out. -/
structure Prediction where
  value : ℝ
  lowerBound : ℝ
  upperBound : ℝ
  confidence : ℝ
  sampleCount : ℕ
  modelVersion : String
  sourceRevision : ℕ

structure EwmaTracker where
  alpha : ℝ
  mean : ℝ
  variance : ℝ
  sampleCount : ℕ
  minSamples : ℕ
  modelVersion : String

namespace EwmaTracker

noncomputable def new (alpha : EReal) (minSamples : ℕ) : EwmaTracker where
  alpha := (max ((1 / 100 : ℝ) : EReal) (min alpha (99 / 100 : ℝ))).toReal
  mean := 0
  variance := 0
  sampleCount := 0
  minSamples := max minSamples 1
  modelVersion := "ewma-v1"

noncomputable def update (tracker : EwmaTracker) (value : Option EReal) : EwmaTracker :=
  match value with
  | none => tracker
  | some value =>
      if value = ⊤ ∨ value = ⊥ ∨ value < 0 then tracker
      else if tracker.sampleCount + 1 = 1 then
        { tracker with
          mean := value.toReal
          variance := 0
          sampleCount := tracker.sampleCount + 1 }
      else
        let delta := value.toReal - tracker.mean
        { tracker with
          mean := tracker.mean + tracker.alpha * delta
          variance := (1 - tracker.alpha) * (tracker.variance + tracker.alpha * delta * delta)
          sampleCount := tracker.sampleCount + 1 }

noncomputable def predict (tracker : EwmaTracker) (sourceRevision : ℕ) :
    Except IntelligenceError Prediction :=
  if tracker.sampleCount < tracker.minSamples then .error .insufficientData
  else
    let stddev := √tracker.variance
    .ok
      { value := tracker.mean
        lowerBound := max (tracker.mean - 2 * stddev) 0
        upperBound := tracker.mean + 2 * stddev
        confidence := max 0 (min (tracker.sampleCount / (tracker.sampleCount + 10)) 1)
        sampleCount := tracker.sampleCount
        modelVersion := tracker.modelVersion
        sourceRevision := sourceRevision }

/-- Values in order. -/
noncomputable def updateAll (tracker : EwmaTracker) (values : List (Option EReal)) : EwmaTracker :=
  values.foldl update tracker

/-! ## The samples -/

/-- The sample a value is, if it is finite and not negative. -/
noncomputable def sample (value : Option EReal) : Option ℝ :=
  (value.filter fun value => value ≠ ⊤ ∧ value ≠ ⊥ ∧ 0 ≤ value).map EReal.toReal

/-- The samples among some values. -/
noncomputable def samples (values : List (Option EReal)) : List ℝ := values.filterMap sample

theorem samples_cons (value : Option EReal) (values : List (Option EReal)) :
    samples (value :: values) = (sample value).toList ++ samples values := by
  rw [samples, List.filterMap_cons]
  cases sample value <;> rfl

theorem sample_coe {x : ℝ} (nonneg : 0 ≤ x) : sample (some (x : EReal)) = some x := by
  simp [sample, Option.filter_some, nonneg]

theorem sample_eq_some_iff {value : Option EReal} {x : ℝ} :
    sample value = some x ↔ value = some (x : EReal) ∧ 0 ≤ x := by
  constructor
  · intro isSample
    obtain ⟨value', kept, rfl⟩ := Option.map_eq_some_iff.mp isSample
    obtain ⟨rfl, counts⟩ := Option.filter_eq_some_iff.mp kept
    obtain ⟨notTop, notBot, nonneg⟩ := of_decide_eq_true counts
    rw [EReal.coe_toReal notTop notBot]
    exact ⟨rfl, EReal.toReal_nonneg nonneg⟩
  · rintro ⟨rfl, nonneg⟩
    exact sample_coe nonneg

theorem nonneg_of_mem_samples {values : List (Option EReal)} {x : ℝ} (mem : x ∈ samples values) :
    0 ≤ x := by
  obtain ⟨value, -, isSample⟩ := List.mem_filterMap.mp mem
  exact (sample_eq_some_iff.mp isSample).2

variable {tracker : EwmaTracker} {value : Option EReal} {x : ℝ}

/-- A value that is no sample is rejected silently. -/
theorem update_of_sample_none (rejected : sample value = none) :
    tracker.update value = tracker := by
  cases value with
  | none => rfl
  | some value =>
      refine if_pos ?_
      by_contra counts
      simp only [not_or, not_lt] at counts
      obtain ⟨notTop, notBot, nonneg⟩ := counts
      simp [sample, Option.filter_some, notTop, notBot, nonneg] at rejected

/-- The first sample is the mean. -/
theorem update_first (nonneg : 0 ≤ x) (first : tracker.sampleCount = 0) :
    tracker.update (some (x : EReal)) =
      { tracker with mean := x, variance := 0, sampleCount := 1 } := by
  simp [update, first, nonneg]

/-- Later ones move it. -/
theorem update_next (nonneg : 0 ≤ x) (next : 0 < tracker.sampleCount) :
    tracker.update (some (x : EReal)) =
      { tracker with
        mean := tracker.mean + tracker.alpha * (x - tracker.mean)
        variance := (1 - tracker.alpha) *
          (tracker.variance + tracker.alpha * (x - tracker.mean) * (x - tracker.mean))
        sampleCount := tracker.sampleCount + 1 } := by
  simp [update, next.ne', nonneg]

@[simp] theorem alpha_update : (tracker.update value).alpha = tracker.alpha := by
  unfold update
  split
  · rfl
  · split_ifs <;> rfl

@[simp] theorem minSamples_update : (tracker.update value).minSamples = tracker.minSamples := by
  unfold update
  split
  · rfl
  · split_ifs <;> rfl

/-! ## What is kept -/

/-- What a tracker keeps of its samples. -/
structure Summarises (tracker : EwmaTracker) (xs : List ℝ) : Prop where
  sampleCount : tracker.sampleCount = xs.length
  mean : tracker.mean = Smoothing.mean tracker.alpha (xs.getD · 0) xs.length
  variance : tracker.variance = Smoothing.variance tracker.alpha (xs.getD · 0) xs.length

theorem summarises_new (alpha : EReal) (minSamples : ℕ) : (new alpha minSamples).Summarises [] where
  sampleCount := rfl
  mean := by simp [Smoothing.mean, new]
  variance := by simp [Smoothing.variance, new]

/-- A step. -/
theorem Summarises.update {xs : List ℝ} (summarises : tracker.Summarises xs)
    (value : Option EReal) : (tracker.update value).Summarises (xs ++ (sample value).toList) := by
  cases isSample : sample value with
  | none =>
      rw [update_of_sample_none isSample, Option.toList_none, List.append_nil]
      exact summarises
  | some x =>
      obtain ⟨rfl, nonneg⟩ := sample_eq_some_iff.mp isSample
      have before : ∀ i < xs.length, (xs ++ [x]).getD i 0 = xs.getD i 0 := fun i below =>
        List.getD_append xs [x] 0 i below
      have last : (xs ++ [x]).getD xs.length 0 = x := by simp
      have count := summarises.sampleCount
      have length : (xs ++ [x]).length = xs.length + 1 := by simp
      rw [Option.toList_some]
      rcases Nat.eq_zero_or_pos tracker.sampleCount with first | next
      · obtain rfl := List.length_eq_zero_iff.mp (count.symm.trans first)
        rw [update_first nonneg first]
        exact ⟨rfl, (Smoothing.mean_one _ ([x].getD · 0)).symm,
          (Smoothing.variance_one _ ([x].getD · 0)).symm⟩
      · have some : 0 < xs.length := count ▸ next
        rw [update_next nonneg next]
        refine ⟨?_, ?_, ?_⟩
        · simp [count]
        · rw [length, Smoothing.mean_succ _ _ some, Smoothing.mean_congr _ before, last,
            ← summarises.mean]
        · rw [length, Smoothing.variance_succ _ _ some, Smoothing.mean_congr _ before,
            Smoothing.variance_congr _ before, last, ← summarises.mean, ← summarises.variance]

/-- A run. -/
theorem Summarises.updateAll {xs : List ℝ} (summarises : tracker.Summarises xs)
    (values : List (Option EReal)) :
    (tracker.updateAll values).Summarises (xs ++ samples values) := by
  induction values generalizing tracker xs with
  | nil => simpa [samples, EwmaTracker.updateAll] using summarises
  | cons value values ih =>
      show ((tracker.update value).updateAll values).Summarises _
      rw [samples_cons, ← List.append_assoc]
      exact ih (summarises.update value)

@[simp] theorem alpha_updateAll (values : List (Option EReal)) :
    (tracker.updateAll values).alpha = tracker.alpha := by
  induction values generalizing tracker with
  | nil => rfl
  | cons value values ih => exact ih.trans alpha_update

@[simp] theorem minSamples_updateAll (values : List (Option EReal)) :
    (tracker.updateAll values).minSamples = tracker.minSamples := by
  induction values generalizing tracker with
  | nil => rfl
  | cons value values ih => exact ih.trans minSamples_update

/-- Clamping leaves a number, whatever is clamped. -/
theorem coe_alpha_new (alpha : EReal) (minSamples : ℕ) :
    ((new alpha minSamples).alpha : EReal) =
      max ((1 / 100 : ℝ) : EReal) (min alpha (99 / 100 : ℝ)) := by
  refine EReal.coe_toReal (ne_top_of_le_ne_top (EReal.coe_ne_top (99 / 100)) ?_)
    (ne_bot_of_le_ne_bot (EReal.coe_ne_bot (1 / 100)) (le_max_left _ _))
  refine max_le (EReal.coe_le_coe_iff.mpr ?_) (min_le_right _ _)
  norm_num

theorem alpha_new_mem_Icc (alpha : EReal) (minSamples : ℕ) :
    (new alpha minSamples).alpha ∈ Set.Icc (1 / 100 : ℝ) (99 / 100) := by
  have order : ((1 / 100 : ℝ) : EReal) ≤ (99 / 100 : ℝ) :=
    EReal.coe_le_coe_iff.mpr (by norm_num)
  constructor
  · rw [← EReal.coe_le_coe_iff, coe_alpha_new]
    exact le_max_left _ _
  · rw [← EReal.coe_le_coe_iff, coe_alpha_new]
    exact max_le order (min_le_right _ _)

/-! ## What follows -/

section

variable {xs : List ℝ}

theorem Summarises.mean_eq_sum (summarises : tracker.Summarises xs) :
    tracker.mean =
      ∑ i : Fin xs.length, Smoothing.weight tracker.alpha xs.length (i + 1) * xs[i] := by
  rw [summarises.mean]
  exact Smoothing.sum_range_getD xs 0 fun i x =>
    Smoothing.weight tracker.alpha xs.length (i + 1) * x

theorem Summarises.variance_eq_sum (summarises : tracker.Summarises xs) :
    tracker.variance =
      ∑ i : Fin xs.length,
        Smoothing.weight tracker.alpha xs.length (i + 1) * (xs[i] - tracker.mean) ^ 2 := by
  rw [summarises.variance, Smoothing.variance, ← summarises.mean]
  exact Smoothing.sum_range_getD xs 0 fun i x =>
    Smoothing.weight tracker.alpha xs.length (i + 1) * (x - tracker.mean) ^ 2

variable (summarises : tracker.Summarises xs) (share : tracker.alpha ∈ Set.Icc (0 : ℝ) 1)

include summarises share

theorem Summarises.variance_nonneg : 0 ≤ tracker.variance :=
  summarises.variance ▸ Smoothing.variance_nonneg share.1 share.2

theorem Summarises.mean_mem_Icc (some : xs ≠ []) {lo hi : ℝ}
    (between : ∀ x ∈ xs, x ∈ Set.Icc lo hi) : tracker.mean ∈ Set.Icc lo hi := by
  rw [summarises.mean]
  refine Smoothing.mean_mem_Icc share.1 share.2 (List.length_pos_iff.mpr some) fun i below => ?_
  rw [List.getD_eq_getElem _ _ below]
  exact between _ (List.getElem_mem below)

/-- The mean is between the least and the greatest of the samples. -/
theorem Summarises.exists_least_greatest (some : xs ≠ []) :
    ∃ least ∈ xs, ∃ greatest ∈ xs, (∀ x ∈ xs, x ∈ Set.Icc least greatest) ∧
      tracker.mean ∈ Set.Icc least greatest := by
  have nonempty : xs.toFinset.Nonempty := List.toFinset_nonempty_iff xs |>.mpr some
  obtain ⟨least, memLeast, isLeast⟩ := xs.toFinset.exists_min_image id nonempty
  obtain ⟨greatest, memGreatest, isGreatest⟩ := xs.toFinset.exists_max_image id nonempty
  have between : ∀ x ∈ xs, x ∈ Set.Icc least greatest := fun x mem =>
    ⟨isLeast x (List.mem_toFinset.mpr mem), isGreatest x (List.mem_toFinset.mpr mem)⟩
  exact ⟨least, List.mem_toFinset.mp memLeast, greatest, List.mem_toFinset.mp memGreatest, between,
    summarises.mean_mem_Icc share some between⟩

theorem Summarises.mean_nonneg (nonneg : ∀ x ∈ xs, 0 ≤ x) : 0 ≤ tracker.mean := by
  rw [summarises.mean_eq_sum]
  exact Finset.sum_nonneg fun i _ =>
    mul_nonneg (Smoothing.weight_nonneg share.1 share.2 _) (nonneg _ (List.getElem_mem i.isLt))

end

/-- The bounds of a prediction are about its value, and are not negative. -/
theorem predict_of_le (enough : tracker.minSamples ≤ tracker.sampleCount)
    (nonneg : 0 ≤ tracker.mean) (sourceRevision : ℕ) :
    ∃ prediction, tracker.predict sourceRevision = .ok prediction ∧
      prediction.value = tracker.mean ∧ 0 ≤ prediction.lowerBound ∧
      prediction.lowerBound ≤ prediction.value ∧ prediction.value ≤ prediction.upperBound := by
  have width : 0 ≤ 2 * √tracker.variance := mul_nonneg zero_le_two (Real.sqrt_nonneg _)
  unfold predict
  rw [if_neg enough.not_gt]
  exact ⟨_, rfl, rfl, le_max_right _ _, max_le (sub_le_self _ width) nonneg,
    le_add_of_nonneg_right width⟩

end EwmaTracker

/-- **The tracker keeps the weighted mean and variance of its samples.**  So its mean is between
the least and the greatest of them, and what it predicts is between its bounds. -/
theorem ewma_weighs_samples (alpha : EReal) (minSamples : ℕ) (values : List (Option EReal)) :
    let a := (EwmaTracker.new alpha minSamples).alpha
    let tracker := (EwmaTracker.new alpha minSamples).updateAll values
    let xs := EwmaTracker.samples values
    tracker.mean = ∑ i : Fin xs.length, Smoothing.weight a xs.length (i + 1) * xs[i] ∧
      tracker.variance =
        ∑ i : Fin xs.length, Smoothing.weight a xs.length (i + 1) * (xs[i] - tracker.mean) ^ 2 ∧
      (xs ≠ [] → ∃ least ∈ xs, ∃ greatest ∈ xs, (∀ x ∈ xs, x ∈ Set.Icc least greatest) ∧
        tracker.mean ∈ Set.Icc least greatest) ∧
      0 ≤ tracker.variance ∧
      ∀ sourceRevision,
        if xs.length < max minSamples 1 then
          tracker.predict sourceRevision = .error .insufficientData
        else
          ∃ prediction, tracker.predict sourceRevision = .ok prediction ∧
            prediction.value = tracker.mean ∧ 0 ≤ prediction.lowerBound ∧
            prediction.lowerBound ≤ prediction.value ∧
            prediction.value ≤ prediction.upperBound := by
  intro a tracker xs
  have summarises : tracker.Summarises xs :=
    (EwmaTracker.summarises_new alpha minSamples).updateAll values
  have isAlpha : tracker.alpha = a := EwmaTracker.alpha_updateAll values
  have share : tracker.alpha ∈ Set.Icc (0 : ℝ) 1 := by
    obtain ⟨least, greatest⟩ := EwmaTracker.alpha_new_mem_Icc alpha minSamples
    rw [isAlpha]
    exact ⟨by linarith, by linarith⟩
  have nonneg : 0 ≤ tracker.mean :=
    summarises.mean_nonneg share fun x mem => EwmaTracker.nonneg_of_mem_samples mem
  have minimum : tracker.minSamples = max minSamples 1 := EwmaTracker.minSamples_updateAll values
  refine ⟨isAlpha ▸ summarises.mean_eq_sum, isAlpha ▸ summarises.variance_eq_sum,
    summarises.exists_least_greatest share, summarises.variance_nonneg share, ?_⟩
  intro sourceRevision
  rw [← summarises.sampleCount, ← minimum]
  split_ifs with few
  · exact if_pos few
  · exact EwmaTracker.predict_of_le (not_lt.mp few) nonneg sourceRevision

end Exact

/-! ## The tracker without rounding -/

/-- What an `f64` is read as. -/
noncomputable def F64.reading : F64 → Option EReal
  | nan => none
  | negInf => some ⊥
  | finite value => some ((value : ℝ) : EReal)
  | posInf => some ⊤

theorem F64.reading_eq_coe_iff {x : F64} {r : ℝ} :
    x.reading = some (r : EReal) ↔ ∃ q : ℚ, x = finite q ∧ (q : ℝ) = r := by
  cases x <;> simp [reading, EReal.coe_eq_coe_iff, eq_comm]

theorem F64.reading_clamp {lo hi : ℚ} (order : lo ≤ hi) {x : F64} {r : EReal}
    (number : x.reading = some r) :
    (x.clamp (finite lo) (finite hi)).reading =
      some (max ((lo : ℝ) : EReal) (min r (hi : ℝ))) := by
  have ordered : ((lo : ℝ) : EReal) ≤ (hi : ℝ) := EReal.coe_le_coe_iff.mpr (Rat.cast_le.mpr order)
  cases x with
  | nan => cases number
  | negInf =>
      obtain rfl := Option.some.inj number
      rw [min_eq_left bot_le, max_eq_left bot_le]
      rfl
  | posInf =>
      obtain rfl := Option.some.inj number
      rw [min_eq_right le_top, max_eq_right ordered]
      rfl
  | finite q =>
      obtain rfl := Option.some.inj number
      unfold clamp
      split_ifs with below above
      · have le : ((q : ℝ) : EReal) ≤ (lo : ℝ) :=
          EReal.coe_le_coe_iff.mpr (Rat.cast_le.mpr (finite_lt_finite.mp below).le)
        rw [max_eq_left ((min_le_left _ _).trans le)]
        rfl
      · have le : ((hi : ℝ) : EReal) ≤ (q : ℝ) :=
          EReal.coe_le_coe_iff.mpr (Rat.cast_le.mpr (finite_lt_finite.mp above).le)
        rw [min_eq_right le, max_eq_right ordered]
        rfl
      · simp only [finite_lt_finite, not_lt] at below above
        rw [min_eq_left (EReal.coe_le_coe_iff.mpr (Rat.cast_le.mpr above)),
          max_eq_right (EReal.coe_le_coe_iff.mpr (Rat.cast_le.mpr below))]
        rfl

/-- A tracker is read as another. -/
structure Reads (tracker : EwmaTracker) (real : Exact.EwmaTracker) : Prop where
  alpha : tracker.alpha.reading = some (real.alpha : EReal)
  mean : tracker.mean.reading = some (real.mean : EReal)
  variance : tracker.variance.reading = some (real.variance : EReal)
  sampleCount : tracker.sampleCount = real.sampleCount
  minSamples : tracker.minSamples = real.minSamples
  modelVersion : tracker.modelVersion = real.modelVersion

theorem reads_new {alpha : F64} {number : EReal} (isNumber : alpha.reading = some number)
    (minSamples : ℕ) :
    letI := Rounding.exact
    Reads (EwmaTracker.new alpha minSamples) (Exact.EwmaTracker.new number minSamples) := by
  let _ := Rounding.exact
  have order : (1 / 100 : ℚ) ≤ 99 / 100 := by norm_num
  have clamped := F64.reading_clamp order isNumber
  push_cast at clamped
  refine ⟨?_, ?_, ?_, rfl, rfl, rfl⟩
  · rw [Exact.EwmaTracker.coe_alpha_new]
    exact clamped
  · simp [EwmaTracker.new, Exact.EwmaTracker.new, F64.reading]
  · simp [EwmaTracker.new, Exact.EwmaTracker.new, F64.reading]

theorem Reads.update {tracker : EwmaTracker} {real : Exact.EwmaTracker}
    (reads : Reads tracker real) (value : F64) :
    letI := Rounding.exact
    Reads (tracker.update value) (real.update value.reading) := by
  let _ := Rounding.exact
  cases value with
  | nan | negInf | posInf =>
      simpa [EwmaTracker.update, Exact.EwmaTracker.update, F64.reading, F64.isFinite] using reads
  | finite x =>
      by_cases negative : x < 0
      · simpa [EwmaTracker.update, Exact.EwmaTracker.update, F64.reading, negative] using reads
      · have nonneg : (0 : ℝ) ≤ x := Rat.cast_nonneg.mpr (not_lt.mp negative)
        show Reads _ (real.update (some ((x : ℝ) : EReal)))
        have unrounded : ∀ q, Rounding.round q = .finite q := fun _ => rfl
        rcases Nat.eq_zero_or_pos real.sampleCount with first | next
        · rw [Exact.EwmaTracker.update_first nonneg first]
          have counted : tracker.update (.finite x) =
              { tracker with mean := .finite x, variance := .finite 0, sampleCount := 1 } := by
            simp [EwmaTracker.update, negative, reads.sampleCount, first]
          rw [counted]
          exact ⟨reads.alpha, rfl, by simp [F64.reading], rfl, reads.minSamples, reads.modelVersion⟩
        · rw [Exact.EwmaTracker.update_next nonneg next]
          obtain ⟨a, isAlpha, alpha⟩ := F64.reading_eq_coe_iff.mp reads.alpha
          obtain ⟨m, isMean, mean⟩ := F64.reading_eq_coe_iff.mp reads.mean
          obtain ⟨v, isVariance, variance⟩ := F64.reading_eq_coe_iff.mp reads.variance
          have counted : tracker.update (.finite x) =
              { tracker with
                mean := .finite (m + a * (x - m))
                variance := .finite ((1 - a) * (v + a * (x - m) * (x - m)))
                sampleCount := tracker.sampleCount + 1 } := by
            simp [EwmaTracker.update, negative, reads.sampleCount, next.ne', isAlpha, isMean,
              isVariance, F64.finite_sub_finite, F64.finite_mul_finite, unrounded]
          rw [counted, ← alpha, ← mean, ← variance]
          refine ⟨?_, ?_, ?_, congrArg (· + 1) reads.sampleCount, reads.minSamples,
            reads.modelVersion⟩
          · simp [F64.reading, isAlpha]
          · simp [F64.reading]
          · simp [F64.reading]

/-- **Without rounding, the tracker is the one in real numbers.** -/
theorem reads_updateAll {tracker : EwmaTracker} {real : Exact.EwmaTracker}
    (reads : Reads tracker real) (values : List F64) :
    letI := Rounding.exact
    Reads (tracker.updateAll values) (real.updateAll (values.map F64.reading)) := by
  induction values generalizing tracker real with
  | nil => exact reads
  | cons value values ih => exact ih (reads.update value)

/-- A prediction is read as another. -/
structure Prediction.Reads (prediction : Prediction) (real : Exact.Prediction) : Prop where
  value : prediction.value.reading = some (real.value : EReal)
  confidence : prediction.confidence.reading = some (real.confidence : EReal)
  sampleCount : prediction.sampleCount = real.sampleCount
  modelVersion : prediction.modelVersion = real.modelVersion
  sourceRevision : prediction.sourceRevision = real.sourceRevision

theorem Reads.predict {tracker : EwmaTracker} {real : Exact.EwmaTracker}
    (reads : Reads tracker real) (sourceRevision : ℕ) :
    letI := Rounding.exact
    match tracker.predict sourceRevision, real.predict sourceRevision with
    | .ok prediction, .ok forecast => prediction.Reads forecast
    | .error error, .error error' => error = error'
    | _, _ => False := by
  let _ := Rounding.exact
  unfold EwmaTracker.predict Exact.EwmaTracker.predict
  rw [reads.sampleCount, reads.minSamples]
  split_ifs with few
  · rfl
  · refine ⟨reads.mean, ?_, rfl, reads.modelVersion, rfl⟩
    generalize real.sampleCount = n
    have notZero : (n : ℚ) + 10 ≠ 0 := by positivity
    have quotient : F64.ofRat n / (.ofRat n + .finite 10) = .finite (n / (n + 10)) :=
      F64.finite_div_finite _ notZero
    have clamped := F64.reading_clamp zero_le_one
      (show F64.reading (.finite (n / (n + 10))) = some _ from rfl)
    have monotone := EReal.coe_strictMono.monotone
    rw [quotient, clamped, monotone.map_max, monotone.map_min]
    push_cast
    rfl

end TrustRouter
