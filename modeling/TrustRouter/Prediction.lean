import TrustRouter.Prelude.Ring
import TrustRouter.WorldState

/-!
# Predictions

`EwmaTracker` keeps an exponentially weighted mean of the samples it is given, and predicts
it once it has seen enough of them.  `PredictionEngine` has a tracker for each key, made when
the first sample for the key comes in, and `PredictionErrorTracker` keeps the latest
differences between what was predicted and what was measured.

Of a prediction, its bounds and the time it was made are left out.  The number of samples is
a natural number, like every counter that only grows by one.
-/

namespace TrustRouter

structure Prediction where
  value : F64
  confidence : F64
  sampleCount : ℕ
  modelVersion : String
  sourceRevision : ℕ

structure EwmaTracker where
  alpha : F64
  mean : F64
  variance : F64
  sampleCount : ℕ
  minSamples : ℕ
  modelVersion : String

namespace EwmaTracker

variable [Rounding]

def new (alpha : F64) (minSamples : ℕ) : EwmaTracker where
  alpha := alpha.clamp (.ofRat (1 / 100)) (.ofRat (99 / 100))
  mean := .finite 0
  variance := .finite 0
  sampleCount := 0
  minSamples := max minSamples 1
  modelVersion := "ewma-v1"

/-- A sample that is counted, and not rejected silently. -/
def Counts (value : F64) : Prop := value.isFinite = true ∧ ¬ value < .finite 0

instance (value : F64) : Decidable (Counts value) := inferInstanceAs (Decidable (_ ∧ _))

def update (tracker : EwmaTracker) (value : F64) : EwmaTracker :=
  if !value.isFinite || value < .finite 0 then tracker
  else if tracker.sampleCount + 1 = 1 then
    { tracker with
      mean := value
      variance := .finite 0
      sampleCount := tracker.sampleCount + 1 }
  else
    let delta := value - tracker.mean
    { tracker with
      mean := tracker.mean + tracker.alpha * delta
      variance :=
        (.finite 1 - tracker.alpha) * (tracker.variance + tracker.alpha * delta * delta)
      sampleCount := tracker.sampleCount + 1 }

def predict (tracker : EwmaTracker) (sourceRevision : ℕ) : Except IntelligenceError Prediction :=
  if tracker.sampleCount < tracker.minSamples then .error .insufficientData
  else
    .ok
      { value := tracker.mean
        confidence :=
          (F64.ofRat tracker.sampleCount / (.ofRat tracker.sampleCount + .finite 10)).clamp
            (.finite 0) (.finite 1)
        sampleCount := tracker.sampleCount
        modelVersion := tracker.modelVersion
        sourceRevision := sourceRevision }

variable (tracker : EwmaTracker)

theorem sampleCount_update (value : F64) :
    (tracker.update value).sampleCount =
      tracker.sampleCount + if Counts value then 1 else 0 := by
  by_cases counts : Counts value
  · obtain ⟨finite, notBelow⟩ := counts
    simp only [update, Counts, finite, notBelow, decide_false, Bool.not_true, Bool.or_false,
      Bool.false_eq_true, if_false, not_false_eq_true, and_self, if_true]
    split_ifs <;> rfl
  · have rejected : (!value.isFinite || decide (value < .finite 0)) = true := by
      simpa [Counts, imp_iff_not_or] using counts
    simp [update, rejected, counts]

/-- Samples in order. -/
def updateAll (tracker : EwmaTracker) (values : List F64) : EwmaTracker :=
  values.foldl update tracker

/-- What is counted shows in the number of samples. -/
theorem sampleCount_updateAll (values : List F64) :
    (tracker.updateAll values).sampleCount =
      tracker.sampleCount + values.countP (Counts ·) := by
  induction values generalizing tracker with
  | nil => rfl
  | cons value values ih =>
      show ((tracker.update value).updateAll values).sampleCount = _
      rw [ih, sampleCount_update, List.countP_cons]
      simp only [decide_eq_true_eq]
      omega

/-- A tracker with enough samples predicts its mean. -/
theorem predict_of_le {tracker : EwmaTracker} (enough : tracker.minSamples ≤ tracker.sampleCount)
    (sourceRevision : ℕ) :
    ∃ prediction, tracker.predict sourceRevision = .ok prediction ∧
      prediction.value = tracker.mean := by
  unfold predict
  rw [if_neg enough.not_gt]
  exact ⟨_, rfl, rfl⟩

end EwmaTracker

/-! ## The engine -/

structure PredictionEngine where
  trackers : HashMap String EwmaTracker
  alpha : F64
  minSamples : ℕ

namespace PredictionEngine

def new (alpha : F64) (minSamples : ℕ) : PredictionEngine := ⟨∅, alpha, minSamples⟩

variable [Rounding]

/-- The tracker for a key; a new one, where there has been no sample. -/
def tracker (engine : PredictionEngine) (key : String) : EwmaTracker :=
  (engine.trackers.lookup key).getD (.new engine.alpha engine.minSamples)

def observe (engine : PredictionEngine) (key : String) (value : F64) : PredictionEngine :=
  { engine with trackers := engine.trackers.insert key ((engine.tracker key).update value) }

def predict (engine : PredictionEngine) (key : String) (sourceRevision : ℕ) :
    Except IntelligenceError Prediction :=
  match engine.trackers.lookup key with
  | none => .error .insufficientData
  | some tracker => tracker.predict sourceRevision

/-- An engine predicts for a key what its tracker does: a new tracker has no samples, and
predicts nothing. -/
theorem predict_eq (engine : PredictionEngine) (key : String) (sourceRevision : ℕ) :
    engine.predict key sourceRevision = (engine.tracker key).predict sourceRevision := by
  unfold predict tracker
  cases engine.trackers.lookup key with
  | none => simp [EwmaTracker.new, EwmaTracker.predict]
  | some tracker => rfl

/-- What a sample does to the trackers. -/
theorem tracker_observe (engine : PredictionEngine) (key key' : String) (value : F64) :
    (engine.observe key value).tracker key' =
      if key' = key then (engine.tracker key').update value else engine.tracker key' := by
  unfold observe tracker
  rw [HashMap.lookup_insert_eq]
  split_ifs with same
  · rw [same, Option.getD_some]
  · rfl

/-- Samples in order. -/
def observeAll (engine : PredictionEngine) (samples : List (String × F64)) : PredictionEngine :=
  samples.foldl (fun engine sample => engine.observe sample.1 sample.2) engine

/-- A tracker is updated with the samples for its key. -/
theorem tracker_observeAll (engine : PredictionEngine) (samples : List (String × F64))
    (key : String) :
    (engine.observeAll samples).tracker key =
      (engine.tracker key).updateAll ((samples.filter (·.1 = key)).map Prod.snd) := by
  induction samples generalizing engine with
  | nil => rfl
  | cons sample samples ih =>
      show ((engine.observe sample.1 sample.2).observeAll samples).tracker key = _
      rw [ih, tracker_observe, List.filter_cons]
      by_cases same : sample.1 = key
      · simp [same, EwmaTracker.updateAll]
      · simp [same, Ne.symm same]

end PredictionEngine

/-! ## Errors of prediction -/

structure PredictionError where
  metric : String
  predicted : F64
  actual : F64
  absoluteError : F64
  relativeError : F64
  confidence : F64
  context : String
  predictionModelVersion : String
  observationRevision : ℕ

def PredictionError.compute [Rounding] (metric : String) (predicted actual confidence : F64)
    (modelVersion : String) (observationRevision : ℕ) : PredictionError :=
  let absoluteError := (predicted - actual).abs
  { metric := metric
    predicted := predicted
    actual := actual
    absoluteError := absoluteError
    relativeError := if .epsilon < actual.abs then absoluteError / actual.abs else .finite 0
    confidence := confidence
    context := ""
    predictionModelVersion := modelVersion
    observationRevision := observationRevision }

structure PredictionErrorTracker where
  errors : List PredictionError
  maxErrors : ℕ

namespace PredictionErrorTracker

def new (maxErrors : ℕ) : PredictionErrorTracker := ⟨[], min (max maxErrors 1) 100000⟩

def record (tracker : PredictionErrorTracker) (error : PredictionError) : PredictionErrorTracker :=
  { tracker with errors := Ring.pushBounded tracker.maxErrors tracker.errors error }

end PredictionErrorTracker

end TrustRouter
