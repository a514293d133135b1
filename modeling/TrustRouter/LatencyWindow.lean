import TrustRouter.Breaker

/-!
# The rolling 99th percentile

A tracker keeps its latest 128 latencies, and with each new one sorts them and reads off the
one at a rank: 0.99 of the last index, a product of two `f64` that is rounded to the nearest
integer.  For every number of samples the rank is that of the last sample or of the one before
(`rank_bounds`), so at most one sample is above the one that is read off.
-/

namespace TrustRouter

/-! ## Sorted samples -/

/-- What is above an element of a sorted list comes after it. -/
theorem countP_lt_le_of_sorted {samples : List ℕ} (sorted : samples.Pairwise (· ≤ ·))
    {index sample : ℕ} (found : samples[index]? = some sample) :
    samples.countP (sample < ·) ≤ samples.length - (index + 1) := by
  obtain ⟨inside, rfl⟩ := List.getElem?_eq_some_iff.mp found
  have before : (samples.take (index + 1)).countP (samples[index] < ·) = 0 := by
    rw [List.countP_eq_zero]
    intro sample mem
    obtain ⟨place, isBefore, rfl⟩ := List.mem_take_iff_getElem.mp mem
    have le : samples[place] ≤ samples[index] := by
      rcases Nat.lt_or_eq_of_le (show place ≤ index by omega) with lt | rfl
      · exact List.pairwise_iff_getElem.mp sorted place index (by omega) inside lt
      · exact le_rfl
    simpa using le
  calc samples.countP (samples[index] < ·)
      = (samples.take (index + 1)).countP (samples[index] < ·) +
          (samples.drop (index + 1)).countP (samples[index] < ·) := by
        rw [← List.countP_append, List.take_append_drop]
    _ ≤ samples.length - (index + 1) := by
        rw [before, Nat.zero_add, ← List.length_drop]
        exact List.countP_le_length

theorem insertionSort_eq_of_perm {samples samples' : List ℕ} (perm : samples.Perm samples') :
    samples.insertionSort (· ≤ ·) = samples'.insertionSort (· ≤ ·) :=
  (((List.perm_insertionSort _ samples).trans perm).trans
    (List.perm_insertionSort _ samples').symm).eq_of_pairwise (fun _ _ _ _ => le_antisymm)
    (List.pairwise_insertionSort _ _) (List.pairwise_insertionSort _ _)

/-- The latency that a call records. -/
def HealthStep.latency : HealthStep → Option ℕ
  | .recordResult _ latencyMs _ => some latencyMs
  | .transitionToHalfOpenIfReady _ _ | .forceHalfOpen => none

namespace HealthTracker

section

variable [Rounding]

/-- The rank that is read off of so many samples. -/
def rank (count : ℕ) : ℕ := (F64.ofRat (count - 1 : ℕ) * F64.ofRat (99 / 100)).roundAway.toUsize

/-- What is read off of some samples. -/
def sampleAtRank (samples : List ℕ) : Option ℕ :=
  let sorted := samples.insertionSort (· ≤ ·)
  sorted[rank sorted.length]?

theorem sampleAtRank_eq_of_perm {samples samples' : List ℕ} (perm : samples.Perm samples') :
    sampleAtRank samples = sampleAtRank samples' := by
  unfold sampleAtRank
  rw [insertionSort_eq_of_perm perm]

theorem mem_of_sampleAtRank {samples : List ℕ} {sample : ℕ}
    (found : sampleAtRank samples = some sample) : sample ∈ samples :=
  (List.mem_insertionSort _).mp (List.mem_of_getElem? found)

end

/-- **The rank is the last or the one before**, for as many samples as are ever kept. -/
theorem rank_bounds :
    letI := Rounding.nearestEven
    ∀ count ≤ latencySampleLimit, 0 < count → count ≤ rank count + 2 ∧ rank count < count := by
  decide +kernel

theorem exists_sampleAtRank {samples : List ℕ} (some : samples ≠ [])
    (bounded : samples.length ≤ latencySampleLimit) :
    letI := Rounding.nearestEven
    ∃ sample, sampleAtRank samples = .some sample := by
  let _ := Rounding.nearestEven
  have count := List.length_insertionSort (· ≤ ·) samples
  have inside := (rank_bounds _ (count.trans_le bounded)
    (count.symm ▸ List.length_pos_of_ne_nil some)).2
  exact ⟨_, List.getElem?_eq_getElem inside⟩

theorem countP_lt_sampleAtRank_le {samples : List ℕ} {sample : ℕ}
    (bounded : samples.length ≤ latencySampleLimit) :
    letI := Rounding.nearestEven
    sampleAtRank samples = some sample → samples.countP (sample < ·) ≤ 1 := by
  let _ := Rounding.nearestEven
  intro found
  have sorted := List.perm_insertionSort (· ≤ ·) samples
  have pos : 0 < (samples.insertionSort (· ≤ ·)).length :=
    List.length_pos_of_mem (List.mem_of_getElem? found)
  have close := (rank_bounds _ (sorted.length_eq.trans_le bounded) pos).1
  have above := countP_lt_le_of_sorted (List.pairwise_insertionSort _ samples) found
  rw [← sorted.countP_eq]
  omega

/-! ## The window -/

section

variable [Rounding]

omit [Rounding] in
/-- What a tracker keeps of the latencies: its window and what is read off. -/
def readings (tracker : HealthTracker) : List ℕ × ℕ :=
  (tracker.latencySamples, tracker.p99LatencyMs)

/-- What a latency makes of the readings. -/
def recordReading (readings : List ℕ × ℕ) (latencyMs : ℕ) : List ℕ × ℕ :=
  let samples := Ring.push latencySampleLimit readings.1 latencyMs
  (samples, (sampleAtRank samples).getD latencyMs)

/-- Nothing but a new latency changes the readings. -/
theorem readings_after (tracker : HealthTracker) (call : Call) :
    (tracker.after call).readings =
      (call.2.latency.map (recordReading tracker.readings)).getD tracker.readings := by
  obtain ⟨policy, input⟩ := call
  cases input with
  | recordResult success latencyMs now =>
      cases success with
      | true =>
          rcases (tracker.recordLatencySample latencyMs).onSuccess_cases policy with
            eq | ⟨eq, -⟩ <;> rw [after, step_success, eq] <;> rfl
      | false =>
          rcases (tracker.recordLatencySample latencyMs).onFailure_cases policy now with
            ⟨-, eq⟩ | ⟨-, eq⟩ <;> rw [after, step_failure, eq] <;> rfl
  | transitionToHalfOpenIfReady cooldown now =>
      rcases tracker.transitionToHalfOpenIfReady_cases cooldown now with eq | ⟨-, eq⟩ <;>
        rw [after, step, eq] <;> rfl
  | forceHalfOpen =>
      rcases tracker.forceHalfOpen_cases with ⟨-, eq⟩ | ⟨-, eq⟩ <;>
        rw [after, step, eq] <;> rfl

omit [Rounding] in
/-- The latencies that were recorded, in order. -/
def latencies (calls : List Call) : List ℕ := calls.filterMap (·.2.latency)

theorem readings_run (calls : List Call) :
    (run after default calls).readings = run recordReading ([], 0) (latencies calls) :=
  view_run readings readings_after calls

/-- The window holds the latest latencies. -/
theorem fst_run_recordReading (history : List ℕ) :
    (run recordReading ([], 0) history).1 = Ring.latest latencySampleLimit history := by
  have pos : 0 < latencySampleLimit := by decide
  induction history using List.reverseRecOn with
  | nil => rfl
  | append_singleton history latencyMs ih =>
      rw [run_concat, ← Ring.push_latest pos, ← ih]
      rfl

end

/-- What is kept besides the window is what the window says. -/
theorem sampleAtRank_run {history : List ℕ} (recorded : history ≠ []) :
    letI := Rounding.nearestEven
    sampleAtRank (run recordReading ([], 0) history).1 =
      some (run recordReading ([], 0) history).2 := by
  let _ := Rounding.nearestEven
  obtain ⟨before, latencyMs, rfl⟩ := (List.eq_nil_or_concat' history).resolve_left recorded
  have bounded : (run recordReading ([], 0) (before ++ [latencyMs])).1.length ≤
      latencySampleLimit := by
    rw [fst_run_recordReading, Ring.length_latest]
    exact Nat.min_le_right _ _
  rw [run_concat] at bounded ⊢
  let samples := Ring.push latencySampleLimit (run recordReading ([], 0) before).1 latencyMs
  have nonempty : samples ≠ [] := List.append_ne_nil_of_right_ne_nil _ (List.cons_ne_nil _ _)
  obtain ⟨sample, found⟩ := exists_sampleAtRank nonempty bounded
  have read : recordReading (run recordReading ([], 0) before) latencyMs = (samples, sample) :=
    congrArg (Prod.mk samples) (congrArg (Option.getD · latencyMs) found)
  rw [read, found]

/-! ## The percentile -/

/-- What a tracker keeps of these latencies: the last of them, and of these one that at most one
is above. -/
structure KeepsPercentile (tracker : HealthTracker) (history : List ℕ) : Prop where
  window : tracker.latencySamples = history.rtake (min history.length latencySampleLimit)
  mem : tracker.p99LatencyMs ∈ tracker.latencySamples
  above : tracker.latencySamples.countP (tracker.p99LatencyMs < ·) ≤ 1

/-- The readings of a tracker that has recorded a latency. -/
theorem readings_spec {calls : List Call} (recorded : latencies calls ≠ []) :
    letI := Rounding.nearestEven
    let tracker := run after default calls
    tracker.latencySamples = Ring.latest latencySampleLimit (latencies calls) ∧
      sampleAtRank tracker.latencySamples = some tracker.p99LatencyMs := by
  let _ := Rounding.nearestEven
  intro tracker
  have readings := readings_run calls
  have samples : tracker.latencySamples = (run recordReading ([], 0) (latencies calls)).1 :=
    congrArg Prod.fst readings
  have p99 : tracker.p99LatencyMs = (run recordReading ([], 0) (latencies calls)).2 :=
    congrArg Prod.snd readings
  rw [samples, p99]
  exact ⟨fst_run_recordReading _, sampleAtRank_run recorded⟩

/-- **The rolling 99th percentile.**  After any calls that have recorded a latency, the window
holds the last of the latencies in their order, the percentile is one of them with at most one
above, and every tracker with the same latencies in its window, in whatever order, has the same
percentile. -/
theorem rolling_percentile {calls : List Call} (recorded : latencies calls ≠ []) :
    letI := Rounding.nearestEven
    KeepsPercentile (run after default calls) (latencies calls) ∧
      ∀ calls', (run after default calls').latencySamples.Perm
          (run after default calls).latencySamples →
        (run after default calls').p99LatencyMs = (run after default calls).p99LatencyMs := by
  let _ := Rounding.nearestEven
  obtain ⟨window, found⟩ := readings_spec recorded
  have bounded : (run after default calls).latencySamples.length ≤ latencySampleLimit := by
    rw [window, Ring.length_latest]
    exact Nat.min_le_right _ _
  refine ⟨⟨?_, mem_of_sampleAtRank found, countP_lt_sampleAtRank_le bounded found⟩, ?_⟩
  · rw [window, Ring.latest_eq_rtake]
  · intro calls' perm
    have recorded' : latencies calls' ≠ [] := by
      intro none
      have empty : (run after default calls').latencySamples = [] := by
        have readings := readings_run calls'
        rw [none] at readings
        exact congrArg Prod.fst readings
      rw [empty, List.nil_perm] at perm
      exact List.ne_nil_of_mem (mem_of_sampleAtRank found) perm
    have found' := (readings_spec recorded').2
    rw [sampleAtRank_eq_of_perm perm, found] at found'
    exact (Option.some.inj found').symm

/-- Of two latencies the percentile is the greater. -/
theorem rolling_percentile_two :
    letI := Rounding.nearestEven
    let tracker := run after default
      [(default, .recordResult true 30 0), (default, .recordResult false 20 0)]
    KeepsPercentile tracker [30, 20] ∧ tracker.p99LatencyMs = 30 := by
  let _ := Rounding.nearestEven
  exact ⟨(rolling_percentile (by decide)).1, by decide +kernel⟩

end HealthTracker

end TrustRouter
