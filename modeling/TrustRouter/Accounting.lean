import TrustRouter.Prelude.Run
import TrustRouter.WorldState

/-!
# What the world state counts

The ledger of a run of `WorldStateManager::ingest` lists the observations with the answers
they got.  Everything the manager keeps can be read off the ledger (`records_after`), with
one exception: nothing ever adds to `observations_rejected`, so that counter is right only
as long as there is nothing to count (`addsUp_iff`).
-/

namespace TrustRouter

namespace WorldStateManager

/-- A call of `ingest`: an observation and a reading of the clock. -/
abbrev Ingestion := InferenceObservation × SystemTime

/-- The manager after a call. -/
def step (manager : WorldStateManager) (call : Ingestion) : WorldStateManager :=
  (manager.ingest call.1 call.2).2

/-- An observation and the answer it got. -/
abbrev LedgerEntry := InferenceObservation × Except IntelligenceError ℕ

/-- The observations of a run with their answers. -/
def ledger (manager : WorldStateManager) (calls : List Ingestion) : List LedgerEntry :=
  outputs step (fun manager call => (call.1, (manager.ingest call.1 call.2).1)) manager calls

/-- The answer is `Ok`. -/
def LedgerEntry.accepted (entry : LedgerEntry) : Bool := entry.2.isOk

@[simp] theorem LedgerEntry.accepted_ok (obs : InferenceObservation) (revision : ℕ) :
    LedgerEntry.accepted (obs, .ok revision) = true := rfl

@[simp] theorem LedgerEntry.accepted_error (obs : InferenceObservation)
    (error : IntelligenceError) : LedgerEntry.accepted (obs, .error error) = false := rfl

/-- What the manager keeps is what the ledger says, but for `rejected_count`. -/
structure Records (manager : WorldStateManager) (entries : List LedgerEntry) : Prop where
  revision : manager.revision = entries.countP (·.accepted)
  acceptedCount : manager.acceptedCount = entries.countP (·.accepted)
  nodup_nodes : manager.state.nodes.Nodup
  mem_nodes : ∀ id, id ∈ manager.state.nodes ↔
    ∃ entry ∈ entries, entry.accepted = true ∧ entry.1.computeNodeId = id
  nodup_backends : manager.state.backends.Nodup
  mem_backends : ∀ id, id ∈ manager.state.backends ↔
    ∃ entry ∈ entries, entry.accepted = true ∧ entry.1.backendId = id

/-- The accounts add up: the manager keeps what the ledger says. -/
structure AddsUp (manager : WorldStateManager) (entries : List LedgerEntry) : Prop
    extends Records manager entries where
  rejectedCount : manager.rejectedCount = entries.countP (!·.accepted)

/-- A call that fails leaves the world state as it was. -/
def FailsUnchanged (manager : WorldStateManager) (call : Ingestion) : Prop :=
  ∀ error, (manager.ingest call.1 call.2).1 = .error error →
    (manager.step call).state = manager.state

variable {manager : WorldStateManager} {call : Ingestion} {entries : List LedgerEntry}

theorem failsUnchanged (manager : WorldStateManager) (call : Ingestion) :
    manager.FailsUnchanged call := by
  intro error refused
  rw [step, ingest_eq_error refused]

@[simp] theorem rejectedCount_step (manager : WorldStateManager) (call : Ingestion) :
    (manager.step call).rejectedCount = manager.rejectedCount := by
  unfold step ingest
  split <;> rfl

/-- An answer is `Ok` exactly when the observation is valid. -/
theorem isOk_ingest_iff (manager : WorldStateManager) :
    (manager.ingest call.1 call.2).1.isOk = true ↔ call.1.validate = .ok () := by
  unfold ingest
  cases call.1.validate <;> simp [Except.isOk, Except.toBool]

/-! ### Lists without repetition -/

section

variable {kept seen : List String} {item : String}

/-- An item is put at the end of a list it is not in. -/
theorem nodup_pushNew (nodup : kept.Nodup) :
    (if item ∈ kept then kept else kept ++ [item]).Nodup := by
  split_ifs with known
  · exact nodup
  · exact List.concat_eq_append ▸ nodup.concat known

theorem mem_pushNew {id : String} :
    id ∈ (if item ∈ kept then kept else kept ++ [item]) ↔ id ∈ kept ∨ item = id := by
  split_ifs with known
  · refine ⟨Or.inl, ?_⟩
    rintro (mem | rfl)
    · exact mem
    · exact known
  · simp [eq_comm]

end

/-! ### Runs -/

/-- One more line in the ledger. -/
theorem Records.step (records : manager.Records entries) (call : Ingestion) :
    (manager.step call).Records (entries ++ [(call.1, (manager.ingest call.1 call.2).1)]) := by
  unfold WorldStateManager.step ingest
  cases valid : call.1.validate with
  | error error =>
      -- the line is of a call that failed, and counts for nothing
      exact
        { revision := by simp [records.revision]
          acceptedCount := by simp [records.acceptedCount]
          nodup_nodes := records.nodup_nodes
          mem_nodes := by simp [records.mem_nodes, or_and_right, exists_or]
          nodup_backends := records.nodup_backends
          mem_backends := by simp [records.mem_backends, or_and_right, exists_or] }
  | ok _ =>
      have revision := records.revision
      have acceptedCount := records.acceptedCount
      exact
        { revision := by simpa [WorldStateManager.revision] using revision
          acceptedCount := by simpa [WorldStateManager.acceptedCount] using acceptedCount
          nodup_nodes := nodup_pushNew records.nodup_nodes
          mem_nodes := by simp [mem_pushNew, records.mem_nodes, or_and_right, exists_or]
          nodup_backends := nodup_pushNew records.nodup_backends
          mem_backends := by
            simp [mem_pushNew, records.mem_backends, or_and_right, exists_or] }

/-- Whatever is ingested, all the manager keeps but `rejected_count` is right. -/
theorem records_after (maxObservationAge : Duration) (start : SystemTime)
    (calls : List Ingestion) :
    (run step (new maxObservationAge start) calls).Records
      (ledger (new maxObservationAge start) calls) := by
  induction calls using List.reverseRecOn with
  | nil =>
      exact
        { revision := rfl
          acceptedCount := rfl
          nodup_nodes := List.nodup_nil
          mem_nodes := by simp [ledger, outputs, new]
          nodup_backends := List.nodup_nil
          mem_backends := by simp [ledger, outputs, new] }
  | append_singleton calls call ih =>
      rw [run_concat, ledger, outputs_concat]
      exact ih.step call

/-- No call adds to `rejected_count`. -/
theorem rejectedCount_after (maxObservationAge : Duration) (start : SystemTime)
    (calls : List Ingestion) :
    (run step (new maxObservationAge start) calls).rejectedCount = 0 := by
  refine run_induction (P := (rejectedCount · = 0)) rfl ?_ calls
  intro manager call zero
  rw [rejectedCount_step, zero]

/-- The failed calls of a run are those with an invalid observation. -/
theorem countP_rejected_eq_zero_iff (manager : WorldStateManager) (calls : List Ingestion) :
    (ledger manager calls).countP (!·.accepted) = 0 ↔
      ∀ call ∈ calls, call.1.validate = .ok () := by
  induction calls generalizing manager with
  | nil => simp [ledger, outputs]
  | cons call rest ih =>
      rw [ledger, outputs, ← ledger, List.countP_cons, Nat.add_eq_zero_iff, ih,
        List.forall_mem_cons, and_comm, ← isOk_ingest_iff manager]
      refine and_congr_left fun _ => ?_
      cases answer : (manager.ingest call.1 call.2).1 <;>
        simp [Except.isOk, Except.toBool]

/-- **Accounting.**  After a run the accounts of the world state add up, with every failed
call having left it alone, if and only if there was no failed call: every observation of
the run was valid. -/
theorem addsUp_iff (maxObservationAge : Duration) (start : SystemTime) (calls : List Ingestion) :
    ((run step (new maxObservationAge start) calls).AddsUp
        (ledger (new maxObservationAge start) calls) ∧
      AllSteps step FailsUnchanged (new maxObservationAge start) calls) ↔
      ∀ call ∈ calls, call.1.validate = .ok () := by
  have unchanged : AllSteps step FailsUnchanged (new maxObservationAge start) calls :=
    allSteps_of_forall failsUnchanged calls
  rw [and_iff_left unchanged, ← countP_rejected_eq_zero_iff (new maxObservationAge start)]
  constructor
  · intro addsUp
    rw [← addsUp.rejectedCount, rejectedCount_after]
  · intro none
    exact
      { records_after maxObservationAge start calls with
        rejectedCount := by rw [rejectedCount_after, none] }

/-- An observation without a request identifier. -/
private def anonymous : InferenceObservation :=
  { schemaVersion := 1, requestId := "", tenant := "t", model := "m", modelVersion := "1"
    backendId := "b", backendVersion := "1", computeNodeId := "n", accelerator := "a"
    region := "r", prefillTokens := 1, decodeTokens := 1, totalTokens := 2, queueDelayMs := 0
    ttftMs := 1, tpotMs := 1, e2eLatencyMs := 2, gpuUtilization := .finite 0
    gpuMemoryUsedMb := 0, gpuMemoryTotalMb := 1, kvHit := false, kvTokens := 0, kvMemoryMb := 0
    kvTransferMs := 0, networkTransferMs := 0, retries := 0, failureClass := none
    qualityScore := .finite 1, estimatedCost := .finite 0, actualCost := .finite 0
    timestamp := 0, worldRevision := 0 }

/-- One observation is refused, and none is counted as refused. -/
theorem not_addsUp :
    ¬ ∀ (maxObservationAge : Duration) (start : SystemTime) (calls : List Ingestion),
      (run step (new maxObservationAge start) calls).AddsUp
          (ledger (new maxObservationAge start) calls) ∧
        AllSteps step FailsUnchanged (new maxObservationAge start) calls := by
  intro always
  have rejected := (always 600 0 [(anonymous, 0)]).1.rejectedCount
  rw [rejectedCount_after] at rejected
  exact absurd rejected (by decide)

end WorldStateManager

end TrustRouter
