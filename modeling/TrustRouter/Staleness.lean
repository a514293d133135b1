import TrustRouter.Permits

/-!
# Staleness

A snapshot of the world is refused once the last observation is too old, and the pipeline
makes observations only of what it has executed.  So an engine that has been idle for too long
rejects every request from then on, and nothing any request does makes a difference
(`not_revives_of_stale`).  That is not the end: observations come in at
`WorldStateManager.ingest` from elsewhere as well, and after a single valid one the pipeline
serves again (`stale_until_observed`).
-/

namespace TrustRouter

open Program

section

variable [Rounding] [Formatter] [Md5]

/-- A call of the pipeline, while nobody else is served. -/
def PipelineTask.process (task : PipelineTask) (engine : PipelineEngine) :
    Played pipelineInterface PipelineEngine PipelineOutcome :=
  engine.processRequest task.env task.req task.transport task.kvTransport

/-- What becomes of an engine in a call of the pipeline. -/
def PipelineEngine.next (engine : PipelineEngine) (task : PipelineTask) : PipelineEngine :=
  (task.process engine).state

/-- There are calls of the pipeline, one after another and from now on, of which the last
succeeds. -/
def PipelineEngine.Revives (engine : PipelineEngine) (now : SystemTime) : Prop :=
  ∃ (earlier : List PipelineTask) (last : PipelineTask),
    (∀ task ∈ earlier ++ [last], ∀ reading, now ≤ task.env.clock reading) ∧
      (last.process (run PipelineEngine.next engine earlier)).result.success = true

variable {engine : PipelineEngine} {now : SystemTime}

/-- A call of the pipeline on a stale world does nothing. -/
theorem process_of_stale {task : PipelineTask}
    (old : engine.worldStateManager.maxObservationAge <
      now - engine.worldStateManager.state.observedAt)
    (later : ∀ reading, now ≤ task.env.clock reading) :
    (task.process engine).state = engine ∧ (task.process engine).result.success = false := by
  rcases quiet_or_asks engine task.env task.req task.transport task.kvTransport with
    quiet | ⟨placement, selection, asks⟩
  · exact ⟨quiet.state, quiet.success⟩
  · obtain ⟨worldState, fresh⟩ := asks.dispatches.fresh
    obtain ⟨-, young⟩ :=
      WorldState.isStale_eq_false_iff.mp (WorldStateManager.snapshot_eq_ok_iff.mp fresh).1
    have older := Nat.sub_le_sub_right (later .snapshot) engine.worldStateManager.state.observedAt
    exact absurd (old.trans_le (older.trans young)) (lt_irrefl _)

/-- **Staleness is absorbing** for calls of the pipeline. -/
theorem not_revives_of_stale
    (old : engine.worldStateManager.maxObservationAge <
      now - engine.worldStateManager.state.observedAt) : ¬ engine.Revives now := by
  have stays : ∀ earlier : List PipelineTask,
      (∀ task ∈ earlier, ∀ reading, now ≤ task.env.clock reading) →
        run PipelineEngine.next engine earlier = engine := by
    intro earlier later
    induction earlier with
    | nil => rfl
    | cons task earlier ih =>
        have same : engine.next task = engine :=
          (process_of_stale old (later task List.mem_cons_self)).1
        rw [run_cons, same]
        exact ih fun task mem => later task (List.mem_cons_of_mem _ mem)
  rintro ⟨earlier, last, later, success⟩
  obtain ⟨before, after⟩ := List.forall_mem_append.mp later
  rw [stays earlier before] at success
  have fails := (process_of_stale old (after last (List.mem_singleton_self last))).2
  cases fails.symm.trans success

/-! ## After an observation -/

/-- A request that passes the gates, of a placement that does, is executed. -/
theorem success_of_passes {env : PipelineEnvironment} {req : PipelineRequest}
    {transport : InferenceTransport} {placement : Placement}
    (authenticated : req.authenticationFails = false)
    (permitted : ∃ granted, engine.admissionController.admitTenant req.tenantId = .ok granted)
    (fresh : engine.worldStateManager.state.isStale engine.worldStateManager.maxObservationAge
      (env.clock .snapshot) = false)
    (notForced : req.forceStaleWorldState = false) (passes : placement.Passes engine env req)
    (answers : ∀ request, ∃ resp, transport.execute request = .ok resp) :
    (engine.processRequest env req transport none).result.success = true := by
  have snapshot : engine.worldStateManager.snapshot (env.clock .snapshot) =
      .ok engine.worldStateManager.state :=
    WorldStateManager.snapshot_eq_ok_iff.mpr ⟨fresh, rfl⟩
  obtain ⟨selection, selected⟩ := PipelineRequest.exists_select snapshot notForced passes
  obtain ⟨best, selects⟩ := PipelineRequest.selects_of_select selected
  have dispatches : Dispatches engine env req none best :=
    { authenticated, permitted, notForced
      fresh := ⟨_, snapshot⟩
      best := selects.best
      moved := fun _ kv given => nomatch given }
  rcases quiet_or_asks engine env req transport none with
    quiet | ⟨placement, selection, asks⟩
  · exact absurd dispatches (quiet.nowhere best)
  · exact asks.success.mpr (answers _)

/-- An observation that comes in from elsewhere. -/
def PipelineEngine.observe (engine : PipelineEngine) (obs : InferenceObservation)
    (now : SystemTime) : PipelineEngine :=
  { engine with worldStateManager := (engine.worldStateManager.ingest obs now).2 }

/-- The registry and the capacity admit a candidate for a model. -/
structure Placement.Admissible (env : PipelineEnvironment) (model : ModelReference)
    (placement : Placement) : Prop where
  registered : placement.backend ∈ env.backends.backendIds
  declared : env.backends.supports placement.backend model placement.strategy = .ok true
  present : env.nodes.nodes.get placement.node.id = some placement.node
  healthy : placement.node.healthy = true
  resident : model ∈ placement.node.residentModels
  memory : 1000 ≤ placement.node.availableMemoryMb
  queue : placement.node.queueDepth ≤ 10

/-- A request for a model. -/
def requestFor (model : ModelReference) : PipelineRequest :=
  { PipelineRequest.new "req-1" "tenant-1" model.modelId with
    modelVersion := some model.modelVersion }

/-- A request for a model, at a moment. -/
def taskFor (model : ModelReference) (env : PipelineEnvironment) (transport : InferenceTransport)
    (now : SystemTime) : PipelineTask where
  env := { env with clock := fun _ => now }
  req := requestFor model
  transport := transport
  kvTransport := none

end

section

variable [Formatter] [Md5]

omit [Formatter] [Md5] in
/-- The gates are open, on a world that has just been observed, to what is admissible. -/
theorem passes_requestFor :
    letI := Rounding.nearestEven
    ∀ {engine : PipelineEngine} {env : PipelineEnvironment} {model : ModelReference}
      {placement : Placement},
      engine.predictionEngine.trackers = ∅ → engine.firewall = setupEngine.firewall →
      (∀ reading, env.clock reading = engine.worldStateManager.state.observedAt) →
      placement.Admissible env model → placement.Passes engine env (requestFor model) := by
  let _ := Rounding.nearestEven
  intro engine env model placement untrained firewall still admissible
  have unknown : ∀ key revision, OperationalValue.ofPrediction
      (engine.predictionEngine.predict key revision) = .unavailable := by
    intro key revision
    rw [PredictionEngine.predict, untrained]
    rfl
  have estimate : placement.estimate engine (requestFor model) =
      (requestFor model).estimate placement.backend placement.node placement.strategy .unavailable
        .unavailable := by
    rw [Placement.estimate, unknown, unknown]
  exact
    { registered := admissible.registered
      declared := admissible.declared
      present := admissible.present
      healthy := admissible.healthy
      resident := admissible.resident
      memory := admissible.memory
      queue := admissible.queue
      ttft := by
        rw [estimate]
        exact fun _ _ v known => nomatch known
      e2e := by
        rw [estimate]
        exact fun _ _ v known => nomatch known
      cost := by
        rw [estimate]
        intro max given v known
        obtain rfl := Option.some.inj given
        obtain rfl := Option.some.inj known
        decide +kernel
      approved := by
        rw [estimate, firewall, DecisionFirewall.evaluateCandidate_eq_approved_iff]
        refine ⟨by decide +kernel, ?_, rfl, rfl, rfl, rfl, ?_, ?_, ?_, rfl⟩
        · rw [WorldState.isStale_eq_false_iff, still, Nat.sub_self]
          exact ⟨le_rfl, Nat.zero_le _⟩
        · show decide (F64.finite 1 < setupEngine.firewall.config.minQuality) = false
          decide +kernel
        · show decide (setupEngine.firewall.config.maxCost < F64.ofRat (5 / 1000)) = false
          decide +kernel
        · show decide (setupEngine.firewall.config.maxFailureProbability <
            F64.ofRat (1 / 100)) = false
          decide +kernel }

/-- **An observation ends the staleness.**  Where nothing is under way, an engine whose world
has become too old succeeds with no request, whatever is tried, and with the first one after a
valid observation. -/
theorem stale_until_observed (maxAge : Duration) (began : SystemTime) (kv : KvIntelligence)
    (tasks : ClientId → PipelineTask) (schedule : List ClientId) :
    letI := Rounding.nearestEven
    let clients := (PipelineEngine.new (.new maxAge began) kv).runTasks tasks schedule
    let engine := clients.state
    Idle clients → ∀ now, engine.worldStateManager.maxObservationAge <
        now - engine.worldStateManager.state.observedAt →
      ∀ (env : PipelineEnvironment) (model : ModelReference) (placement : Placement),
        placement.Admissible env model →
          ¬ engine.Revives now ∧
            ∀ obs : InferenceObservation, obs.validate = .ok () →
              ∀ transport : InferenceTransport,
                (∀ request, ∃ resp, transport.execute request = .ok resp) →
                  ((taskFor model env transport now).process
                    (engine.observe obs now)).result.success = true := by
  let _ := Rounding.nearestEven
  intro clients engine idle now old env model placement admissible
  refine ⟨not_revives_of_stale old, fun obs valid transport answers => ?_⟩
  -- nothing is under way, so no slot is taken; the rest of the engine never changes
  obtain ⟨policy, total, count⟩ := admission_of_idle _ tasks schedule idle
  obtain ⟨predictions, firewall⟩ :=
    unchanged_runTasks (PipelineEngine.new (.new maxAge began) kv) tasks schedule
  have observedAt : (engine.observe obs now).worldStateManager.state.observedAt = now :=
    (WorldStateManager.ingest_of_valid valid).2.1
  have passes : placement.Passes (engine.observe obs now) (taskFor model env transport now).env
      (requestFor model) :=
    passes_requestFor (congrArg PredictionEngine.trackers predictions) firewall
      (fun _ => observedAt.symm) { admissible with }
  have named : isIdentifier "tenant-1" = true := by decide +kernel
  refine success_of_passes rfl ?_ ?_ rfl passes answers
  · refine AdmissionController.exists_admitTenant named ?_ ?_
    · show engine.admissionController.state.totalInFlight <
        engine.admissionController.policy.globalInFlight
      rw [policy, total]
      exact Nat.succ_pos 999
    · show engine.admissionController.state.count _ <
        engine.admissionController.policy.perTenantInFlight
      rw [policy, count]
      exact Nat.succ_pos 99
  -- the observation is as old as the snapshot, and that is not too old
  · rw [WorldState.isStale_eq_false_iff, observedAt]
    exact ⟨le_rfl, (Nat.sub_self now).trans_le (Nat.zero_le _)⟩

omit [Formatter] [Md5] in
theorem admissible_setupEnvironment :
    letI := Rounding.nearestEven
    Placement.Admissible (setupEnvironment [.none] 0) setupModel
      ⟨"backend-1", setupNode, .none⟩ := by
  let _ := Rounding.nearestEven
  exact
    { registered := by decide +kernel
      declared := by decide +kernel
      present := by decide +kernel
      healthy := rfl
      resident := Finset.mem_singleton_self _
      memory := by decide +kernel
      queue := by decide +kernel }

omit [Formatter] [Md5] in
/-- Five minutes without a request, and no request succeeds any more. -/
theorem not_revives :
    letI := Rounding.nearestEven
    letI := Formatter.idle
    letI := Md5.ofFirstRecord
    ¬ ∀ (maxAge : Duration) (began : SystemTime) (kv : KvIntelligence)
        (tasks : ClientId → PipelineTask) (schedule : List ClientId),
      let clients := (PipelineEngine.new (.new maxAge began) kv).runTasks tasks schedule
      let engine := clients.state
      Idle clients → ∀ now, engine.worldStateManager.maxObservationAge <
          now - engine.worldStateManager.state.observedAt →
        ∀ (env : PipelineEnvironment) (model : ModelReference) (placement : Placement),
          placement.Admissible env model → engine.Revives now := by
  let _ := Rounding.nearestEven
  let _ := Formatter.idle
  let _ := Md5.ofFirstRecord
  intro always
  have old : setupEngine.worldStateManager.maxObservationAge <
      301 * 10 ^ 9 - setupEngine.worldStateManager.state.observedAt := by decide +kernel
  have revives := always (300 * 10 ^ 9) 0 default
    (fun _ => taskFor setupModel (setupEnvironment [.none] 0)
      (DeterministicTransport.transport ⟨true, 100⟩) 0) []
    (fun client begun => absurd rfl begun) (301 * 10 ^ 9) old _ _ _ admissible_setupEnvironment
  exact not_revives_of_stale old revives

/-- The observation of the tests. -/
def sampleObservation [Rounding] : InferenceObservation where
  schemaVersion := 1
  requestId := "req-1"
  tenant := "t-1"
  model := "m-1"
  modelVersion := "v1"
  backendId := "b-1"
  backendVersion := "v1"
  computeNodeId := "c-1"
  accelerator := "a100"
  region := "us-east"
  prefillTokens := 100
  decodeTokens := 200
  totalTokens := 300
  queueDelayMs := 5
  ttftMs := 30
  tpotMs := 50
  e2eLatencyMs := 200
  gpuUtilization := .ofRat (8 / 10)
  gpuMemoryUsedMb := 4000
  gpuMemoryTotalMb := 8000
  kvHit := true
  kvTokens := 100
  kvMemoryMb := 100
  kvTransferMs := 5
  networkTransferMs := 2
  retries := 0
  failureClass := none
  qualityScore := .ofRat (9 / 10)
  estimatedCost := .ofRat (1 / 100)
  actualCost := .ofRat (12 / 1000)
  timestamp := 0
  worldRevision := 1

omit [Formatter] [Md5] in
/-- Five minutes without a request, and an observation. -/
theorem stale_until_observed_setupEngine :
    letI := Rounding.nearestEven
    letI := Formatter.idle
    letI := Md5.ofFirstRecord
    let task := taskFor setupModel (setupEnvironment [.none] 0)
      (DeterministicTransport.transport ⟨true, 100⟩) (301 * 10 ^ 9)
    let played := task.process (setupEngine.observe sampleObservation (301 * 10 ^ 9))
    ¬ setupEngine.Revives (301 * 10 ^ 9) ∧ played.result.success = true := by
  let _ := Rounding.nearestEven
  let _ := Formatter.idle
  let _ := Md5.ofFirstRecord
  intro task played
  have old : setupEngine.worldStateManager.maxObservationAge <
      301 * 10 ^ 9 - setupEngine.worldStateManager.state.observedAt := by decide +kernel
  let tasks : ClientId → PipelineTask := fun _ =>
    taskFor setupModel (setupEnvironment [.none] 0) (DeterministicTransport.transport ⟨true, 100⟩) 0
  have begins : ((PipelineEngine.new (.new (300 * 10 ^ 9) 0) default).runTasks tasks []).state =
      setupEngine := rfl
  obtain ⟨dead, observed⟩ := stale_until_observed (300 * 10 ^ 9) 0 default tasks []
    (fun client begun => absurd rfl begun) (301 * 10 ^ 9) old _ _ _ admissible_setupEnvironment
  have awake := observed sampleObservation (by decide +kernel)
    (DeterministicTransport.transport ⟨true, 100⟩) fun _ => ⟨_, rfl⟩
  rw [begins] at dead awake
  have same : played = (taskFor setupModel (setupEnvironment [.none] 0)
      (DeterministicTransport.transport ⟨true, 100⟩) (301 * 10 ^ 9)).process
        (setupEngine.observe sampleObservation (301 * 10 ^ 9)) := rfl
  exact ⟨dead, same ▸ awake⟩

end

end TrustRouter
