import TrustRouter.Conduct

/-!
# What an engine keeps of its requests

Three things are to be left behind by an execution: a record on the audit chain, an
observation in the world state, with the revision the outcome reports, and samples for the
predictions.  Each of them is a property of every state that a run of tasks reaches, and holds
exactly as long as what the tasks have been answered keeps off the paths that skip it.

`Account` is what these properties need of `Conduct`: of a task that has returned, what it had
executed, what it has appended and what it has ingested.
-/

namespace TrustRouter

open Program

/-- The record that is appended to the audit chain. -/
def appended : PipelineEvent → Option (String × String)
  | ⟨.append eventId actor _, _⟩ => some (eventId, actor)
  | _ => none

/-- The request that is executed, and where. -/
def executed (event : PipelineEvent) : Option (String × String) :=
  (execution event).map fun entry => (entry.1.requestId, entry.1.backendId)

/-- An observation, and what becomes of it. -/
def ingested : PipelineEvent → Option (InferenceObservation × Except IntelligenceError ℕ)
  | ⟨.ingest obs, answer⟩ => some (obs, answer)
  | _ => none

theorem executed_eq_bind_execution (event : PipelineEvent) :
    executed event = (execution event).bind fun entry =>
      some (entry.1.requestId, entry.1.backendId) := by
  rw [executed, Option.map_eq_bind]
  rfl

theorem appended_eq_bind_shown (event : PipelineEvent) :
    appended event = (shown event).bind appended := by
  obtain ⟨call, answer⟩ := event
  cases call <;> rfl

theorem ingested_eq_bind_shown (event : PipelineEvent) :
    ingested event = (shown event).bind ingested := by
  obtain ⟨call, answer⟩ := event
  cases call <;> rfl

section

variable [Rounding]

/-- What a task that has returned has had executed, appended and ingested. -/
inductive Account (task : PipelineTask)
    (executions : List (TransportRequest × Except FabricError TransportResponse))
    (records : List (String × String))
    (observations : List (InferenceObservation × Except IntelligenceError ℕ))
    (outcome : PipelineOutcome) : Prop
  | idle : executions = [] → records = [] → observations = [] → outcome.success = false →
      Account task executions records observations outcome
  | failed {selection : Selection} {error : FabricError} :
      executions = [(task.req.transportRequest selection, .error error)] → records = [] →
      observations = [] → outcome.success = false →
      Account task executions records observations outcome
  | succeeded {selection : Selection} {resp : TransportResponse} {now : SystemTime}
      {recorded : Except IntelligenceError ℕ} :
      isIdentifier task.req.tenantId = true → selection.Vetted →
      executions = [(task.req.transportRequest selection, .ok resp)] →
      records = [(task.req.requestId, selection.candidate.backendId)] →
      observations = [(task.req.observation selection resp now, recorded)] →
      ((∃ revision, recorded = .ok revision) ↔
        (task.req.observation selection resp now).validate = .ok ()) →
      outcome.success = true →
      outcome.worldRevision = recorded.toOption.getD (selection.worldState.revision + 1) →
      Account task executions records observations outcome

variable {task : PipelineTask} {events : List PipelineEvent} {outcome : PipelineOutcome}

omit [Rounding] in
theorem PipelineRequest.Unselected.success {req : PipelineRequest}
    (unselected : req.Unselected outcome) : outcome.success = false := by
  obtain ⟨_, _, _, _, rfl⟩ := unselected
  rfl

theorem Conduct.account (conduct : Conduct task events outcome) :
    Account task (events.filterMap execution) (events.filterMap appended)
      (events.filterMap ingested) outcome := by
  cases conduct with
  | unauthenticated unselected => exact .idle rfl rfl rfl unselected.success
  | refused unselected => exact .idle rfl rfl rfl unselected.success
  | rejected _ unselected => exact .idle rfl rfl rfl unselected.success
  | selected _ named vetted handled =>
      cases handled with
      | kvFailed => exact .idle rfl rfl rfl rfl
      | transportFailed moved => cases moved <;> exact .failed rfl rfl rfl rfl
      | executed moved valid =>
          cases moved <;> exact .succeeded named vetted rfl rfl rfl valid rfl rfl

end

section

variable [Rounding] [Formatter] [Md5]
variable {engine : PipelineEngine} {tasks : ClientId → PipelineTask} {schedule : List ClientId}
variable {client : ClientId} {outcome : PipelineOutcome}

theorem account_of_returned
    (returned : (engine.runTasks tasks schedule).rest client = .done outcome) :
    Account (tasks client) ((engine.runTasks tasks schedule).own execution client)
      ((engine.runTasks tasks schedule).own appended client)
      ((engine.runTasks tasks schedule).own ingested client) outcome := by
  have account := (conduct_of_returned returned).account
  rwa [← Clients.own_eq_filterMap execution_eq_bind_shown,
    ← Clients.own_eq_filterMap appended_eq_bind_shown,
    ← Clients.own_eq_filterMap ingested_eq_bind_shown] at account

/-! ## The audit chain -/

/-- A chain, with the records that have been appended to it. -/
def AuditChain.record (tasks : ClientId → PipelineTask) (chain : AuditChain)
    (entry : ClientId × PipelineEvent) : AuditChain :=
  match entry.2 with
  | ⟨.append eventId actor worldRevision, _⟩ =>
      chain.append eventId actor worldRevision ((tasks entry.1).env.clock .append)
  | _ => chain

/-- Every execution is on the chain. -/
structure Audited (engine : PipelineEngine) (tasks : ClientId → PipelineTask)
    (clients : Clients pipelineInterface PipelineEngine PipelineOutcome) : Prop where
  /-- The chain is made of the records that are appended. -/
  chain : clients.state.auditChain = clients.log.foldl (AuditChain.record tasks) engine.auditChain
  /-- A task that has returned has appended one record for each of its executions. -/
  own : ∀ client outcome, clients.rest client = .done outcome →
    clients.own appended client = clients.own executed client
  /-- Where no task is under way, there are as many records as executions. -/
  everyone : Idle clients →
    (clients.log.filterMap fun entry => appended entry.2).Perm
      (clients.log.filterMap fun entry => executed entry.2)

theorem auditChain_runTasks (engine : PipelineEngine) (tasks : ClientId → PipelineTask)
    (schedule : List ClientId) :
    (engine.runTasks tasks schedule).state.auditChain =
      (engine.runTasks tasks schedule).log.foldl (AuditChain.record tasks) engine.auditChain := by
  refine Clients.log_induction (P := fun (state : PipelineEngine) log =>
    state.auditChain = log.foldl (AuditChain.record tasks) engine.auditChain)
    rfl (fun client state log call holds => ?_) schedule
  rw [List.foldl_append, ← holds]
  cases call with
  | admitTenant tenant =>
      obtain ⟨controller, admits⟩ := state.exists_serve_admitTenant (tasks client).env tenant
      rw [PipelineEngine.serveTasks, admits]
      rfl
  | _ => rfl

omit [Rounding] [Formatter] [Md5] in
theorem own_executed {clients : Clients pipelineInterface PipelineEngine PipelineOutcome} :
    clients.own executed client = (clients.own execution client).map fun entry =>
      (entry.1.requestId, entry.1.backendId) := by
  rw [Clients.own_eq_filterMap executed_eq_bind_execution, List.filterMap_eq_map']

omit [Formatter] [Md5] in
/-- A task records its executions just when they are answered. -/
theorem Account.records_eq_iff {task : PipelineTask}
    {executions : List (TransportRequest × Except FabricError TransportResponse)}
    {records : List (String × String)}
    {observations : List (InferenceObservation × Except IntelligenceError ℕ)}
    (account : Account task executions records observations outcome) :
    records = executions.map (fun entry => (entry.1.requestId, entry.1.backendId)) ↔
      ∀ request answer, (request, answer) ∈ executions → ∃ resp, answer = .ok resp := by
  cases account with
  | idle executions records =>
      subst executions records
      simp
  | failed executions records =>
      subst executions records
      constructor
      · intro same
        cases same
      · intro answered
        obtain ⟨resp, isOk⟩ := answered _ _ (List.mem_singleton_self _)
        cases isOk
  | succeeded _ _ executions records =>
      subst executions records
      refine ⟨fun _ request answer mem => ?_, fun _ => rfl⟩
      exact ⟨_, (Prod.mk.inj (List.mem_singleton.mp mem)).2⟩

/-- **Every dispatch is on the audit chain** if and only if the transport has answered every
execution of a task that has returned. -/
theorem audited_iff (engine : PipelineEngine) (tasks : ClientId → PipelineTask)
    (schedule : List ClientId) :
    let clients := engine.runTasks tasks schedule
    Audited engine tasks clients ↔
      ∀ client outcome, clients.rest client = .done outcome →
        ∀ request answer, (request, answer) ∈ clients.own execution client →
          ∃ resp, answer = .ok resp := by
  intro clients
  constructor
  · intro audited client outcome returned
    have same := audited.own client outcome returned
    rw [own_executed] at same
    exact (account_of_returned returned).records_eq_iff.mp same
  · intro answered
    have own : ∀ client outcome, clients.rest client = .done outcome →
        clients.own appended client = clients.own executed client := by
      intro client outcome returned
      rw [own_executed]
      exact (account_of_returned returned).records_eq_iff.mpr (answered client outcome returned)
    refine ⟨auditChain_runTasks engine tasks schedule, own, fun finished => ?_⟩
    refine Clients.perm_of_own_eq fun client => ?_
    by_cases idle : clients.own shown client = []
    · rw [Clients.own_eq_filterMap appended_eq_bind_shown, own_executed,
        Clients.own_eq_filterMap execution_eq_bind_shown, idle]
      rfl
    · obtain ⟨outcome, returned⟩ := finished client idle
      exact own client outcome returned

omit [Rounding] [Formatter] [Md5] in
/-- An execution that fails is not on the chain. -/
theorem not_audited :
    letI := Rounding.nearestEven
    letI := Formatter.idle
    letI := Md5.ofFirstRecord
    ¬ ∀ (engine : PipelineEngine) (tasks : ClientId → PipelineTask) (schedule : List ClientId),
      Audited engine tasks (engine.runTasks tasks schedule) := by
  let _ := Rounding.nearestEven
  let _ := Formatter.idle
  let _ := Md5.ofFirstRecord
  intro always
  let task : PipelineTask :=
    { env := setupEnvironment [.none] 0
      req := setupRequest
      transport := DeterministicTransport.transport ⟨false, 100⟩
      kvTransport := none }
  obtain ⟨returned, -, log⟩ := runTasks_alone setupEngine (fun _ => task) 0
  have same := (always setupEngine (fun _ => task) _).own 0 _ returned
  rw [own_of_log_eq log, own_of_log_eq log] at same
  have records : ((setupEngine.processRequest (setupEnvironment [.none] 0) setupRequest
      (DeterministicTransport.transport ⟨false, 100⟩) none).events.filterMap appended) = [] := by
    decide +kernel
  have executions : ((setupEngine.processRequest (setupEnvironment [.none] 0) setupRequest
      (DeterministicTransport.transport ⟨false, 100⟩) none).events.filterMap executed) =
        [("req-1", "backend-1")] := by
    decide +kernel
  cases records.symm.trans (same.trans executions)

/-! ## Revisions -/

omit [Rounding] [Formatter] [Md5] in
/-- The revision an observation is recorded at. -/
def recorded (event : PipelineEvent) : Option ℕ :=
  (ingested event).bind fun entry => entry.2.toOption

/-- The revisions that are reported are those of the world state. -/
structure Real (clients : Clients pipelineInterface PipelineEngine PipelineOutcome) : Prop where
  /-- A success reports the revision its own observation was recorded at. -/
  own : ∀ client outcome, clients.rest client = .done outcome → outcome.success = true →
    ∃ obs, clients.own ingested client = [(obs, .ok outcome.worldRevision)]
  bound : ∀ client outcome, clients.rest client = .done outcome → outcome.success = true →
    outcome.worldRevision ≤ clients.state.worldStateManager.revision
  distinct : ∀ client client' outcome outcome', clients.rest client = .done outcome →
    clients.rest client' = .done outcome' → outcome.success = true → outcome'.success = true →
    client ≠ client' → outcome.worldRevision ≠ outcome'.worldRevision

/-- What the world state records of a request and the answer to it. -/
structure Recordable (req : PipelineRequest) (resp : TransportResponse) : Prop where
  requestId : isIdentifier req.requestId = true
  model : isIdentifier req.model = true
  gpuUtilization : (resp.gpuUtilization.getD (.finite 0)).isRatio = true
  qualityScore : (resp.qualityScore.getD (.finite 1)).isRatio = true
  actualCost : (resp.actualCost.getD (.finite 0)).isNonNegative = true

omit [Rounding] [Formatter] [Md5] in
/-- What else is checked of an observation has been checked before. -/
theorem validate_observation_iff {req : PipelineRequest} {selection : Selection}
    {resp : TransportResponse} {now : SystemTime} (named : isIdentifier req.tenantId = true)
    (vetted : selection.Vetted) :
    (req.observation selection resp now).validate = .ok () ↔ Recordable req resp := by
  rw [InferenceObservation.validate_eq_ok_iff]
  constructor
  · rintro ⟨requestId, -, model, -, gpuUtilization, qualityScore, -, actualCost⟩
    exact ⟨requestId, model, gpuUtilization, qualityScore, actualCost⟩
  · rintro ⟨requestId, model, gpuUtilization, qualityScore, actualCost⟩
    exact ⟨requestId, named, model, vetted.backend, gpuUtilization, qualityScore, vetted.cost,
      actualCost⟩

omit [Formatter] in
/-- What a call does to the revision of the world state. -/
theorem PipelineEngine.recorded_serve (engine : PipelineEngine) (env : PipelineEnvironment)
    (call : PipelineCall) :
    let served := engine.serve env call
    recorded ⟨call, served.1⟩ = none ∧
        served.2.worldStateManager.revision = engine.worldStateManager.revision ∨
      recorded ⟨call, served.1⟩ = some (engine.worldStateManager.revision + 1) ∧
        served.2.worldStateManager.revision = engine.worldStateManager.revision + 1 := by
  cases call with
  | admitTenant tenant =>
      obtain ⟨controller, admits⟩ := engine.exists_serve_admitTenant env tenant
      exact .inl ⟨rfl, by rw [admits]⟩
  | ingest obs =>
      cases answer : (engine.worldStateManager.ingest obs (env.clock .ingest)).1 with
      | error error =>
          refine .inl ⟨congrArg Except.toOption answer, ?_⟩
          exact congrArg WorldStateManager.revision (WorldStateManager.ingest_eq_error answer)
      | ok revision =>
          obtain ⟨rfl, same⟩ := WorldStateManager.ingest_eq_ok answer
          exact .inr ⟨congrArg Except.toOption answer, same⟩
  | _ => exact .inl ⟨rfl, rfl⟩

/-- The revisions that are recorded grow, up to that of the world state. -/
theorem revisions_runTasks (engine : PipelineEngine) (tasks : ClientId → PipelineTask)
    (schedule : List ClientId) :
    let clients := engine.runTasks tasks schedule
    (clients.everyone recorded).Pairwise (fun entry later => entry.2 < later.2) ∧
      ∀ entry ∈ clients.everyone recorded, entry.2 ≤ clients.state.worldStateManager.revision := by
  refine Clients.log_induction (P := fun (state : PipelineEngine) log =>
    let revisions := log.filterMap fun entry => (recorded entry.2).map (Prod.mk entry.1)
    revisions.Pairwise (fun entry later => entry.2 < later.2) ∧
      ∀ entry ∈ revisions, entry.2 ≤ state.worldStateManager.revision)
    ⟨.nil, by simp⟩ (fun client state log call holds => ?_) schedule
  obtain ⟨grow, bound⟩ := holds
  rcases state.recorded_serve (tasks client).env call with ⟨nothing, same⟩ | ⟨something, next⟩
  · simp only [PipelineEngine.serveTasks, List.filterMap_append, List.filterMap_cons, nothing,
      Option.map_none, List.filterMap_nil, List.append_nil, same]
    exact ⟨grow, bound⟩
  · simp only [PipelineEngine.serveTasks, List.filterMap_append, List.filterMap_cons, something,
      Option.map_some, List.filterMap_nil, next, List.pairwise_append, List.mem_append,
      List.mem_singleton]
    refine ⟨⟨grow, List.pairwise_singleton _ _, ?_⟩, ?_⟩
    · rintro entry mem _ rfl
      exact Nat.lt_succ_of_le (bound entry mem)
    · rintro entry (mem | rfl)
      · exact (bound entry mem).trans (Nat.le_succ _)
      · exact le_rfl

omit [Formatter] [Md5] in
/-- A success reports the revision of its own observation just when that is recorded. -/
theorem Account.reports_iff {task : PipelineTask}
    {executions : List (TransportRequest × Except FabricError TransportResponse)}
    {records : List (String × String)}
    {observations : List (InferenceObservation × Except IntelligenceError ℕ)}
    (account : Account task executions records observations outcome) :
    (outcome.success = true → ∃ obs, observations = [(obs, .ok outcome.worldRevision)]) ↔
      ∀ request resp, (request, .ok resp) ∈ executions → Recordable task.req resp := by
  cases account with
  | idle executions _ _ fails =>
      subst executions
      simp [fails]
  | failed executions _ _ fails =>
      subst executions
      simp [fails]
  | succeeded named vetted executions _ observations valid success reported =>
      subst executions observations
      have recordable := valid.trans (validate_observation_iff named vetted)
      constructor
      · intro reports request resp mem
        obtain rfl := Except.ok.inj (Prod.mk.inj (List.mem_singleton.mp mem)).2
        obtain ⟨obs, same⟩ := reports success
        exact recordable.mp ⟨_, (Prod.mk.inj (List.singleton_inj.mp same)).2⟩
      · intro checked _
        obtain ⟨revision, rfl⟩ := recordable.mpr (checked _ _ (List.mem_singleton_self _))
        rw [reported]
        exact ⟨_, rfl⟩

/-- Where every success reports the revision of its own observation, the revisions are real. -/
theorem real_of_own
    (own : ∀ client outcome, (engine.runTasks tasks schedule).rest client = .done outcome →
      outcome.success = true →
        ∃ obs, (engine.runTasks tasks schedule).own ingested client =
          [(obs, .ok outcome.worldRevision)]) :
    Real (engine.runTasks tasks schedule) := by
  obtain ⟨grow, bound⟩ := revisions_runTasks engine tasks schedule
  generalize engine.runTasks tasks schedule = clients at own grow bound ⊢
  have mem : ∀ client outcome, clients.rest client = .done outcome → outcome.success = true →
      (client, outcome.worldRevision) ∈ clients.everyone recorded := by
    intro client outcome returned success
    obtain ⟨obs, own⟩ := own client outcome returned success
    have sees : ∀ event, recorded event = (ingested event).bind (·.2.toOption) := fun _ => rfl
    rw [Clients.mem_everyone, Clients.own_eq_filterMap sees, own]
    exact List.mem_singleton_self _
  refine ⟨own,
    fun client outcome returned success => bound _ (mem client outcome returned success),
    fun client client' outcome outcome' returned returned' success success' other same => ?_⟩
  have differ : (clients.everyone recorded).Pairwise fun entry later => entry.2 ≠ later.2 :=
    grow.imp fun lt => lt.ne
  have : Std.Symm fun entry later : ClientId × ℕ => entry.2 ≠ later.2 := ⟨fun _ _ => Ne.symm⟩
  have entries : (client, outcome.worldRevision) ≠ (client', outcome'.worldRevision) :=
    fun same => other (Prod.mk.inj same).1
  exact differ.forall (mem client outcome returned success)
    (mem client' outcome' returned' success') entries same

/-- **Revisions are real** if and only if no task that has returned had an execution of which
the world state does not record an observation. -/
theorem real_iff (engine : PipelineEngine) (tasks : ClientId → PipelineTask)
    (schedule : List ClientId) :
    let clients := engine.runTasks tasks schedule
    Real clients ↔
      ∀ client outcome, clients.rest client = .done outcome →
        ∀ request resp, (request, .ok resp) ∈ clients.own execution client →
          Recordable (tasks client).req resp := by
  intro clients
  constructor
  · intro real client outcome returned
    exact (account_of_returned returned).reports_iff.mp (real.own client outcome returned)
  · intro recordable
    refine real_of_own fun client outcome returned => ?_
    exact (account_of_returned returned).reports_iff.mpr (recordable client outcome returned)

omit [Rounding] [Formatter] [Md5] in
/-- A request whose name is not an identifier reports a revision that nothing was recorded
at. -/
theorem not_real :
    letI := Rounding.nearestEven
    letI := Formatter.idle
    letI := Md5.known [("req 1-genesis-backend-1", "4ee4ef4d46fec70fb46811abd6de058c")]
    ¬ ∀ (engine : PipelineEngine) (tasks : ClientId → PipelineTask) (schedule : List ClientId),
      Real (engine.runTasks tasks schedule) := by
  let _ := Rounding.nearestEven
  let _ := Formatter.idle
  let _ := Md5.known [("req 1-genesis-backend-1", "4ee4ef4d46fec70fb46811abd6de058c")]
  intro always
  let task : PipelineTask :=
    { env := setupEnvironment [.none] 0
      req := { setupRequest with requestId := "req 1" }
      transport := DeterministicTransport.transport ⟨true, 100⟩
      kvTransport := none }
  obtain ⟨returned, state, -⟩ := runTasks_alone setupEngine (fun _ => task) 0
  have bound := (always setupEngine (fun _ => task) _).bound 0 _ returned (by decide +kernel)
  rw [state] at bound
  exact absurd bound (by decide +kernel)

/-! ## Samples -/

omit [Formatter] [Md5] in
/-- What a successful execution tells about the latencies of its backend. -/
def samples : PipelineEvent → List (String × F64)
  | ⟨.execute _ request, .ok resp⟩ =>
      if resp.success then
        (request.backendId ++ "-e2e", F64.ofU64 resp.latencyMs) ::
          (resp.ttftMs.map fun ttft => (request.backendId ++ "-ttft", F64.ofU64 ttft)).toList
      else []
  | _ => []

/-- These samples have been observed by the predictions, and they are those of the successful
executions: each at most once, and those of the tasks that have returned exactly once. -/
structure Observed (engine : PipelineEngine)
    (clients : Clients pipelineInterface PipelineEngine PipelineOutcome)
    (observed : List (String × F64)) : Prop where
  atLeast : ((clients.log.filter fun entry => (clients.rest entry.1).isDone).flatMap
    fun entry => samples entry.2).Subperm observed
  atMost : observed.Subperm (clients.log.flatMap fun entry => samples entry.2)
  trackers : ∀ key, clients.state.predictionEngine.tracker key =
    (engine.predictionEngine.observeAll observed).tracker key

/-- Enough samples of the latency of a backend have been observed. -/
def Enough (clients : Clients pipelineInterface PipelineEngine PipelineOutcome)
    (observed : List (String × F64)) (backend : String) : Prop :=
  (clients.state.predictionEngine.tracker (backend ++ "-e2e")).minSamples ≤
    (observed.filter (·.1 = backend ++ "-e2e")).length

/-- The mean of the latencies of a backend. -/
def meanLatency (clients : Clients pipelineInterface PipelineEngine PipelineOutcome)
    (backend : String) : UInt64 :=
  (clients.state.predictionEngine.tracker (backend ++ "-e2e")).mean.toU64

/-- The predictions are fed by the executions, and tell on the candidates. -/
structure Learns (engine : PipelineEngine)
    (clients : Clients pipelineInterface PipelineEngine PipelineOutcome)
    (observed : List (String × F64)) : Prop extends Observed engine clients observed where
  predicted : ∀ (placement : Placement) (req : PipelineRequest),
    Enough clients observed placement.backend →
      (placement.estimate clients.state req).predictedE2e =
        .predicted (meanLatency clients placement.backend)
  rejects : ∀ (placement : Placement) (env : PipelineEnvironment) (req : PipelineRequest),
    Enough clients observed placement.backend →
      ((∃ max ∈ req.maxE2eMs, max < meanLatency clients placement.backend) ∨
        clients.state.firewall.config.maxE2e < meanLatency clients placement.backend) →
      ¬ placement.Passes clients.state env req

variable {observed : List (String × F64)}

omit [Formatter] [Md5] in
theorem counts_of_mem_samples (finite : ∀ n : UInt64, (F64.ofU64 n).isFinite = true)
    {event : PipelineEvent} {sample : String × F64} (mem : sample ∈ samples event) :
    EwmaTracker.Counts sample.2 := by
  have counts : ∀ n : UInt64, EwmaTracker.Counts (F64.ofU64 n) := fun n =>
    ⟨finite n, F64.notNeg_round (Nat.cast_nonneg _)⟩
  unfold samples at mem
  split at mem
  · split_ifs at mem
    · rcases List.mem_cons.mp mem with rfl | mem
      · exact counts _
      · obtain ⟨ttft, -, rfl⟩ := Option.map_eq_some_iff.mp (Option.mem_toList.mp mem)
        exact counts _
    · cases mem
  · cases mem

omit [Formatter] [Md5] in
/-- What has been observed shows in the number of samples of the tracker. -/
theorem Observed.sampleCount {engine : PipelineEngine}
    {clients : Clients pipelineInterface PipelineEngine PipelineOutcome}
    (finite : ∀ n : UInt64, (F64.ofU64 n).isFinite = true)
    (fed : Observed engine clients observed) (key : String) :
    (clients.state.predictionEngine.tracker key).sampleCount =
      (engine.predictionEngine.tracker key).sampleCount +
        (observed.filter (·.1 = key)).length := by
  rw [fed.trackers, PredictionEngine.tracker_observeAll, EwmaTracker.sampleCount_updateAll,
    List.countP_eq_length.mpr, List.length_map]
  intro value isValue
  obtain ⟨sample, mem, rfl⟩ := List.mem_map.mp isValue
  obtain ⟨entry, -, sampled⟩ :=
    List.mem_flatMap.mp (fed.atMost.subset (List.mem_of_mem_filter mem))
  exact decide_eq_true (counts_of_mem_samples finite sampled)

omit [Formatter] [Md5] in
/-- What has been observed tells on the candidates. -/
theorem Observed.learns {engine : PipelineEngine}
    {clients : Clients pipelineInterface PipelineEngine PipelineOutcome}
    (finite : ∀ n : UInt64, (F64.ofU64 n).isFinite = true)
    (fed : Observed engine clients observed) : Learns engine clients observed := by
  have predicted : ∀ (placement : Placement) (req : PipelineRequest),
      Enough clients observed placement.backend →
        (placement.estimate clients.state req).predictedE2e =
          .predicted (meanLatency clients placement.backend) := by
    intro placement req enough
    have counted := fed.sampleCount finite (placement.backend ++ "-e2e")
    have reached := enough.trans ((Nat.le_add_left _ _).trans_eq counted.symm)
    obtain ⟨prediction, predicts, mean⟩ :=
      EwmaTracker.predict_of_le reached clients.state.worldStateManager.state.revision
    rw [← PredictionEngine.predict_eq] at predicts
    show OperationalValue.ofPrediction (clients.state.predictionEngine.predict _ _) = _
    rw [predicts, OperationalValue.ofPrediction, mean, meanLatency]
  refine { fed with predicted, rejects := fun placement env req enough above passes => ?_ }
  have value : (placement.estimate clients.state req).predictedE2e.value =
      some (meanLatency clients placement.backend) := by
    rw [predicted placement req enough]
    rfl
  rcases above with ⟨max, given, above⟩ | above
  · exact UInt64.not_lt.mpr (passes.e2e max given _ value) above
  · obtain ⟨-, -, -, -, -, e2e, -⟩ :=
      DecisionFirewall.evaluateCandidate_eq_approved_iff.mp passes.approved
    exact OperationalValue.exceeds_eq_false_iff.mp e2e _ value above

/-- What has been learnt from a successful execution is nothing. -/
theorem Learns.success_eq_false (finite : ∀ n : UInt64, (F64.ofU64 n).isFinite = true)
    {request : TransportRequest} {resp : TransportResponse}
    (learns : Learns engine (engine.runTasks tasks schedule) observed)
    (returned : (engine.runTasks tasks schedule).rest client = .done outcome)
    (mem : (request, .ok resp) ∈ (engine.runTasks tasks schedule).own execution client) :
    resp.success = false := by
  by_contra success
  have success : resp.success = true := Bool.eq_true_of_not_eq_false success
  obtain ⟨entry, logged, isOwn⟩ := List.mem_filterMap.mp mem
  obtain ⟨owner, event⟩ := entry
  split_ifs at isOwn with own
  obtain rfl : owner = client := own
  obtain ⟨transport, rfl⟩ := eq_of_execution isOwn
  have sampled : (request.backendId ++ "-e2e", F64.ofU64 resp.latencyMs) ∈ observed := by
    refine learns.atLeast.subset (List.mem_flatMap.mpr ⟨_, List.mem_filter.mpr ⟨logged, ?_⟩, ?_⟩)
    · exact isDone_iff.mpr ⟨outcome, returned⟩
    · simp [samples, success]
  -- a sample would show in the tracker, which is what it was at the start
  have counted := learns.sampleCount finite (request.backendId ++ "-e2e")
  rw [(unchanged_runTasks engine tasks schedule).1, left_eq_add, List.length_eq_zero_iff,
    List.filter_eq_nil_iff] at counted
  exact counted _ sampled (decide_eq_true rfl)

/-- **The predictions learn from the executions** if and only if there is nothing to learn:
no task that has returned had a successful execution. -/
theorem learns_iff (finite : ∀ n : UInt64, (F64.ofU64 n).isFinite = true)
    (engine : PipelineEngine) (tasks : ClientId → PipelineTask) (schedule : List ClientId) :
    let clients := engine.runTasks tasks schedule
    (∃ observed, Learns engine clients observed) ↔
      ∀ client outcome, clients.rest client = .done outcome →
        ∀ request resp, (request, .ok resp) ∈ clients.own execution client →
          resp.success = false := by
  intro clients
  constructor
  · rintro ⟨observed, learns⟩ client outcome returned request resp mem
    exact learns.success_eq_false finite returned mem
  · intro nothing
    have none : (clients.log.filter fun entry => (clients.rest entry.1).isDone).flatMap
        (fun entry => samples entry.2) = [] := by
      refine List.flatMap_eq_nil_iff.mpr fun entry mem => ?_
      obtain ⟨logged, ended⟩ := List.mem_filter.mp mem
      obtain ⟨outcome, returned⟩ := isDone_iff.mp ended
      obtain ⟨client, event⟩ := entry
      unfold samples
      split
      next event' transport request resp isExecution =>
          obtain rfl : event = ⟨.execute transport request, .ok resp⟩ := isExecution
          have executed : (request, .ok resp) ∈ clients.own execution client :=
            List.mem_filterMap.mpr ⟨_, logged, if_pos rfl⟩
          rw [nothing client outcome returned request resp executed]
          rfl
      next => rfl
    refine ⟨[], Observed.learns finite ⟨?_, List.nil_subperm, fun key => ?_⟩⟩
    · rw [none]
    · rw [(unchanged_runTasks engine tasks schedule).1]
      rfl

omit [Rounding] [Formatter] [Md5] in
/-- A task whose execution fails leaves nothing to learn. -/
theorem learns_iff_setupEngine :
    letI := Rounding.nearestEven
    letI := Formatter.idle
    letI := Md5.ofFirstRecord
    let task : PipelineTask :=
      { env := setupEnvironment [.none] 0
        req := setupRequest
        transport := DeterministicTransport.transport ⟨false, 100⟩
        kvTransport := none }
    let clients := setupEngine.runTasks (fun _ => task) (List.replicate 9 0)
    (clients.rest 0).isDone = true ∧ ∃ observed, Learns setupEngine clients observed := by
  let _ := Rounding.nearestEven
  let _ := Formatter.idle
  let _ := Md5.ofFirstRecord
  intro task clients
  refine ⟨by decide +kernel, ?_⟩
  refine (learns_iff Rounding.isFinite_ofU64_nearestEven setupEngine (fun _ => task) _).mpr
    fun client outcome returned request resp mem => ?_
  have failures : clients.log.all (fun entry =>
      (execution entry.2).all fun executed => executed.2.toOption.isNone) = true := by
    decide +kernel
  obtain ⟨entry, logged, isOwn⟩ := List.mem_filterMap.mp mem
  split_ifs at isOwn
  have failed := List.all_eq_true.mp failures entry logged
  rw [isOwn] at failed
  cases failed

omit [Rounding] [Formatter] [Md5] in
/-- The latency of a successful execution is not observed. -/
theorem not_learns :
    letI := Rounding.nearestEven
    letI := Formatter.idle
    letI := Md5.ofFirstRecord
    ¬ ∀ (engine : PipelineEngine) (tasks : ClientId → PipelineTask) (schedule : List ClientId),
      ∃ observed, Learns engine (engine.runTasks tasks schedule) observed := by
  let _ := Rounding.nearestEven
  let _ := Formatter.idle
  let _ := Md5.ofFirstRecord
  intro always
  let task : PipelineTask :=
    { env := setupEnvironment [.none] 0
      req := setupRequest
      transport := DeterministicTransport.transport ⟨true, 100⟩
      kvTransport := none }
  obtain ⟨returned, -, log⟩ := runTasks_alone setupEngine (fun _ => task) 0
  obtain ⟨observed, learns⟩ := always setupEngine (fun _ => task) _
  have successes : ((setupEngine.processRequest (setupEnvironment [.none] 0) setupRequest
      (DeterministicTransport.transport ⟨true, 100⟩) none).events.filterMap execution).map
        (fun entry => entry.2.toOption.map (·.success)) = [some true] := by decide +kernel
  obtain ⟨⟨request, answer⟩, mem, success⟩ :=
    List.mem_map.mp (successes.symm ▸ List.mem_singleton_self (some true))
  cases answer with
  | error error => cases success
  | ok resp =>
      have failed := learns.success_eq_false Rounding.isFinite_ofU64_nearestEven returned
        (own_of_log_eq log ▸ mem)
      cases failed.symm.trans (Option.some.inj success)

end

end TrustRouter
