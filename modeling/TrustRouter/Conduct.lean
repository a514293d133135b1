import TrustRouter.Dispatch

/-!
# Calls among others

Any number of requests are processed on one engine at a time, and between two calls that one
of them makes on a component any others may be served.  A `PipelineTask` is one request with
the transports and the environment it comes with, and a run is a schedule of such tasks.

What a task does depends on the others only through the answers it gets.  `Conduct` lists the
calls, other than those that only read, that a task has made when it returns, with its
outcome: whatever was answered, it is one of a few lists (`ensures_conduct`), so every task of
every run has conducted itself so when it has returned (`conduct_of_returned`).
-/

namespace TrustRouter

open Program

/-- A request, with what it is processed with. -/
structure PipelineTask where
  env : PipelineEnvironment
  req : PipelineRequest
  transport : InferenceTransport
  kvTransport : Option KvTransport

section

variable [Rounding] [Formatter] [Md5]

/-- Tasks on one engine, none of which has begun. -/
def PipelineEngine.start (engine : PipelineEngine) (tasks : ClientId → PipelineTask) :
    Clients pipelineInterface PipelineEngine PipelineOutcome :=
  .start engine fun client =>
    (tasks client).req.processRequest (tasks client).transport (tasks client).kvTransport

omit [Formatter] in
/-- Each task is served in its environment. -/
def PipelineEngine.serveTasks (tasks : ClientId → PipelineTask) :
    ClientId → Server pipelineInterface PipelineEngine :=
  fun client => PipelineEngine.serve (tasks client).env

/-- Tasks on one engine, served in the order of a schedule. -/
def PipelineEngine.runTasks (engine : PipelineEngine) (tasks : ClientId → PipelineTask)
    (schedule : List ClientId) : Clients pipelineInterface PipelineEngine PipelineOutcome :=
  run (Clients.step (PipelineEngine.serveTasks tasks)) (engine.start tasks) schedule

end

/-! ## What is known of an answer -/

/-- What holds of an answer, whatever the state of the engine. -/
def PipelineEvent.Sound : PipelineEvent → Prop
  | ⟨.admitTenant tenant, .ok permit⟩ =>
      permit.tenant = tenant ∧ isIdentifier tenant = true
  | ⟨.evaluateCandidate candidate _ _, .approved⟩ =>
      ∃ max : F64, max.isFinite = true ∧ ∀ v ∈ candidate.predictedCost.value, ¬ max < v
  | ⟨.transfer kvTransport source dest, answer⟩ => answer = kvTransport.transfer source dest
  | ⟨.execute transport request, answer⟩ => answer = transport.execute request
  | ⟨.ingest obs, answer⟩ => (∃ revision, answer = .ok revision) ↔ obs.validate = .ok ()
  | _ => True

theorem WorldStateManager.exists_ingest_eq_ok_iff {manager : WorldStateManager}
    {obs : InferenceObservation} {now : SystemTime} :
    (∃ revision, (manager.ingest obs now).1 = .ok revision) ↔ obs.validate = .ok () := by
  unfold ingest
  cases obs.validate <;> simp

section

variable [Rounding] [Md5] {engine : PipelineEngine} {env : PipelineEnvironment} {tenant : String}

theorem PipelineEngine.serve_admitTenant_of_error {error : AdmissionError}
    (refused : engine.admissionController.admitTenant tenant = .error error) :
    engine.serve env (.admitTenant tenant) = (.error error, engine) := by
  simp only [serve, refused]

theorem PipelineEngine.serve_admitTenant_of_ok {permit : AdmissionPermit}
    {controller : AdmissionController}
    (admitted : engine.admissionController.admitTenant tenant = .ok (permit, controller)) :
    engine.serve env (.admitTenant tenant) =
      (.ok permit, { engine with admissionController := controller }) := by
  simp only [serve, admitted]

/-- What is admitted or refused is no matter of the other components. -/
theorem PipelineEngine.exists_serve_admitTenant (engine : PipelineEngine)
    (env : PipelineEnvironment) (tenant : String) :
    ∃ controller, (engine.serve env (.admitTenant tenant)).2 =
      { engine with admissionController := controller } := by
  cases admitted : engine.admissionController.admitTenant tenant with
  | error error => exact ⟨_, congrArg Prod.snd (serve_admitTenant_of_error admitted)⟩
  | ok granted => exact ⟨_, congrArg Prod.snd (serve_admitTenant_of_ok admitted)⟩

theorem PipelineEngine.sound_serve (engine : PipelineEngine) (env : PipelineEnvironment)
    (call : PipelineCall) : PipelineEvent.Sound ⟨call, (engine.serve env call).1⟩ := by
  cases call with
  | admitTenant tenant =>
      cases admitted : engine.admissionController.admitTenant tenant with
      | error error =>
          rw [serve_admitTenant_of_error admitted]
          exact trivial
      | ok granted =>
          obtain ⟨permit, controller⟩ := granted
          obtain ⟨named, -, -, own, -⟩ := AdmissionController.admitTenant_eq_ok admitted
          rw [serve_admitTenant_of_ok admitted]
          exact ⟨congrArg AdmissionPermit.tenant own, named⟩
  | evaluateCandidate candidate worldState confidence =>
      show PipelineEvent.Sound ⟨.evaluateCandidate candidate worldState confidence,
        engine.firewall.evaluateCandidate candidate worldState confidence
          (env.clock (.firewall candidate.candidateId))⟩
      cases decision : engine.firewall.evaluateCandidate candidate worldState confidence
          (env.clock (.firewall candidate.candidateId)) with
      | rejected reason => exact trivial
      | approved =>
          obtain ⟨valid, -, -, -, -, -, -, cost, -⟩ :=
            DecisionFirewall.evaluateCandidate_eq_approved_iff.mp decision
          exact ⟨_, UtilityConfig.isFinite_maxCost valid,
            OperationalValue.exceeds_eq_false_iff.mp cost⟩
  | transfer | execute => rfl
  | ingest obs => exact WorldStateManager.exists_ingest_eq_ok_iff
  | release | snapshot | fetchRegistry | fetchCapacity | predict | append | now | record =>
      exact trivial

end

/-- Every call can be answered. -/
theorem PipelineEvent.exists_sound (call : PipelineCall) :
    ∃ answer, PipelineEvent.Sound ⟨call, answer⟩ := by
  let _ := Rounding.exact
  let _ : Md5 := ⟨id⟩
  have engine : PipelineEngine := .new (.new 0 0) default
  exact ⟨_, engine.sound_serve ⟨fun _ => 0, .ok default, .ok default⟩ call⟩

/-! ## What a task does -/

/-- A call other than those that only read. -/
def shown (event : PipelineEvent) : Option PipelineEvent :=
  match event.call with
  | .snapshot | .fetchRegistry | .fetchCapacity | .predict _ _ | .evaluateCandidate _ _ _ => none
  | _ => some event

theorem execution_eq_bind_shown (event : PipelineEvent) :
    execution event = (shown event).bind execution := by
  obtain ⟨call, answer⟩ := event
  cases call <;> rfl

theorem reads_or_shown_eq_some (event : PipelineEvent) :
    event.call.Reads ∨ shown event = some event := by
  obtain ⟨call, answer⟩ := event
  cases call <;> first | exact .inl trivial | exact .inr rfl

section

variable [Rounding]

/-- What is known of the candidate that is selected. -/
structure Selection.Vetted (selection : Selection) : Prop where
  backend : isIdentifier selection.candidate.backendId = true
  cost : (selection.candidate.predictedCost.value.getD (.finite 0)).isNonNegative = true

/-- The calls for a candidate that has been selected, with the outcome. -/
inductive Handled (task : PipelineTask) (selection : Selection) :
    List PipelineEvent → PipelineOutcome → Prop
  | kvFailed {kv : KvTransport} {error : FabricError} {traceReason reason : String} :
      Handled task selection
        [⟨.transfer kv task.req.sourceNode selection.candidate.computeNodeId, .error error⟩]
        (task.req.failure selection traceReason reason)
  | transportFailed {moves : List PipelineEvent} {error : FabricError}
      {traceReason reason : String} :
      Moved task.req task.kvTransport selection moves →
      Handled task selection
        (moves ++ [⟨.execute task.transport (task.req.transportRequest selection), .error error⟩])
        (task.req.failure selection traceReason reason)
  | executed {moves : List PipelineEvent} {resp : TransportResponse} {now : SystemTime}
      {recorded : Except IntelligenceError ℕ} :
      Moved task.req task.kvTransport selection moves →
      ((∃ revision, recorded = .ok revision) ↔
        (task.req.observation selection resp now).validate = .ok ()) →
      Handled task selection
        (moves ++ ⟨.execute task.transport (task.req.transportRequest selection), .ok resp⟩ ::
          feedbackEvents task.req selection resp now recorded)
        (task.req.completion selection resp
          (recorded.toOption.getD (selection.worldState.revision + 1)))

/-- The calls of a task that has returned, with its outcome. -/
inductive Conduct (task : PipelineTask) : List PipelineEvent → PipelineOutcome → Prop
  | unauthenticated {outcome : PipelineOutcome} : task.req.Unselected outcome →
      Conduct task [] outcome
  | refused {error : AdmissionError} {outcome : PipelineOutcome} : task.req.Unselected outcome →
      Conduct task [⟨.admitTenant task.req.tenantId, .error error⟩] outcome
  | rejected {permit : AdmissionPermit} {outcome : PipelineOutcome} :
      permit.tenant = task.req.tenantId → task.req.Unselected outcome →
      Conduct task [⟨.admitTenant task.req.tenantId, .ok permit⟩, ⟨.release permit, ()⟩] outcome
  | selected {permit : AdmissionPermit} {selection : Selection} {events : List PipelineEvent}
      {outcome : PipelineOutcome} :
      permit.tenant = task.req.tenantId → isIdentifier task.req.tenantId = true →
      selection.Vetted → Handled task selection events outcome →
      Conduct task
        (⟨.admitTenant task.req.tenantId, .ok permit⟩ :: events ++ [⟨.release permit, ()⟩])
        outcome

/-! ### The selection -/

namespace PipelineRequest

variable {req : PipelineRequest} {past : List PipelineEvent}

/-- A candidate as it is generated. -/
def Offered (req : PipelineRequest) (c : CounterfactualEstimate × KvAction) : Prop :=
  ∃ backend node strategy ttft e2e, isIdentifier backend = true ∧
    c = (req.estimate backend node strategy ttft e2e, req.kvDecision.1)

theorem ensures_generateCandidates (backends : BackendRegistry) (nodes : List ComputeNode)
    (revision : ℕ) :
    (req.generateCandidates backends nodes revision).Ensures PipelineEvent.Sound shown
      (fun past' found => past' = past ∧ ∀ c ∈ found, req.Offered c) past := by
  refine .collect fun backend registered => .collect fun node _ => .collect fun strategy _ => ?_
  rintro ttft - e2e -
  refine ⟨by simp [shown], fun c mem => ?_⟩
  obtain rfl := List.mem_singleton.mp mem
  exact ⟨backend, node, strategy, _, _, BackendRegistry.isIdentifier_of_mem registered, rfl⟩

/-- What is approved of a candidate that is offered. -/
theorem ensures_checkCandidate [Formatter] (worldState : WorldState)
    {candidate : CounterfactualEstimate × KvAction} (offered : req.Offered candidate) :
    (req.checkCandidate worldState candidate).Ensures PipelineEvent.Sound shown
      (fun past' found => past' = past ∧ ∀ verdict ∈ found, ∀ c, verdict = .ok c →
        req.Offered c ∧ ∃ max : F64, max.isFinite = true ∧ ∀ v ∈ c.1.predictedCost.value, ¬ max < v)
      past := by
  unfold checkCandidate
  split
  · exact ⟨rfl, by simp⟩
  · intro decision sound
    cases decision with
    | rejected reason => exact ⟨by simp [shown], by simp⟩
    | approved =>
        refine ⟨by simp [shown], fun verdict mem c valid => ?_⟩
        obtain rfl := List.mem_singleton.mp mem
        obtain rfl := Except.ok.inj valid
        exact ⟨offered, sound⟩

/-- A cost that is no more than a finite limit, and is a literal that is not negative. -/
theorem isNonNegative_of_not_lt {max : F64} (finite : max.isFinite = true) {q : ℚ} (nonneg : 0 ≤ q)
    (notAbove : ¬ max < F64.ofRat q) : (F64.ofRat q).isNonNegative = true := by
  obtain ⟨m, rfl⟩ := F64.isFinite_iff.mp finite
  have notNan := F64.ofRat_ne_nan q
  unfold F64.ofRat at notAbove notNan ⊢
  rcases (F64.notNeg_round nonneg).cases with value | value | ⟨a, value, le⟩
  · exact absurd value notNan
  · exact absurd (F64.finite_lt_posInf m) (value ▸ notAbove)
  · simp [value, F64.isNonNegative, le]

/-- What is selected is vetted. -/
theorem vetted_of_choose {worldState : WorldState} {selection : Selection}
    {verdicts : List (Except TraceRejection (CounterfactualEstimate × KvAction))}
    (every : ∀ verdict ∈ verdicts, ∀ c, verdict = .ok c → req.Offered c ∧
      ∃ max : F64, max.isFinite = true ∧ ∀ v ∈ c.1.predictedCost.value, ¬ max < v)
    (chosen : req.choose worldState verdicts = .ok selection) : selection.Vetted := by
  have uniform : ∀ c, .ok c ∈ verdicts → c.1.feasible = true ∧ c.2 = req.kvDecision.1 := by
    intro c mem
    obtain ⟨⟨_, _, _, _, _, -, rfl⟩, -⟩ := every _ mem c rfl
    exact ⟨rfl, rfl⟩
  obtain ⟨-, -, ⟨c, mem, candidate⟩, -⟩ := choose_eq_ok uniform chosen
  obtain ⟨⟨backend, node, strategy, ttft, e2e, registered, rfl⟩, max, finite, cost⟩ :=
    every _ mem c rfl
  constructor
  · rw [candidate]
    exact registered
  · rw [candidate]
    exact isNonNegative_of_not_lt finite (by norm_num) (cost _ rfl)

/-- The stages up to the ranking come to a rejection, or to a candidate that is vetted. -/
theorem ensures_select [Formatter] :
    req.select.Ensures PipelineEvent.Sound shown
      (fun past' result => past' = past ∧
        ((∃ outcome, result = .error outcome ∧ req.Unselected outcome) ∨
          ∃ selection, result = .ok selection ∧ selection.Vetted)) past := by
  intro snapshot _
  cases snapshot with
  | error error => exact ⟨by simp [shown], .inl ⟨_, rfl, _, _, _, _, rfl⟩⟩
  | ok worldState =>
      simp only [done_bind]
      split
      · exact ⟨by simp [shown], .inl ⟨_, rfl, _, _, _, _, rfl⟩⟩
      · intro registry _ capacity _
        simp only [done_bind]
        split
        · exact ⟨by simp [shown], .inl ⟨_, rfl, _, _, _, _, rfl⟩⟩
        · refine ensures_bind.mpr ((ensures_generateCandidates _ _ _).mono ?_)
          rintro _ candidates ⟨rfl, offered⟩
          refine ensures_bind.mpr ((Ensures.collect fun candidate mem =>
            ensures_checkCandidate _ (offered candidate ((mem_sortBy _).mp mem))).mono ?_)
          rintro _ verdicts ⟨rfl, every⟩
          refine ⟨by simp [shown], ?_⟩
          cases chosen : req.choose worldState verdicts with
          | error outcome => exact .inl ⟨outcome, rfl, (choose_eq_error chosen).2⟩
          | ok selection => exact .inr ⟨selection, rfl, vetted_of_choose every chosen⟩

end PipelineRequest

/-! ### After the selection -/

variable {task : PipelineTask} {selection : Selection} {past : List PipelineEvent}

/-- The transport is asked once, whatever was moved before. -/
theorem ensures_execute [Formatter] (past : List PipelineEvent) {moves : List PipelineEvent}
    (moved : Moved task.req task.kvTransport selection moves) :
    (task.req.execute task.transport selection).Ensures PipelineEvent.Sound shown
      (fun past' outcome => ∃ events, past' = past ++ events ∧
        Handled task selection events outcome) (past ++ moves) := by
  intro answer _
  cases answer with
  | error error => exact ⟨_, List.append_assoc .., .transportFailed moved⟩
  | ok resp =>
      intro _ _ now _ recorded sound _ _
      have valid : (∃ revision, recorded = .ok revision) ↔
          (task.req.observation selection resp now).validate = .ok () := sound
      exact ⟨_, by simp [shown, feedbackEvents], .executed moved valid⟩

theorem ensures_dispatch [Formatter] :
    (task.req.dispatch task.transport task.kvTransport selection).Ensures PipelineEvent.Sound
      shown (fun past' outcome => ∃ events, past' = past ++ events ∧
        Handled task selection events outcome) past := by
  unfold PipelineRequest.dispatch
  split
  case h_1 kv toTransfer given =>
    intro answer sound
    cases answer with
    | error error => exact ⟨_, rfl, .kvFailed⟩
    | ok _ => exact ensures_execute past (.transferred toTransfer given sound.symm)
  case h_2 noTransfer =>
    have moved : Moved task.req task.kvTransport selection [] :=
      .nothing fun toTransfer =>
        Option.eq_none_iff_forall_ne_some.mpr fun kv given => noTransfer kv toTransfer given
    have ensures := ensures_execute past moved
    rwa [List.append_nil] at ensures

/-- **What a task has done when it returns**, whatever it was answered. -/
theorem ensures_conduct [Formatter] (task : PipelineTask) :
    (task.req.processRequest task.transport task.kvTransport).Ensures PipelineEvent.Sound shown
      (Conduct task) [] := by
  unfold PipelineRequest.processRequest
  split
  · exact .unauthenticated ⟨_, _, _, _, rfl⟩
  · intro answer sound
    cases answer with
    | error error => exact .refused ⟨_, _, _, _, rfl⟩
    | ok permit =>
        obtain ⟨own, named⟩ := sound
        simp only [done_bind, PipelineRequest.admitted, bind_eq_bind, ensures_bind]
        refine PipelineRequest.ensures_select.mono ?_
        rintro _ result ⟨rfl, ⟨outcome, rfl, unselected⟩ | ⟨selection, rfl, vetted⟩⟩
        · exact fun _ _ => .rejected own unselected
        · refine ensures_dispatch.mono ?_
          rintro _ outcome ⟨events, rfl, handled⟩ _ _
          exact .selected own named vetted handled

end

/-! ## Tasks in a run -/

/-- No task is under way: those that have begun have returned. -/
def Idle (clients : Clients pipelineInterface PipelineEngine PipelineOutcome) : Prop :=
  ∀ client, clients.own shown client ≠ [] → ∃ outcome, clients.rest client = .done outcome

section

variable [Rounding] [Formatter] [Md5]
variable {engine : PipelineEngine} {tasks : ClientId → PipelineTask} {schedule : List ClientId}
variable {client : ClientId} {outcome : PipelineOutcome}

theorem ensures_runTasks (engine : PipelineEngine) (tasks : ClientId → PipelineTask)
    (schedule : List ClientId) (client : ClientId) :
    ((engine.runTasks tasks schedule).rest client).Ensures PipelineEvent.Sound shown
      (Conduct (tasks client)) ((engine.runTasks tasks schedule).own shown client) := by
  refine Clients.ensures_rest (fun client => ensures_conduct (tasks client))
    (allSteps_of_forall (fun clients client event isNext => ?_) schedule) client
  unfold Clients.next at isNext
  cases goesOn : clients.rest client with
  | done outcome => simp [goesOn] at isNext
  | call call next =>
      rw [goesOn] at isNext
      obtain rfl := Option.some.inj isNext
      exact PipelineEngine.sound_serve clients.state (tasks client).env call

/-- **What a task has done that has returned**, whatever the others have done meanwhile. -/
theorem conduct_of_returned
    (returned : (engine.runTasks tasks schedule).rest client = .done outcome) :
    Conduct (tasks client) ((engine.runTasks tasks schedule).own shown client) outcome := by
  have ensures := ensures_runTasks engine tasks schedule client
  rwa [returned] at ensures

/-- What no task changes. -/
theorem unchanged_runTasks (engine : PipelineEngine) (tasks : ClientId → PipelineTask)
    (schedule : List ClientId) :
    let state := (engine.runTasks tasks schedule).state
    state.predictionEngine = engine.predictionEngine ∧ state.firewall = engine.firewall := by
  refine Clients.log_induction (P := fun (state : PipelineEngine) _ =>
    state.predictionEngine = engine.predictionEngine ∧ state.firewall = engine.firewall)
    ⟨rfl, rfl⟩ (fun client state _ call same => ?_) schedule
  cases call with
  | admitTenant tenant =>
      obtain ⟨controller, admits⟩ := state.exists_serve_admitTenant (tasks client).env tenant
      rw [PipelineEngine.serveTasks, admits]
      exact same
  | _ => exact same

/-- A task that is served while no other is. -/
theorem runTasks_alone (engine : PipelineEngine) (tasks : ClientId → PipelineTask)
    (client : ClientId) :
    let task := tasks client
    let played := engine.processRequest task.env task.req task.transport task.kvTransport
    let clients := engine.runTasks tasks (List.replicate played.events.length client)
    clients.rest client = .done played.result ∧ clients.state = played.state ∧
      clients.log = played.events.map (Prod.mk client) := by
  intro task played clients
  have alone : clients = _ :=
    Clients.play_eq_run (engine.start tasks) client
  rw [alone]
  exact ⟨Function.update_self .., rfl, rfl⟩

omit [Rounding] [Formatter] [Md5] in
theorem own_of_log_eq {clients : Clients pipelineInterface PipelineEngine PipelineOutcome}
    {events : List PipelineEvent} {κ : Type} {visible : PipelineEvent → Option κ}
    (alone : clients.log = events.map (Prod.mk client)) :
    clients.own visible client = events.filterMap visible := by
  simp [Clients.own, alone, List.filterMap_map]

end

end TrustRouter
