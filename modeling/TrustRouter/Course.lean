import TrustRouter.Placement

/-!
# The course of a call

`PipelineEngine.processRequest` is a call of the pipeline while nobody else is served.  It
takes one of few courses (`Course`): it is turned away before a candidate is selected, or it
reaches a placement, and from there it fails at one of the transports or is executed
(`Dispatched`).  Each course lists the calls that are made, says what becomes of the engine,
and under which condition it is taken, so that what holds of a call is a matter of cases.
-/

namespace TrustRouter

open Program

/-- A call on a component, with its answer. -/
abbrev PipelineEvent := pipelineInterface.Event

section

variable [Rounding] [Formatter] [Md5]

/-- `process_request`, while nobody else is served. -/
def PipelineEngine.processRequest (engine : PipelineEngine) (env : PipelineEnvironment)
    (req : PipelineRequest) (transport : InferenceTransport) (kvTransport : Option KvTransport) :
    Played pipelineInterface PipelineEngine PipelineOutcome :=
  (req.processRequest transport kvTransport).play (PipelineEngine.serve env) engine

end

/-! ## After the selection -/

section Dispatched

variable [Rounding] [Formatter] [Md5]

/-- What is left of an execution in the engine. -/
def PipelineEngine.afterExecution (engine : PipelineEngine) (env : PipelineEnvironment)
    (req : PipelineRequest) (selection : Selection) (resp : TransportResponse) :
    PipelineEngine :=
  { engine with
    auditChain :=
      engine.auditChain.append req.requestId selection.candidate.backendId
        selection.worldState.revision (env.clock .append)
    worldStateManager :=
      (engine.worldStateManager.ingest (req.observation selection resp (env.clock .observation))
        (env.clock .ingest)).2
    predictionTracker := engine.predictionTracker.record (req.predictionError selection resp) }

/-- The calls of the feedback. -/
def feedbackEvents (req : PipelineRequest) (selection : Selection) (resp : TransportResponse)
    (now : SystemTime) (recorded : Except IntelligenceError ℕ) : List PipelineEvent :=
  [⟨.append req.requestId selection.candidate.backendId selection.worldState.revision, ()⟩,
    ⟨.now, now⟩, ⟨.ingest (req.observation selection resp now), recorded⟩,
    ⟨.record (req.predictionError selection resp), ()⟩]

/-- The calls made on the transport for key-value caches before an execution. -/
inductive Moved (req : PipelineRequest) (kvTransport : Option KvTransport)
    (selection : Selection) : List PipelineEvent → Prop
  | nothing : (selection.kvAction = .transfer → kvTransport = none) →
      Moved req kvTransport selection []
  | transferred {kv : KvTransport} : selection.kvAction = .transfer → kvTransport = some kv →
      kv.transfer req.sourceNode selection.candidate.computeNodeId = .ok () →
      Moved req kvTransport selection
        [⟨.transfer kv req.sourceNode selection.candidate.computeNodeId, .ok ()⟩]

/-- What happens once a candidate has been selected. -/
inductive Dispatched (engine : PipelineEngine) (env : PipelineEnvironment) (req : PipelineRequest)
    (transport : InferenceTransport) (kvTransport : Option KvTransport) (selection : Selection) :
    Played pipelineInterface PipelineEngine PipelineOutcome → Prop
  | kvFailed {kv : KvTransport} {error : FabricError} :
      selection.kvAction = .transfer → kvTransport = some kv →
      kv.transfer req.sourceNode selection.candidate.computeNodeId = .error error →
      Dispatched engine env req transport kvTransport selection
        ⟨req.failure selection s!"KV Transfer failed: {error.debug}"
            s!"KV Transfer failed: {error.display}", engine,
          [⟨.transfer kv req.sourceNode selection.candidate.computeNodeId, .error error⟩]⟩
  | transportFailed {moves : List PipelineEvent} {error : FabricError} :
      Moved req kvTransport selection moves →
      transport.execute (req.transportRequest selection) = .error error →
      Dispatched engine env req transport kvTransport selection
        ⟨req.failure selection s!"Transport execution failed: {error.debug}"
            s!"Transport execution failed: {error.display}", engine,
          moves ++ [⟨.execute transport (req.transportRequest selection), .error error⟩]⟩
  | executed {moves : List PipelineEvent} {resp : TransportResponse}
      {recorded : Except IntelligenceError ℕ} :
      Moved req kvTransport selection moves →
      transport.execute (req.transportRequest selection) = .ok resp →
      recorded = (engine.worldStateManager.ingest
        (req.observation selection resp (env.clock .observation)) (env.clock .ingest)).1 →
      Dispatched engine env req transport kvTransport selection
        ⟨req.completion selection resp
            (recorded.toOption.getD (selection.worldState.revision + 1)),
          engine.afterExecution env req selection resp,
          moves ++ ⟨.execute transport (req.transportRequest selection), .ok resp⟩ ::
            feedbackEvents req selection resp (env.clock .observation) recorded⟩

variable {engine : PipelineEngine} {env : PipelineEnvironment} {req : PipelineRequest}
variable {transport : InferenceTransport} {kvTransport : Option KvTransport}
variable {selection : Selection}

/-- The transport is asked once, whatever was moved before. -/
theorem dispatched_execute {moves : List PipelineEvent}
    (moved : Moved req kvTransport selection moves) :
    let played := (req.execute transport selection).play (PipelineEngine.serve env) engine
    Dispatched engine env req transport kvTransport selection
      { played with events := moves ++ played.events } := by
  simp only [PipelineRequest.execute, bind_eq_bind, perform, call_bind, done_bind, play_call,
    PipelineEngine.serve]
  cases answer : transport.execute (req.transportRequest selection) with
  | error error => exact .transportFailed moved answer
  | ok resp => exact .executed moved answer rfl

theorem dispatched (engine : PipelineEngine) (env : PipelineEnvironment)
    (req : PipelineRequest) (transport : InferenceTransport) (kvTransport : Option KvTransport)
    (selection : Selection) :
    Dispatched engine env req transport kvTransport selection
      ((req.dispatch transport kvTransport selection).play (PipelineEngine.serve env) engine) := by
  unfold PipelineRequest.dispatch
  split
  case h_1 kv transfer =>
    simp only [bind_eq_bind, perform, call_bind, done_bind, play_call, PipelineEngine.serve]
    cases answer : kv.transfer req.sourceNode selection.candidate.computeNodeId with
    | error error => exact .kvFailed transfer rfl answer
    | ok _ => exact dispatched_execute (.transferred transfer rfl answer)
  case h_2 noTransfer =>
    exact dispatched_execute (.nothing fun transfer =>
      Option.eq_none_iff_forall_ne_some.mpr fun kv given => noTransfer kv transfer given)

/-- What happens after the selection does not depend on the admission. -/
theorem Dispatched.withAdmission {controller : AdmissionController}
    {played : Played pipelineInterface PipelineEngine PipelineOutcome}
    (dispatched : Dispatched { engine with admissionController := controller } env req transport
      kvTransport selection played) :
    Dispatched engine env req transport kvTransport selection
        { played with
          state := { played.state with admissionController := engine.admissionController } } ∧
      played.state.admissionController = controller := by
  cases dispatched with
  | kvFailed transfer given fails => exact ⟨.kvFailed transfer given fails, rfl⟩
  | transportFailed moved fails => exact ⟨.transportFailed moved fails, rfl⟩
  | executed moved succeeds recorded => exact ⟨.executed moved succeeds recorded, rfl⟩

end Dispatched

/-! ## The whole call -/

section Course

variable [Rounding] [Formatter] [Md5]

/-- The request comes to the selection of a candidate, and this is its placement. -/
structure Reaches (engine : PipelineEngine) (env : PipelineEnvironment) (req : PipelineRequest)
    (placement : Placement) : Prop where
  authenticated : req.authenticationFails = false
  permitted : ∃ granted, engine.admissionController.admitTenant req.tenantId = .ok granted
  fresh : ∃ worldState, engine.worldStateManager.snapshot (env.clock .snapshot) = .ok worldState
  notForced : req.forceStaleWorldState = false
  best : placement.Best engine env req

/-- The courses of a call. -/
inductive Course (engine : PipelineEngine) (env : PipelineEnvironment) (req : PipelineRequest)
    (transport : InferenceTransport) (kvTransport : Option KvTransport) :
    Played pipelineInterface PipelineEngine PipelineOutcome → Prop
  | turnedAway {outcome : PipelineOutcome} {events : List PipelineEvent} :
      req.Unselected outcome → (∀ placement, ¬ Reaches engine env req placement) →
      (∀ event ∈ events, event.call.Entrance) →
      Course engine env req transport kvTransport ⟨outcome, engine, events⟩
  | reached {placement : Placement} {selection : Selection} {permit : AdmissionPermit}
      {reads : List PipelineEvent}
      {played : Played pipelineInterface PipelineEngine PipelineOutcome} :
      permit.tenant = req.tenantId → Reaches engine env req placement →
      Selects engine env req placement selection →
      (∀ event ∈ reads, event.call.Reads) →
      Dispatched engine env req transport kvTransport selection played →
      Course engine env req transport kvTransport
        { played with
          events := ⟨.admitTenant req.tenantId, .ok permit⟩ :: reads ++ played.events ++
            [⟨.release permit, ()⟩] }

variable {engine : PipelineEngine} {env : PipelineEnvironment} {req : PipelineRequest}
variable {transport : InferenceTransport} {kvTransport : Option KvTransport}

/-- Where no candidate is selected, no placement is reached. -/
theorem not_reaches_of_select {controller : AdmissionController} {outcome : PipelineOutcome}
    (unselected : (req.select.play (PipelineEngine.serve env)
      { engine with admissionController := controller }).result = .error outcome)
    (placement : Placement) : ¬ Reaches engine env req placement := by
  intro reaches
  obtain ⟨worldState, fresh⟩ := reaches.fresh
  have passes := (Placement.passes_withAdmission engine env req controller placement).mpr
    reaches.best.passes
  obtain ⟨selection, found⟩ :=
    PipelineRequest.exists_select (by exact fresh) reaches.notForced passes
  cases unselected.symm.trans found

/-- Every call takes one of these courses. -/
theorem course (engine : PipelineEngine) (env : PipelineEnvironment) (req : PipelineRequest)
    (transport : InferenceTransport) (kvTransport : Option KvTransport) :
    Course engine env req transport kvTransport
      (engine.processRequest env req transport kvTransport) := by
  unfold PipelineEngine.processRequest PipelineRequest.processRequest
  cases fails : req.authenticationFails with
  | true =>
      refine .turnedAway ⟨_, _, _, _, rfl⟩ (fun placement reaches => ?_) (by simp)
      cases fails.symm.trans reaches.authenticated
  | false =>
      simp only [Bool.false_eq_true, if_false, bind_eq_bind, perform, call_bind, done_bind,
        play_call, PipelineEngine.serve]
      cases admitted : engine.admissionController.admitTenant req.tenantId with
      | error error =>
          refine .turnedAway ⟨_, _, _, _, rfl⟩ (fun placement reaches => ?_)
            (List.forall_mem_singleton.mpr trivial)
          obtain ⟨granted, permitted⟩ := reaches.permitted
          cases admitted.symm.trans permitted
      | ok granted =>
          obtain ⟨permit, controller⟩ := granted
          -- selecting a placement only reads, and leaves the engine as it is
          obtain ⟨result, reads, onlyReads, selected⟩ :=
            req.play_select { engine with admissionController := controller } env
          have released := AdmissionController.release_of_admitted admitted
          simp only [PipelineRequest.admitted, bind_eq_bind, play_bind, selected]
          cases result with
          | error outcome =>
              simp only [pure_eq_done, play_done, play_call, PipelineEngine.serve, released]
              have unselected := congrArg (·.result) selected
              refine .turnedAway (PipelineRequest.unselected_of_select unselected)
                (not_reaches_of_select unselected) ?_
              simp only [List.append_nil, List.mem_cons, List.mem_append, List.not_mem_nil,
                or_false]
              rintro event (rfl | read | rfl)
              · exact trivial
              · exact (onlyReads event read).entrance
              · exact trivial
          | ok selection =>
              obtain ⟨placement, selects⟩ :=
                PipelineRequest.selects_of_select (congrArg (·.result) selected)
              -- the slot that has been taken plays no part in what is selected
              have selects := (selects_withAdmission controller).mp selects
              have reaches : Reaches engine env req placement :=
                ⟨fails, ⟨_, admitted⟩, ⟨_, selects.fresh⟩, selects.notForced, selects.best⟩
              have dispatched := dispatched { engine with admissionController := controller } env
                req transport kvTransport selection
              simp only [play_call, PipelineEngine.serve]
              generalize play (PipelineEngine.serve env)
                { engine with admissionController := controller }
                (req.dispatch transport kvTransport selection) = played at dispatched ⊢
              obtain ⟨dispatched, held⟩ := dispatched.withAdmission
              have own : permit.tenant = req.tenantId := by
                obtain ⟨-, -, -, rfl, -⟩ := AdmissionController.admitTenant_eq_ok admitted
                rfl
              simp only [held, released]
              exact .reached own reaches selects onlyReads dispatched

end Course

/-! ## The engine of the tests -/

section SetupEngine

variable [Rounding]

/-- The engine of `setup_engine`. -/
def setupEngine : PipelineEngine := .new (.new (300 * 10 ^ 9) 0) default

omit [Rounding] in
def setupModel : ModelReference := ⟨"test-model", "1"⟩

def setupNode : ComputeNode where
  id := "node-1"
  region := "us-east"
  accelerator := "a100"
  totalMemoryMb := 80000
  availableMemoryMb := 70000
  utilization := .ofRat (1 / 10)
  activeRequests := 0
  queueDepth := 0
  healthy := true
  residentModels := {setupModel}

/-- One backend, which declares some strategies for a model, and one node, which holds it. -/
def setupEnvironment (strategies : List KvStrategy) (now : SystemTime) : PipelineEnvironment :=
  let mock : MockBackend :=
    { name := "backend-1"
      model := setupModel
      supported := strategies
      result :=
        { backend := "backend-1"
          success := true
          latencyMs := some 150
          estimatedCost := some (.ofRat (1 / 100))
          failure := none } }
  let descriptor : BackendDescriptor :=
    { id := "backend-1"
      version := "1.0"
      capabilities := (∅ : HashMap _ _).insert setupModel strategies.toFinset }
  let registry := (default : BackendRegistry).register descriptor mock.backend
  let capacity := (default : CapacitySnapshot).register setupNode
  { clock := fun _ => now
    registry := .ok (registry.toOption.getD default)
    capacity := .ok (capacity.toOption.getD default) }

/-- A request for the model. -/
def setupRequest : PipelineRequest := .new "req-1" "tenant-1" "test-model"

omit [Rounding] in
/-- A formatter for runs in which neither a number nor a text is shown. -/
abbrev Formatter.idle : Formatter := ⟨fun _ => "", fun _ => "", id⟩

omit [Rounding] in
/-- The digests of some texts. -/
abbrev Md5.known (digests : List (String × String)) : Md5 where
  hex text := (digests.lookup text).getD ""

omit [Rounding] in
/-- The digest of the first record in the runs of the engine. -/
abbrev Md5.ofFirstRecord : Md5 :=
  .known [("req-1-genesis-backend-1", "c628806e3bff7d0c13e6b28becb4b356")]

end SetupEngine

end TrustRouter
