import TrustRouter.Course
import TrustRouter.Prelude.Binary64

/-!
# What is dispatched

What holds of one call of the pipeline, read off the courses it can take: when the transport
is asked to execute, for which placement, and what the outcome then says.
-/

namespace TrustRouter

open Program

/-- What the transport was asked to execute and what it answered. -/
def execution : PipelineEvent → Option (TransportRequest × Except FabricError TransportResponse)
  | ⟨.execute _ request, answer⟩ => some (request, answer)
  | _ => none

/-- What was to be transferred, and how that ended. -/
def transfer : PipelineEvent → Option ((String × String) × Except FabricError Unit)
  | ⟨.transfer _ source dest, answer⟩ => some ((source, dest), answer)
  | _ => none

theorem eq_of_execution {event : PipelineEvent} {request : TransportRequest}
    {answer : Except FabricError TransportResponse}
    (isExecution : execution event = some (request, answer)) :
    ∃ transport, event = ⟨.execute transport request, answer⟩ := by
  obtain ⟨call, answer'⟩ := event
  cases call with
  | execute transport request' =>
      obtain ⟨rfl, rfl⟩ := Prod.mk.inj (Option.some.inj isExecution)
      exact ⟨transport, rfl⟩
  | _ => cases isExecution

theorem execution_of_entrance {event : PipelineEvent} (entrance : event.call.Entrance) :
    execution event = none ∧ transfer event = none := by
  obtain ⟨call, answer⟩ := event
  cases call <;> first | exact ⟨rfl, rfl⟩ | exact entrance.elim

/-- What comes before an execution is none. -/
theorem execution_of_beforehand {event : PipelineEvent}
    (beforehand : event.call.Reads ∨ (transfer event).isSome = true) : execution event = none := by
  obtain ⟨call, answer⟩ := event
  rcases beforehand with reads | transfers
  · exact (execution_of_entrance reads.entrance).1
  · cases call <;> first | rfl | cases transfers

/-- The outcome is that of a request for which this candidate was selected. -/
structure PipelineRequest.Selected [Rounding] (req : PipelineRequest) (selection : Selection)
    (outcome : PipelineOutcome) : Prop where
  backend : outcome.selectedBackend = some selection.candidate.backendId
  node : outcome.selectedNode = some selection.candidate.computeNodeId
  strategy : outcome.selectedStrategy = some selection.candidate.strategy
  kvAction : outcome.selectedKvAction = some selection.kvAction
  executionPlan : outcome.executionPlan = some (req.executionPlan selection)
  compiledPlan : outcome.compiledPlan = some (req.compiledPlan selection)

/-- The placement is reached, and what has to be moved there is moved. -/
structure Dispatches [Rounding] (engine : PipelineEngine) (env : PipelineEnvironment)
    (req : PipelineRequest) (kvTransport : Option KvTransport) (placement : Placement) : Prop
    extends Reaches engine env req placement where
  moved : req.kvDecision.1 = .transfer → ∀ kv ∈ kvTransport,
    kv.transfer req.sourceNode placement.node.id = .ok ()

section

variable [Rounding]
variable {engine : PipelineEngine} {env : PipelineEnvironment} {req : PipelineRequest}
variable {transport : InferenceTransport} {kvTransport : Option KvTransport}
variable {placement : Placement} {selection : Selection}
variable {played : Played pipelineInterface PipelineEngine PipelineOutcome}

omit [Rounding] in
theorem Moved.isSome_transfer {moves : List PipelineEvent}
    (moved : Moved req kvTransport selection moves) :
    ∀ event ∈ moves, (transfer event).isSome = true := by
  cases moved with
  | nothing => simp
  | transferred => simp [transfer]

theorem Dispatched.selected [Formatter] [Md5]
    (dispatched : Dispatched engine env req transport kvTransport selection played) :
    req.Selected selection played.result := by
  cases dispatched <;> exact ⟨rfl, rfl, rfl, rfl, rfl, rfl⟩

/-- What has been moved is what had to be. -/
theorem Moved.dispatches {moves : List PipelineEvent}
    (moved : Moved req kvTransport selection moves) (reaches : Reaches engine env req placement)
    (selects : Selects engine env req placement selection) :
    Dispatches engine env req kvTransport placement := by
  refine { reaches with moved := fun toTransfer kv given => ?_ }
  rw [← selects.kvAction] at toTransfer
  cases moved with
  | nothing noTransfer => cases (noTransfer toTransfer).symm.trans given
  | transferred _ given' done =>
      obtain rfl := Option.some.inj (given'.symm.trans given)
      rwa [selects.candidate] at done

/-- The call does not ask the transport to execute anything. -/
structure Quiet [Formatter] (engine : PipelineEngine) (env : PipelineEnvironment)
    (req : PipelineRequest) (kvTransport : Option KvTransport)
    (played : Played pipelineInterface PipelineEngine PipelineOutcome) : Prop where
  executions : ∀ event ∈ played.events, execution event = none
  /-- A transfer that is tried fails, and is the reason why. -/
  transfers : ∀ event ∈ played.events, ∀ moved answer, transfer event = some (moved, answer) →
    ∃ error, answer = .error error ∧
      played.result.rejectionReason = some s!"KV Transfer failed: {error.display}"
  success : played.result.success = false
  state : played.state = engine
  nowhere : ∀ placement, ¬ Dispatches engine env req kvTransport placement

/-- The call asks the transport to execute the request at a placement. -/
structure Asks (engine : PipelineEngine) (env : PipelineEnvironment) (req : PipelineRequest)
    (transport : InferenceTransport) (kvTransport : Option KvTransport) (placement : Placement)
    (selection : Selection) (played : Played pipelineInterface PipelineEngine PipelineOutcome) :
    Prop where
  dispatches : Dispatches engine env req kvTransport placement
  selects : Selects engine env req placement selection
  selected : req.Selected selection played.result
  success : played.result.success = true ↔
    ∃ resp, transport.execute (req.transportRequest selection) = .ok resp
  /-- The permit is held, and the transport is asked once. -/
  events : ∃ permit : AdmissionPermit, permit.tenant = req.tenantId ∧ ∃ before after,
    played.events = ⟨.admitTenant req.tenantId, .ok permit⟩ :: before ++
      ⟨.execute transport (req.transportRequest selection),
        transport.execute (req.transportRequest selection)⟩ :: after ∧
      (∀ event ∈ before, event.call.Reads ∨ (transfer event).isSome = true) ∧
      ∀ event ∈ after, execution event = none

variable [Formatter] [Md5]

/-- **A call asks the transport once or not at all.** -/
theorem quiet_or_asks (engine : PipelineEngine) (env : PipelineEnvironment)
    (req : PipelineRequest) (transport : InferenceTransport) (kvTransport : Option KvTransport) :
    Quiet engine env req kvTransport (engine.processRequest env req transport kvTransport) ∨
      ∃ placement selection, Asks engine env req transport kvTransport placement selection
        (engine.processRequest env req transport kvTransport) := by
  have taken := course engine env req transport kvTransport
  generalize engine.processRequest env req transport kvTransport = played at taken ⊢
  cases taken with
  | turnedAway unselected nowhere entrances =>
      obtain ⟨traceReason, reason, rejected, revision, rfl⟩ := unselected
      refine .inl ⟨fun event mem => (execution_of_entrance (entrances event mem)).1,
        fun event mem moved answer isTransfer => ?_, rfl, rfl,
        fun placement dispatches => nowhere placement dispatches.toReaches⟩
      cases (execution_of_entrance (entrances event mem)).2.symm.trans isTransfer
  | @reached placement selection permit reads _ own reaches selects onlyReads dispatched =>
      have before : ∀ {moves}, Moved req kvTransport selection moves →
          ∀ event ∈ reads ++ moves, event.call.Reads ∨ (transfer event).isSome = true := by
        intro moves moved event mem
        rcases List.mem_append.mp mem with read | move
        · exact .inl (onlyReads event read)
        · exact .inr (moved.isSome_transfer event move)
      have quietReads := fun event mem => execution_of_entrance (onlyReads event mem).entrance
      cases dispatched with
      | kvFailed toTransfer given fails =>
          refine .inl ⟨?_, ?_, rfl, rfl, fun other dispatches => ?_⟩
          · simp only [List.cons_append, List.append_assoc, List.nil_append,
              List.forall_mem_cons, List.forall_mem_append, List.not_mem_nil, IsEmpty.forall_iff,
              implies_true, and_true]
            exact ⟨rfl, fun event read => (quietReads event read).1, rfl, rfl⟩
          · simp only [List.cons_append, List.append_assoc, List.mem_cons, List.mem_append,
              List.not_mem_nil, false_or, or_false]
            rintro event (rfl | read | rfl | rfl) moved answer isTransfer
            · cases isTransfer
            · cases (quietReads event read).2.symm.trans isTransfer
            · exact ⟨_, (Prod.mk.inj (Option.some.inj isTransfer)).2.symm, rfl⟩
            · cases isTransfer
          -- the transfer has failed, so nothing is dispatched even where a placement is reached
          · obtain rfl := reaches.best.unique dispatches.best
            have moved := dispatches.moved (selects.kvAction ▸ toTransfer) _ given
            rw [selects.candidate] at fails
            cases fails.symm.trans moved
      | @transportFailed moves _ moved fails =>
          refine .inr ⟨placement, selection, moved.dispatches reaches selects, selects,
            ⟨rfl, rfl, rfl, rfl, rfl, rfl⟩, by simp [fails, PipelineRequest.failure], permit,
            own, reads ++ moves, [⟨.release permit, ()⟩], ?_, before moved, ?_⟩
          · simp only [fails, List.cons_append, List.append_assoc, List.nil_append]
          · exact List.forall_mem_singleton.mpr rfl
      | @executed moves resp recorded moved succeeds isRecorded =>
          refine .inr ⟨placement, selection, moved.dispatches reaches selects, selects,
            ⟨rfl, rfl, rfl, rfl, rfl, rfl⟩, by simp [succeeds, PipelineRequest.completion], permit,
            own, reads ++ moves,
            feedbackEvents req selection resp (env.clock .observation) recorded ++
              [⟨.release permit, ()⟩], ?_, before moved, ?_⟩
          · simp only [succeeds, List.cons_append, List.append_assoc]
          · simp [feedbackEvents, execution]

/-! ## The gates -/

omit [Rounding] [Formatter] [Md5] in
theorem authenticationFails_eq_false_iff :
    req.authenticationFails = false ↔ ∀ apiKey ∈ req.apiKey, apiKey ≠ "invalid" ∧ apiKey ≠ "" := by
  unfold PipelineRequest.authenticationFails
  cases req.apiKey <;> simp

omit [Formatter] [Md5] in
/-- The transport is asked once. -/
theorem Asks.executions (asks : Asks engine env req transport kvTransport placement selection
    played) :
    played.events.filterMap execution =
      [(req.transportRequest selection, transport.execute (req.transportRequest selection))] := by
  obtain ⟨permit, -, before, after, events, beforehand, afterwards⟩ := asks.events
  have quiet : before.filterMap execution = [] :=
    List.filterMap_eq_nil_iff.mpr fun event mem => execution_of_beforehand (beforehand event mem)
  have asked : execution ⟨.execute transport (req.transportRequest selection),
      transport.execute (req.transportRequest selection)⟩ =
        some (req.transportRequest selection, transport.execute (req.transportRequest selection)) :=
    rfl
  rw [events, List.cons_append, List.filterMap_cons_none rfl, List.filterMap_append, quiet,
    List.filterMap_cons_some asked, List.filterMap_eq_nil_iff.mpr afterwards, List.nil_append]

omit [Formatter] [Md5] in
/-- The permit is held when the transport is asked. -/
theorem Asks.permit (asks : Asks engine env req transport kvTransport placement selection played)
    {before after : List PipelineEvent} {caller : InferenceTransport} {request : TransportRequest}
    {answer : Except FabricError TransportResponse}
    (split : played.events = before ++ ⟨.execute caller request, answer⟩ :: after) :
    ∃ permit : AdmissionPermit, permit.tenant = req.tenantId ∧
      ⟨.admitTenant req.tenantId, .ok permit⟩ ∈ before ∧
      ∀ event ∈ before, ∀ permit, event.call ≠ .release permit := by
  obtain ⟨permit, own, before', after', events, beforehand, afterwards⟩ := asks.events
  have notBefore : (⟨.execute caller request, answer⟩ : PipelineEvent) ∉
      (⟨.admitTenant req.tenantId, .ok permit⟩ : PipelineEvent) :: before' := by
    intro mem
    rcases List.mem_cons.mp mem with isAdmission | mem
    · cases congrArg Interface.Event.call isAdmission
    · cases execution_of_beforehand (beforehand _ mem)
  have notAfter : (⟨.execute caller request, answer⟩ : PipelineEvent) ∉ after' :=
    fun mem => nomatch afterwards _ mem
  obtain ⟨rfl, -, -⟩ :=
    (List.append_cons_inj_of_notMem notBefore notAfter).mp (events.symm.trans split)
  refine ⟨permit, own, List.mem_cons_self, fun event mem released isRelease => ?_⟩
  obtain ⟨call, answer⟩ := event
  obtain rfl : call = .release released := isRelease
  rcases List.mem_cons.mp mem with isAdmission | mem
  · cases congrArg Interface.Event.call isAdmission
  · rcases beforehand _ mem with reads | transfers
    · exact reads
    · cases transfers

/-- **Nothing is dispatched around the gates.**  The transport is asked at most once, and
then the request is authenticated and holds its permit, the world is fresh, and the backend
is that of a placement that passes every gate, and has the least score of those that do. -/
theorem dispatched_through_gates (engine : PipelineEngine) (env : PipelineEnvironment)
    (req : PipelineRequest) (transport : InferenceTransport) (kvTransport : Option KvTransport)
    (number : ∀ max ∈ req.maxCost, max ≠ .nan) :
    let played := engine.processRequest env req transport kvTransport
    (played.events.filterMap execution).length ≤ 1 ∧
      ∀ before after caller request answer,
        played.events = before ++ ⟨.execute caller request, answer⟩ :: after →
        (∀ apiKey ∈ req.apiKey, apiKey ≠ "invalid" ∧ apiKey ≠ "") ∧
        (∃ permit : AdmissionPermit, permit.tenant = req.tenantId ∧
          ⟨.admitTenant req.tenantId, .ok permit⟩ ∈ before ∧
          ∀ event ∈ before, ∀ permit, event.call ≠ .release permit) ∧
        engine.worldStateManager.state.isStale engine.worldStateManager.maxObservationAge
          (env.clock .snapshot) = false ∧
        req.forceStaleWorldState = false ∧
        ∃ placement : Placement, request.backendId = placement.backend ∧
          played.result.selectedBackend = some placement.backend ∧
          played.result.selectedNode = some placement.node.id ∧
          played.result.selectedStrategy = some placement.strategy.debug ∧
          placement.Passes engine env req ∧
          (∀ max ∈ req.maxCost, ∀ v ∈ (placement.estimate engine req).predictedCost.value,
            v ≤ max) ∧
          ∀ other : Placement, other.Passes engine env req →
            ¬ (other.estimate engine req).score < (placement.estimate engine req).score := by
  intro played
  rcases quiet_or_asks engine env req transport kvTransport with
    quiet | ⟨placement, selection, asks⟩
  · rw [List.filterMap_eq_nil_iff.mpr quiet.executions]
    refine ⟨Nat.zero_le 1, fun before after caller request answer split => ?_⟩
    cases quiet.executions ⟨.execute caller request, answer⟩ (split ▸ List.mem_append_cons_self)
  · have reaches := asks.dispatches.toReaches
    have passes := reaches.best.passes
    rw [asks.executions]
    refine ⟨le_rfl, fun before after caller request answer split => ?_⟩
    -- there is one execution, so this is it
    have executed : (request, answer) ∈ played.events.filterMap execution :=
      List.mem_filterMap.mpr ⟨_, split ▸ List.mem_append_cons_self, rfl⟩
    rw [asks.executions, List.mem_singleton] at executed
    obtain ⟨rfl, rfl⟩ := Prod.mk.inj executed
    obtain ⟨worldState, fresh⟩ := reaches.fresh
    refine ⟨authenticationFails_eq_false_iff.mp reaches.authenticated, asks.permit split,
      (WorldStateManager.snapshot_eq_ok_iff.mp fresh).1, reaches.notForced, placement, ?_⟩
    have candidate := asks.selects.candidate
    refine ⟨congrArg (·.backendId) candidate,
      asks.selected.backend.trans (congrArg (some ·.backendId) candidate),
      asks.selected.node.trans (congrArg (some ·.computeNodeId) candidate),
      asks.selected.strategy.trans (congrArg (some ·.strategy) candidate), passes,
      fun max given v known => ?_, fun other passes less => ?_⟩
    · obtain rfl : F64.ofRat (5 / 1000) = v := Option.some.inj known
      exact F64.le_of_not_lt (F64.ofRat_ne_nan _) (number max given) (passes.cost max given _ known)
    · exact CounterfactualEstimate.not_score_lt_of_rank_le (reaches.best.first other passes) less

omit [Rounding] [Formatter] [Md5] in
/-- The gates are open to a request of the tests. -/
theorem dispatched_through_gates_setupEngine :
    letI := Rounding.nearestEven
    letI := Formatter.idle
    letI := Md5.ofFirstRecord
    let transport := DeterministicTransport.transport ⟨true, 100⟩
    let played :=
      setupEngine.processRequest (setupEnvironment [.none] 0) setupRequest transport none
    (played.events.filterMap execution).length = 1 ∧
      ∃ placement : Placement, played.result.selectedBackend = some placement.backend ∧
        placement.Passes setupEngine (setupEnvironment [.none] 0) setupRequest := by
  let _ := Rounding.nearestEven
  let _ := Formatter.idle
  let _ := Md5.ofFirstRecord
  intro transport played
  have number : ∀ max ∈ setupRequest.maxCost, max ≠ .nan :=
    fun max given => Option.some.inj given ▸ F64.ofRat_ne_nan _
  have once : (played.events.filterMap execution).length = 1 := by decide +kernel
  obtain ⟨⟨request, answer⟩, mem⟩ := List.exists_mem_of_length_pos (once.symm ▸ Nat.zero_lt_one)
  obtain ⟨event, mem, isExecution⟩ := List.mem_filterMap.mp mem
  obtain ⟨caller, rfl⟩ := eq_of_execution isExecution
  obtain ⟨before, after, split⟩ := List.append_of_mem mem
  obtain ⟨-, -, -, -, placement, -, backend, -, -, passes, -⟩ :=
    (dispatched_through_gates setupEngine (setupEnvironment [.none] 0) setupRequest transport none
      number).2 before after caller request answer split
  have same : played =
      setupEngine.processRequest (setupEnvironment [.none] 0) setupRequest transport none := rfl
  exact ⟨once, placement, same ▸ backend, passes⟩

/-! ## What the transport answers -/

/-- What the transport is asked to execute on a backend. -/
def PipelineRequest.dispatchedTo (req : PipelineRequest) (backend : String) : TransportRequest where
  requestId := req.requestId
  model := req.model
  modelVersion := req.modelVersion.getD "Unknown"
  backendId := backend
  timeout := 5000 * 10 ^ 6

omit [Formatter] [Md5] in
theorem Selects.transportRequest (selects : Selects engine env req placement selection) :
    req.transportRequest selection = req.dispatchedTo placement.backend := by
  rw [PipelineRequest.transportRequest, selects.candidate]
  rfl

/-- A success is reported of a successful execution of this request on the selected backend. -/
def Identified (req : PipelineRequest)
    (played : Played pipelineInterface PipelineEngine PipelineOutcome) : Prop :=
  played.result.success = true → ∃ request resp,
    played.events.filterMap execution = [(request, .ok resp)] ∧ resp.success = true ∧
      resp.requestId = req.requestId ∧ played.result.selectedBackend = some resp.backendId

/-- **A success is identified** if and only if the transport only ever answers for the request
it is asked to execute, and that it was successful. -/
theorem identified_iff (engine : PipelineEngine) (env : PipelineEnvironment)
    (req : PipelineRequest) (transport : InferenceTransport) (kvTransport : Option KvTransport) :
    Identified req (engine.processRequest env req transport kvTransport) ↔
      ∀ placement, Dispatches engine env req kvTransport placement → ∀ resp,
        transport.execute (req.dispatchedTo placement.backend) = .ok resp →
          resp.success = true ∧ resp.requestId = req.requestId ∧
            resp.backendId = placement.backend := by
  rcases quiet_or_asks engine env req transport kvTransport with
    quiet | ⟨placement, selection, asks⟩
  · refine ⟨fun _ placement dispatches => absurd dispatches (quiet.nowhere placement),
      fun _ success => ?_⟩
    cases quiet.success.symm.trans success
  · have selectedBackend := asks.selected.backend.trans
      (congrArg (some ·.backendId) asks.selects.candidate)
    constructor
    · intro identified other dispatches resp answered
      obtain rfl := asks.dispatches.best.unique dispatches.best
      rw [← asks.selects.transportRequest] at answered
      obtain ⟨request, resp', executed, success, requestId, backendId⟩ :=
        identified (asks.success.mpr ⟨resp, answered⟩)
      rw [asks.executions, answered] at executed
      obtain ⟨-, same⟩ := Prod.mk.inj (List.singleton_inj.mp executed)
      obtain rfl := Except.ok.inj same
      exact ⟨success, requestId, Option.some.inj (backendId.symm.trans selectedBackend)⟩
    · intro answers success
      obtain ⟨resp, answered⟩ := asks.success.mp success
      obtain ⟨success, requestId, backendId⟩ :=
        answers placement asks.dispatches resp (asks.selects.transportRequest ▸ answered)
      exact ⟨_, resp, answered ▸ asks.executions, success, requestId, backendId ▸ selectedBackend⟩

/-- A transport that answers that an execution has failed. -/
def failedTransport : InferenceTransport where
  execute request :=
    (DeterministicTransport.transport ⟨true, 100⟩).execute request |>.map fun resp =>
      { resp with success := false, failureClass := some "out_of_memory" }

omit [Rounding] [Formatter] [Md5] in
/-- A failed execution is reported as a success. -/
theorem not_identified :
    letI := Rounding.nearestEven
    letI := Formatter.idle
    letI := Md5.ofFirstRecord
    ¬ ∀ (engine : PipelineEngine) (env : PipelineEnvironment) (req : PipelineRequest)
        (transport : InferenceTransport) (kvTransport : Option KvTransport),
      Identified req (engine.processRequest env req transport kvTransport) := by
  let _ := Rounding.nearestEven
  let _ := Formatter.idle
  let _ := Md5.ofFirstRecord
  intro always
  have identified :=
    always setupEngine (setupEnvironment [.none] 0) setupRequest failedTransport none
  obtain ⟨request, resp, executed, success, -⟩ := identified (by decide +kernel)
  have failed : ((setupEngine.processRequest (setupEnvironment [.none] 0) setupRequest
      failedTransport none).events.filterMap execution).map
        (fun entry => entry.2.toOption.map (·.success)) = [some false] := by decide +kernel
  rw [executed] at failed
  cases success.symm.trans (Option.some.inj (List.singleton_inj.mp failed))

/-! ## What is executed -/

/-- Three descriptions of one placement of the model. -/
structure OnePlacement (model : ModelReference) (request : TransportRequest)
    (compiled : CompiledExecutionPlan) (plan : ExecutionPlan) : Prop where
  backend : request.backendId = compiled.backend
  start : plan.snapshot.start = compiled.node
  goal : plan.snapshot.goal = compiled.node
  nodes : plan.candidate.nodes = [compiled.node]
  steps : plan.steps = [⟨0, compiled.node⟩]
  requestedModel : (⟨request.model, request.modelVersion⟩ : ModelReference) = model
  compiledModel : (⟨compiled.model, compiled.modelVersion⟩ : ModelReference) = model
  plannedModel : plan.kv.target = some model
  strategy : plan.kv.strategy.debug = compiled.strategy

/-- Whatever the transport is asked to execute, the outcome describes it as what was selected
and checked. -/
def Described (req : PipelineRequest)
    (played : Played pipelineInterface PipelineEngine PipelineOutcome) : Prop :=
  ∀ request answer, (request, answer) ∈ played.events.filterMap execution →
    ∃ compiled plan, played.result.compiledPlan = some compiled ∧
      played.result.executionPlan = some plan ∧
      played.result.selectedBackend = some compiled.backend ∧
      played.result.selectedNode = some compiled.node ∧
      played.result.selectedStrategy = some compiled.strategy ∧
      OnePlacement req.modelRef request compiled plan

/-- **What is executed is what was checked** if and only if the request gives the version of
its model, and the placement that is reached has no key-value strategy. -/
theorem described_iff (engine : PipelineEngine) (env : PipelineEnvironment)
    (req : PipelineRequest) (transport : InferenceTransport) (kvTransport : Option KvTransport) :
    Described req (engine.processRequest env req transport kvTransport) ↔
      ∀ placement, Dispatches engine env req kvTransport placement →
        req.modelVersion.isSome = true ∧ placement.strategy = .none := by
  rcases quiet_or_asks engine env req transport kvTransport with
    quiet | ⟨placement, selection, asks⟩
  · refine ⟨fun _ placement dispatches => absurd dispatches (quiet.nowhere placement),
      fun _ request answer executed => ?_⟩
    rw [List.filterMap_eq_nil_iff.mpr quiet.executions] at executed
    cases executed
  · have candidate := asks.selects.candidate
    constructor
    · intro described other dispatches
      obtain rfl := asks.dispatches.best.unique dispatches.best
      obtain ⟨compiled, plan, isCompiled, isPlan, -, -, -, one⟩ :=
        described _ _ (asks.executions ▸ List.mem_singleton_self _)
      obtain rfl := Option.some.inj (asks.selected.compiledPlan.symm.trans isCompiled)
      obtain rfl := Option.some.inj (asks.selected.executionPlan.symm.trans isPlan)
      constructor
      -- without a version, `1` is checked and `Unknown` is requested
      · cases given : req.modelVersion with
        | some version => rfl
        | none =>
            have versions := congrArg ModelReference.modelVersion one.requestedModel
            simp [PipelineRequest.transportRequest, PipelineRequest.modelRef, given] at versions
      -- the compiled plan has the strategy of the placement, and the execution plan has none
      · have strategies := one.strategy
        simp only [PipelineRequest.executionPlan, PipelineRequest.compiledPlan,
          ExecutionCompiler.compile, candidate] at strategies
        exact (KvStrategy.debug_injective strategies).symm
    · intro checked request answer executed
      obtain ⟨given, noStrategy⟩ := checked placement asks.dispatches
      obtain ⟨version, given⟩ := Option.isSome_iff_exists.mp given
      rw [asks.executions, List.mem_singleton] at executed
      obtain ⟨rfl, -⟩ := Prod.mk.inj executed
      have model : selection.candidate.model = req.model := congrArg (·.model) candidate
      have strategy : selection.candidate.strategy = KvStrategy.none.debug := by
        rw [candidate, ← noStrategy]
        rfl
      refine ⟨req.compiledPlan selection, req.executionPlan selection, asks.selected.compiledPlan,
        asks.selected.executionPlan, asks.selected.backend, asks.selected.node,
        asks.selected.strategy, ⟨rfl, rfl, rfl, rfl, rfl, ?_, ?_, rfl, strategy.symm⟩⟩
      · simp [PipelineRequest.transportRequest, PipelineRequest.modelRef, given]
      · simp [PipelineRequest.compiledPlan, ExecutionCompiler.compile, PipelineRequest.modelRef,
          given, model]

omit [Rounding] [Formatter] [Md5] in
/-- Of a request without a version the first is checked, and one that is unknown executed. -/
theorem not_described :
    letI := Rounding.nearestEven
    letI := Formatter.idle
    letI := Md5.ofFirstRecord
    ¬ ∀ (engine : PipelineEngine) (env : PipelineEnvironment) (req : PipelineRequest)
        (transport : InferenceTransport) (kvTransport : Option KvTransport),
      Described req (engine.processRequest env req transport kvTransport) := by
  let _ := Rounding.nearestEven
  let _ := Formatter.idle
  let _ := Md5.ofFirstRecord
  intro always
  have described := always setupEngine (setupEnvironment [.none] 0) setupRequest
    (DeterministicTransport.transport ⟨true, 100⟩) none
  have versions : ((setupEngine.processRequest (setupEnvironment [.none] 0) setupRequest
      (DeterministicTransport.transport ⟨true, 100⟩) none).events.filterMap execution).map
        (fun entry => entry.1.modelVersion) = ["Unknown"] := by decide +kernel
  obtain ⟨⟨request, answer⟩, executed, version⟩ :=
    List.mem_map.mp (versions.symm ▸ List.mem_singleton_self "Unknown")
  obtain ⟨_, _, -, -, -, -, -, one⟩ := described request answer executed
  have checked : "Unknown" = "1" :=
    version.symm.trans (congrArg ModelReference.modelVersion one.requestedModel)
  exact absurd checked (by decide)

/-! ## What is transferred -/

/-- A transfer is made only where one was decided on. -/
theorem Dispatched.kvAction_of_transfer
    (dispatched : Dispatched engine env req transport kvTransport selection played)
    {event : PipelineEvent} (mem : event ∈ played.events)
    (isTransfer : (transfer event).isSome = true) : selection.kvAction = .transfer := by
  have ofMoves : ∀ {moves}, Moved req kvTransport selection moves → event ∈ moves →
      selection.kvAction = .transfer := by
    intro moves moved mem
    cases moved with
    | nothing => cases mem
    | transferred toTransfer => exact toTransfer
  cases dispatched with
  | kvFailed toTransfer => exact toTransfer
  | transportFailed moved =>
      rcases List.mem_append.mp mem with mem | mem
      · exact ofMoves moved mem
      · obtain rfl := List.mem_singleton.mp mem
        cases isTransfer
  | executed moved =>
      rcases List.mem_append.mp mem with mem | mem
      · exact ofMoves moved mem
      · simp only [feedbackEvents, List.mem_cons, List.not_mem_nil, or_false] at mem
        rcases mem with rfl | rfl | rfl | rfl | rfl <;> cases isTransfer

/-- A key-value cache is transferred only between models that are known to be compatible:
where the strategy is one of transfer, and is granted for the source. -/
def TransfersCompatibly (engine : PipelineEngine) (req : PipelineRequest)
    (source : Option ModelReference)
    (played : Played pipelineInterface PipelineEngine PipelineOutcome) : Prop :=
  (played.result.selectedKvAction = some .transfer ∨
      ∃ event ∈ played.events, (transfer event).isSome = true) →
    played.result.selectedStrategy = some KvStrategy.crossModelKvTransfer.debug ∧
      engine.kvIntelligence.Grants ⟨req.modelRef, source, .crossModelKvTransfer⟩

/-- **Compatibility is respected** if and only if a request whose telemetry speaks for a
transfer only ever reaches a placement with that strategy, and it is granted there. -/
theorem transfersCompatibly_iff (engine : PipelineEngine) (env : PipelineEnvironment)
    (req : PipelineRequest) (transport : InferenceTransport) (kvTransport : Option KvTransport)
    (source : Option ModelReference) :
    TransfersCompatibly engine req source
        (engine.processRequest env req transport kvTransport) ↔
      (req.kvDecision.1 = .transfer → ∀ placement, Reaches engine env req placement →
        placement.strategy = .crossModelKvTransfer ∧
          engine.kvIntelligence.Grants ⟨req.modelRef, source, .crossModelKvTransfer⟩) := by
  have taken := course engine env req transport kvTransport
  generalize engine.processRequest env req transport kvTransport = played at taken ⊢
  cases taken with
  | turnedAway unselected nowhere entrances =>
      obtain ⟨traceReason, reason, rejected, revision, rfl⟩ := unselected
      refine ⟨fun _ _ placement reaches => absurd reaches (nowhere placement), fun _ asked => ?_⟩
      rcases asked with isSelected | ⟨event, mem, isTransfer⟩
      · cases isSelected
      · rw [(execution_of_entrance (entrances event mem)).2] at isTransfer
        cases isTransfer
  | @reached placement selection permit reads played _ reaches selects onlyReads dispatched =>
      have selected := dispatched.selected
      have strategy : played.result.selectedStrategy = some placement.strategy.debug :=
        selected.strategy.trans (congrArg (some ·.strategy) selects.candidate)
      constructor
      · intro compatibly toTransfer other reachesOther
        obtain rfl := reaches.best.unique reachesOther.best
        have isSelected : played.result.selectedKvAction = some .transfer :=
          selected.kvAction.trans (congrArg some (selects.kvAction.trans toTransfer))
        obtain ⟨isTransfer, grants⟩ := compatibly (.inl isSelected)
        exact ⟨KvStrategy.debug_injective (Option.some.inj (strategy.symm.trans isTransfer)),
          grants⟩
      · intro granted asked
        have toTransfer : selection.kvAction = .transfer := by
          rcases asked with isSelected | ⟨event, mem, isTransfer⟩
          · exact Option.some.inj (selected.kvAction.symm.trans isSelected)
          -- of admission, selection, dispatch and release only the dispatch transfers
          · simp only [List.cons_append, List.append_assoc, List.mem_cons, List.mem_append,
              List.not_mem_nil, or_false] at mem
            rcases mem with rfl | read | mem | rfl
            · cases isTransfer
            · rw [(execution_of_entrance (onlyReads event read).entrance).2] at isTransfer
              cases isTransfer
            · exact dispatched.kvAction_of_transfer mem isTransfer
            · cases isTransfer
        obtain ⟨isTransfer, grants⟩ :=
          granted (selects.kvAction ▸ toTransfer) placement reaches
        exact ⟨isTransfer ▸ strategy, grants⟩

/-- A request whose prefix is cached on another node, ten milliseconds away. -/
def cachedRequest : PipelineRequest :=
  { setupRequest with
    promptPrefixHash := some "prefix-1"
    observedKvSizeMb := some 64
    observedTransferLatencyMs := some 10
    observedNetworkCost := some (.finite 0)
    observedRecomputationMs := some 100
    observedSourceNode := some "node-2" }

omit [Rounding] [Formatter] [Md5] in
/-- A transfer is decided on by an engine that knows of no compatible models, for a backend
that declares no key-value strategy. -/
theorem not_transfersCompatibly :
    letI := Rounding.nearestEven
    letI := Formatter.idle
    letI := Md5.ofFirstRecord
    ¬ ∀ (engine : PipelineEngine) (env : PipelineEnvironment) (req : PipelineRequest)
        (transport : InferenceTransport) (kvTransport : Option KvTransport),
      ∃ source, TransfersCompatibly engine req source
        (engine.processRequest env req transport kvTransport) := by
  let _ := Rounding.nearestEven
  let _ := Formatter.idle
  let _ := Md5.ofFirstRecord
  intro always
  obtain ⟨source, compatibly⟩ := always setupEngine (setupEnvironment [.none] 0) cachedRequest
    (DeterministicTransport.transport ⟨true, 100⟩) (some ⟨fun _ _ => .ok ()⟩)
  have strategy := (compatibly (.inl (by decide +kernel))).1
  exact absurd strategy (by decide +kernel)

end

end TrustRouter
