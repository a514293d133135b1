import TrustRouter.Pipeline

/-!
# Placements

Where a request is to be executed: a backend, a compute node and a strategy.  The stages of
the pipeline up to the ranking only read, so that what they select is a matter of the engine
and the environment as they are.  `Placement.Passes` says which placements are admissible,
without regard to the loops that look for them, and `Selects` that a placement is the one
that is selected: it passes, and none that passes ranks before it.  `select` selects what
`Selects` says (`PipelineRequest.selects_of_select`), and something whenever anything passes
(`PipelineRequest.exists_select`).
-/

namespace TrustRouter

open Program

structure Placement where
  backend : String
  node : ComputeNode
  strategy : KvStrategy

/-- A call that only reads. -/
def PipelineCall.Reads : PipelineCall → Prop
  | snapshot | fetchRegistry | fetchCapacity | predict _ _ | evaluateCandidate _ _ _ => True
  | _ => False

/-- A call that reads, admits or releases. -/
def PipelineCall.Entrance : PipelineCall → Prop
  | admitTenant _ | release _ => True
  | other => other.Reads

theorem PipelineCall.Reads.entrance {call : PipelineCall} (reads : call.Reads) :
    call.Entrance := by
  cases call <;> trivial

namespace PipelineEnvironment

/-- What the pipeline takes the registry to be. -/
def backends (env : PipelineEnvironment) : BackendRegistry := env.registry.toOption.getD default

/-- What the pipeline takes the compute nodes to be. -/
def nodes (env : PipelineEnvironment) : CapacitySnapshot := env.capacity.toOption.getD default

end PipelineEnvironment

namespace PipelineCall

theorem Reads.serve_eq [Rounding] [Md5] {engine : PipelineEngine} {env : PipelineEnvironment}
    {call : PipelineCall} (reads : call.Reads) : (engine.serve env call).2 = engine := by
  cases call <;> first | rfl | exact reads.elim

theorem serve_reads [Rounding] [Md5] (env : PipelineEnvironment) (call : PipelineCall)
    (reads : call.Reads) (engine : PipelineEngine) : (engine.serve env call).2 = engine :=
  reads.serve_eq

end PipelineCall

namespace PipelineRequest

variable {req : PipelineRequest} {P : PipelineCall → Prop}

/-- A check of a candidate calls nothing but the firewall. -/
theorem only_checkCandidate [Formatter]
    (evaluates : ∀ candidate worldState confidence,
      P (.evaluateCandidate candidate worldState confidence))
    (worldState : WorldState) (candidate : CounterfactualEstimate × KvAction) :
    (req.checkCandidate worldState candidate).Only P := by
  unfold checkCandidate
  split
  · exact trivial
  · refine ⟨evaluates _ _ _, fun answer => ?_⟩
    cases answer <;> exact trivial

/-- Only predictions are asked for while the candidates are generated. -/
theorem only_generateCandidate [Rounding] (predicts : ∀ key revision, P (.predict key revision))
    (backend : String) (node : ComputeNode) (strategy : KvStrategy) (revision : ℕ) :
    (req.generateCandidate backend node strategy revision).Only P :=
  ⟨predicts _ _, fun _ => ⟨predicts _ _, fun _ => trivial⟩⟩

theorem only_generateCandidates [Rounding] (predicts : ∀ key revision, P (.predict key revision))
    (backends : BackendRegistry) (nodes : List ComputeNode) (revision : ℕ) :
    (req.generateCandidates backends nodes revision).Only P :=
  Only.collect fun _ _ => Only.collect fun _ _ => Only.collect fun _ _ =>
    only_generateCandidate predicts _ _ _ _

/-- The stages up to the ranking only read. -/
theorem only_select [Rounding] [Formatter] : req.select.Only PipelineCall.Reads := by
  refine ⟨trivial, fun snapshot => ?_⟩
  cases snapshot with
  | error error => exact trivial
  | ok worldState =>
      simp only [done_bind]
      split
      · exact trivial
      · refine ⟨trivial, fun registry => ⟨trivial, fun capacity => ?_⟩⟩
        simp only [done_bind]
        split
        · exact trivial
        · refine (only_generateCandidates (fun _ _ => trivial) _ _ _).bind fun candidates => ?_
          exact (Only.collect fun candidate _ =>
            only_checkCandidate (fun _ _ _ => trivial) _ candidate).bind fun _ => trivial

end PipelineRequest

/-! ## The gates -/

section Passes

variable [Rounding]

namespace Placement

/-- What the pipeline expects of a placement. -/
def estimate (placement : Placement) (engine : PipelineEngine) (req : PipelineRequest) :
    CounterfactualEstimate :=
  let predict (key : String) :=
    engine.predictionEngine.predict key engine.worldStateManager.state.revision
  req.estimate placement.backend placement.node placement.strategy
    (.ofPrediction (predict (placement.backend ++ "-ttft")))
    (.ofPrediction (predict (placement.backend ++ "-e2e")))

/-- The gates between a placement and its execution. -/
structure Passes (engine : PipelineEngine) (env : PipelineEnvironment) (req : PipelineRequest)
    (placement : Placement) : Prop where
  registered : placement.backend ∈ env.backends.backendIds
  declared : env.backends.supports placement.backend req.modelRef placement.strategy = .ok true
  present : env.nodes.nodes.get placement.node.id = some placement.node
  healthy : placement.node.healthy = true
  resident : req.modelRef ∈ placement.node.residentModels
  memory : 1000 ≤ placement.node.availableMemoryMb
  queue : placement.node.queueDepth ≤ 10
  ttft : ∀ max ∈ req.maxTtftMs, ∀ v ∈ (placement.estimate engine req).predictedTtft.value, v ≤ max
  e2e : ∀ max ∈ req.maxE2eMs, ∀ v ∈ (placement.estimate engine req).predictedE2e.value, v ≤ max
  /-- The source's comparison, which a limit that is a NaN passes. -/
  cost : ∀ max ∈ req.maxCost, ∀ v ∈ (placement.estimate engine req).predictedCost.value, ¬ max < v
  approved : engine.firewall.evaluateCandidate (placement.estimate engine req)
    engine.worldStateManager.state .high
    (env.clock (.firewall (placement.estimate engine req).candidateId)) = .approved

end Placement

/-- The gates do not look at the admission. -/
theorem Placement.passes_withAdmission (engine : PipelineEngine) (env : PipelineEnvironment)
    (req : PipelineRequest) (controller : AdmissionController) (placement : Placement) :
    placement.Passes { engine with admissionController := controller } env req ↔
      placement.Passes engine env req :=
  ⟨fun passes => { passes with }, fun passes => { passes with }⟩

/-- A placement that passes, and that no other that passes ranks before. -/
structure Placement.Best (engine : PipelineEngine) (env : PipelineEnvironment)
    (req : PipelineRequest) (placement : Placement) : Prop where
  passes : placement.Passes engine env req
  first : ∀ other : Placement, other.Passes engine env req →
    (placement.estimate engine req).rank ≤ (other.estimate engine req).rank

variable {engine : PipelineEngine} {env : PipelineEnvironment} {req : PipelineRequest}
variable {placement other : Placement}

/-- The identifier of a candidate tells its placement, where backend and node are registered. -/
theorem Placement.eq_of_candidateId (registered : placement.backend ∈ env.backends.backendIds)
    (present : env.nodes.nodes.get placement.node.id = some placement.node)
    (registered' : other.backend ∈ env.backends.backendIds)
    (present' : env.nodes.nodes.get other.node.id = some other.node)
    (same : (placement.estimate engine req).candidateId = (other.estimate engine req).candidateId) :
    placement = other := by
  obtain ⟨backends, nodes, strategies⟩ := CandidateId.new_inj
    ⟨BackendRegistry.isIdentifier_of_mem registered, CapacitySnapshot.isIdentifier_of_get present⟩
    ⟨BackendRegistry.isIdentifier_of_mem registered', CapacitySnapshot.isIdentifier_of_get present'⟩
    same
  have node : placement.node = other.node :=
    Option.some.inj (present.symm.trans (nodes ▸ present'))
  cases placement
  cases other
  simp only at backends node strategies
  rw [backends, node, KvStrategy.debug_injective strategies]

theorem Placement.Passes.eq_of_candidateId (passes : placement.Passes engine env req)
    (passes' : other.Passes engine env req)
    (same : (placement.estimate engine req).candidateId = (other.estimate engine req).candidateId) :
    placement = other :=
  Placement.eq_of_candidateId passes.registered passes.present passes'.registered passes'.present
    same

/-- There is at most one best placement. -/
theorem Placement.Best.unique (best : placement.Best engine env req)
    (best' : other.Best engine env req) : placement = other := by
  have same := le_antisymm (best.first other best'.passes) (best'.first placement best.passes)
  refine best.passes.eq_of_candidateId best'.passes ?_
  have ids := congrArg (fun rank => (ofLex rank).2) same
  exact congrArg CandidateId.mk ids

end Passes

/-! ## What is selected -/

theorem BackendRegistry.mem_declaredStrategies {backends : BackendRegistry} {backend : String}
    {model : ModelReference} {strategy : KvStrategy} :
    strategy ∈ backends.declaredStrategies backend model ↔
      backends.supports backend model strategy = .ok true := by
  have every : strategy ∈ [.none, .prefixCache, .cachedKv, .crossModelKvTransfer] := by
    cases strategy <;> decide
  rw [declaredStrategies, List.mem_filter, and_iff_right every]
  cases backends.supports backend model strategy <;> simp [Except.toOption]

/-- The selection that is made when the engine is asked in this environment. -/
structure Selects [Rounding] (engine : PipelineEngine) (env : PipelineEnvironment)
    (req : PipelineRequest) (placement : Placement) (selection : Selection) : Prop where
  fresh : engine.worldStateManager.snapshot (env.clock .snapshot) = .ok selection.worldState
  notForced : req.forceStaleWorldState = false
  best : placement.Best engine env req
  candidate : selection.candidate = placement.estimate engine req
  kvAction : selection.kvAction = req.kvDecision.1

theorem selects_withAdmission [Rounding] {engine : PipelineEngine} {env : PipelineEnvironment}
    {req : PipelineRequest} {placement : Placement} {selection : Selection}
    (controller : AdmissionController) :
    Selects { engine with admissionController := controller } env req placement selection ↔
      Selects engine env req placement selection := by
  have gates := Placement.passes_withAdmission engine env req controller
  exact ⟨fun selects => { selects with best := ⟨(gates _).mp selects.best.passes,
      fun other passes => selects.best.first other ((gates _).mpr passes)⟩ },
    fun selects => { selects with best := ⟨(gates _).mpr selects.best.passes,
      fun other passes => selects.best.first other ((gates _).mp passes)⟩ }⟩

namespace PipelineRequest

variable {req : PipelineRequest} {engine : PipelineEngine} {env : PipelineEnvironment}

/-- The placements a request considers. -/
def placements (env : PipelineEnvironment) (req : PipelineRequest) : List Placement :=
  env.backends.backendIds.flatMap fun backend =>
    (env.nodes.evaluate req.requirement).1.flatMap fun node =>
      (env.backends.declaredStrategies backend req.modelRef).map fun strategy =>
        ⟨backend, node, strategy⟩

/-- A placement is considered if its backend declares its strategy and its node meets the
requirement. -/
theorem mem_placements {placement : Placement} :
    placement ∈ req.placements env ↔
      placement.backend ∈ env.backends.backendIds ∧
        placement.node ∈ (env.nodes.evaluate req.requirement).1 ∧
        env.backends.supports placement.backend req.modelRef placement.strategy = .ok true := by
  simp only [placements, List.mem_flatMap, List.mem_map, BackendRegistry.mem_declaredStrategies]
  constructor
  · rintro ⟨backend, registered, node, present, strategy, declared, rfl⟩
    exact ⟨registered, present, declared⟩
  · rintro ⟨registered, present, declared⟩
    exact ⟨_, registered, _, present, _, declared, rfl⟩

/-- What passes the gates has been considered. -/
theorem mem_placements_of_passes [Rounding] {placement : Placement}
    (passes : placement.Passes engine env req) : placement ∈ req.placements env := by
  -- a request requires no region
  have anyRegion : ∀ region ∈ req.requirement.region, region = placement.node.region :=
    fun _ given => absurd given (Option.not_mem_none _)
  have meets : req.requirement.rejection placement.node = none :=
    CapacityRequirement.rejection_eq_none_iff.mpr
      ⟨passes.healthy, anyRegion, passes.resident, passes.memory, passes.queue⟩
  exact mem_placements.mpr
    ⟨passes.registered, CapacitySnapshot.mem_evaluate.mpr ⟨passes.present, meets⟩, passes.declared⟩

/-- The candidates are generated placement by placement. -/
theorem result_generateCandidates [Rounding] [Md5] (engine : PipelineEngine)
    (env : PipelineEnvironment) (req : PipelineRequest) :
    (play (PipelineEngine.serve env) engine (req.generateCandidates env.backends
        (env.nodes.evaluate req.requirement).1 engine.worldStateManager.state.revision)).result =
      (req.placements env).map fun placement =>
        (placement.estimate engine req, req.kvDecision.1) := by
  have reads := PipelineCall.serve_reads env
  have only := req.only_generateCandidate (P := PipelineCall.Reads) fun _ _ => trivial
  unfold generateCandidates placements
  rw [result_play_collect (fun _ _ => Only.collect fun _ _ => Only.collect fun _ _ => only _ _ _ _)
    reads]
  simp only [result_play_collect (fun _ _ => Only.collect fun _ _ => only _ _ _ _) reads,
    result_play_collect (fun _ _ => only _ _ _ _) reads, List.map_eq_flatMap, List.flatMap_assoc,
    List.flatMap_singleton]
  rfl

/-- Generating candidates leaves the engine alone. -/
theorem state_generateCandidates [Rounding] [Md5] (engine : PipelineEngine)
    (env : PipelineEnvironment) (req : PipelineRequest) :
    (play (PipelineEngine.serve env) engine (req.generateCandidates env.backends
      (env.nodes.evaluate req.requirement).1 engine.worldStateManager.state.revision)).state =
      engine :=
  (req.only_generateCandidates (P := PipelineCall.Reads) (fun _ _ => trivial) _ _ _).state_eq
    (PipelineCall.serve_reads env)

theorem brokenLimit_eq_none_iff [Formatter] {candidate : CounterfactualEstimate} :
    req.brokenLimit candidate = none ↔
      (∀ max ∈ req.maxTtftMs, ∀ v ∈ candidate.predictedTtft.value, ¬ max < v) ∧
        (∀ max ∈ req.maxE2eMs, ∀ v ∈ candidate.predictedE2e.value, ¬ max < v) ∧
        ∀ max ∈ req.maxCost, ∀ v ∈ candidate.predictedCost.value, ¬ max < v := by
  simp only [brokenLimit, Option.orElse_eq_none, Option.map_eq_none_iff,
    Option.filter_eq_none_iff, Bool.not_eq_true, OperationalValue.exceeds_eq_false_iff,
    Option.mem_def]

/-- A candidate is valid that breaks no limit and is approved. -/
theorem ok_mem_result_checkCandidate [Rounding] [Formatter] [Md5] {worldState : WorldState}
    {candidate c : CounterfactualEstimate × KvAction} :
    .ok c ∈ (play (PipelineEngine.serve env) engine
        (req.checkCandidate worldState candidate)).result ↔
      c = candidate ∧ req.brokenLimit candidate.1 = none ∧
        engine.firewall.evaluateCandidate candidate.1 worldState .high
          (env.clock (.firewall candidate.1.candidateId)) = .approved := by
  unfold checkCandidate
  cases broken : req.brokenLimit candidate.1 with
  | some reason => simp
  | none =>
      cases decision : engine.firewall.evaluateCandidate candidate.1 worldState .high
          (env.clock (.firewall candidate.1.candidateId)) with
      | approved => simp [perform, play_call, PipelineEngine.serve, decision]
      | rejected reason => simp [perform, play_call, PipelineEngine.serve, decision]

/-- The outcome is that of a request for which no candidate was selected. -/
def Unselected (req : PipelineRequest) (outcome : PipelineOutcome) : Prop :=
  ∃ traceReason reason rejected revision,
    outcome = req.rejection traceReason reason rejected revision

/-- Nothing is chosen only if no candidate is valid. -/
theorem choose_eq_error [Rounding] {worldState : WorldState} {outcome : PipelineOutcome}
    {verdicts : List (Except TraceRejection (CounterfactualEstimate × KvAction))}
    (chosen : req.choose worldState verdicts = .error outcome) :
    verdicts.filterMap Except.toOption = [] ∧ req.Unselected outcome := by
  unfold choose at chosen
  cases valid : verdicts.filterMap Except.toOption with
  | nil =>
      rw [valid] at chosen
      exact ⟨rfl, _, _, _, _, (Except.error.inj chosen).symm⟩
  | cons first others => simp [valid] at chosen

theorem mem_filterMap_toOption {ε α : Type} {verdicts : List (Except ε α)} {a : α} :
    a ∈ verdicts.filterMap Except.toOption ↔ .ok a ∈ verdicts := by
  rw [List.mem_filterMap]
  constructor
  · rintro ⟨verdict, mem, valid⟩
    cases verdict with
    | error error => cases valid
    | ok a' => exact Option.some.inj valid ▸ mem
  · exact fun mem => ⟨.ok a, mem, rfl⟩

/-- The first in the ranking of feasible candidates. -/
theorem headD_evaluate [Rounding] {candidates : List CounterfactualEstimate}
    {fallback : CounterfactualEstimate} (member : fallback ∈ candidates)
    (feasible : ∀ c ∈ candidates, c.feasible = true) :
    let first := (CounterfactualEngine.evaluate candidates).headD fallback
    first ∈ candidates ∧ ∀ c ∈ candidates, first.rank ≤ c.rank := by
  have all : candidates.filter (·.feasible) = candidates := List.filter_eq_self.mpr feasible
  have agrees : ∀ a b : CounterfactualEstimate,
      (a.cmpRank b).isLE = true ↔ a.rank ≤ b.rank :=
    fun _ _ => CounterfactualEstimate.isLE_cmpRank
  unfold CounterfactualEngine.evaluate
  rw [all]
  rw [← mem_sortBy CounterfactualEstimate.cmpRank] at member
  cases sorted : sortBy CounterfactualEstimate.cmpRank candidates with
  | nil =>
      rw [sorted] at member
      exact absurd member List.not_mem_nil
  | cons first rest =>
      have mem : first ∈ sortBy CounterfactualEstimate.cmpRank candidates :=
        sorted ▸ List.mem_cons_self
      exact ⟨(mem_sortBy _).mp mem, fun c mem => key_head_sortBy_le agrees sorted mem⟩

/-- Of feasible candidates with one cache decision, the first in the ranking is chosen. -/
theorem choose_eq_ok [Rounding] {worldState : WorldState} {selection : Selection}
    {verdicts : List (Except TraceRejection (CounterfactualEstimate × KvAction))}
    {kvAction : KvAction}
    (every : ∀ c, .ok c ∈ verdicts → c.1.feasible = true ∧ c.2 = kvAction)
    (chosen : req.choose worldState verdicts = .ok selection) :
    selection.worldState = worldState ∧ selection.kvAction = kvAction ∧
      (∃ c, .ok c ∈ verdicts ∧ selection.candidate = c.1) ∧
      ∀ c, .ok c ∈ verdicts → selection.candidate.rank ≤ c.1.rank := by
  simp only [← mem_filterMap_toOption] at every ⊢
  unfold choose at chosen
  cases valid : verdicts.filterMap Except.toOption with
  | nil => simp [valid] at chosen
  | cons first others =>
      rw [valid] at chosen every
      obtain rfl := Except.ok.inj chosen
      have mem : first.1 ∈ (first :: others).map Prod.fst := List.mem_map_of_mem List.mem_cons_self
      obtain ⟨mem, least⟩ :=
        headD_evaluate mem (List.forall_mem_map.mpr fun c mem => (every c mem).1)
      generalize (CounterfactualEngine.evaluate ((first :: others).map Prod.fst)).headD first.1 =
        selected at mem least
      obtain ⟨c, valid, rfl⟩ := List.mem_map.mp mem
      refine ⟨rfl, ?_, ⟨c, valid, rfl⟩, fun c mem => least _ (List.mem_map_of_mem mem)⟩
      -- the cache decision that is found is that of a valid candidate
      have found : ((first :: others).find? (·.1.candidateId = c.1.candidateId)).isSome :=
        List.find?_isSome.mpr ⟨c, valid, decide_eq_true rfl⟩
      obtain ⟨c', isFound⟩ := Option.isSome_iff_exists.mp found
      simp only [isFound]
      exact (every c' (List.mem_of_find?_eq_some isFound)).2

section Select

variable [Rounding] [Formatter] [Md5]

/-- The valid candidates are the placements that pass. -/
theorem ok_mem_verdicts {c : CounterfactualEstimate × KvAction} :
    .ok c ∈ (play (PipelineEngine.serve env) engine (Program.collect
        (sortBy (fun a b => compare a.1.candidateId.value b.1.candidateId.value)
          (play (PipelineEngine.serve env) engine (req.generateCandidates env.backends
            (env.nodes.evaluate req.requirement).1
            engine.worldStateManager.state.revision)).result)
        (req.checkCandidate engine.worldStateManager.state))).result ↔
      ∃ placement : Placement, placement.Passes engine env req ∧
        c = (placement.estimate engine req, req.kvDecision.1) := by
  have reads := PipelineCall.serve_reads env
  rw [result_play_collect (fun c _ => only_checkCandidate (fun _ _ _ => trivial) _ c) reads]
  simp only [List.mem_flatMap, mem_sortBy, result_generateCandidates, List.mem_map,
    ok_mem_result_checkCandidate, brokenLimit_eq_none_iff]
  constructor
  · rintro ⟨_, ⟨placement, considered, rfl⟩, rfl, ⟨ttft, e2e, cost⟩, approved⟩
    obtain ⟨registered, present, declared⟩ := mem_placements.mp considered
    obtain ⟨present, meets⟩ := CapacitySnapshot.mem_evaluate.mp present
    obtain ⟨healthy, -, resident, memory, queue⟩ :=
      CapacityRequirement.rejection_eq_none_iff.mp meets
    exact ⟨placement,
      { registered := registered
        declared := declared
        present := present
        healthy := healthy
        resident := resident
        memory := memory
        queue := queue
        ttft := fun max given v known => UInt64.not_lt.mp (ttft max given v known)
        e2e := fun max given v known => UInt64.not_lt.mp (e2e max given v known)
        cost := cost
        approved := approved }, rfl⟩
  · rintro ⟨placement, passes, rfl⟩
    exact ⟨_, ⟨placement, mem_placements_of_passes passes, rfl⟩, rfl,
      ⟨fun max given v known => UInt64.not_lt.mpr (passes.ttft max given v known),
        fun max given v known => UInt64.not_lt.mpr (passes.e2e max given v known), passes.cost⟩,
      passes.approved⟩

/-- The selection leaves the engine as it is. -/
theorem play_select (engine : PipelineEngine) (env : PipelineEnvironment) (req : PipelineRequest) :
    ∃ result reads, (∀ event ∈ reads, PipelineCall.Reads event.call) ∧
      play (PipelineEngine.serve env) engine req.select = ⟨result, engine, reads⟩ := by
  have onlyReads : ∀ event ∈ (play (PipelineEngine.serve env) engine req.select).events,
      PipelineCall.Reads event.call := req.only_select.call_mem
  have stays : (play (PipelineEngine.serve env) engine req.select).state = engine :=
    req.only_select.state_eq (PipelineCall.serve_reads env)
  generalize play (PipelineEngine.serve env) engine req.select = played at onlyReads stays
  obtain ⟨result, state, reads⟩ := played
  exact ⟨result, reads, onlyReads, congrArg (Played.mk result · reads) stays⟩

/-- A request is rejected early, or a candidate is chosen among the placements that pass. -/
theorem result_select (engine : PipelineEngine) (env : PipelineEnvironment)
    (req : PipelineRequest) :
    (∃ outcome, req.Unselected outcome ∧
        (play (PipelineEngine.serve env) engine req.select).result = .error outcome ∧
        ∀ worldState, engine.worldStateManager.snapshot (env.clock .snapshot) = .ok worldState →
          req.forceStaleWorldState = false → env.backends.backendIds = []) ∨
      ∃ worldState verdicts,
        engine.worldStateManager.snapshot (env.clock .snapshot) = .ok worldState ∧
        req.forceStaleWorldState = false ∧
        (play (PipelineEngine.serve env) engine req.select).result =
          req.choose worldState verdicts ∧
        ∀ c, .ok c ∈ verdicts ↔ ∃ placement : Placement, placement.Passes engine env req ∧
          c = (placement.estimate engine req, req.kvDecision.1) := by
  simp only [select, bind_eq_bind, perform, call_bind, done_bind, play_call, PipelineEngine.serve]
  cases fresh : engine.worldStateManager.snapshot (env.clock .snapshot) with
  | error error => exact .inl ⟨_, ⟨_, _, _, _, rfl⟩, rfl, fun _ fresh => nomatch fresh⟩
  | ok worldState =>
      obtain ⟨-, rfl⟩ := WorldStateManager.snapshot_eq_ok_iff.mp fresh
      cases forced : req.forceStaleWorldState with
      | true => exact .inl ⟨_, ⟨_, _, _, _, rfl⟩, rfl, fun _ _ notForced => nomatch notForced⟩
      | false =>
          simp only [Bool.false_eq_true, if_false, play_call, PipelineEngine.serve]
          have stays := req.state_generateCandidates engine env
          unfold PipelineEnvironment.backends PipelineEnvironment.nodes at stays
          by_cases none : (env.registry.toOption.getD default).backendIds.isEmpty = true
          · simp only [none, if_true]
            exact .inl ⟨_, ⟨_, _, _, _, rfl⟩, rfl, fun _ _ _ => List.isEmpty_iff.mp none⟩
          · simp only [none, Bool.false_eq_true, if_false, play_bind, stays]
            exact .inr ⟨_, _, rfl, trivial, rfl, fun c => ok_mem_verdicts⟩

/-- What is rejected before a candidate is selected. -/
theorem unselected_of_select {outcome : PipelineOutcome}
    (rejected : (play (PipelineEngine.serve env) engine req.select).result = .error outcome) :
    req.Unselected outcome := by
  rcases result_select engine env req with
    ⟨outcome', unselected, result, -⟩ | ⟨worldState, verdicts, -, -, result, -⟩
  · exact Except.error.inj (result.symm.trans rejected) ▸ unselected
  · exact (choose_eq_error (result.symm.trans rejected)).2

/-- **What is selected is the best placement that passes.** -/
theorem selects_of_select {selection : Selection}
    (selected : (play (PipelineEngine.serve env) engine req.select).result = .ok selection) :
    ∃ placement, Selects engine env req placement selection := by
  rcases result_select engine env req with
    ⟨outcome, -, result, -⟩ | ⟨worldState, verdicts, fresh, notForced, result, valid⟩
  · cases result.symm.trans selected
  · have every : ∀ c, .ok c ∈ verdicts → c.1.feasible = true ∧ c.2 = req.kvDecision.1 := by
      intro c mem
      obtain ⟨placement, -, rfl⟩ := (valid c).mp mem
      exact ⟨rfl, rfl⟩
    obtain ⟨rfl, kvAction, ⟨c, mem, candidate⟩, first⟩ :=
      choose_eq_ok every (result.symm.trans selected)
    obtain ⟨placement, passes, rfl⟩ := (valid c).mp mem
    refine ⟨placement, fresh, notForced, ⟨passes, fun other passes => ?_⟩, candidate, kvAction⟩
    have le := first _ ((valid _).mpr ⟨other, passes, rfl⟩)
    rwa [candidate] at le

/-- **Something is selected** on a fresh snapshot, if anything passes. -/
theorem exists_select {worldState : WorldState} {placement : Placement}
    (fresh : engine.worldStateManager.snapshot (env.clock .snapshot) = .ok worldState)
    (notForced : req.forceStaleWorldState = false) (passes : placement.Passes engine env req) :
    ∃ selection, (play (PipelineEngine.serve env) engine req.select).result = .ok selection := by
  rcases result_select engine env req with
    ⟨-, -, -, none⟩ | ⟨_, verdicts, -, -, chosen, valid⟩
  · exact absurd (none _ fresh notForced ▸ passes.registered) List.not_mem_nil
  · cases result : req.choose _ verdicts with
    | ok selection => exact ⟨selection, chosen.trans result⟩
    | error outcome =>
        have mem := mem_filterMap_toOption.mpr ((valid _).mpr ⟨placement, passes, rfl⟩)
        rw [(choose_eq_error result).1] at mem
        exact absurd mem List.not_mem_nil

end Select

end PipelineRequest

end TrustRouter
