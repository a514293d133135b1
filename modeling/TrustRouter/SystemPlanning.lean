import TrustRouter.Inference
import TrustRouter.Registries

/-!
# System planning

A placement is a backend, a compute node and an inference estimate.  `SystemPlanner.decide`
sorts the placements, drops those that fail a gate of the capacity snapshot or of the
backend registry, and has the estimates of the rest scored.  Scoring knows estimates only,
so what it says is mapped back to the placements by comparing estimates with `==`.

The gates are stated once more without the sets they are computed from (`gate_eq`), which
is what every statement about the decision uses.  The decision depends on the candidates
only through their canonical order (`decide_perm`).
-/

namespace TrustRouter

open Float64

@[ext] structure PlacementCandidate (φ : Type) where
  backendId : String
  computeNodeId : String
  estimate : InferenceCandidate φ
  deriving DecidableEq

inductive PlacementRejection where
  | invalidCandidate
  | modelMismatch
  | unknownComputeNode
  | capacity (reason : CapacityRejection)
  | unknownBackend
  | unsupportedBackendCapability
  | inference (reason : RejectionReason)
  deriving DecidableEq

structure PlacementSelection (φ : Type) where
  backendId : String
  computeNodeId : String
  scored : ScoredCandidate φ
  fallback : List KvStrategy

structure SystemDecision (φ : Type) where
  selected : Option (PlacementSelection φ)
  rejected : List (PlacementCandidate φ × PlacementRejection)
  unavailableNodes : List (String × CapacityRejection)
  configError : Option DecisionError

structure SystemPlanner where
  backends : BackendRegistry
  capacity : CapacitySnapshot

/-- The place of a reason in the derived order. -/
def CapacityRejection.rank : CapacityRejection → ℕ
  | unhealthy => 0
  | regionMismatch => 1
  | modelNotResident => 2
  | insufficientMemory => 3
  | queueLimit => 4

/-- The place of a reason in the derived order; a payload is compared after the variant. -/
def PlacementRejection.rank : PlacementRejection → ℕ
  | invalidCandidate => 0
  | modelMismatch => 1
  | unknownComputeNode => 2
  | capacity reason => 3 + reason.rank
  | unknownBackend => 8
  | unsupportedBackendCapability => 9
  | inference reason => 10 + reason.rank

namespace SystemPlanning

variable {φ : Type} [Float64 φ]

/-- The `valid_identifier` of the module. -/
def validIdentifier : String → Bool := isIdentifier

def candidateOrder (left right : PlacementCandidate φ) : Ordering :=
  (compare left.backendId right.backendId).then <|
    (compare left.computeNodeId right.computeNodeId).then <|
      (left.estimate.model.cmp right.estimate.model).then <|
        (compare left.estimate.strategy.rank right.estimate.strategy.rank).then <|
          (totalCmp left.estimate.latencyMs right.estimate.latencyMs).then <|
            (totalCmp left.estimate.cost right.estimate.cost).then <|
              (totalCmp left.estimate.failureRate right.estimate.failureRate).then <|
                totalCmp left.estimate.quality right.estimate.quality

def sortRejections (values : List (PlacementCandidate φ × PlacementRejection)) :
    List (PlacementCandidate φ × PlacementRejection) :=
  sortBy (fun left right =>
    (candidateOrder left.1 right.1).then (compare left.2.rank right.2.rank)) values

instance : Std.TransCmp (candidateOrder (φ := φ)) :=
  transCmp_then (transCmp_on compare PlacementCandidate.backendId) <|
    transCmp_then (transCmp_on compare PlacementCandidate.computeNodeId)
      (transCmp_on Inference.candidateOrder PlacementCandidate.estimate)

/-- The order compares all eight fields, so only identical placements are equal in it. -/
instance : Std.LawfulEqCmp (candidateOrder (φ := φ)) where
  compare_self := by simp [candidateOrder]
  eq_of_compare {a b} same := by
    obtain ⟨backendId, rest⟩ := Ordering.then_eq_eq.mp same
    obtain ⟨computeNodeId, estimate⟩ := Ordering.then_eq_eq.mp rest
    have estimate' : Inference.candidateOrder a.estimate b.estimate = .eq := estimate
    exact PlacementCandidate.ext (Std.LawfulEqOrd.eq_of_compare backendId)
      (Std.LawfulEqOrd.eq_of_compare computeNodeId)
      (Std.LawfulEqCmp.eq_of_compare estimate')

end SystemPlanning

namespace SystemPlanner

open SystemPlanning

variable {φ : Type}

/-- The gates before scoring: the first one the candidate fails. -/
def gate (planner : SystemPlanner) (requirement : CapacityRequirement)
    (candidate : PlacementCandidate φ) : Option PlacementRejection :=
  let (eligible, unavailableNodes) := planner.capacity.evaluate requirement
  let eligibleIds := eligible.map ComputeNode.id
  let unavailableById := BTreeMap.ofList unavailableNodes
  if !validIdentifier candidate.backendId || !validIdentifier candidate.computeNodeId then
    some .invalidCandidate
  else if candidate.estimate.model ≠ requirement.model then some .modelMismatch
  else if candidate.computeNodeId ∉ eligibleIds then
    some ((unavailableById.get candidate.computeNodeId).elim .unknownComputeNode .capacity)
  else
    match planner.backends.supports candidate.backendId candidate.estimate.model
        candidate.estimate.strategy with
    | .ok true => none
    | .ok false => some .unsupportedBackendCapability
    | .error (.unknownBackend _) => some .unknownBackend
    | .error _ => some .invalidCandidate

variable [Float64 φ]

protected def decide (planner : SystemPlanner) (candidates : List (PlacementCandidate φ))
    (requirement : CapacityRequirement) (constraints : InferenceConstraints φ)
    (weights : ObjectiveWeights φ) : SystemDecision φ :=
  let unavailableNodes := (planner.capacity.evaluate requirement).2
  let ordered := sortBy candidateOrder candidates
  let rejected := ordered.filterMap fun candidate =>
    (planner.gate requirement candidate).map (Prod.mk candidate)
  let feasible := ordered.filter fun candidate => planner.gate requirement candidate = none
  match Inference.tryDecide (feasible.map PlacementCandidate.estimate) constraints weights with
  | .error error =>
      { selected := none
        rejected := sortRejections
          (rejected ++ feasible.map fun candidate => (candidate, .inference .invalidPlanningConfig))
        unavailableNodes := unavailableNodes
        configError := some error }
  | .ok decision =>
      let mapped := decision.rejected.flatMap fun (estimate, reason) =>
        (feasible.filter fun candidate => Inference.eq candidate.estimate estimate).map
          fun candidate => (candidate, .inference reason)
      let selected := decision.selected.bind fun scored =>
        (feasible.find? fun candidate => Inference.eq candidate.estimate scored.candidate).map
          fun candidate =>
            { backendId := candidate.backendId
              computeNodeId := candidate.computeNodeId
              scored := scored
              fallback := decision.fallback }
      { selected := selected
        rejected := sortRejections (rejected ++ mapped)
        unavailableNodes := unavailableNodes
        configError := none }

/-! ## The gates -/

omit [Float64 φ] in
/-- The gates in terms of what is registered. -/
def firstGate (planner : SystemPlanner) (requirement : CapacityRequirement)
    (candidate : PlacementCandidate φ) : Option PlacementRejection :=
  if !isIdentifier candidate.backendId || !isIdentifier candidate.computeNodeId then
    some .invalidCandidate
  else if candidate.estimate.model ≠ requirement.model then some .modelMismatch
  else
    match planner.capacity.nodes.get candidate.computeNodeId with
    | none => some .unknownComputeNode
    | some node =>
        match requirement.rejection node with
        | some reason => some (.capacity reason)
        | none =>
            match planner.backends.entries.get candidate.backendId with
            | none => some .unknownBackend
            | some entry =>
                if entry.descriptor.supports candidate.estimate.model candidate.estimate.strategy
                then none else some .unsupportedBackendCapability

theorem get_ofList_unavailable (capacity : CapacitySnapshot) (requirement : CapacityRequirement)
    (id : String) :
    (BTreeMap.ofList (capacity.evaluate requirement).2).get id =
      (capacity.nodes.get id).bind requirement.rejection := by
  have sublist : ∀ entries : List (String × ComputeNode),
      ((entries.filterMap fun entry => (requirement.rejection entry.2).map
        (Prod.mk entry.1)).map Prod.fst).Sublist (entries.map Prod.fst) := by
    intro entries
    induction entries with
    | nil => exact .slnil
    | cons entry entries ih =>
        cases reason : requirement.rejection entry.2 with
        | none => simpa [reason] using ih.cons entry.1
        | some _ => simpa [reason] using ih.cons_cons entry.1
  -- `collect` keeps the last of two entries with one key, and here there are no two
  have nodup := capacity.nodes.keys_nodup.sublist (sublist capacity.nodes.entries)
  ext reason
  rw [CapacitySnapshot.evaluate, BTreeMap.get_ofList nodup]
  simp only [List.mem_filterMap, Option.map_eq_some_iff, Prod.mk.injEq, Option.bind_eq_some_iff,
    BTreeMap.get_eq_some_iff]
  constructor
  · rintro ⟨⟨_, node⟩, mem, _, rejected, rfl, rfl⟩
    exact ⟨node, mem, rejected⟩
  · rintro ⟨node, mem, rejected⟩
    exact ⟨(id, node), mem, reason, rejected, rfl, rfl⟩

theorem mem_eligible {capacity : CapacitySnapshot} {requirement : CapacityRequirement}
    {id : String} :
    id ∈ (capacity.evaluate requirement).1.map ComputeNode.id ↔
      ∃ node, capacity.nodes.get id = some node ∧ requirement.rejection node = none := by
  rw [List.mem_map]
  constructor
  · rintro ⟨node, mem, rfl⟩
    exact ⟨node, CapacitySnapshot.mem_evaluate.mp mem⟩
  · rintro ⟨node, found, passes⟩
    obtain rfl := (capacity.registered id node found).1
    exact ⟨node, CapacitySnapshot.mem_evaluate.mpr ⟨found, passes⟩, rfl⟩

omit [Float64 φ] in
/-- The sets computed from the snapshot say what is registered. -/
theorem gate_eq (planner : SystemPlanner) (requirement : CapacityRequirement) :
    planner.gate requirement = planner.firstGate (φ := φ) requirement := by
  funext candidate
  unfold gate firstGate validIdentifier
  dsimp only
  rw [get_ofList_unavailable]
  simp only [mem_eligible]
  split_ifs with invalid model eligible
  · rfl
  · rfl
  · obtain ⟨node, found, passes⟩ := eligible
    rw [found]
    dsimp only
    rw [passes]
    dsimp only
    unfold BackendRegistry.supports
    cases planner.backends.entries.get candidate.backendId with
    | none => rfl
    | some entry =>
        dsimp only
        cases entry.descriptor.supports candidate.estimate.model candidate.estimate.strategy <;> rfl
  · cases found : planner.capacity.nodes.get candidate.computeNodeId with
    | none => rfl
    | some node =>
        cases reason : requirement.rejection node with
        -- registered nodes that are not eligible have a reason
        | none => exact absurd ⟨node, found, reason⟩ eligible
        | some reason' => simp [reason]

/-! ## The order of the candidates -/

/-- **The decision does not depend on the order of the candidates.** -/
theorem decide_eq_of_perm (planner : SystemPlanner)
    {candidates candidates' : List (PlacementCandidate φ)} (perm : candidates.Perm candidates')
    (requirement : CapacityRequirement)
    (constraints : InferenceConstraints φ) (weights : ObjectiveWeights φ) :
    planner.decide candidates requirement constraints weights =
      planner.decide candidates' requirement constraints weights := by
  have same : sortBy candidateOrder candidates = sortBy candidateOrder candidates' :=
    sortBy_eq_of_perm perm
  unfold SystemPlanner.decide
  rw [same]

/-- Two placements that a comparison of their estimates cannot tell apart: one has a cost of
`0.0` and the other of `-0.0`. -/
theorem decide_eq_of_perm_zeros :
    letI := Float64.ofBits (fun x _ => x) (fun x _ => x) (fun x _ => x) fun x _ => x
    let placement := fun cost : UInt64 =>
      (⟨"backend", "node", ⟨⟨"model", "1"⟩, .none, 0, cost, 0, 0⟩⟩ : PlacementCandidate UInt64)
    let requirement : CapacityRequirement := ⟨⟨"model", "1"⟩, none, 0, 0⟩
    (⟨default, default⟩ : SystemPlanner).decide [placement 0, placement 0x8000000000000000]
        requirement ⟨0, 0, 0⟩ ⟨0, 0, 0, 0⟩ =
      (⟨default, default⟩ : SystemPlanner).decide [placement 0x8000000000000000, placement 0]
        requirement ⟨0, 0, 0⟩ ⟨0, 0, 0, 0⟩ := by
  let _ := Float64.ofBits (fun x _ => x) (fun x _ => x) (fun x _ => x) fun x _ => x
  exact decide_eq_of_perm _ (List.Perm.swap _ _ _) _ _ _

/-! ## Which placements are reported -/

/-- The first gate a placement fails, scoring included.  No placement passes an invalid
configuration. -/
def firstFailure (planner : SystemPlanner) (requirement : CapacityRequirement)
    (constraints : InferenceConstraints φ) (weights : ObjectiveWeights φ)
    (candidate : PlacementCandidate φ) : Option PlacementRejection :=
  (planner.firstGate requirement candidate).or <|
    if constraints.validate = .ok () ∧ weights.validate = .ok () then
      (Inference.rejection constraints candidate.estimate).map .inference
    else some (.inference .invalidPlanningConfig)

/-- Every placement that fails a gate is reported once, with the first gate it fails, and no
other placement is. -/
def Accounted (planner : SystemPlanner) (candidates : List (PlacementCandidate φ))
    (requirement : CapacityRequirement) (constraints : InferenceConstraints φ)
    (weights : ObjectiveWeights φ) : Prop :=
  (planner.decide candidates requirement constraints weights).rejected.Perm
    (candidates.filterMap fun candidate =>
      (planner.firstFailure requirement constraints weights candidate).map (Prod.mk candidate))

/-- The placements that pass the gates and are refused by the scorer. -/
def refused (planner : SystemPlanner) (requirement : CapacityRequirement)
    (constraints : InferenceConstraints φ) (candidates : List (PlacementCandidate φ)) :
    List (PlacementCandidate φ) :=
  candidates.filter fun candidate =>
    planner.firstGate requirement candidate = none ∧
      Inference.rejection constraints candidate.estimate ≠ none

/-- What a list of optional reports says, as a list of those that are made. -/
theorem filterMap_or_perm {α β : Type} (first second : α → Option β) (items : List α) :
    (items.filterMap fun a => ((first a).or (second a)).map (Prod.mk a)).Perm
      ((items.filterMap fun a => (first a).map (Prod.mk a)) ++
        (items.filter fun a => (first a).isNone).filterMap
          fun a => (second a).map (Prod.mk a)) := by
  induction items with
  | nil => rfl
  | cons a items ih =>
      cases early : first a with
      | some b => simpa [early] using ih
      | none =>
          cases late : second a with
          | none => simpa [early, late] using ih
          | some b => simpa [early, late] using (ih.cons (a, b)).trans List.perm_middle.symm

theorem filterMap_map_eq {α β γ : Type} (f : α → Option β) (g : α → β → γ) (d : β)
    (items : List α) :
    (items.filterMap fun a => (f a).map (g a)) =
      (items.filter fun a => (f a).isSome).map fun a => g a ((f a).getD d) := by
  induction items with
  | nil => rfl
  | cons a items ih => cases found : f a <;> simp [found, ih]

/-- A placement, with what the scorer says of its estimate. -/
def report (constraints : InferenceConstraints φ) (candidate : PlacementCandidate φ) :
    PlacementCandidate φ × PlacementRejection :=
  (candidate,
    .inference ((Inference.rejection constraints candidate.estimate).getD .invalidEstimate))

theorem report_injective (constraints : InferenceConstraints φ) :
    Function.Injective (report constraints) := fun _ _ same => congrArg Prod.fst same

/-- Mapping refused estimates back to placements reports each refused placement as often as
there are refused placements with an equal estimate. -/
theorem mapped_perm {constraints : InferenceConstraints φ} {feasible : List (PlacementCandidate φ)}
    {rejected : List (InferenceCandidate φ × RejectionReason)}
    (scored : rejected.Perm ((feasible.map PlacementCandidate.estimate).filterMap fun estimate =>
      (Inference.rejection constraints estimate).map (Prod.mk estimate))) :
    let refused := feasible.filter fun candidate =>
      (Inference.rejection constraints candidate.estimate).isSome
    (rejected.flatMap fun (estimate, reason) =>
        (feasible.filter fun candidate => Inference.eq candidate.estimate estimate).map
          fun candidate => (candidate, PlacementRejection.inference reason)).Perm
      ((refused.flatMap fun first => refused.filter fun second =>
        Inference.eq first.estimate second.estimate).map (report constraints)) := by
  intro refused
  -- what the scorer has sorted is, up to order, the refused with their reasons
  refine (scored.flatMap_right _).trans (List.Perm.of_eq ?_)
  rw [filterMap_map_eq _ _ .invalidEstimate, List.filter_map, List.flatMap_map, List.flatMap_map,
    List.map_flatMap]
  refine List.flatMap_congr fun first mem => ?_
  obtain ⟨-, isRefused⟩ := List.mem_filter.mp mem
  -- an equal estimate is refused as well, and for the same reason
  have found : refused.filter (fun second => Inference.eq first.estimate second.estimate) =
      feasible.filter fun second => Inference.eq second.estimate first.estimate := by
    rw [List.filter_filter]
    refine List.filter_congr fun second _ => ?_
    rw [Inference.eq_comm]
    cases same : Inference.eq second.estimate first.estimate with
    | false => rfl
    | true => rw [Inference.rejection_congr same, Bool.true_and]; exact isRefused
  rw [found]
  refine List.map_congr_left fun second mem => ?_
  rw [report, Inference.rejection_congr (List.mem_filter.mp mem).2]

/-- The refused placements are found once each exactly when their estimates are numbers and
differ. -/
theorem lookup_perm_iff {refused : List (PlacementCandidate φ)} :
    (refused.flatMap fun first => refused.filter fun second =>
        Inference.eq first.estimate second.estimate).Perm refused ↔
      (∀ candidate ∈ refused, Inference.NoNan candidate.estimate) ∧
        refused.Pairwise fun first second =>
          Inference.eq first.estimate second.estimate = false := by
  let same := fun first second : PlacementCandidate φ => Inference.eq first.estimate second.estimate
  have symm : ∀ first second, same first second = same second first :=
    fun _ _ => Inference.eq_comm _ _
  have trans : ∀ first second third, same first second = true → same second third = true →
      same first third = true := fun _ _ _ => Inference.eq_trans
  simp only [← Inference.eq_self_iff]
  exact flatMap_filter_perm_iff symm trans

/-- With a valid configuration, a placement is reported for a gate it fails, or as often as
its estimate is found among the refused. -/
theorem rejected_perm_of_valid (planner : SystemPlanner)
    (candidates : List (PlacementCandidate φ)) (requirement : CapacityRequirement)
    {constraints : InferenceConstraints φ} {weights : ObjectiveWeights φ}
    (validConstraints : constraints.validate = .ok ())
    (validWeights : weights.validate = .ok ()) :
    let ordered := sortBy candidateOrder candidates
    let refused := planner.refused requirement constraints ordered
    (planner.decide candidates requirement constraints weights).rejected.Perm
      ((ordered.filterMap fun candidate =>
          (planner.firstGate requirement candidate).map (Prod.mk candidate)) ++
        (refused.flatMap fun first => refused.filter fun second =>
          Inference.eq first.estimate second.estimate).map (report constraints)) := by
  intro ordered refused
  have both : refused = (ordered.filter fun candidate =>
      planner.firstGate requirement candidate = none).filter fun candidate =>
        (Inference.rejection constraints candidate.estimate).isSome := by
    rw [List.filter_filter]
    refine List.filter_congr fun candidate _ => ?_
    cases Inference.rejection constraints candidate.estimate <;> simp
  obtain ⟨decision, decided, -, scored⟩ := Inference.tryDecide_of_valid
    ((ordered.filter fun candidate => planner.firstGate requirement candidate = none).map
      PlacementCandidate.estimate) validConstraints validWeights
  unfold SystemPlanner.decide
  dsimp only
  rw [gate_eq, decided, both]
  -- `sort_rejections` reorders, and the two lists before it are the gates and the scorer
  exact (perm_sortBy _ _).trans ((mapped_perm scored).append_left _)

/-- What is to be reported: the gates that are failed, and what the scorer would say of the
placements that fail none. -/
theorem expected_perm (planner : SystemPlanner) (candidates : List (PlacementCandidate φ))
    (requirement : CapacityRequirement) (late : PlacementCandidate φ → Option PlacementRejection) :
    (candidates.filterMap fun candidate =>
        ((planner.firstGate requirement candidate).or (late candidate)).map
          (Prod.mk candidate)).Perm
      (((sortBy candidateOrder candidates).filterMap fun candidate =>
          (planner.firstGate requirement candidate).map (Prod.mk candidate)) ++
        ((sortBy candidateOrder candidates).filter fun candidate =>
          planner.firstGate requirement candidate = none).filterMap fun candidate =>
            (late candidate).map (Prod.mk candidate)) := by
  refine ((perm_sortBy candidateOrder candidates).symm.filterMap _).trans
    ((filterMap_or_perm _ _ _).trans (List.Perm.of_eq ?_))
  congr 2
  refine List.filter_congr fun candidate _ => ?_
  cases planner.firstGate requirement candidate <;> rfl

/-- With an invalid configuration, every placement is reported once. -/
theorem accounted_of_invalid {planner : SystemPlanner} {candidates : List (PlacementCandidate φ)}
    {requirement : CapacityRequirement} {constraints : InferenceConstraints φ}
    {weights : ObjectiveWeights φ}
    (invalid : ¬ (constraints.validate = .ok () ∧ weights.validate = .ok ())) :
    planner.Accounted candidates requirement constraints weights := by
  unfold Accounted firstFailure
  simp only [if_neg invalid]
  refine List.Perm.trans ?_ (planner.expected_perm candidates requirement _).symm
  obtain ⟨error, refused⟩ := Inference.tryDecide_of_invalid
    (((sortBy candidateOrder candidates).filter fun candidate =>
      planner.firstGate requirement candidate = none).map PlacementCandidate.estimate) invalid
  unfold SystemPlanner.decide
  dsimp only
  rw [gate_eq, refused]
  refine (perm_sortBy _ _).trans (List.Perm.of_eq ?_)
  simp

/-- **When no placement is lost or counted twice.**  The placements that pass the gates and
are refused by the scorer are looked up by comparing estimates.  They are reported once
each if no estimate of theirs is a NaN and no two of them compare equal, and not
otherwise.  An invalid configuration is not scored, and everything is reported. -/
theorem accounted_iff (planner : SystemPlanner) (candidates : List (PlacementCandidate φ))
    (requirement : CapacityRequirement) (constraints : InferenceConstraints φ)
    (weights : ObjectiveWeights φ) :
    planner.Accounted candidates requirement constraints weights ↔
      (constraints.validate = .ok () ∧ weights.validate = .ok () →
        (∀ candidate ∈ planner.refused requirement constraints candidates,
            Inference.NoNan candidate.estimate) ∧
          (planner.refused requirement constraints candidates).Pairwise fun first second =>
            Inference.eq first.estimate second.estimate = false) := by
  by_cases valid : constraints.validate = .ok () ∧ weights.validate = .ok ()
  · rw [forall_prop_of_true valid]
    set ordered := sortBy candidateOrder candidates
    set refused := planner.refused requirement constraints ordered with refused_eq
    have perm : refused.Perm (planner.refused requirement constraints candidates) :=
      (perm_sortBy candidateOrder candidates).filter _
    -- what the scorer is expected to report: every refused placement once
    have late : (ordered.filter fun candidate =>
        planner.firstGate requirement candidate = none).filterMap (fun candidate =>
          ((Inference.rejection constraints candidate.estimate).map
            PlacementRejection.inference).map (Prod.mk candidate)) =
        refused.map (report constraints) := by
      simp only [Option.map_map]
      rw [filterMap_map_eq _ _ .invalidEstimate, List.filter_filter, refused_eq]
      congr 1
      refine List.filter_congr fun candidate _ => ?_
      cases Inference.rejection constraints candidate.estimate <;> simp
    have expected := planner.expected_perm candidates requirement fun candidate =>
      (Inference.rejection constraints candidate.estimate).map .inference
    have reported := planner.rejected_perm_of_valid candidates requirement valid.1 valid.2
    rw [late] at expected
    unfold Accounted firstFailure
    simp only [if_pos valid]
    -- the reports for the gates agree, so all depends on what is looked up
    rw [reported.congr_left, expected.congr_right, List.perm_append_left_iff,
      List.map_perm_map_iff (report_injective constraints)]
    refine lookup_perm_iff.trans ?_
    refine and_congr (forall_congr' fun candidate => ?_) (perm.pairwise_iff fun apart => ?_)
    · rw [← perm.mem_iff]
    · rwa [Inference.eq_comm]
  · exact iff_of_true (accounted_of_invalid valid) fun isValid => absurd isValid valid

/-- One backend that declares normal prefill of a model, and one node that holds it. -/
def single [Rounding] : SystemPlanner :=
  let model : ModelReference := ⟨"model", "1"⟩
  let mock : MockBackend :=
    { name := "backend"
      model := model
      supported := [.none]
      result :=
        { backend := "backend"
          success := true
          latencyMs := some 1
          estimatedCost := some (.ofRat (1 / 10))
          failure := none } }
  let descriptor : BackendDescriptor :=
    { id := "backend"
      version := "1"
      capabilities := (∅ : HashMap _ _).insert model {.none} }
  let node : ComputeNode :=
    { id := "node"
      region := "region-a"
      accelerator := "simulated"
      totalMemoryMb := 100
      availableMemoryMb := 50
      utilization := .ofRat (1 / 2)
      activeRequests := 0
      queueDepth := 0
      healthy := true
      residentModels := {model} }
  { backends := ((default : BackendRegistry).register descriptor mock.backend).toOption.getD default
    capacity := ((default : CapacitySnapshot).register node).toOption.getD default }

/-- A placement whose latency is a NaN passes the gates and is refused by the scorer, but it
is found nowhere when it is looked up, and so it is not reported. -/
theorem not_accounted_nan :
    letI := Rounding.exact
    ¬ single.Accounted
      [(⟨"backend", "node", ⟨⟨"model", "1"⟩, .none, .nan, .finite 0, .finite 0, .finite 1⟩⟩ :
        PlacementCandidate F64)]
      ⟨⟨"model", "1"⟩, some "region-a", 10, 1⟩ default default := by
  let _ := Rounding.exact
  unfold Accounted
  decide +kernel

end SystemPlanner

end TrustRouter
