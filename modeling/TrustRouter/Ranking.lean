import TrustRouter.Prelude.Binary64
import TrustRouter.Traces

/-!
# The ranking

Candidates are ranked by their score and then by their identifier, and where identifiers are
distinct that leaves nothing to the order in which the candidates come (`evaluate_perm`).  The
identifier is also what joins the ranking to the decisions on the caches, which are kept in
another list: it is put together from the backend, the node and the strategy, and as none of
these has a colon in its name, it stands for one candidate only (`ranking_canonical`).
-/

namespace TrustRouter

open Program

namespace CounterfactualEngine

variable [Rounding] {estimates permuted : List CounterfactualEstimate}

instance : Std.TransCmp CounterfactualEstimate.cmpRank :=
  transCmp_then (transCmp_on compare fun c : CounterfactualEstimate => c.score.totalKey)
    (transCmp_on compare fun c : CounterfactualEstimate => c.candidateId.value)

theorem evaluate_perm_filter (estimates : List CounterfactualEstimate) :
    (evaluate estimates).Perm (estimates.filter (·.feasible)) :=
  perm_sortBy _ _

/-- Candidates that tie are one candidate. -/
theorem eq_of_cmpRank (distinct : (estimates.map (·.candidateId)).Nodup)
    {a b : CounterfactualEstimate} (memA : a ∈ estimates) (memB : b ∈ estimates)
    (same : a.cmpRank b = .eq) : a = b := by
  obtain ⟨-, ids⟩ := Ordering.then_eq_eq.mp same
  exact List.inj_on_of_nodup_map distinct memA memB
    (congrArg CandidateId.mk (compare_eq_iff_eq.mp ids))

/-- No candidate ranks with another. -/
theorem pairwise_evaluate (distinct : (estimates.map (·.candidateId)).Nodup) :
    (evaluate estimates).Pairwise fun a b => a.rank < b.rank := by
  have feasible : ((estimates.filter (·.feasible)).map (·.candidateId)).Nodup :=
    distinct.sublist (List.filter_sublist.map _)
  have apart : ((evaluate estimates).map (·.candidateId)).Nodup :=
    ((evaluate_perm_filter estimates).map _).nodup_iff.mpr feasible
  refine (pairwise_sortBy _).imp₂ (fun a b le differs => ?_) (List.pairwise_map.mp apart)
  refine lt_of_le_of_ne (CounterfactualEstimate.isLE_cmpRank.mp le) fun same => differs ?_
  exact congrArg CandidateId.mk (congrArg (fun rank => (ofLex rank).2) same)

/-- The ranking does not depend on the order of the candidates. -/
theorem evaluate_perm (distinct : (estimates.map (·.candidateId)).Nodup)
    (perm : estimates.Perm permuted) : evaluate permuted = evaluate estimates := by
  refine (sortBy_eq_of_perm_of_apart (fun a memA b memB => ?_) (perm.filter _)).symm
  exact eq_of_cmpRank distinct (List.mem_of_mem_filter memA) (List.mem_of_mem_filter memB)

end CounterfactualEngine

namespace PipelineRequest

variable [Rounding] {req : PipelineRequest} {engine : PipelineEngine} {env : PipelineEnvironment}

/-- The candidates are the estimates of the placements. -/
theorem mem_candidates {c : CounterfactualEstimate × KvAction} :
    c ∈ req.candidates engine env ↔
      ∃ placement ∈ req.placements env, c = (placement.estimate engine req, req.kvDecision.1) := by
  simp only [candidates, mem_sortBy, List.mem_map, eq_comm]

/-- The identifier of a candidate tells the placement it is an estimate of. -/
theorem eq_of_candidateId {placement other : Placement} (mem : placement ∈ req.placements env)
    (mem' : other ∈ req.placements env)
    (same : (placement.estimate engine req).candidateId = (other.estimate engine req).candidateId) :
    placement = other := by
  obtain ⟨registered, present, -⟩ := mem_placements.mp mem
  obtain ⟨registered', present', -⟩ := mem_placements.mp mem'
  exact Placement.eq_of_candidateId registered (CapacitySnapshot.mem_evaluate.mp present).1
    registered' (CapacitySnapshot.mem_evaluate.mp present').1 same

end PipelineRequest

/-- **The ranking is canonical.**  Of candidates with distinct identifiers the feasible ones
are ranked, by score and identifier, and in whatever order they come.  The identifier of a
candidate can be read back where backend and node are registered; and so the decision on the
caches that a selection comes with is the one made for the selected candidate. -/
theorem ranking_canonical [Rounding] [Formatter] [Md5] :
    (∀ estimates : List CounterfactualEstimate, (estimates.map (·.candidateId)).Nodup →
      (CounterfactualEngine.evaluate estimates).Perm (estimates.filter (·.feasible)) ∧
        (CounterfactualEngine.evaluate estimates).Pairwise (fun a b => a.rank < b.rank) ∧
        ∀ permuted, estimates.Perm permuted →
          CounterfactualEngine.evaluate permuted = CounterfactualEngine.evaluate estimates) ∧
    (∀ backend node strategy backend' node' strategy' : String,
      isIdentifier backend = true → Capacity.id node = true →
      isIdentifier backend' = true → Capacity.id node' = true →
      CandidateId.new backend node strategy = CandidateId.new backend' node' strategy' →
        backend = backend' ∧ node = node' ∧ strategy = strategy') ∧
    ∀ (engine : PipelineEngine) (env : PipelineEnvironment) (req : PipelineRequest)
      (selection : Selection),
      (play (PipelineEngine.serve env) engine req.select).result = .ok selection →
        (selection.candidate, selection.kvAction) ∈ req.candidates engine env ∧
          ∀ c ∈ req.candidates engine env,
            c.1.candidateId = selection.candidate.candidateId →
              c = (selection.candidate, selection.kvAction) := by
  refine ⟨fun estimates distinct => ⟨CounterfactualEngine.evaluate_perm_filter estimates,
    CounterfactualEngine.pairwise_evaluate distinct,
    fun permuted perm => CounterfactualEngine.evaluate_perm distinct perm⟩, ?_, ?_⟩
  · intro backend node strategy backend' node' strategy' valid present valid' present' same
    exact CandidateId.new_inj ⟨valid, present⟩ ⟨valid', present'⟩ same
  · intro engine env req selection selected
    obtain ⟨placement, selects⟩ := PipelineRequest.selects_of_select selected
    have considered := PipelineRequest.mem_placements_of_passes selects.best.passes
    rw [selects.candidate, selects.kvAction]
    refine ⟨PipelineRequest.mem_candidates.mpr ⟨placement, considered, rfl⟩, ?_⟩
    rintro c mem same
    obtain ⟨other, considered', rfl⟩ := PipelineRequest.mem_candidates.mp mem
    rw [PipelineRequest.eq_of_candidateId considered' considered same]

/-- Two strategies on one node, ranked in either order, and the one that is selected. -/
theorem ranking_canonical_of_setupEngine :
    letI := Rounding.nearestEven
    letI := Formatter.idle
    letI := Md5.ofFirstRecord
    let env := setupEnvironment [.none, .prefixCache] 0
    let candidates := setupRequest.candidates setupEngine env
    let estimates := candidates.map Prod.fst
    (CounterfactualEngine.evaluate estimates).Perm (estimates.filter (·.feasible)) ∧
      (CounterfactualEngine.evaluate estimates).Pairwise (fun a b => a.rank < b.rank) ∧
      CounterfactualEngine.evaluate estimates.reverse = CounterfactualEngine.evaluate estimates ∧
      (∀ strategy, CandidateId.new "backend-1" "node-1" strategy = ⟨"backend-1:node-1:None"⟩ →
        strategy = "None") ∧
      ∃ selection,
        (play (PipelineEngine.serve env) setupEngine setupRequest.select).result = .ok selection ∧
        selection.candidate.candidateId = ⟨"backend-1:node-1:None"⟩ ∧
        ∀ c ∈ candidates, c.1.candidateId = selection.candidate.candidateId →
          c = (selection.candidate, selection.kvAction) := by
  let _ := Rounding.nearestEven
  let _ := Formatter.idle
  let _ := Md5.ofFirstRecord
  intro env candidates estimates
  obtain ⟨ranked, named, selected⟩ := ranking_canonical
  have distinct : (estimates.map (·.candidateId)).Nodup := by decide +kernel
  obtain ⟨feasible, ordered, canonical⟩ := ranked estimates distinct
  have isIdentifier : isIdentifier "backend-1" = true ∧ Capacity.id "node-1" = true := by decide
  have answered : ((play (PipelineEngine.serve env) setupEngine
      setupRequest.select).result.toOption.any fun selection =>
        selection.candidate.candidateId = ⟨"backend-1:node-1:None"⟩) = true := by decide +kernel
  refine ⟨feasible, ordered, canonical _ (List.reverse_perm _).symm, fun strategy same => ?_, ?_⟩
  · exact (named "backend-1" "node-1" strategy "backend-1" "node-1" "None" isIdentifier.1
      isIdentifier.2 isIdentifier.1 isIdentifier.2 same).2.2
  · cases result : (play (PipelineEngine.serve env) setupEngine setupRequest.select).result with
    | error error =>
        rw [result] at answered
        cases answered
    | ok selection =>
        rw [result] at answered
        exact ⟨selection, rfl, of_decide_eq_true answered,
          (selected setupEngine env setupRequest selection result).2⟩

end TrustRouter
