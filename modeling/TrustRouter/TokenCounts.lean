import TrustRouter.Dispatch
import TrustRouter.Feedback

/-!
# Tokens counted

What an execution is observed with is put together when it is over: the transport has
answered and the record is on the audit chain.  The number of its tokens is a sum of two
fields of the request that nothing has looked at before, in 64 bits.

A build with overflow checks panics in that sum; one without counts what is left of it.
Either way the count is right exactly if the sum fits, or if it is never made
(`countsTokens_iff`).
-/

namespace TrustRouter

open Program

section

variable [Rounding]

/-- Every execution that has been answered is observed, and every observation counts the
tokens that were asked for. -/
structure CountsTokens (req : PipelineRequest)
    (played : Played pipelineInterface PipelineEngine PipelineOutcome) : Prop where
  observed : ∀ request resp, (request, .ok resp) ∈ played.events.filterMap execution →
    played.events.filterMap ingested ≠ []
  counted : ∀ obs answer, (obs, answer) ∈ played.events.filterMap ingested →
    obs.totalTokens.toNat = req.promptTokens.toNat + req.maxTokens.toNat

omit [Rounding] in
theorem toNat_totalTokens_eq_iff {req : PipelineRequest} {selection : Selection}
    {resp : TransportResponse} {now : SystemTime} :
    (req.observation selection resp now).totalTokens.toNat =
        req.promptTokens.toNat + req.maxTokens.toNat ↔
      req.promptTokens.toNat + req.maxTokens.toNat < 2 ^ 64 := by
  show (req.promptTokens + req.maxTokens).toNat = _ ↔ _
  rw [UInt64.toNat_add, Nat.mod_eq_iff_lt (by decide)]

omit [Rounding] in
theorem ingested_of_entrance {event : PipelineEvent} (entrance : event.call.Entrance) :
    ingested event = none := by
  obtain ⟨call, answer⟩ := event
  cases call <;> first | rfl | exact entrance.elim

variable [Formatter] [Md5]
variable {engine : PipelineEngine} {env : PipelineEnvironment} {req : PipelineRequest}
variable {transport : InferenceTransport} {kvTransport : Option KvTransport}

/-- A call observes nothing, or what was executed at the placement it is dispatched to. -/
theorem observes (engine : PipelineEngine) (env : PipelineEnvironment) (req : PipelineRequest)
    (transport : InferenceTransport) (kvTransport : Option KvTransport) :
    let events := (engine.processRequest env req transport kvTransport).events
    (events.filterMap ingested = [] ∧
      (∀ request resp, (request, .ok resp) ∉ events.filterMap execution) ∧
      ∀ placement, Dispatches engine env req kvTransport placement →
        ∃ error, transport.execute (req.dispatchedTo placement.backend) = .error error) ∨
    ∃ placement selection resp answer, Dispatches engine env req kvTransport placement ∧
      transport.execute (req.dispatchedTo placement.backend) = .ok resp ∧
      events.filterMap ingested =
        [(req.observation selection resp (env.clock .observation), answer)] := by
  intro events
  have taken := course engine env req transport kvTransport
  have same : events = (engine.processRequest env req transport kvTransport).events := rfl
  clear_value events
  generalize engine.processRequest env req transport kvTransport = played at taken same
  subst same
  cases taken with
  | turnedAway unselected nowhere entrances =>
      refine .inl ⟨List.filterMap_eq_nil_iff.mpr fun event mem =>
        ingested_of_entrance (entrances event mem), fun request resp mem => ?_,
        fun placement dispatches => absurd dispatches.toReaches (nowhere placement)⟩
      obtain ⟨event, inEvents, isExecution⟩ := List.mem_filterMap.mp mem
      cases (execution_of_entrance (entrances event inEvents)).1.symm.trans isExecution
  | @reached placement selection permit reads played _ reaches selects onlyReads dispatched =>
      have request := selects.transportRequest
      have readNothing : reads.filterMap ingested = [] ∧ reads.filterMap execution = [] :=
        ⟨List.filterMap_eq_nil_iff.mpr fun event mem =>
          ingested_of_entrance (onlyReads event mem).entrance,
        List.filterMap_eq_nil_iff.mpr fun event mem =>
          (execution_of_entrance (onlyReads event mem).entrance).1⟩
      -- what is admitted, read and released is neither executed nor observed
      simp only [List.cons_append, List.append_assoc, List.filterMap_cons, List.filterMap_append,
        readNothing, ingested, execution, List.filterMap_nil, List.append_nil, List.nil_append]
      cases dispatched with
      | kvFailed toTransfer given fails =>
          refine .inl ⟨rfl, by simp [execution], fun other dispatches => ?_⟩
          obtain rfl := reaches.best.unique dispatches.best
          have moved := dispatches.moved (selects.kvAction ▸ toTransfer) _ given
          rw [selects.candidate] at fails
          cases fails.symm.trans moved
      | transportFailed moved fails =>
          refine .inl ⟨?_, ?_, fun other dispatches => ?_⟩
          · cases moved <;> rfl
          · cases moved <;> simp [execution]
          · obtain rfl := reaches.best.unique dispatches.best
            exact ⟨_, request ▸ fails⟩
      | @executed _ resp recorded moved succeeds _ =>
          refine .inr ⟨placement, selection, resp, recorded, moved.dispatches reaches selects,
            request ▸ succeeds, ?_⟩
          cases moved <;> rfl

/-- **Tokens are counted right** if and only if their sum has 64 bits, or no placement that the
request is dispatched to answers. -/
theorem countsTokens_iff (engine : PipelineEngine) (env : PipelineEnvironment)
    (req : PipelineRequest) (transport : InferenceTransport) (kvTransport : Option KvTransport) :
    CountsTokens req (engine.processRequest env req transport kvTransport) ↔
      req.promptTokens.toNat + req.maxTokens.toNat < 2 ^ 64 ∨
        ∀ placement, Dispatches engine env req kvTransport placement →
          ∃ error, transport.execute (req.dispatchedTo placement.backend) = .error error := by
  rcases observes engine env req transport kvTransport with
    ⟨nothing, unanswered, fails⟩ | ⟨placement, selection, resp, answer, dispatches, answered, one⟩
  · refine ⟨fun _ => .inr fails, fun _ => ⟨fun request resp mem => ?_, fun obs answer mem => ?_⟩⟩
    · exact absurd mem (unanswered request resp)
    · rw [nothing] at mem
      cases mem
  · constructor
    · intro counts
      have counted := counts.counted _ _ (one ▸ List.mem_singleton_self _)
      exact .inl (toNat_totalTokens_eq_iff.mp counted)
    · rintro (fits | fails)
      · refine ⟨fun _ _ _ => by simp [one], fun obs answer mem => ?_⟩
        rw [one, List.mem_singleton] at mem
        cases mem
        exact toNat_totalTokens_eq_iff.mpr fits
      · obtain ⟨error, failed⟩ := fails placement dispatches
        cases answered.symm.trans failed

omit [Rounding] [Formatter] [Md5] in
/-- The largest prompt there can be, and one more token. -/
theorem not_countsTokens :
    letI := Rounding.nearestEven
    letI := Formatter.idle
    letI := Md5.ofFirstRecord
    ¬ ∀ (engine : PipelineEngine) (env : PipelineEnvironment) (req : PipelineRequest)
        (transport : InferenceTransport) (kvTransport : Option KvTransport),
      CountsTokens req (engine.processRequest env req transport kvTransport) := by
  let _ := Rounding.nearestEven
  let _ := Formatter.idle
  let _ := Md5.ofFirstRecord
  intro counts
  let req : PipelineRequest := { setupRequest with promptTokens := 2 ^ 64 - 1, maxTokens := 1 }
  let events := (setupEngine.processRequest (setupEnvironment [.none] 0) req
    (DeterministicTransport.transport ⟨true, 100⟩) none).events
  have totals : (events.filterMap ingested).map (fun entry => entry.1.totalTokens) = [0] := by
    decide +kernel
  obtain ⟨entry, mem, total⟩ := List.mem_map.mp (totals ▸ List.mem_singleton_self 0)
  have counted := (counts setupEngine (setupEnvironment [.none] 0) req
    (DeterministicTransport.transport ⟨true, 100⟩) none).counted entry.1 entry.2 mem
  rw [total] at counted
  exact absurd counted (by decide +kernel)

end

end TrustRouter
