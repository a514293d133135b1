import TrustRouter.Dispatch

/-!
# Reported transfers

The outcome of a call names the key-value action that was decided on, and a success with
`Transfer` says that a cache has been transferred.  The transfer is made on the optional
transport for caches, and without one the request is executed all the same.

Where there is such a transport, a call that succeeds with a transfer has made it, and a
transfer that fails is a failure of the call (`Dispatched.transfers_of_success`).
-/

namespace TrustRouter

open Program

section

variable [Rounding]
variable {engine : PipelineEngine} {env : PipelineEnvironment} {req : PipelineRequest}
variable {transport : InferenceTransport} {kvTransport : Option KvTransport}
variable {placement : Placement} {selection : Selection}

/-- A transfer to the node is made, this one only, and before anything is executed. -/
def TransfersOnce (kvTransport : Option KvTransport) (node : String)
    (events : List PipelineEvent) : Prop :=
  ∃ kv ∈ kvTransport, ∃ source before after,
    events = before ++ ⟨.transfer kv source node, .ok ()⟩ :: after ∧
      (∀ event ∈ before, transfer event = none ∧ execution event = none) ∧
      (∀ event ∈ after, transfer event = none) ∧ ∃ event ∈ after, (execution event).isSome = true

omit [Rounding] in
/-- What else is done before and after makes no difference, as long as nothing is transferred
or executed. -/
theorem TransfersOnce.surrounded {node : String} {events before after : List PipelineEvent}
    (transfers : TransfersOnce kvTransport node events)
    (quietBefore : ∀ event ∈ before, transfer event = none ∧ execution event = none)
    (quietAfter : ∀ event ∈ after, transfer event = none) :
    TransfersOnce kvTransport node (before ++ events ++ after) := by
  obtain ⟨kv, given, source, first, rest, rfl, nothing, noMore, event, mem, executes⟩ := transfers
  refine ⟨kv, given, source, before ++ first, rest ++ after, by simp, ?_, ?_, event,
    List.mem_append_left _ mem, executes⟩
  · exact List.forall_mem_append.mpr ⟨quietBefore, nothing⟩
  · exact List.forall_mem_append.mpr ⟨noMore, quietAfter⟩

/-- A success that is reported with a transfer has made it. -/
def ReallyTransfers (kvTransport : Option KvTransport)
    (played : Played pipelineInterface PipelineEngine PipelineOutcome) : Prop :=
  played.result.success = true → played.result.selectedKvAction = some .transfer →
    ∃ node, played.result.selectedNode = some node ∧
      TransfersOnce kvTransport node played.events

variable [Formatter] [Md5]
variable {played : Played pipelineInterface PipelineEngine PipelineOutcome}

/-- A dispatch that succeeds has been answered. -/
theorem Dispatched.execute_of_success
    (dispatched : Dispatched engine env req transport kvTransport selection played)
    (success : played.result.success = true) :
    ∃ resp, transport.execute (req.transportRequest selection) = .ok resp := by
  cases dispatched with
  | kvFailed | transportFailed => cases success
  | executed _ succeeds => exact ⟨_, succeeds⟩

/-- A dispatch that is answered succeeds, where there is nothing to transfer with. -/
theorem Dispatched.success_of_execute {resp : TransportResponse}
    (dispatched : Dispatched engine env req transport none selection played)
    (answered : transport.execute (req.transportRequest selection) = .ok resp) :
    played.result.success = true := by
  cases dispatched with
  | kvFailed _ given => cases given
  | transportFailed _ fails => cases answered.symm.trans fails
  | executed => rfl

/-- A dispatch that succeeds has made the transfer, where there is something to make it with. -/
theorem Dispatched.transfers_of_success {kv : KvTransport}
    (dispatched : Dispatched engine env req transport (some kv) selection played)
    (success : played.result.success = true) (toTransfer : selection.kvAction = .transfer) :
    TransfersOnce (some kv) selection.candidate.computeNodeId played.events := by
  cases dispatched with
  | kvFailed | transportFailed => cases success
  | executed moved _ _ =>
      cases moved with
      | nothing noTransport => cases noTransport toTransfer
      | transferred _ given _ =>
          refine ⟨_, given, req.sourceNode, [], _, rfl, by simp, ?_, _, List.mem_cons_self, rfl⟩
          simp [feedbackEvents, transfer]

/-- **A reported transfer has really happened** if and only if there is a transport for caches,
or no request that is to be transferred is executed at a placement that it reaches. -/
theorem reallyTransfers_iff (engine : PipelineEngine) (env : PipelineEnvironment)
    (req : PipelineRequest) (transport : InferenceTransport) (kvTransport : Option KvTransport) :
    ReallyTransfers kvTransport (engine.processRequest env req transport kvTransport) ↔
      (kvTransport = none → req.kvDecision.1 = .transfer →
        ∀ placement, Reaches engine env req placement →
          ∃ error, transport.execute (req.dispatchedTo placement.backend) = .error error) := by
  have taken := course engine env req transport kvTransport
  generalize engine.processRequest env req transport kvTransport = played at taken ⊢
  cases taken with
  | turnedAway unselected nowhere =>
      obtain ⟨traceReason, reason, rejected, revision, rfl⟩ := unselected
      refine ⟨fun _ _ _ placement reaches => absurd reaches (nowhere placement),
        fun _ success => ?_⟩
      cases success
  | @reached placement selection permit reads played _ reaches selects onlyReads dispatched =>
      have selected := dispatched.selected
      have request := selects.transportRequest
      constructor
      · rintro really rfl toTransfer other reachesOther
        obtain rfl := reaches.best.unique reachesOther.best
        cases answer : transport.execute (req.dispatchedTo placement.backend) with
        | error error => exact ⟨error, rfl⟩
        | ok resp =>
            -- the transfer is not made, as there is nothing to make it with
            have success := dispatched.success_of_execute (request ▸ answer)
            have isSelected := selected.kvAction.trans
              (congrArg some (selects.kvAction.trans toTransfer))
            obtain ⟨-, -, kv, given, -⟩ := really success isSelected
            cases given
      · intro condition success isSelected
        have toTransfer : selection.kvAction = .transfer :=
          Option.some.inj (selected.kvAction.symm.trans isSelected)
        refine ⟨_, selected.node, ?_⟩
        have quiet := fun event mem => execution_of_entrance (onlyReads event mem).entrance
        cases given : kvTransport with
        | none =>
            obtain ⟨resp, answered⟩ := dispatched.execute_of_success success
            obtain ⟨error, fails⟩ :=
              condition given (selects.kvAction ▸ toTransfer) placement reaches
            cases (request ▸ answered).symm.trans fails
        | some kv =>
            subst given
            have entered : ∀ event ∈ (⟨.admitTenant req.tenantId, .ok permit⟩ : PipelineEvent) ::
                reads, transfer event = none ∧ execution event = none :=
              List.forall_mem_cons.mpr ⟨⟨rfl, rfl⟩, fun event mem => (quiet event mem).symm⟩
            exact (dispatched.transfers_of_success success toTransfer).surrounded entered
              (List.forall_mem_singleton.mpr rfl)

omit [Rounding] [Formatter] [Md5] in
/-- A request for which a transfer is decided on, without a transport to make it. -/
theorem not_reallyTransfers :
    letI := Rounding.nearestEven
    letI := Formatter.idle
    letI := Md5.ofFirstRecord
    ¬ ReallyTransfers none (setupEngine.processRequest (setupEnvironment [.none] 0) cachedRequest
      (DeterministicTransport.transport ⟨true, 100⟩) none) := by
  let _ := Rounding.nearestEven
  let _ := Formatter.idle
  let _ := Md5.ofFirstRecord
  intro really
  obtain ⟨-, -, kv, given, -⟩ := really (by decide +kernel) (by decide +kernel)
  cases given

end

end TrustRouter
