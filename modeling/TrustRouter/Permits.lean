import TrustRouter.Conduct

/-!
# Permits of the pipeline

A request takes a slot when it is admitted and gives it back when it is over, whatever has
become of it in between.  `Holding` relates the admission of an engine to the permits of the
tasks that are under way: beyond what was in flight at the start it counts those, and no
others.  It holds in every state that a run of tasks reaches (`exists_holding`).
-/

namespace TrustRouter

open Program

/-- What is done with a slot. -/
inductive SlotUse where
  | taken (permit : AdmissionPermit)
  | givenBack (permit : AdmissionPermit)
  deriving DecidableEq

def slotUse : PipelineEvent → Option SlotUse
  | ⟨.admitTenant _, .ok permit⟩ => some (.taken permit)
  | ⟨.release permit, _⟩ => some (.givenBack permit)
  | _ => none

theorem slotUse_eq_bind_shown (event : PipelineEvent) :
    slotUse event = (shown event).bind slotUse := by
  obtain ⟨call, answer⟩ := event
  cases call <;> rfl

section

variable [Rounding]

/-- What becomes of the slot of a task. -/
theorem Conduct.slotUse {task : PipelineTask} {events : List PipelineEvent}
    {outcome : PipelineOutcome} (conduct : Conduct task events outcome) :
    events.filterMap slotUse = [] ∨ ∃ permit : AdmissionPermit,
      permit.tenant = task.req.tenantId ∧
        events.filterMap TrustRouter.slotUse = [.taken permit, .givenBack permit] := by
  cases conduct with
  | unauthenticated => exact .inl rfl
  | refused => exact .inl rfl
  | rejected own => exact .inr ⟨_, own, rfl⟩
  | selected own _ _ handled =>
      refine .inr ⟨_, own, ?_⟩
      cases handled with
      | kvFailed => rfl
      | transportFailed moved => cases moved <;> rfl
      | executed moved => cases moved <;> rfl

variable [Md5]

/-- What a call does to the admission. -/
theorem PipelineEngine.slotUse_serve (engine : PipelineEngine) (env : PipelineEnvironment)
    (call : PipelineCall) :
    let served := engine.serve env call
    let controller := engine.admissionController
    (slotUse ⟨call, served.1⟩ = none ∧ served.2.admissionController = controller) ∨
      (∃ permit, slotUse ⟨call, served.1⟩ = some (.taken permit) ∧
        controller.admitTenant permit.tenant = .ok (permit, served.2.admissionController)) ∨
      ∃ permit, slotUse ⟨call, served.1⟩ = some (.givenBack permit) ∧
        served.2.admissionController = controller.release permit := by
  intro served controller
  cases call with
  | admitTenant tenant =>
      cases admitted : engine.admissionController.admitTenant tenant with
      | error error =>
          have refused : served = _ := serve_admitTenant_of_error admitted
          rw [refused]
          exact .inl ⟨rfl, rfl⟩
      | ok granted =>
          obtain ⟨permit, controller⟩ := granted
          have taken : served = _ := serve_admitTenant_of_ok admitted
          obtain ⟨-, -, -, rfl, -⟩ := AdmissionController.admitTenant_eq_ok admitted
          rw [taken]
          exact .inr (.inl ⟨_, rfl, admitted⟩)
  | release permit => exact .inr (.inr ⟨permit, rfl, rfl⟩)
  | _ => exact .inl ⟨rfl, rfl⟩

variable [Formatter]
variable {engine : PipelineEngine} {tasks : ClientId → PipelineTask} {schedule : List ClientId}
variable {client : ClientId} {outcome : PipelineOutcome}

/-- A task has not taken a slot, holds one, or has given it back. -/
theorem own_slotUse (engine : PipelineEngine) (tasks : ClientId → PipelineTask)
    (schedule : List ClientId) (client : ClientId) :
    let own := (engine.runTasks tasks schedule).own slotUse client
    own = [] ∨ ∃ permit : AdmissionPermit, permit.tenant = (tasks client).req.tenantId ∧
      (own = [.taken permit] ∨ own = [.taken permit, .givenBack permit]) := by
  intro own
  obtain ⟨future, outcome, conduct⟩ :=
    (ensures_runTasks engine tasks schedule client).exists_end PipelineEvent.exists_sound
  have whole := conduct.slotUse
  rw [List.filterMap_append, ← Clients.own_eq_filterMap slotUse_eq_bind_shown] at whole
  rcases whole with nothing | ⟨permit, tenant, both⟩
  · exact .inl (List.append_eq_nil_iff.mp nothing).1
  · rcases List.append_eq_cons_iff.mp both with ⟨notYet, -⟩ | ⟨more, taken, rest⟩
    · exact .inl notYet
    · rcases List.append_eq_cons_iff.mp rest.symm with ⟨rfl, -⟩ | ⟨others, rfl, ends⟩
      · exact .inr ⟨permit, tenant, .inl taken⟩
      · obtain ⟨rfl, -⟩ := List.append_eq_nil_iff.mp ends.symm
        exact .inr ⟨permit, tenant, .inr taken⟩

/-- What has been made of the slot of a task that has returned. -/
theorem slotUse_of_returned
    (returned : (engine.runTasks tasks schedule).rest client = .done outcome) :
    let own := (engine.runTasks tasks schedule).own slotUse client
    own = [] ∨ ∃ permit, own = [.taken permit, .givenBack permit] := by
  intro own
  have whole := (conduct_of_returned returned).slotUse
  rw [← Clients.own_eq_filterMap slotUse_eq_bind_shown] at whole
  exact whole.imp_right fun ⟨permit, _, both⟩ => ⟨permit, both⟩

/-! ## Permits that are held -/

/-- The admission counts what was in flight at the start, and the permits of the tasks that
are under way. -/
structure Holding (engine : PipelineEngine)
    (clients : Clients pipelineInterface PipelineEngine PipelineOutcome)
    (held : List (ClientId × AdmissionPermit)) : Prop where
  nodup : held.Nodup
  mem_iff : ∀ client permit, (client, permit) ∈ held ↔ clients.own slotUse client = [.taken permit]
  policy : clients.state.admissionController.policy = engine.admissionController.policy
  total : clients.state.admissionController.state.totalInFlight =
    engine.admissionController.state.totalInFlight + held.length
  count : ∀ tenant, clients.state.admissionController.state.count tenant =
    engine.admissionController.state.count tenant +
      held.countP fun entry => entry.2.tenant = tenant

variable {clients clients' : Clients pipelineInterface PipelineEngine PipelineOutcome}
variable {held : List (ClientId × AdmissionPermit)}

omit [Formatter] [Rounding] [Md5] in
/-- A slot is taken. -/
theorem Holding.taken (holding : Holding engine clients held) {permit : AdmissionPermit}
    (admitted : clients.state.admissionController.admitTenant permit.tenant =
      .ok (permit, clients'.state.admissionController))
    (before : clients.own slotUse client = [])
    (after : ∀ other, clients'.own slotUse other =
      clients.own slotUse other ++ if client = other then [.taken permit] else []) :
    Holding engine clients' ((client, permit) :: held) := by
  obtain ⟨-, -, -, -, occupies⟩ := AdmissionController.admitTenant_eq_ok admitted
  have notHeld : (client, permit) ∉ held := by
    rw [holding.mem_iff, before]
    simp
  refine ⟨List.nodup_cons.mpr ⟨notHeld, holding.nodup⟩, fun other permit' => ?_, ?_, ?_,
    fun tenant => ?_⟩
  · rw [List.mem_cons, holding.mem_iff, after]
    by_cases same : client = other
    · subst same
      simp [before, eq_comm]
    · simp [same, Ne.symm same]
  · rw [occupies]
    exact holding.policy
  · rw [occupies, List.length_cons, AdmissionState.totalInFlight_occupy, holding.total]
    omega
  · rw [occupies, AdmissionState.count_occupy, holding.count, List.countP_cons]
    simp [eq_comm, add_assoc]

omit [Formatter] [Rounding] [Md5] in
/-- A slot is given back. -/
theorem Holding.givenBack (holding : Holding engine clients held) {permit : AdmissionPermit}
    (releases : clients'.state.admissionController =
      clients.state.admissionController.release permit)
    (before : clients.own slotUse client = [.taken permit])
    (after : ∀ other, clients'.own slotUse other =
      clients.own slotUse other ++ if client = other then [.givenBack permit] else []) :
    Holding engine clients' (held.erase (client, permit)) := by
  have mem : (client, permit) ∈ held := (holding.mem_iff client permit).mpr before
  have perm := List.perm_cons_erase mem
  have length : held.length = (held.erase (client, permit)).length + 1 := perm.length_eq
  have count : ∀ tenant, clients.state.admissionController.state.count tenant =
      engine.admissionController.state.count tenant +
        ((held.erase (client, permit)).countP (fun entry => entry.2.tenant = tenant) +
          if tenant = permit.tenant then 1 else 0) := by
    intro tenant
    rw [holding.count, perm.countP_eq, List.countP_cons]
    simp [eq_comm]
  -- the slot is still counted, so the subtraction does not saturate
  have occupied : 0 < clients.state.admissionController.state.count permit.tenant := by
    rw [count, if_pos rfl]
    omega
  refine ⟨holding.nodup.erase _, fun other permit' => ?_, ?_, ?_, fun tenant => ?_⟩
  · rw [holding.nodup.mem_erase_iff, holding.mem_iff, after]
    by_cases same : client = other
    · subst same
      simp only [before, if_true, List.cons_append, List.nil_append, List.cons.injEq]
      constructor
      · rintro ⟨other, taken, -⟩
        cases taken
        exact absurd rfl other
      · rintro ⟨-, impossible⟩
        cases impossible
    · simp [same, Ne.symm same]
  · rw [releases]
    exact holding.policy
  · rw [releases, AdmissionController.release, AdmissionPermit.totalInFlight_drop occupied,
      holding.total]
    omega
  · rw [releases, AdmissionController.release, AdmissionPermit.count_drop, count]
    omega

omit [Formatter] [Rounding] [Md5] in
/-- Nothing is made of a slot. -/
theorem Holding.unchanged (holding : Holding engine clients held)
    (same : clients'.state.admissionController = clients.state.admissionController)
    (after : ∀ other, clients'.own slotUse other = clients.own slotUse other) :
    Holding engine clients' held where
  nodup := holding.nodup
  mem_iff other permit := by rw [after, holding.mem_iff]
  policy := by rw [same, holding.policy]
  total := by rw [same, holding.total]
  count tenant := by rw [same, holding.count]

/-- A slot is taken by a task that has not taken one before. -/
theorem own_slotUse_of_taken {own : List SlotUse} {permit : AdmissionPermit}
    (now : (engine.runTasks tasks schedule).own slotUse client = own ++ [.taken permit]) :
    own = [] := by
  have uses := own_slotUse engine tasks schedule client
  rw [now] at uses
  rcases uses with nothing | ⟨permit', -, one | both⟩
  · simp at nothing
  · exact (List.append_singleton_inj.mp (one.trans (List.nil_append _).symm)).1
  · have both : own ++ [.taken permit] = [.taken permit'] ++ [.givenBack permit'] := both
    cases (List.append_singleton_inj.mp both).2

/-- A slot is given back by the task that holds it. -/
theorem own_slotUse_of_givenBack {own : List SlotUse} {permit : AdmissionPermit}
    (now : (engine.runTasks tasks schedule).own slotUse client = own ++ [.givenBack permit]) :
    own = [.taken permit] := by
  have uses := own_slotUse engine tasks schedule client
  rw [now] at uses
  rcases uses with nothing | ⟨permit', -, one | both⟩
  · simp at nothing
  · cases (List.append_singleton_inj.mp (one.trans (List.nil_append _).symm)).2
  · have both : own ++ [.givenBack permit] = [.taken permit'] ++ [.givenBack permit'] := both
    obtain ⟨before, same⟩ := List.append_singleton_inj.mp both
    cases same
    exact before

/-- **The admission counts the permits that are held**, whatever the tasks come to. -/
theorem exists_holding (engine : PipelineEngine) (tasks : ClientId → PipelineTask)
    (schedule : List ClientId) :
    ∃ held, Holding engine (engine.runTasks tasks schedule) held := by
  induction schedule using List.reverseRecOn with
  | nil =>
      refine ⟨[], .nil, fun client permit => ?_, rfl, rfl, fun _ => rfl⟩
      simp [PipelineEngine.runTasks, PipelineEngine.start, Clients.start, Clients.own]
  | append_singleton schedule client ih =>
      obtain ⟨held, holding⟩ := ih
      have next : engine.runTasks tasks (schedule ++ [client]) =
        (engine.runTasks tasks schedule).step (PipelineEngine.serveTasks tasks) client :=
          run_concat schedule client
      cases goesOn : (engine.runTasks tasks schedule).rest client with
      | done outcome =>
          rw [next, Clients.step_of_done goesOn]
          exact ⟨held, holding⟩
      | call call rest =>
          have after : ∀ other,
              (engine.runTasks tasks (schedule ++ [client])).own slotUse other = _ :=
            fun other => next ▸ Clients.own_step_of_call goesOn other
          have state : (engine.runTasks tasks (schedule ++ [client])).state = _ :=
            next ▸ congrArg Clients.state (Clients.step_of_call goesOn)
          simp only [PipelineEngine.serveTasks] at after state
          rcases (engine.runTasks tasks schedule).state.slotUse_serve (tasks client).env call with
            ⟨idle, same⟩ | ⟨permit, taken, admitted⟩ | ⟨permit, givenBack, releases⟩
          · simp only [idle, Option.toList_none, ite_self, List.append_nil] at after
            exact ⟨held, holding.unchanged (state ▸ same) after⟩
          · simp only [taken, Option.toList_some] at after
            have before := own_slotUse_of_taken ((after client).trans (by rw [if_pos rfl]))
            exact ⟨_, holding.taken (state ▸ admitted) before after⟩
          · simp only [givenBack, Option.toList_some] at after
            have before := own_slotUse_of_givenBack ((after client).trans (by rw [if_pos rfl]))
            exact ⟨_, holding.givenBack (state ▸ releases) before after⟩

/-- Where no task is under way, the admission is back where it was. -/
theorem admission_of_idle (engine : PipelineEngine) (tasks : ClientId → PipelineTask)
    (schedule : List ClientId) :
    let clients := engine.runTasks tasks schedule
    let before := engine.admissionController
    let after := clients.state.admissionController
    Idle clients →
      after.policy = before.policy ∧ after.state.totalInFlight = before.state.totalInFlight ∧
        ∀ tenant, after.state.count tenant = before.state.count tenant := by
  intro clients before after idle
  obtain ⟨held, holding⟩ := exists_holding engine tasks schedule
  have nobody : held = [] := by
    refine List.eq_nil_iff_forall_not_mem.mpr fun ⟨client, permit⟩ mem => ?_
    have one := (holding.mem_iff client permit).mp mem
    have begun : clients.own shown client ≠ [] := by
      intro notYet
      rw [Clients.own_eq_filterMap slotUse_eq_bind_shown, notYet] at one
      cases one
    obtain ⟨outcome, returned⟩ := idle client begun
    rcases slotUse_of_returned returned with nothing | ⟨permit', both⟩
    · cases one.symm.trans nothing
    · cases one.symm.trans both
  subst nobody
  exact ⟨holding.policy, holding.total, holding.count⟩

/-! ## Requests that are rejected -/

omit [Md5] [Formatter] in
/-- A task without an execution reads, takes a slot and gives it back, and tries a transfer. -/
theorem Conduct.entrance {task : PipelineTask} {events : List PipelineEvent}
    (conduct : Conduct task events outcome) (nothing : events.filterMap execution = []) :
    ∀ event ∈ events, event.call.Entrance ∨ (transfer event).isSome = true := by
  cases conduct with
  | unauthenticated => simp
  | refused => exact List.forall_mem_singleton.mpr (.inl trivial)
  | rejected =>
      exact List.forall_mem_cons.mpr
        ⟨.inl trivial, List.forall_mem_singleton.mpr (.inl trivial)⟩
  | selected _ _ _ handled =>
      cases handled with
      | kvFailed =>
          exact List.forall_mem_cons.mpr ⟨.inl trivial, List.forall_mem_cons.mpr
            ⟨.inr rfl, List.forall_mem_singleton.mpr (.inl trivial)⟩⟩
      | transportFailed moved => cases moved <;> cases nothing
      | executed moved => cases moved <;> cases nothing

omit [Formatter] in
/-- Such calls leave everything but the admission as it is. -/
theorem PipelineEngine.exists_serve_of_entrance {event : PipelineEvent}
    (entrance : event.call.Entrance ∨ (transfer event).isSome = true) (engine : PipelineEngine)
    (env : PipelineEnvironment) :
    ∃ controller, (engine.serve env event.call).2 =
      { engine with admissionController := controller } := by
  obtain ⟨call, answer⟩ := event
  cases call with
  | admitTenant tenant => exact engine.exists_serve_admitTenant env tenant
  | release | snapshot | fetchRegistry | fetchCapacity | predict | evaluateCandidate | transfer =>
      exact ⟨_, rfl⟩
  | execute | append | now | ingest | record =>
      exact absurd entrance (by simp [transfer, PipelineCall.Entrance, PipelineCall.Reads])

/-- What a call leaves in the admission, while nobody else is served: nothing. -/
theorem admissionController_processRequest (engine : PipelineEngine) (env : PipelineEnvironment)
    (req : PipelineRequest) (transport : InferenceTransport) (kvTransport : Option KvTransport) :
    (engine.processRequest env req transport kvTransport).state.admissionController =
      engine.admissionController := by
  have taken := course engine env req transport kvTransport
  generalize engine.processRequest env req transport kvTransport = played at taken ⊢
  cases taken with
  | turnedAway => rfl
  | reached _ _ _ _ dispatched => cases dispatched <;> rfl

/-- **A rejected request leaves no trace.**  Alone, it leaves the engine as it was, whatever
was in flight; a transfer it has tried has failed; and whatever becomes of a request, it gives
its slot back.  Among others, none of its calls changes anything but the admission, and that
counts the requests that are still under way. -/
theorem rejected_leaves_no_trace (engine : PipelineEngine) :
    (∀ (env : PipelineEnvironment) (req : PipelineRequest) (transport : InferenceTransport)
        (kvTransport : Option KvTransport),
      let played := engine.processRequest env req transport kvTransport
      ((∀ event ∈ played.events, execution event = none) →
        played.state = engine ∧
          ∀ event ∈ played.events, ∀ moved answer, transfer event = some (moved, answer) →
            ∃ error, answer = .error error ∧
              played.result.rejectionReason = some s!"KV Transfer failed: {error.display}") ∧
        played.state.admissionController = engine.admissionController) ∧
      ∀ (tasks : ClientId → PipelineTask) (schedule : List ClientId),
        let clients := engine.runTasks tasks schedule
        (∀ client outcome, clients.rest client = .done outcome →
          clients.own execution client = [] →
            ∀ event ∈ clients.own some client,
              ∀ (engine : PipelineEngine) (env : PipelineEnvironment), ∃ controller,
                (engine.serve env event.call).2 =
                  { engine with admissionController := controller }) ∧
          ∃ held, Holding engine clients held ∧
            ∀ client outcome, clients.rest client = .done outcome →
              ∀ permit, (client, permit) ∉ held := by
  refine ⟨fun env req transport kvTransport => ⟨fun quiet => ?_,
    admissionController_processRequest engine env req transport kvTransport⟩,
    fun tasks schedule => ⟨fun client outcome returned nothing event mem => ?_, ?_⟩⟩
  · rcases quiet_or_asks engine env req transport kvTransport with
      turnedAway | ⟨placement, selection, asks⟩
    · exact ⟨turnedAway.state, turnedAway.transfers⟩
    · have once := asks.executions
      rw [List.filterMap_eq_nil_iff.mpr quiet] at once
      cases once
  · have conduct := conduct_of_returned returned
    rw [Clients.own_eq_filterMap execution_eq_bind_shown] at nothing
    have entrance := conduct.entrance nothing
    refine PipelineEngine.exists_serve_of_entrance ?_
    rcases reads_or_shown_eq_some event with reads | isShown
    · exact .inl reads.entrance
    -- a call that is not a read is one of those shown
    · refine entrance event ?_
      have sees : ∀ event, shown event = (some event).bind shown := fun _ => rfl
      rw [Clients.own_eq_filterMap sees]
      exact List.mem_filterMap.mpr ⟨event, mem, isShown⟩
  · obtain ⟨held, holding⟩ := exists_holding engine tasks schedule
    -- who holds a slot has taken it and not given it back, and who has returned has done both
    -- or neither
    refine ⟨held, holding, fun client outcome returned permit mem => ?_⟩
    have one := (holding.mem_iff client permit).mp mem
    rcases slotUse_of_returned returned with nothing | ⟨permit', both⟩
    · cases one.symm.trans nothing
    · cases one.symm.trans both

end

end TrustRouter
