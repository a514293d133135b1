import TrustRouter.Sidecar

/-!
# Persisting one's own events

A handler that has been given a decision asks the router for the last audit event, and
writes what it gets.  Nothing connects the two calls.  If another event is pushed in
between, the handler writes that one, and the event of its own decision is written by
nobody, because from then on it is not the last.

`ownEventsPersisted_of_undisturbed` is the positive side.  In a run in which no event is
pushed between a handler's `route` and its next `last_audit_event`, every success response
is sent after the events of its decisions have been written, and they are written once.
Its invariant is `Orderly`: every handler owes its events or has written them
(`Standing`), and no event is another handler's too.
-/

namespace TrustRouter

namespace Task

/-- A success response has been sent. -/
def succeeded (task : Task) : Bool :=
  match task.status with
  | .responded (.ok _) => true
  | _ => false

/-- The handler is about to ask for the last audit event. -/
def fetches (task : Task) : Bool :=
  match task.status with
  | .running (.lastAuditEvent _) => true
  | _ => false

end Task

namespace Sidecar

/-- The events of every decision in a success response have been written exactly once. -/
def OwnEventsPersisted (sidecar : Sidecar) : Prop :=
  ∀ id task, sidecar.tasks id = some task → task.succeeded = true →
    ∀ event ∈ task.decided, sidecar.written.count event = 1

/-- A handler asks for the last audit event only while no event has been pushed since its
latest decision. -/
def Undisturbed (sidecar : Sidecar) : SidecarStep → Prop
  | .advance id _ => ∀ task ∈ sidecar.tasks id, task.fetches = true →
      task.decided.getLast?.map (fun event => event.place + 1) = some sidecar.trail.length
  | .arrive _ _ | .result _ _ | .forceHalfOpen _ | .recoveryTick _ _ _ => True

instance (sidecar : Sidecar) : (input : SidecarStep) → Decidable (sidecar.Undisturbed input)
  | .advance id _ => inferInstanceAs (Decidable (∀ task ∈ sidecar.tasks id, _ → _))
  | .arrive _ _ | .result _ _ | .forceHalfOpen _ | .recoveryTick _ _ _ => isTrue trivial

/-! ## The invariant -/

/-- Where a request stands: it owes its events, and none of them has been written; or it
has written them; or it has failed. -/
inductive Standing (written : List PushedEvent) (task : Task) : Prop
  | owing {program : Handler PushedEvent (Except SidecarError Response)}
      {fetched : List PushedEvent} :
      task.status = .running program → program.Persists task.decided fetched →
      (∀ event ∈ task.decided, event ∉ written) → Standing written task
  | saved {answer : Except SidecarError Response} :
      task.status = .running (.done answer) ∨ task.status = .responded answer →
      (∀ event ∈ task.decided, written.count event = 1) → Standing written task
  | failed {error : SidecarError} :
      task.status = .running (.done (.error error)) ∨ task.status = .responded (.error error) →
      Standing written task

/-- Lines of other requests change nothing. -/
theorem Standing.append {written added : List PushedEvent} {task : Task}
    (standing : Standing written task) (others : ∀ event ∈ task.decided, event ∉ added) :
    Standing (written ++ added) task := by
  cases standing with
  | owing running persists unwritten =>
      refine .owing running persists fun event mem => ?_
      rw [List.mem_append, not_or]
      exact ⟨unwritten event mem, others event mem⟩
  | saved status once =>
      refine .saved status fun event mem => ?_
      rw [List.count_append, once event mem, List.count_eq_zero_of_not_mem (others event mem)]
  | failed status => exact .failed status

/-- A program that has not come to its end owes its events. -/
theorem Standing.of_running {written : List PushedEvent} {task : Task}
    (standing : Standing written task)
    {program : Handler PushedEvent (Except SidecarError Response)}
    (running : task.status = .running program) (goesOn : ∀ answer, program ≠ .done answer) :
    (∃ fetched, program.Persists task.decided fetched) ∧
      ∀ event ∈ task.decided, event ∉ written := by
  cases standing with
  | owing status persists unwritten =>
      rw [running] at status
      exact ⟨⟨_, TaskStatus.running.inj status ▸ persists⟩, unwritten⟩
  | saved status =>
      rw [running] at status
      rcases status with status | status
      · exact absurd (TaskStatus.running.inj status) (goesOn _)
      · cases status
  | failed status =>
      rw [running] at status
      rcases status with status | status
      · exact absurd (TaskStatus.running.inj status) (goesOn _)
      · cases status

/-- What holds as long as no handler is disturbed. -/
structure Orderly (sidecar : Sidecar) : Prop where
  holds : sidecar.router.audit.Holds sidecar.trail
  standing : ∀ id task, sidecar.tasks id = some task → Standing sidecar.written task
  known : ∀ id task, sidecar.tasks id = some task → ∀ event ∈ task.decided,
    sidecar.trail[event.place]? = some event.event
  nodup : ∀ id task, sidecar.tasks id = some task → task.decided.Nodup
  apart : ∀ id id' task task', id ≠ id' → sidecar.tasks id = some task →
    sidecar.tasks id' = some task' → ∀ event ∈ task.decided, event ∉ task'.decided
  writtenKnown : ∀ event ∈ sidecar.written, event.place < sidecar.trail.length

variable {sidecar : Sidecar}

theorem orderly_start [Rounding] (setup : List Op) (file : List String) :
    Orderly (start setup file) where
  holds := (Router.audit_holds_trail setup).2
  standing := fun _ _ found => by cases found
  known := fun _ _ found => by cases found
  nodup := fun _ _ found => by cases found
  apart := fun _ _ _ _ _ found => by cases found
  writtenKnown := fun _ mem => by cases mem

/-- A call of the router pushes events; the ones there are keep their places. -/
theorem Orderly.perform [Rounding] (orderly : Orderly sidecar) (op : Op) :
    Orderly (sidecar.perform op) where
  holds := orderly.holds.pushAll _
  standing := orderly.standing
  known := by
    intro id task found event mem
    have place := orderly.known id task found event mem
    have lt : event.place < sidecar.trail.length := (List.getElem?_eq_some_iff.mp place).1
    exact (List.getElem?_append_left lt).trans place
  nodup := orderly.nodup
  apart := orderly.apart
  writtenKnown := by
    intro event mem
    exact (orderly.writtenKnown event mem).trans_le
      (by simp only [Sidecar.perform, List.length_append]; omega)

/-- One request gets to a new status, maybe with lines written or a decision made.  What
is asked for is what concerns this request. -/
theorem Orderly.update (orderly : Orderly sidecar) (id : TaskId) (task : Task)
    (file : List String) (added : List PushedEvent)
    (standing : Standing (sidecar.written ++ added) task)
    (known : ∀ event ∈ task.decided, sidecar.trail[event.place]? = some event.event)
    (nodup : task.decided.Nodup)
    (apart : ∀ id' task', id' ≠ id → sidecar.tasks id' = some task' →
      ∀ event ∈ task.decided, event ∉ task'.decided)
    (own : ∀ event ∈ added, event ∈ task.decided) :
    Orderly
      { sidecar with
        file := file
        written := sidecar.written ++ added
        tasks := Function.update sidecar.tasks id (some task) } where
  holds := orderly.holds
  standing := by
    intro id' task' found
    rcases update_eq_some_iff.mp found with ⟨rfl, rfl⟩ | ⟨other, found⟩
    · exact standing
    · -- the lines written are of events that are not this request's
      refine (orderly.standing id' task' found).append fun event mem new => ?_
      exact apart id' task' other found event (own event new) mem
  known := by
    intro id' task' found
    rcases update_eq_some_iff.mp found with ⟨rfl, rfl⟩ | ⟨-, found⟩
    · exact known
    · exact orderly.known id' task' found
  nodup := by
    intro id' task' found
    rcases update_eq_some_iff.mp found with ⟨rfl, rfl⟩ | ⟨-, found⟩
    · exact nodup
    · exact orderly.nodup id' task' found
  apart := by
    intro id₁ id₂ task₁ task₂ ne found₁ found₂ event mem₁ mem₂
    rcases update_eq_some_iff.mp found₁ with ⟨rfl, rfl⟩ | ⟨other₁, place₁⟩
    · rcases update_eq_some_iff.mp found₂ with ⟨rfl, rfl⟩ | ⟨other₂, place₂⟩
      · exact ne rfl
      · exact apart id₂ task₂ other₂ place₂ event mem₁ mem₂
    · rcases update_eq_some_iff.mp found₂ with ⟨rfl, rfl⟩ | ⟨-, place₂⟩
      · exact apart id₁ task₁ other₁ place₁ event mem₂ mem₁
      · exact orderly.apart id₁ id₂ task₁ task₂ ne place₁ place₂ event mem₁ mem₂
  writtenKnown := by
    intro event mem
    rcases List.mem_append.mp mem with old | new
    · exact orderly.writtenKnown event old
    · exact (List.getElem?_eq_some_iff.mp (known event (own event new))).1

/-- One request gets to a new status, and nothing else happens. -/
theorem Orderly.setStatus (orderly : Orderly sidecar) {id : TaskId} {task : Task}
    (found : sidecar.tasks id = some task) (status : TaskStatus)
    (standing : Standing sidecar.written { task with status := status }) :
    Orderly (sidecar.setTask id { task with status := status }) := by
  have updated := orderly.update id { task with status := status } sidecar.file []
    (by simpa using standing)
    (orderly.known id task found) (orderly.nodup id task found)
    (fun id' task' other found' => orderly.apart id id' task task' other.symm found found')
    (by simp)
  simpa [setTask] using updated

/-! ## Steps -/

/-- A new request owes nothing. -/
theorem Orderly.arrive [Rounding] (orderly : Orderly sidecar) (id : TaskId) (request : Request) :
    Orderly (sidecar.setTask id { status := .running request.handler, decided := [] }) := by
  have updated := orderly.update id { status := .running request.handler, decided := [] }
    sidecar.file [] (.owing rfl request.persists_handler (by simp)) (by simp) (by simp)
    (by simp) (by simp)
  simpa [setTask] using updated

/-- The last audit event is the one pushed last. -/
theorem Orderly.lastAuditEvent_eq (orderly : Orderly sidecar) {event : PushedEvent}
    (known : sidecar.trail[event.place]? = some event.event) :
    sidecar.lastAuditEvent = some event ↔ event.place + 1 = sidecar.trail.length := by
  have lt : event.place < sidecar.trail.length := (List.getElem?_eq_some_iff.mp known).1
  have last : sidecar.router.lastAuditEvent = sidecar.trail[sidecar.trail.length - 1]? :=
    orderly.holds.lastEvent.trans List.getLast?_eq_getElem?
  rw [lastAuditEvent, last]
  constructor
  · intro equal
    obtain ⟨_, -, rfl⟩ := Option.map_eq_some_iff.mp equal
    simp only
    omega
  · intro isLast
    have place : sidecar.trail.length - 1 = event.place := by omega
    rw [place, known]
    rfl

/-- The next event pushed is not one that a handler owes. -/
theorem Orderly.fresh (orderly : Orderly sidecar) {id : TaskId} {task : Task}
    (found : sidecar.tasks id = some task) (event : AuditEvent) :
    (⟨sidecar.trail.length, event⟩ : PushedEvent) ∉ task.decided := by
  intro mem
  exact lt_irrefl _ (List.getElem?_eq_some_iff.mp (orderly.known id task found _ mem)).1

/-- A handler is given a decision, and owes its event. -/
theorem Orderly.decide [Rounding] (orderly : Orderly sidecar) {id : TaskId} {task : Task}
    (found : sidecar.tasks id = some task) {tenantId : TenantId} {start goal : NodeId}
    {next : RouteDecision → Handler PushedEvent (Except SidecarError Response)}
    (running : task.status = .running (.route tenantId start goal next))
    (fault : Option (ℕ × String)) (render : Json → String) :
    Orderly (sidecar.advance render id task fault) := by
  obtain ⟨⟨fetched, -, persists⟩, unwritten⟩ :=
    (orderly.standing id task found).of_running running (by simp)
  have performed := orderly.perform (.route tenantId start goal)
  have pushed : (sidecar.router.inner.perform (.route tenantId start goal)).pushed =
      [(sidecar.router.inner.route tenantId start goal).answer.event tenantId start goal] :=
    RouterState.route_pushed _ _ _ _
  simp only [advance, running]
  generalize (sidecar.router.inner.route tenantId start goal).answer = decision at pushed ⊢
  have updated := performed.update id
    { status := .running (next decision)
      decided := task.decided ++ [⟨sidecar.trail.length, decision.event tenantId start goal⟩] }
    sidecar.file [] (.owing rfl (persists decision _) ?_) ?_ ?_ ?_ (by simp)
  · simpa [setTask, Sidecar.perform] using updated
  · intro event mem
    rw [List.append_nil]
    rcases List.mem_append.mp mem with old | new
    · exact unwritten event old
    · intro written
      have lt := orderly.writtenKnown event written
      rw [List.mem_singleton.mp new] at lt
      exact lt_irrefl _ lt
  -- the event of the decision is the only one `route` pushes
  · intro event mem
    rcases List.mem_append.mp mem with old | new
    · exact performed.known id task found event old
    · rw [List.mem_singleton.mp new]
      simp [Sidecar.perform, pushed]
  · exact (orderly.nodup id task found).append (List.nodup_singleton _)
      (by simpa using orderly.fresh found _)
  · intro id' task' other found' event mem
    rcases List.mem_append.mp mem with old | new
    · exact orderly.apart id id' task task' other.symm found found' event old
    · rw [List.mem_singleton.mp new]
      exact orderly.fresh found' _

/-- A handler that has not been disturbed is given its own event. -/
theorem Orderly.fetch (orderly : Orderly sidecar) {id : TaskId} {task : Task}
    (found : sidecar.tasks id = some task)
    {next : Option PushedEvent → Handler PushedEvent (Except SidecarError Response)}
    (running : task.status = .running (.lastAuditEvent next))
    (undisturbed : task.decided.getLast?.map (fun event => event.place + 1) =
      some sidecar.trail.length) :
    Orderly (sidecar.setTask id
      { task with status := .running (next sidecar.lastAuditEvent) }) := by
  obtain ⟨⟨fetched, event, split, persists⟩, unwritten⟩ :=
    (orderly.standing id task found).of_running running (by simp)
  have isLast : event.place + 1 = sidecar.trail.length := by
    simpa [split] using undisturbed
  have known := orderly.known id task found event (by simp [split])
  rw [(orderly.lastAuditEvent_eq known).mpr isLast]
  exact orderly.setStatus found _ (.owing rfl persists unwritten)

/-- A handler that owes its events writes them, or fails. -/
theorem Orderly.append (orderly : Orderly sidecar) {id : TaskId} {task : Task}
    (found : sidecar.tasks id = some task) {events : List PushedEvent}
    {next : Except String ℕ → Handler PushedEvent (Except SidecarError Response)}
    (running : task.status = .running (.appendEventsJsonl events next))
    (fault : Option (ℕ × String)) (render : Json → String) :
    Orderly ((sidecar.append render fault events).1.setTask id
      { task with status := .running (next (sidecar.append render fault events).2) }) := by
  obtain ⟨⟨fetched, rfl, succeeds, fails⟩, unwritten⟩ :=
    (orderly.standing id task found).of_running running (by simp)
  have known := orderly.known id task found
  have nodup := orderly.nodup id task found
  have apart := fun id' task' (other : id' ≠ id) found' =>
    orderly.apart id id' task task' other.symm found found'
  cases fault with
  | none =>
      -- written once: the events owed are distinct, and none has been written before
      obtain ⟨answer, eq⟩ := succeeds (task.decided.map PushedEvent.event).length
      refine orderly.update id _ _ task.decided (.saved (Or.inl (congrArg _ eq)) ?_) known nodup
        apart fun event mem => mem
      intro event mem
      rw [List.count_append, List.count_eq_zero_of_not_mem (unwritten event mem), Nat.zero_add]
      exact List.count_eq_one_of_mem nodup mem
  | some failure =>
      obtain ⟨k, error⟩ := failure
      obtain ⟨answer, eq⟩ := fails error
      exact orderly.update id _ _ (task.decided.take k) (.failed (Or.inl (congrArg _ eq))) known
        nodup apart fun event mem => List.mem_of_mem_take mem

/-- A program at its end responds. -/
theorem Orderly.respond (orderly : Orderly sidecar) {id : TaskId} {task : Task}
    (found : sidecar.tasks id = some task) {answer : Except SidecarError Response}
    (running : task.status = .running (.done answer)) :
    Orderly (sidecar.setTask id { task with status := .responded answer }) := by
  refine orderly.setStatus found _ ?_
  cases orderly.standing id task found with
  | owing status persists =>
      rw [running] at status
      rw [← TaskStatus.running.inj status] at persists
      cases answer with
      | ok response =>
          -- it has been given no decision
          have none_ : task.decided = [] := persists
          exact .saved (Or.inr rfl) (by simp [none_])
      | error error => exact .failed (Or.inr rfl)
  | saved status once => exact .saved (Or.inr rfl) once
  | failed status =>
      rw [running] at status
      rcases status with status | status
      · obtain rfl := Handler.done.inj (TaskStatus.running.inj status)
        exact .failed (Or.inr rfl)
      · cases status

/-- **One step** that disturbs no handler. -/
theorem Orderly.step [Rounding] (orderly : Orderly sidecar) (render : Json → String)
    (input : SidecarStep) (undisturbed : sidecar.Undisturbed input) :
    Orderly (sidecar.step render input) := by
  cases input with
  | arrive id request =>
      simp only [Sidecar.step]
      split
      · exact orderly.arrive id request
      · exact orderly
  | result query now => exact orderly.perform _
  | forceHalfOpen query => exact orderly.perform _
  | recoveryTick cooldown now order => exact orderly.perform _
  | advance id fault =>
      simp only [Sidecar.step]
      cases found : sidecar.tasks id with
      | none => exact orderly
      | some task =>
          dsimp only
          cases status : task.status with
          | responded answer => simpa only [advance, status] using orderly
          | running program =>
              cases program with
              | route tenantId start goal next => exact orderly.decide found status fault render
              | done answer => simpa only [advance, status] using orderly.respond found status
              | appendEventsJsonl events next =>
                  simpa only [advance, status] using orderly.append found status fault render
              | lastAuditEvent next =>
                  have fetches : task.fetches = true := by rw [Task.fetches, status]
                  simpa only [advance, status] using
                    orderly.fetch found status (undisturbed task found fetches)

/-- Where requests stand as they should, a success response has its events written. -/
theorem Orderly.ownEventsPersisted (orderly : Orderly sidecar) : sidecar.OwnEventsPersisted := by
  intro id task found succeeded
  unfold Task.succeeded at succeeded
  split at succeeded
  · next response status =>
      cases orderly.standing id task found with
      | owing running => cases status.symm.trans running
      | saved _ once => exact once
      | failed failed =>
          rcases failed with failed | failed
          · cases status.symm.trans failed
          · cases status.symm.trans failed
  · cases succeeded

/-- One step writes the lines of the events it counts as written. -/
theorem file_step [Rounding] {render : Json → String} {file : List String}
    (before : sidecar.file =
      file ++ sidecar.written.map fun event => event.event.toJsonLine render)
    (input : SidecarStep) :
    (sidecar.step render input).file =
      file ++ (sidecar.step render input).written.map
        fun event => event.event.toJsonLine render := by
  cases input with
  | arrive id request =>
      simp only [Sidecar.step]
      split <;> exact before
  | result query now => exact before
  | forceHalfOpen query => exact before
  | recoveryTick cooldown now order => exact before
  | advance id fault =>
      simp only [Sidecar.step]
      cases sidecar.tasks id with
      | none => exact before
      | some task =>
          simp only [advance]
          split
          · exact before
          · exact before
          · exact before
          -- only a write adds lines, and a write that fails has added some of them
          · next events next_ _ =>
              cases fault with
              | none =>
                  simp [setTask, Sidecar.append, appendEventsJsonl, before, Function.comp_def]
              | some failure =>
                  simp [setTask, Sidecar.append, appendEventsJsonl, before, List.map_take,
                    Function.comp_def]
          · exact before

/-- The audit file is what it was and the lines of the events written, in any run. -/
theorem file_run [Rounding] (render : Json → String) (setup : List Op) (file : List String)
    (steps : List SidecarStep) :
    (run (step render) (start setup file) steps).file = file ++
      (run (step render) (start setup file) steps).written.map
        fun event => event.event.toJsonLine render :=
  run_induction (P := fun sidecar : Sidecar => sidecar.file =
      file ++ sidecar.written.map fun event => event.event.toJsonLine render)
    (by simp [start]) (fun _ input before => file_step before input) steps

/-- **Undisturbed handlers persist their own events.**  In a run in which no handler asks
for the last audit event after another event has been pushed, at every point the events of
every decision in a success response that has been sent have been written exactly once, and
the audit file is what it was before the run and the lines of the events written. -/
theorem ownEventsPersisted_of_undisturbed [Rounding] (render : Json → String)
    (setup : List Op) (file : List String) (steps : List SidecarStep)
    (undisturbed : AllSteps (step render) Undisturbed (start setup file) steps)
    (before : List SidecarStep) (reached : before <+: steps) :
    (run (step render) (start setup file) before).OwnEventsPersisted ∧
      (run (step render) (start setup file) before).file = file ++
        (run (step render) (start setup file) before).written.map
          fun event => event.event.toJsonLine render := by
  obtain ⟨rest, rfl⟩ := reached
  have orderly : Orderly (run (step render) (start setup file) before) :=
    (allSteps_append.mp undisturbed).1.run_induction (orderly_start setup file)
      fun _ input orderly undisturbed => orderly.step render input undisturbed
  exact ⟨orderly.ownEventsPersisted, file_run render setup file before⟩

/-- A tenant with two edges. -/
def twoEdges : List Op :=
  [.addEdge "acme" (Edge.new "a" "b"), .addEdge "acme" (Edge.new "b" "c")]

/-- Two requests.  The second is decided once the first has fetched its event, and both write
their lines before either responds. -/
def interleaved : List SidecarStep :=
  [.arrive 0 (.route ⟨"acme", "a", "b"⟩), .arrive 1 (.route ⟨"acme", "b", "c"⟩),
    .advance 0 none, .advance 0 none, .advance 1 none, .advance 1 none, .advance 0 none,
    .advance 1 none, .advance 1 none, .advance 0 none]

/-- Both get their responses after the events of their decisions have been written. -/
theorem ownEventsPersisted_interleaved :
    letI := Rounding.exact
    let served := run (step fun _ => "") (start twoEdges ["before"]) interleaved
    (∀ id ∈ [0, 1], ∃ task, served.tasks id = some task ∧ task.succeeded = true ∧
      task.decided.length = 1 ∧ ∀ event ∈ task.decided, served.written.count event = 1) ∧
      served.written.map PushedEvent.event =
        [.reroute "acme" "a" "b" ["a", "b"] (.finite (1 / 100)) false,
          .reroute "acme" "b" "c" ["b", "c"] (.finite (1 / 100)) false] ∧
      served.file = ["before", "", ""] := by
  let _ := Rounding.exact
  intro served
  have succeeded : ∀ id ∈ [0, 1], (served.tasks id).any (fun task =>
      task.succeeded && task.decided.length == 1) = true := by decide +kernel
  have undisturbed : AllSteps (step fun _ => "") Undisturbed (start twoEdges ["before"])
      interleaved := by decide +kernel
  have written : served.written.map PushedEvent.event =
      [.reroute "acme" "a" "b" ["a", "b"] (.finite (1 / 100)) false,
        .reroute "acme" "b" "c" ["b", "c"] (.finite (1 / 100)) false] := by decide +kernel
  obtain ⟨own, file⟩ := ownEventsPersisted_of_undisturbed (fun _ => "") twoEdges ["before"]
    interleaved undisturbed interleaved (List.prefix_refl _)
  refine ⟨fun id mem => ?_, written, ?_⟩
  · obtain ⟨task, found, facts⟩ := (Option.any_eq_true _ _).mp (succeeded id mem)
    rw [Bool.and_eq_true, beq_iff_eq] at facts
    exact ⟨task, found, facts.1, facts.2, own id task found facts.1⟩
  · have lines :
        served.written.map (fun event => event.event.toJsonLine fun _ => "") = ["", ""] := by
      rw [← Function.comp_def (AuditEvent.toJsonLine fun _ => ""), ← List.map_map, written]
      rfl
    exact file.trans (congrArg _ lines)

/-- Two requests.  The second is decided between the two calls of the first. -/
def overtaken : List SidecarStep :=
  [.arrive 0 (.route ⟨"acme", "a", "b"⟩), .arrive 1 (.route ⟨"acme", "b", "c"⟩),
    .advance 0 none, .advance 1 none, .advance 0 none, .advance 0 none, .advance 0 none]

/-- The first of two requests gets its response although the event of its decision has not
been written, only that of the other. -/
theorem not_ownEventsPersisted :
    letI := Rounding.exact
    ¬ ∀ (render : Json → String) (setup : List Op) (file : List String)
      (steps : List SidecarStep), (∀ id fault, .advance id fault ∈ steps → fault = none) →
        (run (step render) (start setup file) steps).OwnEventsPersisted := by
  let _ := Rounding.exact
  intro always
  have noFault : ∀ id fault, .advance id fault ∈ overtaken → fault = none := by
    intro id fault mem
    have listed : id = 0 ∧ fault = none ∨ id = 1 ∧ fault = none ∨ id = 0 ∧ fault = none := by
      simpa [overtaken] using mem
    rcases listed with first | second | first
    · exact first.2
    · exact second.2
    · exact first.2
  have own := always (fun _ => "") twoEdges [] overtaken noFault
  have served : ((run (step fun _ => "") (start twoEdges []) overtaken).tasks 0).any (fun task =>
      task.succeeded && task.decided.any fun event =>
        (run (step fun _ => "") (start twoEdges []) overtaken).written.count event == 0) =
      true := by
    decide +kernel
  generalize run (step fun _ => "") (start twoEdges []) overtaken = sidecar at own served
  obtain ⟨task, found, facts⟩ := (Option.any_eq_true _ _).mp served
  rw [Bool.and_eq_true] at facts
  obtain ⟨event, mem, absent⟩ := List.any_eq_true.mp facts.2
  rw [own 0 task found facts.1 event mem] at absent
  cases absent

end Sidecar

end TrustRouter
