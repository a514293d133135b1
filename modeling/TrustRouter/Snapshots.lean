import Mathlib.Data.List.Infix
import TrustRouter.Conduct

/-!
# Snapshots of the state store

`LocalStateStore` keeps the capacity and the registry behind a lock each.  A request fetches
the registry and then the capacity, and anybody may write either in between.  A run is a list
of calls of requests and of writes (`StoreAction`), and an instant of it is what it comes to
after some of them.

What is kept is that a request that has fetched the registry has fetched it from a store whose
capacity is still the one there is (`Abreast`).  Only a write of the capacity can break that,
and one that does is followed by a fetch of a pair that never was (`consistent_of_orderly`).
-/

namespace TrustRouter

open Program

/-! ## The store -/

structure LocalStateStore where
  capacity : CapacitySnapshot
  registry : BackendRegistry

namespace LocalStateStore

def fetchCapacity (store : LocalStateStore) : Except FabricError CapacitySnapshot :=
  .ok store.capacity

def fetchRegistry (store : LocalStateStore) : Except FabricError BackendRegistry :=
  .ok store.registry

end LocalStateStore

/-- An engine with its state store. -/
structure StoredEngine where
  engine : PipelineEngine
  stateStore : LocalStateStore

/-- A request, with what it is processed with besides the state store. -/
structure StoredTask where
  clock : ClockReading → SystemTime
  req : PipelineRequest
  transport : InferenceTransport
  kvTransport : Option KvTransport

/-- A request makes its next call, or somebody writes to the store. -/
inductive StoreAction where
  | request (client : ClientId)
  | writeRegistry (update : BackendRegistry → BackendRegistry)
  | writeCapacity (update : CapacitySnapshot → CapacitySnapshot)

def StoreAction.turn : StoreAction → Turn StoredEngine
  | request client => .served client
  | writeRegistry update => .changed fun stored =>
      { stored with
        stateStore := { stored.stateStore with registry := update stored.stateStore.registry } }
  | writeCapacity update => .changed fun stored =>
      { stored with
        stateStore := { stored.stateStore with capacity := update stored.stateStore.capacity } }

/-! ## What is fetched -/

/-- The answer to a fetch. -/
inductive Fetch where
  | registry (answer : Except FabricError BackendRegistry)
  | capacity (answer : Except FabricError CapacitySnapshot)

def fetch : PipelineEvent → Option Fetch
  | ⟨.fetchRegistry, answer⟩ => some (.registry answer)
  | ⟨.fetchCapacity, answer⟩ => some (.capacity answer)
  | _ => none

/-- The revision of what was fetched. -/
def Fetch.revision : Fetch → ℕ
  | registry answer => (answer.toOption.getD default).revision
  | capacity answer => (answer.toOption.getD default).revision

/-- A call that fetches nothing from the store. -/
def PipelineCall.Unfetching : PipelineCall → Prop
  | fetchRegistry | fetchCapacity => False
  | _ => True

theorem fetch_of_unfetching (event : PipelineEvent) (unfetching : event.call.Unfetching) :
    fetch event = none := by
  obtain ⟨call, answer⟩ := event
  cases call <;> first | rfl | exact unfetching.elim

/-- What a request has fetched when it returns. -/
def Complete (fetched : List Fetch) : Prop :=
  fetched = [] ∨ ∃ registry capacity, fetched = [.registry registry, .capacity capacity]

section

variable [Rounding] [Formatter]

namespace PipelineRequest

variable {req : PipelineRequest}

theorem unfetching_dispatch (transport : InferenceTransport) (kvTransport : Option KvTransport)
    (selection : Selection) :
    (req.dispatch transport kvTransport selection).Only PipelineCall.Unfetching := by
  have executes : (req.execute transport selection).Only PipelineCall.Unfetching := by
    refine ⟨trivial, fun answer => ?_⟩
    cases answer with
    | error error => exact trivial
    | ok resp =>
        exact ⟨trivial, fun _ => ⟨trivial, fun _ => ⟨trivial, fun _ =>
          ⟨trivial, fun _ => trivial⟩⟩⟩⟩
  unfold dispatch
  split
  · refine ⟨trivial, fun answer => ?_⟩
    cases answer with
    | error error => exact trivial
    | ok _ => exact executes
  · exact executes

/-- The registry is fetched and then the capacity, or neither. -/
theorem ensures_select_fetch :
    req.select.Ensures (fun _ => True) fetch (fun fetched _ => Complete fetched) [] := by
  intro snapshot _
  cases snapshot with
  | error error => exact .inl rfl
  | ok worldState =>
      simp only [done_bind]
      split
      · exact .inl rfl
      · intro registry _ capacity _
        have both : Complete ([] ++ [.registry registry] ++ [.capacity capacity]) :=
          .inr ⟨registry, capacity, rfl⟩
        simp only [done_bind]
        split
        · exact both
        · refine (Only.ensures (P := PipelineCall.Unfetching) ?_ fetch_of_unfetching).mono ?_
          · refine (only_generateCandidates (fun _ _ => trivial) _ _ _).bind fun candidates => ?_
            exact (Only.collect fun candidate _ =>
              only_checkCandidate (fun _ _ _ => trivial) _ candidate).bind fun _ => trivial
          · rintro _ _ rfl
            exact both

theorem ensures_complete (transport : InferenceTransport) (kvTransport : Option KvTransport) :
    (req.processRequest transport kvTransport).Ensures (fun _ => True) fetch
      (fun fetched _ => Complete fetched) [] := by
  unfold processRequest
  split
  · exact .inl rfl
  · intro answer _
    cases answer with
    | error error => exact .inl rfl
    | ok permit =>
        simp only [done_bind, admitted, bind_eq_bind, ensures_bind]
        refine ensures_select_fetch.mono ?_
        rintro fetched result complete
        have releases : ∀ outcome : PipelineOutcome,
            (Program.call (I := pipelineInterface) (.release permit) fun _ =>
              .done outcome).Ensures (fun _ => True) fetch (fun fetched _ => Complete fetched)
                fetched := fun outcome _ _ => (List.append_nil fetched).symm ▸ complete
        cases result with
        | error outcome => exact releases outcome
        | ok selection =>
            refine ((unfetching_dispatch transport kvTransport selection).ensures
              fetch_of_unfetching).mono ?_
            rintro _ outcome rfl
            exact releases outcome

end PipelineRequest

/-! ## Runs -/

namespace StoredEngine

variable [Md5]

omit [Formatter] in
/-- The store answers the fetches, and the engine everything else. -/
def serve (clock : ClockReading → SystemTime) : Server pipelineInterface StoredEngine :=
  fun stored call =>
    let env : PipelineEnvironment :=
      ⟨clock, stored.stateStore.fetchRegistry, stored.stateStore.fetchCapacity⟩
    let served := PipelineEngine.serve env stored.engine call
    (served.1, { stored with engine := served.2 })

/-- Requests and writers, in the order of the actions. -/
def runActions (stored : StoredEngine) (tasks : ClientId → StoredTask)
    (actions : List StoreAction) : Clients pipelineInterface StoredEngine PipelineOutcome :=
  run (Clients.turn fun client => serve (tasks client).clock)
    (.start stored fun client =>
      (tasks client).req.processRequest (tasks client).transport (tasks client).kvTransport)
    (actions.map StoreAction.turn)

variable {stored : StoredEngine} {tasks : ClientId → StoredTask} {actions : List StoreAction}
variable {client : ClientId} {store : LocalStateStore}

/-- The store at some instant of the run. -/
def Current (stored : StoredEngine) (tasks : ClientId → StoredTask) (actions : List StoreAction)
    (store : LocalStateStore) : Prop :=
  ∃ before, before <+: actions ∧ (stored.runActions tasks before).state.stateStore = store

/-- What a request has fetched, the store had at one instant. -/
def Consistent (stored : StoredEngine) (tasks : ClientId → StoredTask)
    (actions : List StoreAction) : Prop :=
  ∀ client registry capacity,
    (stored.runActions tasks actions).own fetch client =
        [.registry registry, .capacity capacity] →
      ∃ store, Current stored tasks actions store ∧ registry = store.fetchRegistry ∧
        capacity = store.fetchCapacity

/-- A request that has fetched only the registry would fetch it with the same capacity now. -/
def Abreast (stored : StoredEngine) (tasks : ClientId → StoredTask)
    (actions : List StoreAction) : Prop :=
  ∀ client registry, (stored.runActions tasks actions).own fetch client = [.registry registry] →
    ∃ store, Current stored tasks actions store ∧ registry = store.fetchRegistry ∧
      store.capacity = (stored.runActions tasks actions).state.stateStore.capacity

/-- The capacity is not written while a request has fetched the registry only and that has been
changed since, unless to a capacity that there has been with the registry that was fetched. -/
def Orderly (stored : StoredEngine) (tasks : ClientId → StoredTask)
    (actions : List StoreAction) : StoreAction → Prop
  | .writeCapacity update => ∀ client registry,
      let now := stored.runActions tasks actions
      now.own fetch client = [.registry (.ok registry)] →
        now.state.stateStore.registry = registry ∨
          Current stored tasks actions ⟨update now.state.stateStore.capacity, registry⟩
  | _ => True

/-! ### One action -/

theorem runActions_append (rest : List StoreAction) :
    stored.runActions tasks (actions ++ rest) =
      run (Clients.turn fun client => serve (tasks client).clock)
        (stored.runActions tasks actions) (rest.map StoreAction.turn) := by
  rw [runActions, List.map_append, run_append]
  rfl

theorem runActions_concat (action : StoreAction) :
    stored.runActions tasks (actions ++ [action]) =
      (stored.runActions tasks actions).turn (fun client => serve (tasks client).clock)
        action.turn :=
  runActions_append [action]

theorem current_now :
    Current stored tasks actions (stored.runActions tasks actions).state.stateStore :=
  ⟨actions, List.prefix_rfl, rfl⟩

theorem Current.append (current : Current stored tasks actions store) (rest : List StoreAction) :
    Current stored tasks (actions ++ rest) store :=
  let ⟨before, isPrefix, same⟩ := current
  ⟨before, isPrefix.trans (List.prefix_append ..), same⟩

/-- The requests leave the store as it is. -/
theorem stateStore_request :
    (stored.runActions tasks (actions ++ [.request client])).state.stateStore =
      (stored.runActions tasks actions).state.stateStore := by
  rw [runActions_concat]
  show ((stored.runActions tasks actions).step _ client).state.stateStore = _
  cases left : (stored.runActions tasks actions).rest client with
  | done outcome => rw [Clients.step_of_done left]
  | call call next =>
      rw [Clients.step_of_call left]
      rfl

/-- What is fetched is what there is. -/
theorem own_request (stored : StoredEngine) (tasks : ClientId → StoredTask)
    (actions : List StoreAction) (client other : ClientId) :
    (stored.runActions tasks (actions ++ [.request client])).own fetch other =
        (stored.runActions tasks actions).own fetch other ∨
      (stored.runActions tasks (actions ++ [.request client])).own fetch other =
        (stored.runActions tasks actions).own fetch other ++
          [.registry (stored.runActions tasks actions).state.stateStore.fetchRegistry] ∨
      (stored.runActions tasks (actions ++ [.request client])).own fetch other =
        (stored.runActions tasks actions).own fetch other ++
          [.capacity (stored.runActions tasks actions).state.stateStore.fetchCapacity] := by
  rw [runActions_concat]
  generalize stored.runActions tasks actions = now
  show (now.step _ client).own fetch other = _ ∨ (now.step _ client).own fetch other = _ ∨
    (now.step _ client).own fetch other = _
  cases left : now.rest client with
  | done outcome => exact .inl (by rw [Clients.step_of_done left])
  | call call next =>
      rw [Clients.own_step_of_call left]
      by_cases same : client = other
      · rw [if_pos same]
        cases call <;> first
          | exact .inl (List.append_nil _)
          | exact .inr (.inl rfl)
          | exact .inr (.inr rfl)
      · exact .inl (by rw [if_neg same, List.append_nil])

/-- A request keeps what has been fetched abreast. -/
theorem keeps_request (abreast : Abreast stored tasks actions)
    (consistent : Consistent stored tasks actions) :
    Abreast stored tasks (actions ++ [.request client]) ∧
      Consistent stored tasks (actions ++ [.request client]) := by
  constructor
  · intro other registry fetched
    have step := own_request stored tasks actions client other
    rw [fetched] at step
    rw [stateStore_request]
    rcases step with same | more | more
    · obtain ⟨store, current, isRegistry, isCapacity⟩ := abreast other registry same.symm
      exact ⟨store, current.append _, isRegistry, isCapacity⟩
    · -- it has fetched the registry just now
      obtain ⟨-, last⟩ := List.append_inj' (show [] ++ [_] = _ from more) rfl
      cases last
      exact ⟨_, current_now.append _, rfl, rfl⟩
    · obtain ⟨-, last⟩ := List.append_inj' (show [] ++ [_] = _ from more) rfl
      cases last
  · intro other registry capacity fetched
    have step := own_request stored tasks actions client other
    rw [fetched] at step
    rcases step with same | more | more
    · obtain ⟨store, current, both⟩ := consistent other registry capacity same.symm
      exact ⟨store, current.append _, both⟩
    · obtain ⟨-, last⟩ := List.append_inj' (show [_] ++ [_] = _ from more) rfl
      cases last
    · -- it has fetched the capacity just now, which goes with the registry it has
      obtain ⟨first, last⟩ := List.append_inj' (show [_] ++ [_] = _ from more) rfl
      cases last
      obtain ⟨store, current, isRegistry, isCapacity⟩ := abreast other registry first.symm
      exact ⟨store, current.append _, isRegistry, congrArg Except.ok isCapacity.symm⟩

/-- So does a write of the registry, and one of the capacity that comes in order. -/
theorem keeps_action {action : StoreAction} (abreast : Abreast stored tasks actions)
    (consistent : Consistent stored tasks actions)
    (orderly : Orderly stored tasks actions action) :
    Abreast stored tasks (actions ++ [action]) ∧ Consistent stored tasks (actions ++ [action]) := by
  have unread : ∀ change : StoredEngine → StoredEngine, action.turn = .changed change →
      ∀ client, (stored.runActions tasks (actions ++ [action])).own fetch client =
        (stored.runActions tasks actions).own fetch client := by
    intro change writes client
    rw [runActions_concat, writes]
    rfl
  have stays : ∀ change : StoredEngine → StoredEngine, action.turn = .changed change →
      Consistent stored tasks (actions ++ [action]) := by
    intro change writes client registry capacity fetched
    rw [unread change writes] at fetched
    obtain ⟨store, current, both⟩ := consistent client registry capacity fetched
    exact ⟨store, current.append _, both⟩
  cases action with
  | request client => exact keeps_request abreast consistent
  | writeRegistry update =>
      refine ⟨fun client registry fetched => ?_, stays _ rfl⟩
      rw [unread _ rfl] at fetched
      obtain ⟨store, current, isRegistry, isCapacity⟩ := abreast client registry fetched
      refine ⟨store, current.append _, isRegistry, isCapacity.trans ?_⟩
      rw [runActions_concat]
      rfl
  | writeCapacity update =>
      refine ⟨fun client registry fetched => ?_, stays _ rfl⟩
      rw [unread _ rfl] at fetched
      obtain ⟨store, -, rfl, -⟩ := abreast client registry fetched
      rcases orderly client store.registry fetched with unchanged | current
      · refine ⟨_, current_now, ?_, rfl⟩
        rw [runActions_concat]
        exact congrArg Except.ok unchanged.symm
      · refine ⟨_, current.append _, rfl, ?_⟩
        rw [runActions_concat]
        rfl

/-! ### Whole runs -/

/-- What a request has fetched when it returns, whatever has been written meanwhile. -/
theorem ensures_runActions (stored : StoredEngine) (tasks : ClientId → StoredTask)
    (actions : List StoreAction) (client : ClientId) :
    ((stored.runActions tasks actions).rest client).Ensures (fun _ => True) fetch
      (fun fetched _ => Complete fetched) ((stored.runActions tasks actions).own fetch client) :=
  Clients.ensures_turns (fun client => PipelineRequest.ensures_complete (tasks client).transport
    (tasks client).kvTransport) _ client

/-- Two fetches are one of the registry and then one of the capacity. -/
theorem eq_of_fetched_twice {first second : Fetch}
    (twice : (stored.runActions tasks actions).own fetch client = [first, second]) :
    ∃ registry capacity, first = .registry registry ∧ second = .capacity capacity := by
  have ensures := ensures_runActions stored tasks actions client
  obtain ⟨future, -, complete⟩ := ensures.exists_end fun call =>
    (PipelineEvent.exists_sound call).imp fun _ _ => trivial
  rw [twice] at complete
  rcases complete with nothing | ⟨registry, capacity, both⟩
  · cases nothing
  · cases both
    exact ⟨registry, capacity, rfl, rfl⟩

/-- A request that has fetched the registry goes on to fetch the capacity. -/
theorem exists_fetch_capacity {registry : Except FabricError BackendRegistry}
    (fetched : (stored.runActions tasks actions).own fetch client = [.registry registry]) :
    ∃ count, (stored.runActions tasks (actions ++ List.replicate count (.request client))).own
      fetch client =
        [.registry registry,
          .capacity (stored.runActions tasks actions).state.stateStore.fetchCapacity] := by
  generalize left : (stored.runActions tasks actions).rest client = program
  induction program generalizing actions with
  | done outcome =>
      have complete := ensures_runActions stored tasks actions client
      rw [left, fetched] at complete
      rcases complete with nothing | ⟨_, _, both⟩
      · cases nothing
      · cases both
  | call call next ih =>
      have goesOn : (stored.runActions tasks (actions ++ [.request client])).rest client =
          next (serve (tasks client).clock (stored.runActions tasks actions).state call).1 := by
        rw [runActions_concat]
        show ((stored.runActions tasks actions).step _ client).rest client = _
        rw [Clients.step_of_call left]
        exact Function.update_self ..
      have step := own_request stored tasks actions client client
      rw [fetched] at step
      rcases step with same | twice | both
      · obtain ⟨count, done⟩ := ih _ same goesOn
        refine ⟨count + 1, ?_⟩
        rw [stateStore_request, List.append_assoc] at done
        exact done
      · obtain ⟨_, _, -, isCapacity⟩ := eq_of_fetched_twice twice
        cases isCapacity
      · exact ⟨1, both⟩

/-- While only requests are made there is no store but those there have been. -/
theorem Current.of_requests {count : ℕ}
    (current : Current stored tasks (actions ++ List.replicate count (.request client)) store) :
    Current stored tasks actions store := by
  induction count with
  | zero => simpa using current
  | succ count ih =>
      rw [List.replicate_succ', ← List.append_assoc] at current
      obtain ⟨before, isPrefix, rfl⟩ := current
      refine ih ?_
      rcases List.prefix_concat_iff.mp isPrefix with rfl | earlier
      · rw [stateStore_request]
        exact current_now
      · exact ⟨before, earlier, rfl⟩

/-- Whatever comes in order is consistent. -/
theorem abreast_of_orderly (orderly : ∀ before action rest, actions = before ++ action :: rest →
    Orderly stored tasks before action) :
    Abreast stored tasks actions ∧ Consistent stored tasks actions := by
  induction actions using List.reverseRecOn with
  | nil => exact ⟨fun _ _ fetched => (nomatch fetched), fun _ _ _ fetched => nomatch fetched⟩
  | append_singleton actions action ih =>
      obtain ⟨abreast, consistent⟩ := ih fun before earlier rest split =>
        orderly before earlier (rest ++ [action]) (by simp [split])
      exact keeps_action abreast consistent (orderly actions action [] rfl)

/-- **A request is planned on what there was at one instant**, in a run whose writes come in
order.  And after a write that does not, a request goes on to fetch a pair that never was. -/
theorem consistent_of_orderly (stored : StoredEngine) (tasks : ClientId → StoredTask)
    (actions : List StoreAction) :
    ((∀ before action rest, actions = before ++ action :: rest →
        Orderly stored tasks before action) → Consistent stored tasks actions) ∧
      ∀ action, ¬ Orderly stored tasks actions action → ∃ client count,
        ¬ Consistent stored tasks
          (actions ++ action :: List.replicate count (.request client)) := by
  refine ⟨fun orderly => (abreast_of_orderly orderly).2, fun action disorderly => ?_⟩
  cases action with
  | request | writeRegistry => exact absurd trivial disorderly
  | writeCapacity update =>
      simp only [Orderly, not_forall, not_or] at disorderly
      obtain ⟨client, registry, fetched, changed, never⟩ := disorderly
      have written : (stored.runActions tasks (actions ++ [.writeCapacity update])).own fetch
          client = [.registry (.ok registry)] := by
        rw [runActions_concat]
        exact fetched
      obtain ⟨count, both⟩ := exists_fetch_capacity written
      refine ⟨client, count, fun consistent => ?_⟩
      rw [List.append_assoc] at both
      obtain ⟨store, current, isRegistry, isCapacity⟩ := consistent client _ _ both
      rw [← List.singleton_append, ← List.append_assoc] at current
      obtain ⟨before, isPrefix, rfl⟩ := current.of_requests
      rcases List.prefix_concat_iff.mp isPrefix with rfl | earlier
      · refine changed ?_
        rw [runActions_concat] at isRegistry
        exact (Except.ok.inj isRegistry).symm
      · refine never ⟨before, earlier, ?_⟩
        rw [runActions_concat] at isCapacity
        rw [Except.ok.inj isRegistry]
        exact congrArg (LocalStateStore.mk · _) (Except.ok.inj isCapacity).symm

omit [Rounding] [Formatter] [Md5] in
/-- The backend is withdrawn when a request has fetched the registry, and the node comes up
before it fetches the capacity. -/
theorem not_consistent :
    letI := Rounding.nearestEven
    letI := Formatter.idle
    letI := Md5.ofFirstRecord
    ¬ ∀ (stored : StoredEngine) (tasks : ClientId → StoredTask) (actions : List StoreAction),
      Consistent stored tasks actions := by
  let _ := Rounding.nearestEven
  let _ := Formatter.idle
  let _ := Md5.ofFirstRecord
  intro always
  let env := setupEnvironment [.none] 0
  let stored : StoredEngine := ⟨setupEngine, ⟨default, env.backends⟩⟩
  let tasks : ClientId → StoredTask := fun _ =>
    ⟨fun _ => 0, setupRequest, DeterministicTransport.transport ⟨true, 100⟩, none⟩
  let actions : List StoreAction := [.request 0, .request 0, .request 0,
    .writeRegistry fun _ => default, .writeCapacity fun _ => env.nodes, .request 0]
  have revisions : ((stored.runActions tasks actions).own fetch 0).map Fetch.revision = [1, 1] := by
    decide +kernel
  obtain ⟨first, rest, fetched, isFirst, ones⟩ := List.map_eq_cons_iff.mp revisions
  obtain ⟨second, rfl, isSecond⟩ := List.map_eq_singleton_iff.mp ones
  obtain ⟨registry, capacity, rfl, rfl⟩ := eq_of_fetched_twice fetched
  obtain ⟨store, ⟨before, isPrefix, rfl⟩, rfl, rfl⟩ :=
    always stored tasks actions 0 registry capacity fetched
  have never : ∀ before ∈ actions.inits,
      let store := (stored.runActions tasks before).state.stateStore
      ¬ (store.registry.revision = 1 ∧ store.capacity.revision = 1) := by decide +kernel
  exact never before ((List.mem_inits _ _).mpr isPrefix) ⟨isFirst, isSecond⟩

omit [Rounding] [Formatter] [Md5] in
/-- The backend is withdrawn in between, and nothing else is written. -/
theorem consistent_withdrawn :
    letI := Rounding.nearestEven
    letI := Formatter.idle
    letI := Md5.ofFirstRecord
    let env := setupEnvironment [.none] 0
    let tasks : ClientId → StoredTask := fun _ =>
      ⟨fun _ => 0, setupRequest, DeterministicTransport.transport ⟨true, 100⟩, none⟩
    let actions : List StoreAction :=
      [.request 0, .request 0, .request 0, .writeRegistry fun _ => default, .request 0]
    Consistent ⟨setupEngine, ⟨env.nodes, env.backends⟩⟩ tasks actions := by
  let _ := Rounding.nearestEven
  let _ := Formatter.idle
  let _ := Md5.ofFirstRecord
  intro env tasks actions
  refine (consistent_of_orderly ⟨setupEngine, ⟨env.nodes, env.backends⟩⟩ tasks actions).1
    fun before action rest split => ?_
  have mem : action ∈ actions := split ▸ List.mem_append_cons_self
  simp only [actions, List.mem_cons, List.not_mem_nil, or_false] at mem
  rcases mem with rfl | rfl | rfl | rfl | rfl <;> exact trivial

end StoredEngine

end

end TrustRouter
