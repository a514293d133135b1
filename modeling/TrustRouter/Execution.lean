import TrustRouter.Prelude.Channel
import TrustRouter.Prelude.Program
import TrustRouter.Registries
import TrustRouter.Router

/-!
# Executions and what is learnt from them

`ExecutionCoordinator::execute` has a request executed by the backend it names and reports
the outcome to the health monitor: through a bounded channel, to a task that applies
`record_result` one outcome at a time.  Adapters answer as they like and keep what they
like from one execution to the next.

An execution makes at most two calls, of the adapter and of the monitor, and how far it has
got is its `Stage`.  It follows, for every run, that an outcome is enqueued exactly for the
executions that return `Ok`, and from the channel that they are applied in the order in which
they were enqueued (`records_accepted`).
-/

namespace TrustRouter

open Program

/-! ## What is exchanged -/

/-- A completed tool invocation. -/
structure ToolResult where
  tenant : TenantId
  node : NodeId
  success : Bool
  latencyMs : UInt64
  deriving DecidableEq

structure ExecutionRequest where
  requestId : String
  tenant : TenantId
  node : NodeId
  backendId : String
  model : ModelReference
  strategy : KvStrategy

inductive ExecutionError where
  | invalidRequest
  | backend (error : BackendRegistryError)
  | missingLatency
  | backendIdentityMismatch
  | inconsistentBackendResult
  | healthMonitorClosed
  deriving DecidableEq

inductive ExecutionCall where
  /-- The adapter registered under an identifier. -/
  | adapter (backendId : String) (request : BackendRequest)
  /-- `HealthMonitor::report`, which gives back what it could not send. -/
  | report (result : ToolResult)

def ExecutionCall.Answer : ExecutionCall → Type
  | adapter _ _ => BackendResult
  | report _ => Except ToolResult Unit

def executionInterface : Interface := ⟨ExecutionCall, ExecutionCall.Answer⟩

/-! ## The coordinator -/

/-- `BackendRegistry::execute`, whatever the adapter does. -/
def BackendRegistry.callExecute (registry : BackendRegistry) (backendId : String)
    (request : BackendRequest) :
    Program executionInterface (Except BackendRegistryError BackendResult) :=
  match registry.entries.get backendId with
  | none => done (.error (.unknownBackend backendId))
  | some entry =>
      if !entry.descriptor.supports request.model request.strategy then
        done (.error (.unsupportedCapability backendId request.model request.strategy))
      else call (.adapter backendId request) fun result => done (.ok result)

/-- With adapters that keep nothing, it is `BackendRegistry.execute`. -/
theorem BackendRegistry.result_play_callExecute {σ : Type} {registry : BackendRegistry}
    {backendId : String} {request : BackendRequest} {serve : Server executionInterface σ}
    {state : σ} (serves : ∀ entry, registry.entries.get backendId = some entry →
      (serve state (.adapter backendId request)).1 = entry.backend.execute request) :
    (play serve state (registry.callExecute backendId request)).result =
      registry.execute backendId request := by
  unfold callExecute BackendRegistry.execute
  cases found : registry.entries.get backendId with
  | none => rfl
  | some entry =>
      by_cases declared : entry.descriptor.supports request.model request.strategy = true
      · simp only [declared, Bool.not_true, Bool.false_eq_true, if_false]
        exact congrArg Except.ok (serves entry found)
      · simp [declared]

/-- The `valid_identifier` of the coordinator. -/
def ExecutionCoordinator.validIdentifier : String → Bool := isIdentifier

namespace ExecutionRequest

def identifiers (request : ExecutionRequest) : List String :=
  [request.requestId, request.tenant, request.node, request.backendId, request.model.modelId,
    request.model.modelVersion]

def toBackendRequest (request : ExecutionRequest) : BackendRequest :=
  ⟨request.requestId, request.model, request.strategy⟩

def toToolResult (request : ExecutionRequest) (success : Bool) (latencyMs : UInt64) :
    ToolResult :=
  ⟨request.tenant, request.node, success, latencyMs⟩

end ExecutionRequest

/-- A coordinator, by its registry.  The monitor is what its reports are sent to. -/
structure ExecutionCoordinator where
  backends : BackendRegistry

namespace ExecutionCoordinator

/-- What is made of the answer to a report. -/
def reported (result : BackendResult) :
    Except ToolResult Unit → Program executionInterface (Except ExecutionError BackendResult)
  | .error _ => done (.error .healthMonitorClosed)
  | .ok _ => done (.ok result)

def execute (coordinator : ExecutionCoordinator) (request : ExecutionRequest) :
    Program executionInterface (Except ExecutionError BackendResult) := do
  if !request.identifiers.all validIdentifier then return .error .invalidRequest
  match ← coordinator.backends.callExecute request.backendId request.toBackendRequest with
  | .error error => return .error (.backend error)
  | .ok result =>
      if result.backend ≠ request.backendId then return .error .backendIdentityMismatch
      if result.success = result.failure.isSome then return .error .inconsistentBackendResult
      match result.latencyMs with
      | none => return .error .missingLatency
      | some latencyMs =>
          call (.report (request.toToolResult result.success latencyMs)) (reported result)

/-- What an execution must be to be accepted. -/
structure Accepts (coordinator : ExecutionCoordinator) (request : ExecutionRequest)
    (result : BackendResult) (latencyMs : UInt64) : Prop where
  valid : ∀ value ∈ request.identifiers, isIdentifier value = true
  declared : coordinator.backends.supports request.backendId request.model request.strategy =
    .ok true
  identity : result.backend = request.backendId
  consistent : result.success = true ↔ result.failure = none
  latency : result.latencyMs = some latencyMs

variable {coordinator : ExecutionCoordinator} {request : ExecutionRequest}

/-- All that an execution can do: fail at once, or call the adapter and then fail, or call the
adapter, accept its result and report it. -/
theorem execute_cases (coordinator : ExecutionCoordinator) (request : ExecutionRequest) :
    (∃ error, coordinator.execute request = done (.error error)) ∨
      ∃ next : BackendResult → Program executionInterface (Except ExecutionError BackendResult),
        coordinator.execute request =
          call (I := executionInterface)
            (.adapter request.backendId request.toBackendRequest) next ∧
        ∀ result, (∃ error, next result = done (.error error)) ∨
          ∃ latencyMs, coordinator.Accepts request result latencyMs ∧
            next result = call (I := executionInterface)
              (.report (request.toToolResult result.success latencyMs)) (reported result) := by
  unfold execute
  by_cases named : request.identifiers.all validIdentifier = true
  swap
  · exact .inl ⟨.invalidRequest, by simp [named]⟩
  simp only [named, Bool.not_true, Bool.false_eq_true, if_false, bind_eq_bind,
    BackendRegistry.callExecute, pure_eq_done]
  cases found : coordinator.backends.entries.get request.backendId with
  | none => exact .inl ⟨_, rfl⟩
  | some entry =>
      by_cases declared : entry.descriptor.supports request.model request.strategy = true
      swap
      · exact .inl ⟨.backend (.unsupportedCapability request.backendId request.model
          request.strategy), by simp [ExecutionRequest.toBackendRequest, declared]⟩
      refine .inr ⟨_, by simp [ExecutionRequest.toBackendRequest, declared]; rfl, fun result => ?_⟩
      simp only [done_bind]
      by_cases identity : result.backend = request.backendId
      swap
      · exact .inl ⟨.backendIdentityMismatch, by simp [identity]⟩
      by_cases consistent : result.success = result.failure.isSome
      · exact .inl ⟨.inconsistentBackendResult, by simp [identity, consistent]⟩
      cases latency : result.latencyMs with
      | none => exact .inl ⟨.missingLatency, by simp [identity, consistent]⟩
      | some latencyMs =>
          refine .inr ⟨latencyMs, ⟨?_, ?_, identity, ?_, latency⟩, ?_⟩
          · exact List.all_eq_true.mp named
          · simp [BackendRegistry.supports, found, declared]
          · cases success : result.success <;> cases failure : result.failure <;>
              simp_all
          · simp [identity, consistent]

end ExecutionCoordinator

/-! ## The monitor -/

/-- The adapters with what they keep, the channel to the monitor, and the router its outcomes
are applied to. -/
structure Ingestion (α : Type) where
  kept : α
  channel : Channel ToolResult
  router : Router

/-- What adapters answer, to each execution, and what they keep. -/
abbrev Adapters (α : Type) := ClientId → α → String → BackendRequest → BackendResult × α

namespace Ingestion

variable {α : Type} (adapters : Adapters α)

def serve (client : ClientId) : Server executionInterface (Ingestion α)
  | ingestion, .adapter backendId request =>
      let answered := adapters client ingestion.kept backendId request
      (answered.1, { ingestion with kept := answered.2 })
  | ingestion, .report result =>
      let sent := ingestion.channel.send result
      (sent.1, { ingestion with channel := sent.2 })

/-- The result is applied through `record_result`. -/
def recording (result : ToolResult) (now : Instant) : Op :=
  .recordResult result.tenant result.node result.success result.latencyMs.toNat now

variable [Rounding]

/-- The task of the monitor receives a result and applies it. -/
def receive (ingestion : Ingestion α) (now : Instant) : Ingestion α :=
  match ingestion.channel.recv with
  | none => ingestion
  | some (result, channel) =>
      { ingestion with channel, router := ingestion.router.step (recording result now) }

end Ingestion

/-- An execution makes its next call, the monitor receives a result, it is gone, or somebody
else uses the router. -/
inductive IngestionAction where
  | execute (client : ClientId)
  | receive (now : Instant)
  | close
  | operate (op : Op)

/-- An execution, with the coordinator it is an execution of. -/
structure ExecutionTask where
  coordinator : ExecutionCoordinator
  request : ExecutionRequest

abbrev Executions (α : Type) :=
  Clients executionInterface (Ingestion α) (Except ExecutionError BackendResult)

namespace Executions

variable {α : Type} [Rounding] (adapters : Adapters α)

/-- The client has to wait for room in the channel. -/
def waits (executions : Executions α) (client : ClientId) : Bool :=
  match (executions.rest client).head with
  | some (.report _) => executions.state.channel.isFull
  | _ => false

def step (executions : Executions α) : IngestionAction → Executions α
  | .execute client =>
      if executions.waits client then executions
      else Clients.step (Ingestion.serve adapters) executions client
  | .receive now => { executions with state := executions.state.receive now }
  | .close =>
      { executions with
        state := { executions.state with channel := executions.state.channel.close } }
  | .operate op =>
      { executions with
        state := { executions.state with router := executions.state.router.step op } }

/-- Nothing has been executed yet. -/
def start (kept : α) (capacity : ℕ) (router : Router) (tasks : ClientId → ExecutionTask) :
    Executions α :=
  Clients.start ⟨kept, .new capacity, router⟩ fun client =>
    (tasks client).coordinator.execute (tasks client).request

end Executions

/-- What a call has put into the channel. -/
def enqueued : executionInterface.Event → Option ToolResult
  | ⟨.report result, .ok _⟩ => some result
  | _ => none

/-! ## How far an execution has got -/

/-- What an execution has enqueued, and what it has still to do. -/
inductive ExecutionTask.Stage (task : ExecutionTask) :
    List ToolResult → Program executionInterface (Except ExecutionError BackendResult) → Prop
  | begun : Stage task [] (task.coordinator.execute task.request)
  | failed (error : ExecutionError) : Stage task [] (done (.error error))
  | reporting {result : BackendResult} {latencyMs : UInt64} :
      task.coordinator.Accepts task.request result latencyMs →
      Stage task [] (call (I := executionInterface)
        (.report (task.request.toToolResult result.success latencyMs))
        (ExecutionCoordinator.reported result))
  | recorded {result : BackendResult} {latencyMs : UInt64} :
      task.coordinator.Accepts task.request result latencyMs →
      Stage task [task.request.toToolResult result.success latencyMs] (done (.ok result))

namespace ExecutionTask

variable {task : ExecutionTask} {own : List ToolResult}
variable {rest : Program executionInterface (Except ExecutionError BackendResult)}

theorem Stage.answered {c : ExecutionCall}
    {next : c.Answer → Program executionInterface (Except ExecutionError BackendResult)}
    (stage : task.Stage own (call (I := executionInterface) c next)) (answer : c.Answer) :
    task.Stage (own ++ (enqueued ⟨c, answer⟩).toList) (next answer) := by
  generalize program : call (I := executionInterface) c next = rest at stage
  cases stage with
  | failed error => cases program
  | recorded accepts => cases program
  | begun =>
      rcases ExecutionCoordinator.execute_cases task.coordinator task.request with
        ⟨error, fails⟩ | ⟨next', calls, outcome⟩
      · cases program.trans fails
      · cases program.trans calls
        rcases outcome answer with ⟨error, fails⟩ | ⟨latencyMs, accepts, reports⟩
        · rw [fails]
          exact .failed error
        · rw [reports]
          exact .reporting accepts
  | reporting accepts =>
      cases program
      cases answer with
      | error _ => exact .failed _
      | ok _ => exact .recorded accepts

/-- An execution that returns `Ok` has been accepted, and has enqueued one result. -/
theorem Stage.of_ok {result : BackendResult} (stage : task.Stage own rest)
    (returned : rest = done (.ok result)) :
    ∃ latencyMs, task.coordinator.Accepts task.request result latencyMs ∧
      own = [task.request.toToolResult result.success latencyMs] := by
  cases stage with
  | failed error => cases returned
  | reporting accepts => cases returned
  | recorded accepts =>
      cases returned
      exact ⟨_, accepts, rfl⟩
  | begun =>
      rcases ExecutionCoordinator.execute_cases task.coordinator task.request with
        ⟨error, fails⟩ | ⟨next, calls, -⟩
      · cases returned.symm.trans fails
      · cases returned.symm.trans calls

/-- An execution that has not returned `Ok` has enqueued nothing. -/
theorem Stage.of_not_ok (stage : task.Stage own rest)
    (other : ∀ result, rest ≠ done (.ok result)) : own = [] := by
  cases stage with
  | recorded accepts => exact absurd rfl (other _)
  | _ => rfl

end ExecutionTask

/-! ## What is applied -/

/-- What is applied to the router: a result by the monitor, with the clock it reads, or an
operation by somebody else. -/
abbrev Applied := ToolResult × Instant ⊕ Op

namespace Applied

def op : Applied → Op
  | .inl (result, now) => Ingestion.recording result now
  | .inr op => op

def recorded : Applied → Option ToolResult
  | .inl (result, _) => some result
  | .inr _ => none

def other : Applied → Option Op
  | .inl _ => none
  | .inr op => some op

end Applied

def IngestionAction.operated : IngestionAction → Option Op
  | operate op => some op
  | _ => none

/-- What nobody else has touched is the results alone. -/
theorem Applied.map_op_eq_zipWith {applied : List Applied} (alone : applied.filterMap other = []) :
    ∃ times : List Instant, times.length = (applied.filterMap recorded).length ∧
      applied.map op = List.zipWith Ingestion.recording (applied.filterMap recorded) times := by
  induction applied with
  | nil => exact ⟨[], rfl, rfl⟩
  | cons first applied ih =>
      cases first with
      | inr op => cases alone
      | inl recording =>
          obtain ⟨times, length, same⟩ := ih alone
          exact ⟨recording.2 :: times, congrArg (· + 1) length, congrArg (_ :: ·) same⟩

section

variable {α : Type} [Rounding] {adapters : Adapters α}

/-- The executions are where they are, the channel carries what they have enqueued, and the
router is what has been applied to it. -/
structure Executions.Accounts (router : Router) (tasks : ClientId → ExecutionTask)
    (actions : List IngestionAction) (executions : Executions α) (applied : List Applied) :
    Prop where
  stage : ∀ client, (tasks client).Stage (executions.own enqueued client) (executions.rest client)
  carries : executions.state.channel.Carries ((executions.everyone enqueued).map Prod.snd)
    (applied.filterMap Applied.recorded)
  router : executions.state.router = run Router.step router (applied.map Applied.op)
  others : applied.filterMap Applied.other = actions.filterMap IngestionAction.operated

namespace Executions

variable {router : Router} {tasks : ClientId → ExecutionTask} {actions : List IngestionAction}
variable {executions : Executions α} {applied : List Applied}

theorem Accounts.served (accounts : executions.Accounts router tasks actions applied)
    (client : ClientId) :
    Accounts router tasks actions (Clients.step (Ingestion.serve adapters) executions client)
      applied := by
  have stage : ∀ other, (tasks other).Stage
      ((Clients.step (Ingestion.serve adapters) executions client).own enqueued other)
      ((Clients.step (Ingestion.serve adapters) executions client).rest other) :=
    Clients.forall_step (K := fun other own rest => (tasks other).Stage own rest) accounts.stage
      fun c next left => (left ▸ accounts.stage client :
        (tasks client).Stage _ (call c next)).answered _
  cases left : executions.rest client with
  | done result =>
      rw [Clients.step_of_done left]
      exact accounts
  | call c next =>
      rw [Clients.step_of_call left] at stage ⊢
      refine ⟨stage, ?_, ?_, accounts.others⟩
      · cases c with
        | adapter backendId request =>
            simpa [Clients.everyone, enqueued, Ingestion.serve] using accounts.carries
        | report result =>
            cases isOpen : executions.state.channel.isOpen with
            | true =>
                have carries := accounts.carries.send result
                simpa [Clients.everyone, enqueued, Ingestion.serve, Channel.send_of_open isOpen]
                  using carries
            | false =>
                simpa [Clients.everyone, enqueued, Ingestion.serve,
                  Channel.send_of_closed isOpen] using accounts.carries
      · cases c <;> exact accounts.router

/-- What an action does to the books. -/
theorem Accounts.step (accounts : executions.Accounts router tasks actions applied)
    (action : IngestionAction) :
    ∃ applied, (executions.step adapters action).Accounts router tasks (actions ++ [action])
      applied := by
  have quiet (silent : action.operated = none) : applied.filterMap Applied.other =
      (actions ++ [action]).filterMap IngestionAction.operated := by
    rw [List.filterMap_append, List.filterMap_cons_none silent, List.filterMap_nil,
      List.append_nil]
    exact accounts.others
  cases action with
  | execute client =>
      have served : Accounts router tasks actions
          (Clients.step (Ingestion.serve adapters) executions client) applied :=
        accounts.served client
      refine ⟨applied, ?_⟩
      show Accounts router tasks _ (if executions.waits client then executions
        else Clients.step (Ingestion.serve adapters) executions client) applied
      split_ifs
      · exact ⟨accounts.stage, accounts.carries, accounts.router, quiet rfl⟩
      · exact ⟨served.stage, served.carries, served.router, quiet rfl⟩
  | receive now =>
      cases taken : executions.state.channel.recv with
      | none =>
          have stays : executions.state.receive now = executions.state := by
            simp [Ingestion.receive, taken]
          refine ⟨applied, accounts.stage, ?_, ?_, quiet rfl⟩
          · exact (congrArg Ingestion.channel stays).symm ▸ accounts.carries
          · exact (congrArg Ingestion.router stays).trans accounts.router
      | some next =>
          obtain ⟨result, channel⟩ := next
          have applies : executions.state.receive now =
              { executions.state with
                channel
                router := executions.state.router.step (Ingestion.recording result now) } := by
            simp [Ingestion.receive, taken]
          refine ⟨applied ++ [.inl (result, now)], accounts.stage, ?_, ?_, ?_⟩
          · rw [List.filterMap_append]
            exact (congrArg Ingestion.channel applies).symm ▸ accounts.carries.recv taken
          · rw [List.map_append, run_append, ← accounts.router]
            exact congrArg Ingestion.router applies
          · rw [List.filterMap_append]
            exact (List.append_nil _).trans (quiet rfl)
  | close => exact ⟨applied, accounts.stage, accounts.carries.close, accounts.router, quiet rfl⟩
  | operate op =>
      refine ⟨applied ++ [.inr op], accounts.stage, ?_, ?_, ?_⟩
      · rw [List.filterMap_append]
        exact (List.append_nil (applied.filterMap Applied.recorded)).symm ▸ accounts.carries
      · rw [List.map_append, run_append, ← accounts.router]
        rfl
      · rw [List.filterMap_append, List.filterMap_append, accounts.others]
        rfl

variable (adapters)

theorem exists_accounts (kept : α) (capacity : ℕ) (router : Router)
    (tasks : ClientId → ExecutionTask) (actions : List IngestionAction) :
    ∃ applied, (run (step adapters) (start kept capacity router tasks) actions).Accounts router
      tasks actions applied := by
  induction actions using List.reverseRecOn with
  | nil => exact ⟨[], fun _ => .begun, Channel.carries_new capacity, rfl, rfl⟩
  | append_singleton actions action ih =>
      obtain ⟨applied, accounts⟩ := ih
      rw [run_concat]
      exact accounts.step action

/-- **Health is what was accepted.**  An execution that returns `Ok` has been accepted and has
enqueued its outcome once, and any other has enqueued nothing.  When the monitor has drained
the channel, the router has been through `record_result` of what was enqueued, in order, and
through what others did to it; when nobody else did anything, through that alone. -/
theorem records_accepted (kept : α) (capacity : ℕ) (router : Router)
    (tasks : ClientId → ExecutionTask) (actions : List IngestionAction) :
    let executions := run (step adapters) (start kept capacity router tasks) actions
    let accepted := (executions.everyone enqueued).map Prod.snd
    (∀ client result, executions.rest client = done (.ok result) →
      ∃ latencyMs, (tasks client).coordinator.Accepts (tasks client).request result latencyMs ∧
        executions.own enqueued client =
          [(tasks client).request.toToolResult result.success latencyMs]) ∧
    (∀ client, (∀ result, executions.rest client ≠ done (.ok result)) →
      executions.own enqueued client = []) ∧
    (executions.state.channel.queue = [] →
      ∃ applied : List Applied,
        executions.state.router = run Router.step router (applied.map Applied.op) ∧
        applied.filterMap Applied.recorded = accepted ∧
        applied.filterMap Applied.other = actions.filterMap IngestionAction.operated) ∧
    (executions.state.channel.queue = [] → actions.filterMap IngestionAction.operated = [] →
      ∃ times : List Instant, times.length = accepted.length ∧ executions.state.router =
        run Router.step router (List.zipWith Ingestion.recording accepted times)) := by
  intro executions accepted
  obtain ⟨applied, accounts⟩ := exists_accounts adapters kept capacity router tasks actions
  refine ⟨fun client result returned => (accounts.stage client).of_ok returned,
    fun client other => (accounts.stage client).of_not_ok other, fun drained => ?_,
    fun drained alone => ?_⟩
  · exact ⟨applied, accounts.router, accounts.carries.received_eq drained, accounts.others⟩
  · obtain ⟨times, length, same⟩ := Applied.map_op_eq_zipWith (accounts.others.trans alone)
    rw [accounts.carries.received_eq drained] at length same
    exact ⟨times, length, same ▸ accounts.router⟩

end Executions

end

end TrustRouter
