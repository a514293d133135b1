import Mathlib.Algebra.GroupWithZero.Nat
import Mathlib.Data.Finset.Card
import TrustRouter.Prelude.Program

/-!
# Load shedding

The admission control of the fabric.  `evaluate` loads a counter and, where it is below its
limit, adds to it.  These are two steps, and what other callers do may come between them.

A request is a client: it is evaluated, and when it has been accepted or queued it may be
completed or dequeued, at any later point or never.  A schedule interleaves the steps of any
number of requests.  Of two requests that both load a counter before either adds to it, both
find the same room, and that is how a counter comes to exceed its limit.  It does not in a
run whose loads are `Roomy` (`counter_le_limit`): what a load finds must also suffice for the
requests that have found room and not added yet.

The counters are of 32 bits and wrap around.
-/

namespace TrustRouter.Fabric

inductive AdmissionDecision where
  | accept
  | queue
  | defer
  | shed
  | fallback
  deriving DecidableEq

inductive AdmissionRejection where
  | capacityExhausted
  | queueFull
  | tenantQuotaExceeded
  | concurrencyLimit
  | timeoutBudgetInsufficient
  | retryBudgetExhausted
  | sloInfeasible
  deriving DecidableEq

structure AdmissionController where
  globalConcurrencyLimit : UInt32
  maxQueueDepth : UInt32
  activeRequests : UInt32
  queueDepth : UInt32
  deriving DecidableEq

/-- The atomic fields of a controller. -/
inductive Counter where
  | activeRequests
  | queueDepth
  deriving DecidableEq

/-- The atomic steps. -/
inductive CounterCall where
  | load (counter : Counter)
  | fetchAdd (counter : Counter)
  | fetchSub (counter : Counter)
  deriving DecidableEq

/-- Every step is answered with the value it has found. -/
abbrev counterInterface : Interface where
  Call := CounterCall
  Answer _ := UInt32

abbrev Verdict := AdmissionDecision × Option AdmissionRejection

namespace AdmissionController

def new (globalConcurrencyLimit maxQueueDepth : UInt32) : AdmissionController where
  globalConcurrencyLimit := globalConcurrencyLimit
  maxQueueDepth := maxQueueDepth
  activeRequests := 0
  queueDepth := 0

section Counters

variable (controller : AdmissionController)

def counter : Counter → UInt32
  | .activeRequests => controller.activeRequests
  | .queueDepth => controller.queueDepth

def limit : Counter → UInt32
  | .activeRequests => controller.globalConcurrencyLimit
  | .queueDepth => controller.maxQueueDepth

def store (value : UInt32) : Counter → AdmissionController
  | .activeRequests => { controller with activeRequests := value }
  | .queueDepth => { controller with queueDepth := value }

@[simp] theorem counter_new (globalConcurrencyLimit maxQueueDepth : UInt32) (counter : Counter) :
    (new globalConcurrencyLimit maxQueueDepth).counter counter = 0 := by
  cases counter <;> rfl

@[simp] theorem counter_store_self (value : UInt32) (counter : Counter) :
    (controller.store value counter).counter counter = value := by
  cases counter <;> rfl

theorem counter_store_of_ne {counter other : Counter} (value : UInt32) (ne : other ≠ counter) :
    (controller.store value counter).counter other = controller.counter other := by
  cases counter <;> cases other <;> first | rfl | exact absurd rfl ne

end Counters

/-- One atomic step.  The arithmetic of `fetch_add` and `fetch_sub` wraps around. -/
def serve : Server counterInterface AdmissionController
  | controller, .load counter => (controller.counter counter, controller)
  | controller, .fetchAdd counter =>
      let prev := controller.counter counter
      (prev, controller.store (prev + 1) counter)
  | controller, .fetchSub counter =>
      let prev := controller.counter counter
      (prev, controller.store (prev - 1) counter)

/-- Make an atomic step. -/
abbrev perform (step : CounterCall) : Program counterInterface UInt32 :=
  Program.perform (I := counterInterface) step

/-! ## Callers -/

/-- `evaluate`.  The limits never change, and are taken from the controller as it was
built. -/
def evaluate (controller : AdmissionController) : Program counterInterface Verdict := do
  let active ← perform (.load .activeRequests)
  if active < controller.globalConcurrencyLimit then
    let _ ← perform (.fetchAdd .activeRequests)
    return (.accept, none)
  let queue ← perform (.load .queueDepth)
  if queue < controller.maxQueueDepth then
    let _ ← perform (.fetchAdd .queueDepth)
    return (.queue, none)
  return (.shed, some .queueFull)

def complete : Program counterInterface UInt32 := perform (.fetchSub .activeRequests)

def dequeue : Program counterInterface UInt32 := perform (.fetchSub .queueDepth)

/-- All that is done for a request: only what has been accepted is completed, and only what
has been queued is dequeued. -/
def request (controller : AdmissionController) : Program counterInterface Verdict := do
  let verdict ← controller.evaluate
  match verdict.1 with
  | .accept => let _ ← complete
  | .queue => let _ ← dequeue
  | .defer | .shed | .fallback => pure ()
  return verdict

end AdmissionController

abbrev Callers := Clients counterInterface AdmissionController Verdict

namespace Callers

open TrustRouter.Fabric.AdmissionController

/-- One caller makes its next step. -/
abbrev step : Callers → ClientId → Callers := Clients.step fun _ => serve

def start (controller : AdmissionController) : Callers :=
  Clients.start controller fun _ => controller.request

end Callers

/-! ## Stages -/

/-- Where a request stands. -/
inductive Stage where
  | loading (counter : Counter)
  /-- It has found room, and has not added yet. -/
  | adding (counter : Counter)
  /-- It has been accepted or queued. -/
  | holding (counter : Counter)
  | ended (verdict : Verdict)

namespace Stage

variable (controller : AdmissionController)

/-- The verdict on a request that a counter has had room for. -/
def granted : Counter → Verdict
  | .activeRequests => (.accept, none)
  | .queueDepth => (.queue, none)

/-- The step a request makes next. -/
def call : Stage → Option CounterCall
  | loading counter => some (.load counter)
  | adding counter => some (.fetchAdd counter)
  | holding counter => some (.fetchSub counter)
  | ended _ => none

/-- Where a request stands when it has made its next step, the counters being as in `state`. -/
def next (state : AdmissionController) : Stage → Stage
  | loading counter =>
      if state.counter counter < controller.limit counter then adding counter
      else match counter with
        | .activeRequests => loading .queueDepth
        | .queueDepth => ended (.shed, some .queueFull)
  | adding counter => holding counter
  | holding counter => ended (granted counter)
  | ended verdict => ended verdict

/-- What is left to do for a request that has found room. -/
def settle (counter : Counter) : Program counterInterface Verdict :=
  .call (.fetchAdd counter) fun _ => .call (.fetchSub counter) fun _ => .done (granted counter)

/-- What is left to do for a request. -/
def program : Stage → Program counterInterface Verdict
  | loading .activeRequests => controller.request
  | loading .queueDepth => .call (.load .queueDepth) fun queue =>
      if queue < controller.maxQueueDepth then settle .queueDepth
      else .done (.shed, some .queueFull)
  | adding counter => settle counter
  | holding counter => .call (.fetchSub counter) fun _ => .done (granted counter)
  | ended verdict => .done verdict

theorem head_program (stage : Stage) : (stage.program controller).head = stage.call := by
  cases stage with
  | loading counter => cases counter <;> rfl
  | adding | holding | ended => rfl

theorem request_eq : controller.request =
    .call (.load .activeRequests) fun active =>
      if active < controller.globalConcurrencyLimit then settle .activeRequests
      else (loading .queueDepth).program controller := by
  unfold AdmissionController.request AdmissionController.evaluate
  refine congrArg (Program.call _) (funext fun active => ?_)
  simp only [Program.done_bind]
  split_ifs with room
  · rfl
  · refine congrArg (Program.call _) (funext fun queue => ?_)
    simp only [Program.done_bind]
    split_ifs with room
    · rfl
    · rfl

end Stage

namespace Callers

open TrustRouter.Fabric.AdmissionController

variable {controller : AdmissionController} {callers : Callers} {client : ClientId} {stage : Stage}

/-- **One step of a request** takes it to its next stage. -/
theorem rest_step (stands : callers.rest client = stage.program controller) :
    (callers.step client).rest client =
      (stage.next controller callers.state).program controller := by
  cases stage with
  | loading counter =>
      cases counter with
      | activeRequests =>
          rw [Stage.program, Stage.request_eq] at stands
          have served : callers.step client = _ := Clients.step_of_call stands
          rw [served]
          simp only [Function.update_self, Stage.next]
          by_cases room : callers.state.activeRequests < controller.globalConcurrencyLimit
          · exact (if_pos room).trans (by rw [if_pos (by exact room)]; rfl)
          · exact (if_neg room).trans (by rw [if_neg (by exact room)])
      | queueDepth =>
          have served : callers.step client = _ := Clients.step_of_call stands
          rw [served]
          simp only [Function.update_self, Stage.next]
          by_cases room : callers.state.queueDepth < controller.maxQueueDepth
          · exact (if_pos room).trans (by rw [if_pos (by exact room)]; rfl)
          · exact (if_neg room).trans (by rw [if_neg (by exact room)]; rfl)
  | adding counter =>
      have served : callers.step client = _ := Clients.step_of_call stands
      rw [served]
      exact Function.update_self ..
  | holding counter =>
      have served : callers.step client = _ := Clients.step_of_call stands
      rw [served]
      exact Function.update_self ..
  | ended verdict =>
      have served : callers.step client = callers := Clients.step_of_done stands
      rw [served, stands, Stage.next]

/-- Every request is at some stage. -/
theorem exists_stage (controller : AdmissionController) (schedule : List ClientId) :
    ∀ client, ∃ stage : Stage,
      (run step (start controller) schedule).rest client = stage.program controller := by
  refine run_induction (P := fun callers : Callers =>
    ∀ client, ∃ stage : Stage, callers.rest client = stage.program controller)
    (fun _ => ⟨.loading .activeRequests, rfl⟩) (fun callers client stages other => ?_) schedule
  by_cases same : other = client
  · subst same
    obtain ⟨stage, stands⟩ := stages other
    exact ⟨_, rest_step stands⟩
  · rw [Clients.rest_step_of_ne same]
    exact stages other

/-- The next step of a request. -/
def Makes (callers : Callers) (client : ClientId) (call : CounterCall) : Prop :=
  (callers.rest client).head = some call

theorem makes_iff (stands : callers.rest client = stage.program controller)
    (call : CounterCall) : callers.Makes client call ↔ stage.call = some call := by
  unfold Makes
  rw [stands, Stage.head_program]

/-- The requests that make a step, when one request has moved to its next stage. -/
theorem mem_iff_makes_step {set set' : Finset ClientId} {call : CounterCall}
    (mem : ∀ client, client ∈ set ↔ callers.Makes client call)
    (stands : callers.rest client = stage.program controller)
    (self : client ∈ set' ↔ (stage.next controller callers.state).call = some call)
    (others : ∀ other, other ≠ client → (other ∈ set' ↔ other ∈ set)) (other : ClientId) :
    other ∈ set' ↔ (callers.step client).Makes other call := by
  by_cases own : other = client
  · subst own
    rw [self, makes_iff (rest_step stands)]
  · rw [others other own, mem]
    unfold Makes
    rw [Clients.rest_step_of_ne own]

theorem state_step (stands : callers.rest client = stage.program controller) {call : CounterCall}
    (next : stage.call = some call) :
    (callers.step client).state = (serve callers.state call).2 := by
  refine Clients.state_step_of_head ?_
  rw [stands, Stage.head_program, next]

/-- When a load finds room in a counter, there is room enough for the requests that have found
room before and are about to add. -/
def Roomy (controller : AdmissionController) (counter : Counter) (callers : Callers)
    (client : ClientId) : Prop :=
  callers.Makes client (.load counter) →
    callers.state.counter counter < controller.limit counter →
      ∀ waiting : Finset ClientId, (∀ other ∈ waiting, callers.Makes other (.fetchAdd counter)) →
        (callers.state.counter counter).toNat + waiting.card <
          (controller.limit counter).toNat

/-- A counter counts the requests that hold a place, and with those that are about to take one
they are within the limit. -/
structure Tally (controller : AdmissionController) (counter : Counter) (callers : Callers)
    (waiting holding : Finset ClientId) : Prop where
  mem_waiting : ∀ client, client ∈ waiting ↔ callers.Makes client (.fetchAdd counter)
  mem_holding : ∀ client, client ∈ holding ↔ callers.Makes client (.fetchSub counter)
  counted : (callers.state.counter counter).toNat = holding.card
  room : holding.card + waiting.card ≤ (controller.limit counter).toNat

namespace Tally

variable {counter : Counter} {waiting holding : Finset ClientId}

/-- Nobody has made a step yet. -/
theorem start (globalConcurrencyLimit maxQueueDepth : UInt32) (counter : Counter) :
    let controller := new globalConcurrencyLimit maxQueueDepth
    Tally controller counter (start controller) ∅ ∅ := by
  intro controller
  have loads : ∀ client, ((Callers.start controller).rest client).head =
      some (.load .activeRequests) := fun client =>
    Stage.head_program controller (.loading .activeRequests)
  refine ⟨fun client => ?_, fun client => ?_, ?_, Nat.zero_le _⟩
  · simp [Makes, loads]
  · simp [Makes, loads]
  · simp [Callers.start, Clients.start, controller]

/-- A step that is about another counter, or about none. -/
theorem unchanged (tally : Tally controller counter callers waiting holding)
    (stands : callers.rest client = stage.program controller)
    (adds : (stage.next controller callers.state).call = some (.fetchAdd counter) ↔
      stage.call = some (.fetchAdd counter))
    (subs : (stage.next controller callers.state).call = some (.fetchSub counter) ↔
      stage.call = some (.fetchSub counter))
    (same : (callers.step client).state.counter counter = callers.state.counter counter) :
    Tally controller counter (callers.step client) waiting holding where
  mem_waiting := mem_iff_makes_step tally.mem_waiting stands
    (by rw [tally.mem_waiting, makes_iff stands, adds]) fun _ _ => Iff.rfl
  mem_holding := mem_iff_makes_step tally.mem_holding stands
    (by rw [tally.mem_holding, makes_iff stands, subs]) fun _ _ => Iff.rfl
  counted := same ▸ tally.counted
  room := tally.room

/-- A request has found room. -/
theorem found (tally : Tally controller counter callers waiting holding)
    (stands : callers.rest client = (Stage.loading counter).program controller)
    (room : callers.state.counter counter < controller.limit counter)
    (roomy : Roomy controller counter callers client) :
    Tally controller counter (callers.step client) (insert client waiting) holding := by
  -- only here is the load required to be roomy
  have enough := roomy ((makes_iff stands _).mpr rfl) room waiting
    fun other mem => (tally.mem_waiting other).mp mem
  have state : (callers.step client).state = callers.state := state_step stands rfl
  have next : (Stage.loading counter).next controller callers.state = .adding counter :=
    if_pos room
  refine ⟨mem_iff_makes_step tally.mem_waiting stands ?_ fun other own => ?_,
    mem_iff_makes_step tally.mem_holding stands ?_ fun _ _ => Iff.rfl, state ▸ tally.counted, ?_⟩
  · simp [next, Stage.call]
  · simp [own]
  · rw [tally.mem_holding, makes_iff stands, next]
    simp [Stage.call]
  · have card := Finset.card_insert_le client waiting
    have counted := tally.counted
    omega

/-- A request that has found room has added. -/
theorem added (tally : Tally controller counter callers waiting holding)
    (stands : callers.rest client = (Stage.adding counter).program controller) :
    Tally controller counter (callers.step client) (waiting.erase client)
      (insert client holding) := by
  have mem : client ∈ waiting := (tally.mem_waiting client).mpr ((makes_iff stands _).mpr rfl)
  have notHolding : client ∉ holding := by
    rw [tally.mem_holding, makes_iff stands]
    simp [Stage.call]
  have waits := Finset.card_erase_add_one mem
  have holds := Finset.card_insert_of_notMem notHolding
  have room := tally.room
  have state : (callers.step client).state = _ := state_step stands rfl
  refine ⟨mem_iff_makes_step tally.mem_waiting stands ?_ fun other own => ?_,
    mem_iff_makes_step tally.mem_holding stands ?_ fun other own => ?_, ?_, by omega⟩
  · simp [Stage.next, Stage.call]
  · simp [own]
  · simp [Stage.next, Stage.call]
  · simp [own]
  · -- The limit is of 32 bits, so the addition does not wrap around.
    have below := (controller.limit counter).toNat_lt
    have counted := tally.counted
    rw [state, serve, counter_store_self, UInt32.toNat_add, UInt32.toNat_one,
      Nat.mod_eq_of_lt (by omega), holds, counted]

/-- A request has been completed or dequeued. -/
theorem left (tally : Tally controller counter callers waiting holding)
    (stands : callers.rest client = (Stage.holding counter).program controller) :
    Tally controller counter (callers.step client) waiting (holding.erase client) := by
  have mem : client ∈ holding := (tally.mem_holding client).mpr ((makes_iff stands _).mpr rfl)
  have holds := Finset.card_erase_add_one mem
  have room := tally.room
  have state : (callers.step client).state = _ := state_step stands rfl
  refine ⟨mem_iff_makes_step tally.mem_waiting stands ?_ fun _ _ => Iff.rfl,
    mem_iff_makes_step tally.mem_holding stands ?_ fun other own => ?_, ?_, by omega⟩
  · rw [tally.mem_waiting, makes_iff stands]
    simp [Stage.next, Stage.call]
  · simp [Stage.next, Stage.call]
  · simp [own]
  · have counted := tally.counted
    have one : (1 : UInt32) ≤ callers.state.counter counter := by
      rw [UInt32.le_iff_toNat_le, UInt32.toNat_one]
      omega
    rw [state, serve, counter_store_self, UInt32.toNat_sub_of_le _ _ one, UInt32.toNat_one]
    omega

/-- **A step of a request that finds room only where there is room enough** keeps the
tally. -/
theorem step (tally : Tally controller counter callers waiting holding)
    (stands : callers.rest client = stage.program controller)
    (roomy : Roomy controller counter callers client) :
    ∃ waiting' holding', Tally controller counter (callers.step client) waiting' holding' := by
  cases stage with
  | loading loaded =>
      have same : (callers.step client).state = callers.state := state_step stands rfl
      by_cases room : callers.state.counter loaded < controller.limit loaded
      · by_cases own : loaded = counter
        · subst own
          exact ⟨_, _, tally.found stands room roomy⟩
        · have next : (Stage.loading loaded).next controller callers.state = .adding loaded :=
            if_pos room
          refine ⟨_, _, tally.unchanged stands ?_ ?_ (by rw [same])⟩
          · simp [next, Stage.call, own]
          · simp [next, Stage.call]
      -- a counter without room is left as it is: the request goes on to the queue or ends
      · have next : (Stage.loading loaded).next controller callers.state = _ := if_neg room
        refine ⟨_, _, tally.unchanged stands ?_ ?_ (by rw [same])⟩
        · cases loaded <;> simp [next, Stage.call]
        · cases loaded <;> simp [next, Stage.call]
  | adding other =>
      by_cases own : other = counter
      · subst own
        exact ⟨_, _, tally.added stands⟩
      · have state : (callers.step client).state = _ := state_step stands rfl
        refine ⟨_, _, tally.unchanged stands ?_ ?_ ?_⟩
        · simp [Stage.next, Stage.call, own]
        · simp [Stage.next, Stage.call, own]
        · rw [state]
          exact counter_store_of_ne _ _ (Ne.symm own)
  | holding other =>
      by_cases own : other = counter
      · subst own
        exact ⟨_, _, tally.left stands⟩
      · have state : (callers.step client).state = _ := state_step stands rfl
        refine ⟨_, _, tally.unchanged stands ?_ ?_ ?_⟩
        · simp [Stage.next, Stage.call]
        · simp [Stage.next, Stage.call, own]
        · rw [state]
          exact counter_store_of_ne _ _ (Ne.symm own)
  | ended verdict =>
      have same : callers.step client = callers := Clients.step_of_done stands
      exact ⟨_, _, same.symm ▸ tally⟩

end Tally

/-- **A counter whose loads are roomy stays within its limit.** -/
theorem counter_le_limit {globalConcurrencyLimit maxQueueDepth : UInt32} {counter : Counter}
    {schedule : List ClientId} :
    let controller := new globalConcurrencyLimit maxQueueDepth
    AllSteps step (Roomy controller counter) (start controller) schedule →
      (run step (start controller) schedule).state.counter counter ≤ controller.limit counter := by
  intro controller roomy
  have kept : ∃ waiting holding,
      Tally controller counter (run step (start controller) schedule) waiting holding := by
    induction schedule using List.reverseRecOn with
    | nil => exact ⟨_, _, Tally.start _ _ _⟩
    | append_singleton schedule client ih =>
        obtain ⟨before, now⟩ := allSteps_append.mp roomy
        obtain ⟨waiting, holding, tally⟩ := ih before
        obtain ⟨stage, stands⟩ := exists_stage controller schedule client
        rw [run_concat]
        exact tally.step stands now.1
  obtain ⟨waiting, holding, tally⟩ := kept
  have counted := tally.counted
  have room := tally.room
  rw [UInt32.le_iff_toNat_le]
  omega

/-- Requests that are about to add, and do so one after another. -/
theorem counter_run_of_adding {counter : Counter} {waiting : List ClientId}
    (nodup : waiting.Nodup) (adds : ∀ client ∈ waiting, callers.Makes client (.fetchAdd counter)) :
    (run step callers waiting).state.counter counter =
      callers.state.counter counter + UInt32.ofNat waiting.length := by
  induction waiting generalizing callers with
  | nil => simp
  | cons client waiting ih =>
      obtain ⟨notMem, nodup⟩ := List.nodup_cons.mp nodup
      have now : (callers.step client).state = _ :=
        Clients.state_step_of_head (adds client List.mem_cons_self)
      have later : ∀ other ∈ waiting, (callers.step client).Makes other (.fetchAdd counter) := by
        intro other mem
        have others : other ≠ client := fun same => notMem (same ▸ mem)
        unfold Makes
        rw [Clients.rest_step_of_ne others]
        exact adds other (List.mem_cons_of_mem _ mem)
      -- each adds one, whatever it has loaded
      rw [run_cons, ih nodup later, now, serve, counter_store_self, List.length_cons,
        UInt32.ofNat_add, UInt32.add_assoc, UInt32.add_comm 1]
      rfl

/-- **A load that is not roomy leads beyond the limit** when all that have found room add. -/
theorem exists_limit_lt_counter {counter : Counter}
    (stands : callers.rest client = stage.program controller)
    (bounded : (controller.limit counter).toNat + 1 < 2 ^ 32)
    (crowded : ¬ Roomy controller counter callers client) :
    ∃ more, controller.limit counter <
      (run step callers (client :: more)).state.counter counter := by
  unfold Roomy at crowded
  push Not at crowded
  obtain ⟨loads, room, waiting, adds, tooMany⟩ := crowded
  have loading : stage = .loading counter := by
    have call := (makes_iff stands _).mp loads
    cases stage with
    | loading loaded =>
        cases call
        rfl
    | adding | holding | ended => cases call
  subst loading
  have next : (Stage.loading counter).next controller callers.state = .adding counter :=
    if_pos room
  have notMem : client ∉ waiting := by
    intro mem
    have both := adds client mem
    rw [makes_iff stands] at both
    cases both
  rw [UInt32.lt_iff_toNat_lt] at room
  -- of those that have found room, one more than there are places left
  obtain ⟨chosen, subset, card⟩ := Finset.exists_subset_card_eq
    (s := insert client waiting)
    (n := (controller.limit counter).toNat + 1 - (callers.state.counter counter).toNat)
    (by rw [Finset.card_insert_of_notMem notMem]; omega)
  have state : (callers.step client).state = callers.state := state_step stands rfl
  have adding : ∀ other ∈ chosen.toList, (callers.step client).Makes other (.fetchAdd counter) := by
    intro other mem
    rcases Finset.mem_insert.mp (subset (Finset.mem_toList.mp mem)) with rfl | mem
    · exact (makes_iff (rest_step stands) _).mpr (by rw [next]; rfl)
    · have others : other ≠ client := fun same => notMem (same ▸ mem)
      unfold Makes
      rw [Clients.rest_step_of_ne others]
      exact adds other mem
  refine ⟨chosen.toList, ?_⟩
  rw [run_cons, counter_run_of_adding chosen.nodup_toList adding, state, Finset.length_toList, card,
    UInt32.lt_iff_toNat_lt, UInt32.toNat_add, UInt32.toNat_ofNat', Nat.add_mod_mod,
    Nat.mod_eq_of_lt (by omega)]
  omega

/-- No more requests are active or queued than may be. -/
def Bounded (controller : AdmissionController) (callers : Callers) : Prop :=
  callers.state.activeRequests ≤ controller.globalConcurrencyLimit ∧
    callers.state.queueDepth ≤ controller.maxQueueDepth

instance : Decidable (Bounded controller callers) :=
  inferInstanceAs (Decidable (_ ∧ _))

/-- **Nobody is admitted beyond the limits** in a run whose loads are roomy.  And any run can
be continued beyond a limit from a load that is not, unless no counter of 32 bits exceeds that
limit. -/
theorem bounded_of_roomy (limit depth : UInt32) :
    (∀ schedule, AllSteps step (fun callers client => ∀ counter,
        Roomy (new limit depth) counter callers client) (start (new limit depth)) schedule →
      Bounded (new limit depth) (run step (start (new limit depth)) schedule)) ∧
    ∀ counter schedule client, ((new limit depth).limit counter).toNat + 1 < 2 ^ 32 →
      ¬ Roomy (new limit depth) counter (run step (start (new limit depth)) schedule) client →
        ∃ more, (new limit depth).limit counter <
          (run step (start (new limit depth)) (schedule ++ client :: more)).state.counter
            counter := by
  generalize built : new limit depth = controller
  refine ⟨fun schedule roomy => ?_, fun counter schedule client bounded crowded => ?_⟩
  · have each : ∀ counter, AllSteps step (Roomy controller counter) (start controller) schedule :=
      fun counter => allSteps_iff.mpr fun before client rest split =>
        allSteps_iff.mp roomy before client rest split counter
    subst built
    exact ⟨counter_le_limit (each .activeRequests), counter_le_limit (each .queueDepth)⟩
  · obtain ⟨stage, stands⟩ := exists_stage controller schedule client
    -- the load is made, and then those that have found room add
    obtain ⟨more, exceeds⟩ := exists_limit_lt_counter stands bounded crowded
    exact ⟨more, run_append schedule (client :: more) ▸ exceeds⟩

instance (client : ClientId) (call : CounterCall) : Decidable (callers.Makes client call) :=
  inferInstanceAs (Decidable ((callers.rest client).head = some call))

/-- A request that has made no step has not found room. -/
theorem mem_of_makes_fetchAdd {schedule : List ClientId} {counter : Counter} {client : ClientId}
    (adds : (run step (start controller) schedule).Makes client (.fetchAdd counter)) :
    client ∈ schedule := by
  by_contra absent
  have untouched : (run step (start controller) schedule).rest client = controller.request := by
    clear adds
    induction schedule using List.reverseRecOn with
    | nil => rfl
    | append_singleton schedule other ih =>
        rw [List.mem_append, List.mem_singleton, not_or] at absent
        rw [run_concat, Clients.rest_step_of_ne absent.2]
        exact ih absent.1
  unfold Makes at adds
  rw [untouched] at adds
  cases adds

/-- Three requests for two places and one in the queue.  Two of them load the counter before either
adds to it. -/
theorem bounded_of_roomy_interleaved :
    let controller := new 2 1
    let callers := run step (start controller) [0, 1, 0, 1, 2, 2, 2]
    Bounded controller callers ∧ callers.state.activeRequests = 2 ∧
      callers.state.queueDepth = 1 := by
  intro controller callers
  let schedule : List ClientId := [0, 1, 0, 1, 2, 2, 2]
  -- room is needed for those only that have made a step
  have places : ∀ k : Fin 7, ∀ counter ∈ [Counter.activeRequests, .queueDepth],
      let before := schedule.take k
      let callers := run step (start controller) before
      callers.Makes (schedule.get k) (.load counter) →
        callers.state.counter counter < controller.limit counter →
          (callers.state.counter counter).toNat + (before.toFinset.filter fun other =>
            callers.Makes other (.fetchAdd counter)).card < (controller.limit counter).toNat := by
    decide
  refine ⟨(bounded_of_roomy 2 1).1 schedule ?_, by decide, by decide⟩
  refine allSteps_iff.mpr fun before client after split counter loads room waiting adds => ?_
  have subset : waiting ⊆ before.toFinset.filter fun other =>
      (run step (start controller) before).Makes other (.fetchAdd counter) := by
    intro other mem
    have adding := adds other mem
    exact Finset.mem_filter.mpr ⟨List.mem_toFinset.mpr (mem_of_makes_fetchAdd adding), adding⟩
  have short : before.length < 7 := by
    have length : 7 = before.length + (after.length + 1) := by
      rw [← List.length_cons, ← List.length_append, ← split]
      rfl
    omega
  have isNext : schedule.get ⟨before.length, short⟩ = client := by simp [split]
  have isBefore : schedule.take before.length = before := by simp [split]
  have enough := places ⟨before.length, short⟩ counter (by cases counter <;> decide)
  dsimp only at enough
  rw [isNext, isBefore] at enough
  exact (Nat.add_le_add_left (Finset.card_le_card subset) _).trans_lt (enough loads room)

/-- Two requests load the counter before either adds to it, and the one place is taken
twice. -/
theorem not_bounded_race :
    ¬ ∀ (limit depth : UInt32) (schedule : List ClientId),
      Bounded (new limit depth) (run step (start (new limit depth)) schedule) := by
  intro always
  exact absurd (always 1 0 [0, 1, 0, 1]) (by decide)

end Callers

end TrustRouter.Fabric
