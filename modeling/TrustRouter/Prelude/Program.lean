import Mathlib.Data.List.Basic
import Mathlib.Logic.Function.Basic
import TrustRouter.Prelude.Run

/-!
# Programs of calls

A program that touches what it shares with others only by calls.  An `Interface` is a
set of calls with the type of what each is answered with, and a `Program` either is done
or makes a call and goes on from the answer.  What a call is answered with is decided by
a `Server`.

There are two ways to run a program.  `play` runs it alone, from a state to a state, and
records the calls and their answers.  `Clients.step` is one call of one of many programs
that share a server, so that a run of it is an interleaving of them, in the order given by
a schedule.  A program played alone is the schedule in which nobody else is served
(`play_eq_run`).  Where others than the programs change the state of the server as well, a
run is one of `Clients.turn`.

Two predicates speak about a program whoever serves it.  `Only` says which calls it can
make.  `Ensures` says what holds of its calls and answers, taken together with its result,
when it is done.  Of the second, every client of every interleaving has its share
(`Clients.ensures_rest`, `Clients.ensures_turns`).
-/

namespace TrustRouter

universe u w x

/-- Calls, and the type of the answer to each. -/
structure Interface where
  Call : Type u
  Answer : Call → Type u

/-- A call with its answer. -/
structure Interface.Event (I : Interface.{u}) where
  call : I.Call
  answer : I.Answer call

/-- A program that makes calls of an interface. -/
inductive Program (I : Interface.{u}) (α : Type w) where
  | done (result : α)
  | call (call : I.Call) (next : I.Answer call → Program I α)

/-- What answers calls, from a state it may change. -/
abbrev Server (I : Interface.{u}) (σ : Type x) := σ → (call : I.Call) → I.Answer call × σ

namespace Program

variable {I : Interface.{u}} {α : Type w} {β : Type w} {σ : Type x}

def bind : Program I α → (α → Program I β) → Program I β
  | done result, f => f result
  | call c next, f => call c fun answer => (next answer).bind f

instance : Monad (Program I) where
  pure := done
  bind := bind

/-- The program that makes one call and returns its answer. -/
def perform (c : I.Call) : Program I (I.Answer c) := call c done

@[simp] theorem pure_eq_done (result : α) : (pure result : Program I α) = done result := rfl

@[simp] theorem bind_eq_bind (program : Program I α) (f : α → Program I β) :
    program >>= f = program.bind f := rfl

@[simp] theorem done_bind (result : α) (f : α → Program I β) :
    (done result).bind f = f result := rfl

@[simp] theorem call_bind (c : I.Call) (next : I.Answer c → Program I α)
    (f : α → Program I β) :
    (call c next).bind f = call c fun answer => (next answer).bind f := rfl

def isDone : Program I α → Bool
  | done _ => true
  | call _ _ => false

theorem isDone_iff {program : Program I α} :
    program.isDone = true ↔ ∃ result, program = done result := by
  cases program <;> simp [isDone]

/-- The call a program makes next. -/
def head : Program I α → Option I.Call
  | done _ => none
  | call c _ => some c

theorem head_eq_some {program : Program I α} {c : I.Call} :
    program.head = some c ↔ ∃ next, program = call c next := by
  constructor
  · intro next
    cases program with
    | done result => cases next
    | call c' next' =>
        cases next
        exact ⟨next', rfl⟩
  · rintro ⟨next, rfl⟩
    rfl

/-- A loop that collects what its body gives for each item. -/
def collect {κ : Type*} (items : List κ) (body : κ → Program I (List α)) : Program I (List α) :=
  match items with
  | [] => done []
  | item :: rest => (body item).bind fun found =>
      (collect rest body).bind fun others => done (found ++ others)

/-! ## Alone -/

/-- A program that has been played: its result, the state it has left, and its calls with
their answers. -/
structure Played (I : Interface.{u}) (σ : Type x) (α : Type w) where
  result : α
  state : σ
  events : List I.Event

/-- Run a program alone. -/
def play (serve : Server I σ) : σ → Program I α → Played I σ α
  | state, done result => ⟨result, state, []⟩
  | state, call c next =>
      let served := serve state c
      let rest := play serve served.2 (next served.1)
      { rest with events := ⟨c, served.1⟩ :: rest.events }

variable {serve : Server I σ} {state : σ}

@[simp] theorem play_done (result : α) : play serve state (done result) = ⟨result, state, []⟩ :=
  rfl

theorem play_call (c : I.Call) (next : I.Answer c → Program I α) :
    play serve state (call c next) =
      let rest := play serve (serve state c).2 (next (serve state c).1)
      { rest with events := ⟨c, (serve state c).1⟩ :: rest.events } := rfl

/-- To play one program after another is to play the second from where the first ends. -/
theorem play_bind (program : Program I α) (f : α → Program I β) :
    play serve state (program.bind f) =
      let first := play serve state program
      let second := play serve first.state (f first.result)
      { second with events := first.events ++ second.events } := by
  induction program generalizing state with
  | done result => rfl
  | call c next ih => simp only [call_bind, play_call, ih, List.cons_append]

/-! ## The calls a program can make -/

/-- Whatever it is answered, the program only makes calls that satisfy `P`. -/
def Only (P : I.Call → Prop) : Program I α → Prop
  | done _ => True
  | call c next => P c ∧ ∀ answer, (next answer).Only P

section Only

variable {P : I.Call → Prop} {program : Program I α}

theorem Only.bind {f : α → Program I β} (only : program.Only P)
    (rest : ∀ result, (f result).Only P) :
    (program.bind f).Only P := by
  induction program with
  | done result => exact rest result
  | call c next ih => exact ⟨only.1, fun answer => ih answer (only.2 answer)⟩

theorem Only.collect {κ : Type*} {items : List κ} {body : κ → Program I (List α)}
    (only : ∀ item ∈ items, (body item).Only P) : (Program.collect items body).Only P := by
  induction items with
  | nil => exact trivial
  | cons item rest ih =>
      refine (only item List.mem_cons_self).bind fun _ => ?_
      exact (ih fun item mem => only item (List.mem_cons_of_mem _ mem)).bind fun _ => trivial

theorem Only.call_mem (only : program.Only P) :
    ∀ event ∈ (play serve state program).events, P event.call := by
  induction program generalizing state with
  | done result => simp
  | call c next ih =>
      intro event mem
      rcases List.mem_cons.mp mem with rfl | mem
      · exact only.1
      · exact ih _ (only.2 _) event mem

/-- A program leaves the state alone if every call it can make does. -/
theorem Only.state_eq (only : program.Only P)
    (reads : ∀ c, P c → ∀ state, (serve state c).2 = state) :
    (play serve state program).state = state := by
  induction program generalizing state with
  | done result => rfl
  | call c next ih =>
      rw [play_call]
      exact (ih _ (only.2 _)).trans (reads c only.1 state)

/-- What a loop collects whose body leaves the state alone. -/
theorem result_play_collect {κ : Type*} {items : List κ} {body : κ → Program I (List α)}
    (only : ∀ item ∈ items, (body item).Only P)
    (reads : ∀ c, P c → ∀ state, (serve state c).2 = state) :
    (play serve state (collect items body)).result =
      items.flatMap fun item => (play serve state (body item)).result := by
  induction items with
  | nil => rfl
  | cons item rest ih =>
      have stays : (play serve state (body item)).state = state :=
        (only item List.mem_cons_self).state_eq reads
      simp only [collect, play_bind, play_done, List.flatMap_cons]
      rw [stays, ih fun item mem => only item (List.mem_cons_of_mem _ mem)]

end Only

/-! ## What a program ensures -/

/-- When the program is done, its result and its history satisfy `Q`.  The history is of
what `visible` shows of the calls and their answers; `past` is the history so far; and an
answer that is not `Allowed` need not be reckoned with. -/
def Ensures {κ : Type*} (Allowed : I.Event → Prop) (visible : I.Event → Option κ)
    (Q : List κ → α → Prop) : List κ → Program I α → Prop
  | past, done result => Q past result
  | past, call c next => ∀ answer, Allowed ⟨c, answer⟩ →
      (next answer).Ensures Allowed visible Q (past ++ (visible ⟨c, answer⟩).toList)

section Ensures

variable {κ : Type*} {Allowed : I.Event → Prop} {visible : I.Event → Option κ}
variable {Q : List κ → β → Prop} {past : List κ}

theorem ensures_bind {program : Program I α} {f : α → Program I β} :
    (program.bind f).Ensures Allowed visible Q past ↔
      program.Ensures Allowed visible (fun past result => (f result).Ensures Allowed visible Q past)
        past := by
  induction program generalizing past with
  | done result => exact Iff.rfl
  | call c next ih => exact forall_congr' fun answer => imp_congr_right fun _ => ih answer

theorem Ensures.mono {Q' : List κ → β → Prop} {program : Program I β}
    (ensures : program.Ensures Allowed visible Q past)
    (weaker : ∀ past result, Q past result → Q' past result) :
    program.Ensures Allowed visible Q' past := by
  induction program generalizing past with
  | done result => exact weaker past result ensures
  | call c next ih => exact fun answer allowed => ih answer (ensures answer allowed)

/-- A loop only collects what its body gives. -/
theorem Ensures.collect {ι : Type*} {P : α → Prop} {items : List ι}
    {body : ι → Program I (List α)}
    (each : ∀ item ∈ items, (body item).Ensures Allowed visible
      (fun past' found => past' = past ∧ ∀ a ∈ found, P a) past) :
    (Program.collect items body).Ensures Allowed visible
      (fun past' found => past' = past ∧ ∀ a ∈ found, P a) past := by
  induction items with
  | nil => exact ⟨rfl, fun a mem => absurd mem List.not_mem_nil⟩
  | cons item rest ih =>
      refine ensures_bind.mpr ((each item List.mem_cons_self).mono ?_)
      rintro _ found ⟨rfl, holds⟩
      refine ensures_bind.mpr ((ih fun item mem => each item (List.mem_cons_of_mem _ mem)).mono ?_)
      rintro _ others ⟨rfl, holds'⟩
      exact ⟨rfl, List.forall_mem_append.mpr ⟨holds, holds'⟩⟩

/-- A program that makes no call that shows leaves its history as it is. -/
theorem Only.ensures {P : I.Call → Prop} {program : Program I β} (only : program.Only P)
    (hidden : ∀ event : I.Event, P event.call → visible event = none) :
    program.Ensures Allowed visible (fun past' _ => past' = past) past := by
  induction program with
  | done result => rfl
  | call c next ih =>
      intro answer _
      rw [hidden ⟨c, answer⟩ only.1, Option.toList_none, List.append_nil]
      exact ih answer (only.2 answer)

/-- A program that can always be answered can be brought to its end. -/
theorem Ensures.exists_end {program : Program I β}
    (ensures : program.Ensures Allowed visible Q past)
    (answerable : ∀ c, ∃ answer, Allowed ⟨c, answer⟩) :
    ∃ future result, Q (past ++ future) result := by
  induction program generalizing past with
  | done result => exact ⟨[], result, (List.append_nil past).symm ▸ ensures⟩
  | call c next ih =>
      obtain ⟨answer, allowed⟩ := answerable c
      obtain ⟨future, result, holds⟩ := ih answer (ensures answer allowed)
      exact ⟨_, result, List.append_assoc past _ future ▸ holds⟩

end Ensures

end Program

/-! ## Interleaved -/

/-- The identity of a program among those that share a server. -/
abbrev ClientId := ℕ

/-- Programs that share a server: the state of the server, what each program has still to
do, and the calls made so far with their answers, in order. -/
structure Clients (I : Interface.{u}) (σ : Type x) (α : Type w) where
  state : σ
  rest : ClientId → Program I α
  log : List (ClientId × I.Event)

namespace Clients

variable {I : Interface.{u}} {α : Type w} {σ : Type x}

/-- Nobody has made a call yet. -/
def start (state : σ) (programs : ClientId → Program I α) : Clients I σ α := ⟨state, programs, []⟩

variable (serve : ClientId → Server I σ)

/-- The next call of a client, with the answer it gets if it is served now. -/
def next (clients : Clients I σ α) (client : ClientId) : Option I.Event :=
  match clients.rest client with
  | .done _ => none
  | .call c _ => some ⟨c, (serve client clients.state c).1⟩

/-- One client is served. -/
def step (clients : Clients I σ α) (client : ClientId) : Clients I σ α :=
  match clients.rest client with
  | .done _ => clients
  | .call c next =>
      let served := serve client clients.state c
      { state := served.2
        rest := Function.update clients.rest client (next served.1)
        log := clients.log ++ [(client, ⟨c, served.1⟩)] }

/-- What shows of the calls a client has made. -/
def own {κ : Type*} (visible : I.Event → Option κ) (clients : Clients I σ α) (client : ClientId) :
    List κ :=
  clients.log.filterMap fun entry => if entry.1 = client then visible entry.2 else none

/-- What shows of the calls of all clients, with the client that made each. -/
def everyone {κ : Type*} (visible : I.Event → Option κ) (clients : Clients I σ α) :
    List (ClientId × κ) :=
  clients.log.filterMap fun entry => (visible entry.2).map (Prod.mk entry.1)

variable {serve}
variable {clients : Clients I σ α} {client : ClientId}

section Everyone

variable {κ : Type*} {visible visible' : I.Event → Option κ}

/-- To see less of what a client has done is to look at what was seen of it. -/
theorem own_eq_filterMap {μ : Type*} {f : κ → Option μ} {sees : I.Event → Option μ}
    (less : ∀ event, sees event = (visible event).bind f) :
    clients.own sees client = (clients.own visible client).filterMap f := by
  unfold own
  rw [List.filterMap_filterMap]
  refine List.filterMap_congr fun entry _ => ?_
  split_ifs with same
  · exact less entry.2
  · rfl

theorem own_eq_filter : clients.own visible client =
    ((clients.everyone visible).filter (·.1 = client)).map Prod.snd := by
  unfold own everyone
  induction clients.log with
  | nil => rfl
  | cons entry log ih =>
      cases shown : visible entry.2 <;> by_cases same : entry.1 = client <;>
        simp [shown, same, ih]

theorem mem_everyone {x : κ} :
    (client, x) ∈ clients.everyone visible ↔ x ∈ clients.own visible client := by
  simp [own_eq_filter]

theorem filterMap_log : (clients.log.filterMap fun entry => visible entry.2) =
    (clients.everyone visible).map Prod.snd := by
  unfold everyone
  rw [List.map_filterMap]
  exact List.filterMap_congr fun entry _ => by simp [Function.comp_def]

/-- Where every client has made the same of two kinds of calls, all of them have. -/
theorem perm_of_own_eq [DecidableEq κ]
    (same : ∀ client, clients.own visible client = clients.own visible' client) :
    (clients.log.filterMap fun entry => visible entry.2).Perm
      (clients.log.filterMap fun entry => visible' entry.2) := by
  have counted : ∀ (visible : I.Event → Option κ) (client : ClientId) (x : κ),
      (clients.everyone visible).count (client, x) = (clients.own visible client).count x := by
    intro visible client x
    rw [own_eq_filter]
    induction clients.everyone visible with
    | nil => rfl
    | cons entry entries ih =>
        obtain ⟨owner, y⟩ := entry
        by_cases mine : owner = client <;> simp [List.count_cons, mine, ih]
  rw [filterMap_log, filterMap_log]
  refine List.Perm.map _ (List.perm_iff_count.mpr fun entry => ?_)
  obtain ⟨client, x⟩ := entry
  rw [counted, counted, same]

end Everyone

theorem step_of_done {result : α} (ended : clients.rest client = .done result) :
    clients.step serve client = clients := by
  unfold step
  rw [ended]

theorem step_of_call {c : I.Call} {next : I.Answer c → Program I α}
    (goesOn : clients.rest client = .call c next) :
    clients.step serve client =
      { state := (serve client clients.state c).2
        rest := Function.update clients.rest client (next (serve client clients.state c).1)
        log := clients.log ++ [(client, ⟨c, (serve client clients.state c).1⟩)] } := by
  unfold step
  rw [goesOn]

theorem rest_step_of_ne {other : ClientId} (others : other ≠ client) :
    (clients.step serve client).rest other = clients.rest other := by
  cases left : clients.rest client with
  | done result => rw [step_of_done left]
  | call c next =>
      rw [step_of_call left]
      exact Function.update_of_ne others _ _

/-- The state when a client has made the call it makes next. -/
theorem state_step_of_head {c : I.Call} (next : (clients.rest client).head = some c) :
    (clients.step serve client).state = (serve client clients.state c).2 := by
  obtain ⟨next, goesOn⟩ := Program.head_eq_some.mp next
  rw [step_of_call goesOn]

theorem next_of_call {c : I.Call} {next : I.Answer c → Program I α}
    (goesOn : clients.rest client = .call c next) :
    clients.next serve client = some ⟨c, (serve client clients.state c).1⟩ := by
  unfold Clients.next
  rw [goesOn]

/-- What shows of a client when one has been served. -/
theorem own_step_of_call {κ : Type*} {visible : I.Event → Option κ} {c : I.Call}
    {next : I.Answer c → Program I α} (goesOn : clients.rest client = .call c next)
    (other : ClientId) :
    (clients.step serve client).own visible other =
      clients.own visible other ++
        if client = other then (visible ⟨c, (serve client clients.state c).1⟩).toList else [] := by
  rw [step_of_call goesOn]
  by_cases same : client = other
  · subst same
    cases shown : visible ⟨c, (serve client clients.state c).1⟩ <;> simp [own, shown]
  · simp [own, same]

/-- What holds of every client, of what it has still to do and what shows of what it has done,
holds when one has been served, if it does of that one. -/
theorem forall_step {κ : Type*} {visible : I.Event → Option κ}
    {K : ClientId → List κ → Program I α → Prop} {served : ClientId}
    (keeps : ∀ client, K client (clients.own visible client) (clients.rest client))
    (moves : ∀ c next, clients.rest served = .call c next →
      let answer := (serve served clients.state c).1
      K served (clients.own visible served ++ (visible ⟨c, answer⟩).toList) (next answer))
    (client : ClientId) :
    K client ((clients.step serve served).own visible client)
      ((clients.step serve served).rest client) := by
  cases left : clients.rest served with
  | done result =>
      rw [step_of_done left]
      exact keeps client
  | call c next =>
      rw [own_step_of_call left, step_of_call left]
      by_cases same : client = served
      · subst same
        simpa using moves c next left
      · simpa [same, Ne.symm same] using keeps client

/-- What a client has still to ensure, whoever is served. -/
theorem ensures_step {κ : Type*} {Allowed : I.Event → Prop} {visible : I.Event → Option κ}
    {Q : ClientId → List κ → α → Prop} {served : ClientId}
    (keeps : ∀ client, (clients.rest client).Ensures Allowed visible (Q client)
      (clients.own visible client))
    (may : ∀ event ∈ clients.next serve served, Allowed event) (client : ClientId) :
    ((clients.step serve served).rest client).Ensures Allowed visible (Q client)
      ((clients.step serve served).own visible client) := by
  refine forall_step (K := fun client past program =>
    program.Ensures Allowed visible (Q client) past) keeps (fun c next left => ?_) client
  have goes := keeps served
  rw [left] at goes
  exact goes _ (may _ (next_of_call left))

/-- **Every client ensures what its program ensures**, however it is interleaved with the
others, as long as its calls are answered as allowed. -/
theorem ensures_rest {κ : Type*} {Allowed : I.Event → Prop} {visible : I.Event → Option κ}
    {Q : ClientId → List κ → α → Prop} {state : σ} {programs : ClientId → Program I α}
    (ensures : ∀ client, (programs client).Ensures Allowed visible (Q client) [])
    {schedule : List ClientId}
    (allowed : AllSteps (step serve) (fun clients client =>
      ∀ event ∈ clients.next serve client, Allowed event) (start state programs) schedule)
    (client : ClientId) :
    ((run (step serve) (start state programs) schedule).rest client).Ensures Allowed visible
      (Q client) ((run (step serve) (start state programs) schedule).own visible client) := by
  revert client
  exact allowed.run_induction (P := fun clients => ∀ client,
    (clients.rest client).Ensures Allowed visible (Q client) (clients.own visible client))
    ensures fun _ _ keeps may => ensures_step keeps may

/-- What holds of the state and the log at the start, and is kept when a call is answered,
holds after every schedule. -/
theorem log_induction {P : σ → List (ClientId × I.Event) → Prop} {state : σ}
    {programs : ClientId → Program I α} (begins : P state [])
    (keeps : ∀ client state log c, P state log →
      P (serve client state c).2 (log ++ [(client, ⟨c, (serve client state c).1⟩)]))
    (schedule : List ClientId) :
    P (run (step serve) (start state programs) schedule).state
      (run (step serve) (start state programs) schedule).log := by
  refine run_induction (P := fun clients : Clients I σ α => P clients.state clients.log) begins
    (fun clients client holds => ?_) schedule
  cases left : clients.rest client with
  | done result =>
      rw [step_of_done left]
      exact holds
  | call c next =>
      rw [step_of_call left]
      exact keeps client _ _ c holds

/-- **A program that is served while nobody else is** is played alone. -/
theorem play_eq_run (clients : Clients I σ α) (client : ClientId) :
    let played := (clients.rest client).play (serve client) clients.state
    run (step serve) clients (List.replicate played.events.length client) =
      { state := played.state
        rest := Function.update clients.rest client (.done played.result)
        log := clients.log ++ played.events.map (Prod.mk client) } := by
  obtain ⟨state, rest, log⟩ := clients
  generalize left : rest client = program
  induction program generalizing state rest log with
  | done result =>
      have same : Function.update rest client (.done result) = rest := by
        rw [← left, Function.update_eq_self]
      simp [left, same]
  | call c next ih =>
      have step : (⟨state, rest, log⟩ : Clients I σ α).step serve client = _ := step_of_call left
      simp only [left, Program.play_call, List.length_cons, List.replicate_succ, run_cons, step]
      have tail := ih (serve client state c).1 (serve client state c).2
        (Function.update rest client (next (serve client state c).1))
        (log ++ [(client, ⟨c, (serve client state c).1⟩)]) (Function.update_self ..)
      simp only [Function.update_self, Function.update_idem] at tail
      rw [tail]
      simp

end Clients

/-! ### Disturbed from outside -/

/-- A client is served, or something else changes the state of the server. -/
inductive Turn (σ : Type x) where
  | served (client : ClientId)
  | changed (change : σ → σ)

namespace Clients

variable {I : Interface.{u}} {α : Type w} {σ : Type x} {serve : ClientId → Server I σ}

def turn (serve : ClientId → Server I σ) (clients : Clients I σ α) : Turn σ → Clients I σ α
  | .served client => clients.step serve client
  | .changed change => { clients with state := change clients.state }

/-- What holds of the state and the log at the start, and is kept when a call is answered and
when something is changed from outside, holds after every run. -/
theorem turns_induction {P : σ → List (ClientId × I.Event) → Prop} {state : σ}
    {programs : ClientId → Program I α} (begins : P state []) {turns : List (Turn σ)}
    (keeps : ∀ client state log c, P state log →
      P (serve client state c).2 (log ++ [(client, ⟨c, (serve client state c).1⟩)]))
    (changes : ∀ change, .changed change ∈ turns →
      ∀ state log, P state log → P (change state) log) :
    P (run (turn serve) (start state programs) turns).state
      (run (turn serve) (start state programs) turns).log := by
  induction turns using List.reverseRecOn with
  | nil => exact begins
  | append_singleton turns turn ih =>
      have holds := ih fun change mem => changes change (List.mem_append_left _ mem)
      rw [run_concat]
      cases turn with
      | changed change => exact changes change (by simp) _ _ holds
      | served client =>
          show P (Clients.step serve _ client).state (Clients.step serve _ client).log
          cases left : (run (Clients.turn serve) (start state programs) turns).rest client with
          | done result =>
              rw [step_of_done left]
              exact holds
          | call c next =>
              rw [step_of_call left]
              exact keeps client _ _ c holds

/-- Every client ensures what its program ensures whatever the answers, and so whatever is
changed from outside. -/
theorem ensures_turns {κ : Type*} {visible : I.Event → Option κ}
    {Q : ClientId → List κ → α → Prop} {state : σ} {programs : ClientId → Program I α}
    (ensures : ∀ client, (programs client).Ensures (fun _ => True) visible (Q client) [])
    (turns : List (Turn σ)) (client : ClientId) :
    ((run (turn serve) (start state programs) turns).rest client).Ensures (fun _ => True) visible
      (Q client) ((run (turn serve) (start state programs) turns).own visible client) := by
  revert client
  induction turns using List.reverseRecOn with
  | nil => exact ensures
  | append_singleton turns turn keeps =>
      rw [run_concat]
      cases turn with
      | served client => exact ensures_step keeps fun _ _ => trivial
      | changed change => exact keeps

end Clients

end TrustRouter
