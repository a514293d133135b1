import Mathlib.Data.List.Nodup
import TrustRouter.Prelude.Collections

/-!
# Calls made of atomic sections

An object that is shared by concurrent calls, where each call runs as a sequence of
atomic sections (`Sections`): a section reads and changes the shared state, and either
leaves the call with something to go on from or answers it.  Sections of different calls
interleave in any order (`Steps`).  Calls have identities; a thread is a sequence of
calls each of which is invoked after the one before it has returned, and nothing else is
needed of threads.  What an event does is computed by `Shared.next`, so a given run is one
evaluation (`steps_of_foldlM`).

If only the last section of a call has an effect, and this effect is one the call could
have had as a whole (`Sections.Refines`), then the calls take effect one after the other,
in the order of their last sections.  `Steps.exists_order` says this of every run: the
calls that have been answered can be executed atomically in some order, with the same
answers and the same final state, and a call that had returned before another was invoked
comes before it.
-/

namespace TrustRouter

universe u v w x

/-- A call's program: `enter` is where it starts, and a section turns the shared state and
the place the call has got to into a new shared state and a new place or an answer. -/
structure Sections (σ : Type u) (ι : Type v) (ℓ : Type w) (α : Type x) where
  enter : ι → ℓ
  section_ : σ → ℓ → σ × (ℓ ⊕ α)

/-- The identity of a call. -/
abbrev CallId := ℕ

/-- How far a call has got. -/
inductive CallStatus (ι : Type v) (ℓ : Type w) (α : Type x) where
  | running (input : ι) (place : ℓ)
  | answered (input : ι) (answer : α)
  | returned (input : ι) (answer : α)

/-- The shared state and the calls made so far. -/
structure Shared (σ : Type u) (ι : Type v) (ℓ : Type w) (α : Type x) where
  state : σ
  calls : CallId → Option (CallStatus ι ℓ α)

/-- One step of a run. -/
inductive CallEvent (ι : Type v) where
  | invoke (call : CallId) (input : ι)
  | section_ (call : CallId)
  | return_ (call : CallId)

variable {σ : Type u} {ι : Type v} {ℓ : Type w} {α : Type x} (program : Sections σ ι ℓ α)

/-- No call has been made. -/
def Shared.init (state : σ) : Shared σ ι ℓ α := ⟨state, fun _ => none⟩

/-- A call gets to a new status. -/
def Shared.update (shared : Shared σ ι ℓ α) (state : σ) (call : CallId)
    (status : CallStatus ι ℓ α) : Shared σ ι ℓ α :=
  ⟨state, Function.update shared.calls call (some status)⟩

/-- `Steps program shared events shared'`: the events lead from one configuration to the
other. -/
inductive Steps (shared : Shared σ ι ℓ α) : List (CallEvent ι) → Shared σ ι ℓ α → Prop
  | nil : Steps shared [] shared
  | invoke {events : List (CallEvent ι)} {shared' : Shared σ ι ℓ α} {call : CallId} {input : ι} :
      Steps shared events shared' → shared'.calls call = none →
      Steps shared (events ++ [.invoke call input])
        (shared'.update shared'.state call (.running input (program.enter input)))
  | goOn {events : List (CallEvent ι)} {shared' : Shared σ ι ℓ α} {call : CallId} {input : ι}
      {place place' : ℓ} {state : σ} :
      Steps shared events shared' → shared'.calls call = some (.running input place) →
      program.section_ shared'.state place = (state, .inl place') →
      Steps shared (events ++ [.section_ call])
        (shared'.update state call (.running input place'))
  | answer {events : List (CallEvent ι)} {shared' : Shared σ ι ℓ α} {call : CallId} {input : ι}
      {place : ℓ} {answer : α} {state : σ} :
      Steps shared events shared' → shared'.calls call = some (.running input place) →
      program.section_ shared'.state place = (state, .inr answer) →
      Steps shared (events ++ [.section_ call])
        (shared'.update state call (.answered input answer))
  | return_ {events : List (CallEvent ι)} {shared' : Shared σ ι ℓ α} {call : CallId} {input : ι}
      {answer : α} :
      Steps shared events shared' → shared'.calls call = some (.answered input answer) →
      Steps shared (events ++ [.return_ call])
        (shared'.update shared'.state call (.returned input answer))

/-- What an event makes of a configuration in which it can happen. -/
def Shared.next (shared : Shared σ ι ℓ α) : CallEvent ι → Option (Shared σ ι ℓ α)
  | .invoke call input =>
      match shared.calls call with
      | none => some (shared.update shared.state call (.running input (program.enter input)))
      | some _ => none
  | .section_ call =>
      match shared.calls call with
      | some (.running input place) =>
          match program.section_ shared.state place with
          | (state, .inl place') => some (shared.update state call (.running input place'))
          | (state, .inr answer) => some (shared.update state call (.answered input answer))
      | _ => none
  | .return_ call =>
      match shared.calls call with
      | some (.answered input answer) =>
          some (shared.update shared.state call (.returned input answer))
      | _ => none

variable {program} in
theorem Steps.next {shared shared' later : Shared σ ι ℓ α} {events : List (CallEvent ι)}
    (steps : Steps program shared events shared') {event : CallEvent ι}
    (happens : shared'.next program event = some later) :
    Steps program shared (events ++ [event]) later := by
  cases event with
  | invoke call input =>
      dsimp only [Shared.next] at happens
      split at happens
      · next new =>
          obtain rfl := Option.some.inj happens
          exact .invoke steps new
      · cases happens
  | section_ call =>
      dsimp only [Shared.next] at happens
      split at happens
      · next input place running =>
          split at happens
          · next state place' stays =>
              obtain rfl := Option.some.inj happens
              exact .goOn steps running stays
          · next state answer ends =>
              obtain rfl := Option.some.inj happens
              exact .answer steps running ends
      · cases happens
  | return_ call =>
      dsimp only [Shared.next] at happens
      split at happens
      · next input answer answered =>
          obtain rfl := Option.some.inj happens
          exact .return_ steps answered
      · cases happens

/-- Events that happen one after the other are a run. -/
theorem steps_of_foldlM {shared shared' : Shared σ ι ℓ α} {events : List (CallEvent ι)}
    (ran : events.foldlM (Shared.next program) shared = some shared') :
    Steps program shared events shared' := by
  induction events using List.reverseRecOn generalizing shared' with
  | nil =>
      obtain rfl := Option.some.inj ran
      exact .nil
  | append_singleton events event ih =>
      rw [List.foldlM_append] at ran
      obtain ⟨before, front, last⟩ := Option.bind_eq_some_iff.mp ran
      obtain ⟨later, happens, rest⟩ := Option.bind_eq_some_iff.mp last
      obtain rfl := Option.some.inj rest
      exact (ih front).next happens

/-- Calls executed atomically, one after the other. -/
inductive AtomicRun (atomic : σ → ι → σ → α → Prop) (init : σ) : List (ι × α) → σ → Prop
  | nil : AtomicRun atomic init [] init
  | snoc {calls : List (ι × α)} {state state' : σ} {input : ι} {answer : α} :
      AtomicRun atomic init calls state → atomic state input state' answer →
      AtomicRun atomic init (calls ++ [(input, answer)]) state'

/-- The call had returned before the other was invoked. -/
def ReturnedBefore (events : List (CallEvent ι)) (call call' : CallId) : Prop :=
  ∃ before input later, events = before ++ .invoke call' input :: later ∧
    .return_ call ∈ before

/-- In a list of calls, one comes before the other. -/
def ListedBefore (calls : List CallId) (call call' : CallId) : Prop :=
  ∀ before later, calls = before ++ call' :: later → call ∈ before

/-- Every section but the last leaves the shared state alone, and the last has the effect
of the whole call.  `Serves input place` says that a call for `input` can have got to
`place`. -/
structure Sections.Refines (atomic : σ → ι → σ → α → Prop) (Serves : ι → ℓ → Prop) : Prop where
  enter : ∀ input, Serves input (program.enter input)
  goOn : ∀ {input place state state' place'}, Serves input place →
    program.section_ state place = (state', .inl place') → state' = state ∧ Serves input place'
  answer : ∀ {input place state state' answer}, Serves input place →
    program.section_ state place = (state', .inr answer) → atomic state input state' answer

variable {program} {atomic : σ → ι → σ → α → Prop} {Serves : ι → ℓ → Prop}
variable {init : σ} {events : List (CallEvent ι)} {shared : Shared σ ι ℓ α}

/-- What holds after a run with the calls that have been answered, in the order of their
last sections. -/
structure Linearized (atomic : σ → ι → σ → α → Prop) (Serves : ι → ℓ → Prop) (init : σ)
    (events : List (CallEvent ι)) (shared : Shared σ ι ℓ α)
    (order : List (CallId × ι × α)) : Prop where
  /-- Executed in this order, the calls give their answers and the shared state. -/
  atomicRun : AtomicRun atomic init (order.map Prod.snd) shared.state
  nodup : (order.map Prod.fst).Nodup
  /-- The order is one of the calls that have been answered. -/
  mem_iff : ∀ call input answer, (call, input, answer) ∈ order ↔
    shared.calls call = some (.answered input answer) ∨
      shared.calls call = some (.returned input answer)
  /-- It respects the order of calls that do not overlap. -/
  realTime : ∀ call call', ReturnedBefore events call call' →
    ListedBefore (order.map Prod.fst) call call'
  serves : ∀ call input place, shared.calls call = some (.running input place) →
    Serves input place
  returned : ∀ call, .return_ call ∈ events → ∃ input answer,
    shared.calls call = some (.returned input answer)

namespace Linearized

variable {order : List (CallId × ι × α)}

/-- A listed call is neither new nor running. -/
theorem calls_of_mem (L : Linearized atomic Serves init events shared order) {call : CallId}
    (mem : call ∈ order.map Prod.fst) : ∃ input answer,
      shared.calls call = some (.answered input answer) ∨
        shared.calls call = some (.returned input answer) := by
  obtain ⟨⟨_, input, answer⟩, entry, rfl⟩ := List.mem_map.mp mem
  exact ⟨input, answer, (L.mem_iff _ _ _).mp entry⟩

theorem mem_of_returned (L : Linearized atomic Serves init events shared order) {call : CallId}
    (returned : .return_ call ∈ events) : call ∈ order.map Prod.fst := by
  obtain ⟨input, answer, status⟩ := L.returned call returned
  exact List.mem_map.mpr ⟨(call, input, answer), (L.mem_iff _ _ _).mpr (Or.inr status), rfl⟩

end Linearized

/-- Returning before an event other than an invocation is returning before. -/
theorem returnedBefore_concat {event : CallEvent ι} {call call' : CallId}
    (before : ReturnedBefore (events ++ [event]) call call') :
    ReturnedBefore events call call' ∨
      ∃ input, event = .invoke call' input ∧ .return_ call ∈ events := by
  obtain ⟨first, input, later, split, mem⟩ := before
  rcases List.eq_nil_or_concat later with rfl | ⟨later, last, rfl⟩
  · obtain ⟨rfl, last⟩ := List.append_inj' split rfl
    exact Or.inr ⟨input, (List.cons.inj last).1, mem⟩
  · rw [List.concat_eq_append, ← List.cons_append, ← List.append_assoc] at split
    exact Or.inl ⟨first, input, later, List.append_inj_left' split rfl, mem⟩

namespace Linearized

variable {order : List (CallId × ι × α)}

theorem init_ (state : σ) :
    Linearized atomic Serves state [] (Shared.init state : Shared σ ι ℓ α) [] where
  atomicRun := .nil
  nodup := List.nodup_nil
  mem_iff := by simp [Shared.init]
  realTime := by
    rintro call call' ⟨before, input, later, split, -⟩
    simp at split
  serves := by simp [Shared.init]
  returned := by simp

/-- A call that has not been answered starts, or goes on. -/
theorem run (L : Linearized atomic Serves init events shared order) {call : CallId} {input : ι}
    {place : ℓ} {event : CallEvent ι} (unanswered : call ∉ order.map Prod.fst)
    (serves : Serves input place)
    (event_ : event = .invoke call input ∨ event = .section_ call) :
    Linearized atomic Serves init (events ++ [event])
      (shared.update shared.state call (.running input place)) order where
  atomicRun := L.atomicRun
  nodup := L.nodup
  mem_iff := by
    intro call' input' answer
    by_cases same : call' = call
    · subst same
      have absent : (call', input', answer) ∉ order := fun mem =>
        unanswered (List.mem_map_of_mem mem)
      simp [Shared.update, absent]
    · simp [Shared.update, same, L.mem_iff]
  realTime := by
    intro call' call'' before
    rcases returnedBefore_concat before with earlier | ⟨input', isInvoke, -⟩
    · exact L.realTime call' call'' earlier
    · -- the call just invoked is not listed
      have same : call'' = call := by
        rcases event_ with rfl | rfl
        · exact (CallEvent.invoke.inj isInvoke).1.symm
        · cases isInvoke
      intro first later split
      exact absurd (by simp [split, same]) unanswered
  serves := by
    intro call' input' place' status
    rcases update_eq_some_iff.mp status with ⟨rfl, same⟩ | ⟨-, before⟩
    · obtain ⟨rfl, rfl⟩ := CallStatus.running.inj same
      exact serves
    · exact L.serves call' input' place' before
  returned := by
    intro call' mem
    have earlier : .return_ call' ∈ events := by
      rcases List.mem_append.mp mem with mem | last
      · exact mem
      · rcases event_ with rfl | rfl <;> simp at last
    -- a call that has returned has been answered
    have ne : call' ≠ call := fun same => unanswered (same ▸ L.mem_of_returned earlier)
    simpa [Shared.update, ne] using L.returned call' earlier

/-- A call is answered, and takes effect. -/
theorem answer (L : Linearized atomic Serves init events shared order) {call : CallId}
    {input : ι} {place : ℓ} {answer : α} {state : σ}
    (running : shared.calls call = some (.running input place))
    (effect : atomic shared.state input state answer) :
    Linearized atomic Serves init (events ++ [.section_ call])
      (shared.update state call (.answered input answer)) (order ++ [(call, input, answer)]) := by
  have unanswered : call ∉ order.map Prod.fst := by
    intro mem
    obtain ⟨_, _, status⟩ := L.calls_of_mem mem
    simp [running] at status
  refine
    { atomicRun := ?_
      nodup := ?_
      mem_iff := ?_
      realTime := ?_
      serves := ?_
      returned := ?_ }
  · rw [List.map_append]
    exact .snoc L.atomicRun effect
  · rw [List.map_append]
    exact L.nodup.append (List.nodup_singleton _) (by simpa using unanswered)
  · intro call' input' answer'
    by_cases same : call' = call
    · subst same
      have absent : (call', input', answer') ∉ order := fun mem =>
        unanswered (List.mem_map_of_mem mem)
      simp [Shared.update, absent, eq_comm]
    · simp [Shared.update, same, L.mem_iff]
  · intro call' call'' before
    rcases returnedBefore_concat before with earlier | ⟨_, isInvoke, -⟩
    · intro first later split
      rw [List.map_append] at split
      rcases List.eq_nil_or_concat later with rfl | ⟨later, last, rfl⟩
      · -- the call answered last comes after every call that has returned
        obtain ⟨rfl, -⟩ := List.append_inj' split rfl
        obtain ⟨before, input, later, rfl, mem⟩ := earlier
        exact L.mem_of_returned (List.mem_append_left _ mem)
      · rw [List.concat_eq_append, ← List.cons_append, ← List.append_assoc] at split
        exact L.realTime call' call'' earlier first later (List.append_inj_left' split rfl)
    · cases isInvoke
  · intro call' input' place' status
    rcases update_eq_some_iff.mp status with ⟨-, same⟩ | ⟨-, before⟩
    · cases same
    · exact L.serves call' input' place' before
  · intro call' mem
    have earlier : .return_ call' ∈ events := by simpa using mem
    have ne : call' ≠ call := fun same => unanswered (same ▸ L.mem_of_returned earlier)
    simpa [Shared.update, ne] using L.returned call' earlier

/-- An answered call returns. -/
theorem return_ (L : Linearized atomic Serves init events shared order) {call : CallId}
    {input : ι} {answer : α} (answered : shared.calls call = some (.answered input answer)) :
    Linearized atomic Serves init (events ++ [.return_ call])
      (shared.update shared.state call (.returned input answer)) order where
  atomicRun := L.atomicRun
  nodup := L.nodup
  mem_iff := by
    intro call' input' answer'
    by_cases same : call' = call
    · subst same
      simp [Shared.update, L.mem_iff, answered]
    · simp [Shared.update, same, L.mem_iff]
  realTime := by
    intro call' call'' before
    rcases returnedBefore_concat before with earlier | ⟨_, isInvoke, -⟩
    · exact L.realTime call' call'' earlier
    · cases isInvoke
  serves := by
    intro call' input' place' status
    rcases update_eq_some_iff.mp status with ⟨-, same⟩ | ⟨-, before⟩
    · cases same
    · exact L.serves call' input' place' before
  returned := by
    intro call' mem
    by_cases same : call' = call
    · subst same
      exact ⟨input, answer, by simp [Shared.update]⟩
    · have earlier : .return_ call' ∈ events := by simpa [same] using mem
      simpa [Shared.update, same] using L.returned call' earlier

end Linearized

/-- **Linearizability.**  After every run of a program that refines an atomic one, the
calls that have been answered can be put in an order in which, executed atomically, they
give the same answers and the same shared state, and which respects the order of calls
that do not overlap. -/
theorem Steps.exists_order (refines : program.Refines atomic Serves) {state : σ}
    (steps : Steps program (Shared.init state) events shared) :
    ∃ order, Linearized atomic Serves state events shared order := by
  induction steps with
  | nil => exact ⟨[], .init_ state⟩
  | invoke _ new ih =>
      obtain ⟨order, L⟩ := ih
      refine ⟨order, L.run (fun mem => ?_) (refines.enter _) (Or.inl rfl)⟩
      obtain ⟨_, _, status⟩ := L.calls_of_mem mem
      simp [new] at status
  | goOn _ running step ih =>
      obtain ⟨order, L⟩ := ih
      obtain ⟨rfl, serves⟩ := refines.goOn (L.serves _ _ _ running) step
      refine ⟨order, L.run (fun mem => ?_) serves (Or.inr rfl)⟩
      obtain ⟨_, _, status⟩ := L.calls_of_mem mem
      simp [running] at status
  | answer _ running step ih =>
      obtain ⟨order, L⟩ := ih
      exact ⟨_, L.answer running (refines.answer (L.serves _ _ _ running) step)⟩
  | return_ _ answered ih =>
      obtain ⟨order, L⟩ := ih
      exact ⟨order, L.return_ answered⟩

end TrustRouter
