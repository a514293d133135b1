import Mathlib.Logic.Hydra
import TrustRouter.Prelude.Program

/-!
# Locks taken in order

Programs that take locks, some of which can be shared.  `Locking` adds to the calls of an
interface those that acquire and release a lock.  A program `Follows` an order if it takes a lock
only while every lock it holds is of lower rank, releases first what it took last, makes each call
under the locks it needs, and holds nothing when it is done.

Several such programs run side by side (`Threads`).  Who gets a lock that is free is left to a
`LockPolicy`: it never grants what is not free, and it has to grant a lock that is free and that
nobody waits to have alone.  In between it may do as it likes, so that readers may be made to wait
for a writer that waits, or not.

Under any policy some thread can go on, as long as not all are done (`exists_step`), and no run is
infinite (`wellFounded_step`).  So every run comes to its end (`exists_finished`).  On the way no
two threads hold one lock unless they share it, and every call is made under the locks it needs
(`Sound`).
-/

namespace TrustRouter

universe u w x

/-- How a lock is held. -/
inductive LockMode where
  | shared
  | exclusive
  deriving DecidableEq

/-- The calls of an interface, and those of the locks. -/
inductive LockCall (L : Type) (I : Interface.{u}) : Type u where
  | acquire (lock : L) (mode : LockMode)
  | release (lock : L)
  | perform (call : I.Call)

/-- An interface with locks. -/
def Locking (L : Type) (I : Interface.{u}) : Interface.{u} where
  Call := LockCall L I
  Answer
    | .acquire _ _ | .release _ => PUnit
    | .perform call => I.Answer call

/-- The locks a thread holds, the last it took first. -/
abbrev Held (L : Type) := List (L × LockMode)

variable {L : Type} {I : Interface.{u}} {α β : Type w} {σ : Type x}

namespace Program

/-- Make a call. -/
def performed (call : I.Call) : Program (Locking L I) (I.Answer call) :=
  Program.call (I := Locking L I) (.perform call) .done

/-- Do something under a lock. -/
def under (lock : L) (mode : LockMode) (body : Program (Locking L I) α) : Program (Locking L I) α :=
  Program.call (I := Locking L I) (.acquire lock mode) fun _ => body.bind fun result =>
    Program.call (I := Locking L I) (.release lock) fun _ => .done result

/-- A program takes locks in the order of their ranks, and makes calls under the locks they
need. -/
def Follows (rank : L → ℕ) (needs : I.Call → Held L → Prop) :
    Held L → Program (Locking L I) α → Held L → Prop
  | held, done _, after => held = after
  | held, call (.acquire lock mode) next, after =>
      (∀ entry ∈ held, rank entry.1 < rank lock) ∧
        (next ⟨⟩).Follows rank needs ((lock, mode) :: held) after
  | held, call (.release lock) next, after =>
      ∃ mode rest, held = (lock, mode) :: rest ∧ (next ⟨⟩).Follows rank needs rest after
  | held, call (.perform c) next, after =>
      needs c held ∧ ∀ answer, (next answer).Follows rank needs held after

variable {rank : L → ℕ} {needs : I.Call → Held L → Prop} {held between after : Held L}

theorem follows_bind {program : Program (Locking L I) α} {f : α → Program (Locking L I) β}
    (first : program.Follows rank needs held between)
    (rest : ∀ result, (f result).Follows rank needs between after) :
    (program.bind f).Follows rank needs held after := by
  induction program generalizing held with
  | done result =>
      obtain rfl : held = between := first
      exact rest result
  | call c next ih =>
      cases c with
      | acquire lock mode => exact ⟨first.1, ih _ first.2⟩
      | release lock =>
          obtain ⟨mode, others, eq, follows⟩ := first
          exact ⟨mode, others, eq, ih _ follows⟩
      | perform c => exact ⟨first.1, fun answer => ih answer (first.2 answer)⟩

theorem follows_performed {call : I.Call} (allowed : needs call held) :
    (performed (L := L) call).Follows rank needs held held := ⟨allowed, fun _ => rfl⟩

theorem follows_under {lock : L} {mode : LockMode} {body : Program (Locking L I) α}
    (above : ∀ entry ∈ held, rank entry.1 < rank lock)
    (follows : body.Follows rank needs ((lock, mode) :: held) ((lock, mode) :: held)) :
    (under lock mode body).Follows rank needs held held :=
  ⟨above, follows_bind follows fun _ => ⟨mode, held, rfl, rfl⟩⟩

/-- A program whose calls are programs themselves. -/
def inline {J : Interface.{u}} {γ : Type u} (body : (c : J.Call) → Program I (J.Answer c)) :
    Program J γ → Program I γ
  | done result => done result
  | call c next => (body c).bind fun answer => inline body (next answer)

theorem follows_inline {J : Interface.{u}} {γ : Type u}
    {body : (c : J.Call) → Program (Locking L I) (J.Answer c)}
    (follows : ∀ c, (body c).Follows rank needs held held) (program : Program J γ) :
    (program.inline body).Follows rank needs held held := by
  induction program with
  | done result => rfl
  | call c next ih => exact follows_bind (follows c) ih

/-! ### Alone -/

/-- A server for a thread that is alone, to which locks make no difference. -/
def unlocked (serve : Server I σ) : Server (Locking L I) σ
  | state, .acquire _ _ | state, .release _ => (⟨⟩, state)
  | state, .perform c => serve state c

/-- What a program comes to alone. -/
def alone (serve : Server I σ) (state : σ) (program : Program (Locking L I) α) : α × σ :=
  ((play (unlocked serve) state program).result, (play (unlocked serve) state program).state)

variable {serve : Server I σ} {state : σ}

@[simp] theorem alone_done (result : α) :
    alone serve state (done result : Program (Locking L I) α) = (result, state) := rfl

@[simp] theorem alone_bind (program : Program (Locking L I) α)
    (f : α → Program (Locking L I) β) :
    alone serve state (program.bind f) =
      alone serve (alone serve state program).2 (f (alone serve state program).1) := by
  simp only [alone, play_bind]

@[simp] theorem alone_performed (call : I.Call) :
    alone serve state (performed (L := L) call) = serve state call := rfl

@[simp] theorem alone_under (lock : L) (mode : LockMode) (body : Program (Locking L I) α) :
    alone serve state (under lock mode body) = alone serve state body := by
  show alone serve state (body.bind _) = _
  rw [alone_bind]
  rfl

/-- One program is what is left of the other after a call. -/
def Rest (later earlier : Program I α) : Prop :=
  ∃ c next answer, earlier = call c next ∧ later = next answer

theorem wellFounded_rest : WellFounded (Rest : Program I α → Program I α → Prop) := by
  refine ⟨fun program => ?_⟩
  induction program with
  | done result =>
      refine ⟨_, fun later rest => ?_⟩
      obtain ⟨_, _, _, eq, -⟩ := rest
      cases eq
  | call c next ih =>
      refine ⟨_, fun later rest => ?_⟩
      obtain ⟨_, _, answer, eq, rfl⟩ := rest
      cases eq
      exact ih answer

end Program

/-! ## Threads -/

/-- A thread: what it has still to do, and the locks it holds. -/
structure LockThread (L : Type) (I : Interface.{u}) (α : Type w) where
  program : Program (Locking L I) α
  held : Held L

namespace LockThread

/-- The lock that a thread cannot go on without. -/
def waitsFor (thread : LockThread L I α) : Option (L × LockMode) :=
  match thread.program with
  | .call (.acquire lock mode) _ => some (lock, mode)
  | _ => none

/-- A thread goes on, with the lock that it waits for. -/
def advance [DecidableEq L] (serve : Server I σ) (thread : LockThread L I α) (state : σ) :
    Option (LockThread L I α × σ) :=
  match thread.program with
  | .done _ => none
  | .call (.acquire lock mode) next => some (⟨next ⟨⟩, (lock, mode) :: thread.held⟩, state)
  | .call (.release lock) next =>
      some (⟨next ⟨⟩, thread.held.eraseP fun entry => entry.1 = lock⟩, state)
  | .call (.perform c) next =>
      let served := serve state c
      some (⟨next served.1, thread.held⟩, served.2)

end LockThread

/-- Two threads hold a lock together only if they share it. -/
def Compatible (first second : Held L) : Prop :=
  ∀ entry ∈ first, ∀ entry' ∈ second, entry.1 = entry'.1 →
    entry.2 = .shared ∧ entry'.2 = .shared

theorem Compatible.symm {first second : Held L} (compatible : Compatible first second) :
    Compatible second first := fun entry mem entry' mem' same =>
  (compatible entry' mem' entry mem same.symm).symm

/-- Who gets a lock.  The decision may depend on all threads and on what is remembered of the
past. -/
structure LockPolicy (μ : Type x) (L : Type) (I : Interface.{u}) (α : Type w) where
  /-- Among these threads, the one in the middle gets the lock it waits for. -/
  grants : μ → List (LockThread L I α) → LockThread L I α → List (LockThread L I α) → Prop
  remember : μ → List (LockThread L I α) → μ
  /-- A lock is granted only to those who may hold it along with the others. -/
  compatible : ∀ {memory before thread after entry}, grants memory before thread after →
    thread.waitsFor = some entry → ∀ other ∈ before ++ after, Compatible [entry] other.held
  /-- A lock that nobody holds is granted to someone who waits for it, if there is anyone. -/
  exists_grants : ∀ memory threads lock,
    (∀ thread ∈ threads, ∀ entry ∈ thread.held, entry.1 ≠ lock) →
    (∃ thread ∈ threads, ∃ mode, thread.waitsFor = some (lock, mode)) →
      ∃ before thread after mode, threads = before ++ thread :: after ∧
        thread.waitsFor = some (lock, mode) ∧ grants memory before thread after

/-- A lock is granted whenever it can be. -/
def LockPolicy.eager : LockPolicy PUnit L I α where
  grants _ before thread after := ∀ entry, thread.waitsFor = some entry →
    ∀ other ∈ before ++ after, Compatible [entry] other.held
  remember _ _ := ⟨⟩
  compatible granted waits := granted _ waits
  exists_grants _ threads lock unheld waiting := by
    obtain ⟨thread, mem, mode, waits⟩ := waiting
    obtain ⟨before, after, rfl⟩ := List.append_of_mem mem
    refine ⟨before, thread, after, mode, rfl, waits, fun entry waits' other mem => ?_⟩
    obtain rfl := Option.some.inj (waits.symm.trans waits')
    have free := unheld other (by
      rcases List.mem_append.mp mem with mem | mem
      · exact List.mem_append_left _ mem
      · exact List.mem_append_right _ (List.mem_cons_of_mem _ mem))
    intro entry' mem' entry'' held same
    rw [List.mem_singleton.mp mem'] at same
    exact absurd same.symm (free entry'' held)

/-- Threads that share a state. -/
structure Threads (μ : Type x) (σ : Type x) (L : Type) (I : Interface.{u}) (α : Type w) where
  memory : μ
  state : σ
  threads : List (LockThread L I α)

namespace Threads

variable {μ : Type x} [DecidableEq L] (policy : LockPolicy μ L I α) (serve : Server I σ)

/-- One thread goes on. -/
inductive Step : Threads μ σ L I α → Threads μ σ L I α → Prop
  | advance {memory : μ} {state state' : σ} {before after : List (LockThread L I α)}
      {thread thread' : LockThread L I α}
      (granted : thread.waitsFor ≠ none → policy.grants memory before thread after)
      (advances : thread.advance serve state = some (thread', state')) :
      Step ⟨memory, state, before ++ thread :: after⟩
        ⟨policy.remember memory (before ++ thread' :: after), state', before ++ thread' :: after⟩

/-- All threads are done. -/
def Finished (threads : Threads μ σ L I α) : Prop :=
  ∀ thread ∈ threads.threads, thread.program.isDone = true

/-- The threads follow the order, and hold locks together only if they share them. -/
structure Sound (rank : L → ℕ) (needs : I.Call → Held L → Prop) (threads : Threads μ σ L I α) :
    Prop where
  follows : ∀ thread ∈ threads.threads, thread.program.Follows rank needs thread.held []
  compatible : threads.threads.Pairwise fun first second => Compatible first.held second.held

variable {policy serve} {rank : L → ℕ} {needs : I.Call → Held L → Prop}
variable {threads later : Threads μ σ L I α}

theorem rest_of_advance {thread thread' : LockThread L I α} {state state' : σ}
    (advances : thread.advance serve state = some (thread', state')) :
    Program.Rest thread'.program thread.program := by
  obtain ⟨program, held⟩ := thread
  cases program with
  | done result => cases advances
  | call c next =>
      cases c <;> (obtain ⟨rfl, -⟩ := Prod.mk.inj (Option.some.inj advances)) <;>
        exact ⟨_, _, _, rfl, rfl⟩

/-- What a thread does when it goes on. -/
theorem follows_advance {thread thread' : LockThread L I α} {state state' : σ}
    (follows : thread.program.Follows rank needs thread.held [])
    (advances : thread.advance serve state = some (thread', state')) :
    thread'.program.Follows rank needs thread'.held [] ∧
      ((∃ entry, thread.waitsFor = some entry ∧ thread'.held = entry :: thread.held) ∨
        thread'.held ⊆ thread.held) := by
  obtain ⟨program, held⟩ := thread
  cases program with
  | done result => cases advances
  | call c next =>
      cases c with
      | acquire lock mode =>
          obtain ⟨rfl, -⟩ := Prod.mk.inj (Option.some.inj advances)
          exact ⟨follows.2, Or.inl ⟨_, rfl, rfl⟩⟩
      | release lock =>
          obtain ⟨mode, rest, eq, rest'⟩ := follows
          obtain rfl : held = (lock, mode) :: rest := eq
          obtain ⟨rfl, -⟩ := Prod.mk.inj (Option.some.inj advances)
          exact ⟨by simpa using rest', Or.inr List.eraseP_subset⟩
      | perform c =>
          obtain ⟨rfl, -⟩ := Prod.mk.inj (Option.some.inj advances)
          exact ⟨follows.2 _, Or.inr (List.Subset.refl _)⟩

omit [DecidableEq L] in
theorem pairwise_middle {before after : List (LockThread L I α)} {thread : LockThread L I α} :
    (before ++ thread :: after).Pairwise (fun first second => Compatible first.held second.held) ↔
      (∀ other ∈ before ++ after, Compatible thread.held other.held) ∧
        (before ++ after).Pairwise (fun first second => Compatible first.held second.held) := by
  rw [List.perm_middle.pairwise_iff fun compatible => compatible.symm, List.pairwise_cons]

/-- **One step.** -/
theorem Sound.step (sound : threads.Sound rank needs) (step : Step policy serve threads later) :
    later.Sound rank needs := by
  obtain @⟨memory, state, state', before, after, thread, thread', granted, advances⟩ := step
  obtain ⟨follows, compatible⟩ := sound
  obtain ⟨here, others⟩ := pairwise_middle.mp compatible
  obtain ⟨follows', change⟩ := follows_advance (follows thread (by simp)) advances
  constructor
  · intro other mem
    rcases List.mem_append.mp mem with mem | mem
    · exact follows other (List.mem_append_left _ mem)
    · rcases List.mem_cons.mp mem with rfl | mem
      · exact follows'
      · exact follows other (List.mem_append_right _ (List.mem_cons_of_mem _ mem))
  · refine pairwise_middle.mpr ⟨fun other mem => ?_, others⟩
    rcases change with ⟨entry, waits, eq⟩ | fewer
    · have free := policy.compatible (granted (by simp [waits])) waits other mem
      rw [eq]
      intro entry' mem' entry'' mem''
      rcases List.mem_cons.mp mem' with rfl | mem'
      · exact free _ (.head _) entry'' mem''
      · exact here other mem entry' mem' entry'' mem''
    · exact fun entry mem' => here other mem entry (fewer mem')

omit [DecidableEq L] in
/-- A thread that holds a lock while it waits for another holds one of lower rank. -/
theorem rank_lt_of_waitsFor {thread : LockThread L I α} {after : Held L}
    (follows : thread.program.Follows rank needs thread.held after) {entry : L × LockMode}
    (waits : thread.waitsFor = some entry) :
    ∀ entry' ∈ thread.held, rank entry'.1 < rank entry.1 := by
  obtain ⟨program, held⟩ := thread
  cases program with
  | done result => cases waits
  | call c next =>
      cases c with
      | acquire lock mode =>
          obtain rfl := Option.some.inj waits
          exact follows.1
      | release lock => cases waits
      | perform c => cases waits

variable (serve) in
theorem advance_ne_none {thread : LockThread L I α} (state : σ)
    (unfinished : thread.program.isDone = false) : thread.advance serve state ≠ none := by
  obtain ⟨program, held⟩ := thread
  cases program with
  | done result => cases unfinished
  | call c next => cases c <;> exact Option.some_ne_none _

omit [DecidableEq L] in
theorem isDone_eq_false_of_waitsFor {thread : LockThread L I α} {entry : L × LockMode}
    (waits : thread.waitsFor = some entry) : thread.program.isDone = false := by
  obtain ⟨program, held⟩ := thread
  cases program with
  | done result => cases waits
  | call c next => rfl

theorem exists_step_of_granted {memory : μ} {state : σ} {before after : List (LockThread L I α)}
    {thread : LockThread L I α} (unfinished : thread.program.isDone = false)
    (granted : thread.waitsFor ≠ none → policy.grants memory before thread after) :
    ∃ later, Step policy serve ⟨memory, state, before ++ thread :: after⟩ later := by
  obtain ⟨⟨thread', state'⟩, advances⟩ := Option.ne_none_iff_exists'.mp
    (advance_ne_none serve state unfinished)
  exact ⟨_, .advance granted advances⟩

omit [DecidableEq L] in
variable (rank) in
/-- Of some threads, one waits for a lock of the highest rank. -/
theorem exists_highest {all : List (LockThread L I α)} {thread : LockThread L I α}
    (mem : thread ∈ all) {entry : L × LockMode} (waits : thread.waitsFor = some entry) :
    ∃ thread' ∈ all, ∃ entry', thread'.waitsFor = some entry' ∧
      ∀ other ∈ all, ∀ entry'' ∈ other.waitsFor, rank entry''.1 ≤ rank entry'.1 := by
  have some_ : all.filterMap LockThread.waitsFor ≠ [] :=
    List.ne_nil_of_mem (List.mem_filterMap.mpr ⟨thread, mem, waits⟩)
  cases highest : (all.filterMap LockThread.waitsFor).argmax fun entry => rank entry.1 with
  | none => exact absurd (List.argmax_eq_none.mp highest) some_
  | some entry' =>
      obtain ⟨thread', mem', waits'⟩ := List.mem_filterMap.mp (List.argmax_mem highest)
      refine ⟨thread', mem', entry', waits', fun other mem'' entry'' waits'' => ?_⟩
      have waiting : entry'' ∈ all.filterMap LockThread.waitsFor :=
        List.mem_filterMap.mpr ⟨other, mem'', waits''⟩
      exact List.le_of_mem_argmax (f := fun entry => rank entry.1) waiting highest

variable (policy serve) in
/-- **No deadlock**: as long as not all are done, some thread can go on. -/
theorem exists_step (sound : threads.Sound rank needs) (unfinished : ¬ threads.Finished) :
    ∃ later, Step policy serve threads later := by
  obtain ⟨memory, state, all⟩ := threads
  obtain ⟨follows, -⟩ := sound
  simp only [Finished, not_forall, Bool.not_eq_true] at unfinished
  obtain ⟨thread, mem, unfinished⟩ := unfinished
  by_cases free : ∃ thread ∈ all, thread.program.isDone = false ∧ thread.waitsFor = none
  · -- a thread that waits for nothing
    obtain ⟨thread, mem, unfinished, waits⟩ := free
    obtain ⟨before, after, rfl⟩ := List.append_of_mem mem
    exact exists_step_of_granted unfinished fun waits' => absurd waits waits'
  · have all_wait : ∀ thread ∈ all, thread.program.isDone = false → thread.waitsFor ≠ none :=
      fun thread mem unfinished none => free ⟨thread, mem, unfinished, none⟩
    obtain ⟨entry, waits⟩ := Option.ne_none_iff_exists'.mp (all_wait thread mem unfinished)
    obtain ⟨highest, mem', ⟨lock, mode⟩, waits', least⟩ := exists_highest rank mem waits
    have unheld : ∀ other ∈ all, ∀ entry ∈ other.held, entry.1 ≠ lock := by
      rintro other mem'' entry'' held rfl
      -- the holder waits for a lock of still higher rank
      have unfinished' : other.program.isDone = false := by
        by_contra done
        obtain ⟨result, eq⟩ := Program.isDone_iff.mp (by simpa using done)
        have last := follows other mem''
        rw [eq] at last
        rw [show other.held = [] from last] at held
        cases held
      obtain ⟨next, waits''⟩ := Option.ne_none_iff_exists'.mp (all_wait other mem'' unfinished')
      have lower := rank_lt_of_waitsFor (follows other mem'') waits'' _ held
      exact absurd (least other mem'' next waits'') (not_le.mpr lower)
    obtain ⟨before, thread, after, mode, rfl, waits, granted⟩ :=
      policy.exists_grants memory all lock unheld ⟨highest, mem', mode, waits'⟩
    exact exists_step_of_granted (isDone_eq_false_of_waitsFor waits) fun _ => granted

/-- **No run is infinite.** -/
theorem wellFounded_step (policy : LockPolicy μ L I α) (serve : Server I σ) :
    WellFounded fun later earlier : Threads μ σ L I α => Step policy serve earlier later := by
  have shrinks := InvImage.wf (fun threads : Threads μ σ L I α =>
    (threads.threads.map LockThread.program : Multiset (Program (Locking L I) α)))
      Program.wellFounded_rest.cutExpand
  refine Subrelation.wf ?_ shrinks
  rintro later earlier @⟨memory, state, state', before, after, thread, thread', -, advances⟩
  refine ⟨{thread'.program}, thread.program, ?_, ?_⟩
  · rintro program mem
    rw [Multiset.mem_singleton.mp mem]
    exact rest_of_advance advances
  · simp only [List.map_append, List.map_cons, ← Multiset.coe_singleton, Multiset.coe_add]
    refine Multiset.coe_eq_coe.mpr ?_
    rw [List.append_assoc, List.append_assoc]
    refine List.Perm.append_left _ ?_
    exact (List.Perm.cons _ (List.perm_append_singleton _ _)).trans
      ((List.Perm.swap _ _ _).trans (List.Perm.cons _ (List.perm_append_singleton _ _).symm))

/-- **Every run comes to its end**: from where it has got to, the threads can be run until all are
done. -/
theorem exists_finished (policy : LockPolicy μ L I α) (serve : Server I σ)
    (sound : threads.Sound rank needs) :
    ∃ later, Relation.ReflTransGen (Step policy serve) threads later ∧ later.Finished := by
  induction threads using (wellFounded_step policy serve).induction with
  | _ threads ih =>
      by_cases finished : threads.Finished
      · exact ⟨threads, .refl, finished⟩
      · obtain ⟨next, step⟩ := exists_step policy serve sound finished
        obtain ⟨later, run, finished⟩ := ih next step (sound.step step)
        exact ⟨later, .head step run, finished⟩

/-- Soundness along a run. -/
theorem Sound.run (sound : threads.Sound rank needs)
    (run : Relation.ReflTransGen (Step policy serve) threads later) : later.Sound rank needs := by
  induction run with
  | refl => exact sound
  | tail _ step ih => exact ih.step step

/-- Programs that have not started. -/
def start (memory : μ) (state : σ) (programs : List (Program (Locking L I) α)) :
    Threads μ σ L I α where
  memory := memory
  state := state
  threads := programs.map fun program => ⟨program, []⟩

omit [DecidableEq L] in
theorem sound_start (memory : μ) (state : σ) {programs : List (Program (Locking L I) α)}
    (follows : ∀ program ∈ programs, program.Follows rank needs [] []) :
    (start memory state programs).Sound rank needs where
  follows := by
    intro thread mem
    obtain ⟨program, listed, rfl⟩ := List.mem_map.mp mem
    exact follows program listed
  compatible := by
    refine List.pairwise_map.mpr (List.pairwise_of_forall fun _ _ => ?_)
    exact fun entry mem => absurd mem List.not_mem_nil

end Threads

end TrustRouter
