import TrustRouter.Audit
import TrustRouter.Prelude.Run

/-!
# Periodic flushing

`Router::append_audit_jsonl` appends the whole ring buffer to a file, and
`spawn_audit_flush_loop` calls it again and again.  Nothing records what an earlier
flush has already written, and nothing is taken out of the buffer.

A run is any sequence of pushes and flushes on one path.  `Journal` carries, next to
the buffer and the file, two history variables: the events pushed so far, and the
events pushed before the latest flush.  They are read by statements only.
-/

namespace TrustRouter

/-- One step of a program that pushes audit events and flushes them. -/
inductive FlushStep where
  | push (event : AuditEvent)
  /-- A call of `append_audit_jsonl` in which every write succeeds. -/
  | flush

/-- The buffer and the file, with the history of both. -/
structure Journal where
  pipeline : AuditPipeline
  file : List String
  /-- Every event pushed so far. -/
  pushed : List AuditEvent
  /-- The events pushed before the latest flush. -/
  flushed : List AuditEvent

namespace Journal

/-- A new router and no file. -/
def init : Journal where
  pipeline := .new auditEventMemoryLimit
  file := []
  pushed := []
  flushed := []

variable (render : Json → String)

/-- `append_audit_jsonl`, and a push. -/
def step (journal : Journal) : FlushStep → Journal
  | .push event =>
      { journal with
        pipeline := journal.pipeline.push event
        pushed := journal.pushed ++ [event] }
  | .flush =>
      { journal with
        file := (appendEventsJsonl render none journal.file journal.pipeline.events).1
        flushed := journal.pushed }

/-- A flush leaves every event pushed so far in the file, once and in push order. -/
def WritesOnce (journal : Journal) (input : FlushStep) : Prop :=
  input = .flush →
    (journal.step render input).file =
      journal.pushed.map (AuditEvent.toJsonLine render)

/-- At most `AUDIT_EVENT_MEMORY_LIMIT` events are pushed between two flushes. -/
def Spaced (journal : Journal) (input : FlushStep) : Prop :=
  input = .flush → journal.pushed.length ≤ journal.flushed.length + auditEventMemoryLimit

/-- A flush has everything to write, or exactly one buffer: either nothing was pushed
before the previous flush and what was pushed since fits, or exactly
`AUDIT_EVENT_MEMORY_LIMIT` events have been pushed since. -/
def FlushesExactly (journal : Journal) (input : FlushStep) : Prop :=
  input = .flush →
    (journal.flushed = [] ∧ journal.pushed.length ≤ auditEventMemoryLimit) ∨
      journal.pushed.length = journal.flushed.length + auditEventMemoryLimit

/-- What holds as long as every flush has written each event once. -/
structure Current (journal : Journal) : Prop where
  holds : journal.pipeline.Holds journal.pushed
  file : journal.file = journal.flushed.map (AuditEvent.toJsonLine render)
  flushed : journal.flushed <+: journal.pushed

variable {render}

theorem current_init : Current render init where
  holds := AuditPipeline.holds_new
  file := rfl
  flushed := List.prefix_rfl

/-- Where the file is current, a flush keeps it current exactly when it has
everything or one full buffer to write. -/
theorem Current.writesOnce_iff {journal : Journal} (current : Current render journal)
    (input : FlushStep) :
    journal.WritesOnce render input ↔ journal.FlushesExactly input := by
  obtain ⟨rest, split⟩ := current.flushed
  have total : journal.pushed.length = journal.flushed.length + rest.length := by
    rw [← split, List.length_append]
  refine forall_congr' fun isFlush => ?_
  subst isFlush
  simp only [step, appendEventsJsonl, current.file, current.holds.events]
  constructor
  · -- the lengths already decide
    intro equal
    have lengths := congrArg List.length equal
    simp only [List.length_append, List.length_map, Ring.length_latest] at lengths
    rcases Nat.le_total journal.pushed.length auditEventMemoryLimit with fits | full
    · rw [min_eq_left fits] at lengths
      exact Or.inl ⟨List.length_eq_zero_iff.mp (by omega), fits⟩
    · rw [min_eq_right full] at lengths
      exact Or.inr lengths.symm
  · rw [← List.map_append]
    rintro (⟨first, fits⟩ | exactly)
    · rw [first, List.nil_append, Ring.latest, Nat.sub_eq_zero_of_le fits, List.drop_zero]
    · have start : journal.pushed.length - auditEventMemoryLimit = journal.flushed.length := by
        omega
      rw [Ring.latest, start, ← split, List.drop_left]

theorem Current.step {journal : Journal} (current : Current render journal)
    (input : FlushStep) (once : journal.WritesOnce render input) :
    Current render (journal.step render input) := by
  cases input with
  | push event =>
      exact ⟨current.holds.pushAll [event], current.file,
        current.flushed.trans (List.prefix_append _ _)⟩
  | flush => exact ⟨current.holds, once rfl, List.prefix_rfl⟩

/-- **Flushing.**  In a run of pushes and flushes every flush leaves each event in the
file exactly once, in push order, if and only if each flush either is the first to
find anything and finds at most `AUDIT_EVENT_MEMORY_LIMIT` events, or comes exactly
`AUDIT_EVENT_MEMORY_LIMIT` events after the one before it. -/
theorem allSteps_writesOnce_iff (render : Json → String) (steps : List FlushStep) :
    AllSteps (step render) (WritesOnce render) init steps ↔
      AllSteps (step render) FlushesExactly init steps :=
  allSteps_congr current_init (fun _ input current => current.writesOnce_iff input)
    fun _ input current once => current.step input once

/-- One event and two flushes: the second flush writes the event again. -/
theorem not_writesOnce_of_spaced :
    ¬ ∃ render : Json → String, ∀ steps : List FlushStep,
      AllSteps (step render) Spaced init steps →
        AllSteps (step render) (WritesOnce render) init steps := by
  rintro ⟨render, always⟩
  have spaced : AllSteps (step render) Spaced init
      [.push (.healthChanged "tenant" "node" .healthy false), .flush, .flush] := by
    simp [AllSteps, Spaced, step, init, auditEventMemoryLimit]
  have second := (always _ spaced).2.2.1 rfl
  have lengths := congrArg List.length second
  simp [step, init, appendEventsJsonl, AuditPipeline.push, AuditPipeline.new, Ring.push,
    auditEventMemoryLimit] at lengths

end Journal

end TrustRouter
