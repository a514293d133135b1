import Mathlib.Data.List.DropRight
import Mathlib.Data.List.Induction

/-!
# Bounded buffers

A queue that is kept at a given length by dropping its oldest element before each
push.  After any number of pushes it holds the latest ones (`foldl_push`).

The capacity must not be zero.  The eviction test of `push` is an equality, so a buffer of
capacity zero is full only while it is empty, and then grows without bound
(`foldl_push_zero`).  `pushBounded` tests instead whether the buffer has reached its capacity.
-/

namespace TrustRouter

namespace Ring

universe u

variable {α : Type u}

/-- Append an element, dropping the oldest one when the buffer is full. -/
def push (capacity : ℕ) (buffer : List α) (x : α) : List α :=
  (if buffer.length = capacity then buffer.tail else buffer) ++ [x]

variable {capacity : ℕ}

@[simp] theorem getLast?_push (buffer : List α) (x : α) :
    (push capacity buffer x).getLast? = some x := by
  simp [push]

/-- A push never takes a buffer over its capacity. -/
theorem length_push_le (pos : 0 < capacity) {buffer : List α}
    (bounded : buffer.length ≤ capacity) (x : α) :
    (push capacity buffer x).length ≤ capacity := by
  unfold push
  split_ifs with full
  · simp only [List.length_append, List.length_tail, List.length_singleton]
    omega
  · simp only [List.length_append, List.length_singleton]
    omega

/-- Append an element, dropping the oldest one when the buffer has reached its capacity. -/
def pushBounded (capacity : ℕ) (buffer : List α) (x : α) : List α :=
  (if capacity ≤ buffer.length then buffer.tail else buffer) ++ [x]

/-- As long as the buffer is within its capacity, the two tests agree. -/
theorem pushBounded_eq_push {buffer : List α} (bounded : buffer.length ≤ capacity) (x : α) :
    pushBounded capacity buffer x = push capacity buffer x := by
  have full : capacity ≤ buffer.length ↔ buffer.length = capacity := by omega
  simp only [pushBounded, push, full]

/-- The latest `capacity` elements of a history. -/
def latest (capacity : ℕ) (history : List α) : List α :=
  history.drop (history.length - capacity)

theorem latest_eq_rtake (history : List α) :
    latest capacity history = history.rtake (min history.length capacity) := by
  unfold latest List.rtake
  congr 1
  omega

@[simp] theorem length_latest (history : List α) :
    (latest capacity history).length = min history.length capacity := by
  simp only [latest, List.length_drop]
  omega

/-- Pushing keeps the latest elements of a longer history. -/
theorem push_latest (pos : 0 < capacity) (history : List α) (x : α) :
    push capacity (latest capacity history) x = latest capacity (history ++ [x]) := by
  unfold push
  rw [length_latest]
  have grown : (history ++ [x]).length = history.length + 1 := by simp
  split_ifs with full
  · have split : history.length + 1 - capacity = history.length - capacity + 1 := by omega
    rw [latest, latest, grown, split, List.tail_drop,
      List.drop_append_of_le_length (by omega)]
  · have split : history.length + 1 - capacity = 0 := by omega
    have all : history.length - capacity = 0 := by omega
    simp [latest, all, split]

theorem pushBounded_latest (pos : 0 < capacity) (history : List α) (x : α) :
    pushBounded capacity (latest capacity history) x = latest capacity (history ++ [x]) := by
  have bounded : (latest capacity history).length ≤ capacity := by
    rw [length_latest]
    exact Nat.min_le_right _ _
  rw [pushBounded_eq_push bounded, push_latest pos]

theorem getLast?_latest (pos : 0 < capacity) (history : List α) :
    (latest capacity history).getLast? = history.getLast? := by
  rw [latest, List.getLast?_drop]
  split_ifs with short
  · have empty : history.length = 0 := by omega
    rw [List.length_eq_zero_iff.mp empty]
    rfl
  · rfl

/-- **The buffer holds the latest pushes.** -/
theorem foldl_push (pos : 0 < capacity) (history : List α) :
    history.foldl (push capacity) [] = latest capacity history := by
  induction history using List.reverseRecOn with
  | nil => simp [latest]
  | append_singleton history x ih => simp [ih, push_latest pos]

/-- A buffer of capacity zero keeps everything. -/
theorem foldl_push_zero (history : List α) : history.foldl (push 0) [] = history := by
  induction history using List.reverseRecOn with
  | nil => rfl
  | append_singleton history x ih =>
      rw [List.foldl_append, ih, List.foldl_cons, List.foldl_nil, push]
      split_ifs with empty
      · simp [List.length_eq_zero_iff.mp empty]
      · rfl

theorem foldl_push_eq_latest_iff (history : List α) :
    history.foldl (push capacity) [] = latest capacity history ↔ 0 < capacity ∨ history = [] := by
  rcases Nat.eq_zero_or_pos capacity with rfl | pos
  · rw [foldl_push_zero]
    simp [latest]
  · simp [pos, foldl_push pos]

end Ring

end TrustRouter
