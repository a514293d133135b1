import TrustRouter.Prelude.Run

/-!
# Counters that are cleared

A machine gives out an item with each step, and keeps a counter that some items clear and
others count up, in arithmetic modulo `n`.  What it counts is the streak of the items, that is
how often they have counted up since they last cleared (`streak`).

The counter is full when the next item takes it to `n`.  It never counts up when it is full if
and only if the items that are given out have no stretch without a clearing one that counts up
`n` times (`allSteps_not_wraps_iff`).
-/

namespace TrustRouter

universe u v w

namespace Streak

section

variable {α : Type u} (clear up : α → Bool)

/-- What an item makes of a streak. -/
def next (n : ℕ) (a : α) : ℕ := if clear a then 0 else if up a then n + 1 else n

/-- How often the items have counted up since they last cleared. -/
def streak (items : List α) : ℕ := items.foldl (next clear up) 0

variable {clear up}

@[simp] theorem streak_concat (items : List α) (a : α) :
    streak clear up (items ++ [a]) = next clear up (streak clear up items) a := by
  simp [streak]

/-- Without a clearing item every item that counts up is in the streak. -/
theorem streak_append (items : List α) {part : List α} (kept : ∀ a ∈ part, clear a = false) :
    streak clear up (items ++ part) = streak clear up items + part.countP up := by
  induction part using List.reverseRecOn with
  | nil => simp
  | append_singleton part a ih =>
      rw [← List.append_assoc, streak_concat,
        ih fun a mem => kept a (List.mem_append_left _ mem), next, kept a (by simp),
        List.countP_append, List.countP_singleton]
      split_ifs <;> simp_all [Nat.add_assoc]

variable (clear up) in
/-- The streak is made of the last items. -/
theorem exists_suffix_streak (items : List α) :
    ∃ part, part <:+ items ∧ (∀ a ∈ part, clear a = false) ∧
      part.countP up = streak clear up items := by
  induction items using List.reverseRecOn with
  | nil => exact ⟨[], List.suffix_rfl, by simp, rfl⟩
  | append_singleton items a ih =>
      cases cleared : clear a with
      | true => exact ⟨[], List.nil_suffix, by simp, by simp [next, cleared]⟩
      | false =>
          obtain ⟨part, ⟨front, rfl⟩, kept, count⟩ := ih
          refine ⟨part ++ [a], ⟨front, by simp⟩, ?_, ?_⟩
          · intro b mem
            rcases List.mem_append.mp mem with mem | mem
            · exact kept b mem
            · rw [List.mem_singleton.mp mem, cleared]
          · rw [streak_concat, next, cleared, List.countP_append, List.countP_singleton, count]
            cases up a <;> simp

/-- The streaks of all beginnings are short exactly if no stretch without a clearing item
counts up too often. -/
theorem forall_prefix_streak_lt_iff {items : List α} {n : ℕ} :
    (∀ front, front <+: items → streak clear up front < n) ↔
      ∀ part, part <:+: items → (∀ a ∈ part, clear a = false) → part.countP up < n := by
  constructor
  · rintro short part ⟨front, back, rfl⟩ kept
    have reached := short (front ++ part) (List.prefix_append _ _)
    rw [streak_append front kept] at reached
    omega
  · intro short front isPrefix
    obtain ⟨part, isSuffix, kept, count⟩ := exists_suffix_streak clear up front
    exact count ▸ short part (isSuffix.isInfix.trans isPrefix.isInfix) kept

end

variable {σ : Type u} {ι : Type v} {α : Type w} {step : σ → ι → σ} {out : σ → ι → α} {init : σ}
  {clear up : α → Bool} {n : ℕ}

/-- **A counter never wraps** if and only if no stretch of what is given out counts up `n` times
without clearing. -/
theorem allSteps_not_wraps_iff (counter : σ → ℕ) (pos : 0 < n) (start : counter init = 0)
    (counts : ∀ state input, counter (step state input) =
      next clear up (counter state) (out state input) % n) (inputs : List ι) :
    AllSteps step (fun state input => next clear up (counter state) (out state input) < n)
        init inputs ↔
      ∀ part, part <:+: outputs step out init inputs → (∀ a ∈ part, clear a = false) →
        part.countP up < n := by
  rw [← forall_prefix_streak_lt_iff]
  -- as long as it has not wrapped, the counter is the streak
  suffices both : (AllSteps step
        (fun state input => next clear up (counter state) (out state input) < n) init inputs ↔
      ∀ front, front <+: outputs step out init inputs → streak clear up front < n) ∧
      ((∀ front, front <+: outputs step out init inputs → streak clear up front < n) →
        counter (run step init inputs) = streak clear up (outputs step out init inputs)) from
    both.1
  induction inputs using List.reverseRecOn with
  | nil => simpa [outputs, streak, start] using pos
  | append_singleton inputs input ih =>
      obtain ⟨same, counted⟩ := ih
      simp only [allSteps_append, allSteps_cons, allSteps_nil, and_true, outputs_concat,
        List.prefix_concat_iff, forall_eq_or_imp, streak_concat, run_concat, counts]
      constructor
      · rw [same, and_comm]
        exact and_congr_left fun short => by rw [counted short]
      · rintro ⟨last, short⟩
        rw [counted short, Nat.mod_eq_of_lt last]

end Streak

end TrustRouter
