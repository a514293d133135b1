import Mathlib.Data.List.Induction
import Mathlib.Data.List.ReduceOption

/-!
# Runs of a deterministic machine

A machine is a step function `σ → ι → σ`.  `run` feeds it a list of inputs, and
`AllSteps` says of a run that every step in it, taken with the state it was
taken from, has a property.  The two induction rules package the argument
"initially, and kept by every step", once for all runs (`run_induction`) and once for
the runs whose steps have a property (`AllSteps.run_induction`).

Which of two things a run has done last is `LastBefore`: the last step with one property
comes before some step with the other.  Since when a property has held is `HoldsSince`, and
`exists_holdsSince` is the induction rule for what has happened since.
-/

namespace TrustRouter

universe u v w

variable {σ : Type u} {ι : Type v}

/-- The state after a list of inputs. -/
def run (step : σ → ι → σ) (init : σ) (inputs : List ι) : σ := inputs.foldl step init

/-- What each step of the run gives out. -/
def outputs {ω : Type w} (step : σ → ι → σ) (out : σ → ι → ω) : σ → List ι → List ω
  | _, [] => []
  | init, input :: rest => out init input :: outputs step out (step init input) rest

/-- Every step of the run from `init` satisfies `Q`. -/
def AllSteps (step : σ → ι → σ) (Q : σ → ι → Prop) : σ → List ι → Prop
  | _, [] => True
  | init, input :: rest => Q init input ∧ AllSteps step Q (step init input) rest

section

variable {step : σ → ι → σ} {init : σ}

@[simp] theorem run_nil : run step init [] = init := rfl

@[simp] theorem run_cons (input : ι) (rest : List ι) :
    run step init (input :: rest) = run step (step init input) rest := rfl

theorem run_append (first second : List ι) :
    run step init (first ++ second) = run step (run step init first) second :=
  List.foldl_append

@[simp] theorem run_concat (inputs : List ι) (input : ι) :
    run step init (inputs ++ [input]) = step (run step init inputs) input := by
  simp [run_append]

theorem outputs_append {ω : Type w} (out : σ → ι → ω) (first second : List ι) :
    outputs step out init (first ++ second) =
      outputs step out init first ++ outputs step out (run step init first) second := by
  induction first generalizing init with
  | nil => rfl
  | cons input rest ih => simp [outputs, ih]

@[simp] theorem outputs_concat {ω : Type w} (out : σ → ι → ω) (inputs : List ι) (input : ι) :
    outputs step out init (inputs ++ [input]) =
      outputs step out init inputs ++ [out (run step init inputs) input] := by
  rw [outputs_append, outputs, outputs]

/-! ### Views

A view that evolves on its own, on the inputs it can see, is after every run what it
would have become had there been no other inputs. -/

section View

variable {τ : Type*} {κ : Type*} (view : σ → τ) {visible : ι → Option κ} {step' : τ → κ → τ}

/-- The state of a view after a run. -/
theorem view_run (sees : ∀ state input, view (step state input) =
      ((visible input).map (step' (view state))).getD (view state)) (inputs : List ι) :
    view (run step init inputs) = run step' (view init) (inputs.filterMap visible) := by
  induction inputs using List.reverseRecOn with
  | nil => rfl
  | append_singleton inputs input ih =>
      rw [run_concat, sees, List.filterMap_append, run_append, ← ih]
      cases seen : visible input <;> simp [seen]

/-- What the inputs seen by a view give out, where it is the view that decides. -/
theorem reduceOption_outputs {ω : Type*} {out : σ → ι → Option ω} {out' : τ → κ → Option ω}
    (sees : ∀ state input, view (step state input) =
      ((visible input).map (step' (view state))).getD (view state))
    (answers : ∀ state input, out state input = (visible input).bind (out' (view state)))
    (inputs : List ι) :
    (outputs step out init inputs).reduceOption =
      (outputs step' out' (view init) (inputs.filterMap visible)).reduceOption := by
  induction inputs using List.reverseRecOn with
  | nil => rfl
  | append_singleton inputs input ih =>
      rw [outputs_concat, List.reduceOption_append, ih, answers, view_run view sees,
        List.filterMap_append]
      cases seen : visible input with
      | none => simp [seen]
      | some item => simp [seen, List.reduceOption_append]

end View

/-- A property of the initial state that every step keeps holds after every run. -/
theorem run_induction {P : σ → Prop} (start : P init)
    (keep : ∀ state input, P state → P (step state input)) (inputs : List ι) :
    P (run step init inputs) := by
  induction inputs using List.reverseRecOn with
  | nil => exact start
  | append_singleton inputs input ih =>
      rw [run_concat]
      exact keep _ input ih

@[simp] theorem allSteps_nil (Q : σ → ι → Prop) : AllSteps step Q init [] := trivial

@[simp] theorem allSteps_cons {Q : σ → ι → Prop} {input : ι} {rest : List ι} :
    AllSteps step Q init (input :: rest) ↔
      Q init input ∧ AllSteps step Q (step init input) rest := Iff.rfl

/-- What holds of every step whatsoever. -/
theorem allSteps_of_forall {Q : σ → ι → Prop} (every : ∀ state input, Q state input)
    (inputs : List ι) : AllSteps step Q init inputs := by
  induction inputs generalizing init with
  | nil => exact trivial
  | cons input rest ih => exact ⟨every init input, ih⟩

theorem allSteps_and {Q Q' : σ → ι → Prop} {inputs : List ι} :
    AllSteps step (fun state input => Q state input ∧ Q' state input) init inputs ↔
      AllSteps step Q init inputs ∧ AllSteps step Q' init inputs := by
  induction inputs generalizing init with
  | nil => simp
  | cons input rest ih => simp only [allSteps_cons, ih, and_and_and_comm]

theorem allSteps_append {Q : σ → ι → Prop} {first second : List ι} :
    AllSteps step Q init (first ++ second) ↔
      AllSteps step Q init first ∧ AllSteps step Q (run step init first) second := by
  induction first generalizing init with
  | nil => simp
  | cons input rest ih => simp [ih, and_assoc]

/-- `AllSteps` spelled out: at every place where the run can be cut. -/
theorem allSteps_iff {Q : σ → ι → Prop} {inputs : List ι} :
    AllSteps step Q init inputs ↔
      ∀ before input after, inputs = before ++ input :: after →
        Q (run step init before) input := by
  constructor
  · rintro all before input after rfl
    exact (allSteps_append.mp all).2.1
  · intro all
    induction inputs generalizing init with
    | nil => exact trivial
    | cons input rest ih =>
        refine ⟨all [] input rest rfl, ih fun before next after split => ?_⟩
        simpa using all (input :: before) next after (by simp [split])

instance AllSteps.decidable {Q : σ → ι → Prop} [∀ state input, Decidable (Q state input)] :
    (init : σ) → (inputs : List ι) → Decidable (AllSteps step Q init inputs)
  | _, [] => isTrue trivial
  | init, input :: rest =>
      have : Decidable (AllSteps step Q (step init input) rest) := AllSteps.decidable _ rest
      inferInstanceAs (Decidable (Q init input ∧ AllSteps step Q (step init input) rest))

/-- A property of the initial state that is kept by every step with `Q` holds after every
run of such steps. -/
theorem AllSteps.run_induction {P : σ → Prop} {Q : σ → ι → Prop} {inputs : List ι}
    (all : AllSteps step Q init inputs) (start : P init)
    (keep : ∀ state input, P state → Q state input → P (step state input)) :
    P (run step init inputs) := by
  induction inputs generalizing init with
  | nil => exact start
  | cons input rest ih => exact ih all.2 (keep init input start all.1)

/-- Two properties of steps that agree as long as the first has held so far hold of
the same runs. -/
theorem allSteps_congr {P : σ → Prop} {Q Q' : σ → ι → Prop} (start : P init)
    (same : ∀ state input, P state → (Q state input ↔ Q' state input))
    (keep : ∀ state input, P state → Q state input → P (step state input)) {inputs : List ι} :
    AllSteps step Q init inputs ↔ AllSteps step Q' init inputs := by
  induction inputs generalizing init with
  | nil => exact Iff.rfl
  | cons input rest ih =>
      rw [allSteps_cons, allSteps_cons, ← same init input start]
      exact and_congr_right fun holds => ih (keep init input start holds)

/-! ### Which came last -/

/-- Some step of the run has `Q`, and from it on no step has `P`: the last step with `P`, if
there is one, comes before. -/
def LastBefore (step : σ → ι → σ) (P Q : σ → ι → Prop) (init : σ) (inputs : List ι) : Prop :=
  ∃ before input after, inputs = before ++ input :: after ∧ Q (run step init before) input ∧
    AllSteps step (fun state input => ¬ P state input) (run step init before) (input :: after)

section LastBefore

variable {P Q Q' : σ → ι → Prop} {inputs : List ι}

@[simp] theorem not_lastBefore_nil : ¬ LastBefore step P Q init [] := by
  rintro ⟨before, input, after, split, -⟩
  exact absurd split.symm (List.append_ne_nil_of_right_ne_nil _ (List.cons_ne_nil _ _))

/-- The last step decides, unless it has neither of the properties. -/
theorem lastBefore_concat_iff {input : ι} :
    LastBefore step P Q init (inputs ++ [input]) ↔
      ¬ P (run step init inputs) input ∧
        (Q (run step init inputs) input ∨ LastBefore step P Q init inputs) := by
  constructor
  · rintro ⟨before, first, after, split, holds, never⟩
    rcases List.eq_nil_or_concat' after with rfl | ⟨after, last, rfl⟩
    · obtain ⟨rfl, same⟩ := List.append_inj' split rfl
      obtain rfl := List.head_eq_of_cons_eq same
      exact ⟨never.1, Or.inl holds⟩
    · rw [← List.cons_append, ← List.append_assoc] at split
      obtain ⟨rfl, same⟩ := List.append_inj' split rfl
      obtain rfl := List.head_eq_of_cons_eq same
      rw [← List.cons_append, allSteps_append, ← run_append] at never
      exact ⟨never.2.1, Or.inr ⟨before, first, after, rfl, holds, never.1⟩⟩
  · rintro ⟨notP, holds | ⟨before, first, after, rfl, holds, never⟩⟩
    · exact ⟨inputs, input, [], rfl, holds, notP, trivial⟩
    · refine ⟨before, first, after ++ [input], by simp, holds, ?_⟩
      rw [← List.cons_append, allSteps_append, ← run_append]
      exact ⟨never, notP, trivial⟩

theorem LastBefore.mono (last : LastBefore step P Q init inputs)
    (weaker : ∀ state input, Q state input → Q' state input) :
    LastBefore step P Q' init inputs := by
  obtain ⟨before, input, after, split, holds, never⟩ := last
  exact ⟨before, input, after, split, weaker _ _ holds, never⟩

theorem LastBefore.weaken {P' : σ → ι → Prop} (last : LastBefore step P Q init inputs)
    (stronger : ∀ state input, P' state input → P state input) :
    LastBefore step P' Q init inputs := by
  obtain ⟨before, input, after, split, holds, never⟩ := last
  refine ⟨before, input, after, split, holds, allSteps_iff.mpr fun first next rest split' => ?_⟩
  exact fun holds' => allSteps_iff.mp never first next rest split' (stronger _ _ holds')

/-- Of two properties only one is the one a step had last. -/
theorem LastBefore.not_lastBefore (last : LastBefore step P Q init inputs) :
    ¬ LastBefore step Q P init inputs := by
  induction inputs using List.reverseRecOn with
  | nil => exact not_lastBefore_nil
  | append_singleton inputs input ih =>
      rw [lastBefore_concat_iff] at last ⊢
      rintro ⟨notQ, holds | last'⟩
      · exact last.1 holds
      · exact ih (last.2.resolve_left notQ) last'

theorem not_lastBefore_self : ¬ LastBefore step P P init inputs :=
  fun last => last.not_lastBefore last

/-- Of two properties that no step has at once, one is the one a step had last, if a step has
had one of them at all. -/
theorem lastBefore_or (apart : ∀ state input, P state input → ¬ Q state input)
    (last : LastBefore step Q' Q init inputs) :
    LastBefore step P Q init inputs ∨ LastBefore step Q P init inputs := by
  induction inputs using List.reverseRecOn with
  | nil => exact absurd last not_lastBefore_nil
  | append_singleton inputs input ih =>
      rw [lastBefore_concat_iff] at last
      simp only [lastBefore_concat_iff]
      by_cases holds : P (run step init inputs) input
      · exact Or.inr ⟨apart _ _ holds, Or.inl holds⟩
      by_cases holds' : Q (run step init inputs) input
      · exact Or.inl ⟨holds, Or.inl holds'⟩
      exact (ih (last.2.resolve_left holds')).imp (fun first => ⟨holds, Or.inr first⟩)
        fun first => ⟨holds', Or.inr first⟩

end LastBefore

/-! ### Since when -/

/-- `P` came to hold with the step after `prior`, and has held in every state since. -/
structure HoldsSince (step : σ → ι → σ) (P : σ → Prop) (init : σ) (prior : List ι) (input : ι)
    (since : List ι) : Prop where
  before : ¬ P (run step init prior)
  after : ∀ part, part <+: since → P (run step init (prior ++ input :: part))

/-- **Since it came to hold.**  What is right when `P` comes to hold, and is kept by every step
as long as `P` holds, is right of what has happened since `P` came to hold. -/
theorem exists_holdsSince {P : σ → Prop} {I : List ι → σ → Prop} (start : ¬ P init)
    (enter : ∀ state input, ¬ P state → P (step state input) → I [] (step state input))
    (stay : ∀ state input since, P state → I since state → P (step state input) →
      I (since ++ [input]) (step state input))
    {inputs : List ι} (holds : P (run step init inputs)) :
    ∃ prior input since, inputs = prior ++ input :: since ∧
      HoldsSince step P init prior input since ∧ I since (run step init inputs) := by
  induction inputs using List.reverseRecOn with
  | nil => exact absurd holds start
  | append_singleton inputs last ih =>
      rw [run_concat] at holds ⊢
      by_cases held : P (run step init inputs)
      · obtain ⟨prior, input, since, rfl, holdsSince, right⟩ := ih held
        refine ⟨prior, input, since ++ [last], by simp, ⟨holdsSince.before, ?_⟩,
          stay _ last since held right holds⟩
        intro part isPrefix
        rcases List.prefix_concat_iff.mp isPrefix with rfl | shorter
        · rw [← List.cons_append, ← List.append_assoc, run_concat]
          exact holds
        · exact holdsSince.after part shorter
      · refine ⟨inputs, last, [], rfl, ⟨held, ?_⟩, enter _ last held holds⟩
        intro part isPrefix
        rw [List.prefix_nil.mp isPrefix, run_concat]
        exact holds

end

end TrustRouter
