import Mathlib.Logic.Function.Iterate
import Mathlib.Order.Basic

/-!
# Loops that drain

A step repeated on a state makes progress and lowers a weight, or changes
nothing.  Then it makes progress for some first turns, no more than the weight,
and rests ever after.
-/

universe u

/-- In every state that `Holds` a busy step lowers the weight and an idle step
leaves the state alone. -/
structure Draining {State : Type u} (step : State → State)
    (Holds Busy : State → Prop) (weight : State → Nat) : Prop where
  keeps : ∀ state, Holds state → Holds (step state)
  lowers : ∀ state, Holds state → Busy state →
    weight (step state) < weight state
  rests : ∀ state, Holds state → ¬ Busy state → step state = state

namespace Draining

variable {State : Type u} {step : State → State} {Holds Busy : State → Prop}
  {weight : State → Nat}

theorem holds_iterate (draining : Draining step Holds Busy weight)
    {state : State} (holds : Holds state) (turn : Nat) :
    Holds (step^[turn] state) := by
  induction turn generalizing state with
  | zero => exact holds
  | succ turn ih =>
      rw [Function.iterate_succ_apply]
      exact ih (draining.keeps state holds)

/-- A state in which the step is idle is the last one. -/
theorem iterate_idle (draining : Draining step Holds Busy weight)
    {state : State} (holds : Holds state) (idle : ¬ Busy state) (turn : Nat) :
    step^[turn] state = state :=
  Function.iterate_fixed (draining.rests state holds idle) turn

/-- The step is busy for the first turns, at most as many as the weight, and
idle from then on. -/
theorem exists_count (draining : Draining step Holds Busy weight)
    {state : State} (holds : Holds state) :
    ∃ count ≤ weight state,
      (∀ turn < count, Busy (step^[turn] state)) ∧
      ¬ Busy (step^[count] state) ∧
      ∀ turn, count ≤ turn → step^[turn] state = step^[count] state := by
  induction bound : weight state using Nat.strongRecOn
    generalizing state with
  | ind bound ih =>
  subst bound
  by_cases busy : Busy state
  · have less := draining.lowers state holds busy
    obtain ⟨count, within, first, idle, last⟩ :=
      ih _ less (draining.keeps state holds) rfl
    refine ⟨count + 1, Nat.succ_le_of_lt (Nat.lt_of_le_of_lt within less), ?_,
      idle, ?_⟩
    · intro turn before
      cases turn with
      | zero => exact busy
      | succ turn => exact first turn (Nat.lt_of_succ_lt_succ before)
    · intro turn after
      cases turn with
      | zero => simp at after
      | succ turn => exact last turn (Nat.le_of_succ_le_succ after)
  · refine ⟨0, Nat.zero_le _, by simp, busy, ?_⟩
    intro turn _
    rw [draining.iterate_idle holds busy turn]
    rfl

end Draining

/-- What lowers a weight at every turn before its goal gets there, with one
turn for each unit of the weight it uses up. -/
theorem exists_first_turn {Holds Done : Nat → Prop} {weight : Nat → Nat}
    (lowers : ∀ turn, Holds turn → ¬ Done turn →
      Holds (turn + 1) ∧ weight (turn + 1) < weight turn)
    (holds : Holds 0) :
    ∃ count, count + weight count ≤ weight 0 ∧ Holds count ∧ Done count ∧
      ∀ turn < count, Holds turn ∧ ¬ Done turn := by
  induction bound : weight 0 using Nat.strongRecOn
    generalizing Holds Done weight with
  | ind bound ih =>
  subst bound
  by_cases done : Done 0
  · exact ⟨0, by simp, holds, done, by simp⟩
  · obtain ⟨kept, less⟩ := lowers 0 holds done
    obtain ⟨count, used, last, reached, first⟩ :=
      @ih _ less (fun turn => Holds (turn + 1)) (fun turn => Done (turn + 1))
        (fun turn => weight (turn + 1)) (fun turn => lowers (turn + 1)) kept rfl
    refine ⟨count + 1, by omega, last, reached, ?_⟩
    intro turn before
    cases turn with
    | zero => exact ⟨holds, done⟩
    | succ turn => exact first turn (Nat.lt_of_succ_lt_succ before)
