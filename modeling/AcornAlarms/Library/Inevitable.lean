import AcornAlarms.Library.Machine

/-!
# Goals no run misses

A goal is inevitable from a state when the admitted steps lead to it whichever of them are
taken, after finitely many, and one of them is enabled until it is reached.
-/

namespace AcornAlarms.Library.Machine

universe u v w

variable {State : Type u} {Action : Type v} {Event : Type w}

/-- Every way to take admitted steps ends in the goal. -/
inductive Inevitable (machine : Machine State Action Event) (admits : State → Action → Prop)
    (goal : State → Prop) : State → Prop where
  | reached {state} (done : goal state) : Inevitable machine admits goal state
  | later {state}
      (enabled : ∃ action next out, admits state action ∧
        machine.step state action = some (next, out))
      (each : ∀ {action next out}, admits state action →
        machine.step state action = some (next, out) → Inevitable machine admits goal next) :
      Inevitable machine admits goal state

variable {machine : Machine State Action Event} {admits : State → Action → Prop}
  {goal : State → Prop} {state : State}

/-- A rank that every admitted step lowers, under an invariant that keeps a step enabled. -/
theorem Inevitable.of_rank (holds : State → Prop) (rank : State → Nat) (initial : holds state)
    (enabled : ∀ {state}, holds state → ¬ goal state → ∃ action next out, admits state action ∧
      machine.step state action = some (next, out))
    (lowers : ∀ {state action next out}, holds state → admits state action →
      machine.step state action = some (next, out) →
      goal next ∨ (holds next ∧ rank next < rank state)) :
    machine.Inevitable admits goal state := by
  induction measured : rank state using Nat.strongRecOn generalizing state with
  | ind higher ih =>
      by_cases done : goal state
      · exact .reached done
      · refine .later (enabled initial done) fun admitted fires => ?_
        rcases lowers initial admitted fires with reached | ⟨kept, less⟩
        · exact .reached reached
        · exact ih _ (measured ▸ less) kept rfl

/-- What every admitted step keeps and no goal allows makes the goal escapable. -/
theorem not_inevitable (holds : State → Prop) (initial : holds state)
    (misses : ∀ {state}, holds state → ¬ goal state)
    (kept : ∀ {state action next out}, holds state → admits state action →
      machine.step state action = some (next, out) → holds next) :
    ¬ machine.Inevitable admits goal state := by
  intro inevitable
  induction inevitable with
  | reached done => exact misses initial done
  | later enabled _ ih =>
      obtain ⟨action, next, out, admitted, fires⟩ := enabled
      exact ih admitted fires (kept initial admitted fires)

end AcornAlarms.Library.Machine
