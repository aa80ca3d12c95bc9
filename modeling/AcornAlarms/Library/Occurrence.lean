import AcornAlarms.Library.History
import AcornAlarms.Library.Machine

/-!
# Where an event occurs in a run

An event of a history was reported by one step. What was proved of runs holds of the run up to
that step, and the rest of the history is that of the run from there.
-/

namespace AcornAlarms.Library.Machine

universe u v w

variable {State : Type u} {Action : Type v} {Event : Type w}
  {machine : Machine State Action Event} {admits : List Event → State → Action → Prop}

/-- The step of a run that reported an event, with the runs before and after it. -/
structure Occurs (machine : Machine State Action Event)
    (admits : List Event → State → Action → Prop) (start final : State)
    (before : List Event) (event : Event) (after : List Event)
    (state next : State) (action : Action) (past early late rest : List Event) : Prop where
  prior : ∃ actions, machine.Run admits start actions past state
  fires : machine.step state action = some (next, early ++ event :: late)
  before_eq : before = past ++ early
  after_eq : after = late ++ rest
  later : ∃ actions, machine.Run Every next actions rest final

/-- Every event of a history was reported by a step. -/
theorem Run.occurs {start final : State} {actions : List Action} {events before after : List Event}
    {event : Event} (run : machine.Run admits start actions events final)
    (split : events = before ++ event :: after) :
    ∃ state next action past early late rest, machine.Occurs admits start final before event after
      state next action past early late rest := by
  induction run generalizing after with
  | refl => simp at split
  | @snoc actions events middle action next out prior admitted fires ih =>
      rcases split_append split with ⟨rest, earlier, rfl⟩ | ⟨early, rfl, rfl⟩
      · obtain ⟨state, reached, taken, past, early, late, more, occurs⟩ := ih earlier
        obtain ⟨moves, later⟩ := occurs.later
        refine ⟨state, reached, taken, past, early, late, more ++ out, ?_⟩
        exact
          { prior := occurs.prior
            fires := occurs.fires
            before_eq := occurs.before_eq
            after_eq := by rw [occurs.after_eq, List.append_assoc]
            later := ⟨_, later.snoc trivial fires⟩ }
      · refine ⟨middle, next, action, events, early, after, [], ?_⟩
        exact
          { prior := ⟨actions, prior⟩
            fires := fires
            before_eq := rfl
            after_eq := by rw [List.append_nil]
            later := ⟨[], .refl⟩ }

end AcornAlarms.Library.Machine
