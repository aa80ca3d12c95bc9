import AcornAlarms.Library.Machine

/-!
# Machines inside others

A machine is a part of another one when its state and its reports can be read off the whole,
and a step of the whole takes one of its steps or none. What holds of every run of the part
then holds of the part in every run of the whole.
-/

namespace AcornAlarms.Library.Machine

universe u v w x y z a b c

/-- How a machine is found in another one. -/
structure Part {State : Type u} {Action : Type v} {Event : Type w} {Inner : Type x} {Turn : Type y}
    {Report : Type z} (whole : Machine State Action Event) (inner : Machine Inner Turn Report) where
  state : State → Inner
  /-- The step of the part that an action takes. -/
  turn : State → Action → Option Turn
  report : Event → Option Report
  idle : ∀ {self action next out}, whole.step self action = some (next, out) →
    turn self action = none → state next = state self ∧ out.filterMap report = []
  moves : ∀ {self action next out taken}, whole.step self action = some (next, out) →
    turn self action = some taken →
    inner.step (state self) taken = some (state next, out.filterMap report)

namespace Part

variable {State : Type u} {Action : Type v} {Event : Type w} {Inner : Type x} {Turn : Type y}
  {Report : Type z} {whole : Machine State Action Event} {inner : Machine Inner Turn Report}

/-- A run of the whole runs its part, under what the condition on the whole says of the steps of
the part. -/
theorem run (part : Part whole inner) {admits : List Event → State → Action → Prop}
    {inside : List Report → Inner → Turn → Prop}
    (derives : ∀ {past self action taken}, admits past self action →
      part.turn self action = some taken →
      inside (past.filterMap part.report) (part.state self) taken)
    {start final : State} {actions : List Action} {events : List Event}
    (run : whole.Run admits start actions events final) :
    ∃ turns, inner.Run inside (part.state start) turns (events.filterMap part.report)
      (part.state final) := by
  induction run with
  | refl => exact ⟨[], .refl⟩
  | @snoc actions events state action next out _ admitted fires ih =>
      obtain ⟨turns, prior⟩ := ih
      rw [List.filterMap_append]
      cases taken : part.turn state action with
      | none =>
          obtain ⟨same, silent⟩ := part.idle fires taken
          rw [same, silent, List.append_nil]
          exact ⟨turns, prior⟩
      | some turn => exact ⟨_, prior.snoc (derives admitted taken) (part.moves fires taken)⟩

/-- The same where nothing is asked of the steps of the part. -/
theorem run_every (part : Part whole inner) {admits : List Event → State → Action → Prop}
    {start final : State} {actions : List Action} {events : List Event}
    (run : whole.Run admits start actions events final) :
    ∃ turns, inner.Run Every (part.state start) turns (events.filterMap part.report)
      (part.state final) :=
  part.run (fun _ _ => trivial) run

/-- A part of a part. -/
def trans {Core : Type a} {Move : Type b} {Note : Type c} {core : Machine Core Move Note}
    (outer : Part whole inner) (nested : Part inner core) : Part whole core where
  state := fun self => nested.state (outer.state self)
  turn := fun self action => (outer.turn self action).bind (nested.turn (outer.state self))
  report := fun event => (outer.report event).bind nested.report
  idle := by
    intro self action next out fires none
    rw [← List.filterMap_filterMap]
    cases taken : outer.turn self action with
    | none =>
        obtain ⟨same, silent⟩ := outer.idle fires taken
        rw [same, silent]
        exact ⟨rfl, rfl⟩
    | some turn =>
        rw [taken] at none
        exact nested.idle (outer.moves fires taken) none
  moves := by
    intro self action next out move fires moves
    rw [← List.filterMap_filterMap]
    obtain ⟨turn, taken, nestedMoves⟩ := Option.bind_eq_some_iff.mp moves
    exact nested.moves (outer.moves fires taken) nestedMoves

end Part

end AcornAlarms.Library.Machine
