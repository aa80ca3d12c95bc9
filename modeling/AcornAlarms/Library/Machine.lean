/-!
# Labelled machines and their finite runs

A machine takes one action at a time and reports the events of that step; an
action which is not enabled has no successor. `Run` collects the runs all of
whose steps are admitted by a condition on the events so far, the state before
the step and the action taken, so a theorem about well-behaved runs and a theorem
about all runs share one relation.
-/

namespace AcornAlarms.Library

universe u v w

/-- An executable machine with `none` for an action that is not enabled. -/
structure Machine (State : Type u) (Action : Type v) (Event : Type w) where
  step : State → Action → Option (State × List Event)

namespace Machine

variable {State : Type u} {Action : Type v} {Event : Type w}

/-- Zero or more steps from `start`, each admitted by `admits`, with the actions
taken and the events reported in order. -/
inductive Run (machine : Machine State Action Event)
    (admits : List Event → State → Action → Prop) (start : State) :
    List Action → List Event → State → Prop where
  | refl : Run machine admits start [] [] start
  | snoc {actions events state action next out}
      (prior : Run machine admits start actions events state)
      (admitted : admits events state action)
      (fires : machine.step state action = some (next, out)) :
      Run machine admits start (actions ++ [action]) (events ++ out) next

/-- The condition that admits every step. -/
def Every : List Event → State → Action → Prop := fun _ _ _ => True

variable {machine : Machine State Action Event} {admits : List Event → State → Action → Prop}

/-- What holds at the start and is kept by every admitted step holds at the end of a run. -/
theorem Run.invariant {start final : State} {actions : List Action} {events : List Event}
    (run : machine.Run admits start actions events final) (holds : State → Prop)
    (initial : holds start)
    (kept : ∀ {past state action next out}, holds state → admits past state action →
      machine.step state action = some (next, out) → holds next) :
    holds final := by
  induction run with
  | refl => exact initial
  | snoc _ admitted fires ih => exact kept ih admitted fires

/-- The invariant rule for a relation between the events so far and the state. -/
theorem Run.history {start final : State} {actions : List Action} {events : List Event}
    (run : machine.Run admits start actions events final)
    (holds : List Event → State → Prop) (initial : holds [] start)
    (kept : ∀ {past state action next out}, holds past state → admits past state action →
      machine.step state action = some (next, out) → holds (past ++ out) next) :
    holds events final := by
  induction run with
  | refl => exact initial
  | snoc _ admitted fires ih => exact kept ih admitted fires

/-- A condition that an invariant of the admitted runs derives from the old one admits the
same runs. -/
theorem Run.admit {other : List Event → State → Action → Prop} {start final : State}
    {actions : List Action} {events : List Event}
    (run : machine.Run admits start actions events final)
    (holds : List Event → State → Prop) (initial : holds [] start)
    (kept : ∀ {past state action next out}, holds past state →
      machine.step state action = some (next, out) → holds (past ++ out) next)
    (derives : ∀ {past state action}, holds past state → admits past state action →
      other past state action) :
    machine.Run other start actions events final := by
  have both : machine.Run other start actions events final ∧ holds events final := by
    induction run with
    | refl => exact ⟨.refl, initial⟩
    | snoc _ admitted fires ih =>
        exact ⟨.snoc ih.1 (derives ih.2 admitted) fires, kept ih.2 fires⟩
  exact both.1

/-- Forget which steps the condition admitted. -/
theorem Run.forget {start final : State} {actions : List Action} {events : List Event}
    (run : machine.Run admits start actions events final) :
    machine.Run Every start actions events final := by
  induction run with
  | refl => exact .refl
  | snoc _ _ fires ih => exact .snoc ih trivial fires

/-- Runs follow one another if the condition stays true under a longer history. -/
theorem Run.append (steady : ∀ earlier {past state action}, admits past state action →
      admits (earlier ++ past) state action)
    {start middle final : State} {first second : List Action} {before after : List Event}
    (prior : machine.Run admits start first before middle)
    (later : machine.Run admits middle second after final) :
    machine.Run admits start (first ++ second) (before ++ after) final := by
  induction later with
  | refl => simpa using prior
  | snoc _ admitted fires ih =>
      rw [← List.append_assoc, ← List.append_assoc]
      exact .snoc ih (steady before admitted) fires

/-- A run that ends where it began goes on for ever. -/
theorem Run.rounds (steady : ∀ earlier {past state action}, admits past state action →
      admits (earlier ++ past) state action)
    {state : State} {actions : List Action} {events : List Event}
    (round : machine.Run admits state actions events state) (count : Nat) :
    machine.Run admits state (List.replicate count actions).flatten
      (List.replicate count events).flatten state := by
  induction count with
  | zero => exact .refl
  | succ count ih =>
      rw [List.replicate_succ, List.replicate_succ, List.flatten_cons, List.flatten_cons]
      exact round.append steady ih

/-- A rank every admitted step lowers bounds the length of a run. -/
theorem Run.length_le {start final : State} {actions : List Action} {events : List Event}
    (run : machine.Run admits start actions events final) (rank : State → Nat → Prop)
    {bound : Nat} (initial : rank start bound)
    (lowers : ∀ {past state action next out higher}, rank state higher →
      admits past state action → machine.step state action = some (next, out) →
      ∃ lower, lower < higher ∧ rank next lower) :
    ∃ left, rank final left ∧ actions.length + left ≤ bound := by
  induction run with
  | refl => exact ⟨bound, initial, by simp⟩
  | snoc _ admitted fires ih =>
      obtain ⟨higher, before, room⟩ := ih
      obtain ⟨lower, less, after⟩ := lowers before admitted fires
      refine ⟨lower, after, ?_⟩
      rw [List.length_append, List.length_singleton]
      omega

/-- What an observer sees of the steps a list of actions takes. -/
def observe {Sight : Type w} (machine : Machine State Action Event)
    (sees : State → Action → List Event → List Sight) (state : State) : List Action → List Sight
  | [] => []
  | action :: rest =>
      match machine.step state action with
      | some (next, out) => sees state action out ++ observe machine sees next rest
      | none => []

/-- What is seen of a run and what is seen from its end. -/
theorem Run.observe_append {Sight : Type w} (sees : State → Action → List Event → List Sight)
    {start final : State} {actions : List Action} {events : List Event}
    (run : machine.Run admits start actions events final) (rest : List Action) :
    machine.observe sees start (actions ++ rest) =
      machine.observe sees start actions ++ machine.observe sees final rest := by
  induction run generalizing rest with
  | refl => rfl
  | @snoc actions events state action next out _ _ fires ih =>
      have last : ∀ rest, machine.observe sees state (action :: rest) =
          sees state action out ++ machine.observe sees next rest := by
        intro rest
        simp only [observe, fires]
      rw [List.append_assoc, List.singleton_append, ih (action :: rest), ih [action], last rest,
        last [], observe, List.append_nil, List.append_assoc]

/-- One more step is seen after the run. -/
theorem Run.observe_snoc {Sight : Type w} (sees : State → Action → List Event → List Sight)
    {start state next : State} {actions : List Action} {events out : List Event} {action : Action}
    (run : machine.Run admits start actions events state)
    (fires : machine.step state action = some (next, out)) :
    machine.observe sees start (actions ++ [action]) =
      machine.observe sees start actions ++ sees state action out := by
  rw [run.observe_append sees [action]]
  simp only [observe, fires, List.append_nil]

/-- Run a list of actions, provided each is allowed and enabled. -/
def exec (machine : Machine State Action Event) (allowed : State → Action → Bool)
    (state : State) : List Action → Option (State × List Event)
  | [] => some (state, [])
  | action :: rest =>
      if allowed state action then
        (machine.step state action).bind fun (next, out) =>
          (exec machine allowed next rest).map fun (final, events) => (final, out ++ events)
      else none

/-- What `exec` computes continues a run. -/
theorem run_of_exec {allowed : State → Action → Bool}
    (sound : ∀ past state action, allowed state action = true → admits past state action)
    {first rest : List Action} {start middle final : State} {before after : List Event}
    (prior : machine.Run admits start first before middle)
    (computed : machine.exec allowed middle rest = some (final, after)) :
    machine.Run admits start (first ++ rest) (before ++ after) final := by
  induction rest generalizing first before middle after with
  | nil =>
      simp only [exec, Option.some.injEq, Prod.mk.injEq] at computed
      obtain ⟨rfl, rfl⟩ := computed
      simpa using prior
  | cons action rest ih =>
      by_cases admitted : allowed middle action = true
      · simp only [exec, admitted, if_true, Option.bind_eq_some_iff, Option.map_eq_some_iff,
          Prod.exists, Prod.mk.injEq] at computed
        obtain ⟨next, out, fires, _, later, more, rfl, rfl⟩ := computed
        have extended := ih (.snoc prior (sound _ _ _ admitted) fires) more
        simpa using extended
      · simp [exec, admitted] at computed

/-- A computed run whose end passes a check. -/
theorem run_of_check {allowed : State → Action → Bool}
    (sound : ∀ past state action, allowed state action = true → admits past state action)
    (start : State) (actions : List Action) (check : State → List Event → Bool)
    (passes : ((machine.exec allowed start actions).any fun (final, events) =>
      check final events) = true) :
    ∃ final events, machine.Run admits start actions events final ∧ check final events = true := by
  cases computed : machine.exec allowed start actions with
  | none => simp [computed] at passes
  | some reached =>
      obtain ⟨final, events⟩ := reached
      have run := run_of_exec sound .refl computed
      exact ⟨final, events, by simpa using run, by simpa [computed] using passes⟩

/-- A computed step whose outcome passes a check. -/
theorem step_of_check (state : State) (action : Action) (check : State → List Event → Bool)
    (passes : ((machine.step state action).any fun (next, out) => check next out) = true) :
    ∃ next out, machine.step state action = some (next, out) ∧ check next out = true := by
  cases fires : machine.step state action with
  | none => simp [fires] at passes
  | some reached =>
      obtain ⟨next, out⟩ := reached
      exact ⟨next, out, rfl, by simpa [fires] using passes⟩

end Machine

end AcornAlarms.Library
