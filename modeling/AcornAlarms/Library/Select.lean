import AcornAlarms.Library.Inevitable

/-!
# Loops over `select!`

An iteration waits for several branches at once. It starts with the branches whose precondition
holds. A branch whose future completes with a value its pattern does not match is disabled for
the rest of the iteration; one whose value matches runs its handler, and a new iteration
begins. Once every branch is disabled `else` runs and leaves the loop. The branches complete in
any order.
-/

namespace AcornAlarms.Library

universe u v w x

/-- A loop over `select!` with an `else` that leaves it. -/
structure Select (State : Type u) (Action : Type v) (Event : Type w) (Branch : Type x) where
  /-- The handlers of the branches, and what other tasks do meanwhile. -/
  body : Machine State Action Event
  /-- The branch whose handler an action is; `none` for an action of another task. -/
  branchOf : Action → Option Branch
  branches : List Branch
  precondition : State → Branch → Bool
  /-- Whether the future of a branch is ready with a value the pattern does not match. -/
  unmatched : State → Branch → Bool
  /-- Whether a handler left the loop. -/
  left : State → Bool

namespace Select

/-- An iteration of the loop, or the state it was left in. -/
structure Iteration (State : Type u) (Branch : Type x) where
  state : State
  disabled : List Branch
  exited : Bool
deriving DecidableEq

/-- What happens while the loop waits. -/
inductive Turn (Action : Type v) (Branch : Type x) where
  | act (action : Action)
  /-- The value of a branch does not match. -/
  | disable (branch : Branch)
  /-- `else` runs. -/
  | otherwise

variable {State : Type u} {Action : Type v} {Event : Type w} {Branch : Type x}
  [DecidableEq Branch] (select : Select State Action Event Branch)

/-- The iteration that begins in a state. -/
def enter (state : State) : Iteration State Branch where
  state
  disabled := select.branches.filter fun branch => !select.precondition state branch
  exited := select.left state

/-- Whether the loop still waits for a branch. -/
def polls (iteration : Iteration State Branch) (branch : Branch) : Bool :=
  !iteration.exited && select.branches.contains branch && !iteration.disabled.contains branch

def step (iteration : Iteration State Branch) :
    Turn Action Branch → Option (Iteration State Branch × List Event)
  | .act action =>
      match select.branchOf action with
      | none => (select.body.step iteration.state action).map fun reached =>
          ({ iteration with state := reached.1 }, reached.2)
      | some branch =>
          if select.polls iteration branch then
            (select.body.step iteration.state action).map fun reached =>
              (select.enter reached.1, reached.2)
          else none
  | .disable branch =>
      if select.polls iteration branch && select.unmatched iteration.state branch then
        some ({ iteration with disabled := branch :: iteration.disabled }, [])
      else none
  | .otherwise =>
      if !iteration.exited && select.branches.all fun branch =>
          iteration.disabled.contains branch then
        some ({ iteration with exited := true }, [])
      else none

def machine : Machine (Iteration State Branch) (Turn Action Branch) Event where
  step := select.step

/-- What a turn does. -/
inductive Turned (iteration : Iteration State Branch) :
    Turn Action Branch → List Event → Iteration State Branch → Prop where
  | outside {action state out} (other : select.branchOf action = none)
      (acts : select.body.step iteration.state action = some (state, out)) :
      Turned iteration (.act action) out { iteration with state }
  | handled {action branch state out} (own : select.branchOf action = some branch)
      (polls : select.polls iteration branch = true)
      (acts : select.body.step iteration.state action = some (state, out)) :
      Turned iteration (.act action) out (select.enter state)
  | disabled {branch} (polls : select.polls iteration branch = true)
      (unmatched : select.unmatched iteration.state branch = true) :
      Turned iteration (.disable branch) []
        { iteration with disabled := branch :: iteration.disabled }
  | exhausted (running : iteration.exited = false)
      (all : ∀ branch ∈ select.branches, branch ∈ iteration.disabled) :
      Turned iteration .otherwise [] { iteration with exited := true }

variable {select} {iteration next : Iteration State Branch} {turn : Turn Action Branch}
  {out : List Event}

theorem polls_iff {branch : Branch} : select.polls iteration branch = true ↔
    iteration.exited = false ∧ branch ∈ select.branches ∧ branch ∉ iteration.disabled := by
  simp [polls, and_assoc]

theorem Turned.fires (turned : select.Turned iteration turn out next) :
    select.machine.step iteration turn = some (next, out) := by
  cases turned with
  | outside other acts => simp [machine, step, other, acts]
  | handled own polls acts => simp [machine, step, own, polls, acts]
  | disabled polls unmatched => simp [machine, step, polls, unmatched]
  | exhausted running all => simpa [machine, step, running] using all

/-- A turn is one of these. -/
theorem turned_of_step (fires : select.machine.step iteration turn = some (next, out)) :
    select.Turned iteration turn out next := by
  cases turn with
  | act action =>
      simp only [machine, step] at fires
      split at fires
      · next other =>
          obtain ⟨⟨state, events⟩, acts, same⟩ := Option.map_eq_some_iff.mp fires
          cases same
          exact .outside other acts
      · next branch own =>
          obtain ⟨polls, fires⟩ := Option.ite_none_right_eq_some.mp fires
          obtain ⟨⟨state, events⟩, acts, same⟩ := Option.map_eq_some_iff.mp fires
          cases same
          exact .handled own polls acts
  | disable branch =>
      simp only [machine, step, Bool.and_eq_true, Option.ite_none_right_eq_some] at fires
      obtain ⟨⟨polls, unmatched⟩, same⟩ := fires
      cases same
      exact .disabled polls unmatched
  | otherwise =>
      simp only [machine, step, Bool.and_eq_true, Bool.not_eq_true', List.all_eq_true,
        List.contains_iff_mem, Option.ite_none_right_eq_some] at fires
      obtain ⟨⟨running, all⟩, same⟩ := fires
      cases same
      exact .exhausted running all

/-- The states a loop passes are those its handlers and the other tasks pass. -/
theorem body_run {start : State} {turns : List (Turn Action Branch)} {events : List Event}
    {final : Iteration State Branch}
    (run : select.machine.Run Machine.Every (select.enter start) turns events final) :
    ∃ actions, select.body.Run Machine.Every start actions events final.state := by
  induction run with
  | refl => exact ⟨[], .refl⟩
  | snoc _ _ fires ih =>
      obtain ⟨actions, prior⟩ := ih
      cases turned_of_step fires with
      | outside other acts => exact ⟨_, .snoc prior trivial acts⟩
      | handled own polls acts => exact ⟨_, .snoc prior trivial acts⟩
      | disabled _ _ | exhausted _ _ =>
          rw [List.append_nil]
          exact ⟨actions, prior⟩

/-- A loop whose handlers never leave it goes on for ever if it has a branch without a
precondition whose pattern every value matches: that branch is never disabled. -/
theorem never_exits {branch : Branch} (member : branch ∈ select.branches)
    (open_ : ∀ state, select.precondition state branch = true)
    (irrefutable : ∀ state, select.unmatched state branch = false)
    (stays : ∀ state, select.left state = false) {start : State}
    {turns : List (Turn Action Branch)} {events : List Event} {final : Iteration State Branch}
    (run : select.machine.Run Machine.Every (select.enter start) turns events final) :
    final.exited = false ∧ branch ∉ final.disabled := by
  have entered : ∀ state, (select.enter state).exited = false ∧
      branch ∉ (select.enter state).disabled := by
    intro state
    simp [enter, stays, open_]
  apply run.invariant (fun iteration => iteration.exited = false ∧ branch ∉ iteration.disabled)
    (entered start)
  rintro _ iteration turn next out ⟨running, waits⟩ _ fires
  cases turned_of_step fires with
  | outside => exact ⟨running, waits⟩
  | handled => exact entered _
  | @disabled other polls unmatched =>
      refine ⟨running, fun disabled => ?_⟩
      rcases List.mem_cons.mp disabled with rfl | earlier
      · rw [irrefutable] at unmatched
        cases unmatched
      · exact waits earlier
  | exhausted _ all => exact absurd (all branch member) waits

/-- A computed run of the loop whose end passes a check. -/
theorem run_of_check (start : State) (turns : List (Turn Action Branch))
    (check : Iteration State Branch → List Event → Bool)
    (passes : ((select.machine.exec (fun _ _ => true) (select.enter start) turns).any
      fun reached => check reached.1 reached.2) = true) :
    ∃ final events, select.machine.Run Machine.Every (select.enter start) turns events final ∧
      check final events = true :=
  Machine.run_of_check (fun _ _ _ _ => trivial) (select.enter start) turns check passes

end Select

end AcornAlarms.Library
