import AcornAlarms.Engine.ClosableIngress
import AcornAlarms.Properties.Overload

/-!
# Sends after the coordinator stopped

In the normal mode every later send returns its status as an error. In the overload mode the
drain task has returned, so the mode stays and every later send is merged and returns `Ok`.
-/

namespace AcornAlarms

open Library

section

variable [Platform]

namespace ClosableIngress

variable {self next : ClosableIngress} {capacity : Nat} {out : List Event} {action : Action}

/-- What the tasks can do. -/
inductive Step (self : ClosableIngress) (capacity : Nat) :
    Action → List Event → ClosableIngress → Prop where
  | turn {action ingress events}
      (fires : self.ingress.step capacity action = some (ingress, events))
      (usable : action.usesReceiver = true → self.receiverAlive = true)
      (working : action.ofDrain = true → self.drainReturned = false) :
      Step self capacity (.turn action) (events.map .ingress) { self with ingress }
  | reject {status} (closed : self.receiverAlive = false)
      (offering : self.ingress.caller = .offering status) :
      Step self capacity (.turn .trySend) [.rejected status]
        { self with ingress := { self.ingress with caller := .idle } }
  | drainReturns {status} (closed : self.receiverAlive = false)
      (working : self.drainReturned = false)
      (sending : self.ingress.drain = .sending status) :
      Step self capacity (.turn .send) [] { self with drainReturned := true }
  | dropReceiver (alive : self.receiverAlive = true) :
      Step self capacity .dropReceiver []
        { self with receiverAlive := false, ingress := { self.ingress with queue := [] } }

/-- Every action is one of these steps. -/
theorem step_cases (fires : self.step capacity action = some (next, out)) :
    self.Step capacity action out next := by
  cases action with
  | dropReceiver =>
      simp only [step, Option.ite_none_right_eq_some, Option.some.injEq, Prod.mk.injEq] at fires
      obtain ⟨alive, rfl, rfl⟩ := fires
      exact .dropReceiver alive
  | turn action =>
      simp only [step] at fires
      split at fires
      · cases fires
      · next working =>
          have working : action.ofDrain = true → self.drainReturned = false := by
            intro drains
            simpa [drains] using working
          split at fires
          · next closed =>
              simp only [Bool.and_eq_true, Bool.not_eq_true'] at closed
              cases action with
              | trySend =>
                  simp only [sendClosed] at fires
                  split at fires
                  · next offering =>
                      cases fires
                      exact .reject closed.2 offering
                  · cases fires
              | send =>
                  simp only [sendClosed] at fires
                  split at fires
                  · next sending =>
                      cases fires
                      exact .drainReturns closed.2 (working rfl) sending
                  · cases fires
              | _ => cases fires
          · next usable =>
              obtain ⟨⟨ingress, events⟩, turns, same⟩ := Option.map_eq_some_iff.mp fires
              cases same
              refine .turn turns ?_ working
              intro uses
              simpa [uses] using usable

/-- A step keeps the mode and the tasks together. -/
theorem Step.coherent (step : self.Step capacity action out next)
    (coherent : self.ingress.Coherent) : next.ingress.Coherent := by
  cases step with
  | turn fires usable working => exact (AutomatedIngress.step_cases fires).coherent coherent
  | reject closed offering =>
      exact ⟨coherent.keyed, coherent.normal, coherent.overloaded, fun direct => direct.elim⟩
  | drainReturns closed working sending => exact coherent
  | dropReceiver alive =>
      exact ⟨coherent.keyed, coherent.normal, coherent.overloaded, coherent.direct⟩

/-- The mode and the tasks stay together in every run. -/
theorem coherent {admits : List Event → ClosableIngress → Action → Prop} {actions : List Action}
    {events : List Event} (run : (machine capacity).Run admits new actions events self) :
    self.ingress.Coherent :=
  run.invariant (fun reached => reached.ingress.Coherent) AutomatedIngress.new_coherent
    (fun before _ fires => (step_cases fires).coherent before)

/-- No later call returns `Ok`, and each that is not rejected yet can only be rejected. -/
def Rejects (capacity : Nat) (self : ClosableIngress) : Prop :=
  ∀ actions events final, (machine capacity).Run Machine.Every self actions events final →
    ∀ front status rest, events = front ++ .ingress (.submitted status) :: rest →
      (∀ other, .ingress (.returned other) ∉ rest) ∧
        (.rejected status ∈ rest ∨ final.ingress.caller = .entering status ∨
          final.ingress.caller = .offering status)

/-- The receiver is gone and the ingress is in the normal mode for good. -/
structure Refusing (left : ClosableIngress) : Prop where
  closed : left.receiverAlive = false
  settled : left.Settled
  normal : left.ingress.overloadState.overloadMode = false
  direct : ∀ status, left.ingress.caller ≠ .retaining status

/-- What such an ingress does. -/
inductive Refuses (self : ClosableIngress) : List Event → ClosableIngress → Prop where
  | call {status} (idle : self.ingress.caller = .idle) :
      Refuses self [.ingress (.submitted status)]
        { self with ingress := { self.ingress with caller := .entering status } }
  | pass {status} (entering : self.ingress.caller = .entering status) :
      Refuses self [] { self with ingress := { self.ingress with caller := .offering status } }
  | reject {status} (offering : self.ingress.caller = .offering status) :
      Refuses self [.rejected status]
        { self with ingress := { self.ingress with caller := .idle } }

theorem Refusing.step (refusing : self.Refusing) (step : self.Step capacity action out next) :
    self.Refuses out next := by
  have resting : self.drainReturned = false →
      self.ingress.drain = .waiting ∧ self.ingress.overloadNotify = false := by
    intro working
    rcases refusing.settled with returned | resting
    · rw [working] at returned
      cases returned
    · exact resting
  cases step with
  | @turn action ingress events fires usable working =>
      cases action with
      | call status =>
          simp only [AutomatedIngress.step] at fires
          split at fires
          · next idle =>
              cases fires
              exact .call idle
          · cases fires
      | readMode =>
          simp only [AutomatedIngress.step, AutomatedIngress.readMode] at fires
          split at fires
          · next entering =>
              rw [refusing.normal] at fires
              cases fires
              exact .pass entering
          · cases fires
      | retain =>
          simp only [AutomatedIngress.step, AutomatedIngress.retain] at fires
          split at fires
          · next retaining => exact absurd retaining (refusing.direct _)
          · cases fires
      | notified =>
          obtain ⟨_, unset⟩ := resting (working rfl)
          simp [AutomatedIngress.step, AutomatedIngress.notified, unset] at fires
      | popFront =>
          obtain ⟨waiting, _⟩ := resting (working rfl)
          simp [AutomatedIngress.step, AutomatedIngress.popFront, waiting] at fires
      | trySend | send | receive =>
          have alive := usable rfl
          rw [refusing.closed] at alive
          cases alive
  | reject closed offering => exact .reject offering
  | @drainReturns status closed working sending =>
      obtain ⟨waiting, _⟩ := resting working
      rw [sending] at waiting
      cases waiting
  | dropReceiver alive =>
      rw [refusing.closed] at alive
      cases alive

theorem Refuses.refusing (refuses : self.Refuses out next) (refusing : self.Refusing) :
    next.Refusing := by
  cases refuses with
  | call idle => exact ⟨refusing.closed, refusing.settled, refusing.normal, by simp⟩
  | pass entering => exact ⟨refusing.closed, refusing.settled, refusing.normal, by simp⟩
  | reject offering => exact ⟨refusing.closed, refusing.settled, refusing.normal, by simp⟩

/-- What the events of refusing ingress say about the calls. -/
structure Refused (events : List Event) (reached : ClosableIngress) : Prop where
  refusing : reached.Refusing
  unreturned : ∀ other, .ingress (.returned other) ∉ events
  rejected : ∀ front status rest, events = front ++ .ingress (.submitted status) :: rest →
    .rejected status ∈ rest ∨ reached.ingress.caller = .entering status ∨
      reached.ingress.caller = .offering status

theorem Refused.step {events : List Event} (refused : Refused events self)
    (step : self.Step capacity action out next) : Refused (events ++ out) next := by
  have refuses := refused.refusing.step step
  refine ⟨refuses.refusing refused.refusing, ?_, ?_⟩
  · intro other
    apply List.not_mem_append (refused.unreturned other)
    cases refuses <;> simp
  · intro front status rest split
    rcases split_append split with ⟨earlier, before, rfl⟩ | ⟨early, _, fresh⟩
    · -- The call was submitted before this step.
      have standing := refused.rejected front status earlier before
      cases refuses with
      | call idle =>
          rcases standing with rejected | entering | offering
          · exact .inl (List.mem_append_left _ rejected)
          · rw [idle] at entering
            cases entering
          · rw [idle] at offering
            cases offering
      | pass here =>
          rcases standing with rejected | entering | offering
          · exact .inl (List.mem_append_left _ rejected)
          · rw [here] at entering
            obtain rfl := Caller.entering.inj entering
            exact .inr (.inr rfl)
          · rw [here] at offering
            cases offering
      | reject here =>
          rcases standing with rejected | entering | offering
          · exact .inl (List.mem_append_left _ rejected)
          · rw [here] at entering
            cases entering
          · rw [here] at offering
            obtain rfl := Caller.offering.inj offering
            exact .inl (List.mem_append_right _ (List.mem_singleton_self _))
    · -- The step submits it.
      cases refuses with
      | @call submitted idle =>
          obtain ⟨_, same⟩ := split_singleton fresh
          cases same
          exact .inr (.inl rfl)
      | pass => simp at fresh
      | reject =>
          obtain ⟨_, same⟩ := split_singleton fresh
          cases same

/-- A refusing ingress rejects every later call. -/
theorem Refusing.rejects (refusing : self.Refusing) (capacity : Nat) : Rejects capacity self := by
  intro actions events final run front status rest split
  have refused := run.history Refused
    ⟨refusing, by simp, by simp⟩ (fun before _ fires => before.step (step_cases fires))
  refine ⟨?_, refused.rejected front status rest split⟩
  intro other member
  apply refused.unreturned other
  rw [split]
  exact List.mem_append_right _ (List.mem_cons_of_mem _ member)

/-- A call in the overload mode returns `Ok`. -/
theorem not_rejects_of_overloaded {actions : List Action} {events : List Event}
    {start : ClosableIngress} (run : (machine capacity).Run Machine.Every start actions events self)
    (overloaded : self.ingress.overloadState.overloadMode = true)
    (idle : self.ingress.caller = .idle) : ¬ Rejects capacity start := by
  intro rejects
  have called : (machine capacity).step self (.turn (.call .default)) =
      some ({ self with ingress := { self.ingress with caller := .entering .default } },
        [.ingress (.submitted .default)]) := by
    simp [machine, step, AutomatedIngress.Action.ofDrain, AutomatedIngress.Action.usesReceiver,
      AutomatedIngress.step, idle]
  have merged : (machine capacity).step
      { self with ingress := { self.ingress with caller := .entering .default } }
      (.turn .readMode) = some ({ self with ingress :=
        ({ self.ingress with caller := .entering .default } : AutomatedIngress).keep .default },
        [.ingress (.returned .default)]) := by
    simp [machine, step, AutomatedIngress.Action.ofDrain, AutomatedIngress.Action.usesReceiver,
      AutomatedIngress.step, AutomatedIngress.readMode, overloaded]
  have longer := (run.snoc trivial called).snoc trivial merged
  obtain ⟨unreturned, _⟩ := rejects _ _ _ longer events .default
    [.ingress (.returned .default)] (by simp)
  exact unreturned .default (List.mem_singleton_self _)

/-- Once the receiver is gone and the drain task has nothing more to do, every later call
returns its status as an error exactly if the ingress is in the normal mode and no call has
found the queue full and not retained its status yet. -/
theorem later_calls_rejected_iff {actions : List Action} {events : List Event}
    (run : (machine capacity).Run Machine.Every new actions events self)
    (closed : self.receiverAlive = false) (settled : self.Settled) :
    Rejects capacity self ↔ self.ingress.overloadState.overloadMode = false ∧
      ∀ status, self.ingress.caller ≠ .retaining status := by
  constructor
  · intro rejects
    have direct : ∀ status, self.ingress.caller ≠ .retaining status := by
      intro status retaining
      have retained : (machine capacity).step self (.turn .retain) = some ({ self with ingress :=
          { self.ingress.keep status with
            overloadState := { (self.ingress.keep status).overloadState with overloadMode := true }
            overloadNotify := true } }, [.ingress (.returned status)]) := by
        simp [machine, step, AutomatedIngress.Action.ofDrain, AutomatedIngress.Action.usesReceiver,
          AutomatedIngress.step, AutomatedIngress.retain, retaining]
      exact not_rejects_of_overloaded (Machine.Run.refl.snoc trivial retained) rfl rfl rejects
    refine ⟨Bool.eq_false_iff.mpr fun overloaded => ?_, direct⟩
    cases caller : self.ingress.caller with
    | idle => exact not_rejects_of_overloaded .refl overloaded caller rejects
    | entering status =>
        have merged : (machine capacity).step self (.turn .readMode) =
            some ({ self with ingress := self.ingress.keep status },
              [.ingress (.returned status)]) := by
          simp [machine, step, AutomatedIngress.Action.ofDrain,
            AutomatedIngress.Action.usesReceiver, AutomatedIngress.step, AutomatedIngress.readMode,
            caller, overloaded]
        exact not_rejects_of_overloaded (Machine.Run.refl.snoc trivial merged) overloaded rfl
          rejects
    | offering status =>
        have normal := (coherent run).direct (by rw [caller]; trivial)
        rw [overloaded] at normal
        cases normal
    | retaining status => exact direct status caller
  · rintro ⟨normal, direct⟩
    exact Refusing.rejects ⟨closed, settled, normal, direct⟩ capacity

/-- A computed run whose end passes a check. -/
theorem run_of_check (capacity : Nat) (actions : List Action)
    (check : ClosableIngress → List Event → Bool)
    (passes : (((machine capacity).exec (fun _ _ => true) new actions).any
      fun (final, events) => check final events) = true) :
    ∃ final events, (machine capacity).Run Machine.Every new actions events final ∧
      check final events = true :=
  Machine.run_of_check (fun _ _ _ _ => trivial) _ _ _ passes

end ClosableIngress

end

section

attribute [local instance] asciiPlatform

namespace ClosableIngress

/-- The receiver is dropped in the normal mode: every later call is rejected. -/
theorem later_calls_rejected_normal :
    ∃ (ingress : ClosableIngress) (events : List Event),
      (machine 1).Run Machine.Every new [.dropReceiver] events ingress ∧
        ingress.receiverAlive = false ∧ Rejects 1 ingress := by
  obtain ⟨final, events, run, check⟩ := run_of_check 1 [.dropReceiver] (fun final _ =>
    !final.receiverAlive && decide (final.ingress = .new)) (by decide)
  simp only [Bool.and_eq_true, Bool.not_eq_true', decide_eq_true_eq] at check
  obtain ⟨closed, same⟩ := check
  refine ⟨final, events, run, closed, (later_calls_rejected_iff run closed ?_).mpr ?_⟩
  · exact .inr (by rw [same]; exact ⟨rfl, rfl⟩)
  · rw [same]
    exact ⟨rfl, by simp [AutomatedIngress.new]⟩

/-- A report of the pump finds the queue full and is retained; the drain task takes it out, and
the coordinator stops while it waits for room. -/
def stoppedInOverload : List Action :=
  [.turn (.call (beam.report .alarmed .high)), .turn .readMode, .turn .trySend,
    .turn (.call (pump.report .alarmed .high)), .turn .readMode, .turn .trySend, .turn .retain,
    .turn .notified, .turn .popFront, .dropReceiver, .turn .send]

/-- A later report of the pump, up to its return. -/
def laterCall : List Action := [.turn (.call (pump.report .ok .unknown)), .turn .readMode]

/-- The later call is submitted and returns `Ok`. -/
def losesCall (stopped : ClosableIngress) : Bool :=
  ((machine 1).exec (fun _ _ => true) stopped laterCall).any fun reached =>
    decide (reached.2 = [.ingress (.submitted (pump.report .ok .unknown)),
      .ingress (.returned (pump.report .ok .unknown))])

/-- The drain task has returned, and the later report returns `Ok`. -/
theorem later_call_lost :
    ∃ (stopped final : ClosableIngress) (events more : List Event),
      (machine 1).Run Machine.Every new stoppedInOverload events stopped ∧
      stopped.receiverAlive = false ∧ stopped.drainReturned = true ∧
      stopped.ingress.caller = .idle ∧
      (machine 1).Run Machine.Every stopped laterCall more final ∧
      more = [.ingress (.submitted (pump.report .ok .unknown)),
        .ingress (.returned (pump.report .ok .unknown))] := by
  obtain ⟨stopped, events, run, check⟩ := run_of_check 1 stoppedInOverload
    (fun stopped _ => !stopped.receiverAlive && stopped.drainReturned &&
      decide (stopped.ingress.caller = .idle) && stopped.losesCall) (by decide)
  simp only [Bool.and_eq_true, Bool.not_eq_true', decide_eq_true_eq] at check
  obtain ⟨⟨⟨closed, returned⟩, idle⟩, loses⟩ := check
  obtain ⟨⟨final, more⟩, computed, same⟩ := (Option.any_eq_true _ _).mp loses
  have later : (machine 1).Run Machine.Every stopped ([] ++ laterCall) ([] ++ more) final :=
    Machine.run_of_exec (fun _ _ _ _ => trivial) .refl computed
  exact ⟨stopped, final, events, more, run, closed, returned, idle, later, of_decide_eq_true same⟩

end ClosableIngress

end

end AcornAlarms
