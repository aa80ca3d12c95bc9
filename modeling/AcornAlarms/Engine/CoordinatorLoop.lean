import AcornAlarms.Engine.Coordinator
import AcornAlarms.Library.Machine

/-!
# The coordinator loop

`AlarmStateCoordinator::start` with the queues it selects from. Of the workflow handler it
keeps what the loop can see: the jobs handed to it, which it reports in any order and with any
result, the timers it forwards, and that it may stop.
-/

namespace AcornAlarms

open Library

variable [Platform]

def allChannelsDropped : String := "All channels dropped"

structure CoordinatorLoop where
  coordinator : AlarmStateCoordinator
  running : Bool
  jobPort : JobPort
  /-- The jobs handed to the workflow handler and not reported yet. -/
  outstanding : List Job
  jobOutcomes : List JobOutcome

namespace CoordinatorLoop

inductive Action where
  /-- The loop takes a message from the user queue or the automated queue. -/
  | message (message : DomainInput) (now : Int)
  /-- The loop takes a job outcome. -/
  | jobOutcome (now : Int)
  /-- The loop finds every channel closed and drained. -/
  | channelsDropped
  /-- The workflow handler reports one of its jobs. -/
  | report (index : Nat) (ok : Bool)
  /-- The workflow handler forwards an elapsed timer. -/
  | wake (key : Key)
  /-- The workflow handler stops and drops its ends of both queues. -/
  | workflowStops

/-- The loop before its first iteration. -/
def start (hydratedStatuses : FiniteMap Key Status) : CoordinatorLoop where
  coordinator := .new hydratedStatuses
  running := true
  jobPort := ⟨true⟩
  outstanding := []
  jobOutcomes := []

/-- The branch of the `select!` an iteration takes. A closed channel only disables its
branch. -/
def select (self : CoordinatorLoop) : Action → Option (CoordinatorLoop × Handled)
  | .message message now => some (self, self.coordinator.handleMessage self.jobPort now message)
  | .jobOutcome now =>
      match self.jobOutcomes with
      | outcome :: rest =>
          some ({ self with jobOutcomes := rest },
            self.coordinator.reconcileJobOutcome self.jobPort now outcome)
      | [] => none
  | .channelsDropped =>
      if self.jobPort.workflowRunning = false ∧ self.jobOutcomes = [] then
        some (self, ⟨self.coordinator, [], [], some allChannelsDropped⟩)
      else none
  | _ => none

/-- The end of an iteration: an error ends the loop and fails every pending confirmation. -/
def finish (self : CoordinatorLoop) (handled : Handled) : CoordinatorLoop × List Event :=
  match handled.failure with
  | none =>
      ({ self with
          coordinator := handled.coordinator
          outstanding := self.outstanding ++ handled.jobs }, handled.events)
  | some cause =>
      let (coordinator, failed) := handled.coordinator.failAllConfirmations
      ({ self with coordinator, running := false }, handled.events ++ .unrecoverable cause :: failed)

/-- One iteration of the loop, or one turn of the workflow handler. -/
def step (self : CoordinatorLoop) : Action → Option (CoordinatorLoop × List Event)
  | .report index ok =>
      if self.jobPort.workflowRunning then
        self.outstanding[index]?.map fun job =>
          ({ self with
              outstanding := self.outstanding.eraseIdx index
              jobOutcomes := self.jobOutcomes ++ [job.outcome ok] }, [])
      else none
  | .wake key =>
      if self.jobPort.workflowRunning then
        some ({ self with jobOutcomes := self.jobOutcomes ++ [.wake key] }, [])
      else none
  | .workflowStops => some ({ self with jobPort := ⟨false⟩ }, [])
  | action =>
      if self.running then
        (self.select action).map fun (self, handled) => self.finish handled
      else none

def machine : Machine CoordinatorLoop Action Event := ⟨step⟩

/-- What a step does: an iteration ends with what its handler left, and the workflow handler
touches its queues only. -/
inductive Turn (self : CoordinatorLoop) : Action → CoordinatorLoop × List Event → Prop where
  | iteration {action taken handled} (running : self.running = true)
      (selects : self.select action = some (taken, handled)) :
      Turn self action (taken.finish handled)
  | report {index ok job} (running : self.jobPort.workflowRunning = true)
      (held : self.outstanding[index]? = some job) :
      Turn self (.report index ok)
        ({ self with
            outstanding := self.outstanding.eraseIdx index
            jobOutcomes := self.jobOutcomes ++ [job.outcome ok] }, [])
  | wake {key} (running : self.jobPort.workflowRunning = true) :
      Turn self (.wake key) ({ self with jobOutcomes := self.jobOutcomes ++ [.wake key] }, [])
  | workflowStops : Turn self .workflowStops ({ self with jobPort := ⟨false⟩ }, [])

/-- A step is one of these. -/
theorem turn_of_step {self next : CoordinatorLoop} {action : Action} {out : List Event}
    (fires : self.step action = some (next, out)) :
    ∃ turn, self.Turn action turn ∧ next = turn.1 ∧ out = turn.2 := by
  cases action with
  | report index ok =>
      simp only [step, Option.ite_none_right_eq_some, Option.map_eq_some_iff] at fires
      obtain ⟨running, job, held, same⟩ := fires
      cases same
      exact ⟨_, .report running held, rfl, rfl⟩
  | wake key =>
      simp only [step, Option.ite_none_right_eq_some, Option.some.injEq] at fires
      obtain ⟨running, same⟩ := fires
      cases same
      exact ⟨_, .wake running, rfl, rfl⟩
  | workflowStops =>
      simp only [step, Option.some.injEq] at fires
      cases fires
      exact ⟨_, .workflowStops, rfl, rfl⟩
  | message | jobOutcome | channelsDropped =>
      simp only [step, Option.ite_none_right_eq_some, Option.map_eq_some_iff] at fires
      obtain ⟨running, ⟨taken, handled⟩, selects, same⟩ := fires
      exact ⟨_, .iteration running selects, by rw [same], by rw [same]⟩

/-- A computed run whose end passes a check. -/
theorem run_of_check (hydratedStatuses : FiniteMap Key Status) (actions : List Action)
    (check : CoordinatorLoop → List Event → Bool)
    (passes : ((machine.exec (fun _ _ => true) (start hydratedStatuses) actions).any
      fun (final, events) => check final events) = true) :
    ∃ final events, machine.Run Machine.Every (start hydratedStatuses) actions events final ∧
      check final events = true :=
  Machine.run_of_check (fun _ _ _ _ => trivial) _ _ _ passes

end CoordinatorLoop

end AcornAlarms
