import AcornAlarms.Engine.Workflow
import AcornAlarms.Library.Machine

/-!
# The loop of the workflow handler

Jobs arrive, the scheduler and the publish engine answer in any order, and timers expire at any
time. Jobs are numbered as they arrive. Replies name only a key, so what the handler sends is
of the latest job of that key; the numbers tell which job a reply was meant for.
-/

namespace AcornAlarms

open Library

section

variable [Platform]

/-- The handler, with the commands and requests that still have to be answered. -/
structure WorkflowLoop where
  handler : WorkflowHandler
  /-- The number of the next job. -/
  jobs : Nat
  /-- The latest job of each key. -/
  latest : FiniteMap Key Nat
  /-- The snooze commands without an answer, by job. -/
  commands : FiniteMap Nat SnoozeInput
  /-- The publish requests without a result, by job. -/
  publishes : FiniteMap Nat Publish
  panicked : Bool
deriving DecidableEq

namespace WorkflowLoop

/-- The messages the handler receives; `ports` says which of its own receivers are alive then. -/
inductive Action where
  | job (ports : WorkflowPorts) (job : Job)
  /-- The scheduler's answer to the command of a job. -/
  | answer (ports : WorkflowPorts) (number : Nat) (accepted : Bool)
  /-- The result of the publish request of a job, by itself or as the next one of a batch. -/
  | result (ports : WorkflowPorts) (number : Nat) (delivered : Bool)
  | expired (ports : WorkflowPorts) (key : Key)

inductive Event where
  | arrived (number : Nat) (job : Job)
  | commanded (number : Nat) (input : SnoozeInput)
  | answered (number : Nat) (accepted : Bool)
  | published (number : Nat) (publish : Publish)
  | returned (number : Nat) (delivered : Bool)
  | reported (number : Nat) (outcome : JobOutcome)
  | woke (key : Key)
  /-- "Overran workflow steps!" -/
  | overran (key : Key)
  | panicked (message : String)
deriving DecidableEq

def new : WorkflowLoop := ⟨.new, 0, .empty, .empty, .empty, false⟩

/-- A message the handler sends, as one of the latest job of its key. -/
def send (self : WorkflowLoop) : WorkflowSend → WorkflowLoop × List Event
  | .snooze input =>
      match self.latest.get? input.key with
      | some number => ({ self with commands := self.commands.insert number input },
          [.commanded number input])
      | none => (self, [])
  | .publish publish =>
      match self.latest.get? publish.detailsRef.key with
      | some number => ({ self with publishes := self.publishes.insert number publish },
          [.published number publish])
      | none => (self, [])
  | .outcome (.wake key) => (self, [.woke key])
  | .outcome (.committed job) =>
      (self, ((self.latest.get? job.key).map fun number =>
        .reported number (.committed job)).toList)
  | .outcome (.failed job) =>
      (self, ((self.latest.get? job.key).map fun number => .reported number (.failed job)).toList)

def sendAll (self : WorkflowLoop) : List WorkflowSend → WorkflowLoop × List Event
  | [] => (self, [])
  | message :: rest =>
      let (next, first) := self.send message
      let (final, later) := next.sendAll rest
      (final, first ++ later)

/-- What a handler function leaves behind. -/
def finish (self : WorkflowLoop) : Except String Worked → WorkflowLoop × List Event
  | .ok worked =>
      let (next, out) := { self with handler := worked.handler }.sendAll worked.sends
      (next, worked.overran.map .overran ++ out)
  | .error message => ({ self with panicked := true }, [.panicked message])

/-- One iteration of the loop. -/
def receive (self : WorkflowLoop) : Action → Option (WorkflowLoop × List Event)
  | .job ports job =>
      let received := { self with
        jobs := self.jobs + 1
        latest := self.latest.insert job.key self.jobs }
      let (next, out) := received.finish (self.handler.handleNewJob ports job)
      some (next, .arrived self.jobs job :: out)
  | .answer ports number accepted =>
      (self.commands.get? number).map fun input =>
        let answered := { self with commands := self.commands.erase number }
        let outcome := if accepted then SnoozeOutcome.accepted input.key else .invalidWake input.key
        let (next, out) := answered.finish (self.handler.handleSnoozeResult ports outcome)
        (next, .answered number accepted :: out)
  | .result ports number delivered =>
      (self.publishes.get? number).map fun publish =>
        let returned := { self with publishes := self.publishes.erase number }
        let result := .of delivered publish.detailsRef.key
        let (next, out) := returned.finish (self.handler.dispatchPublishResult ports result)
        (next, .returned number delivered :: out)
  | .expired ports key =>
      some (self.finish (self.handler.handleSnoozeResult ports (.expired key)))

/-- A task that panicked receives nothing. -/
def step (self : WorkflowLoop) (action : Action) : Option (WorkflowLoop × List Event) :=
  if self.panicked then none else self.receive action

def machine : Machine WorkflowLoop Action Event where
  step := step

/-- A computed run whose end passes a check. -/
theorem run_of_check (admits : List Event → WorkflowLoop → Action → Prop)
    (allowed : WorkflowLoop → Action → Bool)
    (sound : ∀ past loop action, allowed loop action = true → admits past loop action)
    (actions : List Action) (check : WorkflowLoop → List Event → Bool)
    (passes : ((machine.exec allowed new actions).any
      fun (final, events) => check final events) = true) :
    ∃ final events, machine.Run admits new actions events final ∧ check final events = true :=
  Machine.run_of_check sound _ _ _ passes

end WorkflowLoop

end

end AcornAlarms
