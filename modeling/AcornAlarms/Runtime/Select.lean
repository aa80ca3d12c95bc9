import AcornAlarms.Runtime.Service

/-!
# The coordinator's biased `select!`

The service with its coordinator polling: a `select!` polls the job outcomes, then the user
channel, then the automated channel, and takes the first message it finds. The other tasks go on
between two polls, so a message may arrive on a channel that was just found empty.
-/

namespace AcornAlarms

open Library

/-- The branches of the coordinator's `select!`, in the order in which it polls them. -/
inductive Branch where
  | jobPort
  | userRx
  | automatedRx
deriving DecidableEq

/-- The branch polled after one that has no message. After the last the task waits, and begins
with the first when it is woken. -/
def Branch.next : Branch → Branch
  | .jobPort => .userRx
  | .userRx => .automatedRx
  | .automatedRx => .jobPort

section

variable [Platform]

/-- The coordinator's turn on a branch. -/
def Branch.turn (now : Int) : Branch → Service.Action
  | .jobPort => .turn (.jobOutcome now)
  | .userRx => .takeUser now
  | .automatedRx => .takeAutomated now

/-- The service and the branch its coordinator polls next. -/
structure Selecting where
  service : Service
  branch : Branch

namespace Selecting

inductive Action where
  /-- The coordinator polls a branch. -/
  | poll (now : Int)
  /-- A step of anything but the coordinator. -/
  | other (action : Service.Action)

/-- `runtime::start` and no call yet. -/
def start (hydratedStatuses : FiniteMap Key Status) : Selecting :=
  ⟨.start hydratedStatuses, .jobPort⟩

/-- Whether the coordinator is at its `select!`, and not inside a send or out of its loop. -/
def polls (self : Selecting) : Bool :=
  self.service.runtime.tasks.coordinatorRunning &&
    (self.service.runtime.pending.sending .coordinator).isNone

/-- Whether the branch polled next has no message. -/
def empty (self : Selecting) : Bool :=
  match self.branch with
  | .jobPort => self.service.runtime.tasks.jobOutcomes.isEmpty
  | .userRx => self.service.users.queue.isEmpty
  | .automatedRx => self.service.automated.queue.isEmpty

/-- A poll goes on to the next branch, or takes a message, after which the loop begins again. -/
def poll (self : Selecting) (config : QueueCapacityConfig) (now : Int) :
    Option (Selecting × List Service.Event) :=
  if self.polls then
    if self.empty then some ({ self with branch := self.branch.next }, [])
    else
      (self.service.step config (self.branch.turn now)).map fun (service, out) =>
        (⟨service, .jobPort⟩, out)
  else none

/-- A turn of the coordinator. -/
def coordinates : Service.Action → Bool
  | .takeUser _ | .takeAutomated _ | .turn (.jobOutcome _) => true
  | _ => false

def step (config : QueueCapacityConfig) (self : Selecting) :
    Action → Option (Selecting × List Service.Event)
  | .poll now => self.poll config now
  | .other action =>
      if coordinates action then none
      else
        (self.service.step config action).map fun (service, out) =>
          ({ self with service }, out)

def machine (config : QueueCapacityConfig) : Machine Selecting Action Service.Event :=
  ⟨step config⟩

/-- What each step took and what it left. -/
inductive Step (config : QueueCapacityConfig) (self : Selecting) :
    Action → List Service.Event → Selecting → Prop where
  | skip {now} (polls : self.polls = true) (empty : self.empty = true) :
      Step config self (.poll now) [] { self with branch := self.branch.next }
  | take {now service out} (polls : self.polls = true) (held : self.empty = false)
      (takes : self.service.step config (self.branch.turn now) = some (service, out)) :
      Step config self (.poll now) out ⟨service, .jobPort⟩
  | other {action service out} (others : coordinates action = false)
      (steps : self.service.step config action = some (service, out)) :
      Step config self (.other action) out { self with service }

variable {config : QueueCapacityConfig} {self next : Selecting} {action : Action}
  {out : List Service.Event}

/-- A step is one of these. -/
theorem step_cases (fires : self.step config action = some (next, out)) :
    self.Step config action out next := by
  cases action with
  | poll now =>
      simp only [step, poll, Option.ite_none_right_eq_some] at fires
      obtain ⟨polls, fires⟩ := fires
      split at fires
      · next empty =>
          cases fires
          exact .skip polls empty
      · next held =>
          obtain ⟨⟨service, events⟩, takes, same⟩ := Option.map_eq_some_iff.mp fires
          cases same
          exact .take polls (Bool.eq_false_iff.mpr held) takes
  | other action =>
      simp only [step, Option.ite_none_left_eq_some, Bool.not_eq_true] at fires
      obtain ⟨others, fires⟩ := fires
      obtain ⟨⟨service, events⟩, steps, same⟩ := Option.map_eq_some_iff.mp fires
      cases same
      exact .other others steps

/-- A computed run whose end passes a check. -/
theorem run_of_check (config : QueueCapacityConfig) (actions : List Action)
    (check : Selecting → List Service.Event → Bool)
    (passes : (((machine config).exec (fun _ _ => true) (start .empty) actions).any
      fun (final, events) => check final events) = true) :
    ∃ final events, (machine config).Run Machine.Every (start .empty) actions events final ∧
      check final events = true :=
  Machine.run_of_check (fun _ _ _ _ => trivial) _ _ _ passes

end Selecting

end

end AcornAlarms
