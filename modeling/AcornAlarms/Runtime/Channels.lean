import AcornAlarms.Library.Projection
import AcornAlarms.Runtime.Pipeline

/-!
# Bounded channels

The tasks are joined by channels of bounded capacity. A send on a full channel waits
until the receiver takes a message, and a task that waits takes none itself.

A handler reads nothing but its own state, so the messages of a turn are fixed when the
turn begins. `Runtime` is a pipeline whose lists hold what the channels have accepted,
with the messages the tasks have yet to send: a task takes its next message only when
it has sent everything, and the channels accept the messages of a task one by one.
-/

namespace AcornAlarms

open Library

/-- Configured queue capacities. An outcome channel has the capacity of its pair. -/
structure QueueCapacityConfig where
  automated : Nat
  user : Nat
  job : Nat
  publish : Nat
  snooze : Nat

namespace QueueCapacityConfig

/-- Every capacity is positive, as the channels require. -/
def Positive (config : QueueCapacityConfig) : Prop :=
  0 < config.automated ∧ 0 < config.user ∧ 0 < config.job ∧ 0 < config.publish ∧
    0 < config.snooze

instance (config : QueueCapacityConfig) : Decidable config.Positive :=
  inferInstanceAs (Decidable (_ ∧ _))

end QueueCapacityConfig

/-- The tasks that `runtime::start` spawns. -/
inductive Task where
  | coordinator
  | handler
  | scheduler
  | engine
deriving DecidableEq

/-- The channels between the tasks, by their receiver's queue. -/
inductive Channel where
  | job
  | jobOutcome
  | publish
  | publishOutcome
  | snooze
  | snoozeOutcome
deriving DecidableEq

def QueueCapacityConfig.capacity (config : QueueCapacityConfig) : Channel → Nat
  | .job | .jobOutcome => config.job
  | .publish | .publishOutcome => config.publish
  | .snooze | .snoozeOutcome => config.snooze

variable [Platform]

/-- The task whose turn an action is. -/
def Action.task : Action → Task
  | .input _ _ | .jobOutcome _ => .coordinator
  | .publishOutcome | .snoozeOutcome | .job => .handler
  | .snoozeInput _ | .expiry _ _ => .scheduler
  | .completion _ _ | .flush | .publish => .engine

def WorkflowSend.channel : WorkflowSend → Channel
  | .outcome _ => .jobOutcome
  | .publish _ => .publish
  | .snooze _ => .snooze

namespace Sent

/-- The messages of two turns, task by task. -/
def append (first later : Sent) : Sent where
  jobs := first.jobs ++ later.jobs
  work := first.work ++ later.work
  snoozeOutcomes := first.snoozeOutcomes ++ later.snoozeOutcomes
  publishOutcomes := first.publishOutcomes ++ later.publishOutcomes

/-- The channel a task is sending on. -/
def sending (sent : Sent) : Task → Option Channel
  | .coordinator => sent.jobs.head?.map fun _ => .job
  | .handler => sent.work.head?.map WorkflowSend.channel
  | .scheduler => sent.snoozeOutcomes.head?.map fun _ => .snoozeOutcome
  | .engine => sent.publishOutcomes.head?.map fun _ => .publishOutcome

/-- The message a task is sending. -/
def first (sent : Sent) : Task → Sent
  | .coordinator => .byCoordinator (sent.jobs.take 1)
  | .handler => .byHandler (sent.work.take 1)
  | .scheduler => .byScheduler (sent.snoozeOutcomes.take 1)
  | .engine => .byEngine (sent.publishOutcomes.take 1)

/-- What is left to send after that message. -/
def rest (sent : Sent) : Task → Sent
  | .coordinator => { sent with jobs := sent.jobs.drop 1 }
  | .handler => { sent with work := sent.work.drop 1 }
  | .scheduler => { sent with snoozeOutcomes := sent.snoozeOutcomes.drop 1 }
  | .engine => { sent with publishOutcomes := sent.publishOutcomes.drop 1 }

end Sent

/-- How many messages a channel holds. -/
def Pipeline.queued (self : Pipeline) : Channel → Nat
  | .job => self.jobs.length
  | .jobOutcome => self.jobOutcomes.length
  | .publish => self.publishes.length
  | .publishOutcome => self.publishOutcomes.length
  | .snooze => self.snoozeInputs.length
  | .snoozeOutcome => self.snoozeOutcomes.length

structure Runtime where
  tasks : Pipeline
  pending : Sent

inductive RuntimeAction where
  /-- A task with nothing left to send takes its turn. -/
  | turn (action : Action)
  /-- A channel with room accepts the message a task is sending. -/
  | accept (task : Task)

namespace Runtime

/-- All tasks started, all channels empty and nothing to send. -/
def start (hydratedStatuses : FiniteMap Key Status) : Runtime :=
  ⟨.start hydratedStatuses, .none⟩

/-- The pipeline whose channels hold the messages still to be sent as well. -/
def flatten (self : Runtime) : Pipeline := self.tasks.deliver self.pending

def step (config : QueueCapacityConfig) (self : Runtime) :
    RuntimeAction → Option (Runtime × List Event)
  | .turn action =>
      if self.pending.sending action.task = none then
        (self.tasks.handle action).map fun (tasks, sent, events) =>
          (⟨tasks, self.pending.append sent⟩, events)
      else none
  | .accept task =>
      match self.pending.sending task with
      | some channel =>
          if self.tasks.queued channel < config.capacity channel then
            some (⟨self.tasks.deliver (self.pending.first task), self.pending.rest task⟩, [])
          else none
      | none => none

def machine (config : QueueCapacityConfig) : Machine Runtime RuntimeAction Event :=
  ⟨step config⟩

/-- A task waits inside a send on a full channel. -/
def Blocked (config : QueueCapacityConfig) (self : Runtime) (task : Task) (channel : Channel) :
    Prop :=
  self.pending.sending task = some channel ∧ config.capacity channel ≤ self.tasks.queued channel

instance (config : QueueCapacityConfig) (self : Runtime) (task : Task) (channel : Channel) :
    Decidable (self.Blocked config task channel) :=
  inferInstanceAs (Decidable (_ ∧ _))

/-- Whether the channels a biased `select!` polls first are empty. -/
def prioritized (self : Runtime) : RuntimeAction → Bool
  | .turn action => self.tasks.prioritized action
  | .accept _ => true

/-- Every turn takes from the first channel that has a message. -/
def Prioritized : List Event → Runtime → RuntimeAction → Prop :=
  fun _ self action => self.prioritized action = true

/-- A computed run of allowed steps from the start whose end passes a check. -/
theorem run_of_check (config : QueueCapacityConfig) (allowed : Runtime → RuntimeAction → Bool)
    (actions : List RuntimeAction) (check : Runtime → List Event → Bool)
    (passes : (((machine config).exec allowed (start .empty) actions).any
      fun (final, events) => check final events) = true) :
    ∃ final events, (machine config).Run (fun _ self action => allowed self action = true)
      (start .empty) actions events final ∧ check final events = true :=
  Machine.run_of_check (fun _ _ _ admitted => admitted) _ _ _ passes

end Runtime

namespace Pipeline

variable {self : Pipeline} {held : Sent}

theorem deliver_append (first later : Sent) :
    self.deliver (first.append later) = (self.deliver first).deliver later := by
  simp [deliver, Sent.append, List.append_assoc]

variable (self) (held)

theorem coordinate_deliver (handled : Handled) : (self.deliver held).coordinate handled =
    ((self.coordinate handled).1.deliver held, (self.coordinate handled).2) := by
  unfold coordinate
  split <;> rfl

theorem work_deliver (result : Except String Worked) : (self.deliver held).work result =
    ((self.work result).1.deliver held, (self.work result).2) := by
  cases result <;> rfl

theorem schedule_deliver (input : SnoozeInput)
    (result : Except String (SnoozeScheduler × SnoozeOutcome)) :
    (self.deliver held).schedule input result =
      ((self.schedule input result).1.deliver held, (self.schedule input result).2) := by
  rcases result with message | ⟨scheduler, outcome⟩ <;> rfl

variable {self} {held}

/-- A turn is the same when more messages wait behind those it may take. -/
theorem Turn.deliver {action : Action} {turn : Pipeline × Sent × List Event}
    (taken : self.Turn action turn) (held : Sent) :
    (self.deliver held).Turn action (turn.1.deliver held, turn.2) := by
  cases taken with
  | input running =>
      rw [← coordinate_deliver]
      exact .input running
  | jobOutcome queue running =>
      rw [← coordinate_deliver]
      exact .jobOutcome (congrArg (· ++ held.work.filterMap WorkflowSend.outcome?) queue) running
  | publishOutcome queue running =>
      rw [← work_deliver]
      exact .publishOutcome (congrArg (· ++ held.publishOutcomes) queue) running
  | snoozeOutcome queue running =>
      rw [← work_deliver]
      exact .snoozeOutcome (congrArg (· ++ held.snoozeOutcomes) queue) running
  | job queue running =>
      rw [← work_deliver]
      exact .job (congrArg (· ++ held.jobs) queue) running
  | snoozeInput queue running =>
      rw [← schedule_deliver]
      exact .snoozeInput (congrArg (· ++ held.work.filterMap WorkflowSend.snooze?) queue) running
  | expiry running expires => exact .expiry running expires
  | completion returns => exact .completion returns
  | flush ticks => exact .flush ticks
  | publish queue =>
      exact .publish (congrArg (· ++ held.work.filterMap WorkflowSend.publish?) queue)

/-- Delivering the message a task is sending and then the rest delivers them all. -/
theorem deliver_first (task : Task) :
    (self.deliver (held.first task)).deliver (held.rest task) = self.deliver held := by
  obtain ⟨jobs, work, snoozes, publishes⟩ := held
  cases task with
  | coordinator =>
      cases jobs <;> simp [deliver, Sent.first, Sent.rest, Sent.byCoordinator, Sent.none]
  | handler =>
      cases work with
      | nil => simp [deliver, Sent.first, Sent.rest, Sent.byHandler, Sent.none]
      | cons message rest =>
          cases message <;>
            simp [deliver, Sent.first, Sent.rest, Sent.byHandler, Sent.none, List.filterMap_cons,
              WorkflowSend.outcome?, WorkflowSend.publish?, WorkflowSend.snooze?]
  | scheduler =>
      cases snoozes <;> simp [deliver, Sent.first, Sent.rest, Sent.byScheduler, Sent.none]
  | engine =>
      cases publishes <;> simp [deliver, Sent.first, Sent.rest, Sent.byEngine, Sent.none]

end Pipeline

namespace Runtime

variable {config : QueueCapacityConfig} {self next : Runtime} {out : List Event}

@[simp] theorem flatten_start (hydratedStatuses : FiniteMap Key Status) :
    (start hydratedStatuses).flatten = .start hydratedStatuses := rfl

/-- A turn is the same turn of the flattened pipeline, and accepting a message does not
change it. -/
theorem flatten_step {action : RuntimeAction} (fires : self.step config action = some (next, out)) :
    (∃ turn, action = .turn turn ∧ self.flatten.step turn = some (next.flatten, out)) ∨
      ((∃ task, action = .accept task) ∧ next.flatten = self.flatten ∧ out = []) := by
  cases action with
  | turn turn =>
      refine .inl ⟨turn, rfl, ?_⟩
      simp only [step] at fires
      split at fires
      · obtain ⟨turned, handles, same⟩ := Option.map_eq_some_iff.mp fires
        cases same
        have longer := (Pipeline.turn_of_handle handles).deliver self.pending
        rw [Pipeline.step, flatten, longer.handle_eq, flatten, Pipeline.deliver_append]
        rfl
      · cases fires
  | accept task =>
      refine .inr ⟨⟨task, rfl⟩, ?_⟩
      simp only [step] at fires
      split at fires
      · split at fires
        · cases fires
          exact ⟨Pipeline.deliver_first task, rfl⟩
        · cases fires
      · cases fires

/-- What the tasks did, whatever the channels have accepted of it. -/
def pipelinePart (config : QueueCapacityConfig) :
    Machine.Part (machine config) Pipeline.machine where
  state := flatten
  turn := fun _ action =>
    match action with
    | .turn action => some action
    | .accept _ => none
  report := some
  idle := by
    intro self action next out fires none
    rcases flatten_step fires with ⟨turn, rfl, _⟩ | ⟨_, same, rfl⟩
    · cases none
    · exact ⟨same, rfl⟩
  moves := by
    intro self action next out taken fires takes
    rw [List.filterMap_some]
    rcases flatten_step fires with ⟨turn, rfl, turns⟩ | ⟨⟨task, rfl⟩, _⟩
    · obtain rfl := Option.some.inj takes
      exact turns
    · cases takes

end Runtime

end AcornAlarms
