import AcornAlarms.Effects.Publish
import AcornAlarms.Effects.Snooze
import AcornAlarms.Engine.Coordinator
import AcornAlarms.Library.Machine

/-!
# The pipeline

The coordinator, the workflow handler, the snooze scheduler and the publish
engine joined by FIFO channels. An action is one turn of a task: it takes a
message (or an input from outside, a timer, a returning publish attempt), runs the
handler to its end and sends what the handler sends.

`handle` is the turn without the sends, `deliver` appends the sends to their
channels, and `step` is both. A task that stopped takes no more messages, and
sends to it fail.
-/

namespace AcornAlarms

open Library

variable [Platform]

structure Pipeline where
  coordinator : AlarmStateCoordinator
  handler : WorkflowHandler
  scheduler : SnoozeScheduler
  engine : PublishEngine
  coordinatorRunning : Bool
  handlerRunning : Bool
  schedulerRunning : Bool
  jobs : List Job
  jobOutcomes : List JobOutcome
  snoozeInputs : List SnoozeInput
  snoozeOutcomes : List SnoozeOutcome
  publishes : List Publish
  publishOutcomes : List PublishOutcome
deriving DecidableEq

/-- One turn of a task. Clock readings are part of the action that takes them. -/
inductive Action where
  /-- The coordinator takes a message from one of its ingress channels. -/
  | input (message : DomainInput) (now : Int)
  /-- The coordinator takes a job outcome. -/
  | jobOutcome (now : Int)
  /-- The workflow handler takes a publish outcome. -/
  | publishOutcome
  /-- The workflow handler takes a snooze outcome. -/
  | snoozeOutcome
  /-- The workflow handler takes a job. -/
  | job
  /-- The scheduler takes a command. -/
  | snoozeInput (clock : Clock)
  /-- The scheduler's delay queue yields a slot. -/
  | expiry (clock : Clock) (slot : Nat)
  /-- A publish attempt returns to the engine. -/
  | completion (index : Nat) (delivered : Bool)
  /-- The engine's flush tick finds completed work. -/
  | flush
  /-- The engine takes a request. -/
  | publish

/-- The messages a turn sends, by sending task. -/
structure Sent where
  jobs : List Job
  work : List WorkflowSend
  snoozeOutcomes : List SnoozeOutcome
  publishOutcomes : List PublishOutcome

namespace Sent

def none : Sent := ⟨[], [], [], []⟩
def byCoordinator (jobs : List Job) : Sent := { none with jobs }
def byHandler (work : List WorkflowSend) : Sent := { none with work }
def byScheduler (snoozeOutcomes : List SnoozeOutcome) : Sent := { none with snoozeOutcomes }
def byEngine (publishOutcomes : List PublishOutcome) : Sent := { none with publishOutcomes }

end Sent

namespace WorkflowSend

def outcome? : WorkflowSend → Option JobOutcome
  | .outcome message => some message
  | _ => none

def publish? : WorkflowSend → Option Publish
  | .publish message => some message
  | _ => none

def snooze? : WorkflowSend → Option SnoozeInput
  | .snooze message => some message
  | _ => none

end WorkflowSend

namespace Pipeline

/-- All tasks started and all channels empty, with the hydrated statuses confirmed. -/
def start (hydratedStatuses : FiniteMap Key Status) : Pipeline where
  coordinator := .new hydratedStatuses
  handler := .new
  scheduler := .new
  engine := .new
  coordinatorRunning := true
  handlerRunning := true
  schedulerRunning := true
  jobs := []
  jobOutcomes := []
  snoozeInputs := []
  snoozeOutcomes := []
  publishes := []
  publishOutcomes := []

/-- Append the sends of a turn to their channels. -/
def deliver (self : Pipeline) (sent : Sent) : Pipeline :=
  { self with
    jobs := self.jobs ++ sent.jobs
    jobOutcomes := self.jobOutcomes ++ sent.work.filterMap WorkflowSend.outcome?
    snoozeInputs := self.snoozeInputs ++ sent.work.filterMap WorkflowSend.snooze?
    publishes := self.publishes ++ sent.work.filterMap WorkflowSend.publish?
    snoozeOutcomes := self.snoozeOutcomes ++ sent.snoozeOutcomes
    publishOutcomes := self.publishOutcomes ++ sent.publishOutcomes }

def jobPort (self : Pipeline) : JobPort := ⟨self.handlerRunning⟩

def workflowPorts (self : Pipeline) : WorkflowPorts where
  coordinator := self.coordinatorRunning
  publish := true
  snooze := self.schedulerRunning

/-- The end of the coordinator's turn: an error ends the loop and fails every
pending confirmation. -/
def coordinate (self : Pipeline) (handled : Handled) : Pipeline × Sent × List Event :=
  match handled.failure with
  | none =>
      ({ self with coordinator := handled.coordinator }, .byCoordinator handled.jobs,
        handled.events)
  | some cause =>
      let (coordinator, failed) := handled.coordinator.failAllConfirmations
      ({ self with coordinator, coordinatorRunning := false }, .byCoordinator handled.jobs,
        handled.events ++ .unrecoverable cause :: failed)

/-- The end of the workflow handler's turn: a panic ends the task. -/
def work (self : Pipeline) : Except String Worked → Pipeline × Sent × List Event
  | .ok worked =>
      ({ self with handler := worked.handler }, .byHandler worked.sends,
        worked.overran.map .overran)
  | .error message => ({ self with handlerRunning := false }, .none, [.panicked message])

/-- The end of the scheduler's turn on a command. -/
def schedule (self : Pipeline) (input : SnoozeInput) :
    Except String (SnoozeScheduler × SnoozeOutcome) → Pipeline × Sent × List Event
  | .ok (scheduler, outcome) =>
      ({ self with scheduler }, .byScheduler [outcome],
        [.answered input.key input.wake (outcome = .accepted input.key)])
  | .error message => ({ self with schedulerRunning := false }, .none, [.panicked message])

/-- One turn of a task, its sends not yet delivered; `none` when it has nothing to take. -/
def handle (self : Pipeline) : Action → Option (Pipeline × Sent × List Event)
  | .input message now =>
      if self.coordinatorRunning then
        some (self.coordinate (self.coordinator.handleMessage self.jobPort now message))
      else none
  | .jobOutcome now =>
      match self.jobOutcomes with
      | outcome :: rest =>
          if self.coordinatorRunning then
            some ({ self with jobOutcomes := rest }.coordinate
              (self.coordinator.reconcileJobOutcome self.jobPort now outcome))
          else none
      | [] => none
  | .publishOutcome =>
      match self.publishOutcomes with
      | outcome :: rest =>
          if self.handlerRunning then
            some ({ self with publishOutcomes := rest }.work
              (self.handler.handlePublishOutcome self.workflowPorts outcome))
          else none
      | [] => none
  | .snoozeOutcome =>
      match self.snoozeOutcomes with
      | outcome :: rest =>
          if self.handlerRunning then
            some ({ self with snoozeOutcomes := rest }.work
              (self.handler.handleSnoozeResult self.workflowPorts outcome))
          else none
      | [] => none
  | .job =>
      match self.jobs with
      | job :: rest =>
          if self.handlerRunning then
            some ({ self with jobs := rest }.work
              (self.handler.handleNewJob self.workflowPorts job))
          else none
      | [] => none
  | .snoozeInput clock =>
      match self.snoozeInputs with
      | input :: rest =>
          if self.schedulerRunning then
            some ({ self with snoozeInputs := rest }.schedule input
              (self.scheduler.handleSnoozeInput clock input))
          else none
      | [] => none
  | .expiry clock slot =>
      if self.schedulerRunning then
        (self.scheduler.expire clock slot).map fun (scheduler, key) =>
          ({ self with scheduler }, .byScheduler [.expired key], [.expired key])
      else none
  | .completion index delivered =>
      (self.engine.complete index delivered).map fun (attempt, engine, outcomes) =>
        let details := attempt.detailsRef
        ({ self with engine }, .byEngine outcomes,
          [.published details.key details.status delivered])
  | .flush =>
      self.engine.tick.map fun (engine, outcomes) =>
        ({ self with engine }, .byEngine outcomes, [])
  | .publish =>
      match self.publishes with
      | publish :: rest =>
          some ({ self with publishes := rest, engine := self.engine.receive publish }, .none, [])
      | [] => none

/-- One turn of a task with its sends. -/
def step (self : Pipeline) (action : Action) : Option (Pipeline × List Event) :=
  (self.handle action).map fun (next, sent, events) => (next.deliver sent, events)

/-- What each turn took, what it needed and what it left. -/
inductive Turn (self : Pipeline) : Action → Pipeline × Sent × List Event → Prop where
  | input {message now} (running : self.coordinatorRunning = true) :
      Turn self (.input message now)
        (self.coordinate (self.coordinator.handleMessage self.jobPort now message))
  | jobOutcome {now outcome rest} (queue : self.jobOutcomes = outcome :: rest)
      (running : self.coordinatorRunning = true) :
      Turn self (.jobOutcome now) ({ self with jobOutcomes := rest }.coordinate
        (self.coordinator.reconcileJobOutcome self.jobPort now outcome))
  | publishOutcome {outcome rest} (queue : self.publishOutcomes = outcome :: rest)
      (running : self.handlerRunning = true) :
      Turn self .publishOutcome ({ self with publishOutcomes := rest }.work
        (self.handler.handlePublishOutcome self.workflowPorts outcome))
  | snoozeOutcome {outcome rest} (queue : self.snoozeOutcomes = outcome :: rest)
      (running : self.handlerRunning = true) :
      Turn self .snoozeOutcome ({ self with snoozeOutcomes := rest }.work
        (self.handler.handleSnoozeResult self.workflowPorts outcome))
  | job {job rest} (queue : self.jobs = job :: rest) (running : self.handlerRunning = true) :
      Turn self .job ({ self with jobs := rest }.work
        (self.handler.handleNewJob self.workflowPorts job))
  | snoozeInput {clock input rest} (queue : self.snoozeInputs = input :: rest)
      (running : self.schedulerRunning = true) :
      Turn self (.snoozeInput clock) ({ self with snoozeInputs := rest }.schedule input
        (self.scheduler.handleSnoozeInput clock input))
  | expiry {clock slot scheduler key} (running : self.schedulerRunning = true)
      (expires : self.scheduler.expire clock slot = some (scheduler, key)) :
      Turn self (.expiry clock slot)
        ({ self with scheduler }, .byScheduler [.expired key], [.expired key])
  | completion {index delivered attempt engine outcomes}
      (returns : self.engine.complete index delivered = some (attempt, engine, outcomes)) :
      Turn self (.completion index delivered) ({ self with engine }, .byEngine outcomes,
        [.published attempt.detailsRef.key attempt.detailsRef.status delivered])
  | flush {engine outcomes} (ticks : self.engine.tick = some (engine, outcomes)) :
      Turn self .flush ({ self with engine }, .byEngine outcomes, [])
  | publish {publish rest} (queue : self.publishes = publish :: rest) :
      Turn self .publish
        ({ self with publishes := rest, engine := self.engine.receive publish }, .none, [])

section

variable {self next : Pipeline} {action : Action} {out : List Event}

theorem Turn.handle_eq {turn : Pipeline × Sent × List Event} (taken : self.Turn action turn) :
    self.handle action = some turn := by
  cases taken <;> simp [handle, *]

/-- A turn is one of these. -/
theorem turn_of_handle {turn : Pipeline × Sent × List Event}
    (handles : self.handle action = some turn) : self.Turn action turn := by
  cases action with
  | input message now =>
      simp only [handle, Option.ite_none_right_eq_some, Option.some.injEq] at handles
      obtain ⟨running, rfl⟩ := handles
      exact .input running
  | jobOutcome now | publishOutcome | snoozeOutcome | job | snoozeInput clock =>
      simp only [handle] at handles
      split at handles
      · next queue =>
          simp only [Option.ite_none_right_eq_some, Option.some.injEq] at handles
          obtain ⟨running, rfl⟩ := handles
          constructor <;> assumption
      · cases handles
  | expiry clock slot =>
      simp only [handle, Option.ite_none_right_eq_some, Option.map_eq_some_iff] at handles
      obtain ⟨running, ⟨scheduler, key⟩, expires, rfl⟩ := handles
      exact .expiry running expires
  | completion index delivered =>
      simp only [handle, Option.map_eq_some_iff] at handles
      obtain ⟨⟨attempt, engine, outcomes⟩, returns, rfl⟩ := handles
      exact .completion returns
  | flush =>
      simp only [handle, Option.map_eq_some_iff] at handles
      obtain ⟨⟨engine, outcomes⟩, ticks, rfl⟩ := handles
      exact .flush ticks
  | publish =>
      simp only [handle] at handles
      split at handles
      · next queue =>
          cases handles
          exact .publish queue
      · cases handles

/-- A step delivers what its turn sent. -/
theorem turn_of_step (fires : self.step action = some (next, out)) :
    ∃ turn, self.Turn action turn ∧ next = turn.1.deliver turn.2.1 ∧ out = turn.2.2 := by
  obtain ⟨turn, handles, same⟩ := Option.map_eq_some_iff.mp fires
  cases same
  exact ⟨turn, turn_of_handle handles, rfl, rfl⟩

end

def machine : Machine Pipeline Action Event := ⟨step⟩

/-- Whether every channel a biased `select!` polls before the one this action takes
from is empty. A message may also arrive on an earlier channel after it was
polled, so `step` does not ask for this. -/
def prioritized (self : Pipeline) : Action → Bool
  | .input _ _ => self.jobOutcomes.isEmpty
  | .snoozeOutcome => self.publishOutcomes.isEmpty
  | .job => self.publishOutcomes.isEmpty && self.snoozeOutcomes.isEmpty
  | _ => true

/-- The turns that bring the only job under way from the job queue to the engine. -/
def carry (clock : Clock) : List Action := [.job, .snoozeInput clock, .snoozeOutcome, .publish]

/-- The turns in which every attempt to publish the only job under way, a user job, fails and
the failure is reconciled. -/
def giveUp : List Action :=
  [.completion 0 false, .completion 0 false, .publishOutcome, .jobOutcome 0]

/-- The turns in which the only job under way, an automated job, is published and
reconciled. -/
def commit : List Action := [.completion 0 true, .flush, .publishOutcome, .jobOutcome 0]

/-- Every turn takes from the first channel that has a message. -/
def Prioritized : List Event → Pipeline → Action → Prop :=
  fun _ self action => self.prioritized action = true

/-- A computed prioritized run whose end passes a check. -/
theorem prioritized_of_check (state : Pipeline) (actions : List Action)
    (check : Pipeline → List Event → Bool)
    (passes : ((machine.exec prioritized state actions).any
      fun (final, events) => check final events) = true) :
    ∃ final events, machine.Run Prioritized state actions events final ∧
      check final events = true :=
  Machine.run_of_check (fun _ _ _ allowed => allowed) _ _ _ passes

/-- The same from the start. -/
theorem run_of_check (hydratedStatuses : FiniteMap Key Status) (actions : List Action)
    (check : Pipeline → List Event → Bool)
    (passes : ((machine.exec prioritized (start hydratedStatuses) actions).any
      fun (final, events) => check final events) = true) :
    ∃ final events, machine.Run Prioritized (start hydratedStatuses) actions events final ∧
      check final events = true :=
  prioritized_of_check _ _ _ passes

end Pipeline

end AcornAlarms
