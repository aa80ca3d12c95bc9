import AcornAlarms.Effects.Snooze
import AcornAlarms.Library.Machine

/-!
# The loop of the snooze scheduler

The task takes commands and elapsed timers in any order, counts what it does and reports every
outcome. It stops when an outcome can no longer be delivered.
-/

namespace AcornAlarms

open Library

/-- A call that counts something of the scheduler. -/
inductive SnoozeRecord where
  | set
  | cancel
  | invalidWake
  | expiration
deriving DecidableEq

/-- The counters of the scheduler and the gauge of its timers. -/
structure SnoozeMetrics where
  snoozeSets : UInt64
  snoozeCancels : UInt64
  snoozeInvalidWakes : UInt64
  snoozeExpirations : UInt64
  inFlightSnoozeTimers : UInt64
deriving DecidableEq

namespace SnoozeMetrics

def new : SnoozeMetrics := ⟨0, 0, 0, 0, 0⟩

def recordSnoozeSet (self : SnoozeMetrics) : SnoozeMetrics :=
  { self with
    snoozeSets := self.snoozeSets + 1
    inFlightSnoozeTimers := self.inFlightSnoozeTimers + 1 }

def recordSnoozeCancel (self : SnoozeMetrics) : SnoozeMetrics :=
  { self with
    snoozeCancels := self.snoozeCancels + 1
    inFlightSnoozeTimers := self.inFlightSnoozeTimers - 1 }

def recordSnoozeInvalidWake (self : SnoozeMetrics) : SnoozeMetrics :=
  { self with snoozeInvalidWakes := self.snoozeInvalidWakes + 1 }

def recordSnoozeExpiration (self : SnoozeMetrics) : SnoozeMetrics :=
  { self with
    snoozeExpirations := self.snoozeExpirations + 1
    inFlightSnoozeTimers := self.inFlightSnoozeTimers - 1 }

def record (self : SnoozeMetrics) : SnoozeRecord → SnoozeMetrics
  | .set => self.recordSnoozeSet
  | .cancel => self.recordSnoozeCancel
  | .invalidWake => self.recordSnoozeInvalidWake
  | .expiration => self.recordSnoozeExpiration

end SnoozeMetrics

section

variable [Platform]

/-- What `handle_snooze_input` counts, in the branch it takes. -/
def SnoozeScheduler.records (self : SnoozeScheduler) (clock : Clock) (input : SnoozeInput) :
    List SnoozeRecord :=
  match Snooze.from input with
  | .set key wake =>
      match timestampSecsToInstant clock wake with
      -- A replacement takes one timer out and puts one in, and counts as neither.
      | some _ => if self.registry.contains key then [] else [.set]
      | none => [.invalidWake]
  | .cancel key => if self.registry.contains key then [.cancel] else []

/-- The task between two iterations. -/
structure SnoozeLoop where
  /-- Commands in `snooze_rx`, oldest first. -/
  commands : List SnoozeInput
  scheduler : SnoozeScheduler
  metrics : SnoozeMetrics
  /-- The workflow handler still receives outcomes. -/
  outcomesOpen : Bool
  running : Bool
  panicked : Option String

namespace SnoozeLoop

inductive Action where
  /-- The workflow handler sends a command. -/
  | send (input : SnoozeInput)
  /-- The task takes the oldest command. -/
  | receive (clock : Clock)
  /-- The delay queue yields the timer of a slot. -/
  | fire (clock : Clock) (slot : Nat)
  /-- The workflow handler drops its end of the outcome channel. -/
  | dropOutcomes

inductive Event where
  | sent (input : SnoozeInput)
  | received (clock : Clock) (input : SnoozeInput)
  | recorded (record : SnoozeRecord)
  /-- The task sent an outcome, which fails if nobody receives outcomes any more. -/
  | outcome (outcome : SnoozeOutcome) (delivered : Bool)
deriving DecidableEq

def new : SnoozeLoop := ⟨[], .new, .new, true, true, none⟩

/-- The rest of an iteration that counted something and sends an outcome. -/
def finish (self : SnoozeLoop) (scheduler : SnoozeScheduler) (records : List SnoozeRecord)
    (outcome : SnoozeOutcome) : SnoozeLoop × List Event :=
  ({ self with
      scheduler
      metrics := records.foldl SnoozeMetrics.record self.metrics
      running := self.outcomesOpen },
    records.map .recorded ++ [.outcome outcome self.outcomesOpen])

def step (self : SnoozeLoop) : Action → Option (SnoozeLoop × List Event)
  | .send input =>
      if self.running then
        some ({ self with commands := self.commands ++ [input] }, [.sent input])
      else none
  | .receive clock =>
      match self.running, self.commands with
      | true, input :: rest =>
          let self := { self with commands := rest }
          match self.scheduler.handleSnoozeInput clock input with
          | .ok (scheduler, outcome) =>
              let (next, out) := self.finish scheduler (self.scheduler.records clock input) outcome
              some (next, .received clock input :: out)
          | .error message =>
              some ({ self with running := false, panicked := some message },
                [.received clock input])
      | _, _ => none
  | .fire clock slot =>
      if self.running then
        (self.scheduler.expire clock slot).map fun (scheduler, key) =>
          self.finish scheduler [.expiration] (.expired key)
      else none
  | .dropOutcomes => some ({ self with outcomesOpen := false }, [])

def machine : Machine SnoozeLoop Action Event where
  step := step

/-- A computed run whose end passes a check. -/
theorem run_of_check (actions : List Action) (check : SnoozeLoop → List Event → Bool)
    (passes : ((machine.exec (fun _ _ => true) new actions).any
      fun (final, events) => check final events) = true) :
    ∃ final events, machine.Run Machine.Every new actions events final ∧
      check final events = true :=
  Machine.run_of_check (fun _ _ _ _ => trivial) _ _ _ passes

end SnoozeLoop

end

end AcornAlarms
