import AcornAlarms.Effects.PublishLoop
import AcornAlarms.Effects.SnoozeLoop
import AcornAlarms.Library.Select

/-!
# The effect workers and their `select!` loops

`run_publish_engine` and `run_snooze_scheduler` with the channel each takes its requests from.
The workflow handler may drop its sender; a receiver whose queue is drained then yields `None`,
which the pattern of its branch refuses.
-/

namespace AcornAlarms

open Library

section

variable [Platform]

/-- The publish engine and its request channel. -/
structure PublishWorker where
  loop : PublishLoop
  /-- Requests in `publish_rx`, oldest first. -/
  publishes : List Publish
  /-- The workflow handler still holds the sender. -/
  senderAlive : Bool
deriving DecidableEq

namespace PublishWorker

/-- The branches of the loop of `run_publish_engine`. -/
inductive Branch where
  | inFlight
  | flushInterval
  | publish
deriving DecidableEq

inductive Action where
  /-- The workflow handler sends a request. -/
  | send (publish : Publish)
  | dropSender
  /-- `in_flight.next()` yields the attempt at a place. -/
  | complete (index : Nat) (delivered : Bool)
  | tick
  | receive

def new : PublishWorker := ⟨.new, [], true⟩

/-- A turn of the engine itself. -/
def follow (self : PublishWorker) (action : PublishLoop.Action) :
    Option (PublishWorker × List PublishLoop.Event) :=
  (self.loop.step action).map fun reached => ({ self with loop := reached.1 }, reached.2)

def step (self : PublishWorker) : Action → Option (PublishWorker × List PublishLoop.Event)
  | .send publish =>
      if self.senderAlive then some ({ self with publishes := self.publishes ++ [publish] }, [])
      else none
  | .dropSender => some ({ self with senderAlive := false }, [])
  | .complete index delivered => self.follow (.complete index delivered)
  | .tick => self.follow .tick
  | .receive =>
      match self.publishes with
      | publish :: rest => { self with publishes := rest }.follow (.receive publish)
      | [] => none

def branchOf : Action → Option Branch
  | .complete _ _ => some .inFlight
  | .tick => some .flushInterval
  | .receive => some .publish
  | .send _ | .dropSender => none

def precondition (self : PublishWorker) : Branch → Bool
  | .inFlight => !self.loop.engine.inFlight.isEmpty
  | .flushInterval | .publish => true

/-- The workflow handler dropped its sender and the request queue is drained. -/
def inputGone (self : PublishWorker) : Bool := !self.senderAlive && self.publishes.isEmpty

def unmatched (self : PublishWorker) : Branch → Bool
  | .publish => self.inputGone
  -- The tick matches any value, and attempts in flight yield one after another.
  | .flushInterval | .inFlight => false

/-- The loop of `run_publish_engine`; its handlers never leave it. -/
def select : Select PublishWorker Action PublishLoop.Event Branch where
  body := ⟨step⟩
  branchOf := branchOf
  branches := [.inFlight, .flushInterval, .publish]
  precondition := precondition
  unmatched := unmatched
  left _ := false

variable {self next : PublishWorker} {actions : List Action} {events out : List PublishLoop.Event}

theorem follow_cases {action : PublishLoop.Action}
    (follows : self.follow action = some (next, out)) :
    ∃ loop, PublishLoop.machine.step self.loop action = some (loop, out) ∧
      next = { self with loop } := by
  obtain ⟨⟨loop, events⟩, acts, same⟩ := Option.map_eq_some_iff.mp follows
  cases same
  exact ⟨loop, acts, rfl⟩

/-- A worker takes the turns of its engine. -/
theorem loop_run (run : select.body.Run Machine.Every new actions events self) :
    ∃ turns, PublishLoop.machine.Run Machine.Every .new turns events self.loop := by
  induction run with
  | refl => exact ⟨[], .refl⟩
  | @snoc _ _ state action _ _ _ _ fires ih =>
      obtain ⟨turns, prior⟩ := ih
      cases action with
      | send publish =>
          obtain ⟨_, same⟩ := Option.ite_none_right_eq_some.mp fires
          cases same
          exact ⟨turns, by simpa using prior⟩
      | dropSender =>
          cases fires
          exact ⟨turns, by simpa using prior⟩
      | complete | tick =>
          obtain ⟨loop, acts, rfl⟩ := follow_cases fires
          exact ⟨_, prior.snoc trivial acts⟩
      | receive =>
          simp only [select, step] at fires
          split at fires
          · obtain ⟨loop, acts, rfl⟩ := follow_cases fires
            exact ⟨_, prior.snoc trivial acts⟩
          · cases fires

end PublishWorker

/-- The snooze scheduler and its command channel. -/
structure SnoozeWorker where
  loop : SnoozeLoop
  /-- The workflow handler still holds the sender. -/
  senderAlive : Bool

namespace SnoozeWorker

/-- The branches of the loop of `run_snooze_scheduler`. -/
inductive Branch where
  | snoozeInput
  | delayQueue
deriving DecidableEq

inductive Action where
  /-- The workflow handler sends a command. -/
  | send (input : SnoozeInput)
  | dropSender
  | dropOutcomes
  | receive (clock : Clock)
  /-- `delay_queue.next()` yields the entry of a slot. -/
  | fire (clock : Clock) (slot : Nat)

def new : SnoozeWorker := ⟨.new, true⟩

/-- A turn of the scheduler itself. -/
def follow (self : SnoozeWorker) (action : SnoozeLoop.Action) :
    Option (SnoozeWorker × List SnoozeLoop.Event) :=
  (self.loop.step action).map fun reached => ({ self with loop := reached.1 }, reached.2)

def step (self : SnoozeWorker) : Action → Option (SnoozeWorker × List SnoozeLoop.Event)
  | .send input => if self.senderAlive then self.follow (.send input) else none
  | .dropSender => some ({ self with senderAlive := false }, [])
  | .dropOutcomes => self.follow .dropOutcomes
  | .receive clock => self.follow (.receive clock)
  | .fire clock slot => self.follow (.fire clock slot)

def branchOf : Action → Option Branch
  | .receive _ => some .snoozeInput
  | .fire _ _ => some .delayQueue
  | .send _ | .dropSender | .dropOutcomes => none

/-- The entries of the delay queue, by slot. -/
def entries (self : SnoozeWorker) : FiniteMap Nat (Key × Nat) :=
  self.loop.scheduler.delayQueue.entries

def precondition (self : SnoozeWorker) : Branch → Bool
  | .snoozeInput => true
  | .delayQueue => !self.entries.keys.isEmpty

/-- The workflow handler dropped its sender and the command queue is drained. -/
def inputGone (self : SnoozeWorker) : Bool := !self.senderAlive && self.loop.commands.isEmpty

def unmatched (self : SnoozeWorker) : Branch → Bool
  | .snoozeInput => self.inputGone
  -- A delay queue with an entry yields one.
  | .delayQueue => false

/-- The loop of `run_snooze_scheduler`, left as well when an outcome cannot be sent. -/
def select : Select SnoozeWorker Action SnoozeLoop.Event Branch where
  body := ⟨step⟩
  branchOf := branchOf
  branches := [.snoozeInput, .delayQueue]
  precondition := precondition
  unmatched := unmatched
  left self := !self.loop.running

variable {self next : SnoozeWorker} {out : List SnoozeLoop.Event}

theorem follow_cases {action : SnoozeLoop.Action}
    (follows : self.follow action = some (next, out)) :
    ∃ loop, self.loop.step action = some (loop, out) ∧ next = { self with loop } := by
  obtain ⟨⟨loop, events⟩, acts, same⟩ := Option.map_eq_some_iff.mp follows
  cases same
  exact ⟨loop, acts, rfl⟩

end SnoozeWorker

end

end AcornAlarms
