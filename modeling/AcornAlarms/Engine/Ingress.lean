import AcornAlarms.Library.History
import AcornAlarms.Library.Machine
import AcornAlarms.Library.RingMap
import AcornAlarms.Model.Key

/-!
# The automated ingress

One caller of `send_automated_update` and the task of `run_overload_drain_loop` share
the coordinator's queue, the overload state behind a lock, and a notification that
stores one permit. Each action runs one task to its next lock or queue operation; a
section under the lock awaits nothing and is one action. The receiver stays alive.
-/

namespace AcornAlarms

open Library

section

variable [Platform]

/-- What the lock guards. -/
structure OverloadState where
  overloadMode : Bool
  pending : RingMap Key Status
deriving DecidableEq

/-- Where a call of `send_automated_update` stands. -/
inductive Caller where
  | idle
  /-- Before the first lock. -/
  | entering (status : Status)
  /-- The mode was read as normal and the lock is released. -/
  | offering (status : Status)
  /-- `try_send` found the queue full; before the second lock. -/
  | retaining (status : Status)
deriving DecidableEq, Repr

/-- The status of the call under way. -/
def Caller.status? : Caller → Option Status
  | .idle => none
  | .entering status => some status
  | .offering status => some status
  | .retaining status => some status

/-- The call goes on outside the overload mode. -/
def Caller.Direct : Caller → Prop
  | .offering _ => True
  | .retaining _ => True
  | _ => False

/-- Where `run_overload_drain_loop` stands. -/
inductive DrainTask where
  /-- Awaiting `notified`. -/
  | waiting
  /-- In the inner loop, before its lock. -/
  | draining
  /-- In the inner loop, awaiting room in the queue. -/
  | sending (status : Status)
deriving DecidableEq, Repr

/-- The retained status the drain task took out and has not sent. -/
def DrainTask.status? : DrainTask → Option Status
  | .sending status => some status
  | _ => none

/-- The shared state and where both tasks stand. -/
structure AutomatedIngress where
  queue : List Status
  /-- The permit `notify_one` stores. -/
  overloadNotify : Bool
  overloadState : OverloadState
  caller : Caller
  drain : DrainTask
deriving DecidableEq

namespace AutomatedIngress

/-- What one task does next. -/
inductive Action where
  | call (status : Status)
  | readMode
  | trySend
  | retain
  | notified
  | popFront
  | send
  | receive

/-- What becomes of a status. -/
inductive Event where
  | submitted (status : Status)
  | returned (status : Status)
  | delivered (status : Status)
  | received (status : Status)
deriving DecidableEq, Repr

/-- `AutomatedIngressHandle::new`. -/
def new : AutomatedIngress where
  queue := []
  overloadNotify := false
  overloadState := { overloadMode := false, pending := .empty }
  caller := .idle
  drain := .waiting

/-- Keep the latest status of a key and end the call. -/
def keep (self : AutomatedIngress) (status : Status) : AutomatedIngress :=
  { self with
    overloadState :=
      { self.overloadState with
        pending := self.overloadState.pending.insert (Key.from status) status }
    caller := .idle }

/-- The first lock of `send_automated_update`. -/
def readMode (self : AutomatedIngress) : Option (AutomatedIngress × List Event) :=
  match self.caller with
  | .entering status =>
      if self.overloadState.overloadMode then some (self.keep status, [.returned status])
      else some ({ self with caller := .offering status }, [])
  | _ => none

/-- The direct send of `send_automated_update`. -/
def trySend (self : AutomatedIngress) (capacity : Nat) : Option (AutomatedIngress × List Event) :=
  match self.caller with
  | .offering status =>
      if self.queue.length < capacity then
        some ({ self with queue := self.queue ++ [status], caller := .idle },
          [.delivered status, .returned status])
      else some ({ self with caller := .retaining status }, [])
  | _ => none

/-- The second lock of `send_automated_update` and its `notify_one`. -/
def retain (self : AutomatedIngress) : Option (AutomatedIngress × List Event) :=
  match self.caller with
  | .retaining status =>
      let kept := self.keep status
      some ({ kept with
        overloadState := { kept.overloadState with overloadMode := true }
        overloadNotify := true }, [.returned status])
  | _ => none

/-- The drain task consumes the permit. -/
def notified (self : AutomatedIngress) : Option (AutomatedIngress × List Event) :=
  if self.drain = .waiting ∧ self.overloadNotify = true then
    some ({ self with drain := .draining, overloadNotify := false }, [])
  else none

/-- The lock of the inner loop: the oldest retained status, or the end of the overload. -/
def popFront (self : AutomatedIngress) : Option (AutomatedIngress × List Event) :=
  if self.drain = .draining then
    match self.overloadState.pending.popFront with
    | some ((_, status), rest) =>
        some ({ self with
          overloadState := { self.overloadState with pending := rest }
          drain := .sending status }, [])
    | none =>
        some ({ self with
          overloadState := { self.overloadState with overloadMode := false }
          drain := .waiting }, [])
  else none

/-- The drain task's send, once there is room. -/
def send (self : AutomatedIngress) (capacity : Nat) : Option (AutomatedIngress × List Event) :=
  match self.drain with
  | .sending status =>
      if self.queue.length < capacity then
        some ({ self with queue := self.queue ++ [status], drain := .draining },
          [.delivered status])
      else none
  | _ => none

/-- The coordinator takes the oldest status. -/
def receive (self : AutomatedIngress) : Option (AutomatedIngress × List Event) :=
  match self.queue with
  | status :: rest => some ({ self with queue := rest }, [.received status])
  | [] => none

/-- Run one task to its next operation; a caller calls again only after its call returned. -/
def step (self : AutomatedIngress) (capacity : Nat) :
    Action → Option (AutomatedIngress × List Event)
  | .call status =>
      match self.caller with
      | .idle => some ({ self with caller := .entering status }, [.submitted status])
      | _ => none
  | .readMode => self.readMode
  | .trySend => self.trySend capacity
  | .retain => self.retain
  | .notified => self.notified
  | .popFront => self.popFront
  | .send => self.send capacity
  | .receive => self.receive

/-- The ingress in front of a coordinator queue of some capacity. -/
def machine (capacity : Nat) : Machine AutomatedIngress Action Event where
  step self action := self.step capacity action

/-- A computed run whose end passes a check. -/
theorem run_of_check (capacity : Nat) (actions : List Action)
    (check : AutomatedIngress → List Event → Bool)
    (passes : (((machine capacity).exec (fun _ _ => true) new actions).any
      fun (final, events) => check final events) = true) :
    ∃ final events, (machine capacity).Run Machine.Every new actions events final ∧
      check final events = true :=
  Machine.run_of_check (fun _ _ _ _ => trivial) _ _ _ passes

end AutomatedIngress

end

end AcornAlarms
