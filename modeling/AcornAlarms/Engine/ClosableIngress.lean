import AcornAlarms.Engine.Ingress

/-!
# The automated ingress and the end of the coordinator

When the coordinator stops it drops the receiver: a direct send then returns the status to its
caller, and the drain task returns from its next send. The overload state stays as it is.
-/

namespace AcornAlarms

open Library

variable [Platform]

namespace AutomatedIngress.Action

/-- The turns that use the receiver. -/
def usesReceiver : AutomatedIngress.Action → Bool
  | .trySend | .send | .receive => true
  | _ => false

/-- The turns of the drain task. -/
def ofDrain : AutomatedIngress.Action → Bool
  | .notified | .popFront | .send => true
  | _ => false

end AutomatedIngress.Action

structure ClosableIngress where
  ingress : AutomatedIngress
  receiverAlive : Bool
  /-- `run_overload_drain_loop` returned. -/
  drainReturned : Bool

namespace ClosableIngress

inductive Action where
  | turn (action : AutomatedIngress.Action)
  | dropReceiver

inductive Event where
  | ingress (event : AutomatedIngress.Event)
  /-- The call returned `Err(SendError(status))`. -/
  | rejected (status : Status)
deriving DecidableEq

/-- `AutomatedIngressHandle::new`, the coordinator running. -/
def new : ClosableIngress := ⟨.new, true, false⟩

/-- A send to the closed queue: the caller gets its status back, and the drain task returns. -/
def sendClosed (self : ClosableIngress) :
    AutomatedIngress.Action → Option (ClosableIngress × List Event)
  | .trySend =>
      match self.ingress.caller with
      | .offering status =>
          some ({ self with ingress := { self.ingress with caller := .idle } }, [.rejected status])
      | _ => none
  | .send =>
      match self.ingress.drain with
      | .sending _ => some ({ self with drainReturned := true }, [])
      | _ => none
  | _ => none

/-- One turn of a task, or the end of the coordinator. -/
def step (self : ClosableIngress) (capacity : Nat) : Action → Option (ClosableIngress × List Event)
  | .dropReceiver =>
      if self.receiverAlive then
        some ({ self with receiverAlive := false, ingress := { self.ingress with queue := [] } }, [])
      else none
  | .turn action =>
      if action.ofDrain && self.drainReturned then none
      else if action.usesReceiver && !self.receiverAlive then self.sendClosed action
      else (self.ingress.step capacity action).map fun (ingress, events) =>
        ({ self with ingress }, events.map .ingress)

/-- The ingress in front of a coordinator queue of some capacity. -/
def machine (capacity : Nat) : Machine ClosableIngress Action Event where
  step self action := self.step capacity action

/-- The drain task has nothing more to do: it returned, or nobody notified it. -/
def Settled (self : ClosableIngress) : Prop :=
  self.drainReturned = true ∨
    (self.ingress.drain = .waiting ∧ self.ingress.overloadNotify = false)

end ClosableIngress

end AcornAlarms
