import AcornAlarms.Engine.Coordinator
import AcornAlarms.Library.Machine
import AcornAlarms.Model.KeyText

/-!
# Operator requests

A request names devices. Its texts are parsed together, and then one update for each device is
offered to the bounded user queue; the first send that fails ends the request. Other requests
and the coordinator run in between.
-/

namespace AcornAlarms

open Library

section

variable [Platform]

/-- The status codes a request that does not wait can end with. -/
inductive TonicCode where
  | invalidArgument
  | resourceExhausted
  | internal
deriving DecidableEq, Repr

structure TonicStatus where
  code : TonicCode
  message : String
deriving DecidableEq, Repr

/-- Why `UserIngressHandle::try_send` fails. -/
inductive ChannelSendError where
  | closed
  | full
deriving DecidableEq, Repr

def mapUserSendError : ChannelSendError → TonicStatus
  | .full => ⟨.resourceExhausted,
      "Alarm command queue is full; rejecting request instead of waiting behind backlog"⟩
  | .closed => ⟨.internal, "The alarms state machine has shut down!"⟩

/-- The keys of a request, or all that is wrong with its texts. -/
def buildKeys (devices : List String) : Except TonicStatus (List Key) :=
  let (keys, errs) := devices.foldl (fun (keys, errs) deviceSource =>
    match Key.tryFrom deviceSource with
    | .ok key => (keys ++ [key], errs)
    | .error text => (keys, errs ++ [text])) ([], [])
  if errs.isEmpty then .ok keys else .error ⟨.invalidArgument, "; ".intercalate errs⟩

/-- A message in the user queue; `request` says which request it is of, and is `none` for a
snapshot request. -/
structure UserMessage where
  request : Option Nat
  input : DomainInput
deriving DecidableEq

/-- A request inside `submit_updates`, with the keys it has not offered yet. -/
structure Submission where
  keys : List Key
  action : UserAction
  user : String

/-- The user queue and the requests that are being submitted. -/
structure UserIngress where
  queue : List UserMessage
  receiverAlive : Bool
  submissions : FiniteMap Nat Submission
  /-- The number of the next request. -/
  requests : Nat
  /-- The number of the next one-shot channel. -/
  confirmations : Nat

namespace UserIngress

inductive Action where
  /-- A request arrives. -/
  | submit (devices : List String) (action : UserAction) (user : String)
  /-- A request offers the update of its next device. -/
  | trySend (request : Nat)
  /-- A snapshot request is offered. -/
  | requestSnapshot
  /-- The coordinator takes the oldest message. -/
  | receive
  /-- The coordinator stops. -/
  | dropReceiver

inductive Event where
  /-- A request returned an error without waiting for confirmations. -/
  | rejected (request : Nat) (status : TonicStatus)
  /-- A request submitted all its updates and waits. -/
  | awaiting (request : Nat)
  | enqueued (message : UserMessage)
  /-- The coordinator took a message, which it then handles. -/
  | received (message : UserMessage)
deriving DecidableEq

/-- An empty queue and no request. -/
def new : UserIngress := ⟨[], true, .empty, 0, 0⟩

/-- `UserIngressHandle::try_send`. -/
def trySend (self : UserIngress) (capacity : Nat) (message : UserMessage) :
    Except ChannelSendError UserIngress :=
  if self.receiverAlive = false then .error .closed
  else if self.queue.length < capacity then .ok { self with queue := self.queue ++ [message] }
  else .error .full

/-- `build_keys`, before the loop of `submit_updates`. -/
def submit (self : UserIngress) (devices : List String) (action : UserAction) (user : String) :
    UserIngress × List Event :=
  let request := self.requests
  let self := { self with requests := request + 1 }
  match buildKeys devices with
  | .error status => (self, [.rejected request status])
  | .ok [] => (self, [.awaiting request])
  | .ok keys => ({ self with submissions := self.submissions.insert request ⟨keys, action, user⟩ },
      [])

/-- One round of the loop of `submit_updates`. -/
def submitUpdate (self : UserIngress) (capacity request : Nat) :
    Option (UserIngress × List Event) :=
  match self.submissions.get? request with
  | some ⟨key :: keys, action, user⟩ =>
      let message : UserMessage :=
        ⟨some request, .userUpdate key action user self.confirmations⟩
      let self := { self with confirmations := self.confirmations + 1 }
      match self.trySend capacity message with
      | .error error =>
          some ({ self with submissions := self.submissions.erase request },
            [.rejected request (mapUserSendError error)])
      | .ok self =>
          if keys = [] then
            some ({ self with submissions := self.submissions.erase request },
              [.enqueued message, .awaiting request])
          else
            some ({ self with
                submissions := self.submissions.insert request ⟨keys, action, user⟩ },
              [.enqueued message])
  | _ => none

def step (self : UserIngress) (capacity : Nat) : Action → Option (UserIngress × List Event)
  | .submit devices action user => some (self.submit devices action user)
  | .trySend request => self.submitUpdate capacity request
  | .requestSnapshot =>
      let message : UserMessage := ⟨none, .snapshotRequest self.confirmations⟩
      let self := { self with confirmations := self.confirmations + 1 }
      match self.trySend capacity message with
      | .error _ => some (self, [])
      | .ok self => some (self, [.enqueued message])
  | .receive =>
      if self.receiverAlive then
        match self.queue with
        | message :: rest => some ({ self with queue := rest }, [.received message])
        | [] => none
      else none
  | .dropReceiver => some ({ self with receiverAlive := false, queue := [] }, [])

/-- The ingress of a user queue of some capacity. -/
def machine (capacity : Nat) : Machine UserIngress Action Event where
  step self action := self.step capacity action

/-- A computed run whose end passes a check. -/
theorem run_of_check (capacity : Nat) (actions : List Action)
    (check : UserIngress → List Event → Bool)
    (passes : (((machine capacity).exec (fun _ _ => true) new actions).any
      fun (final, events) => check final events) = true) :
    ∃ final events, (machine capacity).Run Machine.Every new actions events final ∧
      check final events = true :=
  Machine.run_of_check (fun _ _ _ _ => trivial) _ _ _ passes

end UserIngress

end

end AcornAlarms
