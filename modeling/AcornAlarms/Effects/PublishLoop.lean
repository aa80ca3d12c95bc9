import AcornAlarms.Effects.Publish
import AcornAlarms.Library.Machine

/-!
# The loop of the publish engine

Requests arrive, attempts return in any order and the flush interval ticks. Every request is
numbered as it arrives; the numbers follow the engine's lists and decide nothing.
-/

namespace AcornAlarms

open Library

section

variable [Platform]

/-- The engine, with the numbers of the requests in its lists, place by place. -/
structure PublishLoop where
  engine : PublishEngine
  /-- The number of requests received so far. -/
  requests : Nat
  flying : List Nat
  buffered : List Nat
deriving DecidableEq

namespace PublishLoop

inductive Action where
  /-- The workflow handler's next request. -/
  | receive (publish : Publish)
  /-- The attempt at a place of `in_flight` returns. -/
  | complete (index : Nat) (delivered : Bool)
  /-- The flush interval ticks. -/
  | tick

inductive Event where
  | received (publish : Publish)
  /-- `deliver_attempt` begins for a request. -/
  | attempted (request : Nat)
  | returned (request : Nat) (delivered : Bool)
  /-- An outcome is sent; it carries the results of these requests, in order. -/
  | emitted (outcome : PublishOutcome) (requests : List Nat)
deriving DecidableEq

def new : PublishLoop := ⟨.new, 0, [], []⟩

/-- Number what the engine did with the request of an attempt that returned. -/
def follow (self : PublishLoop) (request : Nat) (engine : PublishEngine) (flying : List Nat) :
    List PublishOutcome → PublishLoop × List Event
  | [.single result] => ({ self with engine, flying }, [.emitted (.single result) [request]])
  | [.batch results] => ({ self with engine, flying, buffered := [] },
      [.emitted (.batch results) (self.buffered ++ [request])])
  | _ =>
      -- An attempt that went back in flight is made again; another one is buffered.
      if engine.inFlight.length = self.engine.inFlight.length then
        ({ self with engine, flying := flying ++ [request] }, [.attempted request])
      else ({ self with engine, flying, buffered := self.buffered ++ [request] }, [])

def step (self : PublishLoop) : Action → Option (PublishLoop × List Event)
  | .receive publish =>
      some ({ self with
          engine := self.engine.receive publish
          requests := self.requests + 1
          flying := self.flying ++ [self.requests] },
        [.received publish, .attempted self.requests])
  | .complete index delivered =>
      match self.flying[index]?, self.engine.complete index delivered with
      | some request, some (_, engine, outcomes) =>
          let (next, out) := self.follow request engine (self.flying.eraseIdx index) outcomes
          some (next, .returned request delivered :: out)
      | _, _ => none
  | .tick =>
      match self.engine.tick with
      | some (engine, outcomes) => some ({ self with engine, buffered := [] },
          outcomes.map fun outcome => .emitted outcome self.buffered)
      | none => some (self, [])

def machine : Machine PublishLoop Action Event where
  step := step

/-- A computed run whose end passes a check. -/
theorem run_of_check (actions : List Action) (check : PublishLoop → List Event → Bool)
    (passes : ((machine.exec (fun _ _ => true) new actions).any
      fun (final, events) => check final events) = true) :
    ∃ final events, machine.Run Machine.Every new actions events final ∧
      check final events = true :=
  Machine.run_of_check (fun _ _ _ _ => trivial) _ _ _ passes

end PublishLoop

end

end AcornAlarms
