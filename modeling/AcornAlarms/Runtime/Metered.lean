import AcornAlarms.Runtime.Metrics
import AcornAlarms.Runtime.Service

/-!
# What the service counts

The calls a step of the service makes on the metrics, branch by branch, and the service with the
metrics beside it. An attempt counts as started when the engine first polls it, and it returns
only after that. The calls of a turn are made together at its end.
-/

namespace AcornAlarms

open Library

section

variable [Platform]

namespace WorkflowHandler

variable (self : WorkflowHandler)

/-- The calls of `advance_workflow`. -/
def advanceWorkflowCalls (ports : WorkflowPorts) (key : Key) : List MetricsCall :=
  match self.jobs.get? key with
  | none => []
  | some tracked =>
      let next := tracked.step
      let self : WorkflowHandler :=
        ⟨self.jobs.insert key { tracked with step := next + 1 }⟩
      match workflowOrder[next]? with
      | some effect =>
          match self.dispatchEffect ports effect key with
          | .ok (some _) => []
          | .ok none => [.jobFailed]
          | .error _ => []
      | none => [.jobFailed]

/-- The calls of `handle_new_job`. -/
def handleNewJobCalls (ports : WorkflowPorts) (job : Job) : List MetricsCall :=
  .jobDispatched :: (self.addWork job.key job).advanceWorkflowCalls ports job.key

/-- The calls of `handle_snooze_result`. -/
def handleSnoozeResultCalls (ports : WorkflowPorts) : SnoozeOutcome → List MetricsCall
  | .accepted key => self.advanceWorkflowCalls ports key
  | .expired _ => [.snoozeWake]
  | .invalidWake _ => [.jobFailed]

/-- The calls of `dispatch_publish_result`; the job is removed first. -/
def dispatchPublishResultCalls (result : PublishResult) : List MetricsCall :=
  match self.removeWork result.intoInner with
  | .ok _ => if result.isOk then [.jobCommitted] else [.jobFailed]
  | .error _ => []

/-- The calls of the loop over a batch, which a panic ends. -/
def dispatchPublishResultsCalls (self : WorkflowHandler) : List PublishResult → List MetricsCall
  | [] => []
  | result :: rest =>
      self.dispatchPublishResultCalls result ++
        match self.removeWork result.intoInner with
        | .ok (_, self) => self.dispatchPublishResultsCalls rest
        | .error _ => []

/-- The calls of `handle_publish_outcome`. -/
def handlePublishOutcomeCalls : PublishOutcome → List MetricsCall
  | .batch batch => self.dispatchPublishResultsCalls batch
  | .single single => self.dispatchPublishResultCalls single

end WorkflowHandler

/-- The calls of the engine when an attempt returns. -/
def PublishEngine.completionCalls (self : PublishEngine) (index : Nat) (delivered : Bool)
    (latency : Nat) : List MetricsCall :=
  match self.inFlight[index]? with
  | none => []
  | some attempt =>
      if delivered then [.publishCompletion .success latency]
      else if attempt.attemptCount < maxDeliveryAttempts then
        [.publishCompletion .failure latency, .publishRetry]
      else [.publishCompletion .failure latency]

/-- The calls of a turn, where a returning attempt took some time. -/
def Pipeline.calls (self : Pipeline) (latency : Nat) : Action → List MetricsCall
  | .publishOutcome =>
      match self.publishOutcomes with
      | outcome :: _ => self.handler.handlePublishOutcomeCalls outcome
      | [] => []
  | .snoozeOutcome =>
      match self.snoozeOutcomes with
      | outcome :: _ => self.handler.handleSnoozeResultCalls self.workflowPorts outcome
      | [] => []
  | .job =>
      match self.jobs with
      | job :: _ => self.handler.handleNewJobCalls self.workflowPorts job
      | [] => []
  | .snoozeInput clock =>
      match self.snoozeInputs with
      | input :: _ =>
          match self.scheduler.handleSnoozeInput clock input with
          | .ok _ => (self.scheduler.records clock input).map .snooze
          | .error _ => []
      | [] => []
  | .expiry _ _ => [.snooze .expiration]
  | .completion index delivered => self.engine.completionCalls index delivered latency
  | .input _ _ | .jobOutcome _ | .flush | .publish => []

/-- The calls of the Redis reader and of the overload task. -/
def AutomatedIngress.calls (self : AutomatedIngress) (capacity : Nat) (enteredAt : Option Nat)
    (now : Nat) : AutomatedIngress.Action → List MetricsCall
  | .readMode =>
      match self.caller with
      | .entering status =>
          if self.overloadState.overloadMode then
            [.retainedAutomatedKeys (self.keep status).overloadState.pending.entries.length]
          else []
      | _ => []
  | .trySend =>
      match self.caller with
      | .offering _ => if self.queue.length < capacity then [] else [.automatedQueueFull]
      | _ => []
  | .retain =>
      match self.caller with
      | .retaining status =>
          [.overloadEntry (self.keep status).overloadState.pending.entries.length]
      | _ => []
  | .popFront =>
      match self.overloadState.pending.popFront with
      | some (_, rest) => [.retainedAutomatedKeys rest.entries.length]
      | none =>
          .retainedAutomatedKeys self.overloadState.pending.entries.length ::
            enteredAt.toList.map fun entered => .overloadExit (now - entered)
  | .call _ | .notified | .send | .receive => []

/-- `entered_at` is set as the overload begins and taken as it ends. -/
def AutomatedIngress.enteredAfter (self : AutomatedIngress) (enteredAt : Option Nat) (now : Nat) :
    AutomatedIngress.Action → Option Nat
  | .retain => some now
  | .popFront => if self.overloadState.pending.popFront.isSome then enteredAt else none
  | _ => enteredAt

/-- The calls of `try_send`. -/
def UserIngress.trySendCalls (self : UserIngress) (capacity : Nat) (message : UserMessage) :
    List MetricsCall :=
  match self.trySend capacity message with
  | .error .full => [.userQueueFullRejection]
  | _ => []

/-- The service and its metrics. -/
structure Metered where
  service : Service
  /-- When each attempt in flight was first polled, in the order of the engine. -/
  polled : List (Option Nat)
  /-- When the overload began. -/
  enteredAt : Option Nat
  /-- When each request arrived. -/
  startedAt : FiniteMap Nat Nat
  metrics : Metrics

namespace Metered

inductive Action where
  /-- A step of the service, and the monotonic clock at its end. -/
  | act (action : Service.Action) (now : Nat)
  /-- The engine polls a new attempt. -/
  | poll (index : Nat) (now : Nat)

inductive Event where
  | service (event : Service.Event)
  | called (call : MetricsCall)
deriving DecidableEq

namespace Event

/-- The service's part of the history. -/
def service? : Event → Option Service.Event
  | .service event => some event
  | .called _ => none

/-- The calls on the metrics. -/
def called? : Event → Option MetricsCall
  | .called call => some call
  | .service _ => none

@[simp] theorem service?_service : service? ∘ service = some := rfl
@[simp] theorem service?_called : service? ∘ called = fun _ => none := rfl
@[simp] theorem called?_service : called? ∘ service = fun _ => none := rfl
@[simp] theorem called?_called : called? ∘ called = some := rfl

end Event

/-- `runtime::start` with the metrics it makes. -/
def start (config : QueueCapacityConfig) (hydratedStatuses : FiniteMap Key Status) : Metered where
  service := .start hydratedStatuses
  polled := []
  enteredAt := none
  startedAt := .empty
  metrics := .new config

/-- How long the attempt at a place has been under way. -/
def latency (self : Metered) (index now : Nat) : Nat :=
  now - ((self.polled[index]?).join).getD now

/-- The calls of a step of the service. -/
def calls (self : Metered) (config : QueueCapacityConfig) (now : Nat) :
    Service.Action → List MetricsCall
  | .ingress action => self.service.automated.calls config.automated self.enteredAt now action
  | .trySend request =>
      match self.service.users.submissions.get? request with
      | some ⟨key :: _, action, user⟩ =>
          self.service.users.trySendCalls config.user
            ⟨some request, .userUpdate key action user self.service.users.confirmations⟩
      | _ => []
  | .getSnapshot =>
      self.service.users.trySendCalls config.user
        ⟨none, .snapshotRequest self.service.users.confirmations⟩
  | .turn (.completion index delivered) =>
      self.service.runtime.tasks.calls (self.latency index now) (.completion index delivered)
  | .turn action => self.service.runtime.tasks.calls 0 action
  | .respond request =>
      [.confirmationLatency (now - (self.startedAt.get? request).getD now)]
  | _ => []

/-- Only an attempt that was polled returns. -/
def ready (self : Metered) : Service.Action → Bool
  | .turn (.completion index _) => ((self.polled[index]?).join).isSome
  | _ => true

/-- The engine pushes an attempt it has not polled yet, for a request or for a retry. -/
def polledAfter (self : Metered) : Service.Action → List (Option Nat)
  | .turn .publish => self.polled ++ [none]
  | .turn (.completion index delivered) =>
      match self.service.runtime.tasks.engine.inFlight[index]? with
      | none => self.polled
      | some attempt =>
          if !delivered && attempt.attemptCount < maxDeliveryAttempts then
            self.polled.eraseIdx index ++ [none]
          else self.polled.eraseIdx index
  | _ => self.polled

def enteredAfter (self : Metered) (now : Nat) : Service.Action → Option Nat
  | .ingress action => self.service.automated.enteredAfter self.enteredAt now action
  | _ => self.enteredAt

/-- `started_at` of a request. -/
def startedAfter (self : Metered) (now : Nat) : Service.Action → FiniteMap Nat Nat
  | .request _ => self.startedAt.insert self.service.users.requests now
  | _ => self.startedAt

def step (config : QueueCapacityConfig) (self : Metered) : Action → Option (Metered × List Event)
  | .act action now =>
      if self.ready action then
        (self.service.step config action).map fun (service, out) =>
          let calls := self.calls config now action
          ({ service
             polled := self.polledAfter action
             enteredAt := self.enteredAfter now action
             startedAt := self.startedAfter now action
             metrics := calls.foldl Metrics.call self.metrics },
            out.map .service ++ calls.map .called)
      else none
  | .poll index now =>
      match self.polled[index]? with
      | some none =>
          some ({ self with
              polled := self.polled.set index (some now)
              metrics := self.metrics.recordPublishAttemptStarted },
            [.called .publishAttemptStarted])
      | _ => none

def machine (config : QueueCapacityConfig) : Machine Metered Action Event := ⟨step config⟩

/-- What each step took and what it left. -/
inductive Step (config : QueueCapacityConfig) (self : Metered) :
    Action → List Event → Metered → Prop where
  | act {action now service out} (ready : self.ready action = true)
      (fires : self.service.step config action = some (service, out)) :
      Step config self (.act action now)
        (out.map .service ++ (self.calls config now action).map .called)
        { service
          polled := self.polledAfter action
          enteredAt := self.enteredAfter now action
          startedAt := self.startedAfter now action
          metrics := (self.calls config now action).foldl Metrics.call self.metrics }
  | poll {index now} (fresh : self.polled[index]? = some none) :
      Step config self (.poll index now) [.called .publishAttemptStarted]
        { self with
          polled := self.polled.set index (some now)
          metrics := self.metrics.recordPublishAttemptStarted }

/-- A step is one of these. -/
theorem step_cases {config : QueueCapacityConfig} {self next : Metered} {action : Action}
    {out : List Event} (fires : self.step config action = some (next, out)) :
    self.Step config action out next := by
  cases action with
  | act action now =>
      simp only [step, Option.ite_none_right_eq_some, Option.map_eq_some_iff] at fires
      obtain ⟨ready, ⟨service, events⟩, steps, same⟩ := fires
      cases same
      exact .act ready steps
  | poll index now =>
      simp only [step] at fires
      split at fires
      · next fresh =>
          cases fires
          exact .poll fresh
      · cases fires

/-- A computed run whose end passes a check. -/
theorem run_of_check (config : QueueCapacityConfig) (actions : List Action)
    (check : Metered → List Event → Bool)
    (passes : (((machine config).exec (fun _ _ => true) (start config .empty) actions).any
      fun (final, events) => check final events) = true) :
    ∃ final events, (machine config).Run Machine.Every (start config .empty) actions events final ∧
      check final events = true :=
  Machine.run_of_check (fun _ _ _ _ => trivial) _ _ _ passes

end Metered

end

end AcornAlarms
