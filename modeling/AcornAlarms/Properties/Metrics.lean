import AcornAlarms.Properties.Answers
import AcornAlarms.Properties.Flows
import AcornAlarms.Properties.Overload

/-!
# The metrics account for the service

In every run of the metered service the counters, gauges and histograms agree with what the tasks
hold: every job, timer and attempt that was counted in was counted out or is still under way.
-/

namespace AcornAlarms

open Library

/-- A call of the ingress handles and of the request handlers. -/
def MetricsCall.edge : MetricsCall → Bool
  | .automatedQueueFull | .userQueueFullRejection | .overloadEntry _ | .retainedAutomatedKeys _
  | .overloadExit _ | .confirmationLatency _ => true
  | _ => false

/-- A call of the automated ingress. -/
def MetricsCall.ingress : MetricsCall → Bool
  | .automatedQueueFull | .overloadEntry _ | .retainedAutomatedKeys _ | .overloadExit _ => true
  | _ => false

/-- A counter of the ingress handles. -/
def Counter.edge : Counter → Bool
  | .overloadEntries | .overloadExits | .automatedQueueFull | .userQueueFullRejections => true
  | _ => false

namespace MetricsCall

/-- A call adds to a counter of its own side. -/
theorem counter?_edge {call : MetricsCall} {counter : Counter}
    (counts : call.counter? = some counter) : call.edge = counter.edge := by
  cases call with
  | publishCompletion outcome =>
      cases outcome with
      | success => cases counts
      | failure =>
          cases counts
          rfl
  | snooze record => cases record <;> cases counts <;> rfl
  | _ => cases counts <;> rfl

/-- The outcomes among some calls are counted where they are kept. -/
theorem count_outcome {counter : Counter}
    (settles : counter ∈ [Counter.jobsCommitted, .jobsFailed, .snoozeWakes])
    (calls : List MetricsCall) :
    count calls counter = (calls.filterMap outcome?).countP fun other => other = counter := by
  induction calls with
  | nil => rfl
  | cons call rest ih =>
      rw [count_cons, ih]
      have same : call.counter? = some counter ↔ call.outcome? = some counter := by
        simp only [List.mem_cons, List.not_mem_nil, or_false] at settles
        obtain rfl | rfl | rfl := settles <;>
        · cases call with
          | publishCompletion outcome => cases outcome <;> simp [counter?, outcome?]
          | snooze record => cases record <;> simp [counter?, outcome?]
          | _ => simp [counter?, outcome?]
      cases kept : call.outcome? with
      | none =>
          rw [List.filterMap_cons_none kept, if_neg (by simp [same, kept]), Nat.add_zero]
      | some other =>
          rw [List.filterMap_cons_some kept, List.countP_cons]
          simp [same, kept]

/-- The calls of one side add nothing to the counters of the other. -/
theorem count_other {calls : List MetricsCall} {side : Bool}
    (edge : ∀ call ∈ calls, call.edge = side) {counter : Counter} (other : counter.edge ≠ side) :
    count calls counter = 0 := by
  refine List.countP_eq_zero.mpr fun call member counted => other ?_
  rw [← counter?_edge (of_decide_eq_true counted)]
  exact edge call member

end MetricsCall

section

variable [Platform]

namespace Pipeline

variable {self : Pipeline} {calls : List MetricsCall}

/-- The calls at the edge of the service are none of the pipeline's. -/
theorem Balanced.edge (self : Pipeline) (edge : ∀ call ∈ calls, call.edge = true) :
    self.Balanced calls self ∧ calls.filterMap MetricsCall.outcome? = [] ∧
      calls.filterMap MetricsCall.completed? = [] := by
  have outcomes : calls.filterMap MetricsCall.outcome? = [] := by
    refine List.filterMap_eq_nil_iff.mpr fun call member => ?_
    have outside := edge call member
    cases call <;> first | rfl | cases outside
  have completed : calls.filterMap MetricsCall.completed? = [] := by
    refine List.filterMap_eq_nil_iff.mpr fun call member => ?_
    have outside := edge call member
    cases call <;> first | rfl | cases outside
  have silent : ∀ counter : Counter, counter.edge = false → MetricsCall.count calls counter = 0 :=
    fun counter inner => MetricsCall.count_other edge (by simp [inner])
  refine ⟨⟨?_, ?_, ?_, ?_, ?_⟩, outcomes, completed⟩ <;>
    simp (disch := decide) [silent, completed]

/-- The calls of a turn read only what the turn takes. -/
theorem Turn.calls_deliver {action : Action} {turn : Pipeline × Sent × List AcornAlarms.Event}
    (taken : self.Turn action turn) (held : Sent) (latency : Nat) :
    (self.deliver held).calls latency action = self.calls latency action := by
  cases taken with
  | publishOutcome queue | snoozeOutcome queue | job queue | snoozeInput queue =>
      simp [calls, Pipeline.deliver, queue, workflowPorts]
  | _ => rfl

end Pipeline

namespace Runtime

variable {config : QueueCapacityConfig} {self next : Runtime} {out : List Event}

/-- A turn of the runtime counts what it moves, wherever its messages wait, and its outcomes in
the order the coordinator takes them. -/
theorem turn_tallied (refines : ∃ lanes, Refines self.flatten lanes) {action : AcornAlarms.Action}
    (fires : self.step config (.turn action) = some (next, out)) (latency : Nat) :
    self.flatten.Balanced (self.tasks.calls latency action) next.flatten ∧
      self.flatten.jobOutcomes.map JobOutcome.counter ++
          (self.tasks.calls latency action).filterMap MetricsCall.outcome? =
        (out.filterMap Event.reconciled? ++ next.flatten.jobOutcomes).map JobOutcome.counter := by
  obtain ⟨lanes, refines⟩ := refines
  obtain ⟨turn, handled, same, -, taken, rfl, rfl⟩ | ⟨_, _, same, -⟩ := step_cases fires
  · obtain rfl := RuntimeAction.turn.inj same
    have whole : self.flatten.Turn action (handled.1.deliver self.pending, handled.2) :=
      taken.deliver self.pending
    obtain ⟨balanced, outcomes⟩ := whole.tallied refines latency
    rw [flatten, taken.calls_deliver] at balanced outcomes
    have reached : flatten ⟨handled.1, self.pending.append handled.2.1⟩ =
        (handled.1.deliver self.pending).deliver handled.2.1 := Pipeline.deliver_append _ _
    rw [reached]
    refine ⟨balanced, ?_⟩
    rw [refines.outcomes_reported whole, outcomes, ← List.map_append, List.append_assoc]
    rfl
  · cases same

end Runtime

/-- A call of the workflow handler. -/
def MetricsCall.handled : MetricsCall → Bool
  | .jobDispatched | .jobCommitted | .jobFailed | .snoozeWake => true
  | _ => false

namespace WorkflowHandler

variable (self : WorkflowHandler) (ports : WorkflowPorts)

theorem advanceWorkflow_handled (key : Key) :
    ∀ call ∈ self.advanceWorkflowCalls ports key, call.handled = true := by
  intro call member
  unfold advanceWorkflowCalls at member
  split at member
  · cases member
  · simp only at member
    repeat' split at member
    all_goals first
      | exact absurd member List.not_mem_nil
      | obtain rfl := List.mem_singleton.mp member
        rfl

theorem handleNewJob_handled (job : Job) :
    ∀ call ∈ self.handleNewJobCalls ports job, call.handled = true := by
  intro call member
  obtain rfl | later := List.mem_cons.mp member
  · rfl
  · exact advanceWorkflow_handled _ ports job.key call later

theorem handleSnoozeResult_handled (outcome : SnoozeOutcome) :
    ∀ call ∈ self.handleSnoozeResultCalls ports outcome, call.handled = true := by
  intro call member
  cases outcome with
  | accepted key => exact self.advanceWorkflow_handled ports key call member
  | expired key | invalidWake key =>
      obtain rfl := List.mem_singleton.mp member
      rfl

theorem dispatchPublishResult_handled (result : PublishResult) :
    ∀ call ∈ self.dispatchPublishResultCalls result, call.handled = true := by
  intro call member
  unfold dispatchPublishResultCalls at member
  split at member
  · split at member <;>
    · obtain rfl := List.mem_singleton.mp member
      rfl
  · cases member

theorem handlePublishOutcome_handled (outcome : PublishOutcome) :
    ∀ call ∈ self.handlePublishOutcomeCalls outcome, call.handled = true := by
  have batches : ∀ (batch : List PublishResult) (self : WorkflowHandler),
      ∀ call ∈ self.dispatchPublishResultsCalls batch, call.handled = true := by
    intro batch
    induction batch with
    | nil => exact fun _ call member => absurd member List.not_mem_nil
    | cons result rest ih =>
        intro self call member
        obtain first | later := List.mem_append.mp member
        · exact self.dispatchPublishResult_handled result call first
        · split at later
          · exact ih _ call later
          · cases later
  cases outcome with
  | batch batch => exact batches batch self
  | single single => exact self.dispatchPublishResult_handled single

end WorkflowHandler

namespace Pipeline

variable (self : Pipeline) (latency : Nat)

/-- The calls of a turn are none of the edge, and start no attempt. -/
theorem calls_inner (action : Action) :
    ∀ call ∈ self.calls latency action, call.edge = false ∧ call ≠ .publishAttemptStarted := by
  have inner : ∀ call : MetricsCall, call.handled = true →
      call.edge = false ∧ call ≠ .publishAttemptStarted := by
    intro call handled
    cases call <;> first | (cases handled; done) | exact ⟨rfl, by simp⟩
  intro call member
  cases action with
  | input | jobOutcome | flush | publish => cases member
  | publishOutcome =>
      simp only [calls] at member
      split at member
      · exact inner call (self.handler.handlePublishOutcome_handled _ call member)
      · cases member
  | snoozeOutcome =>
      simp only [calls] at member
      split at member
      · exact inner call (self.handler.handleSnoozeResult_handled _ _ call member)
      · cases member
  | job =>
      simp only [calls] at member
      split at member
      · exact inner call (self.handler.handleNewJob_handled _ _ call member)
      · cases member
  | snoozeInput clock =>
      simp only [calls] at member
      repeat' split at member
      · obtain ⟨record, -, rfl⟩ := List.mem_map.mp member
        exact ⟨rfl, by simp⟩
      · cases member
      · cases member
  | expiry =>
      obtain rfl := List.mem_singleton.mp member
      exact ⟨rfl, by simp⟩
  | completion index delivered =>
      simp only [calls, PublishEngine.completionCalls] at member
      repeat' split at member
      · cases member
      · obtain rfl := List.mem_singleton.mp member
        exact ⟨rfl, by simp⟩
      · obtain rfl | later := List.mem_cons.mp member
        · exact ⟨rfl, by simp⟩
        · obtain rfl := List.mem_singleton.mp later
          exact ⟨rfl, by simp⟩
      · obtain rfl := List.mem_singleton.mp member
        exact ⟨rfl, by simp⟩

/-- Only an attempt that returns is counted as completed. -/
theorem calls_completed (action : Action) :
    (self.calls latency action).filterMap MetricsCall.completed? =
      match action with
      | .completion index _ => (self.engine.inFlight[index]?).toList.map fun _ => latency
      | _ => [] := by
  have none : ∀ {calls : List MetricsCall}, (∀ call ∈ calls, call.handled = true) →
      calls.filterMap MetricsCall.completed? = [] := by
    intro calls handled
    refine List.filterMap_eq_nil_iff.mpr fun call member => ?_
    have inner := handled call member
    cases call <;> first | rfl | cases inner
  cases action with
  | input | jobOutcome | flush | publish | expiry => rfl
  | publishOutcome =>
      simp only [calls]
      split
      · exact none (self.handler.handlePublishOutcome_handled _)
      · rfl
  | snoozeOutcome =>
      simp only [calls]
      split
      · exact none (self.handler.handleSnoozeResult_handled _ _)
      · rfl
  | job =>
      simp only [calls]
      split
      · exact none (self.handler.handleNewJob_handled _ _)
      · rfl
  | snoozeInput clock =>
      simp only [calls]
      split
      · split
        · rw [List.filterMap_map]
          exact List.filterMap_eq_nil_iff.mpr fun _ _ => rfl
        · rfl
      · rfl
  | completion index delivered =>
      simp only [calls, PublishEngine.completionCalls]
      cases self.engine.inFlight[index]? with
      | none => rfl
      | some attempt =>
          simp only
          repeat' split
          all_goals rfl

end Pipeline

/-- The ingress calls only what is its own. -/
theorem AutomatedIngress.calls_ingress (self : AutomatedIngress) {capacity : Nat}
    {enteredAt : Option Nat} (now : Nat) (action : AutomatedIngress.Action) :
    ∀ call ∈ self.calls capacity enteredAt now action, call.ingress = true := by
  intro call member
  cases action with
  | readMode | trySend =>
      simp only [AutomatedIngress.calls] at member
      repeat' split at member
      all_goals first
        | cases member; done
        | obtain rfl := List.mem_singleton.mp member
          rfl
  | retain =>
      simp only [AutomatedIngress.calls] at member
      split at member
      · obtain rfl := List.mem_singleton.mp member
        rfl
      · cases member
  | popFront =>
      simp only [AutomatedIngress.calls] at member
      split at member
      · obtain rfl := List.mem_singleton.mp member
        rfl
      · obtain rfl | later := List.mem_cons.mp member
        · rfl
        · obtain ⟨entered, -, rfl⟩ := List.mem_map.mp later
          rfl
  | _ => cases member

/-- Only a rejection is counted by `try_send`. -/
theorem UserIngress.trySendCalls_rejection (self : UserIngress) {capacity : Nat}
    (message : UserMessage) :
    ∀ call ∈ self.trySendCalls capacity message, call = .userQueueFullRejection := by
  intro call member
  unfold trySendCalls at member
  split at member
  · exact List.mem_singleton.mp member
  · cases member

namespace Metered

variable {config : QueueCapacityConfig} {hydratedStatuses : FiniteMap Key Status}
  {self next : Metered} {past events out : List Event}

/-- The calls of a history. -/
def recorded (events : List Event) : List MetricsCall := events.filterMap Event.called?

/-- What the tasks of the service did. -/
def tasks (events : List Event) : List AcornAlarms.Event :=
  Service.tasks (events.filterMap Event.service?)

@[simp] theorem recorded_append (first second : List Event) :
    recorded (first ++ second) = recorded first ++ recorded second := List.filterMap_append

@[simp] theorem tasks_append (first second : List Event) :
    tasks (first ++ second) = tasks first ++ tasks second := by
  simp [tasks, Service.tasks]

@[simp] theorem recorded_act (reports : List Service.Event) (calls : List MetricsCall) :
    recorded (reports.map .service ++ calls.map .called) = calls := by
  rw [recorded, List.filterMap_append, List.filterMap_map, List.filterMap_map,
    Event.called?_service, Event.called?_called, List.filterMap_none, List.filterMap_some,
    List.nil_append]

@[simp] theorem tasks_act (reports : List Service.Event) (calls : List MetricsCall) :
    tasks (reports.map .service ++ calls.map .called) = Service.tasks reports := by
  rw [tasks, List.filterMap_append, List.filterMap_map, List.filterMap_map,
    Event.service?_service, Event.service?_called, List.filterMap_none, List.filterMap_some,
    List.append_nil]

/-- The calls of a turn are those of the tasks, for some latency. -/
theorem calls_turn (self : Metered) (now : Nat) (action : AcornAlarms.Action) :
    ∃ latency, self.calls config now (.turn action) =
      self.service.runtime.tasks.calls latency action := by
  cases action with
  | completion index delivered => exact ⟨_, rfl⟩
  | _ => exact ⟨0, rfl⟩

/-- Whether a step is no turn of a task. -/
def outer : Service.Action → Bool
  | .turn _ => false
  | _ => true

/-- The calls of a step that is no turn of a task. -/
theorem calls_edge {action : Service.Action} (outside : outer action = true) (now : Nat) :
    ∀ call ∈ self.calls config now action, call.edge = true := by
  have refused : ∀ (users : UserIngress) (message : UserMessage),
      ∀ call ∈ users.trySendCalls config.user message, call.edge = true := by
    intro users message call member
    rw [users.trySendCalls_rejection message call member]
    rfl
  intro call member
  cases action with
  | turn turn => cases outside
  | ingress taken =>
      have inside := AutomatedIngress.calls_ingress _ now taken call member
      cases call <;> first | rfl | cases inside
  | trySend request =>
      simp only [calls] at member
      split at member
      · exact refused _ _ call member
      · cases member
  | getSnapshot => exact refused _ _ call member
  | respond request =>
      obtain rfl := List.mem_singleton.mp member
      rfl
  | _ => cases member

/-- What is counted from one state of the tasks to another, with the outcomes the coordinator took
between them. -/
def Tallied (before : Pipeline) (calls : List MetricsCall) (reports : List AcornAlarms.Event)
    (after : Pipeline) : Prop :=
  before.Balanced calls after ∧
    before.jobOutcomes.map JobOutcome.counter ++ calls.filterMap MetricsCall.outcome? =
      (reports.filterMap AcornAlarms.Event.reconciled? ++ after.jobOutcomes).map JobOutcome.counter

/-- Calls at the edge count nothing of the tasks. -/
theorem Tallied.aside {pipeline : Pipeline} {calls : List MetricsCall}
    (edge : ∀ call ∈ calls, call.edge = true) : Tallied pipeline calls [] pipeline := by
  obtain ⟨balanced, silent, -⟩ := Pipeline.Balanced.edge pipeline edge
  refine ⟨balanced, ?_⟩
  rw [silent, List.append_nil]
  rfl

/-- A step of the service counts what the tasks move. -/
theorem act_tallied (refines : ∃ lanes, Refines self.service.runtime.flatten lanes)
    {action : Service.Action} {service : Service} {reports : List Service.Event}
    (fires : self.service.step config action = some (service, reports)) (now : Nat) :
    Tallied self.service.runtime.flatten (self.calls config now action) (Service.tasks reports)
      service.runtime.flatten := by
  have quiet : ∀ {Kind : Type} (kind : Kind → Service.Event) (out : List Kind),
      Service.Event.runtime? ∘ kind = (fun _ => none) → Service.tasks (out.map kind) = [] := by
    intro Kind kind out silent
    rw [Service.tasks, List.filterMap_map, silent, List.filterMap_none]
  have taken : ∀ out : List AcornAlarms.Event, Service.tasks (out.map .runtime) = out := by
    intro out
    rw [Service.tasks, List.filterMap_map, Service.Event.runtime?_runtime, List.filterMap_some]
  cases Service.step_cases fires with
  | skip | decline | dropReceivers | respond | respondSnapshot | abandonSnapshot =>
      exact .aside (calls_edge rfl now)
  | call | ingress | reject | trySend =>
      rw [quiet _ _ rfl]
      exact .aside (calls_edge rfl now)
  | submit =>
      rw [Service.tasks, List.filterMap_cons_none rfl, ← Service.tasks, quiet _ _ rfl]
      exact .aside (calls_edge rfl now)
  | getSnapshot =>
      have same : Service.tasks (self.service.getSnapshot config.user).2 = [] ∧
          (self.service.getSnapshot config.user).1.runtime = self.service.runtime := by
        unfold Service.getSnapshot
        simp only
        split <;> exact ⟨rfl, rfl⟩
      rw [same.1, same.2]
      exact .aside (calls_edge rfl now)
  | takeUser alive queue turns =>
      rw [Service.tasks, List.filterMap_cons_none rfl, ← Service.tasks, taken]
      exact Runtime.turn_tallied refines turns 0
  | takeAutomated queue turns =>
      rw [Service.tasks, List.filterMap_cons_none rfl, ← Service.tasks, taken]
      exact Runtime.turn_tallied refines turns 0
  | turn inner turns =>
      obtain ⟨latency, same⟩ := self.calls_turn now _
      rw [same, taken]
      exact Runtime.turn_tallied refines turns latency
  | @accept task runtime out accepts =>
      obtain ⟨_, absurd, _⟩ | ⟨-, same, silent⟩ := Runtime.flatten_step accepts
      · cases absurd
      · rw [taken, silent]
        change Tallied _ _ [] runtime.flatten
        rw [same]
        exact .aside (calls_edge rfl now)

/-- The attempts in flight that were polled are those that started and did not return. -/
structure Polls (calls : List MetricsCall) (metered : Metered) : Prop where
  aligned : metered.polled.length = metered.service.runtime.tasks.engine.inFlight.length
  attempts : MetricsCall.count calls .publishAttempts =
    (calls.filterMap MetricsCall.completed?).length + metered.polled.countP Option.isSome

/-- The engine's lists stay aligned over a turn. -/
theorem polledAfter_length {action : AcornAlarms.Action}
    {turn : Pipeline × Sent × List AcornAlarms.Event}
    (taken : self.service.runtime.tasks.Turn action turn)
    (aligned : self.polled.length = self.service.runtime.tasks.engine.inFlight.length) :
    (self.polledAfter (.turn action)).length = turn.1.engine.inFlight.length := by
  have coordinated : ∀ (popped : Pipeline) (handled : Handled),
      (popped.coordinate handled).1.engine = popped.engine := by
    intro popped handled
    unfold Pipeline.coordinate
    split <;> rfl
  have worked : ∀ (popped : Pipeline) (result : Except String Worked),
      (popped.work result).1.engine = popped.engine := by
    intro popped result
    cases result <;> rfl
  cases taken with
  | input | jobOutcome =>
      rw [coordinated]
      exact aligned
  | publishOutcome | snoozeOutcome | job =>
      rw [worked]
      exact aligned
  | @snoozeInput clock input rest queue running =>
      cases self.service.runtime.tasks.scheduler.handleSnoozeInput clock input <;> exact aligned
  | expiry => exact aligned
  | flush ticks =>
      simp only [PublishEngine.tick, PublishEngine.flushCompletedBatch,
        Option.ite_none_left_eq_some, Option.some.injEq, Prod.mk.injEq] at ticks
      obtain ⟨-, rfl, -⟩ := ticks
      exact aligned
  | publish queue => simp [polledAfter, PublishEngine.receive, aligned]
  | @completion index delivered attempt engine outcomes returns =>
      cases found : self.service.runtime.tasks.engine.inFlight[index]? with
      | none => simp [PublishEngine.complete, found] at returns
      | some value =>
          obtain ⟨within, -⟩ := List.getElem?_eq_some_iff.mp found
          have shorter : (self.polled.eraseIdx index).length =
              (self.service.runtime.tasks.engine.inFlight.eraseIdx index).length := by
            rw [List.length_eraseIdx_of_lt within, List.length_eraseIdx_of_lt (aligned ▸ within),
              aligned]
          rw [PublishEngine.complete_of found] at returns
          obtain ⟨-, reported⟩ := Prod.mk.inj (Option.some.inj returns)
          simp only [polledAfter, found]
          by_cases again : delivered = false ∧ value.attemptCount < maxDeliveryAttempts
          · rw [if_pos again] at reported
            obtain ⟨rfl, -⟩ := Prod.mk.inj reported
            simp [again.1, again.2, shorter]
          · rw [if_neg again] at reported
            obtain ⟨kept, -⟩ := PublishEngine.handleCompletedWork_results reported.symm
            rw [if_neg (by simpa using again), kept]
            exact shorter

/-- A turn keeps the polled attempts in step with the calls. -/
theorem Polls.turn {calls : List MetricsCall} (polls : Polls calls self)
    {action : AcornAlarms.Action} {turn : Pipeline × Sent × List AcornAlarms.Event}
    (taken : self.service.runtime.tasks.Turn action turn)
    (ready : self.ready (.turn action) = true) (latency : Nat) :
    ((self.service.runtime.tasks.calls latency action).filterMap
          MetricsCall.completed?).length +
        (self.polledAfter (.turn action)).countP Option.isSome =
      self.polled.countP Option.isSome := by
  rw [Pipeline.calls_completed]
  cases action with
  | publish => simp [polledAfter]
  | completion index delivered =>
      obtain ⟨instant, joined⟩ := Option.isSome_iff_exists.mp ready
      have polled := Option.join_eq_some_iff.mp joined
      have fewer := countP_eraseIdx polled (rfl : Option.isSome (some instant) = true)
      obtain ⟨within, -⟩ := List.getElem?_eq_some_iff.mp polled
      have found := List.getElem?_eq_getElem (polls.aligned ▸ within)
      simp only [polledAfter, found]
      split
      · simp
        omega
      · simp
        omega
  | _ => simp [polledAfter]

/-- A step that is no turn of a task leaves the attempts in flight. -/
theorem outer_inFlight {action : Service.Action} {service : Service} {reports : List Service.Event}
    (outside : outer action = true)
    (fires : self.service.step config action = some (service, reports)) :
    service.runtime.tasks.engine.inFlight = self.service.runtime.tasks.engine.inFlight := by
  have turned : ∀ {runtime : Runtime} {message : DomainInput} {now : Int}
      {out : List AcornAlarms.Event}, self.service.runtime.step config (.turn (.input message now)) =
        some (runtime, out) →
      runtime.tasks.engine.inFlight = self.service.runtime.tasks.engine.inFlight := by
    intro runtime message now out turns
    obtain ⟨_, handled, same, -, taken, rfl, -⟩ | ⟨_, _, absurd, -⟩ := Runtime.step_cases turns
    · obtain rfl := RuntimeAction.turn.inj same
      cases taken with
      | input running =>
          simp only [Pipeline.coordinate]
          split <;> rfl
    · cases absurd
  cases Service.step_cases fires with
  | getSnapshot =>
      simp only [Service.getSnapshot]
      split <;> rfl
  | takeUser alive queue turns => exact turned turns
  | takeAutomated queue turns => exact turned turns
  | turn => cases outside
  | accept accepts =>
      obtain ⟨_, _, absurd, -⟩ | ⟨task, _, -, -, -, -, rfl⟩ := Runtime.step_cases accepts
      · cases absurd
      · rfl
  | _ => rfl

/-- A step of the service keeps the polled attempts in step with the calls. -/
theorem Polls.act {calls : List MetricsCall} (polls : Polls calls self) {action : Service.Action}
    {service : Service} {reports : List Service.Event} (ready : self.ready action = true)
    (fires : self.service.step config action = some (service, reports)) (now : Nat)
    {reached : Metered} (same : reached.service = service)
    (follows : reached.polled = self.polledAfter action) :
    Polls (calls ++ self.calls config now action) reached := by
  have attempts := polls.attempts
  cases outside : outer action with
  | true =>
      have edge : ∀ call ∈ self.calls config now action, call.edge = true := calls_edge outside now
      obtain ⟨-, -, silent⟩ := Pipeline.Balanced.edge self.service.runtime.tasks edge
      have kept : self.polledAfter action = self.polled := by
        cases action with
        | turn => cases outside
        | _ => rfl
      constructor
      · rw [follows, same, kept, outer_inFlight outside fires]
        exact polls.aligned
      · rw [follows, kept, MetricsCall.count_append, List.filterMap_append, silent,
          MetricsCall.count_other edge (by decide)]
        simpa using attempts
  | false =>
      cases action with
      | turn turn =>
          obtain ⟨latency, called⟩ : ∃ latency, self.calls config now (.turn turn) =
              self.service.runtime.tasks.calls latency turn := self.calls_turn now turn
          have unstarted : MetricsCall.count (self.service.runtime.tasks.calls latency turn)
              .publishAttempts = 0 := by
            refine List.countP_eq_zero.mpr fun call member counted => ?_
            have begun := of_decide_eq_true counted
            refine (Pipeline.calls_inner _ latency turn call member).2 ?_
            cases call with
            | publishAttemptStarted => rfl
            | publishCompletion outcome => cases outcome <;> cases begun
            | snooze record => cases record <;> cases begun
            | _ => cases begun
          cases Service.step_cases fires with
          | turn inner turns =>
              obtain ⟨_, handled, named, -, taken, rfl, -⟩ | ⟨_, _, absurd, -⟩ :=
                Runtime.step_cases turns
              · obtain rfl := RuntimeAction.turn.inj named
                have moved := polls.turn taken ready latency
                constructor
                · rw [follows, same]
                  exact polledAfter_length taken polls.aligned
                · rw [follows, called, MetricsCall.count_append, List.filterMap_append,
                    List.length_append, unstarted]
                  omega
              · cases absurd
      | _ => cases outside

/-- What the calls of a run have counted. -/
structure Flows (hydratedStatuses : FiniteMap Key Status) (past : List Event) (metered : Metered) :
    Prop where
  refines : ∃ lanes, Refines metered.service.runtime.flatten lanes
  tallied : Tallied (.start hydratedStatuses) (recorded past) (tasks past)
    metered.service.runtime.flatten
  polls : Polls (recorded past) metered

/-- What is counted over two stretches. -/
theorem Tallied.trans {before middle after : Pipeline} {calls more : List MetricsCall}
    {reports later : List AcornAlarms.Event} (first : Tallied before calls reports middle)
    (second : Tallied middle more later after) :
    Tallied before (calls ++ more) (reports ++ later) after := by
  refine ⟨first.1.trans second.1, ?_⟩
  rw [List.filterMap_append, ← List.append_assoc, first.2, List.map_append, List.append_assoc,
    second.2, List.filterMap_append]
  simp only [List.map_append, List.append_assoc]

theorem Flows.start (config : QueueCapacityConfig) (hydratedStatuses : FiniteMap Key Status) :
    Flows hydratedStatuses [] (.start config hydratedStatuses) where
  refines := ⟨_, .initial hydratedStatuses⟩
  tallied := .aside fun _ member => absurd member List.not_mem_nil
  polls := ⟨rfl, rfl⟩

/-- Every step counts what it moves. -/
theorem Flows.step {action : Action} (flows : Flows hydratedStatuses past self)
    (fires : self.step config action = some (next, out)) :
    Flows hydratedStatuses (past ++ out) next := by
  cases step_cases fires with
  | @act action now service reports ready acts =>
      have described : ∃ lanes, Refines service.runtime.flatten lanes := by
        cases taken : (Service.runtimePart config).turn self.service action with
        | none =>
            have same : service.runtime = self.service.runtime :=
              ((Service.runtimePart config).idle acts taken).1
            rw [same]
            exact flows.refines
        | some turn =>
            exact Runtime.flatten_described flows.refines
              ((Service.runtimePart config).moves acts taken)
      refine ⟨described, ?_, ?_⟩
      · rw [recorded_append, tasks_append, recorded_act, tasks_act]
        exact flows.tallied.trans (act_tallied flows.refines acts now)
      · rw [recorded_append, recorded_act]
        exact flows.polls.act ready acts now rfl rfl
  | @poll index now fresh =>
      obtain ⟨within, unpolled⟩ := List.getElem?_eq_some_iff.mp fresh
      obtain ⟨aligned, attempts⟩ := flows.polls
      have started : recorded [.called .publishAttemptStarted] = [.publishAttemptStarted] := rfl
      have running : [MetricsCall.publishAttemptStarted].filterMap MetricsCall.completed? = [] := rfl
      have still : Tallied self.service.runtime.flatten [.publishAttemptStarted] []
          self.service.runtime.flatten := by
        refine ⟨⟨?_, ?_, ?_, ?_, ?_⟩, by simp [MetricsCall.outcome?]⟩ <;>
          simp [MetricsCall.counter?, MetricsCall.completed?]
      refine ⟨flows.refines, ?_, ?_, ?_⟩
      · rw [recorded_append, tasks_append, started]
        exact flows.tallied.trans still
      · simpa using aligned
      · rw [recorded_append, started, MetricsCall.count_append, List.filterMap_append, attempts,
          List.countP_set within, unpolled, running]
        simp [MetricsCall.counter?]
        omega

/-- What the metrics say of the tasks of the service. -/
structure Accounted (metered : Metered) (events : List Event) : Prop where
  jobs : metered.metrics.jobsDispatched = metered.metrics.jobsCommitted +
    metered.metrics.jobsFailed + .ofNat metered.service.runtime.tasks.handler.tracked
  /-- The outcomes counted are those the coordinator took and those on their way to it. -/
  outcomes : ∀ counter ∈ [Counter.jobsCommitted, .jobsFailed, .snoozeWakes],
    metered.metrics.counter counter = .ofNat
      (((tasks events).filterMap AcornAlarms.Event.reconciled? ++
        metered.service.runtime.flatten.jobOutcomes).countP fun outcome =>
          outcome.counter = counter)
  timers : metered.metrics.snooze.snoozeSets = metered.metrics.snooze.snoozeCancels +
    metered.metrics.snooze.snoozeExpirations +
      .ofNat metered.service.runtime.tasks.scheduler.timers
  gauge : metered.metrics.snooze.inFlightSnoozeTimers =
    .ofNat metered.service.runtime.tasks.scheduler.timers
  expired : metered.metrics.snooze.snoozeExpirations = metered.metrics.snoozeWakes +
    .ofNat (metered.service.runtime.flatten.snoozeOutcomes.countP SnoozeOutcome.isExpired)
  attempts : metered.metrics.publishAttempts =
    metered.metrics.publishLatencyMs.samples + metered.metrics.inFlightPublishAttempts
  inFlight : metered.metrics.inFlightPublishAttempts =
      .ofNat (metered.polled.countP Option.isSome) ∧
    metered.polled.length = metered.service.runtime.tasks.engine.inFlight.length
  /-- An attempt that did not fail has its job committed, or its result is on its way. -/
  delivered : metered.metrics.publishLatencyMs.samples = metered.metrics.publishFailures +
    metered.metrics.jobsCommitted +
      .ofNat (metered.service.runtime.flatten.results.countP fun result => result.isOk)
  /-- A failed attempt was retried or has its job failed, a rejected command has its job failed, or
  the news is on its way. -/
  undelivered : metered.metrics.publishFailures + metered.metrics.snooze.snoozeInvalidWakes =
    metered.metrics.publishRetries + metered.metrics.jobsFailed +
      .ofNat (metered.service.runtime.flatten.results.countP (fun result => !result.isOk) +
        metered.service.runtime.flatten.snoozeOutcomes.countP SnoozeOutcome.isInvalidWake)

/-- The metrics of a run are those of its calls. -/
theorem metrics_recorded {admits : List Event → Metered → Action → Prop} {actions : List Action}
    (run : (machine config).Run admits (start config hydratedStatuses) actions events self) :
    self.metrics = (recorded events).foldl Metrics.call (.new config) := by
  refine run.history (fun past metered =>
    metered.metrics = (recorded past).foldl Metrics.call (.new config)) rfl ?_
  intro past metered action next out before _ fires
  rw [recorded_append, List.foldl_append, ← before]
  cases step_cases fires with
  | act ready acts => rw [recorded_act]
  | poll fresh => rfl

/-- In every run the metrics account for the jobs, the timers and the publish attempts. -/
theorem metrics_account {admits : List Event → Metered → Action → Prop} {actions : List Action}
    (run : (machine config).Run admits (start config hydratedStatuses) actions events self) :
    self.Accounted events := by
  have flows := run.history (Flows hydratedStatuses) (.start config hydratedStatuses)
    fun flows _ fires => flows.step fires
  have shows := Metrics.shows_calls config (recorded events)
  rw [← metrics_recorded run] at shows
  obtain ⟨⟨jobs, timers, expired, delivered, undelivered⟩, outcomes⟩ := flows.tallied
  obtain ⟨aligned, attempts⟩ := flows.polls
  have dispatched : self.metrics.jobsDispatched = _ := shows.counters .jobsDispatched
  have committed : self.metrics.jobsCommitted = _ := shows.counters .jobsCommitted
  have failed : self.metrics.jobsFailed = _ := shows.counters .jobsFailed
  have wakes : self.metrics.snoozeWakes = _ := shows.counters .snoozeWakes
  have sets : self.metrics.snooze.snoozeSets = _ := shows.counters .snoozeSets
  have cancels : self.metrics.snooze.snoozeCancels = _ := shows.counters .snoozeCancels
  have rejected : self.metrics.snooze.snoozeInvalidWakes = _ := shows.counters .snoozeInvalidWakes
  have expirations : self.metrics.snooze.snoozeExpirations = _ := shows.counters .snoozeExpirations
  have started : self.metrics.publishAttempts = _ := shows.counters .publishAttempts
  have retries : self.metrics.publishRetries = _ := shows.counters .publishRetries
  have failures : self.metrics.publishFailures = _ := shows.counters .publishFailures
  have completed := shows.completions.samples
  have armed : self.metrics.snooze.snoozeSets = self.metrics.snooze.snoozeCancels +
      self.metrics.snooze.snoozeExpirations +
        .ofNat self.service.runtime.tasks.scheduler.timers := by
    rw [sets, cancels, expirations, ← UInt64.ofNat_add, ← UInt64.ofNat_add]
    exact congrArg _ timers
  constructor
  case jobs =>
    rw [dispatched, committed, failed, ← UInt64.ofNat_add, ← UInt64.ofNat_add]
    exact congrArg _ jobs
  case outcomes =>
    intro counter settles
    rw [shows.counters, MetricsCall.count_outcome settles]
    have taken : (recorded events).filterMap MetricsCall.outcome? = _ := outcomes
    rw [taken, List.countP_map]
    rfl
  case timers => exact armed
  case gauge =>
    rw [shows.timers, armed]
    grind
  case expired =>
    rw [expirations, wakes, ← UInt64.ofNat_add]
    exact congrArg _ expired
  case attempts =>
    rw [shows.attempts]
    grind
  case inFlight =>
    refine ⟨?_, aligned⟩
    rw [shows.attempts, started, completed, attempts, UInt64.ofNat_add]
    grind
  case delivered =>
    rw [completed, failures, committed, ← UInt64.ofNat_add, ← UInt64.ofNat_add]
    exact congrArg _ delivered
  case undelivered =>
    rw [failures, rejected, retries, failed, ← UInt64.ofNat_add, ← UInt64.ofNat_add,
      ← UInt64.ofNat_add, ← Nat.add_assoc]
    exact congrArg _ undelivered

end Metered

end

section

attribute [local instance] asciiPlatform

namespace Metered

/-- Steps of the service that end at one instant. -/
def during (now : Nat) (actions : List Service.Action) : List Action :=
  actions.map fun action => .act action now

/-- A bypass is published after one retry and its request answered. -/
def bypassMetered : List Action :=
  during 0 ([.request (.bypass ["PUMP#Analog"] "operator"), .trySend 0, .takeUser 0] ++
      Service.carry) ++
    .poll 0 1000000 :: during 21000000 [.turn (.completion 0 false)] ++
    .poll 0 22000000 :: during 30000000 (Service.deliver ++ [.respond 0])

/-- The only job was committed and no attempt is under way. -/
theorem metrics_account_bypass : ∃ final events,
    (machine Service.narrow).Run Machine.Every (start Service.narrow .empty) bypassMetered events
        final ∧
      final.metrics.jobsCommitted + final.metrics.jobsFailed = 1 ∧
      final.metrics.inFlightPublishAttempts = 0 ∧
      final.metrics.publishFailures = final.metrics.publishRetries + final.metrics.jobsFailed := by
  obtain ⟨final, events, run, check⟩ := run_of_check Service.narrow bypassMetered
    (fun final _ => decide (final.metrics.jobsDispatched = 1 ∧
      final.service.runtime.tasks.handler.tracked = 0 ∧
      final.polled = [] ∧ final.service.runtime.flatten.results = [] ∧
      final.service.runtime.flatten.snoozeOutcomes = [] ∧
      final.metrics.snooze.snoozeInvalidWakes = 0)) (by decide)
  obtain ⟨dispatched, untracked, polled, results, outcomes, valid⟩ := of_decide_eq_true check
  obtain ⟨jobs, -, -, -, -, -, ⟨inFlight, -⟩, -, undelivered⟩ := metrics_account run
  rw [dispatched, untracked] at jobs
  rw [polled] at inFlight
  rw [valid, results, outcomes] at undelivered
  exact ⟨final, events, run, by simpa using jobs.symm, inFlight, by simpa using undelivered⟩

end Metered

end

end AcornAlarms
