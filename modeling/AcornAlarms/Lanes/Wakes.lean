import AcornAlarms.Lanes.Decisions
import AcornAlarms.Library.History

/-!
# Timers and the wake-ups they send

A timer is known by the wake time of the command that set it. An expiry travels to the
coordinator behind those of its key that came before, so the wake-up the coordinator
handles next stands for the oldest expired timer not yet handled.
-/

namespace AcornAlarms

open Library

variable [Platform]

/-- The timer of a key after an event: an accepted command sets or cancels it, an expiry uses
it up. -/
def timerAfter (key : Key) (timer : Option Timestamp) : Event → Option Timestamp
  | .answered other wake true => if other = key then wake else timer
  | .expired other => if other = key then none else timer
  | _ => timer

/-- The wake time the timer of a key is set for. -/
def timerOf (key : Key) (past : List Event) : Option Timestamp := past.foldl (timerAfter key) none

/-- The timers of a key that expired, oldest first. -/
def expiredTimers (key : Key) (past : List Event) : List (Option Timestamp) :=
  statesAt (timerAfter key) (fun event => event = .expired key) none past

/-- How many wake-ups of a key the coordinator handled. -/
def wakesHandled (key : Key) (past : List Event) : Nat := past.count (.woke key)

/-- The wake time of the expired timer whose wake-up the coordinator handles next. -/
def expiredTimer (key : Key) (past : List Event) : Option Timestamp :=
  ((expiredTimers key past)[wakesHandled key past]?).join

/-- The wake-ups of a key on their way to the coordinator. -/
def Pipeline.wakesOf (self : Pipeline) (key : Key) : Nat :=
  self.snoozeOutcomes.count (.expired key) + self.jobOutcomes.count (.wake key)

section

variable (key : Key) (past : List Event) (event : Event)

theorem timerOf_snoc : timerOf key (past ++ [event]) = timerAfter key (timerOf key past) event := by
  rw [timerOf, List.foldl_append]
  rfl

theorem expiredTimers_snoc : expiredTimers key (past ++ [event]) =
    expiredTimers key past ++ if event = .expired key then [timerOf key past] else [] := by
  rw [expiredTimers, statesAt_append]
  simp [statesAt, expiredTimers, timerOf]

/-- Events without an expiry of the key. -/
theorem expiredTimers_kept {out : List Event} (none : .expired key ∉ out) :
    expiredTimers key (past ++ out) = expiredTimers key past := by
  have skipped := statesAt_none (timerAfter key) (fun event => event = .expired key)
    (timerOf key past) out (by
      intro event member
      refine decide_eq_false fun same => ?_
      rw [same] at member
      exact none member)
  rw [expiredTimers, statesAt_append]
  exact (congrArg _ skipped).trans (List.append_nil _)

theorem wakesHandled_snoc : wakesHandled key (past ++ [event]) =
    wakesHandled key past + if event = .woke key then 1 else 0 := by
  simp [wakesHandled, List.count_singleton]

end

/-- An event that concerns no timer. -/
def Event.Untimed : Event → Prop
  | .answered _ _ _ | .expired _ | .woke _ => False
  | _ => True

theorem Event.Reconciles.untimed {event : Event} (reconciles : event.Reconciles) :
    event.Untimed := by
  cases event <;> trivial

/-- The history of the timers agrees with the scheduler and with the wake-ups in transit. -/
structure Timed (past : List Event) (pipeline : Pipeline) : Prop where
  registered : ∀ key, (pipeline.scheduler.registry.get? key).isSome = (timerOf key past).isSome
  set : ∀ key, ∀ timer ∈ expiredTimers key past, timer.isSome = true
  transit : ∀ key, (expiredTimers key past).length = wakesHandled key past + pipeline.wakesOf key

namespace Timed

variable {past out : List Event} {pipeline next : Pipeline}

theorem start (hydratedStatuses : FiniteMap Key Status) : Timed [] (.start hydratedStatuses) where
  registered := fun key => by simp [Pipeline.start, SnoozeScheduler.new, timerOf]
  set := fun key timer member => absurd member List.not_mem_nil
  transit := fun key => rfl

/-- The wake-up at the head of the job-outcome queue stands for a timer that was set. -/
theorem waking (timed : Timed past pipeline) {key : Key} {rest : List JobOutcome}
    (queue : pipeline.jobOutcomes = .wake key :: rest) :
    ∃ wake, expiredTimer key past = some wake := by
  have room : wakesHandled key past < (expiredTimers key past).length := by
    have transit := timed.transit key
    rw [Pipeline.wakesOf, queue, List.count_cons_self] at transit
    omega
  have present := timed.set key _ (List.getElem_mem room)
  obtain ⟨wake, found⟩ := Option.isSome_iff_exists.mp present
  exact ⟨wake, by rw [expiredTimer, List.getElem?_eq_getElem room, found]; rfl⟩

/-- Events that concern no timer. -/
theorem untimed (key : Key) (quiet : ∀ event ∈ out, event.Untimed) :
    timerOf key (past ++ out) = timerOf key past ∧
      expiredTimers key (past ++ out) = expiredTimers key past ∧
      wakesHandled key (past ++ out) = wakesHandled key past := by
  obtain ⟨none, same⟩ := statesAt_still (timerAfter key) (fun event => event = .expired key)
    (timerOf key past) out (by
      intro event member
      have still := quiet event member
      cases event <;> simp_all [Event.Untimed, timerAfter])
  refine ⟨?_, ?_, ?_⟩
  · rw [timerOf, List.foldl_append]
    exact same
  · rw [expiredTimers, statesAt_append]
    exact (congrArg _ none).trans (List.append_nil _)
  · have none : out.count (.woke key) = 0 := List.count_eq_zero.mpr fun member => quiet _ member
    rw [wakesHandled, List.count_append, none]
    rfl

/-- A turn that concerns no timer. -/
theorem still (timed : Timed past pipeline) (quiet : ∀ event ∈ out, event.Untimed)
    (scheduler : next.scheduler = pipeline.scheduler)
    (wakes : ∀ key, next.wakesOf key = pipeline.wakesOf key) : Timed (past ++ out) next where
  registered := by
    intro key
    rw [scheduler, (untimed key quiet).1]
    exact timed.registered key
  set := by
    intro key
    rw [(untimed key quiet).2.1]
    exact timed.set key
  transit := by
    intro key
    rw [(untimed key quiet).2.1, (untimed key quiet).2.2, wakes]
    exact timed.transit key

end Timed

namespace AlarmStateCoordinator

variable (self : AlarmStateCoordinator) (port : JobPort)

theorem speculate_untimed (key : Key) (status : Status) (id : Nat) :
    ∀ event ∈ (self.speculate port key status id).events, event.Untimed := by
  unfold speculate
  simp only
  split
  · exact fun event member => (sendNextFor_reconciles _ port key event member).untimed
  · simp [Handled.done]

theorem handleAutomatedUpdate_untimed (status : Status) :
    ∀ event ∈ (self.handleAutomatedUpdate port status).events, event.Untimed := by
  unfold handleAutomatedUpdate
  simp only
  split
  · exact List.forall_mem_append.mpr
      ⟨by simp [Event.Untimed], speculate_untimed _ port _ _ _⟩
  · simp [Handled.done]

theorem handleMessage_untimed (now : Int) (message : DomainInput) :
    ∀ event ∈ (self.handleMessage port now message).events, event.Untimed := by
  cases message with
  | snapshotRequest sender =>
      simp [handleMessage, handleSnapshot, Handled.done, Event.Untimed]
  | automatedUpdate status => exact self.handleAutomatedUpdate_untimed port status
  | userUpdate key action user confirmation =>
      unfold handleMessage handleUserUpdate
      simp only
      split
      · exact List.forall_mem_append.mpr
          ⟨by simp [Event.Untimed], speculate_untimed _ port _ _ _⟩
      · simp [Handled.done, Event.Untimed]

end AlarmStateCoordinator

namespace Pipeline

variable {self : Pipeline}

/-- The end of a coordinator turn adds no event that concerns a timer. -/
theorem coordinate_events {handled : Handled} {first rest : List Event}
    (events : handled.events = first ++ rest) (quiet : ∀ event ∈ rest, event.Untimed) :
    ∃ later, (self.coordinate handled).2.2 = first ++ later ∧ ∀ event ∈ later, event.Untimed := by
  unfold coordinate
  split
  · exact ⟨rest, events, quiet⟩
  · next cause failure =>
      refine ⟨rest ++ .unrecoverable cause :: handled.coordinator.failAllConfirmations.2, ?_, ?_⟩
      · simp [events]
      · refine List.forall_mem_append.mpr ⟨quiet, List.forall_mem_cons.mpr ⟨trivial, ?_⟩⟩
        intro event member
        exact (AlarmStateCoordinator.failAllConfirmations_reconciles _ event member).untimed

/-- The end of a coordinator turn leaves the scheduler and the wake-ups in transit. -/
theorem coordinate_frame (handled : Handled) :
    ((self.coordinate handled).1.deliver (self.coordinate handled).2.1).scheduler = self.scheduler ∧
      ∀ key, ((self.coordinate handled).1.deliver (self.coordinate handled).2.1).wakesOf key =
        self.wakesOf key := by
  unfold coordinate
  split <;> simp [wakesOf]

theorem work_untimed (result : Except String Worked) :
    ∀ event ∈ (self.work result).2.2, event.Untimed := by
  intro event member
  cases result with
  | error message =>
      obtain rfl := List.mem_singleton.mp member
      trivial
  | ok worked =>
      obtain ⟨key, _, rfl⟩ := List.mem_map.mp member
      trivial

/-- The end of a handler turn leaves the scheduler. -/
theorem work_scheduler (result : Except String Worked) :
    ((self.work result).1.deliver (self.work result).2.1).scheduler = self.scheduler := by
  cases result <;> rfl

/-- A handler turn that sends no wake-up leaves those in transit. -/
theorem work_wakes {result : Except String Worked} (wakeless : WorkflowHandler.Wakeless result)
    (key : Key) :
    ((self.work result).1.deliver (self.work result).2.1).wakesOf key = self.wakesOf key := by
  cases result with
  | error message => simp [work, deliver, Sent.none, wakesOf]
  | ok worked =>
      have none : (worked.sends.filterMap WorkflowSend.outcome?).count (.wake key) = 0 := by
        apply List.count_eq_zero.mpr
        intro member
        obtain ⟨message, inside, same⟩ := List.mem_filterMap.mp member
        cases message with
        | outcome outcome =>
            obtain rfl := Option.some.inj same
            exact wakeless worked rfl key inside
        | publish _ | snooze _ => cases same
      simp [work, wakesOf, List.count_append, none]

end Pipeline

/-- The coordinator reports the wake-up it takes before what it does about it. -/
theorem Refines.wakes_first {pipeline next : Pipeline} {lanes : Lanes} {out : List Event}
    (refines : Refines pipeline lanes) {key : Key} {rest : List JobOutcome} {now : Int}
    (queue : pipeline.jobOutcomes = .wake key :: rest)
    (fires : pipeline.step (.jobOutcome now) = some (next, out)) :
    ∃ later, out = .woke key :: later ∧ (∀ event ∈ later, event.Untimed) ∧
      next.scheduler = pipeline.scheduler ∧
      ∀ other, next.wakesOf other = { pipeline with jobOutcomes := rest }.wakesOf other := by
  simp only [Pipeline.step, Pipeline.handle, queue, if_pos refines.coordinatorRunning,
    Option.map_some, Option.some.injEq, Prod.mk.injEq] at fires
  obtain ⟨rfl, rfl⟩ := fires
  let popped : Pipeline := { pipeline with jobOutcomes := rest }
  obtain ⟨later, same, quiet⟩ := popped.coordinate_events
    (rfl : (pipeline.coordinator.reconcileJobOutcome pipeline.jobPort now (.wake key)).events =
      [.woke key] ++ _)
    (pipeline.coordinator.handleAutomatedUpdate_untimed pipeline.jobPort (buildWakeStatus key now))
  exact ⟨later, same, quiet, popped.coordinate_frame _⟩

namespace Timed

variable {past out : List Event} {pipeline next : Pipeline} {lanes : Lanes}

/-- The end of a coordinator turn that reports nothing about a timer. -/
theorem coordinate (timed : Timed past pipeline) {handled : Handled}
    (quiet : ∀ event ∈ handled.events, event.Untimed) :
    Timed (past ++ (pipeline.coordinate handled).2.2)
      ((pipeline.coordinate handled).1.deliver (pipeline.coordinate handled).2.1) := by
  obtain ⟨later, same, silent⟩ :=
    pipeline.coordinate_events (List.nil_append handled.events).symm quiet
  obtain ⟨scheduler, wakes⟩ := pipeline.coordinate_frame handled
  rw [same]
  exact timed.still silent scheduler wakes

/-- A handler turn that sends no wake-up. -/
theorem work (timed : Timed past pipeline) {result : Except String Worked}
    (wakeless : WorkflowHandler.Wakeless result) :
    Timed (past ++ (pipeline.work result).2.2)
      ((pipeline.work result).1.deliver (pipeline.work result).2.1) :=
  timed.still (pipeline.work_untimed result) (pipeline.work_scheduler result)
    (pipeline.work_wakes wakeless)

/-- A message other than a wake-up leaves its queue. -/
theorem pop (timed : Timed past pipeline)
    (scheduler : next.scheduler = pipeline.scheduler)
    (wakes : ∀ key, next.wakesOf key = pipeline.wakesOf key) : Timed past next := by
  have kept : Timed (past ++ []) next := timed.still (by simp) scheduler wakes
  rwa [List.append_nil] at kept

/-- The coordinator takes a wake-up: it counts as handled and is no longer in transit. -/
theorem woke (timed : Timed past pipeline) {key : Key} {rest : List JobOutcome}
    (queue : pipeline.jobOutcomes = .wake key :: rest) :
    Timed (past ++ [.woke key]) { pipeline with jobOutcomes := rest } where
  registered := by
    intro other
    rw [timerOf_snoc]
    exact timed.registered other
  set := by
    intro other
    simpa [expiredTimers_snoc] using timed.set other
  transit := by
    intro other
    have transit := timed.transit other
    rw [Pipeline.wakesOf, queue, List.count_cons] at transit
    rw [expiredTimers_snoc, wakesHandled_snoc, Pipeline.wakesOf]
    by_cases here : key = other
    · simp [here] at transit ⊢
      omega
    · simp [here] at transit ⊢
      omega

/-- The handler takes the notice of an elapsed timer: it becomes a wake-up. -/
theorem forward (timed : Timed past pipeline) (refines : Refines pipeline lanes) {key : Key}
    {rest : List SnoozeOutcome} (queue : pipeline.snoozeOutcomes = .expired key :: rest) :
    let turn := { pipeline with snoozeOutcomes := rest }.work
      (pipeline.handler.handleSnoozeResult pipeline.workflowPorts (.expired key))
    Timed (past ++ turn.2.2) (turn.1.deliver turn.2.1) := by
  simp only [WorkflowHandler.handleSnoozeResult, WorkflowHandler.sendOutcome,
    refines.workflowPorts_eq, WorkflowPorts.alive, if_true, Pipeline.work,
    Pipeline.deliver_outcome, List.map_nil, List.append_nil]
  refine timed.pop rfl fun other => ?_
  simp only [Pipeline.wakesOf, queue, List.count_append, List.count_cons, List.count_nil]
  by_cases here : key = other
  · simp [here]
    omega
  · simp [here]

/-- The scheduler takes a command. -/
theorem command (timed : Timed past pipeline) (refines : Refines pipeline lanes) {clock : Clock}
    {input : SnoozeInput} {rest : List SnoozeInput} :
    let turn := { pipeline with snoozeInputs := rest }.schedule input
      (pipeline.scheduler.handleSnoozeInput clock input)
    Timed (past ++ turn.2.2) (turn.1.deliver turn.2.1) := by
  obtain ⟨scheduler, answers, _⟩ :=
    SnoozeScheduler.handleSnoozeInput_eq refines.coherent clock input
  have registry := SnoozeScheduler.handleSnoozeInput_registry answers
  simp only [answers, Pipeline.schedule, SnoozeScheduler.answer_eq_accepted,
    Pipeline.deliver_byScheduler]
  refine ⟨?_, ?_, ?_⟩
  · intro key
    rw [registry key, timerOf_snoc, timed.registered key]
    cases accepted : SnoozeScheduler.accepts clock input with
    | true =>
        by_cases here : input.key = key
        · simp [timerAfter, here]
        · simp [timerAfter, here]
    | false => simp [timerAfter]
  · intro key
    simpa [expiredTimers_snoc] using timed.set key
  · intro key
    rw [expiredTimers_snoc, wakesHandled_snoc]
    simpa [Pipeline.wakesOf, List.count_append, List.count_singleton] using timed.transit key

/-- A timer elapses. -/
theorem expiry (timed : Timed past pipeline) (refines : Refines pipeline lanes) {clock : Clock}
    {slot : Nat} {scheduler : SnoozeScheduler} {key : Key}
    (expires : pipeline.scheduler.expire clock slot = some (scheduler, key)) :
    Timed (past ++ [.expired key])
      ({ pipeline with scheduler }.deliver (.byScheduler [.expired key])) := by
  rw [Pipeline.deliver_byScheduler]
  obtain ⟨held, registry, _⟩ := SnoozeScheduler.expire_eq refines.coherent expires
  refine ⟨?_, ?_, ?_⟩
  · intro other
    rw [timerOf_snoc, registry, FiniteMap.get?_erase]
    by_cases here : key = other
    · simp [timerAfter, here]
    · simp [timerAfter, here, Ne.symm here, timed.registered other]
  · intro other timer member
    rw [expiredTimers_snoc] at member
    rcases List.mem_append.mp member with old | fresh
    · exact timed.set other timer old
    · split at fresh
      · next same =>
          obtain rfl := Event.expired.inj same
          obtain rfl := List.mem_singleton.mp fresh
          rw [← timed.registered key, held]
          rfl
      · exact absurd fresh List.not_mem_nil
  · intro other
    have transit := timed.transit other
    rw [expiredTimers_snoc, wakesHandled_snoc]
    simp only [Pipeline.wakesOf, List.count_append, List.count_singleton] at transit ⊢
    by_cases here : key = other
    · simp [here]
      omega
    · simp [here]
      omega

/-- Every turn keeps the history of the timers true. -/
theorem step {action : Action} (timed : Timed past pipeline) (refines : Refines pipeline lanes)
    (fires : pipeline.step action = some (next, out)) : Timed (past ++ out) next := by
  obtain ⟨turn, taken, rfl, rfl⟩ := Pipeline.turn_of_step fires
  cases taken with
  | @input message now running =>
      exact timed.coordinate
        (pipeline.coordinator.handleMessage_untimed pipeline.jobPort now message)
  | @jobOutcome now outcome rest queue running =>
      cases outcome with
      | committed job =>
          have popped : Timed past { pipeline with jobOutcomes := rest } :=
            timed.pop rfl fun key => by simp [Pipeline.wakesOf, queue]
          exact popped.coordinate fun event member =>
            (AlarmStateCoordinator.reconcileSuccess_reconciles _ _ job event member).untimed
      | failed job =>
          have popped : Timed past { pipeline with jobOutcomes := rest } :=
            timed.pop rfl fun key => by simp [Pipeline.wakesOf, queue]
          exact popped.coordinate fun event member =>
            (AlarmStateCoordinator.reconcileFailure_reconciles _ _ job event member).untimed
      | wake key =>
          obtain ⟨later, same, quiet, scheduler, wakes⟩ := refines.wakes_first queue fires
          rw [same, List.append_cons]
          exact (timed.woke queue).still quiet scheduler wakes
  | @publishOutcome outcome rest queue running =>
      have popped : Timed past { pipeline with publishOutcomes := rest } := timed.pop rfl fun _ => rfl
      exact popped.work (WorkflowHandler.handlePublishOutcome_wakeless outcome)
  | @snoozeOutcome outcome rest queue running =>
      cases outcome with
      | accepted key =>
          have popped : Timed past { pipeline with snoozeOutcomes := rest } :=
            timed.pop rfl fun other => by simp [Pipeline.wakesOf, queue]
          exact popped.work (WorkflowHandler.advanceWorkflow_wakeless key)
      | invalidWake key =>
          have popped : Timed past { pipeline with snoozeOutcomes := rest } :=
            timed.pop rfl fun other => by simp [Pipeline.wakesOf, queue]
          exact popped.work (WorkflowHandler.sendFailed_wakeless key)
      | expired key => exact timed.forward refines queue
  | @job job rest queue running =>
      have popped : Timed past { pipeline with jobs := rest } := timed.pop rfl fun _ => rfl
      exact popped.work (WorkflowHandler.handleNewJob_wakeless job)
  | snoozeInput queue running => exact timed.command refines
  | expiry running expires => exact timed.expiry refines expires
  | completion returns =>
      exact timed.still (by simp [Event.Untimed]) rfl fun _ => by
        simp [Pipeline.wakesOf]
  | flush ticks =>
      exact timed.still (by simp) rfl fun _ => by
        simp [Pipeline.wakesOf]
  | publish queue =>
      exact timed.still (by simp) rfl fun _ => by
        simp [Pipeline.wakesOf]

end Timed

end AcornAlarms
