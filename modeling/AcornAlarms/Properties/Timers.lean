import AcornAlarms.Lanes.Timers

/-!
# Timers agree with bypasses

A timer is registered exactly for the keys whose confirmed status has a wake time, once
nothing of the key is outstanding, and it fires at the instant the last command of the key
asked for.
-/

namespace AcornAlarms

open Library

section

variable [Platform]

namespace Pipeline

/-- The command of the key a turn takes, with the clock it is handled at. -/
def takesCommand (key : Key) (self : Pipeline) : Action → List Event → List (Clock × SnoozeInput)
  | .snoozeInput clock, _ =>
      (self.snoozeInputs.head?.filter fun input => input.key = key).toList.map
        fun input => (clock, input)
  | _, _ => []

/-- Only a command turn takes one. -/
theorem takesCommand_eq_nil {key : Key} {self : Pipeline} {action : Action} {out : List Event}
    (noCommand : ∀ clock, action ≠ .snoozeInput clock) :
    self.takesCommand key action out = [] := by
  cases action with
  | snoozeInput clock => exact absurd rfl (noCommand clock)
  | _ => rfl

/-- The commands of the key the scheduler took, oldest first. -/
def commands (key : Key) (self : Pipeline) (actions : List Action) : List (Clock × SnoozeInput) :=
  machine.observe (takesCommand key) self actions

/-- The wake time of the confirmed status of a key. -/
def confirmedWake (self : Pipeline) (key : Key) : Option Timestamp :=
  (self.coordinator.confirmedState.get? key).bind fun entry => entry.1.wake

/-- No other turn touches the scheduler. -/
theorem scheduler_kept {self next : Pipeline} {action : Action} {out : List Event}
    (fires : self.step action = some (next, out)) (noCommand : ∀ clock, action ≠ .snoozeInput clock)
    (noExpiry : ∀ clock slot, action ≠ .expiry clock slot) : next.scheduler = self.scheduler := by
  obtain ⟨turn, taken, rfl, _⟩ := turn_of_step fires
  cases taken with
  | input | jobOutcome => exact (coordinate_frame _).1
  | publishOutcome | snoozeOutcome | job => exact work_scheduler _
  | @snoozeInput clock => exact absurd rfl (noCommand clock)
  | @expiry clock slot => exact absurd rfl (noExpiry clock slot)
  | completion | flush | publish => rfl

end Pipeline

/-- The commands of a key, their answers and the deadline of its timer. -/
structure Scheduled (key : Key) (commands : List (Clock × SnoozeInput)) (past : List Event)
    (pipeline : Pipeline) : Prop where
  answers : answersOf key past =
    commands.map fun taken => (taken.2.wake, SnoozeScheduler.accepts taken.1 taken.2)
  entry : ∀ slot, pipeline.scheduler.registry.get? key = some slot →
    ∃ clock wake deadline,
      (commands.filter fun taken => SnoozeScheduler.accepts taken.1 taken.2).getLast? =
        some (clock, ⟨key, some wake⟩) ∧
      timestampSecsToInstant clock wake = some deadline ∧
      pipeline.scheduler.delayQueue.entries.get? slot = some (key, deadline)

/-- Only a command of the key answers one. -/
theorem Timing.unanswered {key : Key} {pipeline : Pipeline} {action : Action} {out : List Event}
    (timing : Timing pipeline action out) (noCommand : ∀ clock, action ≠ .snoozeInput clock) :
    answersOf key out = [] := by
  cases timing with
  | untimed quiet => exact answersOf_untimed quiet
  | @answered clock _ _ taken _ _ => exact absurd taken (noCommand clock)
  | expired _ _ single =>
      rw [single]
      rfl
  | @woke _ woken _ rest _ _ first quiet =>
      have none : answersOf key (.woke woken :: rest) = answersOf key rest := rfl
      rw [first, none, answersOf_untimed quiet]

section

variable {key : Key} {commands : List (Clock × SnoozeInput)} {past out : List Event}
  {pipeline next : Pipeline}

/-- Without a command of the key its timer keeps its deadline. -/
theorem Scheduled.kept (scheduled : Scheduled key commands past pipeline)
    (unanswered : answersOf key out = [])
    (same : ∀ slot, next.scheduler.registry.get? key = some slot →
      pipeline.scheduler.registry.get? key = some slot ∧
        next.scheduler.delayQueue.entries.get? slot =
          pipeline.scheduler.delayQueue.entries.get? slot) :
    Scheduled key commands (past ++ out) next where
  answers := by rw [answersOf_append, unanswered, List.append_nil, scheduled.answers]
  entry := by
    intro slot registered
    obtain ⟨before, entry⟩ := same slot registered
    rw [entry]
    exact scheduled.entry slot before

/-- An accepted command of the key sets its deadline and a rejected one leaves it. -/
theorem Scheduled.command (scheduled : Scheduled key commands past pipeline)
    (coherent : pipeline.scheduler.Coherent) {clock : Clock} {input : SnoozeInput}
    (named : input.key = key) {outcome : SnoozeOutcome}
    (handled : pipeline.scheduler.handleSnoozeInput clock input = .ok (next.scheduler, outcome)) :
    Scheduled key (commands ++ [(clock, input)])
      (past ++ [.answered input.key input.wake (SnoozeScheduler.accepts clock input)]) next where
  answers := by
    rw [answersOf_append, scheduled.answers, List.map_append]
    simp [answersOf, Event.answer?, named]
  entry := by
    intro slot registered
    rw [List.filter_append]
    rcases SnoozeScheduler.handleSnoozeInput_entry coherent handled registered with
      ⟨_, wake, deadline, same, converted, entry⟩ | ⟨kept, before, entry⟩
    · have accepted : SnoozeScheduler.accepts clock input = true := by
        simp [SnoozeScheduler.accepts, same, converted]
      refine ⟨clock, wake, deadline, ?_, converted, entry⟩
      simp [accepted, ← same, ← named]
    · have rejected : SnoozeScheduler.accepts clock input = false := by
        simpa [named] using kept
      obtain ⟨earlier, wake, deadline, last, converted, found⟩ := scheduled.entry slot before
      refine ⟨earlier, wake, deadline, ?_, converted, entry.trans found⟩
      simpa [rejected] using last

/-- A turn keeps the commands of a key, their answers and the deadline of its timer together. -/
theorem Scheduled.step {lanes : Lanes} {action : Action} (refines : Refines pipeline lanes)
    (scheduled : Scheduled key commands past pipeline)
    (fires : pipeline.step action = some (next, out)) :
    Scheduled key (commands ++ pipeline.takesCommand key action out) (past ++ out) next := by
  obtain ⟨turn, taken, rfl, rfl⟩ := Pipeline.turn_of_step fires
  have timing := refines.timing fires
  cases taken with
  | @snoozeInput clock input rest queue =>
      obtain ⟨scheduler, handled, _⟩ :=
        SnoozeScheduler.handleSnoozeInput_eq refines.coherent clock input
      simp only [handled, Pipeline.schedule, SnoozeScheduler.answer_eq_accepted,
        Pipeline.deliver_byScheduler]
      by_cases named : input.key = key
      · have taking : ∀ out, pipeline.takesCommand key (.snoozeInput clock) out =
            [(clock, input)] := by
          simp [Pipeline.takesCommand, queue, named]
        rw [taking]
        exact scheduled.command refines.coherent named handled
      · have untaken : ∀ out, pipeline.takesCommand key (.snoozeInput clock) out = [] := by
          simp [Pipeline.takesCommand, queue, named]
        rw [untaken, List.append_nil]
        refine scheduled.kept (by simp [answersOf, Event.answer?, named]) fun slot registered => ?_
        rcases SnoozeScheduler.handleSnoozeInput_entry refines.coherent handled registered with
          ⟨same, _⟩ | ⟨_, before, entry⟩
        · exact absurd same named
        · exact ⟨before, entry⟩
  | @expiry clock slot scheduler elapsed running expires =>
      rw [Pipeline.takesCommand_eq_nil (by simp), List.append_nil]
      exact scheduled.kept (timing.unanswered (by simp)) fun slot registered =>
        SnoozeScheduler.expire_entry refines.coherent expires registered
  | input | jobOutcome | publishOutcome | snoozeOutcome | job | completion | flush | publish =>
      rw [Pipeline.takesCommand_eq_nil (by simp), List.append_nil]
      refine scheduled.kept (timing.unanswered (by simp)) fun slot registered => ?_
      rw [Pipeline.scheduler_kept fires (by simp) (by simp)] at registered ⊢
      exact ⟨registered, rfl⟩

end

section

variable {hydratedStatuses : FiniteMap Key Status} {pipeline : Pipeline} {actions : List Action}
  {events : List Event} {admits : List Event → Pipeline → Action → Prop}

/-- After every run the timer of a key has the deadline its last accepted command asked for. -/
theorem Pipeline.scheduled
    (run : Pipeline.machine.Run admits (.start hydratedStatuses) actions events pipeline)
    (key : Key) :
    Scheduled key ((Pipeline.start hydratedStatuses).commands key actions) events pipeline := by
  induction run with
  | refl => exact ⟨rfl, by simp [Pipeline.start, SnoozeScheduler.new]⟩
  | snoc prior admitted fires ih =>
      obtain ⟨lanes, refines⟩ := (Refines.initial hydratedStatuses).run prior
      rw [Pipeline.commands, prior.observe_snoc (Pipeline.takesCommand key) fires]
      exact ih.step refines fires

/-- With no job outstanding and no wake-up on its way, a key has a timer iff its confirmed
status has a wake time, and the timer has the deadline that wake time converted to when the
last command of the key was handled. -/
theorem timers_agree
    (wakeless : ∀ key status, hydratedStatuses.get? key = some status → status.wake = none)
    (run : Pipeline.machine.Run Pipeline.Fed (.start hydratedStatuses) actions events pipeline)
    (key : Key) (quiet : pipeline.outstanding key = []) (transit : pipeline.wakesOf key = 0) :
    (pipeline.scheduler.registry.get? key).isSome = (pipeline.confirmedWake key).isSome ∧
    ∀ slot, pipeline.scheduler.registry.get? key = some slot → ∃ clock wake deadline,
      ((Pipeline.start hydratedStatuses).commands key actions).getLast? =
        some (clock, ⟨key, some wake⟩) ∧
      pipeline.confirmedWake key = some wake ∧
      timestampSecsToInstant clock wake = some deadline ∧
      pipeline.scheduler.delayQueue.entries.get? slot = some (key, deadline) := by
  obtain ⟨lanes, refines, timed, armed⟩ := Pipeline.armed wakeless run
  have held := (armed key).idle (refines.idle_of_outstanding quiet)
  have settled : timerOf key events = pipeline.confirmedWake key := by
    rw [Pipeline.confirmedWake, refines.desk]
    apply held.settled
    have balance := timed.transit key
    rw [Waking]
    omega
  refine ⟨by rw [timed.registered key, settled], fun slot registered => ?_⟩
  have scheduled := Pipeline.scheduled run key
  obtain ⟨clock, wake, deadline, last, converted, entry⟩ := scheduled.entry slot registered
  have answer : (answersOf key events).getLast? = some (pipeline.confirmedWake key, true) := by
    rw [Pipeline.confirmedWake, refines.desk]
    rcases held.answer with answer | ⟨none, _⟩
    · exact answer
    · rw [scheduled.answers, List.map_eq_nil_iff] at none
      rw [none] at last
      cases last
  -- The last command was accepted, so it is the last accepted one.
  rw [scheduled.answers, List.getLast?_map, Option.map_eq_some_iff] at answer
  obtain ⟨⟨final, input⟩, latest, same⟩ := answer
  obtain ⟨wakes, accepted⟩ := Prod.mk.inj same
  obtain ⟨front, whole⟩ := List.getLast?_eq_some_iff.mp latest
  rw [whole, List.filter_append] at last
  simp only [accepted, List.filter_cons, if_true, List.filter_nil, List.getLast?_append,
    List.getLast?_singleton, Option.some_or, Option.some.injEq, Prod.mk.injEq] at last
  obtain ⟨rfl, rfl⟩ := last
  exact ⟨final, wake, deadline, latest, wakes.symm, converted, entry⟩

end

end

section

attribute [local instance] asciiPlatform

/-- The pump is snoozed for a hundred seconds and the snooze is published. -/
def snoozedPump : List Action :=
  [.input (.userUpdate pump (.bypass (some ⟨100, 0⟩)) "operator" 10) 0] ++
    Pipeline.carry ⟨5000000000, 7⟩ ++ [.completion 0 true, .publishOutcome, .jobOutcome 0]

/-- The timer of the snoozed pump is set for the instant its wake time converted to. -/
theorem timers_agree_snoozed :
    ∃ pipeline events slot,
      Pipeline.machine.Run Pipeline.Fed (.start .empty) snoozedPump events pipeline ∧
      pipeline.confirmedWake pump = some ⟨100, 0⟩ ∧
      pipeline.scheduler.registry.get? pump = some slot ∧
      pipeline.scheduler.delayQueue.entries.get? slot = some (pump, 95000000007) := by
  obtain ⟨pipeline, events, run, check⟩ := Pipeline.fed_of_check [] (by simp) (.start .empty)
    snoozedPump
    (fun pipeline _ => pipeline.outstanding pump = [] ∧ pipeline.wakesOf pump = 0 ∧
      pipeline.confirmedWake pump = some ⟨100, 0⟩)
    (by decide)
  obtain ⟨quiet, transit, confirmed⟩ := of_decide_eq_true check
  have wakeless : ∀ key status, (FiniteMap.empty : FiniteMap Key Status).get? key = some status →
      status.wake = none := by simp
  obtain ⟨registered, entries⟩ := timers_agree wakeless run pump quiet transit
  rw [confirmed] at registered
  obtain ⟨slot, found⟩ := Option.isSome_iff_exists.mp registered
  obtain ⟨clock, wake, deadline, last, same, converted, entry⟩ := entries slot found
  have command : ((Pipeline.start .empty).commands pump snoozedPump).getLast? =
      some (⟨5000000000, 7⟩, ⟨pump, some ⟨100, 0⟩⟩) := by decide
  rw [command] at last
  obtain ⟨rfl, rfl⟩ : (⟨5000000000, 7⟩ : Clock) = clock ∧ (⟨100, 0⟩ : Timestamp) = wake := by
    simpa using last
  have instant : timestampSecsToInstant ⟨5000000000, 7⟩ ⟨100, 0⟩ = some 95000000007 := by decide
  obtain rfl := Option.some.inj (instant.symm.trans converted)
  exact ⟨pipeline, events, slot, run, confirmed, found, entry⟩

end

end AcornAlarms
