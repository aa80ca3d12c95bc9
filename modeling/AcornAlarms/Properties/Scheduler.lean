import AcornAlarms.Effects.SnoozeLoop
import AcornAlarms.Library.History

/-!
# The scheduler accounts for its timers

Registry, delay queue and gauge agree in every run of the scheduler's loop. Every command is
answered once and in order, and a timer fires only for a set that is still in force.
-/

namespace AcornAlarms

open Library

/-- How counting goes with the number of timers. -/
inductive Counted : List SnoozeRecord → Nat → Nat → Prop where
  | none {number} : Counted [] number number
  | set {number} : Counted [.set] number (number + 1)
  | cancel {number} : Counted [.cancel] (number + 1) number
  | invalidWake {number} : Counted [.invalidWake] number number
  | expiration {number} : Counted [.expiration] (number + 1) number

variable {records : List SnoozeRecord} {number left : Nat}

/-- The gauge follows the number of timers. -/
theorem Counted.gauge (counted : Counted records number left) {metrics : SnoozeMetrics}
    (gauge : metrics.inFlightSnoozeTimers = .ofNat number) :
    (records.foldl SnoozeMetrics.record metrics).inFlightSnoozeTimers = .ofNat left := by
  cases counted <;>
    simp [SnoozeMetrics.record, SnoozeMetrics.recordSnoozeSet, SnoozeMetrics.recordSnoozeCancel,
      SnoozeMetrics.recordSnoozeInvalidWake, SnoozeMetrics.recordSnoozeExpiration, gauge]

/-- A timer that is counted out was counted in. -/
theorem Counted.balance (counted : Counted records number left) :
    left + records.count .cancel + records.count .expiration = number + records.count .set := by
  cases counted <;> simp

section

variable [Platform]

namespace SnoozeScheduler

variable {self next : SnoozeScheduler} {clock : Clock} {input : SnoozeInput} {key : Key}

/-- The number of timers. -/
def timers (self : SnoozeScheduler) : Nat := self.registry.keys.length

/-- The delay queue holds as many entries as the registry. -/
theorem Coherent.length_entries (coherent : self.Coherent) :
    self.delayQueue.entries.keys.length = self.timers := by
  apply Nat.le_antisymm
  · apply FiniteMap.length_keys_le_of_image fun _ (entry : Key × Nat) => entry.1
    · intro slot entry found
      rw [coherent.registered found]
      rfl
    · intro first second one two firstHeld secondHeld same
      have firstSlot := coherent.registered firstHeld
      have secondSlot := coherent.registered secondHeld
      rw [same, secondSlot] at firstSlot
      exact (Option.some.inj firstSlot).symm
  · apply FiniteMap.length_keys_le_of_image fun _ slot => slot
    · intro key slot found
      obtain ⟨deadline, held⟩ := coherent.held found
      rw [held]
      rfl
    · intro first second one two firstFound secondFound same
      obtain ⟨_, firstHeld⟩ := coherent.held firstFound
      obtain ⟨_, secondHeld⟩ := coherent.held secondFound
      rw [same, secondHeld] at firstHeld
      exact (Prod.mk.inj (Option.some.inj firstHeld)).1.symm

/-- Taking a key out leaves one timer less. -/
theorem timers_erase (present : (self.registry.get? key).isSome)
    (erased : ∀ other, (next.registry.get? other).isSome =
      ((self.registry.erase key).get? other).isSome) : self.timers = next.timers + 1 := by
  rw [timers, timers, FiniteMap.length_keys_congr erased, FiniteMap.length_keys_erase present]

/-- A command counts as it changes the number of timers. -/
theorem handleSnoozeInput_counted {outcome : SnoozeOutcome}
    (handled : self.handleSnoozeInput clock input = .ok (next, outcome)) :
    Counted (self.records clock input) self.timers next.timers := by
  have registry := handleSnoozeInput_registry handled
  obtain ⟨key, wake⟩ := input
  have unchanged : (∀ other, (next.registry.get? other).isSome =
      (self.registry.get? other).isSome) → next.timers = self.timers :=
    FiniteMap.length_keys_congr
  cases wake with
  | none =>
      cases present : self.registry.contains key with
      | false =>
          have same : next.timers = self.timers := by
            apply unchanged
            intro other
            rw [registry]
            split
            · next named => exact named.1 ▸ present.symm
            · rfl
          rw [same]
          simpa [records, Snooze.from, present] using Counted.none
      | true =>
          have less : self.timers = next.timers + 1 := by
            apply timers_erase present
            intro other
            rw [registry, FiniteMap.get?_erase]
            by_cases same : key = other
            · simp [same, accepts]
            · simp [same, Ne.symm same]
          rw [less]
          simpa [records, Snooze.from, present] using Counted.cancel
  | some wake =>
      cases converted : timestampSecsToInstant clock wake with
      | none =>
          have same : next.timers = self.timers := by
            apply unchanged
            intro other
            rw [registry]
            simp [accepts, converted]
          rw [same]
          simpa [records, Snooze.from, converted] using Counted.invalidWake
      | some instant =>
          cases present : self.registry.contains key with
          | true =>
              have same : next.timers = self.timers := by
                apply unchanged
                intro other
                rw [registry]
                split
                · next named => exact named.1 ▸ present.symm
                · rfl
              rw [same]
              simpa [records, Snooze.from, converted, present] using Counted.none
          | false =>
              have started : (next.registry.get? key).isSome := by
                rw [registry]
                simp [accepts, converted]
              have more : next.timers = self.timers + 1 := by
                apply timers_erase started
                intro other
                by_cases same : other = key
                · subst same
                  simpa [FiniteMap.contains] using present
                · rw [FiniteMap.get?_erase_of_ne _ same, registry]
                  simp [Ne.symm same]
              rw [more]
              simpa [records, Snooze.from, converted, present] using Counted.set

/-- An expiry takes one timer out. -/
theorem expire_counted (coherent : self.Coherent) {slot : Nat}
    (expired : self.expire clock slot = some (next, key)) :
    Counted [.expiration] self.timers next.timers := by
  obtain ⟨found, registry, _⟩ := expire_eq coherent expired
  have less : self.timers = next.timers + 1 := by
    apply timers_erase
    · rw [found]
      rfl
    · simp [registry]
  rw [less]
  exact .expiration

end SnoozeScheduler

namespace SnoozeLoop

variable {self next reached : SnoozeLoop} {events out before : List Event} {action : Action}
  {key : Key}

/-- What the task can do while registry and delay queue agree. -/
inductive Step (self : SnoozeLoop) : List Event → SnoozeLoop → Prop where
  | send {input} (running : self.running = true) :
      Step self [.sent input] { self with commands := self.commands ++ [input] }
  | receive {clock input rest scheduler} (running : self.running = true)
      (front : self.commands = input :: rest)
      (handled : self.scheduler.handleSnoozeInput clock input =
        .ok (scheduler, SnoozeScheduler.answer clock input))
      (coherent : scheduler.Coherent)
      (rejected : SnoozeScheduler.accepts clock input = false → scheduler = self.scheduler) :
      Step self
        (.received clock input :: ((self.scheduler.records clock input).map .recorded ++
          [.outcome (SnoozeScheduler.answer clock input) self.outcomesOpen]))
        { self with
          commands := rest
          scheduler
          metrics := (self.scheduler.records clock input).foldl SnoozeMetrics.record self.metrics
          running := self.outcomesOpen }
  | fire {clock slot scheduler key} (running : self.running = true)
      (expired : self.scheduler.expire clock slot = some (scheduler, key)) :
      Step self [.recorded .expiration, .outcome (.expired key) self.outcomesOpen]
        { self with
          scheduler
          metrics := self.metrics.recordSnoozeExpiration
          running := self.outcomesOpen }
  | dropOutcomes : Step self [] { self with outcomesOpen := false }

/-- Every action is one of these steps. -/
theorem step_cases (coherent : self.scheduler.Coherent)
    (fires : self.step action = some (next, out)) : self.Step out next := by
  cases action with
  | send input =>
      simp only [step, Option.ite_none_right_eq_some, Option.some.injEq] at fires
      obtain ⟨running, same⟩ := fires
      cases same
      exact .send running
  | receive clock =>
      simp only [step] at fires
      split at fires
      · next input rest running front =>
          obtain ⟨scheduler, handled, kept, rejected⟩ :=
            SnoozeScheduler.handleSnoozeInput_eq coherent clock input
          rw [handled] at fires
          cases fires
          exact .receive running front handled kept rejected
      · cases fires
  | fire clock slot =>
      simp only [step, Option.ite_none_right_eq_some] at fires
      obtain ⟨running, taken⟩ := fires
      obtain ⟨⟨scheduler, key⟩, expired, same⟩ := Option.map_eq_some_iff.mp taken
      cases same
      exact .fire running expired
  | dropOutcomes =>
      cases fires
      exact .dropOutcomes

/-- The commands sent to the task. -/
def sentInput : Event → Option SnoozeInput
  | .sent input => some input
  | _ => none

/-- The commands the task took, with the clock it read. -/
def receivedInput : Event → Option (Clock × SnoozeInput)
  | .received clock input => some (clock, input)
  | _ => none

/-- The answers to commands. -/
def answerTo : Event → Option SnoozeOutcome
  | .outcome (.expired _) _ => none
  | .outcome outcome _ => some outcome
  | _ => none

/-- What an event says of the timer of a key: an accepted set starts it, an accepted cancel and
its expiry end it. -/
def timerEvent (key : Key) : Event → Option Bool
  | .received clock input =>
      if input.key = key ∧ SnoozeScheduler.accepts clock input = true then some input.wake.isSome
      else none
  | .outcome (.expired other) _ => if other = key then some false else none
  | _ => none

/-- The last accepted command of the key was a set, and its timer has not fired. -/
def Armed (key : Key) (before : List Event) : Prop :=
  ∃ older clock wake newer, before = older ++ .received clock ⟨key, some wake⟩ :: newer ∧
    SnoozeScheduler.accepts clock ⟨key, some wake⟩ = true ∧
    ∀ later ∈ newer, (∀ clock input, later = .received clock input → input.key = key →
      SnoozeScheduler.accepts clock input = false) ∧
        ∀ delivered, later ≠ .outcome (.expired key) delivered

theorem timerEvent_eq_none_iff {event : Event} :
    timerEvent key event = none ↔
      (∀ clock input, event = .received clock input → input.key = key →
        SnoozeScheduler.accepts clock input = false) ∧
          ∀ delivered, event ≠ .outcome (.expired key) delivered := by
  cases event with
  | received clock input => simp [timerEvent]
  | outcome outcome delivered => cases outcome <;> simp [timerEvent]
  | sent | recorded => simp [timerEvent]

theorem timerEvent_eq_true_iff {event : Event} :
    timerEvent key event = some true ↔
      ∃ clock wake, event = .received clock ⟨key, some wake⟩ ∧
        SnoozeScheduler.accepts clock ⟨key, some wake⟩ = true := by
  cases event with
  | received clock input =>
      obtain ⟨named, wake⟩ := input
      cases wake with
      | none => simp [timerEvent]
      | some wake =>
          simp only [timerEvent, Option.isSome_some, Option.ite_none_right_eq_some, and_true,
            Event.received.injEq, SnoozeInput.mk.injEq, Option.some.injEq]
          constructor
          · rintro ⟨rfl, accepted⟩
            exact ⟨clock, wake, ⟨rfl, rfl, rfl⟩, accepted⟩
          · rintro ⟨_, _, ⟨rfl, rfl, rfl⟩, accepted⟩
            exact ⟨rfl, accepted⟩
  | outcome outcome delivered => cases outcome <;> simp [timerEvent]
  | sent | recorded => simp [timerEvent]

/-- A key is armed exactly if the latest event of its timer started it. -/
theorem armed_iff : Armed key before ↔ latest (timerEvent key) before = some true := by
  simp only [latest_eq_some_iff, timerEvent_eq_true_iff, timerEvent_eq_none_iff]
  constructor
  · rintro ⟨older, clock, wake, newer, split, accepted, silent⟩
    exact ⟨older, _, newer, split, ⟨clock, wake, rfl, accepted⟩, silent⟩
  · rintro ⟨older, _, newer, split, ⟨clock, wake, rfl, accepted⟩, silent⟩
    exact ⟨older, clock, wake, newer, split, accepted, silent⟩

/-- The structures of the scheduler and its history agree. -/
structure Accounted (events : List Event) (reached : SnoozeLoop) : Prop where
  /-- No command met a slot that the delay queue does not hold. -/
  alive : reached.panicked = none
  coherent : reached.scheduler.Coherent
  gauge : reached.metrics.inFlightSnoozeTimers = .ofNat reached.scheduler.timers
  /-- Every decrement of the gauge takes back an increment. -/
  balance : reached.scheduler.timers + events.count (.recorded .cancel) +
    events.count (.recorded .expiration) = events.count (.recorded .set)
  taken : events.filterMap sentInput =
    (events.filterMap receivedInput).map Prod.snd ++ reached.commands
  answered : events.filterMap answerTo = (events.filterMap receivedInput).map fun command =>
    SnoozeScheduler.answer command.1 command.2
  delivered : reached.running = true → ∀ outcome, .outcome outcome false ∉ events
  timed : ∀ key, (reached.scheduler.registry.get? key).isSome = true ↔ Armed key events
  expired : ∀ {before after key delivered},
    events = before ++ .outcome (.expired key) delivered :: after → Armed key before

theorem Accounted.start : Accounted [] new where
  alive := rfl
  coherent := SnoozeScheduler.new_coherent
  gauge := rfl
  balance := rfl
  taken := rfl
  answered := rfl
  delivered := by simp
  timed := by
    intro key
    simp [armed_iff, new, SnoozeScheduler.new]
  expired := by simp

/-- What is only counted says nothing of commands, answers and timers. -/
theorem filterMap_recorded {Value : Type} (pick : Event → Option Value)
    (silent : ∀ record, pick (.recorded record) = none) (records : List SnoozeRecord)
    (tail : List Event) :
    (records.map Event.recorded ++ tail).filterMap pick = tail.filterMap pick := by
  induction records with
  | nil => rfl
  | cons record records ih => simp [silent, ih]

theorem count_recorded (records : List SnoozeRecord) (record : SnoozeRecord)
    (outcome : SnoozeOutcome) (delivered : Bool) :
    (records.map Event.recorded ++ [Event.outcome outcome delivered]).count
        (Event.recorded record) = records.count record := by
  induction records with
  | nil => simp
  | cons first records ih => simp [List.count_cons, ih]

theorem answerTo_answer (clock : Clock) (input : SnoozeInput) (delivered : Bool) :
    answerTo (.outcome (SnoozeScheduler.answer clock input) delivered) =
      some (SnoozeScheduler.answer clock input) := by
  unfold SnoozeScheduler.answer
  split <;> rfl

theorem timerEvent_answer (clock : Clock) (input : SnoozeInput) (delivered : Bool) :
    timerEvent key (.outcome (SnoozeScheduler.answer clock input) delivered) = none := by
  unfold SnoozeScheduler.answer
  split <;> rfl

/-- What a handled command says of a timer. -/
theorem latest_received (clock : Clock) (input : SnoozeInput) (records : List SnoozeRecord)
    (delivered : Bool) :
    latest (timerEvent key) (.received clock input :: (records.map .recorded ++
      [.outcome (SnoozeScheduler.answer clock input) delivered])) =
        timerEvent key (.received clock input) := by
  rw [latest_cons, latest, filterMap_recorded _ (fun _ => rfl)]
  simp [timerEvent_answer]

/-- New events that hold no expiry leave the expiries explained. -/
theorem Accounted.explained (accounted : Accounted events self)
    (fresh : ∀ {before after key delivered},
      out = before ++ .outcome (.expired key) delivered :: after → Armed key (events ++ before)) :
    ∀ {before after key delivered},
      events ++ out = before ++ .outcome (.expired key) delivered :: after → Armed key before := by
  intro before after key delivered split
  rcases split_append split with ⟨rest, old, _⟩ | ⟨early, rfl, new⟩
  · exact accounted.expired old
  · exact fresh new

theorem Accounted.step (accounted : Accounted events self) (step : self.Step out next) :
    Accounted (events ++ out) next := by
  cases step with
  | @send input running =>
      refine { accounted with
        balance := ?_, taken := ?_, answered := ?_, delivered := ?_, timed := ?_, expired := ?_ }
      · simpa using accounted.balance
      · simp [List.filterMap_cons, accounted.taken, sentInput, receivedInput]
      · simpa [List.filterMap_cons, answerTo, receivedInput] using accounted.answered
      · simpa using accounted.delivered
      · intro key
        rw [accounted.timed, armed_iff, armed_iff, latest_append, latest_singleton]
        rfl
      · apply accounted.explained
        intro before after key delivered split
        obtain ⟨_, same⟩ := split_singleton split
        cases same
  | @receive clock input rest scheduler running front handled coherent =>
      have counted := SnoozeScheduler.handleSnoozeInput_counted handled
      constructor
      · exact accounted.alive
      · exact coherent
      · exact counted.gauge accounted.gauge
      · have balance := accounted.balance
        have moved := counted.balance
        have counts : ∀ record, (Event.received clock input ::
            ((self.scheduler.records clock input).map Event.recorded ++
              [Event.outcome (SnoozeScheduler.answer clock input) self.outcomesOpen])).count
                (Event.recorded record) = (self.scheduler.records clock input).count record := by
          intro record
          rw [List.count_cons_of_ne (by simp), count_recorded]
        rw [List.count_append, List.count_append, List.count_append, counts, counts, counts]
        dsimp only
        omega
      · rw [List.filterMap_append, List.filterMap_append, accounted.taken, front,
          List.filterMap_cons, List.filterMap_cons, filterMap_recorded _ (fun _ => rfl),
          filterMap_recorded _ (fun _ => rfl)]
        simp [List.filterMap_cons, sentInput, receivedInput]
      · rw [List.filterMap_append, List.filterMap_append, accounted.answered,
          List.filterMap_cons, List.filterMap_cons, filterMap_recorded _ (fun _ => rfl),
          filterMap_recorded _ (fun _ => rfl)]
        have silent : answerTo (.received clock input) = none := rfl
        simp [List.filterMap_cons, receivedInput, answerTo_answer, silent]
      · intro stays outcome member
        have opened : self.outcomesOpen = true := stays
        simp [opened, accounted.delivered running outcome] at member
      · intro key
        have registry := SnoozeScheduler.handleSnoozeInput_registry handled key
        rw [registry, armed_iff, latest_append, latest_received, timerEvent]
        split
        · simp
        · rw [Option.none_or, ← armed_iff, accounted.timed]
      · apply accounted.explained
        intro before after key delivered split
        have member : .outcome (.expired key) delivered ∈ before ++
            .outcome (.expired key) delivered :: after := by simp
        rw [← split] at member
        simp [Ne.symm (SnoozeScheduler.answer_ne_expired clock input key)] at member
  | @fire clock slot scheduler key running expired =>
      have counted := SnoozeScheduler.expire_counted accounted.coherent expired
      obtain ⟨found, registry, coherent⟩ := SnoozeScheduler.expire_eq accounted.coherent expired
      have armed : Armed key (events ++ [.recorded .expiration]) := by
        have silent : timerEvent key (.recorded .expiration) = none := rfl
        rw [armed_iff, latest_append, latest_singleton, silent, Option.none_or, ← armed_iff,
          ← accounted.timed, found]
        rfl
      constructor
      · exact accounted.alive
      · exact coherent
      · exact counted.gauge accounted.gauge
      · have balance := accounted.balance
        have moved := counted.balance
        simp only [List.count_append, List.count_cons]
        simp at moved ⊢
        omega
      · simpa [List.filterMap_cons, sentInput, receivedInput] using accounted.taken
      · simpa [List.filterMap_cons, answerTo, receivedInput] using accounted.answered
      · intro stays outcome member
        have opened : self.outcomesOpen = true := stays
        simp [opened, accounted.delivered running outcome] at member
      · intro other
        rw [armed_iff, latest_append, latest_cons, latest_singleton]
        by_cases same : key = other
        · simp [registry, timerEvent, same]
        · simp [registry, timerEvent, same, FiniteMap.get?_erase_of_ne _ (Ne.symm same),
            ← armed_iff, accounted.timed]
      · apply accounted.explained
        intro before after other delivered split
        rcases split_pair split with ⟨_, same⟩ | ⟨rfl, same⟩
        · cases same
        · cases same
          exact armed
  | dropOutcomes => simpa using { accounted with }

/-- A rejected command leaves the timers and the gauge as they are. -/
theorem rejected_unchanged (accounted : Accounted events self)
    (fires : self.step action = some (next, out)) {delivered : Bool}
    (rejected : .outcome (.invalidWake key) delivered ∈ out) :
    next.scheduler = self.scheduler ∧
      next.metrics.inFlightSnoozeTimers = self.metrics.inFlightSnoozeTimers := by
  have after := accounted.step (step_cases accounted.coherent fires)
  have same : next.scheduler = self.scheduler := by
    cases step_cases accounted.coherent fires with
    | send | fire | dropOutcomes => simp at rejected
    | receive running front handled coherent unchanged =>
        apply unchanged
        by_contra accepts
        rw [Bool.not_eq_false] at accepts
        simp [SnoozeScheduler.answer, accepts] at rejected
  refine ⟨same, ?_⟩
  rw [after.gauge, accounted.gauge, same]

/-- Of two expiries of a key the later one has a set of its own. -/
theorem Accounted.once (accounted : Accounted events self) {older between newer : List Event}
    {first second : Bool}
    (split : events = older ++ .outcome (.expired key) first :: between ++
      .outcome (.expired key) second :: newer) :
    ∃ clock wake, .received clock ⟨key, some wake⟩ ∈ between ∧
      SnoozeScheduler.accepts clock ⟨key, some wake⟩ = true := by
  obtain ⟨before, clock, wake, after, joined, accepted, silent⟩ := accounted.expired split
  refine ⟨clock, wake, ?_, accepted⟩
  rcases split_append joined with ⟨rest, _, late⟩ | ⟨early, _, inside⟩
  · have expiry : .outcome (.expired key) first ∈ after := by
      rw [late]
      simp
    exact absurd rfl ((silent _ expiry).2 first)
  · cases early with
    | nil => simp at inside
    | cons head tail =>
        rw [(List.cons.inj inside).2]
        simp

/-- Registry, delay queue and gauge agree in every run, every command is answered once and in
order, and a timer fires only for a set in force. -/
theorem timers_accounted {actions : List Action}
    (run : machine.Run Machine.Every new actions events reached) :
    Accounted events reached ∧
      reached.scheduler.delayQueue.entries.keys.length = reached.scheduler.timers ∧
      (∀ {action next out key delivered}, reached.step action = some (next, out) →
        .outcome (.invalidWake key) delivered ∈ out → next.scheduler = reached.scheduler ∧
          next.metrics.inFlightSnoozeTimers = reached.metrics.inFlightSnoozeTimers) ∧
      ∀ {older between newer key first second},
        events = older ++ .outcome (.expired key) first :: between ++
          .outcome (.expired key) second :: newer →
        ∃ clock wake, .received clock ⟨key, some wake⟩ ∈ between ∧
          SnoozeScheduler.accepts clock ⟨key, some wake⟩ = true := by
  have accounted := run.history Accounted Accounted.start fun before _ fires =>
    before.step (step_cases before.coherent fires)
  exact ⟨accounted, accounted.coherent.length_entries,
    fun fires rejected => rejected_unchanged accounted fires rejected,
    fun split => accounted.once split⟩

end SnoozeLoop

end

section

attribute [local instance] asciiPlatform

/-- A timer of the pump is set, replaced and fires; a cancel and a past wake time find none. -/
def pumpTimer : List SnoozeLoop.Action :=
  [.send ⟨pump, some ⟨100, 0⟩⟩, .receive ⟨0, 0⟩, .send ⟨pump, some ⟨50, 0⟩⟩, .receive ⟨0, 0⟩,
   .fire ⟨0, 60 * nanosPerSecond⟩ 0, .send ⟨pump, none⟩, .receive ⟨0, 0⟩,
   .send ⟨pump, some ⟨1, 0⟩⟩, .receive ⟨5 * nanosPerSecond, 0⟩]

theorem SnoozeLoop.timers_accounted_pump : ∃ reached events,
    machine.Run Machine.Every new pumpTimer events reached ∧
      .outcome (.expired pump) true ∈ events ∧ .outcome (.invalidWake pump) true ∈ events ∧
      Accounted events reached := by
  obtain ⟨reached, events, run, check⟩ := run_of_check pumpTimer
    (fun _ events => decide (.outcome (.expired pump) true ∈ events) &&
      decide (.outcome (.invalidWake pump) true ∈ events)) (by decide)
  simp only [Bool.and_eq_true, decide_eq_true_eq] at check
  exact ⟨reached, events, run, check.1, check.2, (timers_accounted run).1⟩

end

end AcornAlarms
