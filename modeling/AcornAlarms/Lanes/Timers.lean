import AcornAlarms.Lanes.Chronicle
import AcornAlarms.Lanes.Reference
import AcornAlarms.Lanes.Wakes

/-!
# Timers and the statuses they stand for

Past the scheduler a job has set or canceled the timer of its key, and it is the only job
of the key that can commit before another command. Its timer may elapse early; the wake-up
then either finds the bypass of the job the latest status and replaces it, or finds it
replaced.
-/

namespace AcornAlarms

open Library

variable [Platform]

/-- What a turn reports about timers: nothing, or one event of the scheduler, or a wake-up the
coordinator handled. -/
inductive Timing (self : Pipeline) (action : Action) (out : List Event) : Prop where
  | untimed (quiet : ∀ event ∈ out, event.Untimed)
  | answered {clock input rest} (taken : action = .snoozeInput clock)
      (queue : self.snoozeInputs = input :: rest)
      (single : out = [.answered input.key input.wake (SnoozeScheduler.accepts clock input)])
  | expired {clock slot key} (taken : action = .expiry clock slot)
      (registered : self.scheduler.registry.get? key = some slot) (single : out = [.expired key])
  | woke {now key waiting rest} (taken : action = .jobOutcome now)
      (queue : self.jobOutcomes = .wake key :: waiting) (first : out = .woke key :: rest)
      (quiet : ∀ event ∈ rest, event.Untimed)

/-- A timer that elapses is registered. -/
theorem Timing.registered {self : Pipeline} {action : Action} {out : List Event} {key : Key}
    (timing : Timing self action out) (expired : .expired key ∈ out) :
    ∃ slot, self.scheduler.registry.get? key = some slot := by
  cases timing with
  | untimed quiet => exact (quiet _ expired).elim
  | answered _ _ single =>
      subst single
      simp at expired
  | expired _ registered single =>
      subst single
      obtain rfl := Event.expired.inj (List.mem_singleton.mp expired)
      exact ⟨_, registered⟩
  | woke _ _ first quiet =>
      subst first
      rcases List.mem_cons.mp expired with same | later
      · cases same
      · exact (quiet _ later).elim

/-- Every turn reports at most one event about a timer. -/
theorem Refines.timing {pipeline next : Pipeline} {lanes : Lanes} {action : Action}
    {out : List Event} (refines : Refines pipeline lanes)
    (fires : pipeline.step action = some (next, out)) : Timing pipeline action out := by
  obtain ⟨turn, taken, _, rfl⟩ := Pipeline.turn_of_step fires
  have coordinated : ∀ (popped : Pipeline) {handled : Handled},
      (∀ event ∈ handled.events, event.Untimed) →
      ∀ event ∈ (popped.coordinate handled).2.2, event.Untimed := by
    intro popped handled quiet
    obtain ⟨later, same, silent⟩ := popped.coordinate_events (List.nil_append _).symm quiet
    rw [same]
    exact silent
  cases taken with
  | @input message now running =>
      exact .untimed (coordinated _
        (pipeline.coordinator.handleMessage_untimed pipeline.jobPort now message))
  | @jobOutcome now outcome rest queue running =>
      cases outcome with
      | committed job =>
          exact .untimed (coordinated _ fun event member =>
            (AlarmStateCoordinator.reconcileSuccess_reconciles _ _ job event member).untimed)
      | failed job =>
          exact .untimed (coordinated _ fun event member =>
            (AlarmStateCoordinator.reconcileFailure_reconciles _ _ job event member).untimed)
      | wake key =>
          obtain ⟨later, same, quiet, _⟩ := refines.wakes_first queue fires
          exact .woke rfl queue same quiet
  | publishOutcome | snoozeOutcome | job => exact .untimed (Pipeline.work_untimed _)
  | @snoozeInput clock input rest queue running =>
      obtain ⟨scheduler, answers, _⟩ :=
        SnoozeScheduler.handleSnoozeInput_eq refines.coherent clock input
      refine .answered rfl queue ?_
      simp only [answers, Pipeline.schedule, SnoozeScheduler.answer_eq_accepted]
  | expiry running expires =>
      obtain ⟨registered, _, _⟩ := SnoozeScheduler.expire_eq refines.coherent expires
      exact .expired rfl registered rfl
  | completion returns => exact .untimed (by simp [Event.Untimed])
  | flush | publish => exact .untimed (by simp)

/-- The answer to a command of a key. -/
def Event.answer? (key : Key) : Event → Option (Option Timestamp × Bool)
  | .answered other wake accepted => if other = key then some (wake, accepted) else none
  | _ => none

/-- The commands of a key and their answers, oldest first. -/
def answersOf (key : Key) (past : List Event) : List (Option Timestamp × Bool) :=
  past.filterMap (Event.answer? key)

/-- An expired timer of the key whose wake-up was not handled. -/
def Waking (key : Key) (past : List Event) : Prop :=
  wakesHandled key past < (expiredTimers key past).length

/-- The timer of a key stands for a wake time: the last command set or canceled it for that
time, and if it elapsed its wake-up is on its way or a newer status overtook it. -/
structure Held (key : Key) (past : List Event) (wake : Option Timestamp) (overtaken : Prop) :
    Prop where
  answer : (answersOf key past).getLast? = some (wake, true) ∨ answersOf key past = [] ∧ wake = none
  timer : timerOf key past = wake ∨ wake.isSome ∧ (Waking key past ∨ overtaken)

section

variable {pipeline : Pipeline} {action : Action} {key : Key} {past out : List Event}
  {wake : Option Timestamp} {overtaken : Prop}

@[simp] theorem answersOf_append :
    answersOf key (past ++ out) = answersOf key past ++ answersOf key out :=
  List.filterMap_append

/-- Events that concern no timer answer no command. -/
theorem answersOf_untimed (quiet : ∀ event ∈ out, event.Untimed) : answersOf key out = [] := by
  apply List.filterMap_eq_nil_iff.mpr
  intro event member
  have still := quiet event member
  cases event <;> first | rfl | exact still.elim

/-- A turn without a command of the key. A timer that elapses was set, and a wake-up that is
handled finds the status of its timer overtaken. -/
theorem Held.append (held : Held key past wake overtaken) (timing : Timing pipeline action out)
    (unanswered : answersOf key out = [])
    (bound : wakesHandled key past ≤ (expiredTimers key past).length)
    (armed : .expired key ∈ out → (timerOf key past).isSome)
    (met : .woke key ∈ out → wake.isSome → overtaken) : Held key (past ++ out) wake overtaken where
  answer := by
    rw [answersOf_append, unanswered, List.append_nil]
    exact held.answer
  timer := by
    cases timing with
    | untimed quiet =>
        obtain ⟨timer, expired, handled⟩ :
            timerOf key (past ++ out) = timerOf key past ∧ _ ∧ _ := Timed.untimed key quiet
        rw [Waking, timer, expired, handled]
        exact held.timer
    | @answered clock input _ _ _ single =>
        subst single
        have different : input.key ≠ key := by
          rintro rfl
          simp [answersOf, Event.answer?] at unanswered
        have timer : timerAfter key (timerOf key past) (.answered input.key input.wake
            (SnoozeScheduler.accepts clock input)) = timerOf key past := by
          cases SnoozeScheduler.accepts clock input <;> simp [timerAfter, different]
        rw [Waking, timerOf_snoc, expiredTimers_snoc, wakesHandled_snoc, timer]
        simpa [Waking] using held.timer
    | @expired _ _ other _ _ single =>
        subst single
        rw [Waking, timerOf_snoc, expiredTimers_snoc, wakesHandled_snoc]
        by_cases same : other = key
        · subst same
          have set := armed List.mem_cons_self
          have some : wake.isSome = true := by
            rcases held.timer with timer | ⟨some, _⟩
            · rw [← timer]
              exact set
            · exact some
          refine .inr ⟨some, .inl ?_⟩
          simp
          omega
        · simpa [Waking, timerAfter, same] using held.timer
    | @woke _ other _ rest _ _ first quiet =>
        subst first
        obtain ⟨timer, expired, handled⟩ : timerOf key (past ++ [.woke other] ++ rest) =
            timerOf key (past ++ [.woke other]) ∧ _ ∧ _ := Timed.untimed key quiet
        rw [List.append_assoc, List.singleton_append] at timer expired handled
        rw [Waking, timer, expired, handled, timerOf_snoc, expiredTimers_snoc, wakesHandled_snoc]
        by_cases same : other = key
        · subst same
          rcases held.timer with timer | ⟨some, _⟩
          · exact .inl timer
          · exact .inr ⟨some, .inr (met List.mem_cons_self some)⟩
        · simpa [Waking, timerAfter, same] using held.timer

/-- The answer to the command of a job whose timer it set or canceled. -/
theorem Held.answered : Held key (past ++ [.answered key wake true]) wake overtaken where
  answer := .inl (by simp [answersOf, Event.answer?])
  timer := .inl (by simp [timerOf_snoc, timerAfter])

/-- What overtakes a wake time may be said differently. -/
theorem Held.mono {other : Prop} (held : Held key past wake overtaken)
    (implies : wake.isSome → overtaken → other) :
    Held key past wake other where
  answer := held.answer
  timer := held.timer.imp_right fun ⟨set, either⟩ => ⟨set, either.imp_right (implies set)⟩

/-- With no wake-up on its way and nothing newer the timer is set as the command said. -/
theorem Held.settled (held : Held key past wake False) (none : ¬ Waking key past) :
    timerOf key past = wake := by
  rcases held.timer with timer | ⟨_, waking | overtaken⟩
  · exact timer
  · exact absurd waking none
  · exact overtaken.elim

end

/-- The timer of a key stands for the wake time of its confirmed status, or of the job whose
command was accepted. -/
structure Armed (key : Key) (past : List Event) (lanes : Lanes) : Prop where
  idle : lanes.stage key = .idle →
    Held key past ((lanes.desk.confirmedState.get? key).bind fun entry => entry.1.wake) False
  carried : ∀ job, lanes.underway key = some job → (lanes.stage key).accepted = true →
    Held key past job.status.wake
      (∀ status, lanes.desk.speculativeState.get? key ≠ some (status, job.id))

namespace Lanes

variable {lanes next : Lanes} {out past : List Event} {key : Key}

/-- A stage past the scheduler is reached from one, or by the answer of the scheduler. -/
theorem Step.accepted_kept (step : lanes.Step out next)
    (accepted : (next.stage key).accepted = true) :
    (lanes.stage key).accepted = true ∨
      ∃ job, lanes.underway key = some job ∧ out = [.answered key job.status.wake true] := by
  have moved : ∀ {changed reached}, next.stage = Function.update lanes.stage changed reached →
      reached.accepted = false → (lanes.stage key).accepted = true := by
    intro changed reached stage unaccepted
    rw [stage, Function.update_apply] at accepted
    split at accepted
    · rw [unaccepted] at accepted
      cases accepted
    · exact accepted
  cases step with
  | still _ => exact .inl accepted
  | start _ _ _ _ _ stage => exact .inl (moved stage rfl)
  | displace _ _ _ _ stage =>
      rw [stage] at accepted
      exact .inl accepted
  | @travel traveled events reached _ move desk stage =>
      by_cases same : key = traveled
      · subst same
        rw [stage, Function.update_self] at accepted
        generalize current : lanes.stage key = before at move
        cases move with
        | receive | reject => cases accepted
        | @answer job verdict =>
            obtain rfl : verdict = true := accepted
            exact .inr ⟨job, by rw [underway, current]; rfl, rfl⟩
        | advance | attempt | retry _ | deliver _ => exact .inl rfl
      · rw [stage, Function.update_of_ne same] at accepted
        exact .inl accepted
  | report desk each =>
      rcases each key with kept | ⟨job, ok, arrived, reached⟩
      · rw [kept] at accepted
        exact .inl accepted
      · exact .inl (by rw [arrived]; rfl)
  | commitLast _ _ _ stage => exact .inl (moved stage rfl)
  | commitNext _ _ _ _ _ stage | rollBack _ _ _ _ _ stage | redispatch _ _ _ _ _ stage =>
      exact .inl (moved stage rfl)

/-- The command of the job of the key is answered. -/
theorem Step.answered_of (step : lanes.Step out next) (answered : answersOf key out ≠ []) :
    ∃ job accepted, lanes.underway key = some job ∧
      out = [.answered key job.status.wake accepted] ∧ next.stage key = .answered job accepted := by
  obtain ⟨answer, member⟩ := List.exists_mem_of_ne_nil _ answered
  obtain ⟨event, inside, found⟩ := List.mem_filterMap.mp member
  cases event with
  | answered other wake accepted =>
      simp only [Event.answer?, Option.ite_none_right_eq_some] at found
      obtain ⟨rfl, _⟩ := found
      obtain ⟨moved, reached, move, _, stage⟩ := step.travels inside trivial
      generalize current : lanes.stage moved = before at move
      cases move with
      | @answer job verdict =>
          obtain ⟨rfl, rfl, rfl⟩ := Event.answered.inj (List.mem_singleton.mp inside)
          exact ⟨job, _, by rw [underway, current]; rfl, rfl, by rw [stage, Function.update_self]⟩
      | receive | advance | reject | attempt => exact absurd inside List.not_mem_nil
      | retry _ | deliver _ => simp at inside
  | _ => cases found

/-- The confirmed status of an idle key is its latest one. -/
theorem latest_of_idle (idle : lanes.stage key = .idle) :
    lanes.desk.getLatestStatus key = (lanes.desk.confirmedState.get? key).map Prod.fst := by
  have absent : lanes.desk.speculativeState.get? key = none := by
    have busy := lanes.busy key
    rw [idle] at busy
    exact Option.not_isSome_iff_eq_none.mp (by simp [busy, Stage.job?])
  rw [AlarmStateCoordinator.getLatestStatus, absent]
  rfl

section

variable {hydratedStatuses : FiniteMap Key Status} {earlier : List Event} {pipeline : Pipeline}
  {action : Action}

/-- A step that answers no command of the key accepts none. -/
theorem Step.accepted_before (step : lanes.Step out next) (unanswered : answersOf key out = [])
    (accepted : (next.stage key).accepted = true) : (lanes.stage key).accepted = true := by
  rcases step.accepted_kept accepted with same | ⟨job, _, rfl⟩
  · exact same
  · simp [answersOf, Event.answer?] at unanswered

/-- The answered command sets or cancels the timer for the job under way. -/
theorem Step.armed_answered (step : lanes.Step out next) (answered : answersOf key out ≠ []) :
    Armed key (past ++ out) next := by
  obtain ⟨job, accepted, under, rfl, stage⟩ := step.answered_of answered
  refine ⟨fun idle => ?_, fun other found taken => ?_⟩
  · rw [stage] at idle
    cases idle
  · rw [underway, stage] at found
    obtain rfl := Option.some.inj found
    rw [stage] at taken
    obtain rfl : accepted = true := taken
    exact .answered

/-- A status recorded for the key overtakes the one its timer stands for. -/
theorem Records.armed {status : Status} {confirmation : Option Confirmation}
    (records : lanes.Records key out next status confirmation) (step : lanes.Step out next)
    (armed : Armed key past lanes) (timing : Timing pipeline action out)
    (ledger : Ledger hydratedStatuses earlier lanes.desk lanes.underway)
    (unanswered : answersOf key out = [])
    (bound : wakesHandled key past ≤ (expiredTimers key past).length)
    (set : .expired key ∈ out → (timerOf key past).isSome) : Armed key (past ++ out) next := by
  refine ⟨fun idle => ?_, fun job under accepted => ?_⟩
  · rcases records.lane with ⟨_, stage⟩ | ⟨⟨job, under⟩, stage⟩
    · rw [stage, Function.update_self] at idle
      cases idle
    · rw [Lanes.underway, ← stage, idle] at under
      cases under
  · rcases records.underway under with same | fresh
    · have overtaken : ∀ status,
          next.desk.speculativeState.get? key ≠ some (status, job.id) := by
        intro other found
        rw [records.desk, AlarmStateCoordinator.record_speculativeState,
          FiniteMap.get?_insert_self] at found
        have below := ledger.below (ledger.job same).2
        have equal := (Prod.mk.inj (Option.some.inj found)).2
        omega
      have held := armed.carried job same (step.accepted_before unanswered accepted)
      exact (held.mono fun _ _ => overtaken).append timing unanswered bound set fun _ _ => overtaken
    · rcases records.lane with ⟨_, stage⟩ | ⟨⟨other, busy⟩, stage⟩
      · rw [stage, Function.update_self] at accepted
        cases accepted
      · rw [Lanes.underway, stage] at under
        have below := ledger.below (ledger.job under).2
        omega

/-- A wake-up that records nothing does not find the bypass its timer was set for. -/
theorem unbypassed (bypasses : ∀ id status, Known hydratedStatuses earlier id key status →
      status.wake.isSome → status.state.value = .bypassed)
    (met : .woke key ∈ out → ∀ status, lanes.desk.getLatestStatus key = some status →
      status.state.value = .bypassed → ∃ event ∈ out, event.recordKey? = some key)
    (unrecorded : ∀ event ∈ out, event.recordKey? ≠ some key) {id : Nat} {status : Status}
    (known : Known hydratedStatuses earlier id key status)
    (latest : lanes.desk.getLatestStatus key = some status) (woke : .woke key ∈ out) :
    ¬ status.wake.isSome := by
  intro some
  obtain ⟨event, member, records⟩ := met woke status latest (bypasses id status known some)
  exact unrecorded event member records

/-- A step that records nothing for the key and answers none of its commands keeps its timer
with the status it stands for, or hands it from the job to the confirmed status. -/
theorem View.armed (view : lanes.View key out next) (step : lanes.Step out next)
    (armed : Armed key past lanes) (timing : Timing pipeline action out)
    (ledger : Ledger hydratedStatuses earlier lanes.desk lanes.underway)
    (unanswered : answersOf key out = [])
    (bound : wakesHandled key past ≤ (expiredTimers key past).length)
    (set : .expired key ∈ out → (timerOf key past).isSome)
    (missed : ∀ {id status}, Known hydratedStatuses earlier id key status →
      lanes.desk.getLatestStatus key = some status → .woke key ∈ out → ¬ status.wake.isSome) :
    Armed key (past ++ out) next := by
  have latest : ∀ {job status}, lanes.underway key = some job →
      lanes.desk.speculativeState.get? key = some (status, job.id) →
      lanes.desk.getLatestStatus key = some job.status := by
    intro job status under found
    rw [same_status ledger under found, AlarmStateCoordinator.getLatestStatus, found]
    rfl
  have carried : ∀ job, lanes.underway key = some job → (lanes.stage key).accepted = true →
      Held key (past ++ out) job.status.wake
        (∀ status, lanes.desk.speculativeState.get? key ≠ some (status, job.id)) := by
    intro job under accepted
    refine (armed.carried job under accepted).append timing unanswered bound set ?_
    intro woke some status found
    exact missed (ledger.job under).2 (latest under found) woke some
  cases view with
  | stays under same confirmed _ _ =>
      refine ⟨fun idle => ?_, fun job found accepted => ?_⟩
      · have before : lanes.stage key = .idle := by
          apply Stage.eq_idle_of_job?
          rw [underway, underway, idle] at under
          exact under.symm
        rw [confirmed]
        refine (armed.idle before).append timing unanswered bound set fun woke some => ?_
        cases present : lanes.desk.confirmedState.get? key with
        | none => simp [present] at some
        | some entry =>
            rw [present] at some
            refine missed (ledger.confirmed present) ?_ woke some
            rw [latest_of_idle before, present]
            rfl
      · rw [same]
        exact carried job (under ▸ found) (step.accepted_before unanswered accepted)
  | commitLast arrived found confirmed stage _ _ _ =>
      refine ⟨fun _ => ?_, fun job under _ => ?_⟩
      · rw [confirmed]
        refine (carried _ (underway_arrived arrived) (by rw [arrived]; rfl)).mono ?_
        exact fun _ overtaken => overtaken _ found
      · rw [underway, stage] at under
        cases under
  | commitNext _ _ _ _ _ stage _ _ _ _ | fails _ _ _ _ _ stage _ _ _ =>
      refine ⟨fun idle => ?_, fun _ _ accepted => ?_⟩
      · rw [stage] at idle
        cases idle
      · rw [stage] at accepted
        cases accepted

/-- A step keeps the timer of a key and the status it stands for together. -/
theorem Step.armed (step : lanes.Step out next) (armed : Armed key past lanes)
    (timing : Timing pipeline action out)
    (ledger : Ledger hydratedStatuses earlier lanes.desk lanes.underway)
    (bound : wakesHandled key past ≤ (expiredTimers key past).length)
    (set : .expired key ∈ out → (timerOf key past).isSome)
    (bypasses : ∀ id status, Known hydratedStatuses earlier id key status → status.wake.isSome →
      status.state.value = .bypassed)
    (met : .woke key ∈ out → ∀ status, lanes.desk.getLatestStatus key = some status →
      status.state.value = .bypassed → ∃ event ∈ out, event.recordKey? = some key) :
    Armed key (past ++ out) next := by
  by_cases unanswered : answersOf key out = []
  · rcases step.seen key with ⟨status, confirmation, records⟩ | ⟨unrecorded, view⟩
    · exact records.armed step armed timing ledger unanswered bound set
    · exact view.armed step armed timing ledger unanswered bound set
        (unbypassed bypasses met unrecorded)
  · exact step.armed_answered unanswered

end

end Lanes

/-- Every status recorded with a wake time is a bypass. -/
def WakesBypassed (past : List Event) : Prop :=
  ∀ id key status, Issued past id key status → status.wake.isSome → status.state.value = .bypassed

namespace Refines

variable {pipeline next : Pipeline} {lanes : Lanes} {past out : List Event} {action : Action}

/-- Updates from Redis and wake-ups have no wake time, and of the user actions only a bypass
has one. -/
theorem wakesBypassed (refines : Refines pipeline lanes) (fed : Pipeline.Fed past pipeline action)
    (fires : pipeline.step action = some (next, out)) : WakesBypassed out := by
  intro id key status issued wake
  obtain ⟨event, member, reports⟩ :
      ∃ event ∈ out, event.verdict? = some (.accepted key status) := by
    rcases issued with member | ⟨confirmation, member⟩
    · exact ⟨_, member, rfl⟩
    · exact ⟨_, member, rfl⟩
  obtain ⟨intake, taken, accepted⟩ := refines.accepted fires member reports
  obtain ⟨_, rfl⟩ := Intake.verdict_accepted accepted
  cases intake with
  | automated update =>
      rcases fed.automated taken with redis | ⟨_, _, _, _, _, same⟩
      · rw [Intake.status, redis.wake] at wake
        cases wake
      · rw [Intake.status, same] at wake
        cases wake
  | user named requested author now =>
      cases requested with
      | bypass _ => rfl
      | acknowledge | activate => cases wake

/-- A wake-up that finds a bypass records its end. -/
theorem woke_records (refines : Refines pipeline lanes)
    (fires : pipeline.step action = some (next, out)) {key : Key} (woke : .woke key ∈ out)
    {status : Status} (latest : lanes.desk.getLatestStatus key = some status)
    (bypassed : status.state.value = .bypassed) : ∃ event ∈ out, event.recordKey? = some key := by
  have absurd : ∀ {events : List Event}, (∀ event ∈ events, event.Untimed) → .woke key ∉ events :=
    fun quiet member => quiet _ member
  cases refines.timing fires with
  | untimed quiet => exact (absurd quiet woke).elim
  | answered _ _ single =>
      subst single
      simp at woke
  | expired _ _ single =>
      subst single
      simp at woke
  | @woke now other waiting rest taken queue first quiet =>
      subst first taken
      obtain rfl : key = other := by
        rcases List.mem_cons.mp woke with same | later
        · exact Event.woke.inj same
        · exact (absurd quiet later).elim
      have taken : pipeline.intake (.jobOutcome now) =
          some (.automated (buildWakeStatus key now)) := by
        simp only [Pipeline.intake, queue]
      have accepts : (Intake.automated (buildWakeStatus key now)).verdict
          (pipeline.coordinator.getLatestStatus (Intake.automated (buildWakeStatus key now)).key) =
          .accepted key (buildWakeStatus key now) := by
        rw [Intake.verdict, Intake.key, Key.from_buildWakeStatus, shouldPublish_wake, refines.desk,
          latest]
        simp [bypassed]
      obtain ⟨event, member, reports⟩ := refines.reports fires taken accepts
      exact ⟨event, member, Event.recordKey?_of_verdict reports⟩

end Refines

/-- After a run fed by Redis from statuses without a wake time, the timer of every key stands
for its status. -/
theorem Pipeline.armed {hydratedStatuses : FiniteMap Key Status} {actions : List Action}
    {events : List Event} {final : Pipeline}
    (wakeless : ∀ key status, hydratedStatuses.get? key = some status → status.wake = none)
    (run : Pipeline.machine.Run Pipeline.Fed (.start hydratedStatuses) actions events final) :
    ∃ lanes, Refines final lanes ∧ Timed events final ∧ ∀ key, Armed key events lanes := by
  suffices all : ∃ lanes, Refines final lanes ∧
      Ledger hydratedStatuses events lanes.desk lanes.underway ∧ Timed events final ∧
      WakesBypassed events ∧ ∀ key, Armed key events lanes by
    obtain ⟨lanes, refines, _, timed, _, armed⟩ := all
    exact ⟨lanes, refines, timed, armed⟩
  refine run.history (fun past state => ∃ lanes, Refines state lanes ∧
    Ledger hydratedStatuses past lanes.desk lanes.underway ∧ Timed past state ∧
    WakesBypassed past ∧ ∀ key, Armed key past lanes) ?_ ?_
  · refine ⟨.start hydratedStatuses, .initial hydratedStatuses, .start hydratedStatuses,
      .start hydratedStatuses, by simp [WakesBypassed, Issued], fun key => ⟨fun _ => ?_, ?_⟩⟩
    · have none : (((Lanes.start hydratedStatuses).desk.confirmedState.get? key).bind
          fun entry => entry.1.wake) = Option.none := by
        cases present : hydratedStatuses.get? key with
        | none => simp [Lanes.start, AlarmStateCoordinator.new, present]
        | some status =>
            simp [Lanes.start, AlarmStateCoordinator.new, present, wakeless key status present]
      rw [none]
      exact ⟨.inr ⟨rfl, rfl⟩, .inl rfl⟩
    · intro job under
      cases under
  · rintro past state action next out ⟨lanes, refines, ledger, timed, bypassed, armed⟩ fed fires
    obtain ⟨nextLanes, step, after⟩ := refines.step fires
    refine ⟨nextLanes, after, step.ledger ledger, timed.step refines fires, ?_, fun key => ?_⟩
    · intro id key status issued
      rcases issued with member | ⟨confirmation, member⟩
      · rcases List.mem_append.mp member with early | late
        · exact bypassed id key status (.inl early)
        · exact refines.wakesBypassed fed fires id key status (.inl late)
      · rcases List.mem_append.mp member with early | late
        · exact bypassed id key status (.inr ⟨confirmation, early⟩)
        · exact refines.wakesBypassed fed fires id key status (.inr ⟨confirmation, late⟩)
    · refine step.armed (armed key) (refines.timing fires) ledger ?_ ?_ ?_ ?_
      · have transit := timed.transit key
        omega
      · intro expired
        obtain ⟨slot, registered⟩ := (refines.timing fires).registered expired
        rw [← timed.registered key, registered]
        rfl
      · intro id status known wake
        rcases known with ⟨_, same⟩ | issued
        · have none : status.wake = .none := by
            rw [same, baseline]
            cases present : hydratedStatuses.get? key with
            | none => rfl
            | some hydrated => exact wakeless key hydrated present
          rw [none] at wake
          cases wake
        · exact bypassed id key status issued wake
      · exact fun woke status latest state => refines.woke_records fires woke latest state

end AcornAlarms
