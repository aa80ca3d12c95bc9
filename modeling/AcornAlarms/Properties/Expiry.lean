import AcornAlarms.Lanes.Wakes

/-!
# Which bypass an expiry ends

A wake-up carries its key and nothing else, and `shouldPublish` decides it against the
latest status of the key like any automated update. It therefore ends whatever bypass the
key then has, and it replaces every status whose severity is not the default one.
-/

namespace AcornAlarms

open Library

section

variable [Platform]

/-- A wake-up meets the bypass its timer was set for, or a status that suppresses it. -/
def Pipeline.meetsOwnBypass (past : List Event) (self : Pipeline) : Action → Bool
  | .jobOutcome _ =>
      match self.jobOutcomes with
      | .wake key :: _ =>
          (self.coordinator.getLatestStatus key).any fun status =>
            (status.state.value = .bypassed && status.wake = expiredTimer key past) ||
              (status.state.value ≠ .bypassed && status.state.value ≠ .unknown &&
                status.severity.value = .unknown)
      | _ => true
  | _ => true

/-- Every wake-up meets its own bypass or is suppressed. -/
def Pipeline.MeetsOwnBypass : List Event → Pipeline → Action → Prop :=
  fun past self action => self.meetsOwnBypass past action = true

/-- A wake-up changes the coordinator or dispatches a job only when the latest status is
bypassed until the wake time of the timer that expired. -/
def Pipeline.EndsOwnBypass : List Event → Pipeline → Action → Prop :=
  fun past self action => ∀ now key rest next out, action = .jobOutcome now →
    self.jobOutcomes = .wake key :: rest → self.step action = some (next, out) →
    (next.coordinator = self.coordinator ∧ next.jobs = self.jobs ∧ out = [.woke key]) ∨
      ∃ status wake, self.coordinator.getLatestStatus key = some status ∧
        status.state.value = .bypassed ∧ status.wake = some wake ∧
        expiredTimer key past = some wake

variable {past : List Event} {pipeline : Pipeline} {lanes : Lanes} {key : Key}

/-- A wake-up the policy accepts changes the coordinator. -/
theorem Refines.wakes (refines : Refines pipeline lanes) {now : Int} {rest : List JobOutcome}
    (queue : pipeline.jobOutcomes = .wake key :: rest)
    (accepted : pipeline.coordinator.publishes (buildWakeStatus key now) = true) :
    ∃ next out, pipeline.step (.jobOutcome now) = some (next, out) ∧
      next.coordinator.idCounter = pipeline.coordinator.idCounter + 1 := by
  rw [AlarmStateCoordinator.publishes] at accepted
  simp only [Pipeline.step, Pipeline.handle, queue, if_pos refines.coordinatorRunning,
    refines.jobPort_eq, AlarmStateCoordinator.reconcileJobOutcome,
    AlarmStateCoordinator.dispatchAutomatedWake, AlarmStateCoordinator.handleAutomatedUpdate_eq,
    accepted, if_true, Option.map_some]
  have ended : ((pipeline.coordinator.recorded (Key.from (buildWakeStatus key now))
      (buildWakeStatus key now) none).after [.woke key]).failure = none := rfl
  rw [Pipeline.coordinate_ok _ ended]
  exact ⟨_, _, rfl, rfl⟩

/-- A wake-up that meets its own bypass or is suppressed does what it should. -/
theorem Timed.endsOwnBypass (timed : Timed past pipeline) (refines : Refines pipeline lanes)
    {action : Action} (meets : Pipeline.MeetsOwnBypass past pipeline action) :
    Pipeline.EndsOwnBypass past pipeline action := by
  rintro now key rest next out rfl queue fires
  simp only [Pipeline.MeetsOwnBypass, Pipeline.meetsOwnBypass, queue, Option.any_eq_true,
    Bool.or_eq_true, Bool.and_eq_true, decide_eq_true_eq] at meets
  obtain ⟨status, latest, ⟨bypassed, own⟩ | ⟨⟨notBypassed, known⟩, mild⟩⟩ := meets
  · obtain ⟨wake, expired⟩ := timed.waking queue
    exact .inr ⟨status, wake, latest, bypassed, own.trans expired, expired⟩
  · have suppressed : pipeline.coordinator.publishes (buildWakeStatus key now) = false := by
      rw [AlarmStateCoordinator.publishes, Key.from_buildWakeStatus, shouldPublish_wake, latest]
      simp [notBypassed, known, mild]
    rw [refines.suppressesWake queue suppressed, Option.some.injEq, Prod.mk.injEq] at fires
    obtain ⟨rfl, rfl⟩ := fires
    exact .inl ⟨rfl, rfl, rfl⟩

/-- A wake-up that does what it should met its own bypass or was suppressed. -/
theorem Refines.meetsOwnBypass (refines : Refines pipeline lanes) {action : Action}
    (ends : Pipeline.EndsOwnBypass past pipeline action) :
    Pipeline.MeetsOwnBypass past pipeline action := by
  unfold Pipeline.MeetsOwnBypass Pipeline.meetsOwnBypass
  split
  · next now =>
      split
      · next key rest queue =>
          rw [Option.any_eq_true]
          cases accepted : pipeline.coordinator.publishes (buildWakeStatus key now) with
          | true =>
              obtain ⟨next, out, fires, counter⟩ := refines.wakes queue accepted
              rcases ends now key rest next out rfl queue fires with
                ⟨same, _, _⟩ | ⟨status, wake, latest, bypassed, own, expired⟩
              · rw [same] at counter
                omega
              · exact ⟨status, latest, by simp [bypassed, own, expired]⟩
          | false =>
              rw [AlarmStateCoordinator.publishes, Key.from_buildWakeStatus, shouldPublish_wake,
                Option.all_eq_false] at accepted
              obtain ⟨status, latest, suppressed⟩ := accepted
              refine ⟨status, latest, Bool.or_eq_true_iff.mpr (.inr ?_)⟩
              simpa [and_assoc] using suppressed
      · rfl
  · rfl

/-- In exactly the runs in which every wake-up meets the bypass its timer was set for, or a
status that suppresses it, an expiry ends only the bypass that set its timer. -/
theorem expiry_ends_own_bypass (hydratedStatuses : FiniteMap Key Status) (actions : List Action)
    (events : List Event) (final : Pipeline) :
    Pipeline.machine.Run Pipeline.MeetsOwnBypass (.start hydratedStatuses) actions events final ↔
      Pipeline.machine.Run Pipeline.EndsOwnBypass (.start hydratedStatuses) actions events
        final := by
  have initial : ∃ lanes, Refines (.start hydratedStatuses) lanes ∧
      Timed [] (.start hydratedStatuses) :=
    ⟨_, Refines.initial hydratedStatuses, Timed.start hydratedStatuses⟩
  have kept : ∀ {past : List Event} {state : Pipeline} {action : Action} {next : Pipeline}
      {out : List Event}, (∃ lanes, Refines state lanes ∧ Timed past state) →
      Pipeline.machine.step state action = some (next, out) →
      ∃ lanes, Refines next lanes ∧ Timed (past ++ out) next := by
    rintro past state action next out ⟨lanes, refines, timed⟩ fires
    obtain ⟨nextLanes, _, after⟩ := refines.step fires
    exact ⟨nextLanes, after, timed.step refines fires⟩
  constructor
  · intro run
    refine run.admit (fun past state => ∃ lanes, Refines state lanes ∧ Timed past state) initial
      kept ?_
    rintro past state action ⟨lanes, refines, timed⟩ meets
    exact timed.endsOwnBypass refines meets
  · intro run
    refine run.admit (fun past state => ∃ lanes, Refines state lanes ∧ Timed past state) initial
      kept ?_
    rintro past state action ⟨lanes, refines, _⟩ ends
    exact refines.meetsOwnBypass ends

end

section

attribute [local instance] asciiPlatform

/-- A snooze of the pump until second 100. -/
def pumpSnooze : Status := buildUserStatus pump (.bypass (some ⟨100, 0⟩)) "operator" 0

/-- The snooze is published and elapses. While its expiry is on its way to the handler a new
alarm is recorded, and the wake-up reaches the coordinator behind it. -/
def staleWake : List Action :=
  [.input (.userUpdate pump (.bypass (some ⟨100, 0⟩)) "operator" 10) 0] ++
  Pipeline.carry ⟨0, 0⟩ ++
  [.completion 0 true, .publishOutcome, .jobOutcome 0, .expiry ⟨200000000000, 200000000000⟩ 0,
    .input (.automatedUpdate (pump.report .alarmed .high)) 0, .snoozeOutcome]

/-- The wake-up of a snooze that is over replaces the alarm that followed it. -/
theorem stale_wake_replaces_alarm :
    ∃ (before after : Pipeline) (events out : List Event),
      Pipeline.machine.Run Pipeline.Prioritized (.start .empty) staleWake events before ∧
      before.jobOutcomes = [.wake pump] ∧
      expiredTimer pump events = some ⟨100, 0⟩ ∧
      before.coordinator.getLatestStatus pump = some (pump.report .alarmed .high) ∧
      before.step (.jobOutcome 0) = some (after, out) ∧
      after.coordinator.getLatestStatus pump = some (buildWakeStatus pump 0) ∧
      ¬ Pipeline.EndsOwnBypass events before (.jobOutcome 0) := by
  obtain ⟨before, events, run, check⟩ := Pipeline.run_of_check .empty staleWake
    (fun before events =>
      before.jobOutcomes = [.wake pump] ∧
      expiredTimer pump events = some ⟨100, 0⟩ ∧
      before.coordinator.getLatestStatus pump = some (pump.report .alarmed .high) ∧
      ((before.step (.jobOutcome 0)).any fun (after, _) =>
        after.coordinator.getLatestStatus pump = some (buildWakeStatus pump 0) ∧
          after.coordinator.idCounter ≠ before.coordinator.idCounter) = true) (by decide)
  obtain ⟨queue, expired, latest, continues⟩ := of_decide_eq_true check
  obtain ⟨after, out, fires, changed⟩ := Pipeline.machine.step_of_check before (.jobOutcome 0)
    (fun after _ => after.coordinator.getLatestStatus pump = some (buildWakeStatus pump 0) ∧
      after.coordinator.idCounter ≠ before.coordinator.idCounter) continues
  obtain ⟨replaced, counter⟩ := of_decide_eq_true changed
  refine ⟨before, after, events, out, run, queue, expired, latest, fires, replaced, ?_⟩
  intro ends
  rcases ends 0 pump [] after out rfl queue fires with ⟨same, _, _⟩ | ⟨status, _, found, bypassed, _⟩
  · exact counter (congrArg _ same)
  · rw [latest] at found
    obtain rfl := Option.some.inj found
    cases bypassed

end

end AcornAlarms
