import AcornAlarms.Lanes.Refinement

/-!
# Which turns record a status

`Pipeline.records` asks the policy, before a turn, whether the coordinator will
record a status in it and for which key. A turn records nothing else.
-/

namespace AcornAlarms

open Library

variable [Platform]

/-- The status a wake-up stands for has its key. -/
@[simp] theorem Key.from_buildWakeStatus (key : Key) (now : Int) :
    Key.from (buildWakeStatus key now) = key :=
  Key.from_eq rfl rfl

/-- The policy on a wake-up: it is suppressed by a status that is neither bypassed nor
unknown and has the default severity. -/
theorem shouldPublish_wake (prev : Option Status) (key : Key) (now : Int) :
    shouldPublish prev (buildWakeStatus key now) =
      prev.all fun status => status.state.value = .bypassed || status.state.value = .unknown ||
        status.severity.value ≠ .unknown := by
  cases prev with
  | none => rfl
  | some status =>
      have state : (buildWakeStatus key now).state.value = .unbypassed := rfl
      have severity : (buildWakeStatus key now).severity.value = .unknown := rfl
      simp only [shouldPublish, state, severity, Option.all_some]
      cases status.state.value <;> simp [isBypassed, transitionAllowed]

namespace AlarmStateCoordinator

/-- Whether the coordinator will record an automated update. -/
def publishes (self : AlarmStateCoordinator) (status : Status) : Bool :=
  shouldPublish (self.getLatestStatus (Key.from status)) status

/-- Whether the coordinator will record a user update. -/
def allows (self : AlarmStateCoordinator) (key : Key) (action : UserAction) : Bool :=
  userActionAllowed (((self.getLatestStatus key).map fun status => status.state.value).getD .unknown)
    ((self.getLatestStatus key).bind fun status => status.wake) action

end AlarmStateCoordinator

namespace Pipeline

/-- The key a turn will record a status for, by the policy. -/
def records (self : Pipeline) : Action → Option Key
  | .input (.automatedUpdate status) _ =>
      if self.coordinator.publishes status then some (Key.from status) else none
  | .input (.userUpdate key action _ _) _ =>
      if self.coordinator.allows key action then some key else none
  | .jobOutcome now =>
      match self.jobOutcomes with
      | .wake key :: _ =>
          if self.coordinator.publishes (buildWakeStatus key now) then some key else none
      | _ => none
  | _ => none

end Pipeline

/-- The events of a recorded status record it and nothing else. -/
theorem AlarmStateCoordinator.recorded_recordKey? {desk : AlarmStateCoordinator} {key other : Key}
    {status : Status} {confirmation : Option Confirmation} {event : Event}
    (member : event ∈ (desk.recorded key status confirmation).events)
    (records : event.recordKey? = some other) : key = other := by
  simp only [AlarmStateCoordinator.recorded, List.mem_cons, List.mem_map] at member
  rcases member with rfl | ⟨job, _, rfl⟩
  · simpa using records
  · cases records

/-- An event of the reconciliation of a job outcome. -/
def Event.Reconciles : Event → Prop
  | .dispatched _ | .resolved _ _ _ _ | .committed _ | .failed _ | .unrecoverable _ => True
  | _ => False

/-- A reconciliation records nothing. -/
theorem Unrecorded.of_reconciles {events : List Event}
    (reconciling : ∀ event ∈ events, event.Reconciles) : Unrecorded events := by
  intro event member
  have reconciles := reconciling event member
  cases event <;> first | rfl | exact reconciles.elim

namespace AlarmStateCoordinator

variable (self : AlarmStateCoordinator)

theorem sendNextFor_reconciles (port : JobPort) (key : Key) :
    ∀ event ∈ (self.sendNextFor port key).events, event.Reconciles := by
  unfold sendNextFor
  split
  · split <;> simp [Event.Reconciles]
  · simp [Handled.done]

theorem resolve_reconciles (job : Job) (answer : Except UpdateError Unit) :
    ∀ event ∈ (self.resolve job answer).2, event.Reconciles := by
  unfold resolve
  split <;> simp [Event.Reconciles]

theorem reconcileFailure_reconciles (port : JobPort) (job : Job) :
    ∀ event ∈ (self.reconcileFailure port job).events, event.Reconciles := by
  have resolved := self.resolve_reconciles job (.error (.internal job.key))
  unfold reconcileFailure
  simp only
  split
  · exact resolved
  · refine List.forall_mem_append.mpr ⟨List.forall_mem_append.mpr ⟨resolved, ?_⟩,
      sendNextFor_reconciles _ port job.key⟩
    simp [Event.Reconciles]

theorem reconcileSuccess_reconciles (port : JobPort) (job : Job) :
    ∀ event ∈ (self.reconcileSuccess port job).events, event.Reconciles := by
  have resolved := self.resolve_reconciles job (.ok ())
  have committed : ∀ {sent : List Event}, (∀ event ∈ sent, event.Reconciles) →
      ∀ event ∈ (self.resolve job (.ok ())).2 ++ sent ++ [.committed job], event.Reconciles := by
    intro sent reconciling
    refine List.forall_mem_append.mpr ⟨List.forall_mem_append.mpr ⟨resolved, reconciling⟩, ?_⟩
    simp [Event.Reconciles]
  simp only [reconcileSuccess]
  -- What is sent on, before the confirmed state is written.
  cases (self.resolve job (.ok ())).1.speculativeState.get? job.key with
  | none => exact committed (by simp [Handled.done])
  | some entry =>
      have sent := sendNextFor_reconciles (self.resolve job (.ok ())).1 port job.key
      by_cases latest : entry.2 = job.id
      · simp only [latest, if_true]
        exact committed (by simp [Handled.done])
      · simp only [latest, if_false]
        split
        · exact List.forall_mem_append.mpr ⟨resolved, sent⟩
        · exact committed sent

theorem failAllConfirmations_reconciles :
    ∀ event ∈ self.failAllConfirmations.2, event.Reconciles := by
  intro event member
  simp only [failAllConfirmations, List.mem_filterMap, Option.map_eq_some_iff] at member
  obtain ⟨_, _, _, _, rfl⟩ := member
  trivial

end AlarmStateCoordinator

namespace Pipeline

variable {self : Pipeline}

theorem coordinate_reconciles {handled : Handled}
    (reconciling : ∀ event ∈ handled.events, event.Reconciles) :
    ∀ event ∈ (self.coordinate handled).2.2, event.Reconciles := by
  unfold coordinate
  split
  · exact reconciling
  · exact List.forall_mem_append.mpr ⟨reconciling, List.forall_mem_cons.mpr
      ⟨trivial, AlarmStateCoordinator.failAllConfirmations_reconciles _⟩⟩

theorem work_unrecorded {result : Except String Worked} :
    Unrecorded (self.work result).2.2 := by
  cases result with
  | ok worked =>
      intro event member
      obtain ⟨key, _, rfl⟩ := List.mem_map.mp member
      rfl
  | error message => exact .cons rfl .nil

theorem schedule_unrecorded {input : SnoozeInput}
    {result : Except String (SnoozeScheduler × SnoozeOutcome)} :
    Unrecorded (self.schedule input result).2.2 := by
  cases result with
  | ok answered => exact .cons rfl .nil
  | error message => exact .cons rfl .nil

/-- A turn that takes neither an input nor a wake-up records nothing. -/
theorem handle_unrecorded {action : Action} {handled : Pipeline × Sent × List Event}
    (fires : self.handle action = some handled)
    (noInput : ∀ message now, action ≠ .input message now)
    (noWake : ∀ now key rest, action = .jobOutcome now → self.jobOutcomes ≠ .wake key :: rest) :
    Unrecorded handled.2.2 := by
  cases turn_of_handle fires with
  | input running => exact absurd rfl (noInput _ _)
  | @jobOutcome now outcome rest queue running =>
      apply Unrecorded.of_reconciles
      apply coordinate_reconciles
      cases outcome with
      | committed job => exact self.coordinator.reconcileSuccess_reconciles self.jobPort job
      | failed job => exact self.coordinator.reconcileFailure_reconciles self.jobPort job
      | wake key => exact absurd queue (noWake now key rest rfl)
  | publishOutcome | snoozeOutcome | job => exact work_unrecorded
  | snoozeInput => exact schedule_unrecorded
  | expiry | completion => exact .cons rfl .nil
  | flush | publish => exact .nil

end Pipeline

namespace Refines

variable {pipeline next : Pipeline} {lanes : Lanes} {out : List Event} {event : Event} {key : Key}

/-- A turn that records a status was bound to. -/
theorem records (refines : Refines pipeline lanes) {action : Action}
    (fires : pipeline.step action = some (next, out)) (member : event ∈ out)
    (records : event.recordKey? = some key) : pipeline.records action = some key := by
  simp only [Pipeline.step, Option.map_eq_some_iff, Prod.exists, Prod.mk.injEq] at fires
  obtain ⟨handled, sent, events, turn, _, rfl⟩ := fires
  by_cases noInput : ∀ message now, action ≠ .input message now
  · by_cases noWake : ∀ now key rest, action = .jobOutcome now →
        pipeline.jobOutcomes ≠ .wake key :: rest
    · rw [Pipeline.handle_unrecorded turn noInput noWake event member] at records
      cases records
    · simp only [ne_eq, not_forall, not_not] at noWake
      obtain ⟨now, waking, rest, rfl, queue⟩ := noWake
      simp only [Pipeline.handle, queue, if_pos refines.coordinatorRunning, refines.jobPort_eq,
        Option.some.injEq, AlarmStateCoordinator.reconcileJobOutcome,
        AlarmStateCoordinator.dispatchAutomatedWake,
        AlarmStateCoordinator.handleAutomatedUpdate_eq] at turn
      split at turn
      · next accepted =>
          have ended : ((pipeline.coordinator.recorded (Key.from (buildWakeStatus waking now))
              (buildWakeStatus waking now) none).after [.woke waking]).failure = none := rfl
          rw [Pipeline.coordinate_ok _ ended] at turn
          simp only [Prod.mk.injEq] at turn
          obtain ⟨_, _, rfl⟩ := turn
          simp only [Handled.after, List.cons_append, List.nil_append, List.mem_cons] at member
          rcases member with rfl | member
          · cases records
          · have same := AlarmStateCoordinator.recorded_recordKey? member records
            rw [Key.from_buildWakeStatus] at same
            rw [← same, Pipeline.records, queue]
            exact if_pos accepted
      · simp only [Handled.after, Handled.done, Pipeline.coordinate_ok, Prod.mk.injEq] at turn
        obtain ⟨_, _, rfl⟩ := turn
        obtain rfl := List.mem_singleton.mp member
        cases records
  · simp only [ne_eq, not_forall, not_not] at noInput
    obtain ⟨message, now, rfl⟩ := noInput
    simp only [Pipeline.handle, if_pos refines.coordinatorRunning, refines.jobPort_eq,
      Option.some.injEq] at turn
    cases message with
    | snapshotRequest sender =>
        simp only [AlarmStateCoordinator.handleMessage, AlarmStateCoordinator.handleSnapshot,
          Handled.done, Pipeline.coordinate_ok, Prod.mk.injEq] at turn
        obtain ⟨_, _, rfl⟩ := turn
        obtain rfl := List.mem_singleton.mp member
        cases records
    | automatedUpdate status =>
        rw [AlarmStateCoordinator.handleMessage,
          AlarmStateCoordinator.handleAutomatedUpdate_eq] at turn
        split at turn
        · next accepted =>
            rw [pipeline.coordinate_ok (AlarmStateCoordinator.recorded_failure ..)] at turn
            simp only [Prod.mk.injEq] at turn
            obtain ⟨_, _, rfl⟩ := turn
            rw [← AlarmStateCoordinator.recorded_recordKey? member records]
            exact if_pos accepted
        · simp only [Handled.done, Pipeline.coordinate_ok, Prod.mk.injEq] at turn
          obtain ⟨_, _, rfl⟩ := turn
          exact absurd member List.not_mem_nil
    | userUpdate key action user confirmation =>
        rw [AlarmStateCoordinator.handleMessage, AlarmStateCoordinator.handleUserUpdate_eq] at turn
        split at turn
        · next allowed =>
            rw [pipeline.coordinate_ok (AlarmStateCoordinator.recorded_failure ..)] at turn
            simp only [Prod.mk.injEq] at turn
            obtain ⟨_, _, rfl⟩ := turn
            rw [← AlarmStateCoordinator.recorded_recordKey? member records]
            exact if_pos allowed
        · simp only [Handled.done, Pipeline.coordinate_ok, Prod.mk.injEq] at turn
          obtain ⟨_, _, rfl⟩ := turn
          obtain rfl := List.mem_singleton.mp member
          cases records

/-- An allowed user update is admitted under the next id. -/
theorem admits (refines : Refines pipeline lanes) {action : UserAction}
    (allowed : pipeline.coordinator.allows key action = true) (user : String)
    (confirmation : Confirmation) (now : Int) :
    ∃ next out, pipeline.step (.input (.userUpdate key action user confirmation) now) =
        some (next, out) ∧
      .admitted pipeline.coordinator.idCounter key (buildUserStatus key action user now)
        confirmation ∈ out := by
  rw [AlarmStateCoordinator.allows] at allowed
  simp only [Pipeline.step, Pipeline.handle, if_pos refines.coordinatorRunning,
    refines.jobPort_eq, AlarmStateCoordinator.handleMessage,
    AlarmStateCoordinator.handleUserUpdate_eq, allowed, if_true, Option.map_some]
  rw [pipeline.coordinate_ok (AlarmStateCoordinator.recorded_failure ..)]
  exact ⟨_, _, rfl, List.mem_cons_self⟩

/-- An automated update the policy suppresses changes nothing. -/
theorem suppresses (refines : Refines pipeline lanes) {status : Status}
    (suppressed : pipeline.coordinator.publishes status = false) (now : Int) :
    pipeline.step (.input (.automatedUpdate status) now) = some (pipeline, []) := by
  rw [AlarmStateCoordinator.publishes] at suppressed
  simp only [Pipeline.step, Pipeline.handle, if_pos refines.coordinatorRunning,
    refines.jobPort_eq, AlarmStateCoordinator.handleMessage,
    AlarmStateCoordinator.handleAutomatedUpdate_eq, suppressed, Bool.false_eq_true, if_false,
    Handled.done, Pipeline.coordinate_ok, Option.map_some, Pipeline.deliver_byCoordinator,
    List.append_nil]

/-- A wake-up the policy suppresses is taken from its queue and changes nothing else. -/
theorem suppressesWake (refines : Refines pipeline lanes) {now : Int} {rest : List JobOutcome}
    (queue : pipeline.jobOutcomes = .wake key :: rest)
    (suppressed : pipeline.coordinator.publishes (buildWakeStatus key now) = false) :
    pipeline.step (.jobOutcome now) =
      some ({ pipeline with jobOutcomes := rest }, [.woke key]) := by
  rw [AlarmStateCoordinator.publishes] at suppressed
  simp only [Pipeline.step, Pipeline.handle, queue, if_pos refines.coordinatorRunning,
    refines.jobPort_eq, AlarmStateCoordinator.reconcileJobOutcome,
    AlarmStateCoordinator.dispatchAutomatedWake, AlarmStateCoordinator.handleAutomatedUpdate_eq,
    suppressed, Bool.false_eq_true, if_false, Handled.after, Handled.done, Pipeline.coordinate_ok,
    Option.map_some, Pipeline.deliver_byCoordinator, List.append_nil]

end Refines

end AcornAlarms
