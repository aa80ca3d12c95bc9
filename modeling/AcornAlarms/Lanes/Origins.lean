import AcornAlarms.Lanes.Books
import AcornAlarms.Properties.Truthfulness

/-!
# Where answers come from

A user update is admitted or refused in the turn that takes it, and its confirmation is
answered under the id and the key it was admitted with.
-/

namespace AcornAlarms

open Library

section

variable [Platform]

/-- The turn an answer stems from. -/
def Event.Stems (action : Action) : Event → Prop
  | .admitted _ key status confirmation => ∃ taken user now,
      action = .input (.userUpdate key taken user confirmation) now ∧
        status = buildUserStatus key taken user now
  | .refused confirmation error => ∃ key taken user now current wake,
      action = .input (.userUpdate key taken user confirmation) now ∧
        userActionAllowed current wake taken = false ∧
        error = .stateNotAllowed { key, current, requested := taken.asState }
  | .snapshot sender _ => ∃ now, action = .input (.snapshotRequest sender) now
  | _ => True

theorem Event.Reconciles.stems {event : Event} (reconciles : event.Reconciles) (action : Action) :
    event.Stems action := by
  cases event <;> trivial

namespace AlarmStateCoordinator

variable (self : AlarmStateCoordinator) (port : JobPort)

/-- Recording a status announces it and sends on at most a job. -/
theorem mem_recordedVia {key : Key} {status : Status} {confirmation : Option Confirmation}
    {event : Event} (member : event ∈ (self.recordedVia port key status confirmation).events) :
    event = self.recordEvent key status confirmation ∨ event.Reconciles := by
  unfold recordedVia at member
  split at member
  · rcases List.mem_cons.mp member with rfl | sent
    · exact .inl rfl
    · exact .inr (sendNextFor_reconciles _ port key _ sent)
  · exact .inl (List.mem_singleton.mp member)

theorem handleAutomatedUpdate_stems (status : Status) (action : Action) :
    ∀ event ∈ (self.handleAutomatedUpdate port status).events, event.Stems action := by
  intro event member
  rw [handleAutomatedUpdate_via] at member
  split at member
  · rcases self.mem_recordedVia port member with rfl | reconciles
    · trivial
    · exact reconciles.stems action
  · exact absurd member List.not_mem_nil

/-- A user update is refused for the latest status its key has. -/
theorem handleUserUpdate_refuses {key : Key} {taken : UserAction} {user : String}
    {confirmation other : Confirmation} {now : Int} {error : UpdateError}
    (member : .refused confirmation error ∈
      (self.handleUserUpdate port key taken user other now).events) :
    self.allows key taken = false ∧ error = .stateNotAllowed
      { key
        current := ((self.getLatestStatus key).map fun status => status.state.value).getD .unknown
        requested := taken.asState } := by
  rw [handleUserUpdate_via] at member
  split at member
  · obtain same | reconciles := self.mem_recordedVia port member
    · cases same
    · exact reconciles.elim
  · next refused =>
      obtain ⟨_, rfl⟩ := Event.refused.inj (List.mem_singleton.mp member)
      rw [Bool.not_eq_true] at refused
      exact ⟨refused, rfl⟩

theorem handleMessage_stems (now : Int) (message : DomainInput) :
    ∀ event ∈ (self.handleMessage port now message).events, event.Stems (.input message now) := by
  intro event member
  cases message with
  | snapshotRequest sender =>
      obtain rfl := List.mem_singleton.mp member
      exact ⟨now, rfl⟩
  | automatedUpdate status => exact self.handleAutomatedUpdate_stems port status _ event member
  | userUpdate key taken user confirmation =>
      rw [handleMessage, handleUserUpdate_via] at member
      split at member
      · rcases self.mem_recordedVia port member with rfl | reconciles
        · exact ⟨taken, user, now, rfl, rfl⟩
        · exact reconciles.stems _
      · next refused =>
          obtain rfl := List.mem_singleton.mp member
          rw [Bool.not_eq_true] at refused
          exact ⟨key, taken, user, now, _, _, rfl, refused, rfl⟩

theorem reconcileJobOutcome_stems (now : Int) (outcome : JobOutcome) (action : Action) :
    ∀ event ∈ (self.reconcileJobOutcome port now outcome).events, event.Stems action := by
  intro event member
  cases outcome with
  | committed job => exact (self.reconcileSuccess_reconciles port job event member).stems action
  | failed job => exact (self.reconcileFailure_reconciles port job event member).stems action
  | wake key =>
      rcases List.mem_cons.mp member with rfl | late
      · trivial
      · exact self.handleAutomatedUpdate_stems port _ action event late

end AlarmStateCoordinator

namespace Pipeline

variable {self next : Pipeline} {action : Action} {out : List Event}

theorem coordinate_stems {handled : Handled}
    (stems : ∀ event ∈ handled.events, event.Stems action) :
    ∀ event ∈ (self.coordinate handled).2.2, event.Stems action := by
  unfold coordinate
  split
  · exact stems
  · refine List.forall_mem_append.mpr ⟨stems, List.forall_mem_cons.mpr ⟨trivial, ?_⟩⟩
    intro event member
    exact (AlarmStateCoordinator.failAllConfirmations_reconciles _ event member).stems action

theorem coordinate_refused {handled : Handled} {confirmation : Confirmation} {error : UpdateError}
    (member : .refused confirmation error ∈ (self.coordinate handled).2.2) :
    .refused confirmation error ∈ handled.events := by
  unfold coordinate at member
  split at member
  · exact member
  · obtain early | late := List.mem_append.mp member
    · exact early
    · obtain same | failing := List.mem_cons.mp late
      · cases same
      · exact (AlarmStateCoordinator.failAllConfirmations_reconciles _ _ failing).elim

/-- Every answer of a step stems from the input the step took. -/
theorem step_stems (fires : self.step action = some (next, out)) :
    ∀ event ∈ out, event.Stems action := by
  obtain ⟨turn, taken, -, rfl⟩ := turn_of_step fires
  cases taken with
  | input running => exact coordinate_stems (AlarmStateCoordinator.handleMessage_stems _ _ _ _)
  | jobOutcome queue running =>
      exact coordinate_stems (AlarmStateCoordinator.reconcileJobOutcome_stems _ _ _ _ _)
  | @publishOutcome outcome rest =>
      cases { self with publishOutcomes := rest }.handler.handlePublishOutcome
        self.workflowPorts outcome <;> simp [work, Event.Stems]
  | @snoozeOutcome outcome rest =>
      cases { self with snoozeOutcomes := rest }.handler.handleSnoozeResult
        self.workflowPorts outcome <;> simp [work, Event.Stems]
  | @job job rest =>
      cases { self with jobs := rest }.handler.handleNewJob self.workflowPorts job <;>
        simp [work, Event.Stems]
  | @snoozeInput clock input rest =>
      cases { self with snoozeInputs := rest }.scheduler.handleSnoozeInput clock input <;>
        simp [schedule, Event.Stems]
  | expiry | completion => simp [Event.Stems]
  | flush | publish => simp

/-- A step that refuses an update took it in a state whose latest status does not allow it. -/
theorem step_refuses (fires : self.step action = some (next, out)) {confirmation : Confirmation}
    {error : UpdateError} (member : .refused confirmation error ∈ out) :
    ∃ key taken user now, action = .input (.userUpdate key taken user confirmation) now ∧
      self.coordinator.allows key taken = false ∧ error = .stateNotAllowed
        { key
          current := ((self.coordinator.getLatestStatus key).map
            fun status => status.state.value).getD .unknown
          requested := taken.asState } := by
  obtain ⟨key, taken, user, now, _, _, rfl, _⟩ := step_stems fires _ member
  refine ⟨key, taken, user, now, rfl, ?_⟩
  obtain ⟨turn, taken, -, rfl⟩ := turn_of_step fires
  cases taken with
  | input running =>
      exact AlarmStateCoordinator.handleUserUpdate_refuses _ _ (coordinate_refused member)

end Pipeline

/-- An answer is given under the id and the key of an admitted update. -/
def Settled (past : List Event) : Prop :=
  ∀ id key confirmation answer, .resolved id key confirmation answer ∈ past →
    ∃ status, .admitted id key status confirmation ∈ past

theorem Lanes.Step.settled {hydratedStatuses : FiniteMap Key Status} {lanes next : Lanes}
    {past out : List Event} (step : lanes.Step out next)
    (ledger : Ledger hydratedStatuses past lanes.desk lanes.underway) (settled : Settled past) :
    Settled (past ++ out) := by
  intro id key confirmation answer member
  rcases List.mem_append.mp member with early | late
  · obtain ⟨status, admitted⟩ := settled id key confirmation answer early
    exact ⟨status, List.mem_append_left _ admitted⟩
  · obtain ⟨job, ok, arrived, rfl, rfl, owed, _⟩ := step.resolves ledger late
    obtain ⟨other, status, admitted⟩ := ledger.pending owed
    -- The id was issued for the key of the job only.
    rcases (ledger.job (underway_settled arrived)).2 with ⟨reserved, _⟩ | issued
    · rw [reserved, ledger.reserved] at owed
      cases owed
    · obtain ⟨rfl, _⟩ := ledger.unique issued (.inr ⟨confirmation, admitted⟩)
      exact ⟨status, List.mem_append_left _ admitted⟩

end

end AcornAlarms
