import AcornAlarms.Engine.Coordinator

/-!
# What the coordinator's handlers do

Each handler in closed form, while the workflow handler runs: which entry it
sets, which job it dispatches and which events it leaves. Later proofs use these
equations and never unfold a handler.
-/

namespace AcornAlarms

open Library

variable [Platform]

/-- The key an event records a status for. -/
def Event.recordKey? : Event → Option Key
  | .recorded _ key _ | .admitted _ key _ _ => some key
  | _ => none

/-- Events of which none records a status. -/
def Unrecorded (events : List Event) : Prop := ∀ event ∈ events, event.recordKey? = none

namespace Unrecorded

variable {first second : List Event} {event : Event}

theorem nil : Unrecorded [] := by simp [Unrecorded]

theorem cons (none : event.recordKey? = .none) (rest : Unrecorded second) :
    Unrecorded (event :: second) := by
  simpa [Unrecorded, none] using rest

theorem append (early : Unrecorded first) (late : Unrecorded second) :
    Unrecorded (first ++ second) := by
  intro event member
  exact (List.mem_append.mp member).elim (early event) (late event)

end Unrecorded

namespace AlarmStateCoordinator

/-- The job `sendNextFor` dispatches for a key. -/
def nextJob (self : AlarmStateCoordinator) (key : Key) : Option Job :=
  (self.speculativeState.get? key).map fun (status, id) =>
    { id, key, status, userInitiated := self.pendingConfirmations.contains id }

/-- Record a status as the latest desired one under a fresh id, with the
confirmation of a user update. -/
def record (self : AlarmStateCoordinator) (key : Key) (status : Status)
    (confirmation : Option Confirmation) : AlarmStateCoordinator :=
  { self with
    speculativeState := self.speculativeState.insert key (status, self.idCounter)
    pendingConfirmations :=
      match confirmation with
      | some confirmation => self.pendingConfirmations.insert self.idCounter confirmation
      | none => self.pendingConfirmations
    idCounter := self.idCounter + 1 }

/-- The event `record` leaves. -/
def recordEvent (self : AlarmStateCoordinator) (key : Key) (status : Status) :
    Option Confirmation → Event
  | some confirmation => .admitted self.idCounter key status confirmation
  | none => .recorded self.idCounter key status

/-- The coordinator once the confirmation of a job is answered. -/
def settle (self : AlarmStateCoordinator) (job : Job) : AlarmStateCoordinator :=
  (self.resolve job (.ok ())).1

/-- The event left by answering the confirmation of a job. -/
def settleEvents (self : AlarmStateCoordinator) (job : Job) (answer : Except UpdateError Unit) :
    List Event :=
  (self.resolve job answer).2

/-- Write a committed job to the confirmed state. -/
def confirm (self : AlarmStateCoordinator) (job : Job) : AlarmStateCoordinator :=
  { self with confirmedState := self.confirmedState.insert job.key (job.status, job.id) }

/-- Drop the speculative entry of a key. -/
def clear (self : AlarmStateCoordinator) (key : Key) : AlarmStateCoordinator :=
  { self with speculativeState := self.speculativeState.erase key }

/-- The confirmed entry of a key, or the default one a rollback stands in for it. -/
def confirmedOrDefault (self : AlarmStateCoordinator) (key : Key) : Status × Nat :=
  (self.confirmedState.get? key).getD (buildDefaultStatus key, defaultHydratedId)

/-- Why a status was recorded: `shouldPublish` accepted it, or it was built for an
allowed user action. -/
inductive Decides (self : AlarmStateCoordinator) (key : Key) :
    Status → Option Confirmation → Prop where
  | automated {status : Status} (names : Key.from status = key)
      (accepted : shouldPublish (self.getLatestStatus key) status = true) :
      Decides self key status none
  | user {action : UserAction} {user : String} {now : Int} {confirmation : Confirmation}
      (allowed : userActionAllowed
        (((self.getLatestStatus key).map fun status => status.state.value).getD .unknown)
        ((self.getLatestStatus key).bind fun status => status.wake) action = true) :
      Decides self key (buildUserStatus key action user now) (some confirmation)

@[simp] theorem recordEvent_recordKey? (self : AlarmStateCoordinator) (key : Key)
    (status : Status) (confirmation : Option Confirmation) :
    (self.recordEvent key status confirmation).recordKey? = some key := by
  cases confirmation <;> rfl

theorem resolve_unrecorded (self : AlarmStateCoordinator) (job : Job)
    (answer : Except UpdateError Unit) :
    Unrecorded (self.resolve job answer).2 := by
  unfold resolve
  split
  · exact .cons rfl .nil
  · exact .nil

section Fields

variable (self : AlarmStateCoordinator) (job : Job) (key other : Key) (status : Status)
  (confirmation : Option Confirmation)

@[simp] theorem record_confirmedState :
    (self.record key status confirmation).confirmedState = self.confirmedState := rfl

@[simp] theorem record_speculativeState : (self.record key status confirmation).speculativeState =
    self.speculativeState.insert key (status, self.idCounter) := rfl

@[simp] theorem record_idCounter :
    (self.record key status confirmation).idCounter = self.idCounter + 1 := rfl

@[simp] theorem settle_confirmedState : (self.settle job).confirmedState = self.confirmedState := by
  unfold settle resolve
  split <;> rfl

@[simp] theorem settle_speculativeState :
    (self.settle job).speculativeState = self.speculativeState := by
  unfold settle resolve
  split <;> rfl

@[simp] theorem settle_idCounter : (self.settle job).idCounter = self.idCounter := by
  unfold settle resolve
  split <;> rfl

theorem settle_pending (id : Nat) : (self.settle job).pendingConfirmations.get? id =
    if id = job.id then none else self.pendingConfirmations.get? id := by
  unfold settle resolve
  split
  · exact FiniteMap.get?_erase _ _ _
  · next missing =>
      split
      · next same => rw [same, missing]
      · rfl

theorem settle_answered : (self.settle job).pendingConfirmations.get? job.id = none := by
  rw [settle_pending, if_pos rfl]

theorem record_pending (id : Nat) :
    (self.record key status confirmation).pendingConfirmations.get? id =
      if id = self.idCounter ∧ confirmation.isSome then confirmation
      else self.pendingConfirmations.get? id := by
  cases confirmation with
  | none => simp [record]
  | some confirmation => simp [record, FiniteMap.get?_insert]

@[simp] theorem confirm_speculativeState :
    (self.confirm job).speculativeState = self.speculativeState := rfl

@[simp] theorem confirm_confirmedState : (self.confirm job).confirmedState =
    self.confirmedState.insert job.key (job.status, job.id) := rfl

@[simp] theorem confirm_pending :
    (self.confirm job).pendingConfirmations = self.pendingConfirmations := rfl

@[simp] theorem confirm_idCounter : (self.confirm job).idCounter = self.idCounter := rfl

@[simp] theorem clear_speculativeState :
    (self.clear key).speculativeState = self.speculativeState.erase key := rfl

@[simp] theorem clear_confirmedState : (self.clear key).confirmedState = self.confirmedState := rfl

@[simp] theorem clear_pending :
    (self.clear key).pendingConfirmations = self.pendingConfirmations := rfl

@[simp] theorem clear_idCounter : (self.clear key).idCounter = self.idCounter := rfl

@[simp] theorem converge_speculativeState :
    (self.convergeToLastConfirmed key).speculativeState =
      self.speculativeState.insert key (self.confirmedOrDefault key) := rfl

@[simp] theorem converge_confirmedState :
    (self.convergeToLastConfirmed key).confirmedState = self.confirmedState := rfl

@[simp] theorem converge_pending :
    (self.convergeToLastConfirmed key).pendingConfirmations = self.pendingConfirmations := rfl

@[simp] theorem converge_idCounter :
    (self.convergeToLastConfirmed key).idCounter = self.idCounter := rfl

theorem resolve_fst (answer : Except UpdateError Unit) :
    (self.resolve job answer).1 = self.settle job := by
  unfold settle resolve
  split <;> rfl

end Fields

theorem nextJob_key {self : AlarmStateCoordinator} {key : Key} {job : Job}
    (next : self.nextJob key = some job) : job.key = key := by
  obtain ⟨entry, _, rfl⟩ := Option.map_eq_some_iff.mp next
  rfl

section Handlers

variable (self : AlarmStateCoordinator)

theorem sendNextFor_eq (key : Key) : self.sendNextFor ⟨true⟩ key =
    ⟨self, (self.nextJob key).toList, (self.nextJob key).toList.map .dispatched, none⟩ := by
  unfold sendNextFor nextJob
  cases self.speculativeState.get? key <;> rfl

/-- A recorded status is dispatched when no job of its key is in flight. -/
def recorded (key : Key) (status : Status) (confirmation : Option Confirmation) : Handled :=
  let next := self.record key status confirmation
  let jobs := if (self.speculativeState.get? key).isNone then (next.nextJob key).toList else []
  ⟨next, jobs, self.recordEvent key status confirmation :: jobs.map .dispatched, none⟩

@[simp] theorem recorded_failure (key : Key) (status : Status)
    (confirmation : Option Confirmation) :
    (self.recorded key status confirmation).failure = none := rfl

/-- Both update handlers end by recording the status. -/
theorem speculate_recorded (key : Key) (status : Status) (confirmation : Option Confirmation)
    (middle : AlarmStateCoordinator)
    (same : middle =
      { self.record key status confirmation with speculativeState := self.speculativeState }) :
    (middle.speculate ⟨true⟩ key status self.idCounter).after
        [self.recordEvent key status confirmation] = self.recorded key status confirmation := by
  subst same
  unfold speculate recorded
  simp only
  split
  · rw [sendNextFor_eq]
    rfl
  · rfl

theorem handleAutomatedUpdate_eq (status : Status) : self.handleAutomatedUpdate ⟨true⟩ status =
    if shouldPublish (self.getLatestStatus (Key.from status)) status then
      self.recorded (Key.from status) status none
    else .done self [] := by
  unfold handleAutomatedUpdate getNextId
  simp only
  split
  · exact speculate_recorded self _ status none _ rfl
  · rfl

theorem handleUserUpdate_eq (key : Key) (action : UserAction) (user : String)
    (confirmation : Confirmation) (now : Int) :
    self.handleUserUpdate ⟨true⟩ key action user confirmation now =
      if userActionAllowed
          (((self.getLatestStatus key).map fun status => status.state.value).getD .unknown)
          ((self.getLatestStatus key).bind fun status => status.wake) action then
        self.recorded key (buildUserStatus key action user now) (some confirmation)
      else
        .done self [.refused confirmation (.stateNotAllowed
          { key
            current := ((self.getLatestStatus key).map fun status => status.state.value).getD
              .unknown
            requested := action.asState })] := by
  unfold handleUserUpdate getNextId
  simp only
  split
  · exact speculate_recorded self key _ (some confirmation) _ rfl
  · rfl

theorem reconcileFailure_eq (job : Job) {status : Status} {specId : Nat}
    (found : self.speculativeState.get? job.key = some (status, specId)) :
    self.reconcileFailure ⟨true⟩ job =
      let next := if specId = job.id ∧ job.userInitiated
        then (self.settle job).convergeToLastConfirmed job.key else self.settle job
      ⟨next, (next.nextJob job.key).toList,
        self.settleEvents job (.error (.internal job.key)) ++ [.failed job] ++
          (next.nextJob job.key).toList.map .dispatched, none⟩ := by
  unfold reconcileFailure settleEvents
  simp only [resolve_fst, settle_speculativeState, found]
  split <;> simp [sendNextFor_eq, Handled.after]

theorem reconcileSuccess_last (job : Job) {status : Status}
    (found : self.speculativeState.get? job.key = some (status, job.id)) :
    self.reconcileSuccess ⟨true⟩ job =
      ⟨((self.settle job).clear job.key).confirm job, [],
        self.settleEvents job (.ok ()) ++ [.committed job], none⟩ := by
  unfold reconcileSuccess settleEvents
  simp [resolve_fst, found, Handled.done, clear, confirm]

theorem reconcileSuccess_next (job : Job) {status : Status} {specId : Nat}
    (found : self.speculativeState.get? job.key = some (status, specId))
    (newer : specId ≠ job.id) :
    self.reconcileSuccess ⟨true⟩ job =
      ⟨(self.settle job).confirm job, ((self.settle job).nextJob job.key).toList,
        self.settleEvents job (.ok ()) ++
          (((self.settle job).nextJob job.key).toList.map .dispatched ++ [.committed job]),
        none⟩ := by
  unfold reconcileSuccess settleEvents
  simp [resolve_fst, found, newer, sendNextFor_eq, confirm]

end Handlers

end AlarmStateCoordinator

end AcornAlarms
