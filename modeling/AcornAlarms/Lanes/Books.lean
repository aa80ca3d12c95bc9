import AcornAlarms.Engine.CoordinatorLoop
import AcornAlarms.Lanes.Decisions
import AcornAlarms.Lanes.Ledger

/-!
# The books of the coordinator loop

What the ids of a coordinator and its confirmed state say about the history, whatever the
workflow handler does: it may report its jobs in any order, or stop. A handler is a sequence
of small changes, and each of them keeps the books.
-/

namespace AcornAlarms

open Library

variable [Platform]

/-- The job an event commits for a key. -/
def Event.commit? (key : Key) : Event → Option Job
  | .committed job => if job.key = key then some job else none
  | _ => none

/-- The jobs committed for a key, oldest first. -/
def committedOf (key : Key) (past : List Event) : List Job := past.filterMap (Event.commit? key)

/-- Events that neither record a status nor commit a job. -/
def Routine (events : List Event) : Prop :=
  ∀ event ∈ events, event.recordKey? = none ∧ ∀ key, event.commit? key = none

namespace Routine

variable {events first second : List Event}

theorem unrecorded (routine : Routine events) : Unrecorded events :=
  fun event member => (routine event member).1

theorem committedOf_append (routine : Routine events) (past : List Event) (key : Key) :
    committedOf key (past ++ events) = committedOf key past := by
  have nothing : events.filterMap (Event.commit? key) = [] :=
    List.filterMap_eq_nil_iff.mpr fun event member => (routine event member).2 key
  rw [committedOf, List.filterMap_append, nothing, List.append_nil, committedOf]

theorem append (early : Routine first) (late : Routine second) : Routine (first ++ second) :=
  List.forall_mem_append.mpr ⟨early, late⟩

end Routine

namespace AlarmStateCoordinator

variable (self : AlarmStateCoordinator) (port : JobPort)

@[simp] theorem sendNextFor_coordinator (key : Key) :
    (self.sendNextFor port key).coordinator = self := by
  unfold sendNextFor
  split
  · split <;> rfl
  · rfl

theorem sendNextFor_jobs {key : Key} :
    ∀ job ∈ (self.sendNextFor port key).jobs, self.nextJob key = some job := by
  unfold sendNextFor nextJob
  split
  · next found =>
      rw [found]
      split <;> simp
  · simp [Handled.done]

theorem sendNextFor_events (key : Key) :
    ∀ event ∈ (self.sendNextFor port key).events, ∃ job, event = .dispatched job := by
  unfold sendNextFor
  split
  · split <;> simp
  · simp [Handled.done]

theorem sendNextFor_routine (key : Key) : Routine (self.sendNextFor port key).events := by
  intro event member
  obtain ⟨job, rfl⟩ := self.sendNextFor_events port key event member
  exact ⟨rfl, fun _ => rfl⟩

/-- Sending fails exactly if the workflow handler stopped and there is a job for it. -/
theorem sendNextFor_failure (key : Key) : (self.sendNextFor port key).failure =
    if port.workflowRunning = false ∧ (self.speculativeState.get? key).isSome then
      some workflowHandlerStopped else none := by
  unfold sendNextFor
  cases self.speculativeState.get? key with
  | none => simp [Handled.done]
  | some entry => cases running : port.workflowRunning <;> simp

/-- Record a status, and send it on unless a job of its key is in flight. -/
def recordedVia (key : Key) (status : Status) (confirmation : Option Confirmation) : Handled :=
  if (self.speculativeState.get? key).isNone then
    ((self.record key status confirmation).sendNextFor port key).after
      [self.recordEvent key status confirmation]
  else .done (self.record key status confirmation) [self.recordEvent key status confirmation]

/-- Both update handlers end by recording the status, whether or not the handler runs. -/
theorem speculate_recordedVia (key : Key) (status : Status) (confirmation : Option Confirmation)
    (middle : AlarmStateCoordinator)
    (same : middle =
      { self.record key status confirmation with speculativeState := self.speculativeState }) :
    (middle.speculate port key status self.idCounter).after
        [self.recordEvent key status confirmation] =
      self.recordedVia port key status confirmation := by
  subst same
  unfold speculate recordedVia
  simp only
  split <;> rfl

theorem handleAutomatedUpdate_via (status : Status) : self.handleAutomatedUpdate port status =
    if self.publishes status then self.recordedVia port (Key.from status) status none
    else .done self [] := by
  unfold handleAutomatedUpdate getNextId publishes
  simp only
  split
  · exact self.speculate_recordedVia port _ status none _ rfl
  · rfl

theorem handleUserUpdate_via (key : Key) (action : UserAction) (user : String)
    (confirmation : Confirmation) (now : Int) :
    self.handleUserUpdate port key action user confirmation now =
      if self.allows key action then
        self.recordedVia port key (buildUserStatus key action user now) (some confirmation)
      else
        .done self [.refused confirmation (.stateNotAllowed
          { key
            current := ((self.getLatestStatus key).map fun status => status.state.value).getD
              .unknown
            requested := action.asState })] := by
  unfold handleUserUpdate getNextId allows
  simp only
  split
  · exact self.speculate_recordedVia port key _ (some confirmation) _ rfl
  · rfl

/-- What a committed job leaves to be done before it is written: its entry is dropped, or the
newer one is sent on. -/
def releasedVia (job : Job) : Handled :=
  match self.speculativeState.get? job.key with
  | some (_, specId) =>
      if specId = job.id then .done (self.clear job.key) [] else self.sendNextFor port job.key
  | none => .done self []

/-- A released coordinator is the old one, but perhaps for the entry of the job. -/
theorem releasedVia_coordinator (job : Job) : (self.releasedVia port job).coordinator = self ∨
    (self.releasedVia port job).coordinator = self.clear job.key := by
  unfold releasedVia
  split
  · split
    · exact .inr rfl
    · exact .inl (self.sendNextFor_coordinator port job.key)
  · exact .inl rfl

theorem releasedVia_routine (job : Job) : Routine (self.releasedVia port job).events := by
  unfold releasedVia
  split
  · split
    · simp [Routine, Handled.done]
    · exact self.sendNextFor_routine port job.key
  · simp [Routine, Handled.done]

theorem releasedVia_unpaid (job : Job) (id : Nat) (key : Key) (confirmation : Confirmation) :
    .resolved id key confirmation (.ok ()) ∉ (self.releasedVia port job).events := by
  unfold releasedVia
  split
  · split
    · simp [Handled.done]
    · intro member
      obtain ⟨_, same⟩ := self.sendNextFor_events port job.key _ member
      cases same
  · simp [Handled.done]

theorem reconcileSuccess_via (job : Job) : self.reconcileSuccess port job =
    let sent := (self.settle job).releasedVia port job
    match sent.failure with
    | some cause =>
        { sent with
          events := self.settleEvents job (.ok ()) ++ sent.events
          failure := some cause }
    | none =>
        ⟨sent.coordinator.confirm job, sent.jobs,
          self.settleEvents job (.ok ()) ++ sent.events ++ [.committed job], none⟩ := by
  unfold reconcileSuccess
  simp only [resolve_fst]
  rfl

end AlarmStateCoordinator

/-- The job of an outcome, if it is not a wake-up. -/
def JobOutcome.job? : JobOutcome → Option Job
  | .committed job | .failed job => some job
  | .wake _ => none

/-- What a coordinator's ids and its confirmed state say about the history. -/
structure Books (hydratedStatuses : FiniteMap Key Status) (past : List Event)
    (desk : AlarmStateCoordinator) : Prop where
  ledger : Ledger hydratedStatuses past desk fun _ => none
  store : ∀ key, desk.confirmedState.get? key =
    ((committedOf key past).getLast?.map fun job => (job.status, job.id)).or
      ((hydratedStatuses.get? key).map fun status => (status, defaultHydratedId))
  commits : ∀ job, .committed job ∈ past → Known hydratedStatuses past job.id job.key job.status

namespace Books

variable {hydratedStatuses : FiniteMap Key Status} {past out : List Event}
  {desk : AlarmStateCoordinator} {job : Job}

theorem start (hydratedStatuses : FiniteMap Key Status) :
    Books hydratedStatuses [] (.new hydratedStatuses) where
  ledger := Ledger.start hydratedStatuses
  store := by
    intro key
    simp [committedOf, AlarmStateCoordinator.new]
  commits := by simp

theorem append (books : Books hydratedStatuses past desk) (routine : Routine out) :
    Books hydratedStatuses (past ++ out) desk where
  ledger := books.ledger.append routine.unrecorded
  store := by
    intro key
    rw [routine.committedOf_append, books.store]
  commits := by
    intro job member
    rcases List.mem_append.mp member with early | late
    · exact (books.commits job early).append out
    · have none := (routine _ late).2 job.key
      simp [Event.commit?] at none

theorem record (books : Books hydratedStatuses past desk) (key : Key) (status : Status)
    (confirmation : Option Confirmation) :
    Books hydratedStatuses (past ++ [desk.recordEvent key status confirmation])
      (desk.record key status confirmation) where
  ledger := books.ledger.record key status confirmation
  store := by
    intro other
    have uncommitted : committedOf other (past ++ [desk.recordEvent key status confirmation]) =
        committedOf other past := by
      cases confirmation <;> simp [committedOf, AlarmStateCoordinator.recordEvent, Event.commit?]
    rw [uncommitted]
    exact books.store other
  commits := by
    intro job member
    rcases List.mem_append.mp member with early | late
    · exact (books.commits job early).append _
    · cases confirmation <;> simp [AlarmStateCoordinator.recordEvent] at late

/-- Answering the confirmation of a job. -/
theorem settle (books : Books hydratedStatuses past desk) (job : Job) :
    Books hydratedStatuses past (desk.settle job) where
  ledger := books.ledger.answer job (by simp)
  store := by simpa using books.store
  commits := books.commits

theorem clear (books : Books hydratedStatuses past desk) (key : Key) :
    Books hydratedStatuses past (desk.clear key) where
  ledger := books.ledger.clear key
  store := books.store
  commits := books.commits

theorem converge (books : Books hydratedStatuses past desk) (key : Key) :
    Books hydratedStatuses past (desk.convergeToLastConfirmed key) where
  ledger := books.ledger.converge key
  store := books.store
  commits := books.commits

/-- Writing a job without a confirmation to the confirmed state. -/
theorem confirm (books : Books hydratedStatuses past desk)
    (known : Known hydratedStatuses past job.id job.key job.status)
    (answered : desk.pendingConfirmations.get? job.id = none) :
    Books hydratedStatuses (past ++ [.committed job]) (desk.confirm job) where
  ledger := (books.ledger.confirm known answered).append (.cons rfl .nil)
  store := by
    intro key
    rw [AlarmStateCoordinator.confirm_confirmedState, FiniteMap.get?_insert, committedOf,
      List.filterMap_append]
    by_cases same : key = job.key
    · subst same
      simp [Event.commit?]
    · rw [if_neg same, books.store, committedOf]
      simp [Event.commit?, Ne.symm same]
  commits := by
    intro other member
    rcases List.mem_append.mp member with early | late
    · exact (books.commits other early).append _
    · obtain rfl := Event.committed.inj (List.mem_singleton.mp late)
      exact known.append _

theorem sent (books : Books hydratedStatuses past desk) (port : JobPort) (key : Key) :
    Books hydratedStatuses (past ++ (desk.sendNextFor port key).events)
      (desk.sendNextFor port key).coordinator := by
  rw [AlarmStateCoordinator.sendNextFor_coordinator]
  exact books.append (desk.sendNextFor_routine port key)

theorem recordedVia (books : Books hydratedStatuses past desk) (port : JobPort) (key : Key)
    (status : Status) (confirmation : Option Confirmation) :
    Books hydratedStatuses (past ++ (desk.recordedVia port key status confirmation).events)
      (desk.recordedVia port key status confirmation).coordinator := by
  have recorded := books.record key status confirmation
  unfold AlarmStateCoordinator.recordedVia
  split
  · have dispatched := recorded.sent port key
    rw [List.append_assoc] at dispatched
    exact dispatched
  · exact recorded

theorem automatedUpdate (books : Books hydratedStatuses past desk) (port : JobPort)
    (status : Status) :
    Books hydratedStatuses (past ++ (desk.handleAutomatedUpdate port status).events)
      (desk.handleAutomatedUpdate port status).coordinator := by
  rw [AlarmStateCoordinator.handleAutomatedUpdate_via]
  split
  · exact books.recordedVia port _ status none
  · exact books.append (by simp [Routine, Handled.done])

/-- A message from outside keeps the books. -/
theorem message (books : Books hydratedStatuses past desk) (port : JobPort) (now : Int)
    (message : DomainInput) :
    Books hydratedStatuses (past ++ (desk.handleMessage port now message).events)
      (desk.handleMessage port now message).coordinator := by
  cases message with
  | snapshotRequest sender =>
      have shown : Routine [.snapshot sender desk.snapshotOf] := by
        simp [Routine, Event.recordKey?, Event.commit?]
      exact books.append shown
  | automatedUpdate status => exact books.automatedUpdate port status
  | userUpdate key action user confirmation =>
      simp only [AlarmStateCoordinator.handleMessage, AlarmStateCoordinator.handleUserUpdate_via]
      split
      · exact books.recordedVia port key _ (some confirmation)
      · exact books.append (by simp [Routine, Handled.done, Event.recordKey?, Event.commit?])

/-- The events of an answered confirmation. -/
theorem resolve_routine (desk : AlarmStateCoordinator) (job : Job)
    (answer : Except UpdateError Unit) : Routine (desk.resolve job answer).2 := by
  unfold AlarmStateCoordinator.resolve
  split <;> simp [Routine, Event.recordKey?, Event.commit?]

theorem failure (books : Books hydratedStatuses past desk) (port : JobPort) (job : Job) :
    Books hydratedStatuses (past ++ (desk.reconcileFailure port job).events)
      (desk.reconcileFailure port job).coordinator := by
  have answered : Routine (desk.resolve job (.error (.internal job.key))).2 :=
    resolve_routine desk job _
  have logged : Routine ((desk.resolve job (.error (.internal job.key))).2 ++ [.failed job]) :=
    answered.append (by simp [Routine, Event.recordKey?, Event.commit?])
  simp only [AlarmStateCoordinator.reconcileFailure, AlarmStateCoordinator.resolve_fst]
  split
  · exact (books.settle job).append answered
  · simp only [Handled.after]
    rw [← List.append_assoc past]
    split
    · exact (((books.settle job).converge job.key).append logged).sent port job.key
    · exact ((books.settle job).append logged).sent port job.key

theorem success (books : Books hydratedStatuses past desk) (port : JobPort)
    (known : Known hydratedStatuses past job.id job.key job.status) :
    Books hydratedStatuses (past ++ (desk.reconcileSuccess port job).events)
      (desk.reconcileSuccess port job).coordinator := by
  have answered : Routine (desk.settleEvents job (.ok ())) := resolve_routine desk job _
  have routine := answered.append ((desk.settle job).releasedVia_routine port job)
  have released : Books hydratedStatuses past
      ((desk.settle job).releasedVia port job).coordinator ∧
      ((desk.settle job).releasedVia port job).coordinator.pendingConfirmations =
        (desk.settle job).pendingConfirmations := by
    rcases (desk.settle job).releasedVia_coordinator port job with same | cleared
    · rw [same]
      exact ⟨books.settle job, rfl⟩
    · rw [cleared]
      exact ⟨(books.settle job).clear job.key, rfl⟩
  rw [AlarmStateCoordinator.reconcileSuccess_via]
  simp only
  split
  · exact released.1.append routine
  · rw [← List.append_assoc]
    apply (released.1.append routine).confirm (known.append _)
    rw [released.2, AlarmStateCoordinator.settle_answered]

/-- A job outcome keeps the books, provided its job is known. -/
theorem outcome (books : Books hydratedStatuses past desk) (port : JobPort) (now : Int)
    {outcome : JobOutcome} (known : ∀ job, outcome.job? = some job →
      Known hydratedStatuses past job.id job.key job.status) :
    Books hydratedStatuses (past ++ (desk.reconcileJobOutcome port now outcome).events)
      (desk.reconcileJobOutcome port now outcome).coordinator := by
  cases outcome with
  | committed job => exact books.success port (known job rfl)
  | failed job => exact books.failure port job
  | wake key =>
      have woken : Books hydratedStatuses (past ++ [.woke key]) desk :=
        books.append (by simp [Routine, Event.recordKey?, Event.commit?])
      have updated := woken.automatedUpdate port (buildWakeStatus key now)
      rw [List.append_assoc] at updated
      exact updated

end Books

/-- What every handler leaves: jobs that are the next ones of the coordinator it leaves, and,
if it did not fail, a commit for every confirmation it answered well. -/
structure Handled.Sound (handled : Handled) (before : AlarmStateCoordinator) : Prop where
  jobs : ∀ job ∈ handled.jobs, handled.coordinator.nextJob job.key = some job
  paid : handled.failure = none → ∀ id key confirmation,
    .resolved id key confirmation (.ok ()) ∈ handled.events →
      before.pendingConfirmations.get? id = some confirmation ∧
        ∃ job, .committed job ∈ handled.events ∧ job.id = id ∧ job.key = key

namespace AlarmStateCoordinator

variable (self : AlarmStateCoordinator) (port : JobPort)

/-- A handler that answers no confirmation well. -/
theorem sound_of_unpaid {handled : Handled}
    (jobs : ∀ job ∈ handled.jobs, handled.coordinator.nextJob job.key = some job)
    (unpaid : ∀ event ∈ handled.events, ∀ id key confirmation,
      event ≠ .resolved id key confirmation (.ok ())) : handled.Sound self where
  jobs := jobs
  paid := fun _ id key confirmation member => absurd rfl (unpaid _ member id key confirmation)

theorem sendNextFor_next {key : Key} : ∀ job ∈ (self.sendNextFor port key).jobs,
    self.nextJob job.key = some job := by
  intro job member
  have next := self.sendNextFor_jobs port job member
  rw [nextJob_key next]
  exact next

theorem recordedVia_sound (key : Key) (status : Status) (confirmation : Option Confirmation)
    (before : List Event) (unpaid : ∀ event ∈ before, ∀ id key confirmation,
      event ≠ .resolved id key confirmation (.ok ())) :
    ((self.recordedVia port key status confirmation).after before).Sound self := by
  have recorded : ∀ id other owed,
      self.recordEvent key status confirmation ≠ .resolved id other owed (.ok ()) := by
    cases confirmation <;> simp [recordEvent]
  unfold recordedVia
  split
  · apply sound_of_unpaid
    · intro job member
      have next := sendNextFor_next _ port job member
      simpa [Handled.after] using next
    · intro event member
      simp only [Handled.after, List.mem_append, List.mem_singleton] at member
      rcases member with early | rfl | sent
      · exact unpaid event early
      · exact recorded
      · obtain ⟨job, rfl⟩ := sendNextFor_events _ port key event sent
        simp
  · apply sound_of_unpaid
    · simp [Handled.after, Handled.done]
    · intro event member
      simp only [Handled.after, Handled.done, List.mem_append, List.mem_singleton] at member
      rcases member with early | rfl
      · exact unpaid event early
      · exact recorded

theorem handleAutomatedUpdate_sound (status : Status) (before : List Event)
    (unpaid : ∀ event ∈ before, ∀ id key confirmation,
      event ≠ .resolved id key confirmation (.ok ())) :
    ((self.handleAutomatedUpdate port status).after before).Sound self := by
  rw [handleAutomatedUpdate_via]
  split
  · exact self.recordedVia_sound port _ status none before unpaid
  · apply sound_of_unpaid
    · simp [Handled.after, Handled.done]
    · simpa [Handled.after, Handled.done] using unpaid

theorem handleMessage_sound (now : Int) (message : DomainInput) :
    (self.handleMessage port now message).Sound self := by
  cases message with
  | snapshotRequest sender =>
      apply sound_of_unpaid <;> simp [handleMessage, handleSnapshot, Handled.done]
  | automatedUpdate status =>
      exact self.handleAutomatedUpdate_sound port status [] (by simp)
  | userUpdate key action user confirmation =>
      simp only [handleMessage, handleUserUpdate_via]
      split
      · exact self.recordedVia_sound port key _ (some confirmation) [] (by simp)
      · apply sound_of_unpaid <;> simp [Handled.done]

theorem reconcileFailure_sound (job : Job) : (self.reconcileFailure port job).Sound self := by
  have answered : ∀ event ∈ (self.resolve job (.error (.internal job.key))).2,
      ∀ id key confirmation, event ≠ .resolved id key confirmation (.ok ()) := by
    unfold resolve
    split <;> simp
  simp only [reconcileFailure]
  split
  · apply sound_of_unpaid
    · simp
    · exact answered
  · apply sound_of_unpaid
    · intro other member
      have next := sendNextFor_next _ port other member
      simpa [Handled.after] using next
    · intro event member
      simp only [Handled.after, List.mem_append, List.mem_singleton] at member
      rcases member with (early | rfl) | sent
      · exact answered event early
      · simp
      · obtain ⟨next, rfl⟩ := sendNextFor_events _ port job.key event sent
        simp

theorem reconcileSuccess_sound (job : Job) : (self.reconcileSuccess port job).Sound self := by
  have answered : ∀ id key confirmation,
      .resolved id key confirmation (.ok ()) ∈ self.settleEvents job (.ok ()) →
        self.pendingConfirmations.get? id = some confirmation ∧ job.id = id ∧ job.key = key := by
    unfold settleEvents resolve
    split
    · next owed =>
        intro id key confirmation member
        simp only [List.mem_singleton, Event.resolved.injEq, and_true] at member
        obtain ⟨rfl, rfl, rfl⟩ := member
        exact ⟨owed, rfl, rfl⟩
    · simp
  have next : ∀ other ∈ ((self.settle job).releasedVia port job).jobs,
      ((self.settle job).releasedVia port job).coordinator.nextJob other.key = some other := by
    unfold releasedVia
    split
    · split
      · simp [Handled.done]
      · simpa using sendNextFor_next (self.settle job) port
    · simp [Handled.done]
  rw [reconcileSuccess_via]
  simp only
  split
  · exact { jobs := next, paid := by simp }
  · refine { jobs := next, paid := fun _ id key confirmation member => ?_ }
    simp only [List.mem_append, List.mem_singleton, reduceCtorEq, or_false] at member ⊢
    rcases member with early | sent
    · obtain ⟨owed, same, named⟩ := answered id key confirmation early
      exact ⟨owed, job, .inr rfl, same, named⟩
    · exact absurd sent ((self.settle job).releasedVia_unpaid port job id key confirmation)

theorem reconcileJobOutcome_sound (now : Int) (outcome : JobOutcome) :
    (self.reconcileJobOutcome port now outcome).Sound self := by
  cases outcome with
  | committed job => exact self.reconcileSuccess_sound port job
  | failed job => exact self.reconcileFailure_sound port job
  | wake key => exact self.handleAutomatedUpdate_sound port _ [.woke key] (by simp)

end AlarmStateCoordinator

/-- What a loop that still runs keeps. -/
structure CoordinatorLoop.Kept (hydratedStatuses : FiniteMap Key Status) (past : List Event)
    (loop : CoordinatorLoop) : Prop where
  books : Books hydratedStatuses past loop.coordinator
  outstanding : ∀ job ∈ loop.outstanding, Known hydratedStatuses past job.id job.key job.status
  outcomes : ∀ outcome ∈ loop.jobOutcomes, ∀ job, outcome.job? = some job →
    Known hydratedStatuses past job.id job.key job.status
  paid : ∀ id key confirmation, .resolved id key confirmation (.ok ()) ∈ past →
    ∃ job, .committed job ∈ past ∧ job.id = id ∧ job.key = key ∧
      .admitted id key job.status confirmation ∈ past

namespace CoordinatorLoop

variable {hydratedStatuses : FiniteMap Key Status} {past out : List Event}
  {loop taken next : CoordinatorLoop} {action : Action} {handled : Handled}

theorem Kept.start (hydratedStatuses : FiniteMap Key Status) :
    Kept hydratedStatuses [] (.start hydratedStatuses) where
  books := Books.start hydratedStatuses
  outstanding := by simp [CoordinatorLoop.start]
  outcomes := by simp [CoordinatorLoop.start]
  paid := by simp

/-- The handler of an iteration keeps the books. -/
theorem Kept.handles (kept : Kept hydratedStatuses past loop)
    (selects : loop.select action = some (taken, handled)) :
    Books hydratedStatuses (past ++ handled.events) handled.coordinator ∧
      handled.Sound loop.coordinator := by
  cases action with
  | message message now =>
      obtain ⟨_, rfl⟩ := Prod.mk.inj (Option.some.inj selects)
      exact ⟨kept.books.message _ now message, AlarmStateCoordinator.handleMessage_sound _ _ _ _⟩
  | jobOutcome now =>
      simp only [select] at selects
      split at selects
      · next outcome rest queue =>
          obtain ⟨_, rfl⟩ := Prod.mk.inj (Option.some.inj selects)
          refine ⟨kept.books.outcome _ now (kept.outcomes outcome ?_),
            AlarmStateCoordinator.reconcileJobOutcome_sound _ _ _ _⟩
          rw [queue]
          exact List.mem_cons_self
      · cases selects
  | channelsDropped =>
      simp only [select, Option.ite_none_right_eq_some, Option.some.injEq, Prod.mk.injEq] at selects
      obtain ⟨_, _, rfl⟩ := selects
      refine ⟨?_, AlarmStateCoordinator.sound_of_unpaid _ (by simp) (by simp)⟩
      rw [List.append_nil]
      exact kept.books
  | report | wake | workflowStops => cases selects

/-- An iteration takes a job outcome or nothing from the queues of the workflow handler. -/
theorem select_taken (selects : loop.select action = some (taken, handled)) :
    taken.coordinator = loop.coordinator ∧ taken.outstanding = loop.outstanding ∧
      taken.jobOutcomes ⊆ loop.jobOutcomes := by
  cases action with
  | message message now =>
      obtain ⟨rfl, _⟩ := Prod.mk.inj (Option.some.inj selects)
      exact ⟨rfl, rfl, List.Subset.refl _⟩
  | jobOutcome now =>
      simp only [select] at selects
      split at selects
      · next outcome rest queue =>
          obtain ⟨rfl, _⟩ := Prod.mk.inj (Option.some.inj selects)
          rw [queue]
          exact ⟨rfl, rfl, List.subset_cons_self _ _⟩
      · cases selects
  | channelsDropped =>
      simp only [select, Option.ite_none_right_eq_some, Option.some.injEq, Prod.mk.injEq] at selects
      obtain ⟨_, rfl, _⟩ := selects
      exact ⟨rfl, rfl, List.Subset.refl _⟩
  | report | wake | workflowStops => cases selects

/-- The end of an iteration that keeps the loop running. -/
theorem finish_running {self : CoordinatorLoop} (running : (self.finish handled).1.running = true) :
    handled.failure = none ∧ self.finish handled =
      ({ self with
          coordinator := handled.coordinator
          outstanding := self.outstanding ++ handled.jobs }, handled.events) := by
  unfold finish at running ⊢
  split
  · next succeeded => exact ⟨succeeded, rfl⟩
  · next cause failed =>
      rw [failed] at running
      cases running

/-- The confirmation of a job was admitted with the job's status. -/
theorem Kept.admitted (kept : Kept hydratedStatuses past loop) {desk : AlarmStateCoordinator}
    (after : Books hydratedStatuses (past ++ out) desk) {job : Job} {confirmation : Confirmation}
    (known : Known hydratedStatuses (past ++ out) job.id job.key job.status)
    (owed : loop.coordinator.pendingConfirmations.get? job.id = some confirmation) :
    .admitted job.id job.key job.status confirmation ∈ past := by
  obtain ⟨key, status, member⟩ := kept.books.ledger.pending owed
  rcases known with ⟨reserved, _⟩ | issued
  · rw [reserved, kept.books.ledger.reserved] at owed
    cases owed
  · have admitted : Issued (past ++ out) job.id key status :=
      .inr ⟨confirmation, List.mem_append_left _ member⟩
    obtain ⟨rfl, rfl⟩ := after.ledger.unique issued admitted
    exact member

/-- The workflow handler touches its queues only. -/
theorem Kept.queues (kept : Kept hydratedStatuses past loop)
    (same : next.coordinator = loop.coordinator)
    (outstanding : ∀ job ∈ next.outstanding,
      Known hydratedStatuses past job.id job.key job.status)
    (outcomes : ∀ outcome ∈ next.jobOutcomes, ∀ job, outcome.job? = some job →
      Known hydratedStatuses past job.id job.key job.status) :
    Kept hydratedStatuses (past ++ []) next := by
  rw [List.append_nil]
  exact {
    books := by
      rw [same]
      exact kept.books
    outstanding := outstanding
    outcomes := outcomes
    paid := kept.paid }

/-- A step after which the loop runs keeps it. -/
theorem Kept.step (kept : loop.running = true → Kept hydratedStatuses past loop)
    (fires : loop.step action = some (next, out)) (running : next.running = true) :
    Kept hydratedStatuses (past ++ out) next := by
  obtain ⟨turn, taken, rfl, rfl⟩ := turn_of_step fires
  cases taken with
  | @iteration _ taken handled before selects =>
      have kept := kept before
      obtain ⟨books, sound⟩ := kept.handles selects
      obtain ⟨_, outstanding, outcomes⟩ := select_taken selects
      obtain ⟨succeeded, same⟩ := finish_running running
      rw [same]
      refine ⟨books, ?_, ?_, ?_⟩
      · intro job member
        rcases List.mem_append.mp member with early | sent
        · rw [outstanding] at early
          exact (kept.outstanding job early).append _
        · obtain ⟨⟨status, id⟩, found, same⟩ := Option.map_eq_some_iff.mp (sound.jobs job sent)
          have latest := books.ledger.latest found
          rw [← same]
          exact latest
      · intro outcome member job found
        exact (kept.outcomes outcome (outcomes member) job found).append _
      · intro id key confirmation member
        rcases List.mem_append.mp member with early | late
        · obtain ⟨job, committed, same, named, admitted⟩ := kept.paid id key confirmation early
          exact ⟨job, List.mem_append_left _ committed, same, named,
            List.mem_append_left _ admitted⟩
        · obtain ⟨owed, job, committed, rfl, rfl⟩ :=
            sound.paid succeeded id key confirmation late
          have committed := List.mem_append_right past committed
          refine ⟨job, committed, rfl, rfl, List.mem_append_left _ ?_⟩
          exact kept.admitted books (books.commits job committed) owed
  | @report index ok job _ held =>
      have kept := kept running
      refine kept.queues ?_ ?_ ?_
      · rfl
      · exact fun other member => kept.outstanding other (List.mem_of_mem_eraseIdx member)
      · intro outcome member other found
        rcases List.mem_append.mp member with early | late
        · exact kept.outcomes outcome early other found
        · obtain rfl := List.mem_singleton.mp late
          have same : job = other := by cases ok <;> exact Option.some.inj found
          rw [← same]
          exact kept.outstanding job (List.mem_of_getElem? held)
  | @wake key =>
      have kept := kept running
      refine kept.queues ?_ kept.outstanding ?_
      · rfl
      · intro outcome member other found
        rcases List.mem_append.mp member with early | late
        · exact kept.outcomes outcome early other found
        · obtain rfl := List.mem_singleton.mp late
          cases found
  | workflowStops =>
      have kept := kept running
      refine kept.queues ?_ kept.outstanding kept.outcomes
      rfl

/-- A loop that still runs after any run from the start is kept. -/
theorem kept {admits : List Event → CoordinatorLoop → Action → Prop} {actions : List Action}
    (run : machine.Run admits (.start hydratedStatuses) actions past loop)
    (running : loop.running = true) : Kept hydratedStatuses past loop := by
  have always := run.history
    (fun past loop => loop.running = true → Kept hydratedStatuses past loop)
    (fun _ => Kept.start hydratedStatuses)
    (fun before _ fires after => Kept.step before fires after)
  exact always running

end CoordinatorLoop

end AcornAlarms
